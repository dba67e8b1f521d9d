import StorageOrchestrator.Mesh.Buffer

/-!
# The order of operations on a row

Operations on one row should take effect in the order in which the gateway
accepted them.  The buffer is ordered by creation time and id, and a tick goes
on with later operations after one has failed, so an UPDATE can reach the
owner before the INSERT it follows (`failed_insert_is_overtaken`).

Two conditions restore the order: a new operation comes after the buffered
ones of its row in the buffer's order, and when an operation is not
acknowledged, the rest of the batch has none on its row
(`ordered_run_keeps_order`).
-/

namespace StorageOrchestrator.Mesh.Order

open Lib.Transition Mesh.Table Mesh.Agent Mesh.Gateway Mesh.Buffer List

variable {buffer : List WriteOp} {mesh : MeshState} {next : List WriteOp}

/-! ## Order and its condition -/

/-- Effects come in the order of acceptance and overtake nothing. -/
structure InOrder (effects : List Effect) : Prop where
  overtakesNone : ∀ effect ∈ effects, effect.overtaken = []
  ascending : effects.Pairwise fun first second =>
    first.op.sameRow second.op → first.op.seq ≤ second.op.seq

/-- The step keeps buffer order and batch order in line with acceptance. -/
def KeepsOrder (setting : Setting) (mesh : MeshState) : Event → Prop
  | .write opId createdAt =>
    ∀ write owner, mesh.writer = .routed write owner → ∀ op ∈ mesh.buffer,
        op.sameRow (mesh.opOf write opId createdAt) → ¬ (mesh.opOf write opId createdAt).notAfter op
  | .tick delivery =>
    ∀ roster op owner rest, mesh.tick = .targeted roster op owner rest →
      delivery ≠ .answered ∨ applyOn setting mesh op owner = none →
        ∀ later ∈ rest, ¬ op.sameRow later
  | _ => True

/-! ## Batches in order -/

/-- Whatever precedes an operation of the batch on its row is before it. -/
def InQueue (buffer batch : List WriteOp) : Prop :=
  ∀ front op back, batch = front ++ op :: back →
    ∀ earlier ∈ buffer, earlier.sameRow op → earlier.seq < op.seq → earlier ∈ front

theorem InQueue.nil (buffer : List WriteOp) : InQueue buffer [] := by
  intro init op back split
  simp at split

theorem InQueue.head (queue : InQueue buffer (op :: rest)) (mem : other ∈ buffer)
    (eqRow : other.sameRow op) :
    op.seq ≤ other.seq := by
  by_contra earlier
  exact not_mem_nil (queue [] op rest rfl other mem eqRow (not_le.mp earlier))

/-- The first operation leaves the batch. -/
theorem InQueue.tail {rest : List WriteOp} (queue : InQueue buffer (op :: rest))
    (shrunk : next ⊆ buffer) (pass : op ∈ next → ∀ later ∈ rest, ¬ op.sameRow later) :
    InQueue next rest := by
  intro init later back split early mem eqRow pre
  subst split
  rcases mem_cons.mp (queue (op :: init) later back rfl early
    (shrunk mem) eqRow pre) with isOp | inFront
  · subst isOp
    exact absurd eqRow (pass mem later (by simp))
  · exact inFront

theorem InQueue.enqueue {batch : List WriteOp} {new : WriteOp}
    (queue : InQueue buffer batch) (last : ∀ op ∈ batch, op.seq < new.seq) :
    InQueue (buffer ++ [new]) batch := by
  intro init op back split early mem eqRow pre
  rcases mem_append.mp mem with old | isNew
  · exact queue init op back split early old eqRow pre
  · cases mem_singleton.mp isNew
    have later := last op (by simp [split])
    exact absurd pre (Nat.lt_asymm later)

/-- The buffer's order agrees with acceptance on every row. -/
def Keyed (buffer : List WriteOp) : Prop :=
  ∀ earlier ∈ buffer, ∀ later ∈ buffer, earlier.sameRow later →
    earlier.seq < later.seq → ¬ later.notAfter earlier

theorem Keyed.subset (keyed : Keyed buffer) (shrunk : next ⊆ buffer) : Keyed next :=
  fun early earlierIn later laterIn =>
    keyed early (shrunk earlierIn) later (shrunk laterIn)

theorem Keyed.inQueue_take (keyed : Keyed buffer) (limit : Nat) :
    InQueue buffer (takeWriteOps buffer limit) := by
  intro init op back split early mem eqRow pre
  have sorted := sorted_buffer buffer
  have whole := take_append_drop limit (buffer.insertionSort fun left right => left.notAfter right)
  rw [show take limit (buffer.insertionSort fun left right =>
    left.notAfter right) = init ++ op :: back from split] at whole
  rw [← whole, append_assoc, pairwise_append] at sorted
  have opIn : op ∈ buffer := by
    apply takeWriteOps_subset buffer limit
    rw [split]
    simp
  have has := (mem_insertionSort fun left right : WriteOp =>
    left.notAfter right).mpr mem
  rw [← whole, append_assoc, mem_append] at has
  rcases has with inFront | notBefore
  · exact inFront
  · rcases mem_cons.mp notBefore with isOp | post
    · exact absurd pre (isOp ▸ Nat.lt_irrefl _)
    · have order := (pairwise_cons.mp sorted.2.1).1 early post
      exact absurd order (keyed early mem op opIn eqRow pre)

/-- Dropping whole tables from a batch keeps it in order. -/
theorem InQueue.filter (queue : InQueue buffer batch) (shrunk : next ⊆ buffer)
    (tabs : String → Bool) :
    InQueue next (batch.filter fun op => tabs op.table) := by
  intro init op back split early mem eqRow pre
  rcases filter_eq_append_iff.mp split with ⟨wholeFront, wholeBack, rfl, rfl, backSplit⟩
  rcases filter_eq_cons_iff.mp backSplit with ⟨drop, kept, rfl, droppedAll, opKept, _⟩
  have inFront := queue (wholeFront ++ drop) op kept (by simp) early (shrunk mem) eqRow pre
  have keptTable : tabs early.table := by
    rw [eqRow.1]
    exact opKept
  rcases mem_append.mp inFront with init | inDropped
  · exact mem_filter.mpr ⟨init, keptTable⟩
  · exact absurd keptTable (droppedAll early inDropped)

/-! ## The invariant -/

/-- Buffer, batch and past effects agree with the order of acceptance. -/
structure Ordered (mesh : MeshState) : Prop where
  wellFormed : WellFormed mesh
  keyed : Keyed mesh.buffer
  queue : InQueue mesh.buffer (pending mesh.tick)
  effects : InOrder mesh.effects
  past : ∀ effect ∈ mesh.effects, effect.op.seq < mesh.issued.length ∧
    ∀ op ∈ mesh.buffer, op.sameRow effect.op → effect.op.seq ≤ op.seq

/-- A step that only takes operations out of buffer and batch. -/
theorem Ordered.shrink {next : MeshState} (ord : Ordered mesh) (wf : WellFormed next)
    (buffer : next.buffer ⊆ mesh.buffer) (issued : next.issued = mesh.issued)
    (effects : next.effects = mesh.effects) (queue : InQueue next.buffer (pending next.tick)) :
    Ordered next := by
  constructor
  · exact wf
  · exact ord.keyed.subset buffer
  · exact queue
  · rw [effects]
    exact ord.effects
  · intro effect mem
    rw [effects] at mem
    rcases ord.past effect mem with ⟨bound, wait⟩
    rw [issued]
    exact ⟨bound, fun op inBuf => wait op (buffer inBuf)⟩

theorem Ordered.enqueue (ord : Ordered mesh) (fresh : opId ∉ mesh.issued)
    (last : ∀ op ∈ mesh.buffer, op.sameRow (mesh.opOf write opId createdAt) →
      ¬ (mesh.opOf write opId createdAt).notAfter op) :
    Ordered (mesh.enqueue setting write owner opId createdAt) := by
  have nth := ord.wellFormed.numbered
  constructor
  · exact ord.wellFormed.enqueue fresh
  · intro early earlierIn later laterIn eqRow pre
    rcases mem_append.mp earlierIn with earlierOld | earlierNew
    · rcases mem_append.mp laterIn with laterOld | laterNew
      · exact ord.keyed early earlierOld later laterOld eqRow pre
      · cases mem_singleton.mp laterNew
        exact last early earlierOld eqRow
    · cases mem_singleton.mp earlierNew
      rcases mem_append.mp laterIn with laterOld | laterNew
      · exact absurd pre (Nat.lt_asymm (nth later laterOld))
      · cases mem_singleton.mp laterNew
        exact absurd pre (Nat.lt_irrefl _)
  · apply ord.queue.enqueue
    intro op mem
    exact nth op (ord.wellFormed.inBuffer mem)
  · exact ord.effects
  · intro effect mem
    rcases ord.past effect mem with ⟨bound, wait⟩
    constructor
    · simp only [MeshState.enqueue, length_append, length_singleton]
      exact Nat.lt_succ_of_lt bound
    · intro op inBuf eqRow
      rcases mem_append.mp inBuf with old | new
      · exact wait op old eqRow
      · cases mem_singleton.mp new
        exact Nat.le_of_lt bound

/-- The operation at the head of the batch takes effect in order. -/
theorem Ordered.executed (ord : Ordered mesh) (batch : pending mesh.tick = op :: rest)
    (own : String) (host : Provider) :
    Ordered (mesh.executed op own host) := by
  have queue := ord.queue
  rw [batch] at queue
  have inBuf : op ∈ mesh.buffer := by
    apply ord.wellFormed.inBuffer
    rw [batch]
    exact mem_cons_self
  have overtaken : mesh.overtakenBy op = [] := by
    simp only [MeshState.overtakenBy, filter_eq_nil_iff, decide_eq_true_eq, not_and, not_lt]
    intro early mem eqRow
    exact queue.head mem eqRow
  by_cases skip : op.id ∈ (mesh.providers own).applied
  · have eq : (mesh.executed op own host).effects =
        mesh.effects := by
      simp [MeshState.executed, skip]
    exact ord.shrink (ord.wellFormed.frame rfl rfl (List.Sublist.refl _) ord.wellFormed.manned)
      (List.Subset.refl _) rfl eq ord.queue
  · have effects : (mesh.executed op own host).effects = mesh.effects ++ [⟨op, own, []⟩] := by
      simp [MeshState.executed, skip, overtaken]
    constructor
    · exact ord.wellFormed.frame rfl rfl (List.Sublist.refl _) ord.wellFormed.manned
    · exact ord.keyed
    · exact ord.queue
    · rw [effects]
      constructor
      · intro effect mem
        rcases mem_append.mp mem with old | new
        · exact ord.effects.overtakesNone effect old
        · cases mem_singleton.mp new
          rfl
      · rw [pairwise_append]
        refine ⟨ord.effects.ascending, pairwise_singleton _ _, ?_⟩
        intro first firstIn second secondIn eqRow
        cases mem_singleton.mp secondIn
        exact (ord.past first firstIn).2 op inBuf ⟨eqRow.1.symm, eqRow.2.symm⟩
    · intro effect mem
      rw [effects] at mem
      rcases mem_append.mp mem with old | new
      · exact ord.past effect old
      · cases mem_singleton.mp new
        exact ⟨ord.wellFormed.numbered op inBuf, fun other oin eqRow => queue.head oin eqRow⟩

/-- An admitted step keeps the order. -/
theorem Ordered.step {next : MeshState} (ordered : Ordered mesh)
    (ok : KeepsOrder setting mesh event) (taken : step setting mesh event = some next) :
    Ordered next := by
  have wf := ordered.wellFormed.step taken
  have queue := ordered.queue
  have crew := ordered.wellFormed.manned
  cases moves_of_step taken with
  | refused lock verdict | resting phase => exact ordered
  | enqueued lock new => exact ordered.enqueue new (ok _ _ lock)
  | started phase occupied | finished phase =>
    exact ordered.shrink wf (List.Subset.refl _) rfl rfl (.nil _)
  | loaded phase =>
    apply ordered.shrink wf (filter_subset_self _) rfl rfl
    exact (ordered.keyed.inQueue_take _).filter
      (filter_subset_self _) fun name => (setting.schema name).isSome
  | targeted phase sel | placed phase =>
    rw [phase] at queue
    exact ordered.shrink wf (List.Subset.refl _) rfl rfl queue
  | unrouted phase sel =>
    exact absurd sel (ordered.wellFormed.ownerSelected phase _ _)
  | @acknowledged _ _ own _ host phase done =>
    have ran := ordered.executed (congrArg pending phase) own host
    rw [phase] at queue
    exact ran.shrink wf (List.Subset.refl _) rfl rfl queue
  | @unheard _ _ own _ host phase done =>
    have ran := ordered.executed (congrArg pending phase) own host
    rw [phase] at queue
    apply ran.shrink wf (List.Subset.refl _) rfl rfl
    apply queue.tail (List.Subset.refl _)
    intro kept
    exact ok _ _ _ _ phase (.inl nofun)
  | failed phase fail =>
    rw [phase] at queue
    apply ordered.shrink wf (List.Subset.refl _) rfl rfl
    apply queue.tail (List.Subset.refl _)
    intro kept
    apply ok _ _ _ _ phase
    rcases fail with rfl | fail
    · exact .inl nofun
    · exact .inr fail
  | flushed phase =>
    rw [phase] at queue
    apply ordered.shrink wf (filter_subset_self _) rfl rfl
    apply queue.tail (filter_subset_self _)
    intro kept
    simp at kept
  | _ => exact ordered.shrink wf (List.Subset.refl _) rfl rfl queue

/-! ## Runs -/

/--
In a run whose steps all keep the order, the operations of every row take
effect in the order of acceptance, and none while an earlier one is pending.
-/
theorem ordered_run_keeps_order
    {setting : Setting} {initial final : MeshState} {events : List Event}
    (quiet : Quiet initial)
    (untouched : initial.effects = [])
    (run : GuardedRun (step setting) (KeepsOrder setting) initial events final) :
    InOrder final.effects := by
  have init : Ordered initial := by
    constructor
    · exact quiet.wellFormed
    · simp [Keyed, quiet.flushed]
    · rw [quiet.resting]
      exact .nil _
    · constructor <;> simp [untouched]
    · simp [untouched]
  have path : Ordered final := run.invariant (fun s ev next ord ok ran =>
        Ordered.step ord ok ran)
      init
  exact path.effects

/-- An INSERT and an UPDATE of one note, then a tick. -/
def noteTraffic (first : Delivery) : List Event :=
  noteEvents (.insert (note "a" "old") none) "01" 1 ++
    noteEvents (.update "a" (editNote "a" "new")) "02" 2 ++
    [.tick .answered, .tick .answered, .tick .answered, .tick first,
      .tick .answered, .tick .answered, .tick .answered, .tick .answered]

/-- Both operations are delivered at the first attempt. -/
theorem ordered_run_keeps_order_calm :
    ∃ final, replay (step notesSetting) (.empty ["p1"])
      (noteTraffic .answered) = some final ∧
      final.effects.length = 2 ∧ InOrder final.effects := by
  refine ⟨_, rfl, rfl, ?_⟩
  have run : GuardedRun (step notesSetting) (KeepsOrder notesSetting)
      (.empty ["p1"]) (noteTraffic .answered) _ :=
    .move trivial rfl <|
    .move (fun _ _ => nofun) rfl <|
    .move (fun _ _ => nofun) rfl <|
    .move (fun _ _ _ _ => nofun) rfl <|
    .move (fun _ _ => nofun) rfl <|
    .move trivial rfl <|
    .move (fun _ _ => nofun) rfl <|
    .move (fun _ _ => nofun) rfl <|
    .move (by
        rintro _ _ ⟨⟩ op mem _
        cases mem_singleton.mp mem
        decide) rfl <|
    .move (fun _ _ => nofun) rfl <|
    .move (fun _ _ _ _ => nofun) rfl <|
    .move (fun _ _ _ _ => nofun) rfl <|
    .move (fun _ _ _ _ => nofun) rfl <|
    .move (by
        rintro _ _ _ _ ⟨⟩ (unanswered | fail)
        · exact absurd rfl unanswered
        · cases fail) rfl <|
    .move (fun _ _ _ _ => nofun) rfl <|
    .move (fun _ _ _ _ => nofun) rfl <|
    .move (fun _ _ _ _ => nofun) rfl <|
    .move (by
        rintro _ _ _ _ ⟨⟩ (unanswered | fail)
        · exact absurd rfl unanswered
        · cases fail) rfl (.done _)
  exact ordered_run_keeps_order ⟨rfl, rfl⟩ rfl run

/--
The INSERT does not reach the provider, the tick goes on with the UPDATE, and
the UPDATE takes effect while the INSERT is still in the buffer.
-/
theorem failed_insert_is_overtaken :
    ∃ final, replay (step notesSetting) (.empty ["p1"])
      (noteTraffic .notExecuted) = some final ∧ ¬ InOrder final.effects := by
  refine ⟨_, rfl, ?_⟩
  intro ord
  have overtaken := ord.overtakesNone _ (mem_singleton_self _)
  cases overtaken

end StorageOrchestrator.Mesh.Order
