import StorageOrchestrator.Mesh.Gateway

/-!
# The write buffer and the dispatcher's batch

Operation ids are distinct, and whatever a tick still has before it is in the
buffer.  Both hold in every reachable state, whatever the roster, the clients
and the providers do.
-/

namespace StorageOrchestrator.Mesh.Buffer

open Mesh.Agent Mesh.Gateway List

variable {mesh : MeshState} {roster : List String}

/-- The operations of the batch that the tick has not finished. -/
def pending : Tick → List WriteOp
  | .idle | .started _ => []
  | .ready _ rest => rest
  | .targeted _ op _ rest | .acked _ op _ rest | .placed _ op rest => op :: rest

/-- The roster that the tick works with. -/
def snapshot : Tick → Option (List String)
  | .idle => none
  | .started roster | .ready roster _ | .targeted roster _ _ _ | .acked roster _ _ _
  | .placed roster _ _ => some roster

/-- Ids are distinct and the batch lies in the buffer. -/
structure WellFormed (mesh : MeshState) : Prop where
  known : ∀ op ∈ mesh.buffer, op.id ∈ mesh.issued
  numbered : ∀ op ∈ mesh.buffer, op.seq < mesh.issued.length
  distinct : (mesh.buffer.map WriteOp.id).Nodup
  inBuffer : pending mesh.tick ⊆ mesh.buffer
  queued : ((pending mesh.tick).map WriteOp.id).Nodup
  manned : snapshot mesh.tick ≠ some []

/-- A mesh with nothing buffered and no tick under way. -/
structure Quiet (mesh : MeshState) : Prop where
  flushed : mesh.buffer = []
  resting : mesh.tick = .idle

theorem Quiet.wellFormed (quiet : Quiet mesh) : WellFormed mesh := by
  constructor <;> simp [quiet.flushed, quiet.resting, pending, snapshot]

/-! ## Taking a batch -/

theorem notAfter_total (left right : WriteOp) : left.notAfter right ∨ right.notAfter left := by
  simp only [WriteOp.notAfter, Bool.or_eq_true, Bool.and_eq_true, decide_eq_true_eq, beq_iff_eq]
  rcases lt_trichotomy left.createdAt right.createdAt with early | eq | later
  · exact .inl (.inl early)
  · rcases String.le_total left.id right.id with idOrder | idOrder
    · exact .inl (.inr ⟨eq, idOrder⟩)
    · exact .inr (.inr ⟨eq.symm, idOrder⟩)
  · exact .inr (.inl later)

theorem notAfter_trans {first : WriteOp} (init : first.notAfter second)
    (back : second.notAfter third) :
    first.notAfter third := by
  simp only [WriteOp.notAfter, Bool.or_eq_true, Bool.and_eq_true,
    decide_eq_true_eq, beq_iff_eq] at init back ⊢
  rcases init with init | ⟨frontTime, frontId⟩
  · rcases back with back | ⟨backTime, _⟩
    · exact .inl (init.trans back)
    · exact .inl (backTime ▸ init)
  · rcases back with back | ⟨backTime, backId⟩
    · exact .inl (frontTime ▸ back)
    · exact .inr ⟨frontTime.trans backTime, String.le_trans frontId backId⟩

instance : Std.Total fun left right : WriteOp => (left.notAfter right : Prop) :=
  ⟨notAfter_total⟩

instance : IsTrans WriteOp fun left right => (left.notAfter right : Prop) :=
  ⟨fun _ _ _ => notAfter_trans⟩

/-- The buffer in the order in which batches are taken. -/
theorem sorted_buffer (buffer : List WriteOp) :
    (buffer.insertionSort fun left right => left.notAfter right).Pairwise
      fun left right => left.notAfter right :=
  pairwise_insertionSort _ buffer

theorem takeWriteOps_subset (buffer : List WriteOp) (limit : Nat) :
    takeWriteOps buffer limit ⊆ buffer := by
  intro op mem
  exact (mem_insertionSort _).mp (mem_of_mem_take mem)

section

variable {buffer : List WriteOp} (nodup : (buffer.map WriteOp.id).Nodup)
include nodup

theorem nodup_takeWriteOps (limit : Nat) : ((takeWriteOps buffer limit).map WriteOp.id).Nodup := by
  have sorted : ((buffer.insertionSort fun left right =>
      left.notAfter right).map WriteOp.id).Nodup :=
    (((perm_insertionSort _ buffer).map WriteOp.id).nodup_iff).mpr nodup
  exact sorted.sublist ((take_sublist _ _).map WriteOp.id)

theorem eq_of_id_eq (leftIn : left ∈ buffer) (rightIn : right ∈ buffer) (eq : left.id = right.id)
    : left = right :=
  inj_on_of_nodup_map nodup leftIn rightIn eq

/-! ## Every step keeps the buffer well-formed -/

end

/-- A step that leaves buffer and ids alone and shortens the batch. -/
theorem WellFormed.frame {next : MeshState} (wf : WellFormed mesh)
    (buffer : next.buffer = mesh.buffer) (issued : next.issued = mesh.issued)
    (batch : (pending next.tick).Sublist (pending mesh.tick))
    (crew : snapshot next.tick ≠ some []) :
    WellFormed next := by
  constructor
  · rw [buffer, issued]
    exact wf.known
  · rw [buffer, issued]
    exact wf.numbered
  · rw [buffer]
    exact wf.distinct
  · rw [buffer]
    exact fun op mem => wf.inBuffer (batch.subset mem)
  · exact wf.queued.sublist (batch.map WriteOp.id)
  · exact crew

section

variable (wf : WellFormed mesh)
include wf

theorem WellFormed.enqueue (fresh : opId ∉ mesh.issued) :
    WellFormed (mesh.enqueue setting write owner opId createdAt) := by
  constructor
  · intro op mem
    rcases mem_append.mp mem with old | new
    · exact mem_append_left _ (wf.known op old)
    · cases mem_singleton.mp new
      exact mem_append_right _ (mem_singleton_self _)
  · intro op mem
    simp only [MeshState.enqueue, length_append, length_singleton]
    rcases mem_append.mp mem with old | new
    · exact Nat.lt_succ_of_lt (wf.numbered op old)
    · cases mem_singleton.mp new
      exact Nat.lt_succ_self _
  · simp only [MeshState.enqueue, map_append, map_singleton]
    apply wf.distinct.append (nodup_singleton _)
    intro id mem new
    cases mem_singleton.mp new
    rcases mem_map.mp mem with ⟨op, old, rfl⟩
    exact fresh (wf.known op old)
  · intro op mem
    exact mem_append_left _ (wf.inBuffer mem)
  · exact wf.queued
  · exact wf.manned

/-- Deleting operations keeps a batch that does not contain them. -/
theorem WellFormed.delete {ids : List String}
    {tick : Tick} (kept : ∀ op ∈ pending tick, op ∈ mesh.buffer ∧ op.id ∉ ids)
    (queue : ((pending tick).map WriteOp.id).Nodup) (crew : snapshot tick ≠ some []) :
    WellFormed { mesh.deleteWriteOps ids with tick := tick } := by
  constructor
  · intro op mem
    exact wf.known op (mem_filter.mp mem).1
  · intro op mem
    exact wf.numbered op (mem_filter.mp mem).1
  · exact wf.distinct.sublist (filter_sublist.map WriteOp.id)
  · intro op mem
    rcases kept op mem with ⟨old, ne⟩
    exact mem_filter.mpr ⟨old, by simpa using ne⟩
  · exact queue
  · exact crew

theorem WellFormed.loadBatch (phase : mesh.tick = .started roster) :
    WellFormed (loadBatch setting mesh roster) := by
  have crew := wf.manned
  rw [phase] at crew
  apply wf.delete
  · intro op mem
    rcases mem_filter.mp mem with ⟨ran, isKnown⟩
    have inBuf := takeWriteOps_subset _ _ ran
    refine ⟨inBuf, ?_⟩
    intro drop
    rcases mem_map.mp drop with ⟨orphan, orphaned, eqId⟩
    rcases mem_filter.mp orphaned with ⟨orphanTaken, new⟩
    have eq := eq_of_id_eq wf.distinct (takeWriteOps_subset _ _ orphanTaken) inBuf eqId
    rw [eq] at new
    simp only [Option.isNone_iff_eq_none] at new
    simp [new] at isKnown
  · exact (nodup_takeWriteOps wf.distinct _).sublist (filter_sublist.map WriteOp.id)
  · exact crew

theorem WellFormed.flush (phase : mesh.tick = .placed roster op rest) :
    WellFormed { mesh.deleteWriteOps [op.id] with tick := .ready roster rest } := by
  have queue := wf.queued
  simp only [phase, pending, map_cons, nodup_cons] at queue
  have inBuffer := wf.inBuffer
  rw [phase] at inBuffer
  have crew := wf.manned
  rw [phase] at crew
  apply wf.delete
  · intro later mem
    refine ⟨inBuffer (mem_cons_of_mem _ mem), ?_⟩
    intro sameId
    have idEq := mem_singleton.mp sameId
    exact queue.1 (idEq ▸ mem_map_of_mem mem)
  · exact queue.2
  · exact crew

end

/-- Every step keeps the buffer well-formed. -/
theorem WellFormed.step {next : MeshState} (wf : WellFormed mesh)
    (ran : step setting mesh event = some next) :
    WellFormed next := by
  have crew := wf.manned
  cases moves_of_step ran with
  | refused lock res | resting phase => exact wf
  | enqueued lock new => exact wf.enqueue new
  | loaded phase => exact wf.loadBatch phase
  | flushed phase => exact wf.flush phase
  | started phase taken =>
    exact wf.frame rfl rfl (nil_sublist _) (by simpa [snapshot] using taken)
  | finished phase => exact wf.frame rfl rfl (nil_sublist _) nofun
  | targeted phase selected | unrouted phase selected
  | acknowledged phase applied | unheard phase applied | failed phase failure
  | placed phase =>
    rw [phase] at crew
    exact wf.frame rfl rfl (by simp [phase, pending]) crew
  | _ => exact wf.frame rfl rfl (List.Sublist.refl _) crew

/-- A tick with a batch finds an owner for every operation. -/
theorem WellFormed.ownerSelected (wf : WellFormed mesh)
    (phase : mesh.tick = .ready roster rest) (rowId : String) (old : List String) :
    selectOwner rowId roster old ≠ none := by
  apply selectOwner_ne_none
  have crew := wf.manned
  rw [phase] at crew
  simpa [snapshot] using crew

end StorageOrchestrator.Mesh.Buffer
