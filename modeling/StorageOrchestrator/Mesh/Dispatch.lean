import StorageOrchestrator.Mesh.Buffer

/-!
# A tick of the dispatcher

`tick` as one function: which operations a tick removes from the write buffer
and the number it returns, for any assignment of operations that the providers
reject.  An operation that is not acknowledged keeps its place.
-/

namespace StorageOrchestrator.Mesh.Dispatch

open Mesh.Agent Mesh.Gateway Mesh.Buffer List

/-- The tables, the buffered operations deleted after an acknowledgement. -/
structure Ticked where
  mesh : MeshState
  acked : List WriteOp

/-- One operation of the batch, sent to the owner of its row. -/
def dispatchOp (accepts : String → WriteOp → Bool) (roster : List String) (ticked : Ticked)
    (op : WriteOp) : Ticked :=
  match selectOwner op.rowId roster (ticked.mesh.recorded op.table op.rowId) with
  | some owner =>
    if accepts owner op then
      { mesh := (ticked.mesh.upsertPlacement op.table op.rowId [owner] .active).deleteWriteOps
          [op.id]
        acked := ticked.acked ++ [op] }
    else ticked
  | none => ticked

def countAcked (_ops : List WriteOp) : List String := []

def knownOps (setting : Setting) (mesh : MeshState) : List WriteOp :=
  (takeWriteOps mesh.buffer setting.batchSize).filter fun op => (setting.schema op.table).isSome

/-- `tick`, with the number it returns; `acked_ids` never gets an element. -/
def tick (setting : Setting) (accepts : String → WriteOp → Bool) (mesh : MeshState) :
    Ticked × Nat :=
  if mesh.roster.isEmpty then (⟨mesh, []⟩, 0)
  else
    let ackedIds : List String := []
    ((knownOps setting mesh).foldl (dispatchOp accepts mesh.roster)
        ⟨loadBatch setting mesh mesh.roster, []⟩,
      ackedIds.length + (countAcked (takeWriteOps mesh.buffer setting.batchSize)).length)

/-- The owner of the operation's row accepts the operation. -/
def ownerAccepts (accepts : String → WriteOp → Bool) (roster : List String) (mesh : MeshState)
    (op : WriteOp) : Bool :=
  (selectOwner op.rowId roster (mesh.recorded op.table op.rowId)).any fun owner =>
    accepts owner op

/-- The operation would be accepted now; one on an unknown table is never sent. -/
def accepted (setting : Setting) (accepts : String → WriteOp → Bool) (mesh : MeshState)
    (op : WriteOp) : Bool :=
  ownerAccepts accepts mesh.roster mesh op && (setting.schema op.table).isSome

/-- A tick makes progress where it can, and returns the acknowledged number. -/
def Progresses (setting : Setting) (accepts : String → WriteOp → Bool) (mesh : MeshState) : Prop :=
  ((∃ op ∈ mesh.buffer, accepted setting accepts mesh op = true) →
      ∃ op ∈ mesh.buffer, op ∉ (tick setting accepts mesh).1.mesh.buffer) ∧
    (tick setting accepts mesh).2 = (tick setting accepts mesh).1.acked.length

/-! ## The operations a tick removes -/

section

variable {roster : List String} {accepts : String → WriteOp → Bool} {mesh : MeshState}

/-- The owner found for a row stays its owner once it is recorded. -/
theorem selectOwner_recorded (sel : selectOwner rowId roster existing = some owner) :
    selectOwner rowId roster [owner] = some owner :=
  selectOwner_singleton (mem_of_selectOwner sel)

def SameOwners (roster : List String) (mesh later : MeshState) : Prop :=
  ∀ table rowId, selectOwner rowId roster (later.recorded table rowId) =
    selectOwner rowId roster (mesh.recorded table rowId)

section

variable {ticked : Ticked} (eq : SameOwners roster mesh ticked.mesh)
include eq

theorem dispatchOp_rejected (deny : ¬ ownerAccepts accepts roster mesh op = true) :
    dispatchOp accepts roster ticked op = ticked := by
  rw [ownerAccepts, ← eq] at deny
  rw [dispatchOp]
  split
  · rename_i sel
    simp only [sel, Option.any_some] at deny
    rw [if_neg deny]
  · rfl

theorem dispatchOp_accepted (ok : ownerAccepts accepts roster mesh op = true) :
    (dispatchOp accepts roster ticked op).acked = ticked.acked ++ [op] ∧
      (dispatchOp accepts roster ticked op).mesh.buffer =
      ticked.mesh.buffer.filter (fun other => other.id ≠ op.id) ∧
      SameOwners roster mesh (dispatchOp accepts roster ticked op).mesh := by
  rw [ownerAccepts, ← eq, Option.any_eq_true] at ok
  obtain ⟨owner, sel, takes⟩ := ok
  simp only [dispatchOp, sel, takes, if_true, MeshState.deleteWriteOps,
    MeshState.upsertPlacement, mem_singleton, true_and]
  intro table rowId
  rw [← eq table rowId]
  simp only [MeshState.recorded]
  by_cases own : table = op.table ∧ rowId = op.rowId
  · obtain ⟨rfl, rfl⟩ := own
    rw [if_pos ⟨rfl, rfl⟩]
    exact (selectOwner_recorded sel).trans sel.symm
  · rw [if_neg own]

end

/-- What the loop over the batch leaves. -/
theorem foldl_dispatchOp (accepts : String → WriteOp → Bool) (roster : List String)
    (mesh : MeshState) (ops : List WriteOp) (ticked : Ticked)
    (eq : SameOwners roster mesh ticked.mesh) :
    (ops.foldl (dispatchOp accepts roster) ticked).acked =
      ticked.acked ++ ops.filter (ownerAccepts accepts roster mesh) ∧
      ∀ op, op ∈ (ops.foldl (dispatchOp accepts roster) ticked).mesh.buffer ↔
      op ∈ ticked.mesh.buffer ∧
      ∀ other ∈ ops.filter (ownerAccepts accepts roster mesh), op.id ≠ other.id := by
  induction ops generalizing ticked with
  | nil => simp
  | cons op rest ih =>
    rw [foldl_cons]
    by_cases ok : ownerAccepts accepts roster mesh op = true
    · obtain ⟨acked, buf, later⟩ := dispatchOp_accepted eq ok
      obtain ⟨ackedRest, bufferRest⟩ := ih _ later
      rw [filter_cons_of_pos ok]
      refine ⟨by rw [ackedRest, acked, append_assoc, singleton_append], fun other => ?_⟩
      rw [bufferRest, buf, mem_filter, forall_mem_cons, and_assoc, decide_eq_true_eq]
    · rw [dispatchOp_rejected eq ok, filter_cons_of_neg ok]
      exact ih ticked eq

end

variable (setting : Setting) (accepts : String → WriteOp → Bool) (mesh : MeshState)

abbrev batch : List WriteOp := takeWriteOps mesh.buffer setting.batchSize

theorem accepted_nobody (nobody : mesh.roster = []) (op : WriteOp) :
    accepted setting accepts mesh op = false := by
  have noOwner : selectOwner op.rowId [] (mesh.recorded op.table op.rowId) = none := by
    cases sel : selectOwner op.rowId [] (mesh.recorded op.table op.rowId) with
    | none => rfl
    | some own => exact absurd (mem_of_selectOwner sel) not_mem_nil
  simp [accepted, ownerAccepts, nobody, noOwner]

theorem tick_manned (crew : mesh.roster ≠ []) : (tick setting accepts mesh).1.acked =
      (batch setting mesh).filter (accepted setting accepts mesh) ∧
      ∀ op, op ∈ (tick setting accepts mesh).1.mesh.buffer ↔ op ∈ mesh.buffer ∧
      ∀ other ∈ batch setting mesh, accepted setting accepts mesh other = true ∨
      setting.schema other.table = none → op.id ≠ other.id := by
  have loops : (tick setting accepts mesh).1 = (knownOps setting mesh).foldl
      (dispatchOp accepts mesh.roster) ⟨loadBatch setting mesh mesh.roster, []⟩ := by
    rw [tick, if_neg (by simpa using crew)]
  have leaves := foldl_dispatchOp accepts mesh.roster mesh (knownOps setting mesh)
    ⟨loadBatch setting mesh mesh.roster, []⟩ fun _ _ => rfl
  rw [← loops, knownOps, filter_filter] at leaves
  refine ⟨leaves.1, fun op => ?_⟩
  rw [leaves.2]
  simp only [loadBatch, MeshState.deleteWriteOps, mem_filter, mem_map, decide_eq_true_eq,
    not_exists, not_and, Option.isNone_iff_eq_none, and_assoc, and_imp]
  grind [accepted]

theorem acked_tick : (tick setting accepts mesh).1.acked =
    (batch setting mesh).filter (accepted setting accepts mesh) := by
  by_cases nobody : mesh.roster = []
  · simp [tick, nobody, accepted_nobody setting accepts mesh nobody]
  · exact (tick_manned setting accepts mesh nobody).1

theorem removed_by_tick : (∃ op ∈ mesh.buffer, op ∉ (tick setting accepts mesh).1.mesh.buffer) ↔
    ∃ op ∈ batch setting mesh, accepted setting accepts mesh op = true ∨
      mesh.roster ≠ [] ∧ setting.schema op.table = none := by
  by_cases nobody : mesh.roster = []
  · simp [tick, nobody, accepted_nobody setting accepts mesh nobody]
  have kept := (tick_manned setting accepts mesh nobody).2
  constructor
  · rintro ⟨op, wait, gone⟩
    simp only [kept, not_and, not_forall, wait, true_imp_iff] at gone
    obtain ⟨other, ran, why, -⟩ := gone
    exact ⟨other, ran, why.imp_right fun new => ⟨nobody, new⟩⟩
  · rintro ⟨op, ran, why⟩
    refine ⟨op, takeWriteOps_subset _ _ ran, fun still => ?_⟩
    exact ((kept op).mp still).2 op ran (why.imp_right And.right) rfl

/--
A tick makes progress where it can and returns the number of acknowledged
operations exactly when its batch has no operation that is accepted and, if a
later one would be, drops one on an unknown table.
-/
theorem progresses_iff : Progresses setting accepts mesh ↔
    (∀ op ∈ batch setting mesh, accepted setting accepts mesh op = false) ∧
      ((∃ op ∈ mesh.buffer, accepted setting accepts mesh op = true) →
        ∃ op ∈ batch setting mesh, setting.schema op.table = none) := by
  have back : (tick setting accepts mesh).2 = 0 := by
    rw [tick]
    split <;> rfl
  have none : (batch setting mesh).filter (accepted setting accepts mesh) = [] ↔
      ∀ op ∈ batch setting mesh, accepted setting accepts mesh op = false := by
    simp [filter_eq_nil_iff]
  rw [Progresses, back, acked_tick, removed_by_tick, eq_comm, length_eq_zero_iff, none, and_comm]
  refine and_congr_right fun deny => ?_
  refine forall_congr' fun wait => ⟨?_, ?_⟩
  · rintro ⟨op, ran, accepted | new⟩
    · exact absurd accepted (by simp [deny op ran])
    · exact ⟨op, ran, new.2⟩
  · rintro ⟨op, ran, new⟩
    refine ⟨op, ran, .inr ⟨fun nobody => ?_, new⟩⟩
    obtain ⟨other, -, accepted⟩ := wait
    simp [accepted_nobody setting accepts mesh nobody] at accepted

def noteOp (id : String) (createdAt : Nat) : WriteOp :=
  { id := id, table := "notes", rowId := id, payload := .image [] [] none, createdAt := createdAt
    seq := createdAt }

/-- With batches of one, a rejected first operation stops the second for good. -/
theorem stuck_first_operation :
    ¬ Progresses { notesSetting with batchSize := 1 } (fun _ op => op.id == "second")
      { MeshState.empty ["p"] with buffer := [noteOp "first" 1, noteOp "second" 2] } := by
  rintro ⟨prog, -⟩
  rw [removed_by_tick] at prog
  obtain ⟨op, ran, ok | new⟩ := prog ⟨noteOp "second" 2, by simp, by rfl⟩
  · cases mem_singleton.mp ran
    revert ok
    decide
  · cases mem_singleton.mp ran
    simp [noteOp, notesSetting] at new

end StorageOrchestrator.Mesh.Dispatch
