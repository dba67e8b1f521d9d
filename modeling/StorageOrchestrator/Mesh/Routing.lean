import StorageOrchestrator.Mesh.Buffer

/-!
# Routing with a fixed roster

While the roster stays as it is, every operation on a row goes to the provider
that the row id picks, whether or not the row has a placement.
-/

namespace StorageOrchestrator.Mesh.Routing

open Lib.Placement Mesh.Gateway Mesh.Buffer

variable {roster : List String} {mesh : MeshState}

/-- The roster stays fixed and every delivery is answered. -/
def Calm (mesh : MeshState) : Event → Prop
  | .refresh roster => roster = mesh.roster
  | .tick delivery => delivery = .answered
  | _ => True

/-- The statement under the write lock goes to the picked provider. -/
def WriterRouted (roster : List String) : Writer → Prop
  | .routing _ snapshot => snapshot = roster
  | .routed write owner | .enqueued write owner => pickName write.rowId roster = some owner
  | _ => True

/-- The operation of the tick goes to the picked provider. -/
def TickRouted (roster : List String) : Tick → Prop
  | .targeted _ op owner _ | .acked _ op owner _ => pickName op.rowId roster = some owner
  | _ => True

/-- Everything is routed by the row id over the fixed roster. -/
structure Routed (roster : List String) (mesh : MeshState) : Prop where
  fixed : mesh.roster = roster
  ticks : ∀ other, snapshot mesh.tick = some other → other = roster
  placed : ∀ name rowId replicas state, mesh.placement name rowId = some (replicas, state) →
      ∃ owner, replicas = [owner] ∧ pickName rowId roster = some owner
  writing : WriterRouted roster mesh.writer
  ticking : TickRouted roster mesh.tick

/-- The owner that is selected is the one that the row id picks. -/
theorem Routed.selectOwner_eq (sent : Routed roster mesh) (name rowId : String) :
    selectOwner rowId roster (mesh.recorded name rowId) = pickName rowId roster := by
  cases home : mesh.placement name rowId with
  | none => simp [MeshState.recorded, home, selectOwner]
  | some entry =>
    rcases entry with ⟨copies, s⟩
    rcases sent.placed _ _ _ _ home with ⟨own, rfl, pick⟩
    simp [MeshState.recorded, home, selectOwner, mem_of_pickName pick, pick]

/-- A step that changes neither roster nor placements. -/
theorem Routed.keep {next : MeshState} (sent : Routed roster mesh)
    (eqRoster : next.roster = mesh.roster) (home : next.placement = mesh.placement)
    (ticks : ∀ other, snapshot next.tick = some other → other = roster)
    (busy : WriterRouted roster next.writer) (tick : TickRouted roster next.tick) :
    Routed roster next := by
  constructor
  · rw [eqRoster]
    exact sent.fixed
  · exact ticks
  · rw [home]
    exact sent.placed
  · exact busy
  · exact tick

/-- A step that records the picked provider. -/
theorem Routed.record {next : MeshState} (sent : Routed roster mesh)
    (pick : pickName rowId roster = some own) (eqRoster : next.roster = mesh.roster)
    (home : next.placement = (mesh.upsertPlacement name rowId [own] state).placement)
    (ticks : ∀ other, snapshot next.tick = some other → other = roster)
    (busy : WriterRouted roster next.writer) (tick : TickRouted roster next.tick) :
    Routed roster next := by
  constructor
  · rw [eqRoster]
    exact sent.fixed
  · exact ticks
  · intro other oid copies entry noted
    simp only [home, MeshState.upsertPlacement] at noted
    split at noted
    · rename_i row
      cases noted
      exact ⟨own, rfl, row.2 ▸ pick⟩
    · exact sent.placed _ _ _ _ noted
  · exact busy
  · exact tick

theorem Routed.step (routed : Routed roster mesh) (calm : Calm mesh event)
    (ran : step setting mesh event = some next) :
    Routed roster next := by
  have ticks := routed.ticks
  have busy := routed.writing
  have tick := routed.ticking
  cases moves_of_step ran with
  | refused lock res | resting phase => exact routed
  | going lock res | abandoned lock sel =>
    exact routed.keep rfl rfl ticks trivial tick
  | routing lock => exact routed.keep rfl rfl ticks routed.fixed tick
  | routed lock sel =>
    rw [lock] at busy
    cases busy
    rw [routed.selectOwner_eq] at sel
    exact routed.keep rfl rfl ticks sel tick
  | enqueued lock new =>
    rw [lock] at busy
    exact routed.keep rfl rfl ticks busy tick
  | recorded lock =>
    rw [lock] at busy
    exact routed.record busy rfl rfl ticks trivial tick
  | refreshed =>
    cases calm
    exact routed
  | started phase crew =>
    have snapshots : ∀ other, snapshot (.started mesh.roster) = some other → other = roster := by
      intro other isSnapshot
      cases isSnapshot
      exact routed.fixed
    exact routed.keep rfl rfl snapshots busy trivial
  | loaded phase | unrouted phase sel | failed phase failure
  | flushed phase =>
    rw [phase] at ticks
    exact routed.keep rfl rfl ticks busy trivial
  | finished phase => exact routed.keep rfl rfl nofun busy trivial
  | targeted phase sel =>
    rw [phase] at ticks
    have eqRoster := ticks _ rfl
    subst eqRoster
    rw [routed.selectOwner_eq] at sel
    exact routed.keep rfl rfl ticks busy sel
  | acknowledged phase done =>
    rw [phase] at ticks tick
    exact routed.keep rfl rfl ticks busy tick
  | unheard phase done => cases calm
  | placed phase =>
    rw [phase] at ticks tick
    exact routed.record tick rfl rfl ticks busy trivial
  | _ => exact routed.keep rfl rfl ticks busy tick

end StorageOrchestrator.Mesh.Routing
