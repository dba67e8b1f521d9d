import StorageOrchestrator.Mesh.Broad
import StorageOrchestrator.Mesh.Buffer

/-!
# Point writes and broad writes side by side

A broad write takes neither the write lock nor the buffer: it reads the
roster, executes on the central Postgres and is then sent to one provider
after the other, while point writes and the dispatcher's ticks go on in
between.

Beside the mesh and the broad writes under way, the state keeps the tables
that the providers began with and the accepted statements in the order of
their acceptance: a point write counts as accepted when it is enqueued, a
broad write when the central Postgres has executed it.
-/

namespace StorageOrchestrator.Mesh.Traffic

open Lib.Transition Mesh.Table Mesh.Agent Mesh.Gateway Mesh.Buffer Mesh.Broad
open List hiding next after

/-! ## Accepted statements -/

/-- An accepted statement with the providers it concerns. -/
inductive Entry where
  | point (owner name : String) (statement : Statement)
  | broad (roster : List String) (name : String) (write : BroadWrite)

/-- The tables of the mesh as broad writes see them. -/
def keyedSchema (setting : Setting) (name : String) : Option KeyedTable :=
  (setting.schema name).map keyed

/-- Executing an accepted statement on a provider's tables. -/
def Entry.exec (setting : Setting) (npub : String)
    (tables : String → Content) : Entry → String → Content
  | .point owner name statement =>
    if owner = npub then setting.execSerial tables name statement
    else tables
  | .broad roster name write =>
    if npub ∈ roster then
      executeOnce (keyedSchema setting) name write tables
    else tables

/-- Executing accepted statements in order on a provider's tables. -/
def inOrder (setting : Setting) (npub : String) (tables : String → Content)
    (log : List Entry) : String → Content :=
  log.foldl (fun tables entry => entry.exec setting npub tables) tables

theorem inOrder_append (setting : Setting) (npub : String)
    (tabs : String → Content) (log : List Entry) (entry : Entry) :
    inOrder setting npub tabs (log ++ [entry]) =
      entry.exec setting npub (inOrder setting npub tabs log) := by
  simp [inOrder]

/-! ## The system -/

/-- Where a broad write stands. -/
inductive Phase where
  | reading (roster : List String)
  | sending (todo : List String)
  | answered

/-- A broad write under way. -/
structure Flight where
  name : String
  write : BroadWrite
  phase : Phase

structure World where
  mesh : MeshState
  flights : List Flight
  base : String → String → Content
  log : List Entry

/-- A mesh before any broad write. -/
def World.start (mesh : MeshState) : World where
  mesh := mesh
  flights := []
  base := fun npub => (mesh.providers npub).tables
  log := []

/-- What a provider's table should be once everything is applied. -/
def World.expected (setting : Setting) (world : World) (npub name : String) : Content :=
  inOrder setting npub (world.base npub) world.log name

inductive Event where
  | mesh (event : Gateway.Event)
  | broad (name : String) (write : BroadWrite)
  | advance (number : Nat) (opId : String) (delivery : Delivery)

section

variable (setting : Setting)

/--
The statement that a step of the mesh accepts.  An INSERT whose row is skipped
concerns the owner of the row that it would have added.
-/
def accepted (mesh : MeshState) : Gateway.Event → List Entry
  | .write _ _ =>
    match mesh.writer with
    | .routed write owner => [.point owner write.table write.statement]
    | _ => []
  | .accept name (.insert row onConflict) =>
    match executeSqlBound setting mesh name (.insert row onConflict), setting.schema name with
    | .nothing, some table =>
      match (table.rowId row).bind fun rowId =>
          selectOwner rowId mesh.roster (mesh.recorded name rowId) with
      | some owner => [.point owner name (.insert row onConflict)]
      | none => []
    | _, _ => []
  | _ => []

/-- A broad write moves to another phase. -/
def World.put (world : World) (number : Nat) (flight : Flight) (phase : Phase) : World :=
  { world with
    flights := world.flights.set number { flight with phase := phase } }

/-- The central Postgres has executed a broad write. -/
def World.accept (world : World) (number : Nat) (flight : Flight)
    (roster : List String) (content : Content) : World :=
  { world.put number flight (.sending roster) with
    mesh := { world.mesh with
      central := Function.update world.mesh.central flight.name content
      serial := executeOnce (keyedSchema setting) flight.name flight.write world.mesh.serial }
    log := world.log ++ [.broad roster flight.name flight.write] }

/-- A provider has executed the operation of a broad write. -/
def World.sent (world : World) (number : Nat) (flight : Flight)
    (npub opId : String) (provider : Provider) (phase : Phase) : World :=
  { world.put number flight phase with
    mesh := { world.mesh with
      providers := Function.update world.mesh.providers npub provider
      issued := world.mesh.issued ++ [opId] } }

/-- One access of a broad write. -/
def advance (world : World) (number : Nat) (opId : String)
    (delivery : Delivery) (flight : Flight) : Option World :=
  match flight.phase with
  | .reading roster =>
    match flight.write.run (keyedSchema setting) flight.name world.mesh.central with
    | none => some (world.put number flight .answered)
    | some content => some (world.accept setting number flight roster content)
  | .sending [] => some (world.put number flight .answered)
  | .sending (npub :: rest) =>
    if opId ∈ world.mesh.issued then none
    else
      match delivery, applyRaw (keyedSchema setting) setting.trigger flight.name
          flight.write opId (world.mesh.providers npub) with
      | .answered, some provider =>
        some (world.sent number flight npub opId provider (.sending rest))
      | .responseLost, some provider =>
        some (world.sent number flight npub opId provider .answered)
      | _, _ => some (world.put number flight .answered)
  | .answered => none

def step (world : World) : Event → Option World
  | .mesh event =>
    (Gateway.step setting world.mesh event).map fun mesh =>
      { world with
        mesh := mesh
        log := world.log ++ accepted setting world.mesh event }
  | .broad name write =>
    if world.mesh.roster.isEmpty then some world
    else
      some { world with
        flights := world.flights ++ [⟨name, write, .reading world.mesh.roster⟩] }
  | .advance number opId delivery =>
    match world.flights[number]? with
    | none => none
    | some flight => advance setting world number opId delivery flight

end

/-- Every way in which a broad write moves on. -/
inductive Advances (setting : Setting) (world : World) (number : Nat)
    (opId : String) (delivery : Delivery) (flight : Flight) :
    World → Prop where
  | refused {roster : List String}
      (phase : flight.phase = .reading roster) :
      Advances setting world number opId delivery flight (world.put number flight .answered)
  | accepted {roster : List String} {content : Content}
      (phase : flight.phase = .reading roster)
      (ran : flight.write.run (keyedSchema setting) flight.name world.mesh.central = some content) :
      Advances setting world number opId delivery flight
        (world.accept setting number flight roster content)
  | finished
      (phase : flight.phase = .sending []) :
      Advances setting world number opId delivery flight (world.put number flight .answered)
  | sent {npub : String} {rest : List String} {provider : Provider}
      (phase : flight.phase = .sending (npub :: rest))
      (fresh : opId ∉ world.mesh.issued)
      (applied : applyRaw (keyedSchema setting) setting.trigger flight.name flight.write opId
        (world.mesh.providers npub) = some provider) :
      Advances setting world number opId delivery flight
        (world.sent number flight npub opId provider (.sending rest))
  | unheard {npub : String} {rest : List String} {provider : Provider}
      (phase : flight.phase = .sending (npub :: rest))
      (fresh : opId ∉ world.mesh.issued)
      (lost : delivery = .responseLost)
      (applied : applyRaw (keyedSchema setting) setting.trigger flight.name flight.write opId
        (world.mesh.providers npub) = some provider) :
      Advances setting world number opId delivery flight
        (world.sent number flight npub opId provider .answered)
  | failed {npub : String} {rest : List String}
      (phase : flight.phase = .sending (npub :: rest))
      (fresh : opId ∉ world.mesh.issued)
      (failure : delivery = .notExecuted ∨
        applyRaw (keyedSchema setting) setting.trigger flight.name flight.write opId
          (world.mesh.providers npub) = none) :
      Advances setting world number opId delivery flight (world.put number flight .answered)

theorem advances_of_advance (taken : advance setting world number opId sent flight = some next) :
    Advances setting world number opId sent flight next := by
  cases phase : flight.phase with
  | answered => simp [advance, phase] at taken
  | reading roster =>
    simp only [advance, phase] at taken
    split at taken
    · cases taken
      exact .refused phase
    · rename_i ran
      cases taken
      exact .accepted phase ran
  | sending todo =>
    cases todo with
    | nil =>
      simp only [advance, phase] at taken
      cases taken
      exact .finished phase
    | cons npub rest =>
      simp only [advance, phase] at taken
      split at taken
      · cases taken
      · rename_i new
        cases done : applyRaw (keyedSchema setting) setting.trigger flight.name
            flight.write opId (world.mesh.providers npub) with
        | none =>
          simp only [done] at taken
          cases taken
          exact .failed phase new (.inr done)
        | some host =>
          simp only [done] at taken
          cases sent with
          | answered =>
            cases taken
            exact .sent phase new done
          | responseLost =>
            cases taken
            exact .unheard phase new rfl done
          | notExecuted =>
            cases taken
            exact .failed phase new (.inl rfl)

/-- The operations of broad writes stay out of the buffer. -/
theorem wellFormed_sent (wf : WellFormed mesh) (providers : String → Provider) (opId : String) :
    WellFormed { mesh with
      providers := providers
      issued := mesh.issued ++ [opId] } := by
  refine ⟨?_, ?_, wf.distinct, wf.inBuffer, wf.queued, wf.manned⟩
  · intro op mem
    exact mem_append_left _ (wf.known op mem)
  · intro op mem
    rw [length_append]
    exact Nat.lt_add_right _ (wf.numbered op mem)

/-! ## A broad write that nothing disturbs -/

section

variable {opIds : String → String}

/-- The accesses of a broad write that is sent to the providers. -/
def sendings (number : Nat) (opIds : String → String) (roster : List String) : List Event :=
  roster.map fun npub => .advance number (opIds npub) .answered

theorem replay_sendings {w : World} {roster : List String}
    (found : w.flights[n]? = some ⟨name, write, .sending roster⟩)
    (new : ∀ npub ∈ roster, opIds npub ∉ w.mesh.issued) (nodup : (roster.map opIds).Nodup)
    (sent : sendAll (keyedSchema setting) setting.trigger name write opIds roster
      w.mesh.providers = (after, none)) :
    ∃ last, replay (step setting) w (sendings n opIds roster) = some last ∧
      last.mesh.providers = after ∧
      last.mesh.central = w.mesh.central := by
  induction roster generalizing w with
  | nil =>
    cases sent
    exact ⟨w, rfl, rfl, rfl⟩
  | cons npub rest ih =>
    rw [map_cons, nodup_cons] at nodup
    simp only [sendAll] at sent
    split at sent
    · cases sent
    · rename_i host done
      let next := w.sent n ⟨name, write, .sending (npub :: rest)⟩
        npub (opIds npub) host (.sending rest)
      have taken : step setting w (.advance n (opIds npub) .answered) = some next := by
        simp [step, found, advance, done, new npub mem_cons_self, next]
      have nxt : next.flights[n]? = some ⟨name, write, .sending rest⟩ :=
        getElem?_set_self (List.getElem?_eq_some_iff.mp found).1
      have freshNext : ∀ other ∈ rest, opIds other ∉ next.mesh.issued := by
        intro other mem
        simp only [next, World.sent, mem_append, mem_singleton, not_or]
        refine ⟨new other (mem_cons_of_mem _ mem), ?_⟩
        intro eq
        exact nodup.1 (mem_map.mpr ⟨other, mem, eq⟩)
      obtain ⟨last, ran, hosts, hub⟩ := ih nxt freshNext nodup.2 sent
      refine ⟨last, ?_, hosts, hub⟩
      simp only [sendings, map_cons, replay, taken]
      exact ran

/-- Left alone, a broad write does what `apply_broad_write` computes. -/
theorem replay_applyBroadWrite (w : World)
    (new : ∀ npub ∈ w.mesh.roster, opIds npub ∉ w.mesh.issued)
    (nodup : (w.mesh.roster.map opIds).Nodup)
    (back : applyBroadWrite (keyedSchema setting) setting.trigger true w.mesh name write opIds =
      (after, none)) :
    ∃ last, replay (step setting) w (.broad name write ::
      .advance w.flights.length "" .answered ::
      sendings w.flights.length opIds w.mesh.roster) =
      some last ∧
      last.mesh.providers = after.providers ∧
      last.mesh.central = after.central := by
  simp only [applyBroadWrite, Bool.not_true, Bool.false_eq_true, if_false] at back
  split at back
  · cases back
  · rename_i crew
    split at back
    · cases back
    · rename_i rows ran
      obtain ⟨rfl, got⟩ := Prod.mk.inj back
      let flight : Flight := ⟨name, write, .reading w.mesh.roster⟩
      let begun : World := { w with flights := w.flights ++ [flight] }
      let accepted := begun.accept setting w.flights.length flight w.mesh.roster rows
      have init : step setting w (.broad name write) = some begun := by
        simp [step, crew, begun, flight]
      have accepts : step setting begun
          (.advance w.flights.length "" .answered) = some accepted := by
        simp [step, begun, advance, flight, ran, accepted]
      have found : accepted.flights[w.flights.length]? =
          some ⟨name, write, .sending w.mesh.roster⟩ := by
        simp [accepted, World.accept, World.put, begun, flight]
      have sent : sendAll (keyedSchema setting) setting.trigger name write opIds
          w.mesh.roster w.mesh.providers =
            ((sendAll (keyedSchema setting) setting.trigger name write opIds
              w.mesh.roster w.mesh.providers).1, none) :=
        Prod.ext rfl got
      obtain ⟨last, did, hosts, hub⟩ := replay_sendings found new nodup sent
      refine ⟨last, ?_, hosts, hub⟩
      simp only [replay, init, accepts]
      exact did

end

/-- Both providers clear their notes, and so does the central database. -/
theorem replay_clearNotes : ∃ last, replay (step notesSetting) (.start twoNotes)
      (.broad "notes" clearNotes :: .advance 0 "" .answered :: sendings 0 id ["p1", "p2"]) =
    some last ∧ (last.mesh.providers "p1").tables "notes" = [note "a" ""] ∧
      (last.mesh.providers "p2").tables "notes" = [note "b" ""] ∧
      last.mesh.central "notes" = [note "a" "", note "b" ""] :=
  let ⟨last, ran, stored, central⟩ := replay_applyBroadWrite (.start twoNotes) (by decide)
    (by decide) (Prod.ext rfl (by decide +kernel))
  ⟨last, ran, congrArg (fun hosts => (hosts "p1").tables "notes") stored,
    congrArg (fun hosts => (hosts "p2").tables "notes") stored, congrFun central "notes"⟩

end StorageOrchestrator.Mesh.Traffic
