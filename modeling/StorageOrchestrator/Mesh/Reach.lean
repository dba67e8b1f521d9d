import StorageOrchestrator.Mesh.Ownership
import StorageOrchestrator.Mesh.Traffic

/-!
# Point writes and the provider that has the row

A point UPDATE or DELETE goes to the recorded owner of its row, or to the one
that the row id picks.  The rows that a broad `INSERT ... SELECT` or a trigger
leaves on a provider have no placement, so a point write on such a row goes
where its id picks (`copied_row_is_missed`); and a row that was placed twice
can be left behind by the roster.

In a run that keeps owners (`KeepsOwner`), where broad writes and triggers add
rows only where they are recorded or picked, where a roster change leaves the
pick of every unrecorded row on the provider that has it, and where an
unrecorded row is first written by its pick, point writes reach the row
(`anchored_run_reaches_rows`).
-/

namespace StorageOrchestrator.Mesh.Reach

open Lib.Placement Lib.Transition Mesh.Table Mesh.Agent Mesh.Gateway Mesh.Buffer
  Mesh.Ownership Mesh.Broad Mesh.Traffic

/-! ## Dispatching a point write -/

/--
The provider of an UPDATE or DELETE that is accepted now: the gateway selects
an owner and records it, and the dispatcher selects again.
-/
def dispatchedTo (mesh : MeshState) (name rowId : String) : Option String :=
  match selectOwner rowId mesh.roster (mesh.recorded name rowId) with
  | none => none
  | some owner =>
    selectOwner rowId mesh.roster ((mesh.upsertPlacement name rowId [owner] .pending).recorded name
        rowId)

/-- Point writes on rows of active providers reach a provider with the row. -/
def Reaches (setting : Setting) (mesh : MeshState) : Prop :=
  ∀ npub ∈ mesh.roster, ∀ name rowId, Stores setting mesh npub name rowId →
    ∃ owner, dispatchedTo mesh name rowId = some owner ∧ Stores setting mesh owner name rowId

/-! ## The condition -/

/-- The broad write would add a row with the row id on the provider, by itself or by a trigger. -/
def Adds (setting : Setting) (mesh : MeshState) (flight : Flight) (npub name rowId : String) :
    Prop :=
  ¬ Stores setting mesh npub name rowId ∧ ∃ content,
    flight.write.run (keyedSchema setting) flight.name (mesh.providers npub).tables =
      some content ∧
    Holds setting (setting.trigger flight.name (mesh.providers npub).tables
      (Function.update (mesh.providers npub).tables flight.name content)) name rowId

/-- While the provider is on the roster, the row id picks it. -/
def Picked (mesh : MeshState) (npub _name rowId : String) : Prop :=
  npub ∈ mesh.roster → pickName rowId mesh.roster = some npub

/-- A roster change leaves every unrecorded row with its pick. -/
def KeepsPick (setting : Setting) (mesh : MeshState) : Gateway.Event → Prop
  | .refresh roster =>
    ∀ npub ∈ roster, ∀ name rowId, Stores setting mesh npub name rowId →
      mesh.placement name rowId = none → pickName rowId roster = some npub
  | _ => True

/-- The step keeps owners and picks, and adds rows only where they belong. -/
def Anchoring (setting : Setting) (world : World) : Traffic.Event → Prop
  | .mesh event =>
    KeepsOwner Picked setting world.mesh event ∧ KeepsPick setting world.mesh event
  | .broad _ _ => True
  | .advance number _ _ =>
    ∀ flight npub rest name rowId, world.flights[number]? = some flight →
      flight.phase = .sending (npub :: rest) → Adds setting world.mesh flight npub name rowId →
          Belongs Picked world.mesh npub name rowId

/-! ## Steps -/

section

/-- Only a roster change changes the roster. -/
theorem roster_of_step (ran : Gateway.step setting mesh event = some next) :
    next.roster = mesh.roster ∨
      ∃ roster, event = .refresh roster ∧ next = { mesh with roster := roster } := by
  cases moves_of_step ran with
  | @refreshed roster => exact .inr ⟨roster, rfl, rfl⟩
  | _ => exact .inl rfl

/-- A step of the mesh keeps rows anchored. -/
theorem owned_meshStep {w : World} (owned : Owned Picked setting w.mesh)
    (anchoring : Anchoring setting w (.mesh event))
    (ran : Gateway.step setting w.mesh event = some next) :
    Owned Picked setting next := by
  obtain ⟨keeps, picks⟩ := anchoring
  refine owned.step keeps (fun npub name rowId puts free picked => ?_) ran
  rcases roster_of_step ran with same | ⟨roster, rfl, rfl⟩
  · rw [Picked, same]
    exact picked
  · intro mem
    exact picks npub mem name rowId puts (placement_of_unowned owned.homed free)

/-- Broad writes change neither owners nor what is in flight. -/
theorem homed_of_broad (homed : Homed setting mesh)
    (wf : WellFormed next) (home : next.placement = mesh.placement)
    (writer : next.writer = mesh.writer) (buf : next.buffer = mesh.buffer)
    (tick : next.tick = mesh.tick) :
    Homed setting next := by
  refine homed.keep wf home ?_ ?_ ?_ ?_
  · intro name rowId
    rw [writer]
  · rw [buf]
    exact List.Subset.refl _
  · rw [writer]
    exact homed.writing
  · rw [tick]
    exact homed.ticking

/-- What a provider stores after the operation of a broad write. -/
theorem stores_of_sent {flight : Flight}
    (done : applyRaw (keyedSchema setting) setting.trigger flight.name flight.write opId
      (mesh.providers npub) = some provider) (hosts : next.providers =
      Function.update mesh.providers npub provider)
    (puts : Stores setting next holder name rowId) :
    Stores setting mesh holder name rowId ∨
      (holder = npub ∧ Adds setting mesh flight npub name rowId) := by
  by_cases known : Stores setting mesh holder name rowId
  · exact .inl known
  · rw [Stores, hosts] at puts
    by_cases here : holder = npub
    · subst here
      rw [Function.update_self] at puts
      simp only [applyRaw] at done
      split at done
      · cases done
        exact absurd puts known
      · obtain ⟨rows, ran, rfl⟩ := Option.map_eq_some_iff.mp done
        exact .inr ⟨rfl, known, rows, ran, puts⟩
    · rw [Function.update_of_ne here] at puts
      exact absurd puts known

/-- The operation of a broad write keeps rows anchored. -/
theorem owned_sent {w : World} (owned : Owned Picked setting w.mesh)
    {n : Nat} {opId npub : String} {sent : Delivery}
    {flight : Flight} {rest : List String} {host : Provider} (found : w.flights[n]? = some flight)
    (phase : flight.phase = .sending (npub :: rest))
    (anchoring : Anchoring setting w (.advance n opId sent))
    (done : applyRaw (keyedSchema setting) setting.trigger flight.name flight.write opId
      (w.mesh.providers npub) = some host) :
    Owned Picked setting { w.mesh with
      providers := Function.update w.mesh.providers npub host
      issued := w.mesh.issued ++ [opId] } := by
  refine ⟨homed_of_broad owned.homed
    (wellFormed_sent owned.homed.wellFormed _ _) rfl rfl rfl rfl, ?_, ?_⟩
  · intro holder name rowId puts
    rcases stores_of_sent done rfl puts with old | ⟨rfl, added⟩
    · exact owned.stored holder name rowId old
    · exact (anchoring flight holder rest name rowId found phase added).imp id
        fun ⟨free, pick, _⟩ => ⟨free, pick⟩
  · intro write owner lock holder puts
    rcases stores_of_sent done rfl puts with old | ⟨rfl, added⟩
    · exact owned.routed write owner lock holder old
    · rcases anchoring flight holder rest _ _ found phase added with owns | ⟨-, -, way⟩
      · have busy := owned.homed.writing
        rw [lock] at busy
        exact busy.2 holder owns
      · exact way write owner lock rfl rfl

/-- An anchoring step keeps rows anchored. -/
theorem owned_step {w : World} (owned : Owned Picked setting w.mesh)
    (anchoring : Anchoring setting w ev) (taken : Traffic.step setting w ev = some after) :
    Owned Picked setting after.mesh := by
  cases ev with
  | mesh ev =>
    obtain ⟨mesh, moved, rfl⟩ := Option.map_eq_some_iff.mp taken
    exact owned_meshStep owned anchoring moved
  | broad name write =>
    simp only [Traffic.step] at taken
    split at taken
    · cases taken
      exact owned
    · cases taken
      exact owned
  | advance n opId delivery =>
    simp only [Traffic.step] at taken
    split at taken
    · cases taken
    · rename_i flight found
      cases advances_of_advance taken with
      | refused phase | finished phase | failed phase new fail =>
        exact owned
      | accepted phase ran =>
        refine ⟨homed_of_broad owned.homed ?_ rfl rfl rfl rfl, owned.stored, owned.routed⟩
        exact owned.homed.wellFormed.frame rfl rfl
          (List.Sublist.refl _) owned.homed.wellFormed.manned
      | sent phase new done | unheard phase new lost done =>
        exact owned_sent owned found phase anchoring done

end

/-- An anchored row is reached where it is. -/
theorem reaches_of_owned (owned : Owned Picked setting mesh) (unlocked : mesh.writer = .idle) :
    Reaches setting mesh := by
  intro npub live name rowId puts
  refine ⟨npub, ?_, puts⟩
  have sel : selectOwner rowId mesh.roster (mesh.recorded name rowId) = some npub := by
    rcases owned.stored npub name rowId puts with owns | ⟨free, pick⟩
    · cases home : mesh.placement name rowId with
      | none => simp [ownerOf, home, unlocked, announced] at owns
      | some entry =>
        rcases entry with ⟨copies, s⟩
        obtain ⟨own, rfl⟩ := owned.homed.single _ _ _ _ home
        simp only [ownerOf, home, List.head?_cons, Option.some.injEq] at owns
        subst owns
        simp only [MeshState.recorded, home]
        exact selectOwner_singleton live
    · have unplaced := placement_of_unowned owned.homed free
      simp only [MeshState.recorded, unplaced, selectOwner_nil]
      exact pick live
  unfold dispatchedTo
  rw [sel]
  simp only [MeshState.recorded, MeshState.upsertPlacement, and_self, if_true]
  exact selectOwner_singleton live

/--
In a run that keeps owners and anchors, whenever the write lock is free a
point UPDATE or DELETE of a row that an active provider has goes to a provider
that has it.
-/
theorem anchored_run_reaches_rows (setting : Setting) (initial : MeshState) (final : World)
    (events : List Traffic.Event)
    (settled : Settled setting initial)
    (run : GuardedRun (Traffic.step setting) (Anchoring setting) (.start initial) events final)
    (unlocked : final.mesh.writer = .idle) :
    Reaches setting final.mesh := by
  have owned : Owned Picked setting final.mesh := run.invariant
    (fun _ _ _ owned anchoring ran => owned_step owned anchoring ran)
    (settled.owned : Owned Picked setting (World.start initial).mesh)
  exact reaches_of_owned owned unlocked

/--
`INSERT INTO notes SELECT id, body FROM notes WHERE id = 'b'` with another id,
after the note is stored on its pick `p2`.
-/
def copiedNote (id : String) : List Traffic.Event :=
  (noteEvents (.insert (note "b" "text") none) "01" 1 ++
    List.replicate 6 (Gateway.Event.tick .answered)).map .mesh ++
  [.broad "notes" (.insertSelect
      { source := some "notes"
        selects := fun row => (cell row "id").captureText == some "b"
        project := fun _ => note id "text"
        onConflict := none }),
    .advance 0 "" .answered, .advance 0 "02" .answered,
    .advance 0 "03" .answered, .advance 0 "" .answered]

theorem copy_of_adds {mesh : MeshState} {flight : Flight}
    {npub id rowId : String} (onNotes : flight.name = "notes")
    (held : (mesh.providers npub).tables "notes" = [note "b" "text"])
    (copy : flight.write.run (keyedSchema notesSetting) "notes"
      (mesh.providers npub).tables = some [note "b" "text", note id "text"])
    (adds : Adds notesSetting mesh flight npub name rowId) :
    name = "notes" ∧ rowId = id := by
  obtain ⟨gone, rows, ran, table, row, known, mem, keyed⟩ := adds
  rw [onNotes] at ran
  cases copy.symm.trans ran
  have isNotes : name = "notes" := by
    by_contra away
    simp [notesSetting, away] at known
  subst isNotes
  refine ⟨rfl, ?_⟩
  cases known
  simp only [notesSetting, onNotes, Function.update_self] at mem
  rcases List.mem_cons.mp mem with rfl | isCopy
  · refine absurd ⟨notesTable, _, rfl, ?_, keyed⟩ gone
    rw [held]
    exact List.mem_singleton_self _
  · rw [List.mem_singleton.mp isCopy] at keyed
    exact (Option.some.inj keyed).symm

/-- A write that changes nothing adds no row. -/
theorem not_adds_of_same {mesh : MeshState} {flight : Flight}
    (same : flight.write.run (keyedSchema notesSetting) flight.name (mesh.providers npub).tables =
      some ((mesh.providers npub).tables flight.name)) :
    ¬ Adds notesSetting mesh flight npub name rowId := by
  rintro ⟨gone, rows, ran, puts⟩
  cases same.symm.trans ran
  rw [Function.update_eq_self] at puts
  exact gone puts

theorem belongs_of_pick {mesh : MeshState} (unowned : ownerOf mesh name rowId = none)
    (pick : pickName rowId mesh.roster = some npub) (idle : mesh.writer = .idle) :
    Belongs Picked mesh npub name rowId := by
  refine .inr ⟨unowned, fun _ => pick, ?_⟩
  intro write owner routed
  rw [idle] at routed
  cases routed

/-- A copy that is picked where it is made is reached. -/
theorem copied_row_is_reached :
    ∃ final, replay (Traffic.step notesSetting) (.start (.empty ["p1", "p2"]))
        (copiedNote "d") = some final ∧
      (final.mesh.providers "p2").tables "notes" =
        [note "b" "text", note "d" "text"] ∧
      Reaches notesSetting final.mesh := by
  refine ⟨_, rfl, rfl, ?_⟩
  have run : GuardedRun (Traffic.step notesSetting) (Anchoring notesSetting)
      (.start (.empty ["p1", "p2"])) (copiedNote "d") _ :=
    .move ⟨fun _ _ _ _ => nofun, trivial⟩ rfl <|
    .move ⟨fun _ _ => nofun, trivial⟩ rfl <|
    .move (by
      refine ⟨?_, trivial⟩
      rintro _ _ ⟨⟩
      refine ⟨nofun, ?_⟩
      rintro - npub ⟨table, row, known, mem, keyed⟩
      cases mem) rfl <|
    .move ⟨fun _ _ => nofun, trivial⟩ rfl <|
    .move ⟨fun _ _ => nofun, trivial⟩ rfl <|
    .move ⟨keepsOwner_tick fun _ _ _ => nofun, trivial⟩ rfl <|
    .move ⟨keepsOwner_tick fun _ _ _ => nofun, trivial⟩ rfl <|
    .move (by
      refine ⟨keepsOwner_tick ?_, trivial⟩
      rintro _ _ _ ⟨⟩
      refine ⟨?_, fun _ _ => nofun⟩
      rintro _ _ ⟨⟩
      exact ⟨"p2", by decide, by decide⟩) rfl <|
    .move ⟨keepsOwner_tick fun _ _ _ => nofun, trivial⟩ rfl <|
    .move ⟨keepsOwner_tick fun _ _ _ => nofun, trivial⟩ rfl <|
    .move ⟨keepsOwner_tick fun _ _ _ => nofun, trivial⟩ rfl <|
    .move trivial rfl <|
    .move (by
      rintro _ _ _ _ _ ⟨⟩
      exact nofun) rfl <|
    .move (by
      rintro _ _ _ _ _ ⟨⟩ ⟨⟩ adds
      exact absurd adds (not_adds_of_same rfl)) rfl <|
    .move (by
      rintro _ _ _ name rowId ⟨⟩ ⟨⟩ adds
      have copy : name = "notes" ∧ rowId = "d" := copy_of_adds rfl rfl rfl adds
      rw [copy.1, copy.2]
      exact belongs_of_pick rfl rfl rfl) rfl <|
    .move (by
      rintro _ _ _ _ _ ⟨⟩
      exact nofun) rfl (.done _)
  exact anchored_run_reaches_rows notesSetting (.empty ["p1", "p2"]) _ _
    (settled_empty _ _) run rfl

/--
A copy that is picked elsewhere is missed: `p2` has the row, and a point
write on it goes to `p1`.
-/
theorem copied_row_is_missed :
    ∃ final, replay (Traffic.step notesSetting) (.start (.empty ["p1", "p2"]))
        (copiedNote "c") = some final ∧
      final.mesh.writer = .idle ∧
      (final.mesh.providers "p2").tables "notes" =
        [note "b" "text", note "c" "text"] ∧
      dispatchedTo final.mesh "notes" "c" = some "p1" ∧
      ¬ Reaches notesSetting final.mesh := by
  obtain ⟨final, ran, unlocked, live, held, sent, lacks⟩ :
      ∃ final, replay (Traffic.step notesSetting)
          (.start (.empty ["p1", "p2"])) (copiedNote "c") = some final ∧
        final.mesh.writer = .idle ∧ final.mesh.roster = ["p1", "p2"] ∧
        (final.mesh.providers "p2").tables "notes" =
          [note "b" "text", note "c" "text"] ∧
        dispatchedTo final.mesh "notes" "c" = some "p1" ∧
        (final.mesh.providers "p1").tables "notes" = [] :=
    ⟨_, rfl, rfl, rfl, rfl, rfl, rfl⟩
  refine ⟨final, ran, unlocked, held, sent, ?_⟩
  intro reaches
  have kept : Stores notesSetting final.mesh "p2" "notes" "c" :=
    ⟨notesTable, note "c" "text", rfl, by simp [held], rfl⟩
  obtain ⟨own, owns, table, row, known, mem, keyed⟩ :=
    reaches "p2" (by simp [live]) "notes" "c" kept
  rw [sent, Option.some.injEq] at owns
  rw [← owns, lacks] at mem
  cases mem

end StorageOrchestrator.Mesh.Reach
