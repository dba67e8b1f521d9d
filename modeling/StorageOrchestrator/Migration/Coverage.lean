import StorageOrchestrator.Migration.Manager

/-!
# Covered versions of one provider

`Covered` says that a provider has applied every registered migration up to a
version.  The version of a registered migration is above all earlier ones, so
a covered version stays covered while the registry grows.  A batch is
`Gapless` for a provider when everything it leaves out below its versions has
been applied there; served from a covered version, such a batch ends in a
covered version (`served_advance`).
-/

namespace StorageOrchestrator.Migration.Coverage

open Migration.Handler Migration.Manager List

variable {migration : PendingMigration} {before after registered todo : List PendingMigration}
  {version : Nat} {applied : List String}

/-! ## Versions of a growing registry -/

theorem version_le_maxVersion (mem : migration ∈ migrations) :
    migration.version ≤ maxVersion migrations :=
  le_max_of_le (mem_map_of_mem mem) le_rfl

theorem maxVersion_le {migrations : List PendingMigration}
    (bounded : ∀ migration ∈ migrations, migration.version ≤ bound) :
    maxVersion migrations ≤ bound :=
  max_le_of_forall_le _ _ (forall_mem_map.mpr bounded)

/-- A registry after further appends: what is new is above what was there. -/
structure Grows (before after : List PendingMigration) : Prop where
  kept : before ⊆ after
  above : ∀ migration ∈ after, migration ∈ before ∨ maxVersion before < migration.version

theorem Grows.refl (registered : List PendingMigration) : Grows registered registered :=
  ⟨fun _ mem => mem, fun _ mem => .inl mem⟩

theorem Grows.maxVersion_le (grows : Grows before after) : maxVersion before ≤ maxVersion after :=
  Coverage.maxVersion_le fun _ mem =>
    version_le_maxVersion (grows.kept mem)

/-- A migration no newer than some version of before was there before. -/
theorem Grows.mem_before (grows : Grows before after)
    (mem : migration ∈ after) (older : migration.version ≤ version)
    (known : version ≤ maxVersion before) :
    migration ∈ before := by
  rcases grows.above migration mem with old | new
  · exact old
  · omega

/-! ## Covered versions and gapless batches -/

/-- Every registered migration up to the version has been applied. -/
structure Covered (registered : List PendingMigration)
    (applied : List String) (version : Nat) : Prop where
  known : version ≤ maxVersion registered
  complete : ∀ migration ∈ registered, migration.version ≤ version → migration.id ∈ applied

/-- What a batch leaves out below its versions has been applied. -/
structure Gapless (registered : List PendingMigration)
    (applied : List String) (batch : List PendingMigration) : Prop where
  listed : batch ⊆ registered
  complete : ∀ migration ∈ registered, (∃ later ∈ batch, migration.version ≤ later.version) →
      migration ∈ batch ∨ migration.id ∈ applied

theorem Covered.nil (applied : List String) : Covered [] applied 0 :=
  ⟨Nat.zero_le _, fun _ mem => nomatch mem⟩

theorem Covered.lower {lower : Nat}
    (covered : Covered registered applied version) (below : lower ≤ version) :
    Covered registered applied lower :=
  ⟨below.trans covered.known, fun migration mem older =>
    covered.complete migration mem (older.trans below)⟩

theorem Covered.grow (covered : Covered before applied version)
    (grows : Grows before after) (long : applied ⊆ more) :
    Covered after more version := by
  refine ⟨covered.known.trans grows.maxVersion_le, ?_⟩
  intro migration mem older
  have old := grows.mem_before mem older covered.known
  exact long (covered.complete migration old older)

theorem Gapless.grow (dense : Gapless before applied batch) (grows : Grows before after)
    (long : applied ⊆ more) :
    Gapless after more batch := by
  refine ⟨fun _ mem => grows.kept (dense.listed mem), ?_⟩
  rintro migration mem ⟨later, inBatch, older⟩
  have old := grows.mem_before mem older (version_le_maxVersion (dense.listed inBatch))
  rcases dense.complete migration old ⟨later, inBatch, older⟩ with queued | done
  · exact .inl queued
  · exact .inr (long done)

/-- Dropping an applied migration from the front leaves no gap. -/
theorem Gapless.tail (dense : Gapless registered applied (migration :: todo))
    (done : migration.id ∈ applied) :
    Gapless registered applied todo := by
  refine ⟨fun _ mem =>
    dense.listed (mem_cons_of_mem _ mem), ?_⟩
  rintro other mem ⟨later, inTodo, older⟩
  rcases dense.complete other mem ⟨later, mem_cons_of_mem _ inTodo, older⟩ with queue | applied
  · rcases mem_cons.mp queue with rfl | rest
    · exact .inr done
    · exact .inl rest
  · exact .inr applied

/-- A request that stands at a version with migrations still to do. -/
structure Underway (registered : List PendingMigration) (applied : List String) (version : Nat)
    (todo : List PendingMigration) : Prop where
  known : version ≤ maxVersion registered
  gapless : Gapless registered applied todo
  complete : ∀ migration ∈ registered, migration.version ≤ version →
    migration ∈ todo ∨ migration.id ∈ applied

section

theorem Covered.start (covered : Covered registered applied version)
    (dense : Gapless registered applied todo) :
    Underway registered applied version todo :=
  ⟨covered.known, dense, fun migration mem older =>
    .inr (covered.complete migration mem older)⟩

theorem Underway.finish (live : Underway registered applied version []) :
    Covered registered applied version := by
  refine ⟨live.known, ?_⟩
  intro migration mem older
  rcases live.complete migration mem older with queue | done
  · cases queue
  · exact done

theorem Underway.grow (live : Underway registered applied version todo)
    (grows : Grows registered after) (long : applied ⊆ more) :
    Underway after more version todo := by
  refine ⟨live.known.trans grows.maxVersion_le, live.gapless.grow grows long, ?_⟩
  intro other mem older
  have old := grows.mem_before mem older live.known
  rcases live.complete other old older with queue | done
  · exact .inl queue
  · exact .inr (long done)

section

variable (live : Underway registered applied version (migration :: todo))
  (done : migration.id ∈ applied)
include live done

/-- An applied migration is taken off; the version rises to its own. -/
theorem Underway.raise : Underway registered applied (max version migration.version) todo := by
  have mem := live.gapless.listed mem_cons_self
  refine ⟨max_le live.known (version_le_maxVersion mem), live.gapless.tail done, ?_⟩
  intro other registeredOther older
  have queue : other ∈ migration :: todo ∨ other.id ∈ applied := by
    rcases le_max_iff.mp older with atVersion | atHead
    · exact live.complete other registeredOther atVersion
    · exact live.gapless.complete other registeredOther ⟨migration, mem_cons_self, atHead⟩
  rcases queue with queue | applied
  · rcases mem_cons.mp queue with rfl | rest
    · exact .inr done
    · exact .inl rest
  · exact .inr applied

/-- A migration applied earlier is passed over at the same version. -/
theorem Underway.skip : Underway registered applied version todo := by
  have raised := live.raise done
  exact ⟨live.known, raised.gapless, fun other mem older =>
    raised.complete other mem (le_max_of_le_left older)⟩

end

end

/-! ## The schema handler keeps its provider covered -/

/-- What holds of a request while it is served. -/
def ProgressSound (registered : List PendingMigration) (applied : List String) : Progress → Prop
  | .received batch => Gapless registered applied batch
  | .looping version todo => Underway registered applied version todo
  | .unknown version migration todo =>
    Underway registered applied version (migration :: todo)
  | .executed version migration todo =>
    Underway registered applied version (migration :: todo) ∧ migration.id ∈ applied
  | .caught version migration todo =>
    Underway registered applied version (migration :: todo) ∧ migration.id ∈ applied
  | .answered version => Covered registered applied version
  | .failed => True

theorem ProgressSound.grow (ok : ProgressSound before applied progress)
    (grows : Grows before after) (long : applied ⊆ more) :
    ProgressSound after more progress := by
  cases progress with
  | received batch => exact Gapless.grow ok grows long
  | looping version todo | unknown version migration todo =>
    exact Underway.grow ok grows long
  | executed version migration todo | caught version migration todo =>
    exact ⟨ok.1.grow grows long, long ok.2⟩
  | answered version => exact Covered.grow ok grows long
  | failed => exact ok

section

variable {Catalog : Type} {agent : Agent Catalog}

/-- A provider's bookkeeping agrees with what it has applied. -/
structure AgentSound (registered : List PendingMigration) (agent : Agent Catalog) : Prop where
  version : Covered registered agent.applied agent.schemaVersion
  known : ∀ entry ∈ agent.migrations, entry.1 ∈ agent.applied

/-- What a statement of the handler does to one provider and request. -/
structure Served (registered : List PendingMigration)
    (before : Agent Catalog) (outcome : Agent Catalog × Progress) :
    Prop where
  longer : before.applied ⊆ outcome.1.applied
  agent : AgentSound registered outcome.1
  progress : ProgressSound registered outcome.1.applied outcome.2

theorem AgentSound.grow (ok : AgentSound before agent) (grows : Grows before after) :
    AgentSound after agent :=
  ⟨ok.version.grow grows fun _ mem => mem, ok.known⟩

section

variable (ok : AgentSound registered agent)
include ok

theorem Served.refused : Served registered agent (agent, .failed) :=
  ⟨fun _ mem => mem, ok, trivial⟩

theorem served_recordMigration
    (live : Underway registered agent.applied version (migration :: todo))
    (done : migration.id ∈ agent.applied) :
    Served registered agent (recordMigration agent version migration todo) := by
  simp only [recordMigration]
  split
  · exact Served.refused ok
  · refine ⟨fun _ mem => mem, ⟨ok.version, ?_⟩, live.raise done⟩
    intro entry mem
    rcases mem_append.mp mem with old | new
    · exact ok.known entry old
    · rw [mem_singleton] at new
      subst new
      exact done

/-- Adding a migration to the history keeps a provider sound. -/
theorem AgentSound.history (id : String) (catalog : Catalog) :
    AgentSound registered { agent with
        catalog := catalog
        applied := agent.applied ++ [id] } :=
  ⟨ok.version.grow (Grows.refl registered) (subset_append_left _ _),
    fun entry mem => mem_append_left _ (ok.known entry mem)⟩

end

variable (engine : ProviderEngine Catalog)

/-- The next statement swallows an error only where the end state holds. -/
def SwallowsSoundly (agent : Agent Catalog) : Progress → Prop
  | .unknown _ migration _ =>
    let ddl := engine.stripServerGenerators migration.ddl
    ∀ message, engine.execute agent.catalog ddl = .error message →
      swallowed message → engine.endState ddl agent.catalog
  | _ => True

theorem served_catchError (ok : AgentSound registered agent)
    (live : Underway registered agent.applied version (migration :: todo))
    (path : swallowed msg → engine.endState (engine.stripServerGenerators migration.ddl)
      agent.catalog) :
    Served registered agent (catchError engine agent version migration todo msg) := by
  by_cases quiet : swallowed msg
  · have h := path quiet
    have long : agent.applied ⊆ agent.applied ++ [migration.id] := subset_append_left _ _
    simp only [catchError, quiet, h, if_true]
    exact ⟨long, ok.history migration.id agent.catalog,
      live.grow (Grows.refl registered) long, by simp⟩
  · simp only [catchError, quiet]
    exact Served.refused ok

theorem served_executeMigration (sound : AgentSound registered agent)
    (live : Underway registered agent.applied version (migration :: todo))
    (soundly : SwallowsSoundly engine agent (.unknown version migration todo)) :
    Served registered agent (executeMigration engine agent version migration todo) := by
  simp only [executeMigration]
  cases did : engine.execute agent.catalog (engine.stripServerGenerators migration.ddl) with
  | error msg =>
    exact served_catchError engine sound live (soundly msg did)
  | ok cat =>
    have long : agent.applied ⊆ (ran agent migration cat).applied := subset_append_left _ _
    have ranSound : AgentSound registered (ran agent migration cat) :=
      sound.history migration.id cat
    have done : migration.id ∈ (ran agent migration cat).applied := by simp [ran]
    have ranUnderway := live.grow (Grows.refl registered) long
    dsimp only
    split
    · exact ⟨long, ranSound, ranUnderway, done⟩
    · split
      · exact Served.refused sound
      · have served := served_recordMigration ranSound ranUnderway done
        exact ⟨fun _ mem => served.longer (long mem), served.agent, served.progress⟩

/-- Every statement of the handler keeps provider and request sound. -/
theorem served_advance (ok : AgentSound registered agent)
    (req : ProgressSound registered agent.applied prog)
    (soundly : SwallowsSoundly engine agent prog) :
    Served registered agent (advance engine agent prog) := by
  have same : ∀ next, ProgressSound registered agent.applied next →
      Served registered agent (agent, next) :=
    fun next h => ⟨fun _ mem => mem, ok, h⟩
  cases prog with
  | received batch =>
    simp only [advance]
    split
    · exact same _ (ok.version.start req)
    · exact Served.refused ok
  | looping version todo =>
    cases todo with
    | nil =>
      have covered := Underway.finish req
      exact ⟨fun _ mem => mem, ⟨covered, ok.known⟩, covered⟩
    | cons migration todo =>
      simp only [advance]
      split
      · rename_i known
        rcases any_eq_true.mp known with ⟨entry, mem, eq⟩
        have done : migration.id ∈ agent.applied := by
          rw [← of_decide_eq_true eq]
          exact ok.known entry mem
        exact same _ (Underway.skip req done)
      · exact same _ req
  | unknown version migration todo =>
    exact served_executeMigration engine ok req soundly
  | executed version migration todo | caught version migration todo =>
    exact served_recordMigration ok req.1 req.2
  | answered version => exact same _ req
  | failed => exact same _ trivial

end

/-! ## The registry -/

theorem mem_orderByVersion (migration : PendingMigration) (migrations : List PendingMigration) :
    migration ∈ orderByVersion migrations ↔ migration ∈ migrations :=
  mem_insertionSort _

theorem pendingMigrations_subset (s : CentralStore) : pendingMigrations s ⊆ s.registered := by
  intro migration mem
  rw [pendingMigrations, mem_orderByVersion, mem_map] at mem
  rcases mem with ⟨row, kept, rfl⟩
  exact mem_map.mpr ⟨row, (mem_filter.mp kept).1, rfl⟩

theorem mem_migrationsSince_iff (s : CentralStore) (version : Nat) (migration : PendingMigration) :
    migration ∈ migrationsSince s version ↔
      migration ∈ s.registered ∧ version < migration.version := by
  simp [migrationsSince, mem_orderByVersion]

/-- What the catch-up loop sends above a covered version has no gap. -/
theorem gapless_migrationsSince (covered : Covered store.registered applied version) :
    Gapless store.registered applied (migrationsSince store version) := by
  constructor
  · intro migration mem
    exact ((mem_migrationsSince_iff store version migration).mp mem).1
  · rintro migration mem -
    by_cases older : migration.version ≤ version
    · exact .inr (covered.complete migration mem older)
    · exact .inl ((mem_migrationsSince_iff store version migration).mpr
        ⟨mem, Nat.lt_of_not_le older⟩)

theorem grows_appendMigration {next : CentralStore} {ddl id : String}
    (app : appendMigration store ddl id = some next) :
    Grows store.registered next.registered ∧ next.migrationState = store.migrationState := by
  simp only [appendMigration] at app
  split at app
  · cases app
  · cases app
    refine ⟨⟨?_, ?_⟩, rfl⟩
    · intro migration mem
      simpa [CentralStore.registered] using Or.inl mem
    · intro migration mem
      simp only [CentralStore.registered, map_append, map_cons,
        map_nil, mem_append, mem_singleton] at mem
      rcases mem with old | rfl
      · exact .inl old
      · exact .inr (Nat.lt_succ_self _)

@[simp]
theorem registered_markMigrationApplied (store : CentralStore) (id : String) :
    (markMigrationApplied store id).registered = store.registered := by
  simp only [CentralStore.registered, markMigrationApplied, List.map_map]
  apply List.map_congr_left
  intro row _
  simp only [Function.comp_apply]
  split <;> rfl

@[simp]
theorem registered_recordMigrationState (store : CentralStore) (npub : String) (version : Nat) :
    (recordMigrationState store npub version).registered = store.registered := by
  simp only [recordMigrationState]
  split <;> rfl

theorem mem_recordMigrationState (mem : entry ∈
      (recordMigrationState store npub version).migrationState) :
    entry ∈ store.migrationState ∨ entry = (npub, version) := by
  simp only [recordMigrationState] at mem
  split at mem
  · exact .inl mem
  · simpa using mem

theorem foldr_max_mem (versions : List Nat) :
    versions.foldr max 0 = 0 ∨ versions.foldr max 0 ∈ versions := by
  induction versions with
  | nil => exact .inl rfl
  | cons version rest ih =>
    simp only [foldr_cons]
    rcases max_choice version (rest.foldr max 0) with head | tail
    · rw [head]
      exact .inr mem_cons_self
    · rw [tail]
      rcases ih with zero | mem
      · exact .inl zero
      · exact .inr (mem_cons_of_mem _ mem)

/-- The recorded version of a provider is one of its entries, or 0. -/
theorem providerSchemaVersion_mem (s : CentralStore) (npub : String) :
    providerSchemaVersion s npub = 0 ∨ (npub, providerSchemaVersion s npub) ∈ s.migrationState := by
  rcases foldr_max_mem ((s.migrationState.filter fun entry =>
    entry.1 = npub).map Prod.snd) with zero | mem
  · exact .inl zero
  · rcases mem_map.mp mem with ⟨⟨own, version⟩, kept, last⟩
    rcases mem_filter.mp kept with ⟨noted, owned⟩
    have eq : own = npub := of_decide_eq_true owned
    subst eq
    refine .inr ?_
    rw [providerSchemaVersion, ← last]
    exact noted

end StorageOrchestrator.Migration.Coverage
