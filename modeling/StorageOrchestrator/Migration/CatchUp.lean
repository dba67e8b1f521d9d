import StorageOrchestrator.Migration.Propagation

/-!
# One catch-up of a late joiner

`catch_up_provider` reads the recorded version of a provider, sends it every
migration above that version in one request, and records the version it
answers with.  The agent refuses a request of more than 200 migrations as a
whole, skips the migrations it has listed, and answers with the newest version
among those it ran and its own `schema_version`.

`catch_up_complete_iff` says for which registries and providers one call is
enough.
-/

namespace StorageOrchestrator.Migration.CatchUp

open Lib.Transition Migration.Handler Migration.Manager Migration.Coverage
  Migration.Propagation List

variable {store : CentralStore} {migration : PendingMigration}
  {migrations : List PendingMigration} {npub : String}

section

variable {Catalog : Type} (engine : ProviderEngine Catalog)

/-- One statement or transaction of a request, on a provider of its own. -/
def served (state : Agent Catalog × Progress) : Agent Catalog × Progress :=
  advance engine state.1 state.2

/--
A request served to its end with nothing in between: at most three statements
for a migration, one before the loop and one after it.
-/
def serveAlone (agent : Agent Catalog) (migrations : List PendingMigration) :
    Agent Catalog × Progress :=
  (served engine)^[3 * migrations.length + 2] (agent, .received migrations)

/-- What a catch-up leaves, and whether it returned without an error. -/
structure CaughtUp (Catalog : Type) where
  store : CentralStore
  agent : Agent Catalog
  succeeded : Bool

/-- A served request is recorded when it was answered with a version. -/
def conclude (store : CentralStore) (npub : String) : Agent Catalog × Progress → CaughtUp Catalog
  | (agent, .answered version) =>
    ⟨recordMigrationState store npub version, agent, true⟩
  | (agent, _) => ⟨store, agent, false⟩

def catchUpProvider (store : CentralStore) (agent : Agent Catalog)
    (npub : String) : CaughtUp Catalog :=
  let current := providerSchemaVersion store npub
  let migrations := migrationsSince store current
  if migrations.isEmpty then ⟨store, agent, true⟩
  else conclude store npub (serveAlone engine agent migrations)

/-- The agent has the migration in `_mesh_pg_migrations`. -/
def listed (agent : Agent Catalog) (migration : PendingMigration) : Bool :=
  agent.migrations.any fun known => known.1 = migration.id

/-- The migrations of a batch that the agent will run. -/
def unlisted (agent : Agent Catalog) (migrations : List PendingMigration) : List PendingMigration :=
  migrations.filter fun migration => !listed agent migration

/-- Each of the migrations, in this order, executes without an error. -/
def executesEach (catalog : Catalog) : List PendingMigration → Bool
  | [] => true
  | migration :: rest =>
    match engine.execute catalog (engine.stripServerGenerators migration.ddl) with
    | .error _ => false
    | .ok catalog => executesEach catalog rest

end

/-! ## Registries -/

/-- What the gateway writes into `pg_migration`. -/
structure WellFormed (registered : List PendingMigration) : Prop where
  distinct : (registered.map PendingMigration.id).Nodup
  sendable : ∀ migration ∈ registered,
    migration.id ≠ "" ∧ 0 < migration.version ∧ migration.ddl ≠ ""

/-! ## One request, alone on its provider -/

section

variable {Catalog : Type} (engine : ProviderEngine Catalog) {agent : Agent Catalog}

/-- The provider after it has run and listed a migration. -/
def recorded (agent : Agent Catalog) (migration : PendingMigration)
    (catalog : Catalog) : Agent Catalog :=
  { ran agent migration catalog with
    migrations := agent.migrations ++ [(migration.id, migration.version)] }

theorem recordMigration_unlisted (isNew : listed agent migration = false)
    (cat : Catalog) (ver : Nat) (todo : List PendingMigration) :
    recordMigration (ran agent migration cat) ver migration todo =
      (recorded agent migration cat, .looping (max ver migration.version) todo) := by
  have notKnown : ((ran agent migration cat).migrations.any fun known =>
      known.1 = migration.id) = false := isNew
  simp only [recordMigration, notKnown]
  rfl

/-- A migration that is not listed and executes is run and listed. -/
theorem serve_unlisted (isNew : listed agent migration = false) (runs : engine.execute agent.catalog
      (engine.stripServerGenerators migration.ddl) = .ok cat) (ver : Nat)
    (todo : List PendingMigration) :
    ∃ steps ≤ 3, (served engine)^[steps] (agent, .looping ver (migration :: todo)) =
      (recorded agent migration cat, .looping (max ver migration.version) todo) := by
  have first : served engine (agent, .looping ver (migration :: todo)) =
      (agent, .unknown ver migration todo) := by
    have notKnown : (agent.migrations.any fun known =>
        known.1 = migration.id) = false := isNew
    simp only [served, advance, notKnown]
    rfl
  have record := recordMigration_unlisted isNew cat ver todo
  by_cases out : runsOutsideTransaction (engine.stripServerGenerators migration.ddl)
  · refine ⟨3, le_rfl, ?_⟩
    have second : served engine (agent, .unknown ver migration todo) =
        (ran agent migration cat, .executed ver migration todo) := by
      simp only [served, advance, executeMigration, runs, out]
      rfl
    calc (served engine)^[3] (agent, .looping ver (migration :: todo))
        = served engine (served engine (agent, .unknown ver migration todo)) := by
          rw [← first]
          rfl
      _ = served engine (ran agent migration cat, .executed ver migration todo) := by rw [second]
      _ = _ := record
  · refine ⟨2, by decide, ?_⟩
    calc (served engine)^[2] (agent, .looping ver (migration :: todo))
        = served engine (agent, .unknown ver migration todo) := by
          rw [← first]
          rfl
      _ = _ := by
          simp only [served, advance, executeMigration, runs, out, record]
          rfl

theorem unlisted_recorded {todo : List PendingMigration}
    (oth : ∀ other ∈ todo, migration.id ≠ other.id) (cat : Catalog) :
    unlisted (recorded agent migration cat) todo = unlisted agent todo := by
  apply filter_congr
  intro other mem
  simp [listed, recorded, oth other mem]

/-- A served batch: what was run, and the version that is answered. -/
structure Finished (before : Agent Catalog) (version : Nat)
    (todo : List PendingMigration) (outcome : Agent Catalog × Progress) :
    Prop where
  answer : outcome.2 = .answered (max version (maxVersion (unlisted before todo)))
  applied : outcome.1.applied = before.applied ++ (unlisted before todo).map PendingMigration.id

theorem maxVersion_cons (migration : PendingMigration) (migrations : List PendingMigration) :
    maxVersion (migration :: migrations) = max migration.version (maxVersion migrations) := rfl

/-- The loop over a batch each of whose new migrations executes. -/
theorem serve_loop (todo : List PendingMigration)
    (nodup : (todo.map PendingMigration.id).Nodup) (agent : Agent Catalog) (ver : Nat)
    (does : executesEach engine agent.catalog (unlisted agent todo)) :
    ∃ steps ≤ 3 * todo.length + 1, Finished agent ver todo
      ((served engine)^[steps] (agent, .looping ver todo)) := by
  induction todo generalizing agent ver with
  | nil =>
    refine ⟨1, by simp, ?_, ?_⟩
    · simp [served, advance, unlisted, maxVersion]
    · simp [served, advance, unlisted]
  | cons migration todo ih =>
    rcases nodup_cons.mp nodup with ⟨oth, restDistinct⟩
    cases isListed : listed agent migration with
    | true =>
      have eq : unlisted agent (migration :: todo) = unlisted agent todo := by
        simp [unlisted, isListed]
      rw [eq] at does
      rcases ih restDistinct agent ver does with ⟨steps, few, ended⟩
      have first : served engine (agent, .looping ver (migration :: todo)) =
            (agent, .looping ver todo) := by
        have known : (agent.migrations.any fun known =>
            known.1 = migration.id) = true := isListed
        simp only [served, advance, known]
        rfl
      refine ⟨steps + 1, by simp only [length_cons]; omega, ?_⟩
      rw [Function.iterate_succ_apply, first]
      exact ⟨eq ▸ ended.answer, eq ▸ ended.applied⟩
    | false =>
      have split : unlisted agent (migration :: todo) = migration :: unlisted agent todo := by
        simp [unlisted, isListed]
      rw [split, executesEach] at does
      cases executed : engine.execute agent.catalog
          (engine.stripServerGenerators migration.ddl) with
      | error msg => simp [executed] at does
      | ok catalog =>
        rw [executed] at does
        have eq : unlisted (recorded agent migration catalog) todo = unlisted agent todo :=
          unlisted_recorded (fun other mem isSame =>
            oth (isSame ▸ mem_map_of_mem mem)) catalog
        rcases serve_unlisted engine isListed executed ver todo with ⟨first, firstFew, hfst⟩
        rcases ih restDistinct (recorded agent migration catalog)
          (max ver migration.version) (eq.symm ▸ does) with
          ⟨steps, few, ended⟩
        refine ⟨steps + first, by simp only [length_cons]; omega, ?_⟩
        rw [Function.iterate_add_apply, hfst]
        constructor
        · rw [ended.answer, eq, split, maxVersion_cons, max_assoc]
        · rw [ended.applied, eq, split]
          simp [recorded, ran]

/-- A request stays where it has ended. -/
theorem iterate_of_ended (reaches : (served engine)^[steps] s = ended)
    (isFixed : served engine ended = ended) (few : steps ≤ more) :
    (served engine)^[more] s = ended := by
  rcases Nat.exists_eq_add_of_le few with ⟨rest, rfl⟩
  rw [Nat.add_comm, Function.iterate_add_apply, reaches]
  exact Function.iterate_fixed isFixed rest

theorem serveAlone_refused (deny : bodyAccepted migrations = false) (agent : Agent Catalog) :
    serveAlone engine agent migrations = (agent, .failed) := by
  have first : (served engine)^[1] (agent, .received migrations) = (agent, .failed) := by
    simp only [Function.iterate_one, served, advance, deny]
    rfl
  exact iterate_of_ended engine first rfl (by omega)

theorem serveAlone_finished (ok : bodyAccepted migrations = true)
    (nodup : (migrations.map PendingMigration.id).Nodup)
    (runs : executesEach engine agent.catalog (unlisted agent migrations)) :
    Finished agent agent.schemaVersion migrations (serveAlone engine agent migrations) := by
  rcases serve_loop engine migrations nodup agent agent.schemaVersion runs with ⟨steps, few, done⟩
  have first : served engine (agent, .received migrations) =
      (agent, .looping agent.schemaVersion migrations) := by
    simp only [served, advance, ok]
    rfl
  have isEnded : served engine ((served engine)^[steps]
        (agent, .looping agent.schemaVersion migrations)) =
      (served engine)^[steps] (agent, .looping agent.schemaVersion migrations) := by
    rw [served, done.answer, advance, ← done.answer]
  have reaches : (served engine)^[steps + 1] (agent, .received migrations) =
      (served engine)^[steps] (agent, .looping agent.schemaVersion migrations) := by
    rw [Function.iterate_succ_apply, first]
  rw [serveAlone, iterate_of_ended engine reaches isEnded (by omega)]
  exact done

end

/-! ## One catch-up -/

section

variable {Catalog : Type} (engine : ProviderEngine Catalog) {agent : Agent Catalog}

theorem foldr_max_append (vers : List Nat) (version : Nat) :
    (vers ++ [version]).foldr max 0 = max (vers.foldr max 0) version := by
  induction vers with
  | nil => simp
  | cons first rest ih =>
    simp [ih]

/-- Recording a version raises the recorded version to it. -/
theorem providerSchemaVersion_recordMigrationState
    (store : CentralStore) (npub : String) (version : Nat) :
    providerSchemaVersion (recordMigrationState store npub version) npub =
      max (providerSchemaVersion store npub) version := by
  by_cases known : (npub, version) ∈ store.migrationState
  · have isLower : version ≤ providerSchemaVersion store npub := by
      refine le_max_of_le (mem_map.mpr ⟨(npub, version), ?_, rfl⟩) le_rfl
      exact mem_filter.mpr ⟨known, by simp⟩
    rw [recordMigrationState, if_pos known, max_eq_left isLower]
  · rw [recordMigrationState, if_neg known]
    simp only [providerSchemaVersion, filter_append, map_append]
    rw [filter_cons_of_pos (by simp), filter_nil, map_cons, map_nil]
    exact foldr_max_append _ version

theorem mem_unlisted : migration ∈ unlisted agent migrations ↔
      migration ∈ migrations ∧ listed agent migration = false := by
  simp [unlisted]

theorem distinct_migrationsSince (wf : WellFormed store.registered) (ver : Nat) :
    ((migrationsSince store ver).map PendingMigration.id).Nodup := by
  have sorted : (migrationsSince store ver).Perm (store.registered.filter fun migration =>
        ver < migration.version) :=
    perm_insertionSort _ _
  refine (sorted.map PendingMigration.id).nodup_iff.mpr ?_
  exact List.Nodup.sublist (filter_sublist.map _) wf.distinct

theorem bodyAccepted_migrationsSince (wf : WellFormed store.registered)
    (few : (migrationsSince store ver).length ≤ 200) :
    bodyAccepted (migrationsSince store ver) = true := by
  simp only [bodyAccepted, Bool.and_eq_true, decide_eq_true_eq, all_eq_true]
  refine ⟨few, fun migration mem => ?_⟩
  have known := ((mem_migrationsSince_iff store ver migration).mp mem).1
  have sendable := wf.sendable migration known
  exact ⟨⟨sendable.1, sendable.2.1⟩, sendable.2.2⟩

theorem bodyAccepted_of_long (long : 200 < migrations.length) :
    bodyAccepted migrations = false := by
  have tooLong : ¬ migrations.length ≤ 200 := by omega
  simp [bodyAccepted, tooLong]

/-- More than 200 migrations are refused as a whole. -/
theorem catchUpProvider_of_long (long : 200 <
      (migrationsSince store (providerSchemaVersion store npub)).length) :
    catchUpProvider engine store agent npub = ⟨store, agent, false⟩ := by
  have some : (migrationsSince store (providerSchemaVersion store npub)).isEmpty = false := by
    cases batch : migrationsSince store (providerSchemaVersion store npub) with
    | nil => simp [batch] at long
    | cons first rest => rfl
  simp [catchUpProvider, some, serveAlone_refused engine (bodyAccepted_of_long long) agent,
    conclude]

/-- What an accepted catch-up leaves of a registry and a provider. -/
theorem catchUpProvider_of_few (wf : WellFormed store.registered) (isBatch :
      batch = migrationsSince store (providerSchemaVersion store npub)) (some : batch ≠ [])
    (few : batch.length ≤ 200)
    (runs : executesEach engine agent.catalog (unlisted agent batch)) :
    providerSchemaVersion (catchUpProvider engine store agent npub).store npub =
      max (providerSchemaVersion store npub)
      (max agent.schemaVersion (maxVersion (unlisted agent batch))) ∧
    (catchUpProvider engine store agent npub).agent.applied =
      agent.applied ++ (unlisted agent batch).map PendingMigration.id := by
  have done := serveAlone_finished engine
    (isBatch ▸ bodyAccepted_migrationsSince wf (isBatch ▸ few))
    (isBatch ▸ distinct_migrationsSince wf _) runs
  have isSome : batch.isEmpty = false := by
    cases batch with
    | nil => exact absurd rfl some
    | cons first rest => rfl
  rcases isOutcome : serveAlone engine agent batch with ⟨post, prog⟩
  rw [isOutcome] at done
  rcases done with ⟨rfl, isApplied⟩
  simp only [catchUpProvider, ← isBatch, isSome, Bool.false_eq_true, if_false, isOutcome, conclude]
  exact ⟨providerSchemaVersion_recordMigrationState store npub _, isApplied⟩

/-- Every registered migration is applied, and the newest one recorded. -/
def Complete (npub : String) (outcome : CaughtUp Catalog) : Prop :=
  (∀ migration ∈ outcome.store.registered, migration.id ∈ outcome.agent.applied) ∧
    providerSchemaVersion outcome.store npub = maxVersion outcome.store.registered

/-- What is recorded, or listed by the agent, has been applied. -/
def Truthful (store : CentralStore) (agent : Agent Catalog) (version : Nat) : Prop :=
  ∀ migration ∈ store.registered, migration.version ≤ version ∨ listed agent migration →
      migration.id ∈ agent.applied

/-- When one catch-up of a provider is enough. -/
structure Reachable (store : CentralStore) (agent : Agent Catalog) (npub : String) : Prop where
  /-- The missing versions fit into one request. -/
  few : (migrationsSince store (providerSchemaVersion store npub)).length ≤ 200
  truthful : Truthful store agent (providerSchemaVersion store npub)
  /-- The newest version is still to be run, or the agent stands at it. -/
  newest : max agent.schemaVersion (maxVersion (unlisted agent store.registered)) =
    maxVersion store.registered

theorem registered_catchUpProvider (store : CentralStore) (agent : Agent Catalog) (npub : String) :
    (catchUpProvider engine store agent npub).store.registered = store.registered := by
  simp only [catchUpProvider]
  split
  · rfl
  · unfold conclude
    split
    · exact registered_recordMigrationState _ _ _
    · rfl

/-- The newest version that runs, from the registry or from the batch. -/
theorem newest_of_batch {noted : Nat} (tail : noted < maxVersion store.registered) :
    max noted (max agent.schemaVersion
      (maxVersion (unlisted agent (migrationsSince store noted)))) =
      maxVersion store.registered ↔
    max agent.schemaVersion (maxVersion (unlisted agent store.registered)) =
      maxVersion store.registered := by
  have inBatch : maxVersion (unlisted agent (migrationsSince store noted)) ≤
      maxVersion (unlisted agent store.registered) := by
    refine maxVersion_le fun migration mem => version_le_maxVersion ?_
    rcases mem_unlisted.mp mem with ⟨sent, isNew⟩
    exact mem_unlisted.mpr ⟨((mem_migrationsSince_iff store noted migration).mp sent).1, isNew⟩
  have inRegistry : maxVersion (unlisted agent store.registered) ≤ maxVersion store.registered :=
    maxVersion_le fun migration mem =>
      version_le_maxVersion (mem_unlisted.mp mem).1
  have sent : maxVersion (unlisted agent store.registered) = maxVersion store.registered →
      maxVersion (unlisted agent (migrationsSince store noted)) = maxVersion store.registered := by
    intro isNewest
    refine le_antisymm (inBatch.trans inRegistry) ?_
    rcases foldr_max_mem ((unlisted agent store.registered).map
      PendingMigration.version) with isZero | mem
    · have : maxVersion (unlisted agent store.registered) = 0 := isZero
      omega
    · rcases mem_map.mp mem with ⟨migration, isUnlisted, isVersion⟩
      rcases mem_unlisted.mp isUnlisted with ⟨known, isNew⟩
      have isTop : migration.version = maxVersion store.registered := isVersion.trans isNewest
      rw [← isTop]
      refine version_le_maxVersion (mem_unlisted.mpr ⟨?_, isNew⟩)
      exact (mem_migrationsSince_iff store noted migration).mpr ⟨known, isTop ▸ tail⟩
  omega

/-- What running the unlisted part of a batch leaves to be desired. -/
theorem all_applied_iff {recorded : Nat} (wf : WellFormed store.registered) :
    (∀ migration ∈ store.registered, migration.id ∈ agent.applied ++
      (unlisted agent (migrationsSince store recorded)).map PendingMigration.id) ↔
      Truthful store agent recorded := by
  refine forall₂_congr fun migration known => ?_
  have isRun : migration.id ∈ (unlisted agent (migrationsSince store recorded)).map
          PendingMigration.id ↔
      recorded < migration.version ∧ listed agent migration = false := by
    constructor
    · intro mem
      rcases mem_map.mp mem with ⟨other, oth, same⟩
      rcases mem_unlisted.mp oth with ⟨sent, isNew⟩
      rcases (mem_migrationsSince_iff store recorded other).mp sent with ⟨otherRegistered, above⟩
      have eq := inj_on_of_nodup_map wf.distinct otherRegistered known same
      exact eq ▸ ⟨above, isNew⟩
    · rintro ⟨above, isNew⟩
      refine mem_map_of_mem (mem_unlisted.mpr ⟨?_, isNew⟩)
      exact (mem_migrationsSince_iff store recorded migration).mpr ⟨known, above⟩
  rw [mem_append, isRun, ← Bool.not_eq_true, ← not_le]
  tauto

/-- A provider that misses something and is told the truth is behind. -/
theorem behind_of_missing {noted : Nat} {gone : PendingMigration} (known : gone ∈ store.registered)
    (lacks : gone.id ∉ agent.applied) (truthful : Truthful store agent noted) :
    noted < gone.version := by
  refine lt_of_not_ge fun above => lacks ?_
  exact truthful gone known (.inl above)

/--
One call of `catch_up_provider` for a provider that misses a migration and
executes each one without an error brings it up to the newest version exactly
when the missing versions fit into one request, the bookkeeping names nothing
that was not applied, and the newest migration is not already listed by an
agent that stands below it.
-/
theorem catch_up_complete_iff (store : CentralStore) (agent : Agent Catalog) (npub : String)
    (wellFormed : WellFormed store.registered)
    (missing : ∃ migration ∈ store.registered, migration.id ∉ agent.applied)
    (executes : executesEach engine agent.catalog (unlisted agent
        (migrationsSince store (providerSchemaVersion store npub)))) :
    Complete npub (catchUpProvider engine store agent npub) ↔ Reachable store agent npub := by
  rcases missing with ⟨gone, known, isMissing⟩
  rw [Complete, registered_catchUpProvider]
  have tail : Truthful store agent (providerSchemaVersion store npub) →
      providerSchemaVersion store npub < maxVersion store.registered :=
    fun truthful =>
      (behind_of_missing known isMissing truthful).trans_le (version_le_maxVersion known)
  generalize isBatch : migrationsSince store (providerSchemaVersion store npub) = batch at executes
  by_cases few : batch.length ≤ 200
  · by_cases some : batch = []
    · have eq : (catchUpProvider engine store agent npub).agent = agent := by
        simp [catchUpProvider, isBatch, some]
      constructor
      · rintro ⟨complete, -⟩
        exact absurd (eq ▸ complete gone known) isMissing
      · intro path
        have sent := (mem_migrationsSince_iff store _ gone).mpr ⟨known,
            behind_of_missing known isMissing path.truthful⟩
        rw [isBatch, some] at sent
        cases sent
    · rcases catchUpProvider_of_few engine wellFormed isBatch.symm some few
        executes with ⟨isVersion, isApplied⟩
      rw [isVersion, isApplied, ← isBatch, all_applied_iff wellFormed]
      constructor
      · rintro ⟨truthful, isNewest⟩
        exact ⟨isBatch ▸ few, truthful, (newest_of_batch (tail truthful)).mp isNewest⟩
      · intro path
        exact ⟨path.truthful, (newest_of_batch (tail path.truthful)).mpr path.newest⟩
  · have deny : catchUpProvider engine store agent npub = ⟨store, agent, false⟩ :=
      catchUpProvider_of_long engine (isBatch ▸ not_le.mp few)
    rw [deny]
    constructor
    · rintro ⟨complete, -⟩
      exact absurd (complete gone known) isMissing
    · intro path
      exact absurd (isBatch ▸ path.few) few

end

/-! ## The call as a run of the catch-up loop -/

section

variable {Catalog : Type} (engine : ProviderEngine Catalog)

/-- A request has come to a state of its provider and its progress. -/
def servedTo (mesh : Mesh Catalog) (index : Nat) (provider : String)
    (state : Agent Catalog × Progress) : Mesh Catalog :=
  { mesh with
    agents := Function.update mesh.agents provider state.1
    requests := mesh.requests.set index ⟨provider, state.2⟩ }

theorem replay_serve {mesh : Mesh Catalog} (mem : i < mesh.requests.length)
    (host : String) (steps : Nat) (s : Agent Catalog × Progress) :
    replay (step engine) (servedTo mesh i host s) (replicate steps (.serve i)) =
      some (servedTo mesh i host ((served engine)^[steps] s)) := by
  induction steps generalizing s with
  | zero => rfl
  | succ steps ih =>
    have req : (servedTo mesh i host s).requests[i]? = some ⟨host, s.2⟩ := getElem?_set_self mem
    have next : step engine (servedTo mesh i host s) (.serve i) =
          some (servedTo mesh i host (served engine s)) := by
      simp only [step, req]
      simp [serveStep, servedTo, served]
    simp only [replicate_succ, replay, next]
    exact ih (served engine s)

theorem servedTo_send (mesh : Mesh Catalog) (host : String) (batch : List PendingMigration) :
    servedTo (mesh.send host batch) mesh.requests.length host (mesh.agents host, .received batch) =
      mesh.send host batch := by
  simp [servedTo, Mesh.send]

theorem conclude_agent (store : CentralStore) (npub : String) (s : Agent Catalog × Progress) :
    (conclude store npub s).agent = s.1 := by
  rcases s with ⟨agent, prog⟩
  cases prog <;> rfl

/-- The loop takes what its request came to, answered or not. -/
theorem sweep_concludes {mesh : Mesh Catalog} (isWaiting : mesh.sweep = .awaiting npub index hosts)
    (req : mesh.requests[index]? = some ⟨npub, prog⟩) :
    ∃ events final, replay (step engine) mesh events = some final ∧ final.sweep = .sweeping hosts ∧
      final.store = (conclude mesh.store npub (mesh.agents npub, prog)).store ∧
      final.agents = mesh.agents := by
  by_cases isAnswered : ∃ ver, prog = .answered ver
  · rcases isAnswered with ⟨ver, rfl⟩
    refine ⟨[.sweep, .sweep], { mesh with
        store := recordMigrationState mesh.store npub ver
        sweep := .sweeping hosts }, ?_, rfl, rfl, rfl⟩
    simp [replay, step, sweepStep, isWaiting, Mesh.answer, req]
  · refine ⟨[.sweepRejected], { mesh with sweep := .sweeping hosts }, ?_, rfl, ?_, rfl⟩
    · simp [replay, step, isWaiting, SweepPhase.remaining]
    · cases prog with
      | answered ver => exact absurd ⟨ver, rfl⟩ isAnswered
      | _ => rfl

/--
The call is what the loop does for its next provider when nothing else moves:
some run of the loop leaves the store and the provider as the call does.
-/
theorem sweep_runs_catchUpProvider {mesh : Mesh Catalog}
    (nxt : mesh.sweep = .sweeping (npub :: providers)) :
    ∃ evs fin, replay (step engine) mesh evs = some fin ∧ fin.sweep = .sweeping providers ∧
      fin.store = (catchUpProvider engine mesh.store (mesh.agents npub) npub).store ∧
      fin.agents npub = (catchUpProvider engine mesh.store (mesh.agents npub) npub).agent := by
  generalize isBatch : migrationsSince mesh.store (providerSchemaVersion mesh.store npub) = batch
  by_cases none : batch.isEmpty
  · refine ⟨[.sweep, .sweep], { mesh with sweep := .sweeping providers }, ?_, rfl, ?_, ?_⟩
    · simp [replay, step, sweepStep, nxt, isBatch, none]
    · simp [catchUpProvider, isBatch, none]
    · simp [catchUpProvider, isBatch, none]
  · let wait : Mesh Catalog := { mesh with sweep := .awaiting npub mesh.requests.length providers }
    have sent : replay (step engine) mesh [.sweep, .sweep, .sweep] =
        some (wait.send npub batch) := by
      simp [replay, step, sweepStep, nxt, isBatch, none, wait, Mesh.send]
    have mem : mesh.requests.length < (wait.send npub batch).requests.length := by
      simp [Mesh.send, wait]
    have isServed : replay (step engine) (wait.send npub batch)
        (replicate (3 * batch.length + 2) (.serve mesh.requests.length)) =
        some (servedTo (wait.send npub batch) mesh.requests.length npub
          (serveAlone engine (mesh.agents npub) batch)) := by
      have isStart : servedTo (wait.send npub batch) mesh.requests.length
          npub (mesh.agents npub, .received batch) =
            wait.send npub batch := servedTo_send wait npub batch
      have isReplay := replay_serve engine mem npub (3 * batch.length + 2)
        (mesh.agents npub, .received batch)
      rw [isStart] at isReplay
      exact isReplay
    generalize isLast : serveAlone engine (mesh.agents npub) batch = last at isServed
    have isCall : catchUpProvider engine mesh.store (mesh.agents npub) npub =
        conclude mesh.store npub last := by
      simp [catchUpProvider, isBatch, none, isLast]
    have isWaiting : (servedTo (wait.send npub batch) mesh.requests.length npub last).sweep =
          .awaiting npub mesh.requests.length providers := rfl
    have req : (servedTo (wait.send npub batch)
        mesh.requests.length npub last).requests[mesh.requests.length]? =
          some ⟨npub, last.2⟩ := getElem?_set_self mem
    rcases sweep_concludes engine isWaiting req with ⟨evs, fin, isFinal, isSweep, isStore, isAgents⟩
    refine ⟨[.sweep, .sweep, .sweep] ++ (replicate
        (3 * batch.length + 2) (.serve mesh.requests.length) ++ evs),
      fin, ?_, isSweep, ?_, ?_⟩
    · rw [replay_append, sent, Option.bind_some, replay_append, isServed]
      exact isFinal
    · rw [isStore, isCall]
      simp [servedTo, wait, Mesh.send]
    · rw [isAgents, isCall, conclude_agent]
      simp [servedTo]

end

/-! ## A registry that outgrows one request -/

/-- A statement that a provider may execute any number of times. -/
def numbered (version : Nat) : PendingMigration where
  id := String.ofList (List.replicate version 'm')
  ddl := "CREATE TABLE IF NOT EXISTS a (id int)"
  version := version

/-- A registry of migrations with the versions from 1 to a number. -/
def registryUpTo (count : Nat) : CentralStore where
  rows := (List.range' 1 count).map fun version =>
    { migration := numbered version, pending := false }
  migrationState := []

theorem registered_registryUpTo (count : Nat) : (registryUpTo count).registered =
      (range' 1 count).map numbered := by
  simp [registryUpTo, CentralStore.registered, map_map, Function.comp_def]

theorem wellFormed_registryUpTo (count : Nat) : WellFormed (registryUpTo count).registered := by
  rw [registered_registryUpTo]
  constructor
  · rw [map_map]
    refine List.Nodup.map ?_ nodup_range'
    intro left right isSame
    have sameList := congrArg String.toList isSame
    simpa [numbered] using congrArg length sameList
  · intro migration mem
    rcases mem_map.mp mem with ⟨version, lt, rfl⟩
    have pos : 0 < version := by
      have := (mem_range'_1.mp lt).1
      omega
    refine ⟨?_, pos, by simp [numbered]⟩
    intro isEmpty
    have sameList := congrArg String.toList isEmpty
    have := congrArg length sameList
    simp [numbered] at this
    omega

/-- A provider that joins after two migrations catches up. -/
theorem late_joiner_complete :
    Complete "p1" (catchUpProvider loggingEngine (registryUpTo 2)
      (.empty []) "p1") := by
  refine (catch_up_complete_iff loggingEngine (registryUpTo 2) (.empty [])
    "p1" (wellFormed_registryUpTo 2) ?_ ?_).mpr ⟨?_, ?_, ?_⟩
  · exact ⟨numbered 1, by decide, by decide⟩
  · decide
  · decide
  · rintro migration mem (noted | isListed)
    · have := ((wellFormed_registryUpTo 2).sendable migration mem).2.1
      exact absurd noted (not_le.mpr this)
    · cases isListed
  · decide

/-- The loop sends a late joiner two migrations and records that it has them. -/
theorem sweep_catches_up : ∃ evs fin, replay (step loggingEngine)
    { Mesh.initial fun _ => [] with
      store := registryUpTo 2
      sweep := .sweeping ["p1", "p2"] } evs = some fin ∧
      fin.sweep = .sweeping ["p2"] ∧
      fin.store = recordMigrationState (registryUpTo 2) "p1" 2 ∧
      (fin.agents "p1").applied = [(numbered 1).id, (numbered 2).id] :=
  let ⟨evs, fin, ran, rest, recorded, ended⟩ := sweep_runs_catchUpProvider loggingEngine rfl
  ⟨evs, fin, ran, rest, recorded, (congrArg Agent.applied ended).trans rfl⟩

/-- One that joins after 201 migrations is sent all of them and runs none. -/
theorem long_registry_incomplete :
    catchUpProvider loggingEngine (registryUpTo 201) (.empty []) "p1" =
        ⟨registryUpTo 201, .empty [], false⟩ ∧
      ¬ Complete "p1" (catchUpProvider loggingEngine (registryUpTo 201)
        (.empty []) "p1") := by
  have long : 200 < (migrationsSince (registryUpTo 201)
      (providerSchemaVersion (registryUpTo 201) "p1")).length := by
    have all : ∀ migration ∈ (registryUpTo 201).registered,
        decide (providerSchemaVersion (registryUpTo 201) "p1" <
          migration.version) = true := fun migration mem =>
      decide_eq_true ((wellFormed_registryUpTo 201).sendable migration mem).2.1
    rw [migrationsSince, orderByVersion, length_insertionSort,
      filter_eq_self.mpr all, registered_registryUpTo]
    simp
  have refused : catchUpProvider loggingEngine (registryUpTo 201)
      (.empty []) "p1" = ⟨registryUpTo 201, .empty [], false⟩ :=
    catchUpProvider_of_long loggingEngine long
  refine ⟨refused, ?_⟩
  rw [refused]
  rintro ⟨complete, -⟩
  have first : numbered 1 ∈ (registryUpTo 201).registered := by
    rw [registered_registryUpTo]
    exact mem_map_of_mem (mem_range'_1.mpr ⟨le_rfl, by decide⟩)
  exact absurd (complete _ first) not_mem_nil

end StorageOrchestrator.Migration.CatchUp
