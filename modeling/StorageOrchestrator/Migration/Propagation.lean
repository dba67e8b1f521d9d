import StorageOrchestrator.Lib.Transition
import StorageOrchestrator.Migration.Coverage

/-!
# A recorded version has no gap below it

The invariant of the whole mesh: every version that is recorded, stored by an
agent or on its way back to the gateway is covered.

`propagate_now` sends only the migrations that are still pending and marks its
own one applied whether or not the providers took it.  A provider that missed
one and takes a later one answers with the later version, and the catch-up
loop starts above it (`push_leaves_gap`).  A run in which every push goes to a
provider that has applied the earlier migrations missing from the batch, and
in which an agent swallows an error only where the end state holds, covers
every recorded version (`gapless_run_covers`).
-/

namespace StorageOrchestrator.Migration.Propagation

open Lib.Transition Migration.Handler Migration.Manager Migration.Coverage List

variable {provider : String}

/-! ## The invariant of the mesh -/

section

variable {Catalog : Type} {mesh next : Mesh Catalog}

/-- The request of this number went to the provider. -/
def SentTo (mesh : Mesh Catalog) (index : Nat) (provider : String) : Prop :=
  ∃ request, mesh.requests[index]? = some request ∧ request.provider = provider

/-- What holds of a `propagate_now` call in each of its phases. -/
def PushSound (mesh : Mesh Catalog) : PushPhase → Prop
  | .starting => True
  | .loaded batch | .pushing batch _ => batch ⊆ mesh.store.registered
  | .awaiting batch provider request _ =>
    batch ⊆ mesh.store.registered ∧ SentTo mesh request provider
  | .recording batch provider version _ =>
    batch ⊆ mesh.store.registered ∧
      Covered mesh.store.registered (mesh.agents provider).applied version
  | .finished => True

/-- What holds of the catch-up loop in each of its phases. -/
def SweepSound (mesh : Mesh Catalog) : SweepPhase → Prop
  | .sleeping | .sweeping _ => True
  | .loading provider current _ =>
    Covered mesh.store.registered (mesh.agents provider).applied current
  | .sending provider batch _ =>
    Gapless mesh.store.registered (mesh.agents provider).applied batch
  | .awaiting provider request _ => SentTo mesh request provider
  | .recording provider version _ =>
    Covered mesh.store.registered (mesh.agents provider).applied version

/-- Every recorded, stored or answered version is covered. -/
structure MeshSound (mesh : Mesh Catalog) : Prop where
  recorded : ∀ entry ∈ mesh.store.migrationState,
    Covered mesh.store.registered (mesh.agents entry.1).applied entry.2
  agents : ∀ provider, AgentSound mesh.store.registered (mesh.agents provider)
  requests : ∀ request ∈ mesh.requests, ProgressSound mesh.store.registered
      (mesh.agents request.provider).applied request.progress
  pushes : ∀ push ∈ mesh.pushes, PushSound mesh push.phase
  sweep : SweepSound mesh mesh.sweep

/-- What every step leaves in place. -/
structure MeshGrows (mesh next : Mesh Catalog) : Prop where
  registered : Grows mesh.store.registered next.store.registered
  applied : ∀ provider, (mesh.agents provider).applied ⊆ (next.agents provider).applied
  requests : ∀ index provider, SentTo mesh index provider → SentTo next index provider

theorem MeshGrows.covered (grows : MeshGrows mesh next) (covered : Covered mesh.store.registered
      (mesh.agents provider).applied version) :
    Covered next.store.registered (next.agents provider).applied version :=
  covered.grow grows.registered (grows.applied provider)

theorem PushSound.grow (sound : PushSound mesh phase) (grows : MeshGrows mesh next) :
    PushSound next phase := by
  have kept : ∀ {batch : List PendingMigration},
      batch ⊆ mesh.store.registered → batch ⊆ next.store.registered :=
    fun has _ mem => grows.registered.kept (has mem)
  cases phase with
  | starting | finished => trivial
  | loaded batch | pushing batch hosts => exact kept sound
  | awaiting batch provider req hosts =>
    exact ⟨kept sound.1, grows.requests req provider sound.2⟩
  | recording batch provider ver hosts =>
    exact ⟨kept sound.1, grows.covered sound.2⟩

theorem SweepSound.grow (sound : SweepSound mesh phase) (grows : MeshGrows mesh next) :
    SweepSound next phase := by
  cases phase with
  | sleeping | sweeping hosts => trivial
  | loading provider cur hosts | recording provider ver hosts =>
    exact grows.covered sound
  | sending provider batch hosts =>
    exact Gapless.grow sound grows.registered (grows.applied provider)
  | awaiting provider req hosts =>
    exact grows.requests req provider sound

/-- What a step that only grows the mesh does not write stays sound. -/
structure Kept (mesh next : Mesh Catalog) : Prop where
  recorded : ∀ entry ∈ mesh.store.migrationState,
    Covered next.store.registered (next.agents entry.1).applied entry.2
  agents : ∀ provider, AgentSound next.store.registered (mesh.agents provider)
  requests : ∀ request ∈ mesh.requests,
    ProgressSound next.store.registered (next.agents request.provider).applied request.progress
  pushes : ∀ push ∈ mesh.pushes, PushSound next push.phase
  sweep : SweepSound next mesh.sweep

section

variable (sound : MeshSound mesh)
include sound

theorem MeshSound.kept (grows : MeshGrows mesh next) : Kept mesh next where
  recorded entry member := grows.covered (sound.recorded entry member)
  agents provider := (sound.agents provider).grow grows.registered
  requests request member :=
    (sound.requests request member).grow grows.registered (grows.applied request.provider)
  pushes push member := (sound.pushes push member).grow grows
  sweep := sound.sweep.grow grows

/-- The recorded version of every provider is covered. -/
theorem MeshSound.covered_recorded (provider : String) :
    Covered mesh.store.registered (mesh.agents provider).applied
      (providerSchemaVersion mesh.store provider) := by
  rcases providerSchemaVersion_mem mesh.store provider with zero | mem
  · rw [zero]
    exact (sound.agents provider).version.lower (Nat.zero_le _)
  · exact sound.recorded _ mem

/-- An answer to a request covers the provider it was sent to. -/
theorem MeshSound.covered_answer (sent : SentTo mesh index provider)
    (got : mesh.answer index = some version) :
    Covered mesh.store.registered (mesh.agents provider).applied
      version := by
  rcases sent with ⟨req, found, rfl⟩
  simp only [Mesh.answer, found] at got
  split at got
  · rename_i other ans eq
    cases got
    cases eq
    exact sound.requests _ (mem_of_getElem? found)
  · cases got

/-! ## One step -/

theorem MeshSound.withPush (i : Nat) (push : Push) (phase : PushPhase) (h : PushSound mesh phase) :
    MeshSound (mesh.setPush i push phase) := by
  refine ⟨sound.recorded, sound.agents, sound.requests, ?_, sound.sweep⟩
  intro other mem
  rcases mem_or_eq_of_mem_set mem with old | rfl
  · exact sound.pushes other old
  · exact h

theorem MeshSound.withSweep (h : SweepSound mesh phase) : MeshSound { mesh with sweep := phase } :=
  ⟨sound.recorded, sound.agents, sound.requests, sound.pushes, h⟩

theorem MeshSound.withStore {store : CentralStore}
    (known : Grows mesh.store.registered store.registered)
    (noted : ∀ entry ∈ store.migrationState, entry ∈ mesh.store.migrationState ∨
      Covered mesh.store.registered (mesh.agents entry.1).applied entry.2) :
    MeshSound { mesh with store := store } := by
  have grows : MeshGrows mesh { mesh with store := store } :=
    ⟨known, fun _ _ mem => mem, fun _ _ sent => sent⟩
  have kept := sound.kept grows
  refine ⟨?_, kept.agents, kept.requests, kept.pushes, kept.sweep⟩
  intro entry mem
  rcases noted entry mem with old | covered
  · exact kept.recorded entry old
  · exact grows.covered covered

/-- Recording a covered version keeps the mesh sound. -/
theorem MeshSound.withRecord (covered : Covered mesh.store.registered
      (mesh.agents provider).applied version) :
    MeshSound
      { mesh with
        store := recordMigrationState mesh.store provider version } := by
  refine sound.withStore ?_ ?_
  · rw [registered_recordMigrationState]
    exact Grows.refl _
  · intro entry mem
    rcases mem_recordMigrationState mem with old | rfl
    · exact .inl old
    · exact .inr covered

end

theorem sentTo_send (mesh : Mesh Catalog) (provider : String) (batch : List PendingMigration) :
    SentTo (mesh.send provider batch) mesh.requests.length provider :=
  ⟨{ provider := provider, progress := .received batch },
    by simp [Mesh.send], rfl⟩

theorem MeshSound.withSend (sound : MeshSound mesh) (dense : Gapless mesh.store.registered
      (mesh.agents provider).applied batch) :
    MeshSound (mesh.send provider batch) := by
  have grows : MeshGrows mesh (mesh.send provider batch) := by
    refine ⟨Grows.refl _, fun _ _ mem => mem, ?_⟩
    rintro i other ⟨req, found, sent⟩
    have bound := (List.getElem?_eq_some_iff.mp found).1
    exact ⟨req, (getElem?_append_left bound).trans found, sent⟩
  have kept := sound.kept grows
  refine ⟨kept.recorded, kept.agents, ?_, kept.pushes, kept.sweep⟩
  intro req mem
  rcases mem_append.mp mem with old | new
  · exact kept.requests req old
  · rw [mem_singleton.mp new]
    exact dense

/-- A push is about to send a batch with no gap for its provider. -/
def PushGapless (mesh : Mesh Catalog) : PushPhase → Prop
  | .pushing batch (provider :: _) =>
    ∀ migration ∈ mesh.store.registered, (∃ later ∈ batch, migration.version ≤ later.version) →
        migration ∈ batch ∨ migration.id ∈ (mesh.agents provider).applied
  | _ => True

theorem pushStep_sound (sound : MeshSound mesh) (mem : push ∈ mesh.pushes)
    (dense : PushGapless mesh push.phase) (ran : pushStep mesh i push = some next) :
    MeshSound next := by
  have h := sound.pushes push mem
  rcases push with ⟨migrationId, phase⟩
  cases phase with
  | starting =>
    simp only [pushStep] at ran
    split at ran
    · cases ran
      exact sound.withPush _ _ _ trivial
    · cases ran
      exact sound.withPush _ _ _ (pendingMigrations_subset mesh.store)
  | loaded batch =>
    cases ran
    exact sound.withPush _ _ _ h
  | pushing batch hosts =>
    cases hosts with
    | nil =>
      cases ran
      have finished := sound.withPush i { migrationId := migrationId, phase := .pushing batch [] }
        .finished trivial
      refine finished.withStore ?_ (fun _ mem => .inl mem)
      rw [registered_markMigrationApplied]
      exact Grows.refl _
    | cons provider hosts =>
      cases ran
      have sent := sound.withSend ⟨h, dense⟩
      exact sent.withPush _ _ _ ⟨h, sentTo_send mesh provider batch⟩
  | awaiting batch provider req hosts =>
    simp only [pushStep, Option.map_eq_some_iff] at ran
    rcases ran with ⟨ver, got, rfl⟩
    exact sound.withPush _ _ _ ⟨h.1, sound.covered_answer h.2 got⟩
  | recording batch provider ver hosts =>
    cases ran
    have pushed := sound.withPush i
      { migrationId := migrationId
        phase := .recording batch provider ver hosts }
      (.pushing batch hosts) h.1
    exact pushed.withRecord h.2
  | finished => cases ran

theorem sweepStep_sound (sound : MeshSound mesh) (ran : sweepStep mesh = some next) :
    MeshSound next := by
  have h := sound.sweep
  cases phase : mesh.sweep with
  | sleeping =>
    simp only [sweepStep, phase, Option.some.injEq] at ran
    subst ran
    exact sound.withSweep trivial
  | sweeping hosts =>
    cases hosts with
    | nil =>
      simp only [sweepStep, phase, Option.some.injEq] at ran
      subst ran
      exact sound.withSweep trivial
    | cons provider hosts =>
      simp only [sweepStep, phase, Option.some.injEq] at ran
      subst ran
      exact sound.withSweep (sound.covered_recorded provider)
  | loading provider cur hosts =>
    rw [phase] at h
    simp only [sweepStep, phase] at ran
    split at ran
    · cases ran
      exact sound.withSweep trivial
    · cases ran
      exact sound.withSweep (gapless_migrationsSince h)
  | sending provider batch hosts =>
    rw [phase] at h
    simp only [sweepStep, phase, Option.some.injEq] at ran
    subst ran
    exact (sound.withSend h).withSweep (sentTo_send mesh provider batch)
  | awaiting provider req hosts =>
    rw [phase] at h
    simp only [sweepStep, phase, Option.map_eq_some_iff] at ran
    rcases ran with ⟨ver, got, rfl⟩
    exact sound.withSweep (sound.covered_answer h got)
  | recording provider ver hosts =>
    rw [phase] at h
    simp only [sweepStep, phase, Option.some.injEq] at ran
    subst ran
    exact (sound.withRecord h).withSweep trivial

variable (engine : ProviderEngine Catalog)

/-- A provider moves to a sound state with a longer history. -/
theorem MeshSound.withAgent (sound : MeshSound mesh)
    (long : (mesh.agents provider).applied ⊆ agent.applied)
    (agentSound : AgentSound mesh.store.registered agent) :
    MeshSound { mesh with agents := Function.update mesh.agents provider agent } := by
  have grows : MeshGrows mesh
      { mesh with agents := Function.update mesh.agents provider agent } := by
    refine ⟨Grows.refl _, ?_, fun _ _ sent => sent⟩
    intro other
    by_cases eq : other = provider
    · subst eq
      simpa using long
    · simp [eq]
  have kept := sound.kept grows
  refine ⟨kept.recorded, ?_, kept.requests, kept.pushes, kept.sweep⟩
  intro other
  by_cases eq : other = provider
  · subst eq
    simpa using agentSound
  · simpa [eq] using sound.agents other

/-- A request moves on; it stays with its provider. -/
theorem MeshSound.withRequest (sound : MeshSound mesh) (found : mesh.requests[i]? = some req)
    (h : ProgressSound mesh.store.registered (mesh.agents req.provider).applied progress) :
    MeshSound { mesh with
        requests := mesh.requests.set i { req with progress := progress } } := by
  have grows : MeshGrows mesh { mesh with
      requests := mesh.requests.set i { req with progress := progress } } := by
    refine ⟨Grows.refl _, fun _ _ mem => mem, ?_⟩
    rintro other provider ⟨early, sent, rfl⟩
    by_cases eq : other = i
    · subst eq
      rw [found] at sent
      cases sent
      have bound := (List.getElem?_eq_some_iff.mp found).1
      exact ⟨_, getElem?_set_self bound, rfl⟩
    · exact ⟨early, (getElem?_set_ne (Ne.symm eq)).trans sent, rfl⟩
  have kept := sound.kept grows
  refine ⟨kept.recorded, kept.agents, ?_, kept.pushes, kept.sweep⟩
  intro other mem
  rcases mem_or_eq_of_mem_set mem with old | rfl
  · exact kept.requests other old
  · exact h

/-- Each push has no gap, and no error hides a state not reached. -/
def LeavesNoGap (mesh : Mesh Catalog) : Event → Prop
  | .push index =>
    ∀ push ∈ mesh.pushes[index]?, PushGapless mesh push.phase
  | .serve index =>
    ∀ request ∈ mesh.requests[index]?, SwallowsSoundly engine (mesh.agents request.provider)
        request.progress
  | _ => True

theorem step_sound (sound : MeshSound mesh) (dense : LeavesNoGap engine mesh ev)
    (ran : step engine mesh ev = some next) :
    MeshSound next := by
  cases ev with
  | ddl ddl id =>
    simp only [step, Option.map_eq_some_iff] at ran
    rcases ran with ⟨s, app, rfl⟩
    rcases grows_appendMigration app with ⟨grows, noted⟩
    have kept := sound.withStore grows (fun entry mem => .inl (noted ▸ mem))
    refine ⟨kept.recorded, kept.agents, kept.requests, ?_, kept.sweep⟩
    intro push mem
    rcases mem_append.mp mem with old | new
    · exact kept.pushes push old
    · rw [mem_singleton.mp new]
      trivial
  | refresh roster =>
    cases ran
    exact ⟨sound.recorded, sound.agents, sound.requests, sound.pushes, sound.sweep⟩
  | push i =>
    simp only [step] at ran
    cases found : mesh.pushes[i]? with
    | none => simp [found] at ran
    | some push =>
      simp only [found] at ran
      exact pushStep_sound sound (mem_of_getElem? found) (dense push found) ran
  | pushRejected i =>
    simp only [step] at ran
    cases found : mesh.pushes[i]? with
    | none => simp [found] at ran
    | some push =>
      simp only [found, pushRejectedStep] at ran
      have h := sound.pushes push (mem_of_getElem? found)
      split at ran
      · rename_i phase
        cases ran
        rw [phase] at h
        exact sound.withPush _ _ _ h.1
      · cases ran
  | pushDies i =>
    simp only [step] at ran
    cases found : mesh.pushes[i]? with
    | none => simp [found] at ran
    | some push =>
      simp only [found, Option.some.injEq] at ran
      subst ran
      exact sound.withPush _ _ _ trivial
  | sweep => exact sweepStep_sound sound ran
  | sweepRejected =>
    simp only [step, Option.map_eq_some_iff] at ran
    rcases ran with ⟨hosts, left, rfl⟩
    exact sound.withSweep trivial
  | restart =>
    cases ran
    refine ⟨sound.recorded, sound.agents, sound.requests, ?_, trivial⟩
    intro push mem
    rcases mem_map.mp mem with ⟨early, _, rfl⟩
    trivial
  | serve i =>
    simp only [step] at ran
    cases found : mesh.requests[i]? with
    | none => simp [found] at ran
    | some req =>
      simp only [found, Option.some.injEq] at ran
      subst ran
      have served := served_advance engine (sound.agents req.provider)
        (sound.requests req (mem_of_getElem? found)) (dense req found)
      exact (sound.withAgent served.longer served.agent).withRequest found
        (by simpa using served.progress)
  | breakdown i =>
    simp only [step] at ran
    cases found : mesh.requests[i]? with
    | none => simp [found] at ran
    | some req =>
      simp only [found, Option.some.injEq] at ran
      subst ran
      exact sound.withRequest found trivial
  | rawApply provider ddl =>
    have h := sound.agents provider
    simp only [step] at ran
    split at ran <;> cases ran
    exact sound.withAgent (List.Subset.refl _) ⟨h.version, h.known⟩

theorem initial_sound (catalogs : String → Catalog) : MeshSound (Mesh.initial catalogs) where
  recorded := fun _ mem => nomatch mem
  agents := fun _ => ⟨Covered.nil [], fun _ mem => nomatch mem⟩
  requests := fun _ mem => nomatch mem
  pushes := fun _ mem => nomatch mem
  sweep := trivial

/--
While every push goes to a provider that has applied what its batch leaves
out below, and errors are swallowed only where the end state holds, a
provider has applied every migration up to its recorded version.
-/
theorem gapless_run_covers (catalogs : String → Catalog) {events : List Event} {mesh : Mesh Catalog}
    (run : GuardedRun (step engine) (LeavesNoGap engine) (Mesh.initial catalogs) events mesh)
    (provider : String) (migration : PendingMigration)
    (registered : migration ∈ mesh.store.registered)
    (recorded : migration.version ≤ providerSchemaVersion mesh.store provider) :
    migration.id ∈ (mesh.agents provider).applied := by
  have sound : MeshSound mesh := run.invariant (fun _ _ _ h ok ran =>
        step_sound engine h ok ran)
      (initial_sound catalogs)
  exact (sound.covered_recorded provider).complete migration registered recorded

end

/-! ## A push over a gap -/

/-- A provider whose schema is the list of statements it has run. -/
def loggingEngine : ProviderEngine (List String) where
  execute := fun log ddl => .ok (log ++ [ddl])
  endState := fun ddl log => ddl ∈ log
  stripServerGenerators := id

/-- The provider fails during the first push, is swept, and takes the second one. -/
def sweptMigrations : List Event :=
  [.refresh ["p1"], .ddl "CREATE TABLE a (id int)" "m1",
    .push 0, .push 0, .push 0, .breakdown 0, .pushRejected 0, .push 0,
    .sweep, .sweep, .sweep, .sweep, .serve 1, .serve 1, .serve 1, .serve 1,
    .sweep, .sweep, .sweep,
    .ddl "CREATE TABLE b (id int)" "m2", .push 1, .push 1, .push 1,
    .serve 2, .serve 2, .serve 2, .serve 2, .push 1, .push 1, .push 1]

instance gaplessDecidable (mesh : Mesh Catalog) (phase : PushPhase) :
    Decidable (PushGapless mesh phase) := by
  unfold PushGapless
  split <;> infer_instance

instance leavesNoGapDecidable (mesh : Mesh (List String)) (event : Event) :
    Decidable (LeavesNoGap loggingEngine mesh event) := by
  cases event with
  | push index => exact inferInstanceAs (Decidable (∀ push ∈ mesh.pushes[index]?, PushGapless ..))
  | serve =>
    refine .isTrue fun request _ => ?_
    cases request.progress <;> simp [SwallowsSoundly, loggingEngine]
  | _ => exact .isTrue trivial

theorem gapless_run_covers_first : ∃ mesh, replay (step loggingEngine)
        (Mesh.initial fun _ => []) sweptMigrations = some mesh ∧
      providerSchemaVersion mesh.store "p1" = 2 ∧
      ∀ migration ∈ mesh.store.registered, migration.id ∈ (mesh.agents "p1").applied := by
  have swept : (guardedReplay (step loggingEngine) (LeavesNoGap loggingEngine)
      (Mesh.initial fun _ => []) sweptMigrations).any (fun mesh =>
        providerSchemaVersion mesh.store "p1" = 2 ∧
        ∀ migration ∈ mesh.store.registered, migration.version ≤ 2) = true := by
    decide +kernel
  obtain ⟨mesh, last, recorded⟩ := (Option.any_eq_true _ _).mp swept
  obtain ⟨recorded, bound⟩ := of_decide_eq_true recorded
  have run := GuardedRun.of_guardedReplay last
  refine ⟨mesh, run.replay_eq, recorded, fun migration mem => ?_⟩
  exact gapless_run_covers loggingEngine _ run "p1" migration mem
    (recorded ▸ bound migration mem)

/-- The provider fails during the first push and takes the second one. -/
def missedMigration : List Event :=
  [.refresh ["p1"], .ddl "CREATE TABLE a (id int)" "m1",
    .push 0, .push 0, .push 0, .breakdown 0, .pushRejected 0, .push 0,
    .ddl "CREATE TABLE b (id int)" "m2",
    .push 1, .push 1, .push 1,
    .serve 1, .serve 1, .serve 1, .serve 1,
    .push 1, .push 1, .push 1,
    .sweep, .sweep, .sweep, .sweep]

/--
A provider that missed the first migration is recorded at version 2, and a
whole sweep of the catch-up loop sends it nothing.
-/
theorem push_leaves_gap : ∃ mesh, replay (step loggingEngine)
        (Mesh.initial fun _ => []) missedMigration = some mesh ∧
      mesh.sweep = .sleeping ∧
      (∃ migration ∈ mesh.store.registered, migration.id = "m1" ∧
        migration.version ≤ providerSchemaVersion mesh.store "p1") ∧
      "m1" ∉ (mesh.agents "p1").applied := by
  refine ⟨_, rfl, rfl, ⟨⟨"m1", "CREATE TABLE a (id int)", 1⟩, ?_⟩, ?_⟩
  · decide
  · decide

end StorageOrchestrator.Migration.Propagation
