import StorageOrchestrator.ControlPlane.Service

/-!
# Administrators

Only the holder of the lock changes the member table, and it counts the
active administrators under the lock before it demotes or revokes one.  So one
always remains, also when calls fail or requests are dropped midway.

The caller's own authority is checked before the lock is taken.  It is that of
the moment of the change when the caller is still an administrator on taking
the lock, and not otherwise: a revoked administrator's waiting request goes
through.
-/

namespace StorageOrchestrator.ControlPlane.Administrators

open Lib Lib.Mutex Lib.Transition ControlPlane

variable {target : String} {outcome : Outcome} {call : Call}

abbrev Members := UniqueRows Member.npub

def hasActiveAdmin (members : Members) : Bool := members.rows.any Member.isActiveAdmin

/-- The test of `auth::admin`. -/
def isActiveAdmin (members : Members) (npub : String) : Bool :=
  (members.find npub).any Member.isActiveAdmin

/-- Who asks to change the member table. -/
def memberCaller : Request → Option String
  | .upsert caller _ | .removeMember caller _ => some caller
  | _ => none

/-! ## Counting -/

/-- The table with one member changed. -/
def Others (members after : Members) (target : String) : Prop :=
  ∀ member ∈ members.rows, member.npub ≠ target → member ∈ after.rows

theorem hasActiveAdmin_of_other {mems : Members} (rest : Others mems after target)
    (spare : ∃ mem ∈ mems.rows, mem.isActiveAdmin = true ∧ mem.npub ≠ target) :
    hasActiveAdmin after = true := by
  rcases spare with ⟨mem, memb, isAdmin, ne⟩
  exact List.any_eq_true.mpr ⟨mem, rest mem memb ne, isAdmin⟩

/-- If the target is no active administrator, another member is. -/
theorem spare_of_find {mems : Members} (here : hasActiveAdmin mems = true)
    (notAdmin : isActiveAdmin mems target = false) :
    ∃ mem ∈ mems.rows, mem.isActiveAdmin = true ∧ mem.npub ≠ target := by
  rcases List.any_eq_true.mp here with ⟨mem, memb, isAdmin⟩
  refine ⟨mem, memb, isAdmin, ?_⟩
  rintro rfl
  rw [isActiveAdmin, UniqueRows.find_of_mem memb, Option.any_some, isAdmin] at notAdmin
  cases notAdmin

theorem others_putMember (s : Store) (target : String) (role : MemberRole) (adder : Option String) :
    Others s.members (putMember s target role adder).members
      target :=
  fun _ mem ne => UniqueRows.mem_put_of_ne mem ne

theorem others_revokeMember (s : Store) (target : String) :
    Others s.members (revokeMember s target).members target :=
  fun _ mem ne => UniqueRows.mem_update_of_ne mem ne

theorem hasActiveAdmin_putMember_admin (s : Store) (target : String) (adder : Option String) :
    hasActiveAdmin (putMember s target .admin adder).members = true := by
  have isPut : ∃ put ∈ (putMember s target .admin adder).members.rows,
      put.npub = target ∧ (put = ⟨target, .admin, .active, adder⟩ ∨
        ∃ old, put = (Member.grant .admin).apply old) :=
    UniqueRows.exists_mem_put _
  rcases isPut with ⟨put, mem, _, rfl | ⟨old, rfl⟩⟩
  · exact List.any_eq_true.mpr ⟨_, mem, rfl⟩
  · exact List.any_eq_true.mpr ⟨_, mem, rfl⟩

/-! ## The discipline -/

def changesMembers : Call → Bool
  | .putMember _ _ _ | .revokeMember _ => true
  | _ => false

theorem members_answer (quiet : changesMembers call = false) :
    (answer store outcome call).1.members = store.members := by
  cases call with
  | putMember | revokeMember => cases quiet
  | insertStorage =>
    simp only [answer]
    split
    · rfl
    · split <;> rfl
  | relinkStorage =>
    simp only [answer]
    split
    · split <;> rfl
    · rfl
  | patchStorage =>
    simp only [answer]
    split <;> rfl
  | _ => rfl

/-- A call goes through, fails after its effect or fails without one. -/
theorem perform_cases (s : Store) (call : Call) (outcome : Outcome) :
    perform s call outcome = answer s outcome call ∨
      ∃ error, (perform s call outcome).2 = .error error ∧
      ((perform s call outcome).1 = (answer s outcome call).1 ∨
      (perform s call outcome).1 = s) := by
  rw [perform]
  split
  · exact .inl rfl
  · split
    · exact .inl rfl
    · rename_i fault _ _
      refine .inr ⟨fault.error, rfl, ?_⟩
      cases fault.executed
      · exact .inr rfl
      · exact .inl rfl

theorem members_perform (quiet : changesMembers call = false) :
    (perform s call outcome).1.members = s.members := by
  rcases perform_cases s call outcome with ans | ⟨_, _, done | undone⟩
  · rw [ans, members_answer quiet]
  · rw [done, members_answer quiet]
  · rw [undone]

/-- An administrator remains; under `strict`, instead, callers are still
administrators when they take the lock, and so when they change a member. -/
def guarding (strict : Prop) : Discipline service Request where
  outside := fun store later => later.members = store.members
  inside := fun request store later => strict → later.members ≠ store.members →
    (memberCaller request).any (isActiveAdmin store.members) = true
  settled := fun store => ¬strict → hasActiveAdmin store.members = true
  enters := fun request store => strict → ∀ caller ∈ memberCaller request,
    isActiveAdmin store.members caller = true
  admits := fun _ _ => True
  cancels := True
  free := fun call => changesMembers call = false
  refl := fun _ => rfl
  trans := fun first second => second.trans first
  stable := fun settled same lax => same ▸ settled lax
  unlocked := fun _ quiet _ => members_perform quiet

section

variable {strict : Prop}

/-- A call of the holder that does not change members. -/
theorem ensures_quiet (quiet : changesMembers call = false) (done : (guarding strict).settled store)
    (got : ∀ (later : Store) (outcome : Outcome) (v : call.Value),
      later.members = store.members → (answer later outcome call).2 = .ok v →
      post v (answer later outcome call).1) :
    (ask call).Ensures (guarding strict) request post store := by
  refine ensures_ask (fun _ => done) fun later eq outcome _ => ?_
  have kept : (perform later call outcome).1.members = later.members := members_perform quiet
  refine ⟨fun _ new => absurd kept new, fun v isOk => ?_, fun _ _ lax => ?_⟩
  · rcases perform_cases later call outcome with ans | ⟨error, fail, _⟩
    · rw [ans] at isOk ⊢
      exact got later outcome v eq isOk
    · rw [fail] at isOk
      cases isOk
  · rw [kept, eq]
    exact done lax

theorem settled_perform (still : (guarding strict).settled s)
    (done : (guarding strict).settled (answer s outcome call).1) :
    (guarding strict).settled (perform s call outcome).1 := by
  rcases perform_cases s call outcome with ans | ⟨_, _, eq | eq⟩
  · rw [ans]
    exact done
  · rw [eq]
    exact done
  · rw [eq]
    exact still

section

variable (done : (guarding strict).settled store)
include done

/-- A call of the holder that changes a member. -/
theorem ensures_change
    (ent : strict → (memberCaller request).any (isActiveAdmin store.members) = true)
    (safe : ∀ later outcome, later.members = store.members →
      (guarding strict).settled (answer later outcome call).1)
    (next : ∀ v later, (guarding strict).settled later → post v later) :
    (ask call).Ensures (guarding strict) request post store := by
  refine ensures_ask (fun _ => done) fun later eq outcome _ => ?_
  have still : (guarding strict).settled later := fun lax => by rw [eq]; exact done lax
  have after := settled_perform still (safe later outcome eq)
  refine ⟨fun isStrict _ => ?_, fun v _ => next v _ after, fun _ _ => after⟩
  rw [eq]
  exact ent isStrict

/-- Past the check, another administrator is there. -/
theorem ensures_notLast (next : ∀ later : Store, later.members = store.members →
      (∃ member ∈ store.members.rows, member.isActiveAdmin = true ∧
      member.npub ≠ target) → post () later) :
    (ensureNotLastActiveAdmin target).Ensures (guarding strict) request post
      store := by
  refine Task.ensures_bind.mpr (ensures_quiet rfl done fun later outcome mems eq isOk => ?_)
  cases isOk
  split
  · intro lax
    show hasActiveAdmin later.members = true
    rw [eq]
    exact done lax
  · rename_i several
    refine next later eq ?_
    rw [← eq]
    exact UniqueRows.exists_other (Nat.lt_of_not_le several) target

theorem orderly_upsertLocked (ent : strict → isActiveAdmin store.members who = true) :
    (upsertLocked who target role).Orderly (guarding strict) (.upsert who body) store := by
  have writes : ∀ later : Store, later.members = store.members →
      (¬strict → role = .admin ∨ ∃ mem ∈ store.members.rows,
        mem.isActiveAdmin = true ∧ mem.npub ≠ target) →
      (do
        let mem ← ask (.putMember target role (some who))
        pure (Response.member mem) : Handler Response).Orderly
          (guarding strict) (.upsert who body) later := by
    intro later eq known
    refine Task.ensures_bind.mpr (ensures_change ?_ ?_ ?_ fun _ _ post => post)
    · intro lax
      rw [eq]
      exact done lax
    · intro isStrict
      rw [eq]
      exact ent isStrict
    · intro last outcome same lax
      rcases known lax with rfl | spare
      · exact hasActiveAdmin_putMember_admin last target (some who)
      · rw [← eq, ← same] at spare
        exact hasActiveAdmin_of_other (others_putMember last target role _) spare
  refine Task.ensures_bind.mpr (ensures_quiet rfl done fun later outcome old eq isOk => ?_)
  cases isOk
  have stillSettled : (guarding strict).settled later := fun lax => by rw [eq]; exact done lax
  split
  · refine Task.ensures_bind.mpr (ensures_notLast stillSettled ?_)
    intro last same spare
    exact writes last (same.trans eq) fun _ => .inr (eq ▸ spare)
  · rename_i notDemoted
    refine writes later eq fun lax => ?_
    cases role with
    | admin => exact .inl rfl
    | client =>
      refine .inr (spare_of_find (done lax) ?_)
      rw [← eq]
      simpa [isActiveAdmin] using notDemoted

end

/-- Clearing up after a revocation changes no member. -/
theorem makes_cleanUp (target : String) :
    (cleanUp target).Makes fun call => changesMembers call = false := by
  have detaches : ∀ disks cut failures, (detach disks cut failures).Makes fun call =>
        changesMembers call = false := by
    intro disks
    induction disks with
    | nil =>
      intro cut failures
      trivial
    | cons disk rest ih =>
      intro cut failures
      refine Task.Makes.bind (makes_call rfl) fun ans => ?_
      split
      · exact ih _ _
      · refine Task.Makes.bind (makes_call rfl) fun ans => ?_
        split
        · exact ih _ _
        · exact ih _ _
  refine Task.Makes.bind (makes_ask rfl) fun disks => ?_
  refine (detaches _ _ _).bind fun sums => ?_
  split
  split <;> trivial

/-- Calls that change no member keep the discipline. -/
theorem quiet_keeps (quiet : changesMembers call = false) (done : (guarding strict).settled s) :
    (guarding strict).inside request s (perform s call outcome).1 ∧
      (guarding strict).settled (perform s call outcome).1 := by
  have eq : (perform s call outcome).1.members = s.members := members_perform quiet
  exact ⟨fun _ new => absurd eq new, fun lax => by
    rw [eq]
    exact done lax⟩

theorem orderly_removeMemberLocked (settled : (guarding strict).settled store)
    (ent : strict → isActiveAdmin store.members caller = true) :
    (removeMemberLocked target).Orderly (guarding strict) (.removeMember caller body) store := by
  refine Task.ensures_bind.mpr (ensures_quiet rfl settled fun later outcome found eq isOk => ?_)
  cases isOk
  have stillSettled : (guarding strict).settled later := fun lax => by rw [eq]; exact settled lax
  split
  · exact stillSettled
  · rename_i mem memb
    have revokes : ∀ last : Store, last.members = store.members →
        (¬strict → ∃ mem ∈ store.members.rows, mem.isActiveAdmin = true ∧ mem.npub ≠ target) →
        (do
          let _ ← ask (.revokeMember target)
          cleanUp target : Handler Response).Orderly
          (guarding strict) (.removeMember caller body) last := by
      intro last same known
      refine Task.ensures_bind.mpr (ensures_change ?_ ?_ ?_ fun _ done post => ?_)
      · intro lax
        rw [same]
        exact settled lax
      · intro isStrict
        rw [same]
        exact ent isStrict
      · intro fin outcome untouched lax
        have spare := known lax
        rw [← same, ← untouched] at spare
        exact hasActiveAdmin_of_other (others_revokeMember fin target) spare
      · exact (makes_cleanUp target).orderly
          (fun _ _ _ quiet settled _ => quiet_keeps quiet settled) post
    split
    · refine Task.ensures_bind.mpr (ensures_notLast stillSettled ?_)
      intro last same spare
      exact revokes last (same.trans eq) fun _ => eq ▸ spare
    · rename_i notAdmin
      refine revokes later eq fun lax => spare_of_find (settled lax) ?_
      rw [← eq, isActiveAdmin, memb]
      simpa using notAdmin

theorem quiet_of_isFree (call : Call) (free : call.isFree = true) :
    changesMembers call = false := by
  cases call with
  | putMember | revokeMember => cases free
  | _ => rfl

theorem makes_createStorage (npub who : String) :
    (createStorage npub who).Makes fun call => changesMembers call = false := by
  have relinks : ∀ old, (reactivate npub who old).Makes
      fun call => changesMembers call = false := by
    intro old
    by_cases owned : old.ownerNpub = who
    · rw [reactivate, if_pos owned]
      exact makes_ask rfl
    · rw [reactivate, if_neg owned]
      trivial
  refine Task.Makes.bind (makes_ask rfl) fun found => ?_
  split
  · exact relinks _
  · refine Task.Makes.bind (makes_ask rfl) fun put => ?_
    split
    · trivial
    · refine Task.Makes.bind (makes_ask rfl) fun found => ?_
      split
      · exact relinks _
      · trivial

theorem makes_linkLocked (who npub : String) :
    (linkLocked who npub).Makes fun call => changesMembers call = false := by
  refine (makes_activeMember quiet_of_isFree who).bind fun _ => ?_
  refine Task.Makes.bind ?_ fun disk => ?_
  · refine Task.Makes.bind (makes_ask rfl) fun found => ?_
    split
    · split
      · trivial
      · exact Task.Makes.bind (makes_ask rfl) fun _ => makes_ask rfl
    · exact makes_createStorage npub who
  · refine Task.Makes.bind (makes_call rfl) fun ans => ?_
    split
    · exact Task.Makes.bind (makes_call rfl) fun _ => trivial
    · trivial

end

theorem polite (setting : Setting) (strict : Prop) (request : Request) :
    (handler setting request).Polite (guarding strict) request :=
  polite_handler setting quiet_of_isFree (fun _ _ _ _ _ done ent =>
      orderly_upsertLocked done fun isStrict => ent isStrict _ rfl)
    (fun _ _ _ _ _ done ent =>
      orderly_removeMemberLocked done fun isStrict => ent isStrict _ rfl)
    (fun who npub _ _ done _ => (makes_linkLocked who npub).orderly
      (fun _ _ _ quiet done _ => quiet_keeps quiet done) done)
    request

/-! ## An administrator remains -/

/-- Whatever requests run side by side, and however their calls end, an active
administrator remains. -/
theorem active_admin_remains (setting : Setting) {initial : Store}
    (present : hasActiveAdmin initial.members = true)
    {events : List Happening} {world : System}
    (reached : replay (step setting) (start initial) events = some world) :
    hasActiveAdmin world.store.members = true := by
  have ok : ∀ (s : System) (event : Happening), (guarding False).guard s event := by
    intro s event
    cases event with
    | arrive | leave => trivial
    | move => exact fun _ _ => trivial
    | acquire => exact fun _ _ no => no.elim
    | cancel => trivial
  have sound := (guarding False).sound_of_run (polite setting False)
    (Discipline.sound_start fun _ => present) (.of_replay ok reached)
  exact sound.settled trivial id

/-- A setting that takes any text for an npub. -/
def anySetting : Setting where
  isCanonicalNpub := fun _ => true
  parseIp := some
  inPrivateCidr := fun _ => true
  pendingReapGrace := 60

def administrator (npub : String) : Member := ⟨npub, .admin, .active, none⟩

/-- Two administrators and no storage. -/
def twoAdministrators : Store where
  members := ⟨[administrator "alice", administrator "bob"], by decide⟩
  storages := ⟨[], List.nodup_nil⟩

/-- A call that goes through. -/
def fine : Outcome := ⟨0, [], none⟩

/-- A request with the lock that makes some calls and ends. -/
def critical (number calls : Nat) : List Happening :=
  .acquire number :: List.replicate calls (.move number fine) ++ [.leave number]

/-- Two administrators revoke each other: the second finds itself the last. -/
theorem active_admin_remains_mutual : ∃ world : System,
      replay (step anySetting) (start twoAdministrators)
        ([.arrive (.removeMember "alice" (some "bob")),
          .arrive (.removeMember "bob" (some "alice")),
          .move 0 fine, .move 1 fine] ++ critical 0 4 ++ critical 1 2) = some world ∧
        hasActiveAdmin world.store.members = true := by
  have ran : (replay (step anySetting) (start twoAdministrators)
      ([.arrive (.removeMember "alice" (some "bob")),
        .arrive (.removeMember "bob" (some "alice")),
        .move 0 fine, .move 1 fine] ++ critical 0 4 ++ critical 1 2)).isSome =
          true := by
    decide +kernel
  obtain ⟨world, path⟩ := Option.isSome_iff_exists.mp ran
  exact ⟨world, path, active_admin_remains anySetting rfl path⟩

/-! ## Who changes the table -/

/-- A request that takes the lock to change a member is still its
administrator's. -/
def entersAuthorized (world : System) : Happening → Bool
  | .acquire number =>
    (world.running number).all fun running =>
      (memberCaller running.request).all (isActiveAdmin world.store.members)
  | _ => true

theorem guard_of_entersAuthorized (authorized : entersAuthorized world event = true) :
    (guarding True).guard world event := by
  cases event with
  | arrive | leave => trivial
  | move => exact fun _ _ => trivial
  | acquire n =>
    intro live found _ who isCaller
    simpa [entersAuthorized, found, Option.mem_def.mp isCaller] using authorized
  | cancel => trivial

/-- In a run whose requests find their callers administrators on taking the
lock, whoever changes the member table is an administrator at that moment. -/
theorem changes_by_active_admins (setting : Setting) {initial : Store}
    {events : List Happening} {world next : System} {event : Happening}
    (run : GuardedRun (step setting) (fun world event => entersAuthorized world event = true)
      (start initial) events world)
    (taken : step setting world event = some next)
    (changed : next.store.members ≠ world.store.members) :
    ∃ number outcome running caller, event = .move number outcome ∧
      world.running number = some running ∧
      memberCaller running.request = some caller ∧
      isActiveAdmin world.store.members caller = true := by
  have ok := (guarding True).sound_of_run (polite setting True)
    (Discipline.sound_start fun lax => absurd trivial lax)
    (run.weaken fun _ _ => guard_of_entersAuthorized)
  by_cases isMove : ∃ number outcome, event = .move number outcome
  · rcases isMove with ⟨number, outcome, rfl⟩
    rcases (ok.move (fun _ _ => trivial) taken).1 with ⟨running, found, eq | mem⟩
    · exact absurd eq changed
    · have isAdmin := mem trivial changed
      cases isCaller : memberCaller running.request with
      | none =>
        rw [isCaller] at isAdmin
        cases isAdmin
      | some caller =>
        rw [isCaller] at isAdmin
        exact ⟨number, outcome, running, caller, rfl, found, isCaller, isAdmin⟩
  · have eq := store_of_step taken fun number outcome isEvent =>
      isMove ⟨number, outcome, isEvent⟩
    exact absurd (congrArg Store.members eq) changed

/-- An administrator adds a client. -/
theorem changes_by_active_admins_added : ∃ world next : System,
      replay (step anySetting) (start twoAdministrators)
        [.arrive (.upsert "alice" (some ⟨"carol", .client⟩)), .move 0 fine,
          .acquire 0, .move 0 fine] = some world ∧
        step anySetting world (.move 0 fine) = some next ∧
        ∃ number outcome running caller, (.move 0 fine : Happening) = .move number outcome ∧
          world.running number = some running ∧
          memberCaller running.request = some caller ∧
          isActiveAdmin world.store.members caller = true := by
  have ran : ((guardedReplay (step anySetting) (fun world ev => entersAuthorized world ev = true)
      (start twoAdministrators)
      [.arrive (.upsert "alice" (some ⟨"carol", .client⟩)), .move 0 fine,
        .acquire 0, .move 0 fine]).bind fun world =>
          (step anySetting world (.move 0 fine)).map fun next =>
            (world.store.members.rows.length, next.store.members.rows.length)) = some (2, 3) := by
    decide +kernel
  obtain ⟨world, path, moved⟩ := Option.bind_eq_some_iff.mp ran
  obtain ⟨next, taken, sums⟩ := Option.map_eq_some_iff.mp moved
  have run := GuardedRun.of_guardedReplay path
  refine ⟨world, next, run.replay_eq, taken, changes_by_active_admins anySetting run taken ?_⟩
  intro eq
  rw [eq] at sums
  simp only [Prod.mk.injEq] at sums
  omega

/-- An administrator whose request waits for the lock is revoked, and the
request then makes it an administrator again. -/
theorem revoked_admin_restores_itself : ((replay (step anySetting) (start twoAdministrators)
      ([.arrive (.upsert "alice" (some ⟨"alice", .admin⟩)), .move 0 fine,
        .arrive (.removeMember "bob" (some "alice")), .move 1 fine] ++
        critical 1 4 ++ [.acquire 0, .move 0 fine])).bind fun world =>
          (step anySetting world (.move 0 fine)).map fun next =>
            ((world.running 0).bind fun running => memberCaller running.request,
              isActiveAdmin world.store.members "alice",
              isActiveAdmin next.store.members "alice")) =
      some (some "alice", false, true) := by
  decide +kernel

end StorageOrchestrator.ControlPlane.Administrators
