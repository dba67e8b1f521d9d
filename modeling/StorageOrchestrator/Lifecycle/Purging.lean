import StorageOrchestrator.Blossom.Proxy
import StorageOrchestrator.Lifecycle.Access

/-!
# Purges of closed accounts

A notifier pass reads the clock once, lists the accounts with a plan page by
page, derives the access of each listed row and asks the proxy to purge the
accounts whose retention is over.  The proxy deletes the blobs of the account
without another look at its row.  Passes and purges interleave with
entitlement writes, with the other requests of the proxy and with time.

A renewal that commits after the account is listed and before its blobs are
deleted does not stop the purge (`renewed_account_is_purged`).  When accounts
are not renewed in between, purges delete blobs of closed accounts only
(`unhurried_run_purges_closed`).
-/

namespace StorageOrchestrator.Lifecycle.Purging

open Accounts.Entitlement Blossom.BlobStore Blossom.Proxy Lib.Transition
  Lifecycle.Access
open List hiding next after

variable {npub : String} {cluster : Cluster} {event : Blossom.Proxy.Event}

/-- A row of the table `user` beside its key. -/
abbrev UserRow := Accounts.Store.User

/-- A listed account. -/
abbrev Item := String × UserRow

/-! ## The notifier -/

/-- The configuration; `purge` is whether the proxy's URL and key are set. -/
structure Setting where
  config : LifecycleConfig
  purge : Bool
  replicaCount : Nat

/-- Where a pass stands; `more` is whether another page follows. -/
inductive PassPhase where
  | listing (page : Nat)
  | handling (items : List Item) (page : Nat) (more : Bool)
  | purging (items : List Item) (page : Nat) (more : Bool)
  | ended

/-- A pass with the time at which it started. -/
structure Pass where
  now : Int
  phase : PassPhase

/-- The listed accounts that the pass has not evaluated. -/
def Pass.items (pass : Pass) : List Item :=
  match pass.phase with
  | .handling items _ _ | .purging items _ _ => items
  | _ => []

/-- The condition of the purge in `runOnce`. -/
def purgeIsDue (setting : Setting) (now : Int) (user : UserRow) : Bool :=
  let access := deriveAccess user now setting.config
  setting.config.purgeEnabled && (access.status = .readBlocked || access.status = .closed) &&
    access.purgeAt.any (reached now) && 0 < user.usedStorage && setting.purge

/-- By expiry. -/
def noLater (left right : Item) : Prop :=
  left.2.planExpiresAt.getD 0 ≤ right.2.planExpiresAt.getD 0

instance : DecidableRel noLater := fun left right =>
  inferInstanceAs (Decidable (left.2.planExpiresAt.getD 0 ≤ right.2.planExpiresAt.getD 0))

instance : Std.Total noLater := ⟨fun _ _ => le_total _ _⟩

instance : IsTrans Item noLater := ⟨fun _ _ _ => le_trans⟩

/-- An order by `planExpiresAt`; equal dates come in any order. -/
structure Arrangement where
  arrange : List Item → List Item
  perm : ∀ items, (arrange items).Perm items
  sorted : ∀ items, (arrange items).Pairwise noLater

/-- Equal dates in the order of the rows. -/
def Arrangement.stable : Arrangement where
  arrange := insertionSort noLater
  perm := perm_insertionSort noLater
  sorted := pairwise_insertionSort noLater

/-! ## The world -/

/--
The proxy with its tables, the other columns of the user rows, the payment
hashes of granted entitlements, the clock and the notifier's passes.
-/
structure World where
  cluster : Cluster
  planExpiresAt : String → Option Int
  grants : List String
  now : Int
  passes : List Pass

/-- The current row of an account. -/
def World.user (world : World) (npub : String) : Option UserRow :=
  (world.cluster.db.users.find? fun user => user.npub = npub).map fun user =>
    { planExpiresAt := world.planExpiresAt npub
      storageBytes := user.storageBytes
      usedStorage := user.usedStorage }

/-- The rows that `GET /users/attention` looks at. -/
def World.attention (world : World) : List Item :=
  (world.cluster.db.users.map fun user =>
    (user.npub,
      ({ planExpiresAt := world.planExpiresAt user.npub
         storageBytes := user.storageBytes
         usedStorage := user.usedStorage } : UserRow))).filter
    fun item => item.2.planExpiresAt.isSome

def pageSize : Nat := 100

/-- `GET /users/attention`. -/
def World.listAttentionUsers (world : World) (order : Arrangement) (page : Nat) : List Item :=
  ((order.arrange world.attention).drop ((page - 1) * pageSize)).take pageSize

/-- Set the quota of a user row, which is created if it is not there. -/
def putQuota (users : List User) (npub : String) (quota : Option Int) : List User :=
  if users.any fun user => user.npub = npub then
    users.map fun user =>
      if user.npub = npub then { user with storageBytes := quota } else user
  else users ++ [{ npub := npub, usedStorage := 0, storageBytes := quota }]

/-- The effect of an entitlement request, unless it is refused. -/
def World.effect (world : World) (npub : String) (request : EntitlementRequest) (computedAt : Int) :
    Option (Int × Option Int) :=
  if request.paymentHash.any fun hash => hash ∈ world.grants then none
  else
    match computeEntitlement ((world.user npub).getD .fresh) request computedAt with
    | .error _ => none
    | .ok effect =>
      effect.planExpiresAt.map fun expiry => (expiry, effect.storageBytes)

/-- `POST /users/:npub/entitlement`. -/
def World.entitle (world : World) (npub : String)
    (request : EntitlementRequest) (computedAt : Int) : World :=
  match world.effect npub request computedAt with
  | none => world
  | some (expiry, quota) =>
    { world with
      cluster :=
        { world.cluster with
          db :=
            { world.cluster.db with
              users := putQuota world.cluster.db.users npub quota } }
      planExpiresAt := Function.update world.planExpiresAt npub (some expiry)
      grants := world.grants ++ request.paymentHash.toList }

/-- What may happen next. -/
inductive Event where
  | elapse (milliseconds : Nat)
  | entitle (npub : String) (request : EntitlementRequest) (computedAt : Int)
  /-- A step of the proxy; purges are started by passes. -/
  | proxy (event : Blossom.Proxy.Event)
  | start
  /-- The next request of a pass. -/
  | pass (number : Nat) (order : Arrangement) (delivery : Delivery)

/-- The pass after its next request, and whether it started a purge. -/
def passStep (setting : Setting) (world : World) (pass : Pass)
    (order : Arrangement) (delivery : Delivery) :
    Option (PassPhase × Option String) :=
  match pass.phase with
  | .listing page =>
    if delivery = .answered then
      let items := world.listAttentionUsers order page
      let more := !(items.length < pageSize || world.attention.length ≤ page * pageSize)
      some (.handling items page more, none)
    else some (.ended, none)
  | .handling (item :: rest) page more =>
    if purgeIsDue setting pass.now item.2 then
      some (.purging rest page more,
        if delivery.executed then some item.1 else none)
    else some (.handling rest page more, none)
  | .handling [] page more =>
    some (if more then .listing (page + 1) else .ended, none)
  | .purging rest page more => some (.handling rest page more, none)
  | .ended => none

/-- What the proxy does on its own: no purge, no change of user rows. -/
def ownEvent : Blossom.Proxy.Event → Bool
  | .startPurge _ | .writeUsers _ => false
  | _ => true

def step (setting : Setting) (world : World) : Event → Option World
  | .elapse milliseconds =>
    some { world with now := world.now + milliseconds }
  | .entitle npub request computedAt =>
    some (world.entitle npub request computedAt)
  | .proxy event =>
    if ownEvent event then
      (Blossom.Proxy.step setting.replicaCount world.cluster event).map
        fun cluster => { world with cluster := cluster }
    else none
  | .start =>
    some { world with
      passes := world.passes ++ [⟨world.now, .listing 1⟩] }
  | .pass number order delivery =>
    match world.passes[number]? with
    | none => none
    | some pass =>
      (passStep setting world pass order delivery).map fun moved =>
        { world with
          cluster :=
            match moved.2 with
            | none => world.cluster
            | some npub => world.cluster.start (.purge npub .listing)
          passes := world.passes.set number ⟨pass.now, moved.1⟩ }

/-! ## The property and the condition -/

/-- The account is closed, by its current row and the current time. -/
def Closed (setting : Setting) (world : World) (npub : String) : Prop :=
  ∃ user, world.user npub = some user ∧
    (deriveAccess user world.now setting.config).status = .closed

/-- The step is the row delete of a purge of the account. -/
def Purges (world : World) (event : Event) (npub : String) : Prop :=
  ∃ index delivery time hash replicas rest, event = .proxy (.advance index delivery time) ∧
      world.cluster.tasks[index]? = some (.purge npub (.deletingRow hash replicas rest))

/-- A purge of the account is under way, or follows from a listed row. -/
def Pending (setting : Setting) (world : World) (npub : String) : Prop :=
  (∃ phase, phase ≠ PurgePhase.ended ∧ Task.purge npub phase ∈ world.cluster.tasks) ∨
  ∃ pass ∈ world.passes, ∃ user, (npub, user) ∈ pass.items ∧ purgeIsDue setting pass.now user = true

/-- An account is not reopened while a purge of it is pending. -/
def Unhurried (setting : Setting) (world : World) : Event → Prop
  | .entitle npub request computedAt =>
    ∀ expiry quota, world.effect npub request computedAt = some (expiry, quota) →
        Pending setting world npub → PlanClosed setting.config world.now (some expiry)
  | _ => True

/-! ## Closed accounts -/

section

variable {setting : Setting} {world : World}

theorem exists_user_iff (npub : String) :
    (∃ user, world.user npub = some user) ↔ npub ∈ world.cluster.db.npubs := by
  rw [← Option.isSome_iff_exists, World.user, Option.isSome_map, find?_isSome]
  simp [Database.npubs]

theorem planExpiresAt_of_user (found : world.user npub = some user) :
    user.planExpiresAt = world.planExpiresAt npub := by
  obtain ⟨billing, -, rfl⟩ := Option.map_eq_some_iff.mp found
  rfl

/-- An account is closed by its plan and the time alone. -/
theorem closed_iff_plan (npub : String) : Closed setting world npub ↔
      npub ∈ world.cluster.db.npubs ∧
      PlanClosed setting.config world.now (world.planExpiresAt npub) := by
  rw [← exists_user_iff]
  constructor
  · rintro ⟨u, found, shut⟩
    rw [closed_iff, planExpiresAt_of_user found] at shut
    exact ⟨⟨u, found⟩, shut⟩
  · rintro ⟨⟨u, found⟩, shut⟩
    rw [← planExpiresAt_of_user found, ← closed_iff] at shut
    exact ⟨u, found, shut⟩

/-- A listed row is a current one. -/
theorem user_of_listed (has : (npub, user) ∈ world.listAttentionUsers order page) :
    npub ∈ world.cluster.db.npubs ∧ user.planExpiresAt = world.planExpiresAt npub := by
  have arranged := mem_of_mem_drop (mem_of_mem_take has)
  have attended := (order.perm _).mem_iff.mp arranged
  obtain ⟨billing, mem, eq⟩ := mem_map.mp (mem_filter.mp attended).1
  cases eq
  exact ⟨mem_map_of_mem mem, rfl⟩

/-- A row whose purge is due has a closed plan. -/
theorem planClosed_of_due (due : purgeIsDue setting now user = true) :
    PlanClosed setting.config now user.planExpiresAt := by
  simp only [purgeIsDue, Bool.and_eq_true, Option.any_eq_true] at due
  obtain ⟨⟨⟨-, limit, scheduled, past⟩, -⟩, -⟩ := due
  exact (closed_iff _ _ _).mp (closed_of_purgeAt scheduled past)

/-! ## Pending purges -/

theorem mem_of_mem_start (mem : other ∈ (cluster.start task).tasks) :
    other ∈ cluster.tasks ∨ other = task := by
  rcases mem_append.mp mem with old | isNew
  · exact .inl old
  · exact .inr (mem_singleton.mp isNew)

section

variable (ran : Blossom.Proxy.step replicaCount cluster event = some after)
  (isOwn : ownEvent event = true)
include ran isOwn

/-- What the proxy does on its own starts no purge. -/
theorem purge_of_proxy (live : phase ≠ .ended) (mem : Task.purge npub phase ∈ after.tasks) :
    ∃ pre, pre ≠ PurgePhase.ended ∧ Task.purge npub pre ∈ cluster.tasks := by
  have old : Task.purge npub phase ∈ cluster.tasks → ∃ pre, pre ≠ PurgePhase.ended ∧
        Task.purge npub pre ∈ cluster.tasks :=
    fun known => ⟨phase, live, known⟩
  cases event with
  | startUpload upload | startDelete own hash | startModeration hash =>
    cases ran
    exact old ((mem_of_mem_start mem).resolve_right nofun)
  | startPurge own => cases isOwn
  | advance i sent now =>
    simp only [Blossom.Proxy.step] at ran
    split at ran
    · cases ran
    · rename_i task found
      obtain ⟨-, later, isSet, purges⟩ := settled_of_taskStep ran
      rw [isSet] at mem
      rcases mem_or_eq_of_mem_set mem with known | eq
      · exact old known
      · obtain ⟨pre, unended, rfl⟩ := purges npub phase eq.symm
        exact ⟨pre, unended, mem_of_getElem? found⟩
  | drop i =>
    simp only [Blossom.Proxy.step] at ran
    split at ran
    · cases ran
    · rename_i task found
      cases ran
      rcases mem_or_eq_of_mem_set mem with known | eq
      · exact old known
      · cases task <;> cases eq
        exact absurd rfl live
  | refresh roster | writeUsers users =>
    cases ran
    exact old mem

/-- What the proxy does on its own keeps the accounts. -/
theorem npubs_of_proxy : after.db.npubs = cluster.db.npubs := by
  cases event with
  | advance i sent now =>
    simp only [Blossom.Proxy.step] at ran
    split at ran
    · cases ran
    · exact (settled_of_taskStep ran).1
  | drop i =>
    simp only [Blossom.Proxy.step] at ran
    split at ran
    · cases ran
    · cases ran
      rfl
  | writeUsers users => cases isOwn
  | _ =>
    cases ran
    rfl

end

/-- What a pass asks to purge was listed, and so is what it still holds. -/
theorem listed_of_passStep {pass : Pass} {moved : PassPhase × Option String}
    (ran : passStep setting world pass order delivery = some moved) :
    (∀ npub, moved.2 = some npub → ∃ user, (npub, user) ∈ pass.items ∧
      purgeIsDue setting pass.now user = true) ∧
    ∀ x ∈ (Pass.mk pass.now moved.1).items, x ∈ pass.items ∨
      ∃ page, x ∈ world.listAttentionUsers order page := by
  rcases pass with ⟨now, phase⟩
  cases phase with
  | listing page =>
    simp only [passStep] at ran
    split at ran
    · cases ran
      exact ⟨fun _ => nofun, fun x mem => .inr ⟨page, mem⟩⟩
    · cases ran
      exact ⟨fun _ => nofun, fun _ => nofun⟩
  | handling xs page more =>
    cases xs with
    | nil =>
      cases ran
      refine ⟨fun _ => nofun, ?_⟩
      intro x mem
      cases more <;> cases mem
    | cons first rest =>
      simp only [passStep] at ran
      split at ran
      · rename_i due
        cases ran
        refine ⟨?_, fun x mem =>
          .inl (mem_cons_of_mem _ mem)⟩
        intro npub asked
        have hfst : first.1 = npub := by
          simp only at asked
          split at asked
          · exact Option.some.inj asked
          · cases asked
        exact ⟨first.2, hfst ▸ mem_cons_self, due⟩
      · cases ran
        exact ⟨fun _ => nofun, fun x mem =>
          .inl (mem_cons_of_mem _ mem)⟩
  | purging xs page more =>
    cases ran
    exact ⟨fun _ => nofun, fun x mem => .inl mem⟩
  | ended => cases ran

/-! ## The invariant -/

/-- Accounts with a pending purge are closed. -/
structure Justified (setting : Setting) (world : World) : Prop where
  pending : ∀ npub, Pending setting world npub → Closed setting world npub
  started : ∀ pass ∈ world.passes, pass.now ≤ world.now

/-- A step that starts no purge and reopens no account. -/
theorem Justified.frame (due : Justified setting world)
    (wait : ∀ npub, Pending setting next npub → Pending setting world npub)
    (rows : ∀ npub, npub ∈ world.cluster.db.npubs → npub ∈ next.cluster.db.npubs)
    (plans : next.planExpiresAt = world.planExpiresAt) (post : world.now ≤ next.now)
    (begun : ∀ pass ∈ next.passes, pass.now ≤ next.now) :
    Justified setting next := by
  refine ⟨?_, begun⟩
  intro npub isPending
  have shut := due.pending npub (wait npub isPending)
  rw [closed_iff_plan] at shut ⊢
  rw [plans]
  exact ⟨rows npub shut.1, shut.2.later post⟩

theorem mem_npubs_putQuota {users : List User} (mem : other ∈ users.map User.npub) :
    other ∈ (putQuota users npub quota).map User.npub := by
  have eq : ∀ u : User, (if u.npub = npub then { u with storageBytes := quota }
        else u).npub = u.npub := by
    intro u
    split <;> rfl
  rw [putQuota]
  split
  · simpa [eq] using mem
  · rw [map_append]
    exact mem_append_left _ mem

theorem Justified.entitle (due : Justified setting world)
    (unhurried : Unhurried setting world (.entitle npub request computedAt)) :
    Justified setting (world.entitle npub request computedAt) := by
  unfold World.entitle
  split
  · exact due
  · rename_i expiry quota effect
    refine ⟨?_, due.started⟩
    intro other isPending
    have wasPending : Pending setting world other := isPending
    have shut := (closed_iff_plan other).mp (due.pending other wasPending)
    rw [closed_iff_plan]
    refine ⟨mem_npubs_putQuota shut.1, ?_⟩
    by_cases same : other = npub
    · subst same
      simp only [Function.update_self]
      exact unhurried expiry quota effect wasPending
    · simp only [Function.update_of_ne same]
      exact shut.2

theorem Justified.pass (fair : Justified setting world) {n : Nat}
    {pass : Pass} {sent : Delivery} {moved : PassPhase × Option String}
    (found : world.passes[n]? = some pass)
    (ran : passStep setting world pass order sent = some moved) :
    Justified setting { world with
      cluster :=
        match moved.2 with
        | none => world.cluster
        | some npub => world.cluster.start (.purge npub .listing)
      passes := world.passes.set n ⟨pass.now, moved.1⟩ } := by
  obtain ⟨asked, has⟩ := listed_of_passStep ran
  have known : pass ∈ world.passes := mem_of_getElem? found
  have shut : ∀ npub, Pending setting { world with
      cluster :=
        match moved.2 with
        | none => world.cluster
        | some npub => world.cluster.start (.purge npub .listing)
      passes := world.passes.set n ⟨pass.now, moved.1⟩ } npub →
        Closed setting world npub := by
    rintro npub (⟨phase, live, mem⟩ | ⟨other, mem, u, isItem, due⟩)
    · cases ask : moved.2 with
      | none =>
        simp only [ask] at mem
        exact fair.pending npub (.inl ⟨phase, live, mem⟩)
      | some own =>
        simp only [ask] at mem
        rcases mem_of_mem_start mem with old | isNew
        · exact fair.pending npub (.inl ⟨phase, live, old⟩)
        · cases isNew
          obtain ⟨u, isItem, due⟩ := asked npub ask
          exact fair.pending npub (.inr ⟨pass, known, u, isItem, due⟩)
    · rcases mem_or_eq_of_mem_set mem with old | rfl
      · exact fair.pending npub (.inr ⟨other, old, u, isItem, due⟩)
      · rcases has _ isItem with old | ⟨page, listed⟩
        · exact fair.pending npub (.inr ⟨pass, known, u, old, due⟩)
        · obtain ⟨row, plan⟩ := user_of_listed listed
          refine (closed_iff_plan npub).mpr ⟨row, ?_⟩
          rw [← plan]
          exact (planClosed_of_due due).later (fair.started pass known)
  refine ⟨?_, ?_⟩
  · intro npub isPending
    have isClosed := (closed_iff_plan npub).mp (shut npub isPending)
    refine (closed_iff_plan npub).mpr ⟨?_, isClosed.2⟩
    cases moved.2 <;> exact isClosed.1
  · intro other mem
    rcases mem_or_eq_of_mem_set mem with old | rfl
    · exact fair.started other old
    · exact fair.started pass known

theorem Justified.proxy (due : Justified setting world)
    (ran : Blossom.Proxy.step setting.replicaCount world.cluster event =
      some cluster) (isOwn : ownEvent event = true) :
    Justified setting { world with cluster := cluster } := by
  refine due.frame ?_ ?_ rfl le_rfl due.started
  · rintro npub (⟨phase, live, mem⟩ | has)
    · exact .inl (purge_of_proxy ran isOwn live mem)
    · exact .inr has
  · intro npub row
    rw [npubs_of_proxy ran isOwn]
    exact row

theorem Justified.step {event : Event} (fair : Justified setting world)
    (unhurried : Unhurried setting world event) (ran : step setting world event = some next) :
    Justified setting next := by
  cases event with
  | elapse milliseconds =>
    cases ran
    refine fair.frame (fun _ wait => wait) (fun _ row => row) rfl ?_ ?_
    · exact Int.le_add_of_nonneg_right (Int.natCast_nonneg _)
    · intro pass mem
      exact (fair.started pass mem).trans (Int.le_add_of_nonneg_right (Int.natCast_nonneg _))
  | entitle npub req computedAt =>
    cases ran
    exact fair.entitle unhurried
  | proxy event =>
    simp only [Purging.step] at ran
    split at ran
    · rename_i isOwn
      obtain ⟨cluster, moved, rfl⟩ := Option.map_eq_some_iff.mp ran
      exact fair.proxy moved isOwn
    · cases ran
  | start =>
    cases ran
    refine fair.frame ?_ (fun _ row => row) rfl le_rfl ?_
    · rintro npub (live | ⟨pass, mem, u, isItem, due⟩)
      · exact .inl live
      · rcases mem_append.mp mem with old | isNew
        · exact .inr ⟨pass, old, u, isItem, due⟩
        · cases mem_singleton.mp isNew
          cases isItem
    · intro pass mem
      rcases mem_append.mp mem with old | isNew
      · exact fair.started pass old
      · rw [mem_singleton.mp isNew]
  | pass n order sent =>
    simp only [Purging.step] at ran
    split at ran
    · cases ran
    · rename_i pass found
      obtain ⟨moved, moving, rfl⟩ := Option.map_eq_some_iff.mp ran
      exact fair.pass found moving

end

/-- No pass and no purge is under way. -/
def Quiet (world : World) : Prop :=
  world.passes = [] ∧ ∀ npub phase,
    Task.purge npub phase ∈ world.cluster.tasks → phase = .ended

/--
In a run in which accounts are not reopened while a purge of them is pending,
purges delete blobs of closed accounts only.
-/
theorem unhurried_run_purges_closed (setting : Setting)
    (initial final : World) (events : List Event) (quiet : Quiet initial)
    (run : GuardedRun (step setting) (Unhurried setting) initial events final)
    (event : Event) (npub : String) (purges : Purges final event npub) :
    Closed setting final npub := by
  have init : Justified setting initial := by
    refine ⟨?_, ?_⟩
    · rintro npub (⟨phase, live, mem⟩ | ⟨pass, mem, -⟩)
      · exact absurd (quiet.2 npub phase mem) live
      · rw [quiet.1] at mem
        cases mem
    · intro pass mem
      rw [quiet.1] at mem
      cases mem
  have due : Justified setting final := run.invariant (fun world event next due unhurried ran =>
        Justified.step due unhurried ran)
      init
  obtain ⟨i, sent, time, hash, copies, rest, -, live⟩ := purges
  exact due.pending npub (.inl ⟨.deletingRow hash copies rest, nofun, mem_of_getElem? live⟩)

/-! ## A renewal during a purge -/

/-- The default windows, with purges. -/
def purgingSetting : Setting where
  config :=
    { graceDays := 7
      writeBlockedDays := 30
      readBlockedDays := 30
      purgeEnabled := true }
  purge := true
  replicaCount := 1

/-- An account whose plan ended 68 days ago, with one blob. -/
def lapsedAccount : World where
  cluster :=
    { db :=
        { users := [{ npub := "alice", usedStorage := 3, storageBytes := none }]
          blobs :=
            [{ hash := "h"
               npub := "alice"
               size := 3
               replicas := ["p1"]
               createdAt := 0 }] }
      roster := ["p1"]
      held := [("p1", "h")]
      tasks := [] }
  planExpiresAt := fun npub => if npub = "alice" then some 0 else none
  grants := []
  now := 68 * dayMs
  passes := []

/-- A pass lists the account and asks for its purge, which lists the blob. -/
def lapsedIsListed : List Event :=
  [.start, .pass 0 .stable .answered, .pass 0 .stable .answered,
    .proxy (.advance 0 .answered 0)]

/-- Thirty days, paid at the time of the pass. -/
def renewal (npub : String) : Event :=
  .entitle npub
    { durationDays := 30
      source := .payment
      storageBytesBig := 100
      mode := none
      force := false
      paymentHash := some "paid"
      planExpiresAt := none }
    (68 * dayMs)

/-- The next row delete of the first purge. -/
def rowDelete : Event := .proxy (.advance 0 .answered 0)

/-- While another account is renewed, a purge deletes a blob of a closed one. -/
theorem lapsed_account_is_purged :
    ∃ final, replay (step purgingSetting) lapsedAccount (lapsedIsListed ++ [renewal "bob"]) =
        some final ∧ final.grants = ["paid"] ∧
      Purges final rowDelete "alice" ∧
      Closed purgingSetting final "alice" := by
  refine ⟨_, rfl, rfl, ⟨0, .answered, 0, "h", ["p1"], [], rfl, rfl⟩, ?_⟩
  have run : GuardedRun (step purgingSetting) (Unhurried purgingSetting)
      lapsedAccount (lapsedIsListed ++ [renewal "bob"]) _ :=
    .move trivial rfl <|
    .move trivial rfl <|
    .move trivial rfl <|
    .move trivial rfl <|
    .move (by
      rintro expiry quota - (⟨phase, -, mem⟩ | ⟨pass, isPass, user, mem, -⟩)
      · simpa using mem_singleton.mp mem
      · cases mem_singleton.mp isPass
        cases mem) rfl (.done _)
  exact unhurried_run_purges_closed purgingSetting lapsedAccount _ _
    ⟨rfl, fun _ _ => nofun⟩ run rowDelete "alice"
    ⟨0, .answered, 0, "h", ["p1"], [], rfl, rfl⟩

/--
The account is renewed after it was listed: its access is active again, and
the purge deletes its blob.
-/
theorem renewed_account_is_purged : ∃ final next, replay (step purgingSetting) lapsedAccount
        (lapsedIsListed ++ [renewal "alice"]) = some final ∧
      Purges final rowDelete "alice" ∧
      ((final.user "alice").map fun user =>
        (deriveAccess user final.now purgingSetting.config).status) = some .active ∧
      step purgingSetting final rowDelete = some next ∧
      next.cluster.db.blobs = [] :=
  ⟨_, _, rfl, ⟨0, .answered, 0, "h", ["p1"], [], rfl, rfl⟩, rfl, rfl, rfl⟩

end StorageOrchestrator.Lifecycle.Purging
