import StorageOrchestrator.Accounts.Serial
import StorageOrchestrator.Lifecycle.Purging

/-!
# Entitlement writes of the lifecycle model

The lifecycle model changes a plan in one step (`World.entitle`).  The step
does to the user rows and payment hashes what the transaction of db-api does to
the account tables, and so does any sequence of requests (`represents_entitles`).
-/

namespace StorageOrchestrator.Lifecycle.Entitling

open Accounts.Entitlement Accounts.Requests Accounts.Serial List
open StorageOrchestrator.Accounts.Store (Tables accounts exec)
open Blossom.BlobStore Lib.Transactions Lifecycle.Purging

/-- The account tables have the user rows and payment hashes of the world. -/
structure Represents (world : Purging.World) (tables : Tables) : Prop where
  users : ∀ npub, tables.users.lookup npub = world.user npub
  grants : ∀ hash, (tables.grants.lookup hash).isSome = true ↔ hash ∈ world.grants

def withPlan (user : UserRow) (expiry : Int) (quota : Option Int) : UserRow :=
  { user with planExpiresAt := some expiry, storageBytes := quota }

/-! ## The rows of the world -/

theorem find_putQuota (users : List User) (npub other : String) (quota : Option Int) :
    (putQuota users npub quota).find? (fun u => u.npub = other) =
      if other = npub then
      some
      { npub := npub
        usedStorage := ((users.find? fun u => u.npub = npub).map User.usedStorage).getD 0
        storageBytes := quota }
      else users.find? fun u => u.npub = other := by
  by_cases here : users.any fun u => u.npub = npub
  · have eqName : ∀ u : User, (if u.npub = npub then { u with storageBytes := quota }
          else u).npub = u.npub := by
      intro u
      split <;> rfl
    rw [putQuota, if_pos here, find?_map]
    simp only [Function.comp_def, eqName]
    cases found : users.find? fun u => u.npub = other with
    | none =>
      have ne : other ≠ npub := by
        rintro rfl
        obtain ⟨u, mem, user⟩ := any_eq_true.mp here
        exact find?_eq_none.mp found u mem user
      simp [ne]
    | some u =>
      have user : u.npub = other := by simpa using find?_some found
      by_cases isOwn : other = npub
      · subst isOwn
        simp [found, user]
      · simp [user, isOwn]
  · have gone : users.find? (fun u => u.npub = npub) = none := by
      rw [find?_eq_none]
      intro u mem user
      exact here (any_eq_true.mpr ⟨u, mem, user⟩)
    rw [putQuota, if_neg here, find?_append]
    by_cases isOwn : other = npub
    · subst isOwn
      simp [gone]
    · simp [isOwn, Ne.symm isOwn]

/-- The row of an account after an entitlement write. -/
theorem user_entitle {world : Purging.World}
    (effect : world.effect npub request computedAt = some (expiry, quota)) (other : String) :
    (world.entitle npub request computedAt).user other =
      if other = npub then
      some (withPlan ((world.user npub).getD .fresh) expiry quota)
      else world.user other := by
  simp only [World.entitle, effect, World.user, find_putQuota]
  by_cases isOwn : other = npub
  · subst isOwn
    simp only [if_true, Option.map_some, Function.update_self]
    cases world.cluster.db.users.find? fun u => u.npub = other <;> rfl
  · simp [if_neg isOwn, Function.update_of_ne isOwn]

/-! ## The write refines the transaction -/

section

variable {world : Purging.World}

/-- The transaction, by the rows and payment hashes of the world. -/
theorem alone_of_represents (means : Represents world tabs) :
    (grantEntitlement npub request computedAt).alone tabs =
      if request.paymentHash.any fun hash => hash ∈ world.grants then
      .error .p2002
      else
      (writePlan npub (computeEntitlement
      ((world.user npub).getD .fresh) request computedAt)).alone
      (claimed npub request.paymentHash (opened npub (world.user npub) tabs)) := by
  have ran : (fun hash => (tabs.grants.lookup hash).isSome) =
      fun hash => decide (hash ∈ world.grants) := by
    funext hash
    rw [Bool.eq_iff_iff, means.grants hash, decide_eq_true_eq]
  rw [alone_grantEntitlement, means.users npub, ran]

/-- What a request leaves: the commit of its transaction, or the tables as they are. -/
def commit (tables : Tables) (visit : String × EntitlementRequest × Int) : Tables :=
  match (grantEntitlement visit.1 visit.2.1 visit.2.2).alone tables with
  | .ok (_, after) => after
  | .error _ => tables

/-- A write that is not refused is the commit of the transaction. -/
theorem represents_entitle (represents : Represents world tables)
    (free : ¬ req.paymentHash.any (fun hash => hash ∈ world.grants))
    (computed : computeEntitlement ((world.user npub).getD .fresh) req now =
      .ok ⟨some expiry, quota⟩) :
    Represents (world.entitle npub req now) (commit tables (npub, req, now)) := by
  have effect : world.effect npub req now = some (expiry, quota) := by
    simp [World.effect, free, computed]
  have hashes : (world.entitle npub req now).grants = world.grants ++ req.paymentHash.toList := by
    simp [World.entitle, effect]
  let plan := withPlan ((world.user npub).getD .fresh) expiry quota
  have own : (claimed npub req.paymentHash
      (opened npub (world.user npub) tables)).users.lookup npub =
        some ((world.user npub).getD .fresh) := by
    rw [claimed_users]
    cases found : world.user npub with
    | some u => rw [opened, represents.users npub, found, Option.getD_some]
    | none => exact AList.lookup_insert _
  have commits : commit tables (npub, req, now) = (claimed npub req.paymentHash
      (opened npub (world.user npub) tables)).putUser npub plan := by
    rw [commit, alone_of_represents represents, if_neg free, computed, alone_writePlan rfl own]
    rfl
  rw [commits]
  constructor
  · intro other
    rw [user_entitle effect other]
    by_cases isOwn : other = npub
    · subst isOwn
      rw [if_pos rfl]
      exact AList.lookup_insert _
    · rw [if_neg isOwn, lookup_putUser_ne isOwn, claimed_users,
        lookup_opened_ne isOwn, represents.users other]
  · intro hash
    change ((claimed npub _ _).grants.lookup hash).isSome = true ↔ _
    rw [lookup_grants_claimed, opened_grants, hashes, mem_append,
      Option.mem_toList, ← represents.grants hash]
    split
    · rename_i isPaid
      simp [isPaid]
    · rename_i notPaid
      simp [notPaid]

/-- Served one after the other, requests change the world as they change the tables. -/
theorem represents_entitles (visits : List (String × EntitlementRequest × Int))
    (represents : Represents world tables) :
    Represents (visits.foldl (fun world visit => world.entitle visit.1 visit.2.1 visit.2.2) world)
      (visits.foldl commit tables) := by
  induction visits generalizing world tables with
  | nil => exact represents
  | cons visit visits ih =>
    obtain ⟨npub, req, now⟩ := visit
    apply ih
    have refused (none : world.effect npub req now = none)
        (back : commit tables (npub, req, now) = tables) :
        Represents (world.entitle npub req now) (commit tables (npub, req, now)) := by
      simpa [back, World.entitle, none] using represents
    by_cases free : req.paymentHash.any fun hash => hash ∈ world.grants
    · exact refused (if_pos free) (by rw [commit, alone_of_represents represents, if_pos free])
    · rcases computed : computeEntitlement ((world.user npub).getD .fresh) req now with
        err | ⟨_ | expiry, quota⟩
      rotate_right
      · exact represents_entitle represents free computed
      all_goals
        refine refused (by simp [World.effect, free, computed]) ?_
        rw [commit, alone_of_represents represents, if_neg free, computed]
        rfl

end

/-- A world without accounts. -/
def vacant : World := { lapsedAccount with cluster := ⟨⟨[], []⟩, [], [], []⟩ }

/-- Thirty days for two new accounts; the third payment was used before. -/
def purchases : List (String × EntitlementRequest × Int) :=
  [("alice", ⟨30, .payment, 100, none, false, some "paid", none⟩, 0),
    ("bob", ⟨30, .payment, 100, none, false, some "other", none⟩, 5),
    ("bob", ⟨30, .payment, 100, none, false, some "paid", none⟩, 10)]

theorem represents_first_purchase :
    Represents (purchases.foldl (fun world visit => world.entitle visit.1 visit.2.1 visit.2.2)
      vacant) (purchases.foldl commit .empty) :=
  represents_entitles purchases ⟨fun _ => rfl,
    fun _ => by simp [vacant, lapsedAccount, Tables.empty]⟩

end StorageOrchestrator.Lifecycle.Entitling
