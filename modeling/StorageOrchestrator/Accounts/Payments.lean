import StorageOrchestrator.Accounts.Serial

/-!
# Payments

Concurrent entitlement writes.  A transaction computes the new plan from a row
that it read without a lock, so what it commits is what it would have written
on its own when the row still has the plan that was read.  Runs in which this
holds at every commit are serial: the database is the one that the committed
requests lead to, one at a time and in the order of their commits.

A payment hash is claimed at most once in any run.  The handler takes a taken
unique key for a repeated payment; that is right when it finds the hash
claimed.
-/

namespace StorageOrchestrator.Accounts.Payments

open Accounts.Entitlement Accounts.Requests Accounts.Serial Accounts.Store
  Lib.Js Lib.Transactions Lib.Transition
open List hiding next after

variable {request : EntitlementRequest} {found : Option User}

def isEntitlement : Request → Bool
  | .postEntitlement .. => true
  | _ => false

/-! ## Serial execution -/

/-- The requests executed one at a time. -/
def serially (js : Runtime) (db : Tables) (requests : List Request) : Tables :=
  requests.foldl (fun db request => ((handler js request).alone db).2) db

/-- The plan of a row, or that of a user without one. -/
def planOf (found : Option User) : Option Int × Option Int := plan (found.getD .fresh)

/-- The plans that a transaction read are those of the table. -/
def readsCurrent (history : List (Event accounts)) (db : Tables) : Bool :=
  history.all fun
    | .asked (.findUser npub) found =>
      decide (planOf found = planOf (db.users.lookup npub))
    | _ => true

/-- Entitlement writes that commit plans computed from the current ones. -/
def current : Terms accounts Request Response where
  arrives := isEntitlement
  admits _ act point world :=
    match act with
    | .commit => readsCurrent point.history world.db
    | _ => true

section

/-- What is committed is what the transaction writes on its own. -/
theorem alone_of_grants (grants : Grants npub request now state final after found user)
    (cur : planOf found = planOf (state.users.lookup npub)) :
    (grantEntitlement npub request now).alone state = .ok (final, after) := by
  rcases grants with ⟨gone, isNew, isUser, ⟨effect, expiry, isEffect, exp, rfl⟩, rfl⟩
  have eqRow : opened npub (state.users.lookup npub) state = opened npub found state := by
    cases found with
    | none => rw [gone rfl]
    | some seen =>
      have isUser : state.users.lookup npub = some user := isUser
      rw [isUser]
      rfl
  have sameEffect := computeEntitlement_congr cur request now
  rw [isEffect] at sameEffect
  have free : ¬ (request.paymentHash.any fun hash =>
      (state.grants.lookup hash).isSome) = true := by
    cases isHash : request.paymentHash with
    | none => exact nofun
    | some given => simp [isNew given isHash]
  rw [alone_grantEntitlement, if_neg free, eqRow, ← sameEffect]
  refine alone_writePlan exp ?_
  rw [claimed_users]
  exact isUser

end

/--
In every run of entitlement writes whose commits are computed from current
plans, the database is that of the committed requests one at a time.
-/
theorem payments_serial (js : Runtime) {db : Tables}
    {moves : List (Move Request)} {final : Machine accounts Request Response}
    (run : current.Run (handler js) (.start db) moves final) :
    ∃ order, order.Perm (final.world.commits.map Prod.fst) ∧
      serially js db order = final.world.db := by
  refine ⟨_, .refl _, ?_⟩
  refine Discipline.inv_of_run ?_ (by rfl) run (S := current.keeping fun tabs expiry =>
      serially js db (expiry.map Prod.fst) = tabs)
  intro request w comes _
  cases request with
  | postEntitlement npub body now =>
    cases read : parseEntitlementRequest js body with
    | error error =>
      simp only [handler, postEntitlement, read]
      exact Process.safe_of_quiet trivial
    | ok request =>
      simp only [handler, postEntitlement, read]
      apply Process.safe_of_keeps (quiet_afterGrant npub _)
      intro res later final isSerial runs fits
      rcases grants_of_runs runs with ⟨found, u, asked, _, given⟩
      have cur : planOf found = planOf (later.db.users.lookup npub) :=
        of_decide_eq_true (all_eq_true.mp fits _ asked)
      have alone := alone_of_grants given cur
      rw [map_append, serially, foldl_append]
      change ((handler js (.postEntitlement npub body now)).alone
        (serially js db (later.commits.map Prod.fst))).2 = _
      rw [isSerial]
      simp only [handler, postEntitlement, read, Process.alone, alone]
      rfl
  | postBlobs hash npub size replicas | deleteBlobs hash npub all order
  | deleteUserBlobs npub first second => cases comes

def hashOf (digit : Char) : String := String.ofList (replicate 64 digit)

/-- A payment of 30 days, with a hash of one repeated digit. -/
def thirtyDays (digit : Char) : JsValue ℚ :=
  some (.obj
    [("durationDays", .number 30), ("storageBytes", .number 500),
      ("source", .str "payment"), ("mode", .str "extend"),
      ("paymentHash", .str (hashOf digit))])

def payment (digit : Char) : Request :=
  .postEntitlement "alice" (thirtyDays digit) 0

/-- The payments of two accounts overlap, and a further one waits for the first. -/
def orderlyPayments : List (Move Request) :=
  .arrive (payment 'a') :: .arrive (.postEntitlement "bob" (thirtyDays 'c') 0) ::
    advances 0 3 ++ advances 1 3 ++ advances 0 2 ++ .arrive (payment 'b') ::
    advances 2 1 ++ advances 1 4 ++ advances 0 1 ++ advances 2 5

theorem orderly_payments_serial :
    ∃ final, current.Run (handler .integers) (.start oneUser) orderlyPayments final ∧
      ∃ order, order.Perm (final.world.commits.map Prod.fst) ∧
        serially .integers oneUser order = final.world.db := by
  have ⟨final, run⟩ : ∃ final, current.Run (handler .integers) (.start oneUser)
      orderlyPayments final :=
    GuardedRun.exists_of_guardedReplay (by decide +kernel)
  exact ⟨final, run, payments_serial .integers run⟩

/-- Two payments that read the row before either is committed. -/
def racingPayments : List (Move Request) :=
  .arrive (payment 'a') :: .arrive (payment 'b') ::
    advances 0 3 ++ advances 1 3 ++ advances 0 3 ++ advances 1 3

/-- The days of the first payment are lost. -/
theorem racing_payments_lose_days :
    (replay (step (handler .integers)) (.start oneUser) racingPayments).map (fun machine =>
          ((machine.world.db.users.lookup "alice").map User.planExpiresAt,
            machine.world.replies.map fun entry => entry.2.status)) =
      some (some (some (30 * dayMs)), [200, 200]) ∧
    ((serially .integers oneUser [payment 'a', payment 'b']).users.lookup
      "alice").map User.planExpiresAt = some (some (60 * dayMs)) ∧
    ((serially .integers oneUser [payment 'b', payment 'a']).users.lookup
      "alice").map User.planExpiresAt = some (some (60 * dayMs)) := by
  refine ⟨?_, ?_, ?_⟩
  · decide +kernel
  · decide +kernel
  · decide +kernel

/-! ## Payment hashes -/

section

variable (js : Runtime)

/-- The user and the payment hash of a request. -/
def paymentOf : Request → Option (String × String)
  | .postEntitlement npub body _ =>
    match parseEntitlementRequest js body with
    | .ok request => request.paymentHash.map fun hash => (npub, hash)
    | .error _ => none
  | _ => none

/-- The entitlement of a payment hash was applied to a user. -/
def Applied (npub hash : String) (commits : List (Request × List (Event accounts))) : Prop :=
  ∃ commit ∈ commits, paymentOf js commit.1 = some (npub, hash) ∧ Writes npub commit.2

def claimsOf (hash : String) (commits : List (Request × List (Event accounts))) :
    List (Request × List (Event accounts)) :=
  commits.filter fun commit =>
    ((paymentOf js commit.1).map Prod.snd) = some hash

/-- The table of claimed hashes against the commits. -/
structure Claimed (start tables : Tables)
    (commits : List (Request × List (Event accounts))) : Prop where
  applied : ∀ npub hash, tables.grants.lookup hash = some npub →
    start.grants.lookup hash = some npub ∨ Applied js npub hash commits
  kept : ∀ npub hash, start.grants.lookup hash = some npub →
    tables.grants.lookup hash = some npub ∧ claimsOf js hash commits = []
  once : ∀ hash, (claimsOf js hash commits).length ≤ 1
  claimed : ∀ hash, tables.grants.lookup hash = none → claimsOf js hash commits = []

variable {js}

theorem grants_after {now : Int} {last u : User}
    (given : Grants npub request now state last after found u) (hash : String) :
    after.grants.lookup hash =
      if request.paymentHash = some hash then some npub
      else state.grants.lookup hash := by
  rw [given.isAfter]
  change (claimed npub _ _).grants.lookup hash = _
  rw [lookup_grants_claimed, opened_grants]

theorem claimsOf_append (hash : String) (done : Request × List (Event accounts)) :
    claimsOf js hash (commits ++ [done]) = claimsOf js hash commits ++
      if (paymentOf js done.1).map Prod.snd = some hash then [done]
      else [] := by
  simp only [claimsOf, filter_append, filter_cons, filter_nil, decide_eq_true_eq]

/-- A commit claims its hash, which nobody had claimed. -/
theorem Claimed.commit (before : Claimed js start state commits)
    {given : Request} {now : Int} {last u : User} {history : List (Event accounts)}
    (grants : Grants npub request now state last after found u)
    (writes : Writes npub history) (isPayment : paymentOf js given =
      request.paymentHash.map fun hash => (npub, hash)) :
    Claimed js start after (commits ++ [(given, history)]) := by
  have isHash : (paymentOf js given).map Prod.snd = request.paymentHash := by
    rw [isPayment]
    cases request.paymentHash <;> rfl
  have lookup := grants_after grants
  constructor
  · intro own hash isGranted
    rw [lookup] at isGranted
    split at isGranted
    · rename_i owned
      cases isGranted
      rw [owned] at isPayment
      exact .inr ⟨_, mem_append_right _ (mem_singleton_self _), isPayment, writes⟩
    · rcases before.applied own hash isGranted with atStart | ⟨commit, mem, done⟩
      · exact .inl atStart
      · exact .inr ⟨commit, mem_append_left _ mem, done⟩
  · intro own hash atStart
    rcases before.kept own hash atStart with ⟨isKept, unclaimed⟩
    have oth : request.paymentHash ≠ some hash := by
      intro owned
      rw [grants.isNew hash owned] at isKept
      cases isKept
    rw [lookup, if_neg oth, claimsOf_append, isHash, if_neg oth, unclaimed]
    exact ⟨isKept, rfl⟩
  · intro hash
    rw [claimsOf_append, isHash]
    split
    · rename_i owned
      rw [before.claimed hash (grants.isNew hash owned)]
      exact Nat.le_refl 1
    · rw [append_nil]
      exact before.once hash
  · intro hash free
    rw [lookup] at free
    split at free
    · cases free
    · rename_i oth
      rw [claimsOf_append, isHash, if_neg oth, before.claimed hash free]
      rfl

theorem claimed_start (start : Tables) : Claimed js start start [] :=
  { applied := fun _ _ found => .inl found
    kept := fun _ _ found => ⟨found, rfl⟩
    once := fun _ => Nat.zero_le 1
    claimed := fun _ _ => rfl }

end

/-! ## Answers -/

section

def entitlements : Terms accounts Request Response where
  arrives := isEntitlement
  admits _ _ _ _ := true

/-- Entitlement writes whose handlers find the hashes they look for. -/
def claimsFound : Terms accounts Request Response where
  arrives := isEntitlement
  admits _ act _ world :=
    match act with
    | .ask (.findGrant hash) => (world.db.grants.lookup hash).isSome
    | _ => true

theorem entitlements_of_claimsFound (ok : claimsFound.guard machine move = true) :
    entitlements.guard machine move = true := by
  cases move with
  | arrive request => exact ok
  | interrupt n => rfl
  | advance n =>
    rw [Terms.guard]
    split
    · rename_i client _
      rcases client with ⟨request, proc | ⟨program, next, point⟩ | _⟩
      · cases proc <;> rfl
      · cases program <;> rfl
      · rfl
    · rfl

variable (js : Runtime)

def Answered (db : Tables) (request : Request) (response : Response) : Prop :=
  response.status = 200 → ∀ npub hash, paymentOf js request = some (npub, hash) →
      db.grants.lookup hash = some npub

/-- Claimed hashes stay claimed, and answers stay true. -/
def answering (start : Tables) : Discipline accounts Request Response where
  toTerms := claimsFound
  Inv world := Claimed js start world.db world.commits ∧
    ∀ entry ∈ world.replies, Answered js world.db entry.1 entry.2
  Rely _ world later := ∀ hash npub, world.db.grants.lookup hash = some npub →
      later.db.grants.lookup hash = some npub
  rely_refl _ _ _ _ found := found
  rely_trans before after hash npub found := after hash npub (before hash npub found)
  rely_mono _ relied := relied

variable {js} {request : Request}

/-- A reply that is right when it is sent. -/
theorem safe_reply {res : Response}
    (isAnswered : ∀ later, (answering js start).Interferes [] world later →
      Answered js later.db request res) :
    (Process.reply res).Safe (answering js start) request world := by
  intro later meets
  refine ⟨⟨meets.inv.1, ?_⟩, fun _ _ _ _ found => found⟩
  intro entry mem
  rcases mem_append.mp mem with pre | last
  · exact meets.inv.2 entry pre
  · rw [mem_singleton.mp last]
    exact isAnswered later meets

section

variable {npub hash : String} (isPayment : paymentOf js request = some (npub, hash))
include isPayment

/-- A user whose hash is claimed may be told so. -/
theorem safe_reportUser (taken : world.db.grants.lookup hash = some npub) :
    (reportUser npub).Safe (answering js start) request world := by
  intro later meets _
  have stillClaimed := meets.rely hash npub taken
  generalize accounts.answer _ _ = found
  cases found with
  | none =>
    apply safe_reply
    intro last _ isOk
    cases isOk
  | some u =>
    apply safe_reply
    intro last post _ own given isGiven
    rw [isPayment] at isGiven
    cases isGiven
    exact post.rely hash npub stillClaimed

theorem safe_reportGrant : (reportGrant npub hash).Safe (answering js start) request world := by
  intro later meets listed
  obtain ⟨own, owns⟩ := Option.isSome_iff_exists.mp listed
  have found : accounts.answer (.findGrant hash) later.db = some own := owns
  rw [found]
  dsimp only
  split
  · apply safe_reply
    intro last _ isOk
    cases isOk
  · rename_i eq
    refine safe_reportUser isPayment ?_
    rw [owns, not_ne_iff.mp eq]

end

/-- No statement fails with an error of the computation. -/
theorem exec_ne_entitlement : exec cmd view ≠ .error (.entitlement status code) := by
  intro fail
  cases cmd with
  | lockUser npub => cases fail
  | createUser npub | updateUser npub change | createBlob hash npub row
  | deleteBlob hash npub | dropBlob hash npub | createGrant pay npub =>
    simp only [exec] at fail
    split at fail <;> cases fail

theorem status_of_mayFail {npub : String} {given : EntitlementRequest}
    {now : Int} {status : Nat} {code : String} (may : (grantEntitlement npub given now).MayFail
      (.entitlement status code)) : status = 409 := by
  have calls : ∀ cmd, ¬ (call cmd).MayFail (.entitlement status code) := by
    rintro cmd (⟨view, fail⟩ | ⟨ans, no⟩)
    · exact exec_ne_entitlement fail
    · exact no
  rcases may.of_bind with upserts | ⟨u, may⟩
  · rcases upserts with ⟨found, creates⟩
    cases found with
    | some u => exact False.elim creates
    | none => exact False.elim (calls _ creates)
  rcases may.of_bind with claims | ⟨_, writes⟩
  · cases isHash : given.paymentHash with
    | none =>
      rw [isHash] at claims
      exact False.elim claims
    | some hash =>
      rw [isHash] at claims
      exact False.elim (calls _ claims)
  cases isEffect : computeEntitlement u given now with
  | error error =>
    rw [isEffect] at writes
    cases writes
    rw [computeEntitlement] at isEffect
    split at isEffect
    · cases isEffect
      rfl
    · cases isEffect
  | ok effect =>
    rw [isEffect, writePlan] at writes
    split at writes
    · cases writes
    · exact False.elim (calls _ writes)

theorem safe_postEntitlement (npub : String) (body : JsValue ℚ) (now : Int) :
    (postEntitlement js npub body now).Safe (answering js start)
      (.postEntitlement npub body now) world := by
  cases read : parseEntitlementRequest js body with
  | error error =>
    simp only [postEntitlement, read]
    apply safe_reply
    intro later _ _ owner hash isPayment
    simp only [paymentOf, read] at isPayment
    cases isPayment
  | ok given =>
    simp only [postEntitlement, read]
    have isPayment : paymentOf js (.postEntitlement npub body now) =
        given.paymentHash.map fun hash => (npub, hash) := by
      simp [paymentOf, read]
    have err : ∀ fail later, (grantEntitlement npub given now).MayFail fail ∨ fail = .other →
          (afterGrant npub given.paymentHash (.error fail)).Safe
            (answering js start) (.postEntitlement npub body now) later := by
      intro fail later may
      have deny : (Process.reply internalError).Safe (answering js start)
          (.postEntitlement npub body now) later := by
        apply safe_reply
        intro last _ isOk
        cases isOk
      cases fail with
      | p2002 =>
        cases isHash : given.paymentHash with
        | none => exact deny
        | some hash =>
          rw [isHash] at isPayment
          exact safe_reportGrant isPayment
      | entitlement status code =>
        apply safe_reply
        intro last _ isOk
        rcases may with may | oth
        · rw [status_of_mayFail may] at isOk
          cases isOk
        · cases oth
      | _ => exact deny
    refine ⟨Program.safe_of_runs ?_ ?_, ?_⟩
    · intro fail later may _
      exact err fail later (.inl may)
    · intro res rest later fin meets past runs _
      rw [Point.start, nil_append] at past
      rcases grants_of_runs runs with ⟨found, u, _, writes, grants⟩
      rw [← past] at writes
      have lookup := grants_after grants
      have relied : ∀ hash owner, later.db.grants.lookup hash = some owner →
          (fin.pending later.db).grants.lookup hash = some owner := by
        intro hash owner owns
        rw [lookup, if_neg]
        · exact owns
        · intro owned
          have isNone : later.db.grants.lookup hash = none := grants.isNew hash owned
          rw [owns] at isNone
          cases isNone
      refine ⟨⟨⟨meets.inv.1.commit grants writes isPayment, ?_⟩, fun _ _ => relied⟩, ?_⟩
      · intro reply mem isOk owner hash entry
        exact relied hash owner (meets.inv.2 reply mem isOk owner hash entry)
      · apply safe_reply
        intro last post _ owner hash owns
        rw [isPayment] at owns
        rcases Option.map_eq_some_iff.mp owns with ⟨own, isHash, eq⟩
        cases eq
        refine post.rely hash npub ?_
        change (fin.pending later.db).grants.lookup hash = _
        rw [lookup, if_pos isHash]
    · intro later _
      exact err .other later (.inr rfl)

end

/--
In every run of entitlement writes a payment hash is claimed at most once.  In
every run whose handlers find the hashes they look for, a request that was
answered 200 has had its entitlement applied.
-/
theorem payments_applied (js : Runtime) {db : Tables}
    {moves : List (Move Request)} {final : Machine accounts Request Response} :
    (entitlements.Run (handler js) (.start db) moves final →
      ∀ hash, (claimsOf js hash final.world.commits).length ≤ 1 ∧
        (hash ∈ db.grants → claimsOf js hash final.world.commits = [])) ∧
    (claimsFound.Run (handler js) (.start db) moves final →
      ∀ request response, (request, response) ∈ final.world.replies →
        response.status = 200 → ∀ npub hash, paymentOf js request = some (npub, hash) →
            db.grants.lookup hash = some npub ∨ Applied js npub hash final.world.commits) := by
  constructor
  · intro run
    have kept : Claimed js db final.world.db final.world.commits := by
      refine Discipline.inv_of_run ?_ (claimed_start db) run
        (S := entitlements.keeping (Claimed js db))
      intro request w comes _
      cases request with
      | postEntitlement npub body now =>
        cases read : parseEntitlementRequest js body with
        | error error =>
          simp only [handler, postEntitlement, read]
          exact Process.safe_of_quiet trivial
        | ok given =>
          simp only [handler, postEntitlement, read]
          apply Process.safe_of_keeps (quiet_afterGrant npub _)
          intro res later final own runs _
          rcases grants_of_runs runs with ⟨found, u, _, writes, grants⟩
          refine own.commit grants writes ?_
          simp [paymentOf, read]
      | postBlobs hash npub size copies | deleteBlobs hash npub all order
      | deleteUserBlobs npub first second => cases comes
    intro hash
    refine ⟨kept.once hash, fun mem => ?_⟩
    rcases Option.isSome_iff_exists.mp (AList.lookup_isSome.mpr mem) with ⟨npub, atStart⟩
    exact (kept.kept npub hash atStart).2
  · intro run request response mem isOk npub hash isPayment
    have init : (answering js db).Inv (.start db) := ⟨claimed_start db, nofun⟩
    have kept := Discipline.inv_of_run (S := answering js db) (fun request
        w comes _ => show (handler js request).Safe _ request w by
      cases request with
      | postEntitlement npub body now =>
        exact safe_postEntitlement npub body now
      | postBlobs hash npub size copies | deleteBlobs hash npub all order => cases comes
      | deleteUserBlobs npub first second => cases comes) init run
    exact kept.1.applied npub hash (kept.2 _ mem isOk npub hash isPayment)

def retriedPayment : List (Move Request) :=
  .arrive (payment 'a') :: .arrive (payment 'a') ::
    advances 0 3 ++ advances 1 2 ++ advances 0 3 ++ advances 1 4

/-- The retry is answered 200, and the payment was applied once. -/
theorem retry_is_applied : ∃ final, claimsFound.Run (handler .integers) (.start oneUser)
        retriedPayment final ∧
      final.world.replies.map (fun entry =>
          (paymentOf .integers entry.1, entry.2.status)) =
        [(some ("alice", hashOf 'a'), 200),
          (some ("alice", hashOf 'a'), 200)] ∧
      (claimsOf .integers (hashOf 'a') final.world.commits).length ≤ 1 ∧
      Applied .integers "alice" (hashOf 'a') final.world.commits := by
  have ran : (guardedReplay (step (handler .integers))
      (fun machine move => claimsFound.guard machine move = true)
      (.start oneUser) retriedPayment).map (fun machine =>
        machine.world.replies.map fun entry =>
          (paymentOf .integers entry.1, entry.2.status)) =
      some [(some ("alice", hashOf 'a'), 200),
        (some ("alice", hashOf 'a'), 200)] := by
    decide +kernel
  rcases Option.map_eq_some_iff.mp ran with ⟨final, last, isReplies⟩
  have run := GuardedRun.of_guardedReplay last
  have unguarded : entitlements.Run (handler .integers) (.start oneUser) retriedPayment final :=
    run.weaken fun machine move ok => entitlements_of_claimsFound ok
  have once := ((payments_applied .integers).1 unguarded (hashOf 'a')).1
  refine ⟨final, run, isReplies, once, ?_⟩
  have isAnswered : (some ("alice", hashOf 'a'), 200) ∈
      final.world.replies.map fun entry =>
        (paymentOf .integers entry.1, entry.2.status) := by
    rw [isReplies]
    exact mem_cons_self
  rcases mem_map.mp isAnswered with ⟨⟨request, res⟩, mem, isEntry⟩
  rcases Prod.mk.inj isEntry with ⟨isPayment, isOk⟩
  rcases (payments_applied .integers).2 run request res mem isOk _ _
    isPayment with atStart | isApplied
  · cases atStart
  · exact isApplied

/-- Two first purchases of a user without a row. -/
def firstPurchases : List (Move Request) :=
  .arrive (payment 'a') :: .arrive (payment 'b') ::
    advances 0 3 ++ advances 1 2 ++ advances 0 4 ++ advances 1 4

/-- The second purchase is answered 200 and was not applied. -/
theorem first_purchase_is_lost :
    (replay (step (handler .integers)) (.start .empty) firstPurchases).map
        (fun machine => (machine.world.db.grants.lookup (hashOf 'b'),
          machine.world.replies.map fun entry =>
            (paymentOf .integers entry.1, entry.2.status))) =
      some (none, [(some ("alice", hashOf 'a'), 200),
        (some ("alice", hashOf 'b'), 200)]) := by
  decide +kernel

end StorageOrchestrator.Accounts.Payments
