import StorageOrchestrator.Accounts.Requests

/-!
# Serial runs of the transactions

What each transaction of db-api does to the tables when it runs on its own,
with any replies to its queries.  By `Program.safe_of_runs` these are the runs
that matter for what is committed: uploads and entitlement writes are single
changes of the tables, and deletions go row by row.
-/

namespace StorageOrchestrator.Accounts.Serial

open Accounts.Entitlement Accounts.Requests Accounts.Store Lib.Transactions

variable {Result : Type} {state after : Tables} {history : List (Event accounts)} {final : Result}
  {npub hash : String} {rows : List Blob}

/-! ## Statements -/

section

theorem runs_find {q : Query} {next : Reply q → Program accounts Result}
    (runs : (find q >>= next).Runs state history final after) :
    ∃ reply rest, history = .asked q reply :: rest ∧ (next reply).Runs state rest final after :=
  runs

theorem runs_call {cmd : Command} {next : Answer cmd → Program accounts Result}
    (runs : (call cmd >>= next).Runs state history final after) :
    ∃ ans rest, history = .did cmd ans :: rest ∧
      ((∃ edit, Executed state cmd ans edit ∧ (next ans).Runs (edit state) rest final after) ∨
      ∃ view edit, Executed view cmd ans edit ∧ locks cmd view = [] ∧
      (next ans).Runs state rest final after) := by
  rcases runs with ⟨ans, rest, past, ran | idle⟩
  · rcases ran with ⟨edit, success, runs⟩
    exact ⟨ans, rest, past, .inl ⟨edit, executed_of_exec success, runs⟩⟩
  · rcases idle with ⟨view, edit, success, isIdle, runs⟩
    exact ⟨ans, rest, past, .inr ⟨view, edit, executed_of_exec success, isIdle, runs⟩⟩

theorem runs_lockUser {next : Option User → Program accounts Result}
    (runs : (call (.lockUser npub) >>= next).Runs state history final after) :
    ∃ ans rest, history = .did (.lockUser npub) ans :: rest ∧
      (ans = none ∨ ans = state.users.lookup npub) ∧
      (next ans).Runs state rest final after := by
  rcases runs_call runs with ⟨ans, rest, past, ran | idle⟩
  · rcases ran with ⟨edit, ran, runs⟩
    cases ran with
    | lockUser found => exact ⟨_, rest, past, .inr found.symm, runs⟩
    | lockNobody gone => exact ⟨_, rest, past, .inl rfl, runs⟩
  · rcases idle with ⟨view, edit, ran, isIdle, runs⟩
    cases ran with
    | lockUser found =>
      simp only [locks, found] at isIdle
      cases isIdle
    | lockNobody gone => exact ⟨_, rest, past, .inl rfl, runs⟩

theorem runs_createUser {next : User → Program accounts Result}
    (runs : (call (.createUser npub) >>= next).Runs state history final after) :
    ∃ rest, history = .did (.createUser npub) User.fresh :: rest ∧ state.users.lookup npub = none ∧
      (next .fresh).Runs (state.putUser npub .fresh) rest final after := by
  rcases runs_call runs with ⟨ans, rest, past, ran | idle⟩
  · rcases ran with ⟨edit, ran, runs⟩
    cases ran with
    | createUser gone => exact ⟨rest, past, gone, runs⟩
  · rcases idle with ⟨view, edit, ran, isIdle, runs⟩
    cases isIdle

theorem runs_updateUser {edit : UserChange} {next : User → Program accounts Result}
    (runs : (call (.updateUser npub edit) >>= next).Runs state history final after) :
    ∃ user rest, history = .did (.updateUser npub edit) (edit.apply user) :: rest ∧
      state.users.lookup npub = some user ∧ (next (edit.apply user)).Runs
      (state.putUser npub (edit.apply user)) rest final after := by
  rcases runs_call runs with ⟨ans, rest, past, ran | idle⟩
  · rcases ran with ⟨_, ran, runs⟩
    cases ran with
    | updateUser found => exact ⟨_, rest, past, found, runs⟩
  · rcases idle with ⟨view, _, ran, isIdle, runs⟩
    cases ran with
    | updateUser found =>
      simp only [locks, found] at isIdle
      cases isIdle

theorem runs_createBlob {row : BlobRow} {next : BlobRow → Program accounts Result}
    (runs : (call (.createBlob hash npub row) >>= next).Runs state history final after) :
    ∃ rest, history = .did (.createBlob hash npub row) row :: rest ∧
      state.blobs.lookup (hash, npub) = none ∧
      (next row).Runs (state.putBlob hash npub row) rest final after := by
  rcases runs_call runs with ⟨ans, rest, past, ran | idle⟩
  · rcases ran with ⟨edit, ran, runs⟩
    cases ran with
    | createBlob gone found => exact ⟨rest, past, gone, runs⟩
  · rcases idle with ⟨view, edit, ran, isIdle, runs⟩
    cases isIdle

theorem runs_deleteBlob {next : BlobRow → Program accounts Result}
    (runs : (call (.deleteBlob hash npub) >>= next).Runs state history final after) :
    ∃ row rest, history = .did (.deleteBlob hash npub) row :: rest ∧
      state.blobs.lookup (hash, npub) = some row ∧
      (next row).Runs (state.eraseBlob hash npub) rest final after := by
  rcases runs_call runs with ⟨ans, rest, past, ran | idle⟩
  · rcases ran with ⟨edit, ran, runs⟩
    cases ran with
    | deleteBlob found => exact ⟨_, rest, past, found, runs⟩
  · rcases idle with ⟨view, edit, ran, isIdle, runs⟩
    cases ran with
    | deleteBlob found =>
      simp only [locks, found] at isIdle
      cases isIdle

theorem runs_dropBlob {next : Bool → Program accounts Result}
    (runs : (call (.dropBlob hash npub) >>= next).Runs state history final after) :
    ∃ rest, (history = .did (.dropBlob hash npub) false :: rest ∧
      (next false).Runs state rest final after) ∨
      (history = .did (.dropBlob hash npub) true :: rest ∧
      (next true).Runs (state.eraseBlob hash npub) rest final after) := by
  rcases runs_call runs with ⟨ans, rest, past, ran | idle⟩
  · rcases ran with ⟨edit, ran, runs⟩
    cases ran with
    | dropBlob found => exact ⟨rest, .inr ⟨past, runs⟩⟩
    | dropNothing gone => exact ⟨rest, .inl ⟨past, runs⟩⟩
  · rcases idle with ⟨view, edit, ran, isIdle, runs⟩
    cases ran with
    | dropBlob found =>
      simp only [locks, found] at isIdle
      cases isIdle
    | dropNothing gone => exact ⟨rest, .inl ⟨past, runs⟩⟩

theorem runs_createGrant {pay : String} {next : Unit → Program accounts Result}
    (runs : (call (.createGrant pay npub) >>= next).Runs state history final after) :
    ∃ rest, history = .did (.createGrant pay npub) () :: rest ∧ state.grants.lookup pay = none ∧
      (next ()).Runs (state.putGrant pay npub) rest final after := by
  rcases runs_call runs with ⟨ans, rest, past, ran | idle⟩
  · rcases ran with ⟨edit, ran, runs⟩
    cases ran with
    | createGrant gone => exact ⟨rest, past, gone, runs⟩
  · rcases idle with ⟨view, edit, ran, isIdle, runs⟩
    cases isIdle

end

/-! ## Uploads -/

structure Uploads (hash npub : String) (row : BlobRow) (state : Tables)
    (history : List (Event accounts)) (after : Tables) (current : User) :
    Prop where
  found : state.users.lookup npub = some current
  fits : exceedsQuota current row.size = false
  absent : state.blobs.lookup (hash, npub) = none
  isAfter : after = (state.putBlob hash npub row).putUser npub
    ((UserChange.increment row.size).apply current)
  isHistory : history = [.did (.lockUser npub) (some current), .asked (.findBlob hash npub) none,
      .did (.createBlob hash npub row) row,
      .did (.updateUser npub (.increment row.size)) ((UserChange.increment row.size).apply current)]

theorem uploads_of_runs {size : Int} {replicas : List String} {final : Blob × User}
    (runs : (createBlob hash npub size replicas).Runs state history final after) :
    ∃ current, Uploads hash npub { size := size, replicas := replicas } state
      history after current := by
  rcases runs_lockUser runs with ⟨ans, rest, past, isAnswer, runs⟩
  cases ans with
  | none => exact False.elim runs
  | some current =>
    rcases isAnswer with isNone | isSome
    · cases isNone
    rcases runs_find runs with ⟨dup, rest, rfl, ok⟩
    split at ok
    · exact False.elim ok
    · rename_i isNew
      split at ok
      · exact False.elim ok
      · rename_i fits
        rcases runs_createBlob ok with ⟨rest, rfl, gone, runs⟩
        rcases runs_updateUser runs with ⟨user, rest, rfl, found, runs⟩
        rcases runs with ⟨rfl, _, post⟩
        have isUser : some current = some user := isSome.trans found
        cases isUser
        have isNone : dup = none := Option.not_isSome_iff_eq_none.mp isNew
        subst isNone
        exact ⟨current, isSome.symm, Bool.eq_false_iff.mpr fits, gone, post, past⟩

/-! ## Deletions -/

/-- The rows are deleted one by one, and each owner gets the bytes back. -/
inductive Deletes (hash : String) : List Blob → Tables → List (Event accounts) → Tables → Prop where
  | done (state : Tables) : Deletes hash [] state [] state
  | next {row : Blob} {rows : List Blob} {state after : Tables}
      {history : List (Event accounts)} {stored : BlobRow} {user : User}
      (isStored : state.blobs.lookup (hash, row.npub) = some stored)
      (isUser : state.users.lookup row.npub = some user)
      (rest : Deletes hash rows ((state.eraseBlob hash row.npub).putUser row.npub
          ((UserChange.decrement row.size).apply user)) history after) :
      Deletes hash (row :: rows) state (.did (.deleteBlob hash row.npub) stored ::
          .did (.updateUser row.npub (.decrement row.size))
            ((UserChange.decrement row.size).apply user) :: history) after

theorem deletes_of_runs
    (runs : (deleteRows hash rows lastUsed >>= next).Runs state history final after) :
    ∃ first second mid used, history = first ++ second ∧ Deletes hash rows state first mid ∧
      (next used).Runs mid second final after := by
  induction rows generalizing state history lastUsed with
  | nil => exact ⟨[], history, state, lastUsed, rfl, .done state, runs⟩
  | cons row rows ih =>
    rcases runs_deleteBlob runs with ⟨kept, rest, rfl, isStored, runs⟩
    rcases runs_updateUser runs with ⟨u, rest, rfl, user, runs⟩
    rcases ih runs with ⟨first, second, mid, used, rfl, cuts, runs⟩
    exact ⟨_ :: _ :: first, second, mid, used, rfl, .next isStored user cuts, runs⟩

/-- The rows of a query have what it asks for and are in the table. -/
theorem found_of_answer (found : rows = answer (.findBlobs filter order) tables) :
    ∀ row ∈ rows, filter.holds row = true ∧ tables.blobs.lookup (row.hash, row.npub) =
      some ⟨row.size, row.replicas⟩ := by
  intro row mem
  rw [found] at mem
  rcases List.mem_filter.mp ((order.perm _).mem_iff.mp mem) with ⟨isRecord, h⟩
  rcases List.mem_map.mp isRecord with ⟨_, entry, rfl⟩
  exact ⟨h, AList.mem_lookup_iff.mpr entry⟩

theorem deletes_of_deleteFound {final : Int × Nat}
    (runs : (deleteFound hash rows).Runs state history final after) :
    ∃ first left, history = first ++ [.asked (.countBlobs ⟨some hash, none⟩) left] ∧
      Deletes hash rows state first after := by
  rw [deleteFound] at runs
  split at runs
  · exact False.elim runs
  · rcases deletes_of_runs runs with ⟨first, second, mid, used, rfl, cuts, counts⟩
    rcases runs_find counts with ⟨left, rest, rfl, rfl, _, rfl⟩
    exact ⟨first, left, rfl, cuts⟩

/-- Rows are dropped one by one, or skipped. -/
inductive Drops : List Blob → Tables → List (Event accounts) → Tables → Prop where
  | done (state : Tables) : Drops [] state [] state
  | skip {row : Blob} {rows : List Blob} {state after : Tables} {history : List (Event accounts)}
      (rest : Drops rows state history after) :
      Drops (row :: rows) state (.did (.dropBlob row.hash row.npub) false :: history) after
  | drop {row : Blob} {rows : List Blob} {state after : Tables} {history : List (Event accounts)}
      (rest : Drops rows (state.eraseBlob row.hash row.npub) history after) :
      Drops (row :: rows) state (.did (.dropBlob row.hash row.npub) true :: history) after

theorem drops_of_runs (runs : (dropRows rows >>= next).Runs state history final after) :
    ∃ first second mid, history = first ++ second ∧
      Drops rows state first mid ∧ (next ()).Runs mid second final after := by
  induction rows generalizing state history with
  | nil => exact ⟨[], history, state, rfl, .done state, runs⟩
  | cons row rows ih =>
    rcases runs_dropBlob runs with ⟨rest, ⟨rfl, skip⟩ | ⟨rfl, drop⟩⟩
    · rcases ih skip with ⟨first, second, mid, rfl, drops, runs⟩
      exact ⟨_ :: first, second, mid, rfl, .skip drops, runs⟩
    · rcases ih drop with ⟨first, second, mid, rfl, drops, runs⟩
      exact ⟨_ :: first, second, mid, rfl, .drop drops, runs⟩

/-- The counter is reset after the rows are dropped. -/
theorem purges_of_runs {blobs final : List Blob} (runs : (dropRows rows >>= fun _ =>
      call (.updateUser npub (.setUsed 0)) >>= fun _ =>
      (.done blobs : Program accounts (List Blob))).Runs state history final after) :
    ∃ drops mid u, Drops rows state drops mid ∧
      history = drops ++ [.did (.updateUser npub (.setUsed 0)) ((UserChange.setUsed 0).apply u)] ∧
      after = mid.putUser npub ((UserChange.setUsed 0).apply u) := by
  rcases drops_of_runs runs with ⟨first, second, mid, rfl, drops, resets⟩
  rcases runs_updateUser resets with ⟨u, rest, rfl, _, rfl, _, post⟩
  exact ⟨first, mid, u, drops, rfl, post⟩

/-! ## Entitlements -/

/-- The tables after the upsert, by what it found. -/
def opened (npub : String) (found : Option User) (state : Tables) : Tables :=
  match found with
  | some _ => state
  | none => state.putUser npub .fresh

def claimed (npub : String) (paymentHash : Option String) (state : Tables) : Tables :=
  match paymentHash with
  | some paymentHash => state.putGrant paymentHash npub
  | none => state

theorem claimed_users (npub : String) (pay : Option String)
    (state : Tables) : (claimed npub pay state).users = state.users := by
  cases pay <;> rfl

theorem claimed_blobs (npub : String) (pay : Option String)
    (state : Tables) : (claimed npub pay state).blobs = state.blobs := by
  cases pay <;> rfl

theorem lookup_grants_claimed (npub : String) (pay : Option String)
    (state : Tables) (hash : String) :
    (claimed npub pay state).grants.lookup hash =
      if pay = some hash then some npub
      else state.grants.lookup hash := by
  cases pay with
  | none => rw [if_neg nofun, claimed]
  | some given =>
    change (state.grants.insert given npub).lookup hash = _
    by_cases eq : given = hash
    · rw [eq, if_pos rfl, AList.lookup_insert]
    · rw [if_neg fun isSome => eq (Option.some.inj isSome),
        AList.lookup_insert_ne fun isHash => eq isHash.symm]

theorem opened_grants (npub : String) (found : Option User) (state : Tables) :
    (opened npub found state).grants = state.grants := by
  cases found <;> rfl

theorem lookup_putUser_ne (ne : other ≠ npub) (u : User) :
    (state.putUser npub u).users.lookup other = state.users.lookup other :=
  AList.lookup_insert_ne ne

theorem lookup_putUser (user : User) : (state.putUser npub user).users.lookup npub = some user :=
  AList.lookup_insert _

theorem lookup_opened_ne (ne : other ≠ npub) (found : Option User) (state : Tables) :
    (opened npub found state).users.lookup other = state.users.lookup other := by
  cases found with
  | some u => rfl
  | none => exact lookup_putUser_ne ne _

theorem runs_upsertUser {next : User → Program accounts Result}
    (runs : (upsertUser npub >>= next).Runs state history final after) :
    ∃ found rest, .asked (.findUser npub) found ∈ history ∧ rest <:+ history ∧
      (found = none → state.users.lookup npub = none) ∧
      (next (found.getD .fresh)).Runs (opened npub found state) rest final
      after := by
  rcases runs_find runs with ⟨found, rest, rfl, upserted⟩
  cases found with
  | some u =>
    exact ⟨some u, rest, List.mem_cons_self, List.suffix_cons _ _, nofun, upserted⟩
  | none =>
    rcases runs_createUser upserted with ⟨more, rfl, gone, runs⟩
    exact ⟨none, more, List.mem_cons_self,
      (List.suffix_cons _ _).trans (List.suffix_cons _ _), fun _ => gone,
      runs⟩

theorem runs_claim (runs : (claim npub pay >>= next).Runs state history final after) :
    ∃ rest, rest <:+ history ∧ (∀ given, pay = some given → state.grants.lookup given = none) ∧
      (next ()).Runs (claimed npub pay state) rest final after := by
  cases pay with
  | some given =>
    rcases runs_createGrant runs with ⟨more, rfl, gone, runs⟩
    refine ⟨more, List.suffix_cons _ _, fun other oth => ?_, runs⟩
    cases oth
    exact gone
  | none => exact ⟨history, List.suffix_refl _, nofun, runs⟩

theorem runs_writePlan {final : User} {out : Except EntitlementError EntitlementEffect}
    (runs : (writePlan npub out).Runs state history final after) :
    ∃ effect expiry u, out = .ok effect ∧ effect.planExpiresAt = some expiry ∧
      state.users.lookup npub = some u ∧
      final = (UserChange.setPlan expiry effect.storageBytes).apply u ∧
      after = state.putUser npub final ∧
      .did (.updateUser npub (.setPlan expiry effect.storageBytes)) final ∈ history := by
  cases out with
  | error error => exact False.elim runs
  | ok effect =>
    rw [writePlan] at runs
    cases exp : effect.planExpiresAt with
    | none =>
      rw [exp] at runs
      exact False.elim runs
    | some expiry =>
      rw [exp] at runs
      have updated : (call (.updateUser npub
          (.setPlan expiry effect.storageBytes)) >>= Program.done).Runs
            state history final after :=
        runs
      rcases runs_updateUser updated with ⟨u, rest, rfl, found, done⟩
      rcases done with ⟨_, rfl, post⟩
      exact ⟨effect, expiry, u, rfl, exp, found, rfl, post, List.mem_cons_self⟩

/-- No transaction comes after that of an entitlement. -/
theorem quiet_afterGrant (npub : String) (pay : Option String) (out : Except Failure User) :
    (afterGrant npub pay out).Quiet := by
  have quietUser : (reportUser npub).Quiet := by
    intro found
    cases found <;> trivial
  cases out with
  | ok u => trivial
  | error fail =>
    cases fail with
    | p2002 =>
      cases pay with
      | none => trivial
      | some pay =>
        intro old
        cases old with
        | none => exact quietUser
        | some own =>
          dsimp only
          split
          · trivial
          · exact quietUser
    | _ => trivial

/-- An entitlement write that commits, by what its upsert found. -/
structure Grants (npub : String) (request : EntitlementRequest) (now : Int)
    (state : Tables) (final : User) (after : Tables) (found : Option User)
    (user : User) : Prop where
  absent : found = none → state.users.lookup npub = none
  /-- The hash has not been claimed. -/
  isNew : ∀ paymentHash, request.paymentHash = some paymentHash →
    state.grants.lookup paymentHash = none
  isUser : (opened npub found state).users.lookup npub = some user
  isFinal : ∃ effect expiresAt, computeEntitlement (found.getD .fresh) request now = .ok effect ∧
      effect.planExpiresAt = some expiresAt ∧
        final = (UserChange.setPlan expiresAt effect.storageBytes).apply user
  isAfter : after = (claimed npub request.paymentHash (opened npub found state)).putUser npub final

/-- The plan of a user is written. -/
def Writes (npub : String) (history : List (Event accounts)) : Prop :=
  ∃ expiresAt storageBytes, ∃ user : User,
    .did (.updateUser npub (.setPlan expiresAt storageBytes)) user ∈ history

theorem grants_of_runs {req : EntitlementRequest} {now : Int} {final : User}
    (runs : (grantEntitlement npub req now).Runs state history final after) :
    ∃ found user, .asked (.findUser npub) found ∈ history ∧ Writes npub history ∧
      Grants npub req now state final after found user := by
  rcases runs_upsertUser runs with ⟨found, rest, asked, isRest, gone, upserted⟩
  rcases runs_claim upserted with ⟨more, isMore, isNew, granted⟩
  rcases runs_writePlan granted with ⟨effect, expiry, user, isEffect, exp, isUser, last, post,
    isWritten⟩
  rw [claimed_users] at isUser
  refine ⟨found, user, asked, ⟨_, _, _, (isMore.trans isRest).subset isWritten⟩, gone, ?_, isUser,
    ⟨effect, expiry, isEffect, exp, last⟩, post⟩
  intro pay isHash
  have isNone := isNew pay isHash
  rwa [opened_grants] at isNone

/-! ## An entitlement write on its own -/

section

theorem alone_upsertUser (next : User → Program accounts Result) :
    (upsertUser npub >>= next).alone state = (next ((state.users.lookup npub).getD .fresh)).alone
      (opened npub (state.users.lookup npub) state) := by
  have got : (upsertUser npub >>= next).alone state = ((match state.users.lookup npub with
        | some u => .done u
        | none => call (.createUser npub) : Program accounts User) >>=
          next).alone state :=
    rfl
  rw [got]
  cases found : state.users.lookup npub with
  | some u => rfl
  | none =>
    refine Program.alone_call (D := accounts) (.createUser npub) ?_ next
    simp only [exec, found]
    rfl

theorem alone_claim (pay : Option String) (next : Unit → Program accounts Result) :
    (claim npub pay >>= next).alone state =
      if pay.any fun hash => (state.grants.lookup hash).isSome then
      .error .p2002
      else (next ()).alone (claimed npub pay state) := by
  cases pay with
  | none => rfl
  | some given =>
    cases found : state.grants.lookup given with
    | some own =>
      rw [Option.any_some, found]
      refine Program.alone_fail (D := accounts) (.createGrant given npub) ?_
        next
      simp [exec, found]
    | none =>
      rw [Option.any_some, found]
      refine Program.alone_call (D := accounts) (.createGrant given npub) ?_
        next
      simp only [exec, found]
      rfl

theorem alone_writePlan {effect : EntitlementEffect} (exp : effect.planExpiresAt = some expiresAt)
    (found : state.users.lookup npub = some user) :
    (writePlan npub (.ok effect)).alone state =
      .ok ((UserChange.setPlan expiresAt effect.storageBytes).apply user, state.putUser npub
      ((UserChange.setPlan expiresAt effect.storageBytes).apply user)) := by
  rw [writePlan, exp]
  refine Program.alone_call (D := accounts) (.updateUser npub _) ?_ .done
  simp [exec, found]

theorem alone_grantEntitlement (req : EntitlementRequest) (now : Int) :
    (grantEntitlement npub req now).alone state =
      if req.paymentHash.any fun hash =>
      (state.grants.lookup hash).isSome then
      .error .p2002
      else
      (writePlan npub (computeEntitlement ((state.users.lookup npub).getD .fresh) req now)).alone
      (claimed npub req.paymentHash (opened npub (state.users.lookup npub) state)) := by
  rw [grantEntitlement, alone_upsertUser, alone_claim, opened_grants]

end

end StorageOrchestrator.Accounts.Serial
