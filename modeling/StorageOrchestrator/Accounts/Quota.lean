import StorageOrchestrator.Accounts.Serial

/-!
# The quota

Uploads and deletions, by any users and in any interleaving, against the
allowance of one user.  An upload reads the counter under the row lock that it
keeps, so its check is against the counter it adds to; deletions only lower
the counter.  The counter is the one at the start plus what the committed
transactions added and took off, so no upload goes uncounted.
-/

namespace StorageOrchestrator.Accounts.Quota

open Accounts.Entitlement Accounts.Requests Accounts.Serial Accounts.Store
  Lib.Transactions Lib.Transition
open List hiding next after

/-- Uploads of non-negative sizes, and deletions. -/
def blobTraffic : Terms accounts Request Response where
  arrives
    | .postBlobs _ _ size _ => size.all (0 ≤ ·)
    | .deleteBlobs .. => true
    | _ => false
  admits _ _ _ _ := true

/-! ## Charges -/

/-- What a statement adds to a user's counter. -/
def chargeOf (npub : String) : Event accounts → Int
  | .did (.updateUser owner (.increment bytes)) _ =>
    if owner = npub then bytes else 0
  | .did (.updateUser owner (.decrement bytes)) _ =>
    if owner = npub then -bytes else 0
  | _ => 0

def charge (npub : String) (history : List (Event accounts)) : Int :=
  (history.map (chargeOf npub)).sum

/-- What the committed transactions added to a user's counter. -/
def charged (npub : String) (commits : List (Request × List (Event accounts))) : Int :=
  (commits.map fun commit => charge npub commit.2).sum

/-- The transaction that created a row added its size to the counter. -/
def Counted (npub hash : String) (row : BlobRow) (history : List (Event accounts)) : Prop :=
  .did (.createBlob hash npub row) row ∈ history ∧
    ∃ user : User, .did (.updateUser npub (.increment row.size)) user ∈ history

/-- A user within the allowance, and how the user came there. -/
structure Within (start : Tables) (used quota : Int) (npub : String)
    (tables : Tables) (commits : List (Request × List (Event accounts))) :
    Prop where
  user : ∃ user, tables.users.lookup npub = some user ∧
    user.storageBytes = some quota ∧ user.usedStorage ≤ quota ∧
      user.usedStorage = used + charged npub commits
  sizes : ∀ hash row, tables.blobs.lookup (hash, npub) = some row → 0 ≤ row.size
  counted : ∀ hash row, tables.blobs.lookup (hash, npub) = some row →
    start.blobs.lookup (hash, npub) = some row ∨ ∃ commit ∈ commits, Counted npub hash row commit.2

section

theorem charged_append (req : Request) : charged npub (commits ++ [(req, history)]) =
      charged npub commits + charge npub history := by
  simp [charged]

/-- What a transaction without uploads may do to one account. -/
theorem Within.lowered (sub : Within start used quota npub state commits)
    (req : Request) (users : ∀ u, state.users.lookup npub = some u →
      ∃ later, after.users.lookup npub = some later ∧ later.storageBytes = u.storageBytes ∧
      later.usedStorage = u.usedStorage + charge npub history)
    (blobs : ∀ hash row, after.blobs.lookup (hash, npub) = some row →
      state.blobs.lookup (hash, npub) = some row)
    (lowers : charge npub history ≤ 0) :
    Within start used quota npub after (commits ++ [(req, history)]) := by
  rcases sub.user with ⟨u, user, isQuota, isWithin, isCharged⟩
  rcases users u user with ⟨later, late, sameQuota, isUsed⟩
  constructor
  · refine ⟨later, late, sameQuota.trans isQuota, ?_, ?_⟩
    · omega
    · rw [charged_append, isUsed, isCharged]
      omega
  · intro hash row found
    exact sub.sizes hash row (blobs hash row found)
  · intro hash row found
    rcases sub.counted hash row (blobs hash row found) with before | ⟨done, mem, sums⟩
    · exact .inl before
    · exact .inr ⟨done, mem_append_left _ mem, sums⟩

/-! ## Deletions -/

section

variable {hash : String} {rows : List Blob} (deletes : Deletes hash rows state history after)
include deletes

theorem users_of_deletes :
    ∀ user, state.users.lookup npub = some user → ∃ later, after.users.lookup npub = some later ∧
      later.storageBytes = user.storageBytes ∧
      later.usedStorage = user.usedStorage + charge npub history := by
  induction deletes with
  | done state =>
    intro user isUser
    exact ⟨user, isUser, rfl, (Int.add_zero _).symm⟩
  | @next row rows state after history kept own isStored owns rest
      ih =>
      intro user isUser
      have isCharge : charge npub (.did (.deleteBlob hash row.npub) kept ::
            .did (.updateUser row.npub (.decrement row.size))
              ((UserChange.decrement row.size).apply own) :: history) =
            (if row.npub = npub then -row.size else 0) + charge npub history := by
        simp [charge, chargeOf]
      rw [isCharge]
      by_cases eq : row.npub = npub
      · rw [if_pos eq]
        rw [← eq] at isUser ih ⊢
        obtain rfl : own = user := Option.some.inj (owns.symm.trans isUser)
        rcases ih _ (AList.lookup_insert _) with ⟨later, late, sameQuota, isUsed⟩
        refine ⟨later, late, sameQuota, ?_⟩
        rw [isUsed]
        simp only [UserChange.apply]
        omega
      · rw [if_neg eq, Int.zero_add]
        apply ih
        exact (AList.lookup_insert_ne fun isNpub => eq isNpub.symm).trans isUser

theorem blobs_of_deletes :
    ∀ key row, after.blobs.lookup key = some row → state.blobs.lookup key = some row := by
  induction deletes with
  | done state => exact fun _ _ found => found
  | @next row rows state after history stored owner isStored isOwner rest
      ih =>
      intro key stored found
      have pre : (state.blobs.erase (hash, row.npub)).lookup key =
        some stored := ih key stored found
      by_cases eq : key = (hash, row.npub)
      · rw [eq, AList.lookup_erase] at pre
        cases pre
      · rw [AList.lookup_erase_ne eq] at pre
        exact pre

theorem charge_of_deletes (sizes : ∀ row ∈ rows, row.npub = npub → 0 ≤ row.size) :
    charge npub history ≤ 0 := by
  induction deletes with
  | done state => exact Int.le_refl 0
  | @next row rows state after history stored owner isStored isOwner rest
      ih =>
      have lowers := ih fun row mem =>
        sizes row (mem_cons_of_mem _ mem)
      have size := sizes row mem_cons_self
      simp only [charge, map_cons, sum_cons, chargeOf] at lowers ⊢
      split
      · rename_i eq
        have pos := size eq
        omega
      · omega

end

/-! ## Uploads -/

theorem Within.uploads (sub : Within start used quota npub state commits)
    (req : Request) {hash owner : String} {row : BlobRow} {cur : User} (size : 0 ≤ row.size)
    (uploads : Uploads hash owner row state history after cur) :
    Within start used quota npub after (commits ++ [(req, history)]) := by
  rcases uploads with ⟨found, fits, gone, post, past⟩
  have isCharge : charge npub history =
      if owner = npub then row.size else 0 := by
    rw [past]
    simp [charge, chargeOf]
  by_cases eq : owner = npub
  · subst eq
    rw [if_pos rfl] at isCharge
    rcases sub.user with ⟨user, isUser, isQuota, isWithin, isCharged⟩
    obtain rfl : cur = user := Option.some.inj (found.symm.trans isUser)
    rw [exceedsQuota, isQuota] at fits
    have below := of_decide_eq_false fits
    have blobs : ∀ hash' stored, after.blobs.lookup (hash', owner) =
        some stored → (hash' = hash ∧ stored = row) ∨
          state.blobs.lookup (hash', owner) = some stored := by
      intro hash' stored kept
      rw [post] at kept
      by_cases isHash : hash' = hash
      · rw [isHash] at kept
        have isRow : some row = some stored := (AList.lookup_insert _).symm.trans kept
        exact .inl ⟨isHash, (Option.some.inj isRow).symm⟩
      · refine .inr (Eq.trans (AList.lookup_insert_ne ?_).symm kept)
        rintro ⟨⟩
        exact isHash rfl
    constructor
    · refine ⟨(UserChange.increment row.size).apply cur, ?_, isQuota, Int.not_lt.mp below, ?_⟩
      · rw [post]
        exact AList.lookup_insert _
      · rw [charged_append, isCharge]
        simp only [UserChange.apply]
        omega
    · intro hash' stored kept
      rcases blobs hash' stored kept with ⟨_, rfl⟩ | pre
      · exact size
      · exact sub.sizes hash' stored pre
    · intro hash' stored kept
      rcases blobs hash' stored kept with ⟨rfl, rfl⟩ | pre
      · refine .inr ⟨_, mem_append_right _ (mem_singleton_self _),
          ?_, (UserChange.increment stored.size).apply cur, ?_⟩
        · rw [past]
          exact mem_cons_of_mem _ (mem_cons_of_mem _ mem_cons_self)
        · rw [past]
          exact mem_cons_of_mem _ (mem_cons_of_mem _
            (mem_cons_of_mem _ mem_cons_self))
      · rcases sub.counted hash' stored pre with atStart | ⟨done, mem, sums⟩
        · exact .inl atStart
        · exact .inr ⟨done, mem_append_left _ mem, sums⟩
  · rw [if_neg eq] at isCharge
    have ne : npub ≠ owner := fun owns => eq owns.symm
    apply sub.lowered req
    · intro user isUser
      refine ⟨user, ?_, rfl, ?_⟩
      · rw [post]
        exact (AList.lookup_insert_ne ne).trans isUser
      · rw [isCharge, Int.add_zero]
    · intro hash' stored kept
      rw [post] at kept
      refine Eq.trans (AList.lookup_insert_ne ?_).symm kept
      rintro ⟨⟩
      exact ne rfl
    · exact Int.le_of_eq isCharge

end

/-! ## The requests -/

section

variable {start : Tables} {used quota : Int} {npub : String}

abbrev budgeting (start : Tables) (used quota : Int) (npub : String) :
    Discipline accounts Request Response :=
  blobTraffic.keeping (Within start used quota npub)

theorem safe_postBlobs (hash own : String) {size : Option Int}
    (copies : List String) (pos : size.all (0 ≤ ·) = true) :
    (postBlobs hash own size copies).Safe (budgeting start used quota npub) request world := by
  cases size with
  | none => exact Process.safe_of_quiet trivial
  | some size =>
    apply Process.safe_of_keeps
    · intro out
      trivial
    · intro res later last sub runs _
      rcases uploads_of_runs runs with ⟨cur, uploads⟩
      have isPositive : 0 ≤ size := of_decide_eq_true pos
      exact sub.uploads request isPositive uploads

theorem safe_deleteBlobs (hash : String) (own : Option String) (all : Bool) (order : Order) :
    (deleteBlobs hash own all order).Safe (budgeting start used quota npub) request world := by
  rw [deleteBlobs]
  split
  · exact Process.safe_of_quiet trivial
  · apply Process.safe_transaction
    · intro out
      trivial
    apply Program.safe_of_asks
    intro later atFind
    generalize isRows : accounts.answer _ _ = rows
    have got := found_of_answer isRows.symm
    have sizes : ∀ row : Blob, List.Mem row rows → row.npub = npub → 0 ≤ row.size := by
      intro row mem owns
      have found := (got row mem).2
      rw [owns] at found
      exact atFind.sizes row.hash _ found
    apply Program.safe_of_keeps
    · intro out
      trivial
    intro res rest last fin sub past runs _
    rcases deletes_of_deleteFound runs with ⟨first, left, rfl, deletes⟩
    have isCharge : charge npub fin.history = charge npub first := by
      rw [past]
      simp [charge, Point.start, Point.asked, chargeOf]
    apply sub.lowered request
    · rw [isCharge]
      exact users_of_deletes deletes
    · exact fun hash row => blobs_of_deletes deletes (hash, npub) row
    · rw [isCharge]
      exact charge_of_deletes deletes sizes

end

/--
In every run of uploads and deletions a user that starts within the allowance
stays within it.  The counter is what the committed transactions made of it,
and every blob that is not from the start was added to it.
-/
theorem quota_kept (js : Runtime) {db : Tables} {npub : String} {user : User}
    {quota : Int} (isUser : db.users.lookup npub = some user)
    (isQuota : user.storageBytes = some quota)
    (isWithin : user.usedStorage ≤ quota)
    (sizes : ∀ hash row, db.blobs.lookup (hash, npub) = some row → 0 ≤ row.size)
    {moves : List (Move Request)} {final : Machine accounts Request Response}
    (run : blobTraffic.Run (handler js) (.start db) moves final) :
    (∃ later, final.world.db.users.lookup npub = some later ∧
        later.storageBytes = some quota ∧ later.usedStorage ≤ quota ∧ later.usedStorage =
            user.usedStorage + charged npub final.world.commits) ∧
      ∀ hash row, final.world.db.blobs.lookup (hash, npub) = some row →
        db.blobs.lookup (hash, npub) = some row ∨
          ∃ commit ∈ final.world.commits, Counted npub hash row commit.2 := by
  have init : Within db user.usedStorage quota npub db [] :=
    { user := ⟨user, isUser, isQuota, isWithin, (Int.add_zero _).symm⟩
      sizes := sizes
      counted := fun _ _ found => .inl found }
  have kept : Within db user.usedStorage quota npub final.world.db
      final.world.commits := by
    refine Discipline.inv_of_run ?_ init run (S := budgeting db user.usedStorage quota npub)
    intro req w comes _
    cases req with
    | postBlobs hash own size copies =>
      exact safe_postBlobs hash own copies comes
    | deleteBlobs hash own all order =>
      exact safe_deleteBlobs hash own all order
    | deleteUserBlobs own first second | postEntitlement own body now =>
      cases comes
  exact ⟨kept.user, kept.counted⟩

/-- Two uploads that race for an allowance of 100, and a deletion. -/
def racingUploads : List (Move Request) :=
  .arrive (.postBlobs "first" "alice" (some 60) []) ::
    .arrive (.postBlobs "second" "alice" (some 60) []) ::
      advances 0 3 ++ advances 1 1 ++ advances 0 4 ++ advances 1 4 ++
        .arrive (.deleteBlobs "first" none true .asStored) :: advances 2 7

theorem racing_uploads_within : ∃ final, blobTraffic.Run (handler .integers) (.start oneUser)
        racingUploads final ∧
      ∃ later, final.world.db.users.lookup "alice" = some later ∧
        later.usedStorage ≤ 100 := by
  have ⟨final, run⟩ : ∃ final, blobTraffic.Run (handler .integers) (.start oneUser)
      racingUploads final :=
    GuardedRun.exists_of_guardedReplay (by decide +kernel)
  have user : oneUser.users.lookup "alice" = some ⟨none, some 100, 0⟩ := rfl
  rcases quota_kept .integers user rfl (by decide) nofun run with ⟨⟨later, late, _, isWithin, _⟩, _⟩
  exact ⟨final, run, later, late, isWithin⟩

end StorageOrchestrator.Accounts.Quota
