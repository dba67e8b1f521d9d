import StorageOrchestrator.Accounts.Serial

/-!
# Usage accounting

The counter `usedStorage` of a user against the sizes of the user's rows in
`blob`, under all four requests.  Uploads and entitlement writes always keep
the two together.  A deletion gives back the sizes it has read, and a purge
sets the counter to zero; both are right when they commit what they have seen:
the rows are deleted with the sizes they were read with, and the purge's
`deleteMany` has deleted every row of its user that is committed by then.
-/

namespace StorageOrchestrator.Accounts.Usage

open Accounts.Entitlement Accounts.Requests Accounts.Serial Accounts.Store
  Lib.Transactions Lib.Transition
open List hiding next after

variable {hash : String} {history : List (Event accounts)} {rows : List Blob}

/-- The counters are right, and every blob has an owner. -/
structure Accounted (tables : Tables) : Prop where
  owned : ∀ hash npub row, tables.blobs.lookup (hash, npub) = some row →
    (tables.users.lookup npub).isSome = true
  counted : ∀ npub user, tables.users.lookup npub = some user → user.usedStorage = tables.usage npub

/-! ## The condition -/

/-- The row a deletion deleted, as it was stored. -/
def deletedRow? : Event accounts → Option Blob
  | .did (.deleteBlob hash npub) stored =>
    let stored : BlobRow := stored
    some ⟨hash, npub, stored.size, stored.replicas⟩
  | _ => none

/-- The rows a query found. -/
def foundRows : Event accounts → List Blob
  | .asked (.findBlobs _ _) rows => rows
  | _ => []

/-- The user whose counter a statement set. -/
def resetUser? : Event accounts → Option String
  | .did (.updateUser npub (.setUsed _)) _ => some npub
  | _ => none

/-- Rows are deleted with the sizes they were found with. -/
def deletesAsFound (history : List (Event accounts)) : Bool :=
  (history.filterMap deletedRow?).all fun stored =>
    (history.flatMap foundRows).all fun row =>
      !(row.hash == stored.hash && row.npub == stored.npub) || row.size == stored.size

/-- The key of a row that a `deleteMany` deleted. -/
def droppedKey? : Event accounts → Option (String × String)
  | .did (.dropBlob hash npub) dropped =>
    let dropped : Bool := dropped
    if dropped then some (hash, npub) else none
  | _ => none

/-- Every committed row of a user whose counter was set is one that `deleteMany` deleted. -/
def dropsCommitted (history : List (Event accounts)) (committed : Tables) : Bool :=
  (history.filterMap resetUser?).all fun npub =>
    (committed.records.filter fun row => row.npub == npub).all fun row =>
      (history.filterMap droppedKey?).contains (row.hash, npub)

/-- Every transaction commits what it has seen. -/
def settling : Terms accounts Request Response where
  arrives _ := true
  admits _ act point world :=
    match act with
    | .commit => deletesAsFound point.history &&
        dropsCommitted point.history world.db
    | _ => true

/-! ## One account at a time -/

section

variable {state : Tables}

/-- A change of one account, after which its counter is right. -/
theorem Accounted.change (accounted : Accounted state) (npub : String)
    {u : User} (users : ∀ other, other ≠ npub → after.users.lookup other = state.users.lookup other)
    (blobs : ∀ hash other, other ≠ npub →
      after.blobs.lookup (hash, other) = state.blobs.lookup (hash, other))
    (user : after.users.lookup npub = some u)
    (isUsed : u.usedStorage = after.usage npub) : Accounted after := by
  constructor
  · intro hash other row found
    by_cases eq : other = npub
    · rw [eq, user]
      rfl
    · rw [blobs hash other eq] at found
      rw [users other eq]
      exact accounted.owned hash other row found
  · intro other otherUser found
    by_cases eq : other = npub
    · rw [eq, user] at found
      cases found
      rw [eq]
      exact isUsed
    · rw [users other eq] at found
      rw [accounted.counted other otherUser found]
      exact Tables.usage_congr fun hash =>
        congrArg Row.blob (blobs hash other eq).symm

theorem usage_putUser (u : User) (other : String) :
    (state.putUser npub u).usage other = state.usage other :=
  rfl

theorem key_ne (ne : other ≠ npub) : (hash', other) ≠ (hash, npub) := by
  rintro ⟨⟩
  exact ne rfl

/-- A user without rows has no bytes. -/
theorem usage_eq_zero (gone : ∀ hash, state.blobs.lookup (hash, npub) = none) :
    state.usage npub = 0 := by
  have bare : ∀ hash, state.row (.blob hash npub) = Tables.empty.row (.blob hash npub) :=
    fun hash => congrArg Row.blob (gone hash)
  rw [Tables.usage_congr bare]
  rfl

section

variable (accounted : Accounted state)
include accounted

/-- A user that does not exist has no rows. -/
theorem Accounted.no_blob (gone : state.users.lookup npub = none) (hash : String) :
    state.blobs.lookup (hash, npub) = none := by
  cases found : state.blobs.lookup (hash, npub) with
  | none => rfl
  | some row =>
    have owned := accounted.owned hash npub row found
    rw [gone] at owned
    cases owned

/-! ## The transactions -/

theorem Accounted.uploads (uploads : Uploads hash npub row state history after current) :
    Accounted after := by
  rcases uploads with ⟨found, _, gone, rfl, _⟩
  apply accounted.change npub
  · intro other ne
    exact lookup_putUser_ne ne _
  · intro hash' other ne
    exact AList.lookup_insert_ne (key_ne ne)
  · exact lookup_putUser _
  · rw [usage_putUser, Tables.usage_putBlob gone, if_pos rfl,
    ← accounted.counted npub current found]
    rfl

theorem Accounted.deletes (cuts : Deletes hash rows state history after)
    (asFound : ∀ kept ∈ history.filterMap deletedRow?, ∀ row ∈ rows,
      row.npub = kept.npub → row.size = kept.size) :
    Accounted after := by
  induction cuts with
  | done state => exact accounted
  | @next row rows state after history kept user isStored isUser rest
      ih =>
      have sameSize : row.size = kept.size := asFound ⟨hash, row.npub, kept.size, kept.replicas⟩
          (mem_filterMap.mpr ⟨_, mem_cons_self, rfl⟩) row
          mem_cons_self rfl
      apply ih
      · apply accounted.change row.npub
        · intro other ne
          exact lookup_putUser_ne ne _
        · intro hash' other ne
          exact AList.lookup_erase_ne (key_ne ne)
        · exact lookup_putUser _
        · rw [usage_putUser, Tables.usage_eraseBlob isStored, if_pos rfl,
            ← accounted.counted row.npub user isUser, ← sameSize]
          rfl
      · intro other mem found got
        refine asFound other ?_ found (mem_cons_of_mem _ got)
        exact ((sublist_cons_self _ _).trans
          (sublist_cons_self _ _)).filterMap _ |>.subset mem

end

/-- Dropped rows are rows of their owners. -/
theorem drops_frame (drops : Drops rows state history post)
    (owned : ∀ row ∈ rows, row.npub = npub) :
    post.users = state.users ∧ ∀ hash other, other ≠ npub →
      post.blobs.lookup (hash, other) = state.blobs.lookup (hash, other) := by
  induction drops with
  | done state => exact ⟨rfl, fun _ _ _ => rfl⟩
  | skip rest ih =>
    exact ih fun row mem =>
      owned row (mem_cons_of_mem _ mem)
  | @drop row rows state post history rest ih =>
    rcases ih fun row mem =>
      owned row (mem_cons_of_mem _ mem) with ⟨users, blobs⟩
    refine ⟨users, fun hash other ne => ?_⟩
    rw [blobs hash other ne]
    have owns : row.npub = npub := owned row mem_cons_self
    exact AList.lookup_erase_ne (key_ne (owns ▸ ne))

/-- A row that is left was there before and was not dropped. -/
theorem not_dropped_of_lookup (drops : Drops rows state history post)
    (found : post.blobs.lookup key = some row) :
    state.blobs.lookup key = some row ∧ key ∉ history.filterMap droppedKey? := by
  induction drops with
  | done state => exact ⟨found, not_mem_nil⟩
  | skip rest ih => exact ih found
  | @drop dropped rows state post history rest ih =>
    rcases ih found with ⟨was, kept⟩
    have ne : key ≠ (dropped.hash, dropped.npub) := by
      rintro rfl
      have gone := AList.lookup_erase (dropped.hash, dropped.npub) state.blobs
      cases gone.symm.trans was
    exact ⟨(AList.lookup_erase_ne ne).symm.trans was, not_mem_cons_of_ne_of_not_mem ne kept⟩

/-- A purge that has dropped every committed row of its user leaves none. -/
theorem no_blob_of_drops {mid : Tables} (drops : Drops rows state history mid)
    (all : ∀ row ∈ state.records, row.npub = npub →
      (row.hash, npub) ∈ history.filterMap droppedKey?) (hash : String) :
    mid.blobs.lookup (hash, npub) = none := by
  cases found : mid.blobs.lookup (hash, npub) with
  | none => rfl
  | some row =>
    rcases not_dropped_of_lookup drops found with ⟨was, kept⟩
    have isRecord : ⟨hash, npub, row.size, row.replicas⟩ ∈ state.records :=
      mem_map.mpr ⟨⟨(hash, npub), row⟩, AList.mem_lookup_iff.mp was, rfl⟩
    exact absurd (all _ isRecord rfl) kept

theorem Accounted.purges (accounted : Accounted state) {mid : Tables}
    (drops : Drops rows state history mid) (owned : ∀ row ∈ rows, row.npub = npub) {u : User}
    (post : after = mid.putUser npub ((UserChange.setUsed 0).apply u))
    (all : ∀ row ∈ state.records, row.npub = npub →
      (row.hash, npub) ∈ history.filterMap droppedKey?) : Accounted after := by
  rcases drops_frame drops owned with ⟨users, blobs⟩
  rw [post]
  apply accounted.change npub
  · intro other ne
    rw [lookup_putUser_ne ne, users]
  · exact blobs
  · exact lookup_putUser _
  · rw [usage_putUser, usage_eq_zero (no_blob_of_drops drops all)]
    rfl

theorem Accounted.grants (accounted : Accounted state)
    (given : Grants npub request now state final after found user) :
    Accounted after := by
  rcases given with ⟨gone, _, isUser, ⟨effect, expiry, _, _, last⟩, post⟩
  have blobs : (opened npub found state).blobs = state.blobs := by
    cases found <;> rfl
  have isUsed : user.usedStorage = state.usage npub := by
    cases found with
    | some _ => exact accounted.counted npub user isUser
    | none =>
      have isFresh : some User.fresh = some user := (lookup_putUser _).symm.trans isUser
      cases isFresh
      exact (usage_eq_zero (accounted.no_blob (gone rfl))).symm
  rw [post]
  apply accounted.change npub
  · intro other ne
    rw [lookup_putUser_ne ne, claimed_users, lookup_opened_ne ne]
  · intro hash other ne
    change (claimed npub _ _).blobs.lookup _ = _
    rw [claimed_blobs, blobs]
  · exact lookup_putUser _
  · rw [usage_putUser, last, Tables.usage, claimed_blobs, blobs]
    exact isUsed

end

/-! ## The requests -/

section

/-- The invariant of the committed tables. -/
abbrev accounting : Discipline accounts Request Response :=
  settling.keeping fun tables _ => Accounted tables

theorem hash_of_holds (h : (BlobFilter.mk (some hash) npub).holds row = true) :
    row.hash = hash := by
  simp only [BlobFilter.holds, Option.all_some, Bool.and_eq_true, beq_iff_eq] at h
  exact h.1.symm

theorem npub_of_holds {hash : Option String} {npub : String} {row : Blob}
    (h : (BlobFilter.mk hash (some npub)).holds row = true) :
    row.npub = npub := by
  simp only [BlobFilter.holds, Option.all_some, Bool.and_eq_true, beq_iff_eq] at h
  exact h.2.symm

theorem hash_of_deleted (cuts : Deletes hash rows state history after) :
    ∀ kept ∈ history.filterMap deletedRow?, kept.hash = hash := by
  induction cuts with
  | done state => exact nofun
  | next isStored user rest ih =>
    intro kept mem
    rcases mem_cons.mp mem with rfl | mem
    · rfl
    · exact ih kept mem

theorem size_eq_of_asFound (asFound : deletesAsFound history = true)
    (isDeleted : kept ∈ history.filterMap deletedRow?)
    (found : row ∈ history.flatMap foundRows) (sameHash : row.hash = kept.hash)
    (eqNpub : row.npub = kept.npub) :
    row.size = kept.size := by
  rw [deletesAsFound, all_eq_true] at asFound
  have sizes := all_eq_true.mp (asFound kept isDeleted) row found
  simpa [sameHash, eqNpub] using sizes

theorem safe_postBlobs (hash npub : String) (size : Option Int) (copies : List String) :
    (postBlobs hash npub size copies).Safe accounting request world := by
  cases size with
  | none => exact Process.safe_of_quiet trivial
  | some size =>
    apply Process.safe_of_keeps
    · intro out
      trivial
    · intro res later last accounted runs ok
      rcases uploads_of_runs runs with ⟨cur, uploads⟩
      exact accounted.uploads uploads

theorem safe_deleteBlobs (hash : String) (npub : Option String) (all : Bool) (order : Order) :
    (deleteBlobs hash npub all order).Safe accounting request world := by
  rw [deleteBlobs]
  split
  · exact Process.safe_of_quiet trivial
  · apply Process.safe_transaction
    · intro out
      trivial
    apply Program.safe_of_asks
    intro later _
    generalize isRows : accounts.answer _ _ = rows
    have held := found_of_answer isRows.symm
    apply Program.safe_of_keeps
    · intro out
      trivial
    intro res rest last fin accounted past runs ok
    rcases deletes_of_deleteFound runs with ⟨first, left, rfl, cuts⟩
    refine accounted.deletes cuts ?_
    intro kept isDeleted row isRow eqNpub
    have asFound : deletesAsFound fin.history = true := (Bool.and_eq_true_iff.mp ok).1
    rw [past] at asFound
    refine size_eq_of_asFound asFound ?_ ?_ ?_ eqNpub
    · rw [filterMap_append, filterMap_append]
      exact mem_append_right _ (mem_append_left _ isDeleted)
    · rw [flatMap_append]
      exact mem_append_left _ (mem_flatMap.mpr ⟨_, mem_singleton_self _, isRow⟩)
    · rw [hash_of_deleted cuts kept isDeleted]
      exact hash_of_holds (held row isRow).1

theorem safe_deleteUserBlobs (npub : String) (first second : Order) :
    (deleteUserBlobs npub first second).Safe accounting request world := by
  apply Process.safe_transaction
  · intro out
    trivial
  apply Program.safe_of_asks
  intro later _
  generalize accounts.answer _ _ = blobs
  change (purgeFound npub second blobs).SafeWith _ _ _ _ _
  unfold purgeFound
  split
  · apply Program.safe_of_keeps
    · intro out
      trivial
    intro res rest last fin accounted past runs ok
    rcases runs with ⟨_, _, post⟩
    rw [post]
    exact accounted
  · apply Program.safe_of_asks
    intro later _
    generalize isRows : accounts.answer _ _ = rows
    have held := found_of_answer isRows.symm
    apply Program.safe_of_keeps
    · intro out
      trivial
    intro res rest last fin accounted past runs ok
    rcases purges_of_runs runs with ⟨history, mid, u, drops, rfl, post⟩
    refine accounted.purges drops (fun row mem => npub_of_holds (held row mem).1) post ?_
    intro row isRecord owns
    have all : dropsCommitted fin.history last.db = true := (Bool.and_eq_true_iff.mp ok).2
    rw [past, dropsCommitted, all_eq_true] at all
    have dropped := all_eq_true.mp (all npub (by simp [resetUser?])) row
      (mem_filter.mpr ⟨isRecord, by simp [owns]⟩)
    simpa [droppedKey?, Point.asked, Point.start] using dropped

theorem safe_postEntitlement (js : Runtime) (npub : String) (body : Lib.Js.JsValue ℚ) (now : Int) :
    (postEntitlement js npub body now).Safe accounting request world := by
  rw [postEntitlement]
  split
  · exact Process.safe_of_quiet trivial
  · apply Process.safe_of_keeps (quiet_afterGrant npub _)
    intro res later last accounted runs ok
    rcases grants_of_runs runs with ⟨found, u, _, _, given⟩
    exact accounted.grants given

end

/--
In every run whose transactions commit what they have seen, the counter of
every user is the size of the user's blobs after every commit.
-/
theorem usage_accounted (js : Runtime) {db : Tables} (accounted : Accounted db)
    {moves : List (Move Request)} {final : Machine accounts Request Response}
    (run : settling.Run (handler js) (.start db) moves final) :
    ∀ npub user, final.world.db.users.lookup npub = some user →
      user.usedStorage = final.world.db.usage npub := by
  have kept : Accounted final.world.db := by
    refine Discipline.inv_of_run ?_ accounted run (S := accounting)
    intro req w _ _
    cases req with
    | postBlobs hash npub size copies =>
      exact safe_postBlobs hash npub size copies
    | deleteBlobs hash npub all order =>
      exact safe_deleteBlobs hash npub all order
    | deleteUserBlobs npub first second =>
      exact safe_deleteUserBlobs npub first second
    | postEntitlement npub body now =>
      exact safe_postEntitlement js npub body now
  exact kept.counted

theorem accounted_oneUser : Accounted oneUser := by
  constructor
  · intro hash npub row found
    cases found
  · intro npub u found
    by_cases isAlice : npub = "alice"
    · rw [isAlice, oneUser, lookup_putUser] at found
      cases found
      rfl
    · rw [oneUser, lookup_putUser_ne isAlice] at found
      cases found

/-- An upload and a deletion, then an upload and a purge. -/
def orderlyMoves : List (Move Request) :=
  .arrive (.postBlobs "first" "alice" (some 5) []) :: advances 0 7 ++
    .arrive (.postBlobs "second" "alice" (some 7) []) ::
      .arrive (.deleteBlobs "first" (some "alice") false .asStored) ::
        advances 1 2 ++ advances 2 3 ++ advances 1 5 ++ advances 2 4 ++
          .arrive (.deleteUserBlobs "alice" .asStored .asStored) ::
            advances 3 7

/-- The counter is right after uploads, a deletion and a purge. -/
theorem orderly_accounted :
    ∃ final, settling.Run (handler .integers) (.start oneUser) orderlyMoves final ∧
      ∀ user, final.world.db.users.lookup "alice" = some user →
        user.usedStorage = final.world.db.usage "alice" := by
  have ⟨final, run⟩ : ∃ final, settling.Run (handler .integers) (.start oneUser)
      orderlyMoves final :=
    GuardedRun.exists_of_guardedReplay (by decide +kernel)
  exact ⟨final, run, usage_accounted .integers accounted_oneUser run "alice"⟩

/-- An upload that commits while a purge has dropped the rows it found. -/
def racingMoves : List (Move Request) :=
  .arrive (.postBlobs "first" "alice" (some 5) []) :: advances 0 7 ++
    .arrive (.postBlobs "second" "alice" (some 7) []) ::
      .arrive (.deleteUserBlobs "alice" .asStored .asStored) ::
        advances 1 4 ++ advances 2 4 ++ advances 1 3 ++ advances 2 3

/-- A purge resets the counter and leaves the blob that came in meanwhile. -/
theorem purge_forgets_upload : Accounted oneUser ∧
      (replay (step (handler .integers)) (.start oneUser) racingMoves).map
          (fun machine => (machine.world.db.users.lookup "alice",
            machine.world.db.usage "alice")) =
        some (some ⟨none, some 100, 0⟩, 7) :=
  ⟨accounted_oneUser, by decide +kernel⟩

end StorageOrchestrator.Accounts.Usage
