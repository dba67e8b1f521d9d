import StorageOrchestrator.Lib.Transactions

/-!
# The account tables

The tables `user`, `blob` and `entitlement_grant` of db-api, with the Prisma
calls that its transactions make on them.  A call that writes locks its row;
`SELECT ... FOR UPDATE` locks the user's row without a change.  A call on a row
that is not there locks nothing, except an insert, which takes the key.
-/

namespace StorageOrchestrator.Accounts.Store

open Lib.Transactions List

variable {hash : String}

/-! ## Tables -/

/-- A row of `user` beside its key; times are in milliseconds. -/
structure User where
  planExpiresAt : Option Int
  storageBytes : Option Int
  usedStorage : Int
deriving DecidableEq, Repr

/-- The columns' defaults. -/
def User.fresh : User :=
  { planExpiresAt := none
    storageBytes := none
    usedStorage := 0 }

/-- A row of `blob` beside its key. -/
structure BlobRow where
  size : Int
  replicas : List String
deriving DecidableEq, Repr

/-- A row of `blob` with its key. -/
structure Blob where
  hash : String
  npub : String
  size : Int
  replicas : List String
deriving DecidableEq, Repr

/-- The tables of db-api, by primary key. -/
structure Tables where
  users : AList fun _ : String => User
  /-- By hash and owner. -/
  blobs : AList fun _ : String × String => BlobRow
  /-- The owner by payment hash. -/
  grants : AList fun _ : String => String

/-- A database without rows. -/
def Tables.empty : Tables :=
  { users := ∅
    blobs := ∅
    grants := ∅ }

/-- What a transaction can lock. -/
inductive Key where
  | user (npub : String)
  | blob (hash npub : String)
  | grant (paymentHash : String)
deriving DecidableEq

/-- A row, or that there is none. -/
inductive Row where
  | user (row : Option User)
  | blob (row : Option BlobRow)
  | grant (row : Option String)

namespace Tables

/-- The row of a key. -/
def row (tables : Tables) : Key → Row
  | .user npub => .user (tables.users.lookup npub)
  | .blob hash npub => .blob (tables.blobs.lookup (hash, npub))
  | .grant paymentHash => .grant (tables.grants.lookup paymentHash)

/-- Write a row of `user`. -/
def putUser (npub : String) (user : User) (tables : Tables) : Tables :=
  { tables with users := tables.users.insert npub user }

/-- Write a row of `blob`. -/
def putBlob (hash npub : String) (blob : BlobRow) (tables : Tables) : Tables :=
  { tables with blobs := tables.blobs.insert (hash, npub) blob }

/-- Delete a row of `blob`. -/
def eraseBlob (hash npub : String) (tables : Tables) : Tables :=
  { tables with blobs := tables.blobs.erase (hash, npub) }

/-- Write a row of `grant`. -/
def putGrant (paymentHash npub : String) (tables : Tables) : Tables :=
  { tables with grants := tables.grants.insert paymentHash npub }

/-- The rows of `blob` with their keys. -/
def records (tables : Tables) : List Blob :=
  tables.blobs.entries.map fun entry =>
    { hash := entry.1.1
      npub := entry.1.2
      size := entry.2.size
      replicas := entry.2.replicas }

/-- The bytes of a user's blobs. -/
def usage (npub : String) (tables : Tables) : Int :=
  ((tables.blobs.entries.filter fun entry => entry.1.2 = npub).map fun entry => entry.2.size).sum

end Tables

/-! ## Calls -/

/-- The `where` of a query for blobs. -/
structure BlobFilter where
  hash : Option String
  npub : Option String

/-- The fields of the filter have the values asked for. -/
def BlobFilter.holds (filter : BlobFilter) (blob : Blob) : Bool :=
  filter.hash.all (· == blob.hash) && filter.npub.all (· == blob.npub)

/-- The order a query without `ORDER BY` happens to answer in. -/
structure Order where
  arrange : List Blob → List Blob
  perm : ∀ blobs, (arrange blobs).Perm blobs

/-- The order of the table. -/
def Order.asStored : Order :=
  { arrange := fun blobs => blobs
    perm := fun blobs => .refl blobs }

/-- A read of a transaction. -/
inductive Query where
  | findBlob (hash npub : String)
  | findBlobs (filter : BlobFilter) (order : Order)
  | countBlobs (filter : BlobFilter)
  | findUser (npub : String)
  | findGrant (paymentHash : String)

/-- What a read returns. -/
def Reply : Query → Type
  | .findBlob .. => Option BlobRow
  | .findBlobs .. => List Blob
  | .countBlobs .. => Nat
  | .findUser .. => Option User
  | .findGrant .. => Option String

/-- The answer of a read. -/
def answer : (query : Query) → Tables → Reply query
  | .findBlob hash npub, tables => tables.blobs.lookup (hash, npub)
  | .findBlobs filter order, tables =>
    order.arrange (tables.records.filter filter.holds)
  | .countBlobs filter, tables => (tables.records.filter filter.holds).length
  | .findUser npub, tables => tables.users.lookup npub
  | .findGrant paymentHash, tables => tables.grants.lookup paymentHash

/-- The `data` of a `user.update`. -/
inductive UserChange where
  | increment (bytes : Int)
  | decrement (bytes : Int)
  | setUsed (bytes : Int)
  | setPlan (expiresAt : Int) (storageBytes : Option Int)

/-- The row after an update. -/
def UserChange.apply (user : User) : UserChange → User
  | .increment bytes => { user with usedStorage := user.usedStorage + bytes }
  | .decrement bytes => { user with usedStorage := user.usedStorage - bytes }
  | .setUsed bytes => { user with usedStorage := bytes }
  | .setPlan expiresAt storageBytes =>
    { user with planExpiresAt := some expiresAt, storageBytes := storageBytes }

/-- A write of a transaction. -/
inductive Command where
  /-- `SELECT ... FOR UPDATE`. -/
  | lockUser (npub : String)
  | createUser (npub : String)
  | updateUser (npub : String) (change : UserChange)
  | createBlob (hash npub : String) (row : BlobRow)
  | deleteBlob (hash npub : String)
  /-- One row of a `deleteMany`, which skips rows that are gone; answers whether it was there. -/
  | dropBlob (hash npub : String)
  | createGrant (paymentHash npub : String)

/-- What a write returns. -/
def Answer : Command → Type
  | .lockUser .. => Option User
  | .createUser .. | .updateUser .. => User
  | .createBlob .. | .deleteBlob .. => BlobRow
  | .dropBlob .. => Bool
  | .createGrant .. => Unit

/-- Prisma errors by code, and those of the handlers. -/
inductive Failure where
  /-- A unique key is taken. -/
  | p2002
  /-- A foreign key has no row. -/
  | p2003
  /-- There is no such record. -/
  | p2025
  | quotaExceeded
  | alreadyExists
  | entitlement (status : Nat) (code : String)
  | other
deriving DecidableEq, Repr

/-- The rows that a write locks; one that finds no row locks none. -/
def locks : Command → Tables → List Key
  | .lockUser npub, view =>
    if (view.users.lookup npub).isSome then [.user npub] else []
  | .createUser npub, _ => [.user npub]
  | .updateUser npub _, view =>
    if (view.users.lookup npub).isSome then [.user npub] else []
  | .createBlob hash npub _, _ => [.blob hash npub, .user npub]
  | .deleteBlob hash npub, view =>
    if (view.blobs.lookup (hash, npub)).isSome then [.blob hash npub] else []
  | .dropBlob hash npub, view =>
    if (view.blobs.lookup (hash, npub)).isSome then [.blob hash npub] else []
  | .createGrant paymentHash _, _ => [.grant paymentHash]

/-- What a write returns and changes, given the rows it sees. -/
def exec : (command : Command) → Tables → Except Failure (Answer command × (Tables → Tables))
  | .lockUser npub, view => .ok (view.users.lookup npub, fun tables => tables)
  | .createUser npub, view =>
    match view.users.lookup npub with
    | some _ => .error .p2002
    | none => .ok (User.fresh, Tables.putUser npub .fresh)
  | .updateUser npub change, view =>
    match view.users.lookup npub with
    | some user =>
      .ok (change.apply user, Tables.putUser npub (change.apply user))
    | none => .error .p2025
  | .createBlob hash npub row, view =>
    match view.blobs.lookup (hash, npub), view.users.lookup npub with
    | some _, _ => .error .p2002
    | none, some _ => .ok (row, Tables.putBlob hash npub row)
    | none, none => .error .p2003
  | .deleteBlob hash npub, view =>
    match view.blobs.lookup (hash, npub) with
    | some row => .ok (row, Tables.eraseBlob hash npub)
    | none => .error .p2025
  | .dropBlob hash npub, view =>
    match view.blobs.lookup (hash, npub) with
    | some _ => .ok (true, Tables.eraseBlob hash npub)
    | none => .ok (false, fun tables => tables)
  | .createGrant paymentHash npub, view =>
    match view.grants.lookup paymentHash with
    | some _ => .error .p2002
    | none => .ok ((), Tables.putGrant paymentHash npub)

/-! ## One row at a time -/

/-- A change that sets one row and leaves the others. -/
def Sets (change : Tables → Tables) (key : Key) (value : Row) : Prop :=
  ∀ tables other,
    (change tables).row other = if other = key then value else tables.row other

theorem sets_putUser (npub : String) (user : User) :
    Sets (Tables.putUser npub user) (.user npub) (.user (some user)) := by
  intro tables other
  split
  · rename_i eq
    rw [eq]
    exact congrArg Row.user (AList.lookup_insert _)
  · rename_i ne
    cases other with
    | user own =>
      have other : own ≠ npub := fun eq => ne (congrArg _ eq)
      exact congrArg Row.user (AList.lookup_insert_ne other)
    | blob hash own | grant pay => rfl

theorem blob_key_ne (ne : Key.blob hash' npub' ≠ .blob hash npub) :
    (hash', npub') ≠ (hash, npub) := by
  rintro ⟨⟩
  exact ne rfl

theorem sets_putBlob (hash npub : String) (blob : BlobRow) :
    Sets (Tables.putBlob hash npub blob) (.blob hash npub) (.blob (some blob)) := by
  intro tables other
  split
  · rename_i eq
    rw [eq]
    exact congrArg Row.blob (AList.lookup_insert _)
  · rename_i ne
    cases other with
    | user own | grant pay => rfl
    | blob hash' own =>
      exact congrArg Row.blob (AList.lookup_insert_ne (blob_key_ne ne))

theorem sets_eraseBlob (hash npub : String) :
    Sets (Tables.eraseBlob hash npub) (.blob hash npub) (.blob none) := by
  intro tables other
  split
  · rename_i eq
    rw [eq]
    exact congrArg Row.blob (AList.lookup_erase _ _)
  · rename_i ne
    cases other with
    | user own | grant pay => rfl
    | blob hash' own =>
      exact congrArg Row.blob (AList.lookup_erase_ne (blob_key_ne ne))

theorem sets_putGrant (paymentHash npub : String) :
    Sets (Tables.putGrant paymentHash npub) (.grant paymentHash) (.grant (some npub)) := by
  intro tables other
  split
  · rename_i eq
    rw [eq]
    exact congrArg Row.grant (AList.lookup_insert _)
  · rename_i ne
    cases other with
    | user own | blob hash own => rfl
    | grant other =>
      have other : other ≠ paymentHash := fun eq =>
        ne (congrArg _ eq)
      exact congrArg Row.grant (AList.lookup_insert_ne other)

theorem users_of_row {tables tables' : Tables}
    (eq : tables.row (.user npub) = tables'.row (.user npub)) :
    tables.users.lookup npub = tables'.users.lookup npub :=
  Row.user.inj eq

theorem blobs_of_row {tables tables' : Tables}
    (eq : tables.row (.blob hash npub) = tables'.row (.blob hash npub)) :
    tables.blobs.lookup (hash, npub) = tables'.blobs.lookup (hash, npub) :=
  Row.blob.inj eq

theorem grants_of_row {tables tables' : Tables}
    (eq : tables.row (.grant paymentHash) = tables'.row (.grant paymentHash)) :
    tables.grants.lookup paymentHash = tables'.grants.lookup paymentHash :=
  Row.grant.inj eq

/-- What a command that succeeds found, answered and did. -/
inductive Executed (view : Tables) :
    (command : Command) → Answer command → (Tables → Tables) → Prop where
  | lockUser {npub : String} {user : User}
      (found : view.users.lookup npub = some user) :
      Executed view (.lockUser npub) (some user) fun tables => tables
  | lockNobody {npub : String} (absent : view.users.lookup npub = none) :
      Executed view (.lockUser npub) none fun tables => tables
  | createUser {npub : String} (absent : view.users.lookup npub = none) :
      Executed view (.createUser npub) User.fresh (Tables.putUser npub .fresh)
  | updateUser {npub : String} {change : UserChange} {user : User}
      (found : view.users.lookup npub = some user) :
      Executed view (.updateUser npub change) (change.apply user)
        (Tables.putUser npub (change.apply user))
  | createBlob {hash npub : String} {row : BlobRow} {user : User}
      (absent : view.blobs.lookup (hash, npub) = none)
      (found : view.users.lookup npub = some user) :
      Executed view (.createBlob hash npub row) row (Tables.putBlob hash npub row)
  | deleteBlob {hash npub : String} {row : BlobRow}
      (found : view.blobs.lookup (hash, npub) = some row) :
      Executed view (.deleteBlob hash npub) row (Tables.eraseBlob hash npub)
  | dropBlob {hash npub : String} {row : BlobRow}
      (found : view.blobs.lookup (hash, npub) = some row) :
      Executed view (.dropBlob hash npub) true (Tables.eraseBlob hash npub)
  | dropNothing {hash npub : String}
      (absent : view.blobs.lookup (hash, npub) = none) :
      Executed view (.dropBlob hash npub) false fun tables => tables
  | createGrant {paymentHash npub : String}
      (absent : view.grants.lookup paymentHash = none) :
      Executed view (.createGrant paymentHash npub) () (Tables.putGrant paymentHash npub)

variable {command : Command}

section

variable {answer : Answer command} (won : exec command view = .ok (answer, change))
include won

theorem executed_of_exec : Executed view command answer change := by
  cases command with
  | lockUser npub =>
    cases won
    cases found : view.users.lookup npub with
    | some u => exact .lockUser found
    | none => exact .lockNobody found
  | createUser npub =>
    simp only [exec] at won
    split at won
    · cases won
    · rename_i gone
      cases won
      exact .createUser gone
  | updateUser npub userChange =>
    simp only [exec] at won
    split at won
    · rename_i u found
      cases won
      exact .updateUser found
    · cases won
  | createBlob hash npub row =>
    simp only [exec] at won
    split at won
    · cases won
    · rename_i u gone found
      cases won
      exact .createBlob gone found
    · cases won
  | deleteBlob hash npub =>
    simp only [exec] at won
    split at won
    · rename_i row found
      cases won
      exact .deleteBlob found
    · cases won
  | dropBlob hash npub =>
    simp only [exec] at won
    split at won
    · rename_i row found
      cases won
      exact .dropBlob found
    · rename_i gone
      cases won
      exact .dropNothing gone
  | createGrant pay npub =>
    simp only [exec] at won
    split at won
    · cases won
    · rename_i gone
      cases won
      exact .createGrant gone

/-- A command locks nothing and changes nothing, or sets one row it locks. -/
theorem exec_effect : (∀ tables, change tables = tables) ∨
      ∃ key value, key ∈ locks command view ∧ Sets change key value := by
  cases executed_of_exec won with
  | lockUser found | lockNobody gone | dropNothing gone =>
    exact .inl fun _ => rfl
  | createUser gone =>
    exact .inr ⟨_, _, mem_singleton_self _, sets_putUser _ _⟩
  | updateUser found =>
    refine .inr ⟨_, _, ?_, sets_putUser _ _⟩
    simp [locks, found]
  | createBlob gone found =>
    exact .inr ⟨_, _, mem_cons_self, sets_putBlob _ _ _⟩
  | deleteBlob found | dropBlob found =>
    refine .inr ⟨_, _, ?_, sets_eraseBlob _ _⟩
    simp [locks, found]
  | createGrant gone =>
    exact .inr ⟨_, _, mem_singleton_self _, sets_putGrant _ _⟩

/-- A command reads the rows it locks alone. -/
theorem exec_settled (locked : locks command view ≠ []) (view' : Tables)
    (eq : ∀ key ∈ locks command view, view'.row key = view.row key) :
    exec command view' = .ok (answer, change) := by
  cases executed_of_exec won with
  | lockUser found | updateUser found =>
    simp only [locks, found, Option.isSome_some, if_true, forall_mem_singleton] at eq
    simp [exec, users_of_row eq, found]
  | lockNobody gone | dropNothing gone =>
    simp only [locks, gone] at locked
    exact False.elim (locked rfl)
  | createUser gone =>
    simp only [locks, forall_mem_singleton] at eq
    simp [exec, users_of_row eq, gone]
  | createBlob gone found =>
    simp only [locks, forall_mem_cons] at eq
    simp [exec, blobs_of_row eq.1, users_of_row eq.2.1, gone, found]
  | deleteBlob found | dropBlob found =>
    simp only [locks, found, Option.isSome_some, if_true, forall_mem_singleton] at eq
    simp [exec, blobs_of_row eq, found]
  | createGrant gone =>
    simp only [locks, forall_mem_singleton] at eq
    simp [exec, grants_of_row eq, gone]

end

theorem exec_idle {answer : Answer command} (ran : exec command view = .ok (answer, change))
    (idle : locks command view = []) (tables : Tables) :
    change tables = tables := by
  rcases exec_effect ran with eq | ⟨key, v, isLocked, _⟩
  · exact eq tables
  · rw [idle] at isLocked
    cases isLocked

/-- The database of db-api. -/
@[reducible]
def accounts : Database where
  State := Tables
  Key := Key
  keyEq := inferInstance
  Row := Row
  row := Tables.row
  Query := Query
  Reply := Reply
  answer := answer
  Command := Command
  Answer := Answer
  Failure := Failure
  interrupted := .other
  locks := locks
  exec := exec
  frame := by
    intro command view answer change executed key isFree tables
    rcases exec_effect executed with same | ⟨set, value, isLocked, sets⟩
    · rw [same]
    · rw [sets, if_neg]
      rintro rfl
      exact isFree isLocked
  rowwise := by
    intro command view answer change executed key tables tables' same
    rcases exec_effect executed with unchanged | ⟨set, value, _, sets⟩
    · rw [unchanged, unchanged, same]
    · rw [sets, sets, same]
  settled := exec_settled
  idle := exec_idle

/-- A read as a program. -/
def find (query : Query) : Program accounts (Reply query) := .ask query .done

/-- A write as a program. -/
def call (command : Command) : Program accounts (Answer command) := .call command .done

/-! ## Usage -/

namespace Tables

variable {tables tables' : Tables}

/-- A user's usage is that of the user's rows. -/
theorem usage_congr (eq : ∀ hash, tables.row (.blob hash npub) = tables'.row (.blob hash npub)) :
    tables.usage npub = tables'.usage npub := by
  have nodup : ∀ given : Tables, (given.blobs.entries.filter fun entry => entry.1.2 = npub).Nodup :=
    fun given => given.blobs.nodupKeys.nodup.filter _
  refine List.Perm.sum_eq (List.Perm.map _ ?_)
  rw [perm_ext_iff_of_nodup (nodup tables) (nodup tables')]
  rintro ⟨⟨hash, own⟩, row⟩
  rw [mem_filter, mem_filter, ← AList.mem_lookup_iff, ← AList.mem_lookup_iff]
  refine and_congr_left fun owns => ?_
  obtain rfl : own = npub := of_decide_eq_true owns
  rw [blobs_of_row (eq hash)]

theorem usage_putBlob {own : String} {row : BlobRow}
    (gone : tables.blobs.lookup (hash, own) = none) :
    (tables.putBlob hash own row).usage npub =
      tables.usage npub + if own = npub then row.size else 0 := by
  have entries : (tables.putBlob hash own row).blobs.entries =
      ⟨(hash, own), row⟩ :: tables.blobs.entries :=
    AList.entries_insert_of_notMem (AList.lookup_eq_none.mp gone)
  rw [usage, usage, entries, filter_cons]
  by_cases owns : own = npub
  · simp only [owns, decide_true, if_true, map_cons, sum_cons]
    exact Int.add_comm _ _
  · simp [owns]

theorem usage_eraseBlob {own : String} {row : BlobRow}
    (found : tables.blobs.lookup (hash, own) = some row) :
    (tables.eraseBlob hash own).usage npub =
      tables.usage npub - if own = npub then row.size else 0 := by
  have back : ∀ key, ((tables.eraseBlob hash own).putBlob hash own
      row).row key = tables.row key := by
    intro key
    rw [sets_putBlob]
    split
    · rename_i isKey
      rw [isKey]
      exact congrArg Row.blob found.symm
    · rename_i ne
      rw [sets_eraseBlob, if_neg ne]
  have gone : (tables.eraseBlob hash own).blobs.lookup (hash, own) =
      none :=
    AList.lookup_erase _ _
  have pre : ((tables.eraseBlob hash own).putBlob hash own row).usage npub = _ := usage_putBlob gone
  rw [usage_congr fun hash' => back (.blob hash' npub)] at pre
  rw [pre, Int.add_sub_cancel]

end Tables

end StorageOrchestrator.Accounts.Store
