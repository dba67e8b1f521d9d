import Mathlib

/-!
# The blob tables behind db-api

One function per db-api request the Blossom proxy makes: `GET /blobs/:hash`,
`POST /blobs`, `DELETE /blobs/:hash` and the first page of
`GET /users/:npub/blobs`.  Each request is one transaction.
-/

namespace StorageOrchestrator.Blossom.BlobStore

open List

variable {hash : String} {next : Database}

/-- The billing columns of a user row; no quota is `none`. -/
structure User where
  npub : String
  usedStorage : Int
  storageBytes : Option Int
deriving DecidableEq, Repr

/-- A row of the blob table, keyed by hash and owner. -/
structure BlobRow where
  hash : String
  npub : String
  size : Nat
  replicas : List String
  createdAt : Nat
deriving DecidableEq, Repr

/-- The tables the blob routes read and write. -/
structure Database where
  users : List User
  blobs : List BlobRow
deriving DecidableEq, Repr

/-- The owner rows of a hash, oldest first. -/
def Database.rowsOf (db : Database) (hash : String) : List BlobRow :=
  (db.blobs.filter fun row => row.hash = hash).insertionSort
    fun left right => left.createdAt ≤ right.createdAt

/-- The answer of `GET /blobs/:hash`. -/
structure BlobInfo where
  row : BlobRow
  owners : List String
deriving DecidableEq, Repr

/-- The oldest row stands for the blob; `none` is a 404. -/
def getBlob (db : Database) (hash : String) : Option BlobInfo :=
  match db.rowsOf hash with
  | [] => none
  | first :: rest =>
    some
      { row := first
        owners := (first :: rest).map BlobRow.npub }

/-- Why `POST /blobs` refuses. -/
inductive CreateError where
  | userNotFound
  | alreadyExists
  | quotaExceeded
deriving DecidableEq, Repr

/-- Change the usage of one user. -/
def billed (users : List User) (npub : String) (size : Int) : List User :=
  users.map fun user =>
    if user.npub = npub then
      { user with usedStorage := user.usedStorage + size }
    else user

/-- `POST /blobs`. -/
def createBlob (db : Database) (row : BlobRow) : Except CreateError Database :=
  match db.users.find? fun user => user.npub = row.npub with
  | none => .error .userNotFound
  | some current =>
    if db.blobs.any fun other =>
        other.hash = row.hash && other.npub = row.npub then
      .error .alreadyExists
    else if current.storageBytes.any fun quota =>
        quota < current.usedStorage + row.size then
      .error .quotaExceeded
    else
      .ok
        { users := billed db.users row.npub row.size
          blobs := db.blobs ++ [row] }

/-- Which owner rows `DELETE /blobs/:hash` removes. -/
inductive Scope where
  | owner (npub : String)
  | all
deriving DecidableEq, Repr

/-- The row belongs to the hash and to the scope of the request. -/
def Scope.selects (scope : Scope) (hash : String) (row : BlobRow) : Bool :=
  match scope with
  | .owner npub => row.hash = hash && row.npub = npub
  | .all => row.hash = hash

/-- `DELETE /blobs/:hash` with the owners left; `none` is a 404. -/
def deleteBlob (db : Database) (hash : String) (scope : Scope) : Option (Database × Nat) :=
  match db.blobs.filter (scope.selects hash) with
  | [] => none
  | first :: rest =>
    let kept := db.blobs.filter fun row => !scope.selects hash row
    let users := (first :: rest).foldl (fun users row => billed users row.npub (-row.size)) db.users
    some ({ users := users, blobs := kept },
        (kept.filter fun row => row.hash = hash).length)

/-- The first page of `GET /users/:npub/blobs`, newest first. -/
def listUserBlobs (db : Database) (npub : String) : List BlobRow :=
  ((db.blobs.filter fun row => row.npub = npub).insertionSort
    fun left right => right.createdAt ≤ left.createdAt).take 100

/-! ## What the requests leave -/

theorem mem_rowsOf_iff (db : Database) (hash : String) (row : BlobRow) :
    row ∈ db.rowsOf hash ↔ row ∈ db.blobs ∧ row.hash = hash := by
  simp [Database.rowsOf, mem_insertionSort]

variable {db : Database}

/-- The row that stands for a blob is one of its owner rows. -/
theorem getBlob_row_mem (found : getBlob db hash = some info) :
    info.row ∈ db.blobs ∧ info.row.hash = hash := by
  simp only [getBlob] at found
  split at found
  · cases found
  · rename_i first rest rows
    cases found
    rw [← mem_rowsOf_iff, rows]
    exact mem_cons_self

/-- A 404 means that no account owns the hash. -/
theorem getBlob_eq_none (lacks : getBlob db hash = none) : ∀ row ∈ db.blobs, row.hash ≠ hash := by
  intro row mem eq
  simp only [getBlob] at lacks
  split at lacks
  · rename_i rows
    have has := (mem_rowsOf_iff db hash row).mpr ⟨mem, eq⟩
    rw [rows] at has
    cases has
  · cases lacks

theorem createBlob_blobs (made : createBlob db row = .ok next) :
    next.blobs = db.blobs ++ [row] := by
  simp only [createBlob] at made
  split at made
  · cases made
  · split at made
    · cases made
    · split at made
      · cases made
      · cases made
        rfl

theorem deleteBlob_eq_some (gone : deleteBlob db hash scope = some (next, left)) :
    next.blobs = db.blobs.filter (fun row => !scope.selects hash row) ∧
      left = (next.blobs.filter fun row => row.hash = hash).length := by
  simp only [deleteBlob] at gone
  split at gone
  · cases gone
  · cases gone
    exact ⟨rfl, rfl⟩

/-- A request that reports no owner left leaves no row of the hash. -/
theorem deleteBlob_zero (gone : deleteBlob db hash scope = some (next, 0)) :
    ∀ row ∈ next.blobs, row.hash ≠ hash := by
  intro row mem eq
  have sums := (deleteBlob_eq_some gone).2
  have empty := length_eq_zero_iff.mp sums.symm
  have has : row ∈ next.blobs.filter fun row => row.hash = hash :=
    mem_filter.mpr ⟨mem, by simpa using eq⟩
  rw [empty] at has
  cases has

theorem deleteBlob_subset (gone : deleteBlob db hash scope = some (next, left)) :
    next.blobs ⊆ db.blobs := by
  intro row mem
  rw [(deleteBlob_eq_some gone).1] at mem
  exact (mem_filter.mp mem).1

/-! ### Accounts -/

/-- The accounts with a user row. -/
def Database.npubs (db : Database) : List String := db.users.map User.npub

theorem npubs_billed (users : List User) (npub : String) (size : Int) :
    (billed users npub size).map User.npub = users.map User.npub := by
  rw [billed, map_map]
  apply map_congr_left
  intro u mem
  simp only [Function.comp_apply]
  split <;> rfl

theorem npubs_createBlob (made : createBlob db row = .ok next) : next.npubs = db.npubs := by
  simp only [createBlob] at made
  split at made
  · cases made
  · split at made
    · cases made
    · split at made
      · cases made
      · cases made
        exact npubs_billed _ _ _

theorem npubs_deleteBlob (gone : deleteBlob db hash scope = some (next, left)) :
    next.npubs = db.npubs := by
  have refunded : ∀ (rows : List BlobRow) (users : List User),
      (rows.foldl (fun users row => billed users row.npub (-row.size))
        users).map User.npub = users.map User.npub := by
    intro rows
    induction rows with
    | nil =>
      intro users
      rfl
    | cons row rest ih =>
      intro users
      rw [foldl_cons, ih, npubs_billed]
  simp only [deleteBlob] at gone
  split at gone
  · cases gone
  · cases gone
    exact refunded _ _

end StorageOrchestrator.Blossom.BlobStore
