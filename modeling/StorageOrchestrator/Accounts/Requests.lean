import StorageOrchestrator.Accounts.Entitlement

/-!
# The requests of db-api

`POST /blobs`, `DELETE /blobs/:hash`, `DELETE /users/:npub/blobs` and
`POST /users/:npub/entitlement`.  The body of `prisma.$transaction` is a
program over the account tables; what is around it maps the outcome to a
response.  An error inside the body rolls the transaction back.
-/

namespace StorageOrchestrator.Accounts.Requests

open Accounts.Entitlement Accounts.Store Lib.Js Lib.Transactions

inductive Body where
  | error (code : String)
  | blob (blob : Blob) (usedStorage : Int)
  | deleted (usedStorage : Int) (remainingOwners : Nat)
  | purged (blobs : List Blob)
  | user (npub : String) (user : User)
deriving DecidableEq, Repr

structure Response where
  status : Nat
  body : Body
deriving DecidableEq, Repr

def internalError : Response :=
  { status := 500
    body := .error "internal_error" }

/-! ## Uploads -/

def exceedsQuota (current : User) (size : Int) : Bool :=
  match current.storageBytes with
  | some storageBytes => storageBytes < current.usedStorage + size
  | none => false

/-- The transaction of `POST /blobs`. -/
def createBlob (hash npub : String) (size : Int) (replicas : List String) :
    Program accounts (Blob × User) := do
  let locked : Option User ← call (.lockUser npub)
  match locked with
  | none => .fail .p2025
  | some current =>
    let dup : Option BlobRow ← find (.findBlob hash npub)
    if dup.isSome then .fail .alreadyExists
    else if exceedsQuota current size then .fail .quotaExceeded
    else
      let blob : BlobRow ← call (.createBlob hash npub { size := size, replicas := replicas })
      let user : User ← call (.updateUser npub (.increment size))
      return (⟨hash, npub, blob.size, blob.replicas⟩, user)

def createdResponse : Except Failure (Blob × User) → Response
  | .ok (blob, user) => ⟨201, .blob blob user.usedStorage⟩
  | .error .quotaExceeded => ⟨409, .error "quota_exceeded"⟩
  | .error .alreadyExists => ⟨409, .error "already_exists"⟩
  | .error .p2025 => ⟨404, .error "user_not_found"⟩
  | .error .p2002 => ⟨409, .error "already_exists"⟩
  | .error _ => internalError

def postBlobs (hash npub : String) (size : Option Int)
    (replicas : List String) : Process accounts Response :=
  match size with
  | none => .reply internalError
  | some sizeBig =>
    .transaction (createBlob hash npub sizeBig replicas) fun outcome =>
      .reply (createdResponse outcome)

/-! ## Deletions -/

/-- The loop over the rows that were found. -/
def deleteRows (hash : String) : List Blob → Int → Program accounts Int
  | [], lastUsed => return lastUsed
  | row :: rest, _ => do
      let _ ← call (.deleteBlob hash row.npub)
      let user : User ← call (.updateUser row.npub (.decrement row.size))
      deleteRows hash rest user.usedStorage

def deleteFound (hash : String) (rows : List Blob) : Program accounts (Int × Nat) := do
  if rows.isEmpty then .fail .p2025
  else
    let lastUsed ← deleteRows hash rows 0
    let remainingOwners : Nat ← find (.countBlobs ⟨some hash, none⟩)
    return (lastUsed, remainingOwners)

/-- The transaction of `DELETE /blobs/:hash`. -/
def deleteBlob (hash : String) (npub : Option String) (order : Order) :
    Program accounts (Int × Nat) :=
  find (.findBlobs ⟨some hash, npub⟩ order) >>= deleteFound hash

def deletedResponse : Except Failure (Int × Nat) → Response
  | .ok (usedStorage, remainingOwners) =>
    ⟨200, .deleted usedStorage remainingOwners⟩
  | .error .p2025 => ⟨404, .error "not_found"⟩
  | .error _ => internalError

def deleteBlobs (hash : String) (npub : Option String) (all : Bool)
    (order : Order) : Process accounts Response :=
  if npub.getD "" = "" && !all then
    .reply ⟨400, .error "npub_or_all_required"⟩
  else
    .transaction (deleteBlob hash (if all then none else npub) order)
      fun outcome => .reply (deletedResponse outcome)

def dropRows : List Blob → Program accounts Unit
  | [] => return ()
  | row :: rest => do
      let _ ← call (.dropBlob row.hash row.npub)
      dropRows rest

/-- `blob.deleteMany`: finds its rows at the start and locks them in turn. -/
def deleteMany (filter : BlobFilter) (order : Order) : Program accounts Unit :=
  find (.findBlobs filter order) >>= dropRows

def purgeFound (npub : String) (order : Order) (blobs : List Blob) :
    Program accounts (List Blob) := do
  if blobs.isEmpty then return blobs
  else
    deleteMany ⟨none, some npub⟩ order
    let _ ← call (.updateUser npub (.setUsed 0))
    return blobs

/-- The transaction of `DELETE /users/:npub/blobs`. -/
def purgeBlobs (npub : String) (first second : Order) : Program accounts (List Blob) :=
  find (.findBlobs ⟨none, some npub⟩ first) >>= purgeFound npub second

def purgedResponse : Except Failure (List Blob) → Response
  | .ok blobs => ⟨200, .purged blobs⟩
  | .error _ => internalError

def deleteUserBlobs (npub : String) (first second : Order) : Process accounts Response :=
  .transaction (purgeBlobs npub first second) fun outcome =>
    .reply (purgedResponse outcome)

/-! ## Entitlements -/

/-- `user.upsert` with an empty update. -/
def upsertUser (npub : String) : Program accounts User := do
  let found : Option User ← find (.findUser npub)
  match found with
  | some user => return user
  | none => call (.createUser npub)

/-- The payment hash is claimed first, if there is one. -/
def claim (npub : String) : Option String → Program accounts Unit
  | some paymentHash => call (.createGrant paymentHash npub)
  | none => return ()

/-- The update with a computed effect. -/
def writePlan (npub : String) : Except EntitlementError EntitlementEffect → Program accounts User
  | .error error => .fail (.entitlement error.status error.code)
  | .ok effect =>
    match effect.planExpiresAt with
    | none => .fail .other
    | some expiresAt =>
      call (.updateUser npub (.setPlan expiresAt effect.storageBytes))

/-- The transaction of `POST /users/:npub/entitlement`. -/
def grantEntitlement (npub : String) (request : EntitlementRequest)
    (now : Int) : Program accounts User := do
  let current ← upsertUser npub
  claim npub request.paymentHash
  writePlan npub (computeEntitlement current request now)

/-- The current state is reported as that of a repeated payment. -/
def reportUser (npub : String) : Process accounts Response :=
  .ask (.findUser npub) fun (found : Option User) =>
    match found with
    | some user => .reply ⟨200, .user npub user⟩
    | none => .reply internalError

def reportGrant (npub paymentHash : String) : Process accounts Response :=
  .ask (.findGrant paymentHash) fun (existing : Option String) =>
    match existing with
    | some owner =>
      if owner ≠ npub then
        .reply ⟨409, .error "payment_hash_used_by_other_user"⟩
      else reportUser npub
    | none => reportUser npub

def afterGrant (npub : String) (paymentHash : Option String) :
    Except Failure User → Process accounts Response
  | .ok user => .reply ⟨200, .user npub user⟩
  | .error (.entitlement status code) => .reply ⟨status, .error code⟩
  | .error .p2002 =>
    match paymentHash with
    | some paymentHash => reportGrant npub paymentHash
    | none => .reply internalError
  | .error _ => .reply internalError

def postEntitlement (js : Runtime) (npub : String) (body : JsValue ℚ)
    (now : Int) : Process accounts Response :=
  match parseEntitlementRequest js body with
  | .error error => .reply ⟨error.status, .error error.code⟩
  | .ok request =>
    .transaction (grantEntitlement npub request now) (afterGrant npub request.paymentHash)

/-! ## All of them -/

inductive Request where
  /-- The size is what `BigInt(size)` gives, if it does not throw. -/
  | postBlobs (hash npub : String) (size : Option Int) (replicas : List String)
  | deleteBlobs (hash : String) (npub : Option String) (all : Bool)
      (order : Order)
  | deleteUserBlobs (npub : String) (first second : Order)
  /-- With the time at which the effect is computed. -/
  | postEntitlement (npub : String) (body : JsValue ℚ) (now : Int)

def handler (js : Runtime) : Request → Process accounts Response
  | .postBlobs hash npub size replicas =>
    Requests.postBlobs hash npub size replicas
  | .deleteBlobs hash npub all order =>
    Requests.deleteBlobs hash npub all order
  | .deleteUserBlobs npub first second =>
    Requests.deleteUserBlobs npub first second
  | .postEntitlement npub body now =>
    Requests.postEntitlement js npub body now

/-- The statements of a client, one after the other. -/
def advances (number count : Nat) : List (Move Request) := List.replicate count (.advance number)

/-- One user with an allowance and no blobs. -/
def oneUser : Tables :=
  Tables.empty.putUser "alice"
    { planExpiresAt := none
      storageBytes := some 100
      usedStorage := 0 }

end StorageOrchestrator.Accounts.Requests
