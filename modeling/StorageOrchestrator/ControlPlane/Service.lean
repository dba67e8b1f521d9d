import StorageOrchestrator.Lib.Decimal
import StorageOrchestrator.Lib.Mutex
import StorageOrchestrator.Lib.UniqueRows

/-!
# The control plane

The service keeps the members of the mesh and their storage machines in two
tables of the db-api.  Its handlers read and write them one database call at a
time; `members::upsert`, `members::remove` and `storage::link` hold the admin
mutation lock from their first database call after authorization to the end.
Pings, capacity changes, storage removals and the reaper of pending storages
run without it.

An event carries what the environment decides about a call: the clock, the
peers nvpn reports, and whether the call fails, with or without effect.
-/

namespace StorageOrchestrator.ControlPlane

open Lib Lib.Mutex

/-! ## Records -/

/-- What a member may do. -/
inductive MemberRole where
  | client
  | admin
deriving DecidableEq, Repr

/-- Revoked members stay in the table. -/
inductive MemberStatus where
  | active
  | revoked
deriving DecidableEq, Repr

/-- Removed storages stay in the table. -/
inductive StorageLifecycle where
  | linked
  | removed
deriving DecidableEq, Repr

/-- A row of the members table. -/
structure Member where
  npub : String
  role : MemberRole
  status : MemberStatus
  addedByNpub : Option String
deriving DecidableEq, Repr

/-- Give a member a role and make it active. -/
def Member.grant (role : MemberRole) : RowChange Member.npub :=
  ⟨fun member => { member with role, status := .active }, fun _ => rfl⟩

/-- Revoke a member, whatever its role. -/
def Member.revoke : RowChange Member.npub :=
  ⟨fun member => { member with status := .revoked }, fun _ => rfl⟩

/-- The member may administer. -/
def Member.isActiveAdmin (member : Member) : Bool :=
  member.status == .active && member.role == .admin

/-- A row of the storages table; byte counts are unsigned. -/
structure Storage where
  npub : String
  ownerNpub : String
  tunnelIp : Option String
  blossomPort : Option Nat
  declaredCapacityBytes : Option Nat
  reportedTotalBytes : Option Nat
  reportedFreeBytes : Option Nat
  lifecycle : StorageLifecycle
  lastPingAt : Option Int
  createdAt : Int
deriving DecidableEq, Repr

/-- A body of `PATCH /storages/:npub`: absent fields stay, and `some none` is
`null`.  The route refuses a body that names an owner. -/
structure StoragePatch where
  tunnelIp : Option (Option String) := none
  blossomPort : Option (Option Nat) := none
  declaredCapacityBytes : Option Nat := none
  reportedTotalBytes : Option Nat := none
  reportedFreeBytes : Option Nat := none
  lifecycle : Option StorageLifecycle := none
  lastPingAt : Option (Option Int) := none
  createdAt : Option Int := none
deriving DecidableEq, Repr

/-- The fields that the patch has replace those of the row. -/
def StoragePatch.apply (patch : StoragePatch) (storage : Storage) : Storage :=
  { storage with
    tunnelIp := patch.tunnelIp.getD storage.tunnelIp
    blossomPort := patch.blossomPort.getD storage.blossomPort
    declaredCapacityBytes := patch.declaredCapacityBytes.or storage.declaredCapacityBytes
    reportedTotalBytes := patch.reportedTotalBytes.or storage.reportedTotalBytes
    reportedFreeBytes := patch.reportedFreeBytes.or storage.reportedFreeBytes
    lifecycle := patch.lifecycle.getD storage.lifecycle
    lastPingAt := patch.lastPingAt.getD storage.lastPingAt
    createdAt := patch.createdAt.getD storage.createdAt }

/-- A patch keeps the key of its row. -/
def StoragePatch.change (patch : StoragePatch) : RowChange Storage.npub :=
  ⟨patch.apply, fun _ => rfl⟩

/-- The byte counts of a patch fit their `bigint` columns. -/
def StoragePatch.fits (patch : StoragePatch) : Bool :=
  [patch.declaredCapacityBytes, patch.reportedTotalBytes,
    patch.reportedFreeBytes].all fun value => value.all (· < 2 ^ 63)

/-- A peer in the status of nvpn. -/
structure NvpnPeer where
  fipsEndpointNpub : String
  tunnelIp : String
  reachable : Bool
deriving DecidableEq, Repr

/-! ## Errors -/

/-- An error as a route answers it. -/
structure ApiError where
  status : Nat
  code : String
  message : String
deriving DecidableEq, Repr

namespace ApiError

def forbidden (message : String) : ApiError :=
  ⟨403, "forbidden", message⟩

def badRequest (message : String) : ApiError :=
  ⟨400, "bad_request", message⟩

def notFound (message : String) : ApiError :=
  ⟨404, "not_found", message⟩

def conflict (message : String) : ApiError :=
  ⟨409, "conflict", message⟩

def unprocessable (message : String) : ApiError :=
  ⟨422, "invalid_report", message⟩

def badGateway (message : String) : ApiError :=
  ⟨502, "upstream_failure", message⟩

/-- How an error prints. -/
def display (error : ApiError) : String :=
  error.code ++ ": " ++ error.message

end ApiError

/-- A database error the db-api does not handle. -/
def serverError : ApiError :=
  .badGateway "db-api returned HTTP 500 Internal Server Error"

/-- A missing row is answered with 404. -/
def fetched {Row : Type} : Option Row → Except ApiError Row
  | some row => .ok row
  | none => .error (.notFound "db-api record was not found")

/-! ## Calls -/

/-- The two tables, each with one row for a key. -/
structure Store where
  members : UniqueRows Member.npub
  storages : UniqueRows Storage.npub

/-- A call of the db client, of nvpn or of the clock.  `POST /storages` makes
several queries, `findStorage`, `insertStorage` and `relinkStorage`. -/
inductive Call where
  | getMember (npub : String)
  | listMembers
  | putMember (npub : String) (role : MemberRole) (addedByNpub : Option String)
  | revokeMember (npub : String)
  | getStorage (npub : String)
  | listStorages (ownerNpub : Option String)
  | findStorage (npub : String)
  | insertStorage (npub ownerNpub : String)
  | relinkStorage (npub ownerNpub : String)
  | patchStorage (npub : String) (patch : StoragePatch)
  | removeStorage (npub : String)
  | backfillReplicas
  | addDeviceAndReload (npub : String)
  | removeDeviceAndReload (npub : String)
  | cachedPeers
  | now
deriving DecidableEq, Repr

/-- What a call returns. -/
@[reducible]
def Call.Value : Call → Type
  | .getMember _ => Option Member
  | .listMembers => List Member
  | .putMember _ _ _ | .revokeMember _ => Member
  | .getStorage _ => Option Storage
  | .listStorages _ => List Storage
  | .findStorage _ | .insertStorage _ _ => Option Storage
  | .relinkStorage _ _ | .patchStorage _ _ | .removeStorage _ => Storage
  | .backfillReplicas | .addDeviceAndReload _ | .removeDeviceAndReload _ => Unit
  | .cachedPeers => List NvpnPeer
  | .now => Int

/-- The calls that go to the db-api. -/
def Call.isDatabase : Call → Bool
  | .addDeviceAndReload _ | .removeDeviceAndReload _ | .cachedPeers | .now => false
  | _ => true

/-- A call that fails, with its effect or without. -/
structure Fault where
  executed : Bool
  error : ApiError
deriving DecidableEq, Repr

/-- What the environment decides about a call. -/
structure Outcome where
  time : Int
  peers : List NvpnPeer
  fault : Option Fault
deriving DecidableEq, Repr

/-- `PUT /members/:npub`. -/
def putMember (store : Store) (npub : String) (role : MemberRole)
    (addedByNpub : Option String) : Store :=
  { store with
    members := store.members.put ⟨npub, role, .active, addedByNpub⟩ (Member.grant role) }

/-- `DELETE /members/:npub`. -/
def revokeMember (store : Store) (npub : String) : Store :=
  { store with members := store.members.update npub Member.revoke }

/-- `PATCH /storages/:npub`. -/
def patchStorage (store : Store) (npub : String) (patch : StoragePatch) : Store :=
  { store with storages := store.storages.update npub patch.change }

/-- The row that a link inserts. -/
def newStorage (npub ownerNpub : String) (time : Int) : Storage :=
  { npub, ownerNpub
    tunnelIp := none
    blossomPort := none
    declaredCapacityBytes := none
    reportedTotalBytes := none
    reportedFreeBytes := none
    lifecycle := .linked
    lastPingAt := none
    createdAt := time }

/-- What a call does and answers when it goes through. -/
def answer (store : Store) (outcome : Outcome) : (call : Call) → Store × Except ApiError call.Value
  | .getMember npub => (store, .ok (store.members.find npub))
  | .listMembers => (store, .ok store.members.rows)
  | .putMember npub role addedByNpub =>
    let after := putMember store npub role addedByNpub
    (after, fetched (after.members.find npub))
  | .revokeMember npub =>
    let after := revokeMember store npub
    (after, fetched (after.members.find npub))
  | .getStorage npub => (store, .ok (store.storages.find npub))
  | .listStorages ownerNpub =>
    (store, .ok (store.storages.rows.filter fun storage =>
      ownerNpub.all (storage.ownerNpub == ·)))
  | .findStorage npub => (store, .ok (store.storages.find npub))
  | .insertStorage npub ownerNpub =>
    let storage := newStorage npub ownerNpub outcome.time
    match store.storages.insert storage with
    | none => (store, .ok none)
    | some storages =>
      if (store.members.find ownerNpub).isSome then
        ({ store with storages }, .ok (some storage))
      else (store, .error serverError)
  | .relinkStorage npub ownerNpub =>
    match store.storages.find npub with
    | some storage =>
      if storage.ownerNpub = ownerNpub then
        let after := patchStorage store npub { lifecycle := some .linked }
        (after, fetched (after.storages.find npub))
      else (store, .error serverError)
    | none => (store, .error serverError)
  | .patchStorage npub patch =>
    if patch.fits then
      let after := patchStorage store npub patch
      (after, fetched (after.storages.find npub))
    else (store, .error serverError)
  | .removeStorage npub =>
    let after := patchStorage store npub { lifecycle := some .removed }
    (after, fetched (after.storages.find npub))
  | .backfillReplicas | .addDeviceAndReload _ | .removeDeviceAndReload _ => (store, .ok ())
  | .cachedPeers => (store, .ok outcome.peers)
  | .now => (store, .ok outcome.time)

/-- A call as the environment lets it end; the clock always answers. -/
def perform (store : Store) (call : Call) (outcome : Outcome) :
    Store × Except ApiError call.Value :=
  match outcome.fault with
  | none => answer store outcome call
  | some fault =>
    if call = .now then answer store outcome call
    else
      (if fault.executed then (answer store outcome call).1 else store, .error fault.error)

/-- The calls as a service of the mutex. -/
abbrev service : Service where
  Store := Store
  Call := Call
  Reply := fun call => Except ApiError call.Value
  Outcome := Outcome
  perform := perform

/-- A handler may fail with an error of the API. -/
abbrev Handler := Task service ApiError

/-- A call whose error ends the handler. -/
def ask (call : Call) : Handler call.Value :=
  .invoke call fun reply =>
    match reply with
    | .ok value => .finish value
    | .error error => .fail error

/-- Link the owner's storage again. -/
def reactivate (npub ownerNpub : String) (existing : Storage) : Handler Storage :=
  if existing.ownerNpub = ownerNpub then ask (.relinkStorage npub ownerNpub)
  else .fail (.conflict "db-api rejected a conflicting record")

/-- `POST /storages`. -/
def createStorage (npub ownerNpub : String) : Handler Storage := do
  match ← ask (.findStorage npub) with
  | some existing => reactivate npub ownerNpub existing
  | none =>
    match ← ask (.insertStorage npub ownerNpub) with
    | some storage => pure storage
    | none =>
      match ← ask (.findStorage npub) with
      | some existing => reactivate npub ownerNpub existing
      | none => .fail serverError

/-! ## Authorization -/

/-- Only active members pass. -/
def activeMember (npub : String) : Handler Member := do
  match ← ask (.getMember npub) with
  | some member =>
    if member.status = .active then pure member
    else .fail (.forbidden "an active member is required")
  | none => .fail (.forbidden "an active member is required")

/-- Only active administrators pass. -/
def admin (npub : String) : Handler Member := do
  let member ← activeMember npub
  if member.role ≠ .admin then
    .fail (.forbidden "an active administrator is required")
  else pure member

/-- Only linked storages pass. -/
def linkedStorage (npub : String) : Handler Storage := do
  match ← ask (.getStorage npub) with
  | some storage =>
    if storage.lifecycle = .linked then pure storage
    else .fail (.forbidden "storage has been removed")
  | none => .fail (.notFound "storage is not linked")

/-- Only the owner and administrators pass. -/
def authorizeOwnerOrAdmin (caller storageNpub : String) : Handler Storage := do
  let member ← activeMember caller
  match ← ask (.getStorage storageNpub) with
  | none => .fail (.notFound "storage was not found")
  | some storage =>
    if member.role ≠ .admin ∧ storage.ownerNpub ≠ caller then
      .fail (.forbidden "storage owner or administrator required")
    else pure storage

/-! ## Requests -/

/-- The body of an upsert. -/
structure UpsertRequest where
  npub : String
  role : MemberRole
deriving DecidableEq, Repr

/-- What a storage reports of itself; byte counts are texts. -/
structure PingRequest where
  blossomPort : Nat
  reportedTotalBytes : String
  reportedFreeBytes : String
deriving DecidableEq, Repr

/-- A signed request, or a round of the reaper.  A body is `none` when it does
not parse. -/
inductive Request where
  | upsert (caller : String) (body : Option UpsertRequest)
  | removeMember (caller : String) (body : Option String)
  | link (caller : String) (body : Option String)
  | ping (signer : String) (body : Option PingRequest)
  | capacity (pathNpub caller : String) (body : Option String)
  | removeStorage (pathNpub caller : String) (emptyBody : Bool)
  | reapPending
deriving DecidableEq, Repr

/-- What a handler answers. -/
inductive Response where
  | member (member : Member)
  | memberRemoved (npub : String) (storagesRemoved : Nat)
  | storage (storage : Storage)
  | pingAccepted
  | storageRemoved (npub : String)
  | reaped
deriving DecidableEq, Repr

/-- What the handlers take from their configuration and from libraries. -/
structure Setting where
  /-- The text is the canonical NIP-19 form of a public key. -/
  isCanonicalNpub : String → Bool
  /-- Parse an IP address and print it again. -/
  parseIp : String → Option String
  inPrivateCidr : String → Bool
  pendingReapGrace : Int

/-- Refuse a key in another form. -/
def canonicalNpub (setting : Setting) (value : String) : Handler String :=
  if setting.isCanonicalNpub value then pure value
  else .fail (.badRequest "npub must be a full canonical NIP-19 public key")

/-- Refuse a body that does not parse. -/
def parsed {Body : Type} (message : String) : Option Body → Handler Body
  | some body => pure body
  | none => .fail (.badRequest message)

/-- Ports below 1024 are refused. -/
def validPort (value : Nat) : Handler Nat :=
  if 1024 ≤ value ∧ value ≤ 65535 then pure value
  else .fail (.badRequest "storage ports must be between 1024 and 65535")

/-- A decimal text of 64 bits. -/
def decimalU64 (value field : String) : Handler Nat :=
  if value.isEmpty then .fail (.badRequest (field ++ " must be a decimal string"))
  else
    match Decimal.digitsValue value.toList with
    | none => .fail (.badRequest (field ++ " must be a decimal string"))
    | some number =>
      if number < 2 ^ 64 then pure number
      else .fail (.badRequest (field ++ " is too large"))

/-- The address before the slash. -/
def parseTunnelIp (setting : Setting) (value : String) : Handler String :=
  match setting.parseIp (String.ofList (value.toList.takeWhile (· != '/'))) with
  | some address => pure address
  | none =>
    .fail (.unprocessable "host nvpn status returned an invalid tunnel IP")

/-! ## Members -/

/-- The table must list another active administrator. -/
def ensureNotLastActiveAdmin (target : String) : Handler Unit := do
  let members ← ask .listMembers
  if (members.filter Member.isActiveAdmin).length ≤ 1 then
    .fail (.conflict (target ++ " is the last active administrator"))
  else pure ()

/-- The part of `upsert` under the lock. -/
def upsertLocked (caller target : String) (newRole : MemberRole) : Handler Response := do
  let existing ← ask (.getMember target)
  if existing.any Member.isActiveAdmin && newRole == .client then
    ensureNotLastActiveAdmin target
  let member ← ask (.putMember target newRole (some caller))
  pure (.member member)

/-- Add a member, or give it a role. -/
def upsert (setting : Setting) (caller : String) (body : Option UpsertRequest) :
    Handler Response := do
  let _ ← admin caller
  let request ← parsed "invalid member JSON body" body
  let target ← canonicalNpub setting request.npub
  Task.acquire
  upsertLocked caller target request.role

/-- Remove the storages of a revoked member, going on past failures. -/
def detach : List Storage → Nat → List String → Handler (Nat × List String)
  | [], removed, failures => pure (removed, failures)
  | storage :: rest, removed, failures => do
      match ← Task.call (Call.removeStorage storage.npub) with
      | .error error =>
        detach rest removed
          (failures ++ [storage.npub ++ " lifecycle: " ++ error.display])
      | .ok _ =>
        match ← Task.call (Call.removeDeviceAndReload storage.npub) with
        | .error error =>
          detach rest (removed + 1)
            (failures ++ [storage.npub ++ " mesh: " ++ error.display])
        | .ok _ => detach rest (removed + 1) failures

/-- The part of `remove` after the revocation. -/
def cleanUp (target : String) : Handler Response := do
  let storages ← ask (.listStorages (some target))
  let (removed, failures) ←
    detach (storages.filter (·.lifecycle == .linked)) 0 []
  if failures.isEmpty then pure (.memberRemoved target removed)
  else
    .fail (.badGateway ("member revoked and " ++ toString removed ++
      " storage lifecycle(s) removed, but cleanup was partial: " ++
      "; ".intercalate failures))

/-- The part of `remove` under the lock: authority is revoked first. -/
def removeMemberLocked (target : String) : Handler Response := do
  let found ← ask (.getMember target)
  match found with
  | none => .fail (.notFound "member was not found")
  | some member =>
    if member.isActiveAdmin then
      ensureNotLastActiveAdmin target
    let _ ← ask (.revokeMember target)
    cleanUp target

/-- Revoke a member and detach its storages. -/
def removeMember (setting : Setting) (caller : String) (body : Option String) :
    Handler Response := do
  let _ ← admin caller
  let npub ← parsed "invalid member removal JSON body" body
  let target ← canonicalNpub setting npub
  if caller = target then
    .fail (.conflict "administrators cannot revoke themselves")
  else
    Task.acquire
    removeMemberLocked target

/-! ## Storages -/

/-- The record of a link: reactivate the caller's storage or create it. -/
def linkRecord (caller npub : String) : Handler Storage := do
  match ← ask (.getStorage npub) with
  | some storage =>
    if storage.ownerNpub ≠ caller then
      .fail (.conflict
        "storage identities cannot be reassigned to another member")
    else
      let time ← ask .now
      ask (.patchStorage npub
        { lifecycle := some .linked
          tunnelIp := some none
          blossomPort := some none
          lastPingAt := some none
          createdAt := some time })
  | none => createStorage npub caller

/-- Enroll a linked storage in the mesh, or take the link back; the error of a
failed rollback is only logged. -/
def enroll (npub : String) (storage : Storage) : Handler Response := do
  match ← Task.call (Call.addDeviceAndReload npub) with
  | .error error =>
    let _ ← Task.call (Call.removeStorage npub)
    .fail (.badGateway
      ("mesh add/reload failed and the storage link was rolled back: " ++
        error.display))
  | .ok _ => pure (.storage storage)

/-- The part of `link` under the lock. -/
def linkLocked (caller npub : String) : Handler Response := do
  let _ ← activeMember caller
  let storage ← linkRecord caller npub
  enroll npub storage

/-- Link a storage to its owner. -/
def link (setting : Setting) (caller : String) (body : Option String) : Handler Response := do
  let value ← parsed "invalid storage JSON body" body
  let npub ← canonicalNpub setting value
  Task.acquire
  linkLocked caller npub

/-- The tunnel address nvpn reports for the signer. -/
def resolveTunnelIp (setting : Setting) (signer : String) : Handler String := do
  let peers ← ask .cachedPeers
  match peers.find? (·.fipsEndpointNpub == signer) with
  | none =>
    .fail (.unprocessable "signing npub is absent from host nvpn status")
  | some peer =>
    if peer.reachable then
      let tunnelIp ← parseTunnelIp setting peer.tunnelIp
      if setting.inPrivateCidr tunnelIp then pure tunnelIp
      else
        .fail (.unprocessable
          "host-resolved tunnel IP is outside NVPN_PRIVATE_CIDR")
    else
      .fail (.unprocessable
        "signing storage is not reachable in host nvpn status")

/-- A storage reports in; a first ping starts a backfill. -/
def ping (setting : Setting) (signer : String) (body : Option PingRequest) : Handler Response := do
  let storage ← linkedStorage signer
  let report ← parsed "invalid storage ping JSON body" body
  let blossomPort ← validPort report.blossomPort
  let total ← decimalU64 report.reportedTotalBytes "reportedTotalBytes"
  let free ← decimalU64 report.reportedFreeBytes "reportedFreeBytes"
  if total < free then
    .fail (.badRequest "reportedFreeBytes cannot exceed reportedTotalBytes")
  else
    let _ ← ask (.patchStorage signer
      { reportedTotalBytes := some total, reportedFreeBytes := some free })
    let tunnelIp ← resolveTunnelIp setting signer
    let time ← ask .now
    let _ ← ask (.patchStorage signer
      { tunnelIp := some (some tunnelIp)
        blossomPort := some (some blossomPort)
        reportedTotalBytes := some total
        reportedFreeBytes := some free
        lastPingAt := some (some time) })
    if storage.lastPingAt.isNone then
      let _ ← Task.call Call.backfillReplicas
    pure .pingAccepted

/-- Declare the capacity of a storage. -/
def capacity (setting : Setting) (pathNpub caller : String)
    (body : Option String) : Handler Response := do
  let npub ← canonicalNpub setting pathNpub
  let _ ← authorizeOwnerOrAdmin caller npub
  let declared ← parsed "invalid capacity JSON body" body
  let capacity ← decimalU64 declared "declaredCapacityBytes"
  let storage ← ask (.patchStorage npub { declaredCapacityBytes := some capacity })
  pure (.storage storage)

/-- Remove a storage and its device. -/
def removeStorage (setting : Setting) (pathNpub caller : String)
    (emptyBody : Bool) : Handler Response := do
  let npub ← canonicalNpub setting pathNpub
  if emptyBody then
    let _ ← authorizeOwnerOrAdmin caller npub
    let _ ← ask (.removeStorage npub)
    match ← Task.call (Call.removeDeviceAndReload npub) with
    | .error error =>
      .fail (.badGateway
        ("storage lifecycle is removed, but mesh remove/reload failed: " ++
          error.display))
    | .ok _ => pure (.storageRemoved npub)
  else .fail (.badRequest "expected an empty JSON object")

/-- Remove storages; a failed mesh removal is only logged. -/
def reapEach : List Storage → Handler Unit
  | [] => pure ()
  | storage :: rest => do
      let _ ← ask (.removeStorage storage.npub)
      let _ ← Task.call (Call.removeDeviceAndReload storage.npub)
      reapEach rest

/-- Storages that were linked long ago and never pinged. -/
def isStale (cutoff : Int) (storage : Storage) : Bool :=
  storage.lifecycle == .linked && storage.lastPingAt.isNone &&
    decide (storage.createdAt < cutoff)

/-- A round of the reaper. -/
def reapPending (setting : Setting) : Handler Response := do
  let time : Int ← ask .now
  let storages ← ask (.listStorages none)
  reapEach (storages.filter (isStale (time - setting.pendingReapGrace)))
  pure .reaped

/-! ## The system -/

/-- The routes, and the reaper. -/
def handler (setting : Setting) : Request → Handler Response
  | .upsert caller body => upsert setting caller body
  | .removeMember caller body => removeMember setting caller body
  | .link caller body => link setting caller body
  | .ping signer body => ping setting signer body
  | .capacity pathNpub caller body => capacity setting pathNpub caller body
  | .removeStorage pathNpub caller emptyBody =>
    removeStorage setting pathNpub caller emptyBody
  | .reapPending => reapPending setting

/-- The control plane at work. -/
abbrev System := World service ApiError Response Request

/-- What can happen to it. -/
abbrev Happening := Event Request Outcome

/-- No request is under way. -/
def start (store : Store) : System := World.start store

/-- One event. -/
def step (setting : Setting) : System → Happening → Option System := Mutex.step (handler setting)

/-! ## What runs without the lock -/

/-- The calls made without the lock: no member changes and no storage is
created or linked. -/
def Call.isFree : Call → Bool
  | .putMember _ _ _ | .revokeMember _ | .insertStorage _ _ | .relinkStorage _ _ => false
  | .patchStorage _ patch => patch.lifecycle.isNone
  | _ => true

theorem makes_ask (made : calls call) : (ask call).Makes calls := by
  refine ⟨made, fun ans => ?_⟩
  cases ans <;> trivial

theorem makes_call (made : calls call) : (Task.call call : Handler _).Makes calls :=
  ⟨made, fun _ => trivial⟩

theorem ensures_ask {d : Discipline service Request} {req : Request}
    {call : Call} {post : call.Value → Store → Prop} {store : Store}
    (suspended : d.cancels → d.settled store)
    (ans : ∀ later, d.outside store later → ∀ out, d.admits call out →
      d.inside req later (perform later call out).1 ∧ (∀ v, (perform later call out).2 = .ok v →
      post v (perform later call out).1) ∧
      ∀ error, (perform later call out).2 = .error error →
      d.settled (perform later call out).1) :
    (ask call).Ensures d req post store := by
  refine ⟨suspended, fun later moved out fits => ?_⟩
  have got := ans later moved out fits
  refine ⟨got.1, ?_⟩
  cases isReply : (perform later call out).2 with
  | ok v =>
    have h := got.2.1 v isReply
    simpa [service, isReply, Task.Ensures] using h
  | error error =>
    have h := got.2.2 error isReply
    simpa [service, isReply, Task.Ensures] using h

theorem ensures_call {d : Discipline service Request} {req : Request}
    {call : Call} {post : Except ApiError call.Value → Store → Prop}
    {store : Store} (suspended : d.cancels → d.settled store)
    (ans : ∀ later, d.outside store later → ∀ outcome, d.admits call outcome →
      d.inside req later (perform later call outcome).1 ∧
      post (perform later call outcome).2 (perform later call outcome).1) :
    (Task.call call : Handler _).Ensures d req post store :=
  ⟨suspended, ans⟩

section

variable {calls : Call → Prop} (free : ∀ call : Call, call.isFree = true → calls call)

include free

theorem makes_activeMember (npub : String) : (activeMember npub).Makes calls := by
  refine (makes_ask (free _ rfl)).bind fun found => ?_
  split
  · split <;> trivial
  · trivial

theorem makes_admin (npub : String) : (admin npub).Makes calls := by
  refine (makes_activeMember free npub).bind fun mem => ?_
  split <;> trivial

theorem makes_authorizeOwnerOrAdmin (who npub : String) :
    (authorizeOwnerOrAdmin who npub).Makes calls := by
  refine (makes_activeMember free who).bind fun mem => ?_
  refine (makes_ask (free _ rfl)).bind fun found => ?_
  split
  · trivial
  · split <;> trivial

omit free in
theorem makes_canonicalNpub (setting : Setting) (v : String) :
    (canonicalNpub setting v).Makes calls := by
  rw [canonicalNpub]
  split <;> trivial

omit free in
theorem makes_parsed {Body : Type} (msg : String) (body : Option Body) :
    (parsed msg body).Makes calls := by
  cases body <;> trivial

omit free in
theorem makes_decimalU64 (v field : String) : (decimalU64 v field).Makes calls := by
  rw [decimalU64]
  split
  · trivial
  · split
    · trivial
    · split <;> trivial

section

variable (setting : Setting)
include setting

theorem makes_resolveTunnelIp (signer : String) : (resolveTunnelIp setting signer).Makes calls := by
  refine (makes_ask (free _ rfl)).bind fun peers => ?_
  split
  · trivial
  · rename_i peer _
    split
    · have parses : (parseTunnelIp setting peer.tunnelIp).Makes calls := by
        rw [parseTunnelIp]
        split <;> trivial
      refine parses.bind fun address => ?_
      split <;> trivial
    · trivial

theorem makes_ping (signer : String)
    (body : Option PingRequest) : (ping setting signer body).Makes calls := by
  have link : (linkedStorage signer).Makes calls := by
    refine (makes_ask (free _ rfl)).bind fun found => ?_
    split
    · split <;> trivial
    · trivial
  refine link.bind fun disk => ?_
  refine (makes_parsed _ _).bind fun report => ?_
  have ported : (validPort report.blossomPort).Makes calls := by
    rw [validPort]
    split <;> trivial
  refine ported.bind fun port => ?_
  refine (makes_decimalU64 _ _).bind fun total => ?_
  refine (makes_decimalU64 _ _).bind fun available => ?_
  split
  · trivial
  · refine (makes_ask (free _ rfl)).bind fun _ => ?_
    refine (makes_resolveTunnelIp free setting signer).bind fun _ => ?_
    refine (makes_ask (free _ rfl)).bind fun _ => ?_
    refine (makes_ask (free _ rfl)).bind fun _ => ?_
    split
    · refine (makes_call (free _ rfl)).bind fun _ => ?_
      trivial
    · trivial

theorem makes_capacity (path who : String) (body : Option String) :
    (capacity setting path who body).Makes calls := by
  refine (makes_canonicalNpub _ _).bind fun npub => ?_
  refine (makes_authorizeOwnerOrAdmin free who npub).bind fun _ => ?_
  refine (makes_parsed _ _).bind fun _ => ?_
  refine (makes_decimalU64 _ _).bind fun _ => ?_
  exact (makes_ask (free _ rfl)).bind fun _ => trivial

theorem makes_removeStorage (path who : String) (emptyBody : Bool) :
    (removeStorage setting path who emptyBody).Makes calls := by
  refine (makes_canonicalNpub _ _).bind fun npub => ?_
  split
  · refine (makes_authorizeOwnerOrAdmin free who npub).bind fun _ => ?_
    refine (makes_ask (free _ rfl)).bind fun _ => ?_
    refine (makes_call (free _ rfl)).bind fun ans => ?_
    split <;> trivial
  · trivial

theorem makes_reapPending : (reapPending setting).Makes calls := by
  have reaps : ∀ disks, (reapEach disks).Makes calls := by
    intro disks
    induction disks with
    | nil => trivial
    | cons disk rest ih =>
      refine (makes_ask (free _ rfl)).bind fun _ => ?_
      exact (makes_call (free _ rfl)).bind fun _ => ih
  refine (makes_ask (free _ rfl)).bind fun _ => ?_
  refine (makes_ask (free _ rfl)).bind fun _ => ?_
  exact (reaps _).bind fun _ => trivial

end

end

/-- A discipline is checked on the three critical sections. -/
theorem polite_handler {d : Discipline service Request} (setting : Setting)
    (free : ∀ call : Call, call.isFree = true → d.free call)
    (upserts : ∀ who target role body s, d.settled s → d.enters (.upsert who body) s →
      (upsertLocked who target role).Orderly d (.upsert who body) s)
    (removes : ∀ who target body s, who ≠ target → d.settled s →
      d.enters (.removeMember who body) s →
      (removeMemberLocked target).Orderly d (.removeMember who body) s)
    (links : ∀ who npub body s, d.settled s → d.enters (.link who body) s →
      (linkLocked who npub).Orderly d (.link who body) s)
    (request : Request) : (handler setting request).Polite d request := by
  cases request with
  | upsert who body =>
    refine (makes_admin free who).polite_bind fun _ => ?_
    refine (makes_parsed _ _).polite_bind fun given => ?_
    refine (makes_canonicalNpub _ _).polite_bind fun target => ?_
    exact Task.polite_acquire (upserts who target given.role body)
  | removeMember who body =>
    refine (makes_admin free who).polite_bind fun _ => ?_
    refine (makes_parsed _ _).polite_bind fun _ => ?_
    refine (makes_canonicalNpub _ _).polite_bind fun target => ?_
    split
    · trivial
    · rename_i ne
      exact Task.polite_acquire fun s =>
        removes who target body s ne
  | link who body =>
    refine (makes_parsed _ _).polite_bind fun _ => ?_
    refine (makes_canonicalNpub _ _).polite_bind fun npub => ?_
    exact Task.polite_acquire (links who npub body)
  | ping signer body => exact (makes_ping free setting signer body).polite
  | capacity path who body =>
    exact (makes_capacity free setting path who body).polite
  | removeStorage path who emptyBody =>
    exact (makes_removeStorage free setting path who emptyBody).polite
  | reapPending => exact (makes_reapPending free setting).polite

end StorageOrchestrator.ControlPlane
