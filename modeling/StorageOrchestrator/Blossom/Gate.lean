import StorageOrchestrator.Blossom.Proxy
import StorageOrchestrator.Lib.Decimal
import StorageOrchestrator.Lifecycle.Access
import StorageOrchestrator.Nip98.Verify

/-!
# Who may upload how much

`verifyAuthToken`, the preflight `HEAD /upload`, the gate in front of
`PUT /upload` and the route behind it.  The preflight and the gate are written
apart and read the declared size differently; the route repeats the checks of
the gate before it looks whether the account owns the blob already.

The rate limit and the cap on bytes in flight are left out, and account lookups
do not fail.
-/

namespace StorageOrchestrator.Blossom.Gate

open Lib Lifecycle.Access Nip98.Events Nip98.Verify
open Accounts.Store (User)
open Blossom.BlobStore (Database BlobRow getBlob mem_rowsOf_iff)
open Blossom.Proxy (Cluster Upload uploadStep)

/-- What the routes take from their surroundings; `now` is in milliseconds. -/
structure Env where
  tools : NostrTools
  /-- `Number(text)`; `none` for NaN and the infinities. -/
  number : String → Option ℚ
  config : LifecycleConfig
  now : Int

/-- A header that is there and not empty. -/
def truthy (header : Option String) : Option String := header.filter (· ≠ "")

/-! ## Tokens -/

/-- The checks of `verifyAuthToken` that do not depend on a hash. -/
def readToken (env : Env) (authHeader : Option String) (action : String) :
    Except Failure Nip98Event :=
  match truthy authHeader with
  | none => .error missingHeader
  | some raw =>
    match decodeHeader raw with
    | none => .error (.nip98Error "Malformed Authorization event" 400)
    | some json =>
      match eventOf env.tools.nearest json with
      | none => .error env.tools.notAnEvent
      | some event =>
        let now : ℚ := (env.now / 1000 : Int)
        if env.tools.verifyEvent event = false then .error invalidSignature
        else if event.kind.value ≠ 24242 then
          .error (.nip98Error "Authorization event must be kind 24242" 401)
        else if now < event.createdAt.value then
          .error (.nip98Error "Authorization event created_at must be in the past" 401)
        else if ((truthyTag event.tags "expiration").bind env.number).all (· ≤ now) then
          .error (.nip98Error
            "Authorization event is missing a valid future expiration tag" 401)
        else if tagValue event.tags "t" ≠ some action then
          .error (.nip98Error
            ("Authorization event must have a \"t\" tag of \"" ++ action ++ "\"") 401)
        else .ok event

/-- The hashes that a token is scoped to. -/
def xTags (event : Nip98Event) : List (Option String) :=
  (event.tags.filter fun tag => tag.head? = some "x").map fun tag => tag[1]?.map lowerCase

def noScope : Failure :=
  .nip98Error "Authorization event must include an \"x\" tag for the target blob hash" 401

/-- Whether the token is scoped to the hash; a hash that is not known yet is `none`. -/
def checkScope (event : Nip98Event) (hash : Option String) (requireHashScope : Bool) :
    Option Failure :=
  match truthy hash with
  | some hash =>
    if xTags event ≠ [] then
      if some (lowerCase hash) ∈ xTags event then none
      else some (.nip98Error
        "Authorization event's \"x\" tag does not match the target blob hash" 401)
    else if requireHashScope then some noScope
    else none
  | none => if requireHashScope ∧ xTags event = [] then some noScope else none

def verifyAuthToken (env : Env) (authHeader : Option String) (action : String)
    (hash : Option String) (requireHashScope : Bool) : Except Failure String :=
  match readToken env authHeader action with
  | .error failure => .error failure
  | .ok event =>
    match checkScope event hash requireHashScope with
    | some failure => .error failure
    | none => .ok (env.tools.npubEncode event.pubkey)

/-! ## Accounts -/

/-- What the cache and db-api hold of an account. -/
structure Lookup where
  cached : Option (Option User)
  row : Option User

/-- `loadAccess`; an account without a row has the columns' defaults. -/
def loadAccess (env : Env) (lookup : Lookup) (fresh : Bool) : User × AccessState :=
  let user := (if fresh then lookup.row else lookup.cached.getD lookup.row).getD .fresh
  (user, deriveAccess user env.now env.config)

/-- `loadAccess`, then `loadAccessForDenialCheck`. -/
def loadForUpload (env : Env) (lookup : Lookup) : User × AccessState :=
  let cached := loadAccess env lookup false
  if cached.2.canUpload then cached else loadAccess env lookup true

/-! ## The preflight and the gate -/

/-- What a check ends with; `passes` is a 200, or the next handler. -/
inductive Answer where
  | passes
  | refused (status : Nat) (reason : String)
  | denied (user : User) (access : AccessState)
deriving DecidableEq

def Answer.status : Answer → Nat
  | .passes => 200
  | .refused status _ => status
  | .denied _ _ => 403

/-- An `AuthError` is answered as such, other exceptions are a 500. -/
def failed : Failure → Answer
  | .nip98Error message status => .refused status message
  | .exception => .refused 500 "Upload failed"

def maxUploadBytes : Nat := 500 * 1024 * 1024

def tooLarge : Answer := .refused 413 "File exceeds the 500 MB per-file upload limit."

def overQuota (user : User) (bytes : Int) : Bool :=
  user.storageBytes.any fun allowance => allowance < user.usedStorage + bytes

/-- `sendAccessError` for an upload that does not fit. -/
def quotaError (loaded : User × AccessState) : Answer :=
  .denied loaded.1 { loaded.2 with canUpload := false, reason := .graceOverQuota }

/-- The part of `HEAD /upload` after the token; `BigInt` of a fraction throws. -/
def preflightSize (env : Env) (lookup : Lookup) (contentLength : Option String) : Answer :=
  match truthy contentLength with
  | none => .refused 411 "X-Content-Length header is required"
  | some text =>
    match env.number text with
    | none => .refused 400 "Invalid X-Content-Length header"
    | some size =>
      if size < 0 then .refused 400 "Invalid X-Content-Length header"
      else if maxUploadBytes < size then tooLarge
      else
        let loaded := loadForUpload env lookup
        if loaded.2.canUpload = false then .denied loaded.1 loaded.2
        else if loaded.1.storageBytes.isSome ∧ size.den ≠ 1 then failed .exception
        else if overQuota loaded.1 size.num then .refused 403 "quota_exceeded"
        else .passes

/-- `HEAD /upload`. -/
def headUpload (env : Env) (accounts : String → Lookup) (authHeader xHash : Option String)
    (contentLength : Option String) : Answer :=
  match verifyAuthToken env authHeader "upload" xHash true with
  | .error failure => failed failure
  | .ok npub => preflightSize env (accounts npub) contentLength

/-- Plan and quota, as the gate and the route check them. -/
def checkAccess (env : Env) (lookup : Lookup) (bytes : Int) : Answer :=
  let loaded := loadForUpload env lookup
  if loaded.2.canUpload = false then .denied loaded.1 loaded.2
  else if overQuota loaded.1 bytes then quotaError loaded
  else .passes

/-- The part of `uploadGate` after the token. -/
def gateSize (env : Env) (lookup : Lookup) (contentLength : Option String) : Answer :=
  match truthy contentLength with
  | none => .refused 411 "Content-Length header is required"
  | some text =>
    match env.number text with
    | none => .refused 400 "Request body must contain binary data"
    | some length =>
      if ¬ (length.den = 1 ∧ 0 < length) then .refused 400 "Request body must contain binary data"
      else if maxUploadBytes < length then tooLarge
      else checkAccess env lookup length.num

def uploadGate (env : Env) (accounts : String → Lookup) (authHeader contentLength : Option String) :
    Answer :=
  match verifyAuthToken env authHeader "upload" none true with
  | .error failure => failed failure
  | .ok npub => gateSize env (accounts npub) contentLength

/-- A `PUT /upload`; the body parser takes one content type only. -/
structure PutRequest where
  authHeader : Option String
  contentLength : Option String
  xHash : Option String
  octetStream : Bool
  data : List Hex.Byte

/-- `PUT /upload` up to its first request about the blob. -/
def routeUpload (env : Env) (accounts : String → Lookup) (request : PutRequest) :
    Except Answer Upload :=
  match uploadGate env accounts request.authHeader request.contentLength with
  | .passes =>
    if request.octetStream = false ∨ request.data = [] then
      .error (.refused 400 "Request body must contain binary data")
    else if (truthy request.xHash).any fun hash => lowerCase hash ≠ hexDigest request.data then
      .error (.refused 409 "X-SHA-256 header does not match the uploaded content")
    else
      match verifyAuthToken env request.authHeader "upload" (hexDigest request.data) true with
      | .error failure => .error (failed failure)
      | .ok npub =>
        match checkAccess env (accounts npub) request.data.length with
        | .passes => .ok ⟨npub, hexDigest request.data, request.data.length, env.now.toNat⟩
        | answer => .error answer
  | answer => .error answer

/--
The status and the cluster when `PUT /upload` answers without storing
anything: it is refused, or the account owns the blob already.
-/
def putUpload (replicaCount : Nat) (env : Env) (accounts : String → Lookup) (request : PutRequest)
    (cluster : Cluster) : Option (Nat × Cluster) :=
  match routeUpload env accounts request with
  | .error answer => some (answer.status, cluster)
  | .ok upload =>
    match uploadStep replicaCount cluster upload .answered env.now.toNat .lookingUp with
    | some ⟨db, held, .ended⟩ => some (200, { cluster with db := db, held := held })
    | _ => none

/-! ## Whether they agree -/

section

variable {env : Env}

/-- An account that may upload is within its allowance. -/
theorem not_overQuota_of_canUpload {u : User}
    (may : (deriveAccess u now config).canUpload = true) : overQuota u 0 = false := by
  unfold deriveAccess at may
  split at may
  · cases may
  · dsimp only at may
    split at may
    · cases may
    · split at may
      · split at may
        · cases may
        · rename_i sub
          simpa [overQuota] using sub
      · split at may
        · cases may
        · split at may <;> cases may

theorem loadForUpload_access (env : Env) (lookup : Lookup) : (loadForUpload env lookup).2 =
    deriveAccess (loadForUpload env lookup).1 env.now env.config := by
  rw [loadForUpload]
  split <;> rfl

theorem status_gateSize (env : Env) (lookup : Lookup) (size : Option String) :
    (gateSize env lookup size).status ≠ 500 := by
  rw [gateSize]
  split
  · decide
  · split
    · decide
    · split
      · decide
      · split
        · decide
        · rw [checkAccess]
          split
          · exact nofun
          · split <;> exact nofun

/-- A size that the preflight lets pass for an account that may upload is one. -/
def SizeRead (env : Env) (lookup : Lookup) (contentLength : Option String) : Prop :=
  ∀ size, (truthy contentLength).bind env.number = some size → 0 ≤ size → size ≤ maxUploadBytes →
    (loadForUpload env lookup).2.canUpload = true → size.den = 1 ∧ 0 < size

theorem sizes_agree_iff (env : Env) (lookup : Lookup) (contentLength : Option String) :
    ((preflightSize env lookup contentLength = .passes ↔
      gateSize env lookup contentLength = .passes) ∧
      (preflightSize env lookup contentLength).status ≠ 500) ↔
      SizeRead env lookup contentLength := by
  have sub : (loadForUpload env lookup).2.canUpload = true →
      overQuota (loadForUpload env lookup).1 0 = false := by
    rw [loadForUpload_access]
    exact not_overQuota_of_canUpload
  cases given : truthy contentLength with
  | none => simp [preflightSize, gateSize, SizeRead, given, Answer.status]
  | some text =>
    cases read : env.number text with
    | none => simp [preflightSize, gateSize, SizeRead, given, read, Answer.status]
    | some size =>
      have only : SizeRead env lookup contentLength ↔ (0 ≤ size → size ≤ maxUploadBytes →
          (loadForUpload env lookup).2.canUpload = true → size.den = 1 ∧ 0 < size) := by
        simp [SizeRead, given, read]
      rw [only]
      simp only [preflightSize, gateSize, given, read, checkAccess]
      generalize loadForUpload env lookup = loaded at sub ⊢
      by_cases whole : size.den = 1 ∧ 0 < size
      · simp only [not_lt.mpr whole.2.le, whole, ne_eq, not_true, and_false, and_self, if_false]
        split_ifs <;> simp [Answer.status, tooLarge, quotaError]
      · simp only [whole]
        by_cases negative : size < 0
        · simp [negative, Answer.status]
        · by_cases large : maxUploadBytes < size
          · simp [negative, large, tooLarge, Answer.status]
          · cases may : loaded.2.canUpload with
            | false => simp [negative, large, Answer.status]
            | true =>
              have fits : ¬ (loaded.1.storageBytes.isSome ∧ size.den ≠ 1) →
                  overQuota loaded.1 size.num = false := by
                intro reads
                by_cases integral : size.den = 1
                · have zero : size = 0 :=
                    le_antisymm (not_lt.mp fun above => whole ⟨integral, above⟩)
                      (not_lt.mp negative)
                  simpa [zero] using sub may
                · have unlimited : loaded.1.storageBytes = none := by simpa [integral] using reads
                  simp [overQuota, unlimited]
              split_ifs <;> simp_all [failed, Answer.status]

theorem failed_ne_passes (fail : Failure) : failed fail ≠ .passes := by
  cases fail <;> exact nofun

/-- A token that is not scoped is an `AuthError`. -/
theorem status_checkScope {hash : Option String} {fail : Failure}
    (out : checkScope event hash requireHashScope = some fail) :
    (failed fail).status = 401 := by
  simp only [checkScope] at out
  split at out
  · split_ifs at out <;> cases out <;> rfl
  · split_ifs at out
    cases out
    rfl

/-- The token is scoped, and to the hash if there is one. -/
def Covers (event : Nip98Event) (hash : Option String) : Prop :=
  xTags event ≠ [] ∧ ∀ announced, truthy hash = some announced →
    some (lowerCase announced) ∈ xTags event

theorem checkScope_eq_none_iff (event : Nip98Event) (hash : Option String) :
    checkScope event hash true = none ↔ Covers event hash := by
  rw [checkScope, Covers]
  cases truthy hash with
  | none => simp
  | some announced =>
    by_cases unscoped : xTags event = []
    · simp [unscoped]
    · by_cases covered : some (lowerCase announced) ∈ xTags event <;> simp [unscoped, covered]

/-- The size is a whole number of bytes that uploads may have, and the account has room for it. -/
def Uploadable (env : Env) (lookup : Lookup) (contentLength : Option String) : Prop :=
  ∃ size, (truthy contentLength).bind env.number = some size ∧
    (size.den = 1 ∧ 0 < size ∧ size ≤ maxUploadBytes) ∧
    (loadForUpload env lookup).2.canUpload = true ∧
    overQuota (loadForUpload env lookup).1 size.num = false

theorem gateSize_passes_iff (env : Env) (lookup : Lookup) (contentLength : Option String) :
    gateSize env lookup contentLength = .passes ↔ Uploadable env lookup contentLength := by
  rw [gateSize, Uploadable]
  cases given : truthy contentLength with
  | none => simp
  | some text =>
    cases read : env.number text with
    | none => simp [read]
    | some size =>
      simp only [Option.bind_some, read, Option.some.injEq, checkAccess]
      split_ifs with whole large closed full
      · simp [tooLarge, not_le.mpr large]
      · simp [closed]
      · simp [quotaError, full]
      · simp_all
      · simp_all

/-- The preflight and the gate agree on who passes, and neither answers 500. -/
def Agrees (env : Env) (accounts : String → Lookup) (authHeader xHash size : Option String) :
    Prop :=
  (headUpload env accounts authHeader xHash size = .passes ↔
      uploadGate env accounts authHeader size = .passes) ∧
    (headUpload env accounts authHeader xHash size).status ≠ 500 ∧
    (uploadGate env accounts authHeader size).status ≠ 500

/--
The preflight and the gate agree exactly when reading the token throws nothing
but an `AuthError` and, for a token that is scoped: where the account has room
for the announced size the token is scoped to the announced hash, and where it
is scoped to it an account that may upload announces a positive whole number.
-/
theorem agrees_iff (env : Env) (accounts : String → Lookup)
    (authHeader xHash size : Option String) :
    Agrees env accounts authHeader xHash size ↔
      (∀ failure, readToken env authHeader "upload" = .error failure →
        (failed failure).status ≠ 500) ∧
      ∀ event, readToken env authHeader "upload" = .ok event → Covers event none →
        (Uploadable env (accounts (env.tools.npubEncode event.pubkey)) size →
          Covers event xHash) ∧
        (Covers event xHash →
          SizeRead env (accounts (env.tools.npubEncode event.pubkey)) size) := by
  cases tok : readToken env authHeader "upload" with
  | error failure =>
    have both : ∀ hash, verifyAuthToken env authHeader "upload" hash true = .error failure := by
      intro hash
      rw [verifyAuthToken, tok]
    simp [Agrees, headUpload, uploadGate, both, failed_ne_passes]
  | ok event =>
    have verify : ∀ hash, verifyAuthToken env authHeader "upload" hash true =
        match checkScope event hash true with
        | some failure => .error failure
        | none => .ok (env.tools.npubEncode event.pubkey) := by
      intro hash
      rw [verifyAuthToken, tok]
    have scope := checkScope_eq_none_iff event
    cases early : checkScope event none true with
    | some failure =>
      have unscoped : ¬ Covers event none := by simp [← scope, early]
      obtain ⟨other, out⟩ := Option.ne_none_iff_exists'.mp
        (mt (scope xHash).mp fun covered => unscoped ⟨covered.1, nofun⟩)
      simp [Agrees, headUpload, uploadGate, verify, early, out, failed_ne_passes, unscoped,
        status_checkScope early, status_checkScope out]
    | none =>
      have known : Covers event none := (scope none).mp early
      cases out : checkScope event xHash true with
      | some failure =>
        have uncovered : ¬ Covers event xHash := by simp [← scope, out]
        simp [Agrees, headUpload, uploadGate, verify, early, out, failed_ne_passes, known,
          uncovered, status_checkScope out, status_gateSize, gateSize_passes_iff]
      | none =>
        have covered : Covers event xHash := (scope xHash).mp out
        have sizes := sizes_agree_iff env (accounts (env.tools.npubEncode event.pubkey)) size
        simp [Agrees, headUpload, uploadGate, verify, early, out, known, covered,
          status_gateSize, ← sizes]

/-! ## Uploading a blob again -/

/-- A token scoped to a hash passes before the hash is known. -/
theorem verifyAuthToken_early {hash : Option String}
    (tok : verifyAuthToken env authHeader "upload" hash true = .ok npub) :
    verifyAuthToken env authHeader "upload" none true = .ok npub := by
  rw [verifyAuthToken] at tok ⊢
  split at tok
  · cases tok
  · rename_i ev _
    split at tok
    · cases tok
    · rename_i mem
      have covers := (checkScope_eq_none_iff ev hash).mp mem
      rw [(checkScope_eq_none_iff ev none).mpr ⟨covers.1, nofun⟩]
      exact tok

theorem getBlob_owned {db : Database} {hash npub : String}
    (owned : ∃ row ∈ db.blobs, row.hash = hash ∧ row.npub = npub) :
    ∃ info, getBlob db hash = some info ∧ npub ∈ info.owners := by
  obtain ⟨row, mem, eq, rfl⟩ := owned
  have has := (mem_rowsOf_iff db hash row).mpr ⟨mem, eq⟩
  rw [getBlob]
  split
  · rename_i empty
    rw [empty] at has
    cases has
  · rename_i rows
    rw [rows] at has
    exact ⟨_, rfl, List.mem_map_of_mem has⟩

theorem routeUpload_refused {accounts : String → Lookup} {answer : Answer} (ask : PutRequest)
    (gate : uploadGate env accounts ask.authHeader ask.contentLength = answer)
    (refused : answer ≠ .passes) : routeUpload env accounts ask = .error answer := by
  rw [routeUpload, gate]
  cases answer with
  | passes => exact absurd rfl refused
  | refused _ _ | denied _ _ => rfl

/--
A blob that the account owns is answered with 200 and without any change
exactly when its bytes would fit into the account once more (and the request is
a binary body of a size that uploads may have).
-/
theorem reupload_iff (replicaCount : Nat) (env : Env) (accounts : String → Lookup)
    (request : PutRequest) (cluster : Cluster) (npub : String)
    (token : verifyAuthToken env request.authHeader "upload" (hexDigest request.data) true =
      .ok npub)
    (owned : ∃ row ∈ cluster.db.blobs, row.hash = hexDigest request.data ∧ row.npub = npub)
    (may : (loadForUpload env (accounts npub)).2.canUpload = true)
    (announced : ∀ hash, truthy request.xHash = some hash → lowerCase hash = hexDigest request.data)
    (length : (truthy request.contentLength).bind env.number = some request.data.length) :
    putUpload replicaCount env accounts request cluster = some (200, cluster) ↔
      request.octetStream = true ∧ request.data ≠ [] ∧ request.data.length ≤ maxUploadBytes ∧
        overQuota (loadForUpload env (accounts npub)).1 request.data.length = false := by
  have gate : uploadGate env accounts request.authHeader request.contentLength =
      if request.data = [] then .refused 400 "Request body must contain binary data"
      else if maxUploadBytes < request.data.length then tooLarge
      else checkAccess env (accounts npub) request.data.length := by
    obtain ⟨text, given, read⟩ := Option.bind_eq_some_iff.mp length
    rw [uploadGate, verifyAuthToken_early token]
    simp [gateSize, given, read]
  have access : checkAccess env (accounts npub) request.data.length =
      if overQuota (loadForUpload env (accounts npub)).1 request.data.length then
        quotaError (loadForUpload env (accounts npub)) else .passes := by
    simp [checkAccess, may]
  have unannounced : (truthy request.xHash).any (fun hash =>
      lowerCase hash ≠ hexDigest request.data) = false := by
    cases header : truthy request.xHash with
    | none => rfl
    | some hash => simp [announced hash header]
  obtain ⟨info, found, owns⟩ := getBlob_owned owned
  simp only [putUpload, routeUpload, gate, access, unannounced, token]
  by_cases empty : request.data = []
  · simp [empty, Answer.status]
  by_cases large : maxUploadBytes < request.data.length
  · simp [empty, large, tooLarge, Answer.status, not_le.mpr large]
  cases full : overQuota (loadForUpload env (accounts npub)).1 request.data.length with
  | true => simp [empty, large, quotaError, Answer.status]
  | false =>
    cases typed : request.octetStream with
    | false => simp [empty, large, Answer.status]
    | true => simp [empty, large, not_lt.mp large, uploadStep, found, owns]

end

/-! ## One account -/

/-- A runtime that reads plain decimals, a second after the epoch. -/
def sampleEnv : Env where
  tools := sampleTools
  number := Decimal.parse
  config := ⟨7, 7, 7, true⟩
  now := 1000

/-- An account of ten bytes, nine of them used. -/
def sampleAccounts (_npub : String) : Lookup := ⟨none, some ⟨some 2000, some 10, 9⟩⟩

/-- A token for the upload of some bytes. -/
def sampleToken (data : List Hex.Byte) : Nip98Event :=
  identified
    { id := ""
      pubkey := "alice"
      createdAt := Numerals.normalize false [0] 1
      kind := Numerals.normalize false [2, 4, 2, 4, 2] 5
      tags := [["t", "upload"], ["expiration", "2"], ["x", hexDigest data]]
      content := ""
      sig := "alice" }

theorem readToken_sample (data : List Hex.Byte) :
    readToken sampleEnv (some (encodeHeader (sampleToken data))) "upload" =
      .ok (sampleToken data) := by
  have given : truthy (some (encodeHeader (sampleToken data))) =
      some (encodeHeader (sampleToken data)) := by
    simp [truthy, encodeHeader_ne_empty]
  have read : (sampleToken data).rounded sampleEnv.tools.nearest = sampleToken data := rfl
  have kind : (sampleToken data).kind.value = 24242 := by
    have value : (Numerals.normalize false [2, 4, 2, 4, 2] 5).value = 24242 := by decide +kernel
    exact value
  have made : (sampleToken data).createdAt.value = 0 := by
    have value : (Numerals.normalize false [0] 1).value = 0 := by decide +kernel
    exact value
  have now : ((sampleEnv.now / 1000 : Int) : ℚ) = 1 := by decide +kernel
  have expires : (truthyTag (sampleToken data).tags "expiration").bind sampleEnv.number =
      some 2 := by
    have parsed : Decimal.parse "2" = some 2 := by decide +kernel
    exact parsed
  have signed : sampleEnv.tools.verifyEvent (sampleToken data) = true :=
    verifyEvent_identified _ rfl
  simp only [readToken, given, decodeHeader_encodeHeader, eventOf_eventJson, read, now, expires]
  rw [if_neg (by simp [signed]), if_neg (not_not.mpr kind),
    if_neg (not_lt.mpr (made.trans_le zero_le_one)), if_neg (by decide +kernel),
    if_neg (by exact not_not.mpr rfl)]

theorem verifyAuthToken_sample (data : List Hex.Byte) :
    verifyAuthToken sampleEnv (some (encodeHeader (sampleToken data))) "upload"
      (hexDigest data) true = .ok "alice" := by
  have mem : checkScope (sampleToken data) (hexDigest data) true = none := by
    have tags : xTags (sampleToken data) = [some (lowerCase (hexDigest data))] := rfl
    rw [checkScope, tags]
    split
    · rename_i hash here
      have eq : hash = hexDigest data := by
        simpa [truthy] using (Option.filter_eq_some_iff.mp here).1.symm
      simp [eq]
    · simp
  rw [verifyAuthToken, readToken_sample]
  dsimp only
  rw [mem]
  rfl

theorem uploadGate_sample (data : List Hex.Byte) (size : Option String) :
    uploadGate sampleEnv sampleAccounts (some (encodeHeader (sampleToken data))) size =
      gateSize sampleEnv (sampleAccounts "alice") size := by
  rw [uploadGate, verifyAuthToken_early (verifyAuthToken_sample data)]

/-- The preflight lets a size of zero pass, the gate does not. -/
theorem zero_disagrees : ¬ Agrees sampleEnv sampleAccounts
    (some (encodeHeader (sampleToken []))) none (some "0") := by
  rintro ⟨eq, -⟩
  rw [headUpload, verifyAuthToken_early (verifyAuthToken_sample []), uploadGate_sample] at eq
  revert eq
  decide +kernel

def samplePut (data : List Hex.Byte) (contentLength : String) : PutRequest where
  authHeader := some (encodeHeader (sampleToken data))
  contentLength := some contentLength
  xHash := none
  octetStream := true
  data := data

/-- A cluster in which the account owns the blob of some bytes. -/
def owning (data : List Hex.Byte) : Cluster where
  db := { users := [], blobs := [⟨hexDigest data, "alice", data.length, [], 0⟩] }
  roster := []
  held := []
  tasks := []

/-- Two bytes that the account owns would not fit a second time. -/
theorem reupload_refused :
    (loadForUpload sampleEnv (sampleAccounts "alice")).2.canUpload = true ∧
      putUpload 1 sampleEnv sampleAccounts (samplePut [1, 2] "2") (owning [1, 2]) =
        some (403, owning [1, 2]) := by
  have gate : gateSize sampleEnv (sampleAccounts "alice") (some "2") =
      quotaError (loadForUpload sampleEnv (sampleAccounts "alice")) := by
    decide +kernel
  refine ⟨by decide +kernel, ?_⟩
  have deny := routeUpload_refused (samplePut [1, 2] "2")
    ((uploadGate_sample [1, 2] (some "2")).trans gate) nofun
  rw [putUpload, deny]
  dsimp only [quotaError, Answer.status]

/-- One byte fits once more. -/
theorem reupload_fits : putUpload 1 sampleEnv sampleAccounts (samplePut [1] "1") (owning [1]) =
    some (200, owning [1]) :=
  (reupload_iff 1 sampleEnv sampleAccounts (samplePut [1] "1") (owning [1]) "alice"
    (verifyAuthToken_sample [1]) ⟨_, List.mem_singleton_self _, rfl, rfl⟩ (by decide +kernel) nofun
    (by decide +kernel)).mpr (by decide +kernel)

end StorageOrchestrator.Blossom.Gate
