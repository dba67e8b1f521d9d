import StorageOrchestrator.Accounts.Store
import StorageOrchestrator.Lib.Js

/-!
# Entitlements

What an entitlement request may say, and the plan that it leads to.  The
computation reads a user's row, the request and the clock, and nothing else.
-/

namespace StorageOrchestrator.Accounts.Entitlement

open Accounts.Store Lib.Js

/-- What the parser takes from JavaScript. -/
structure Runtime where
  /-- `BigInt(value)`; nothing when it throws. -/
  bigInt : JsValue ℚ → Option Int
  /-- `new Date(text).getTime()`; nothing for NaN. -/
  dateTime : String → Option Int

/-- A runtime that reads integers and no dates. -/
def Runtime.integers : Runtime where
  bigInt
    | some (.number value) => if value.den = 1 then some value.num else none
    | _ => none
  dateTime _ := none

/-- What a payment does to a live plan. -/
inductive EntitlementMode where
  | extend
  | upgrade
deriving DecidableEq, Repr

/-- Who asks for the entitlement. -/
inductive EntitlementSource where
  | payment
  | admin
deriving DecidableEq, Repr

/-- A request that has passed the parser. -/
structure EntitlementRequest where
  durationDays : Int
  source : EntitlementSource
  storageBytesBig : Int
  mode : Option EntitlementMode
  force : Bool
  paymentHash : Option String
  planExpiresAt : Option Int
deriving DecidableEq, Repr

/-- The status and the code of a refusal. -/
structure EntitlementError where
  status : Nat
  code : String
deriving DecidableEq, Repr

/-- `DAY_MS`. -/
def dayMs : Int := 24 * 60 * 60 * 1000

/-- `MAX_DURATION_DAYS`. -/
def maxDurationDays : Int := 36500

/-! ## Parsing -/

/-- `typeof body === "object"`, and not `null`. -/
def isObject : JsValue ℚ → Bool
  | some (.obj _) | some (.arr _) => true
  | _ => false

/-- A positive whole number of days. -/
def parseDuration : JsValue ℚ → Except EntitlementError Int
  | some (.number days) =>
    if days.den = 1 ∧ 0 < days.num ∧ days.num ≤ maxDurationDays then
      .ok days.num
    else .error ⟨400, "invalid_duration"⟩
  | _ => .error ⟨400, "invalid_duration"⟩

/-- The field has no default. -/
def parseSource : JsValue ℚ → Except EntitlementError EntitlementSource
  | some (.str "payment") => .ok .payment
  | some (.str "admin") => .ok .admin
  | _ => .error ⟨400, "invalid_source"⟩

/-- A positive `BigInt`. -/
def parseStorageBytes (js : Runtime) (value : JsValue ℚ) : Except EntitlementError Int :=
  match js.bigInt value with
  | some bytes =>
    if bytes ≤ 0 then .error ⟨400, "invalid_storage_bytes"⟩ else .ok bytes
  | none => .error ⟨400, "invalid_storage_bytes"⟩

/-- A mode may be missing. -/
def parseMode : JsValue ℚ → Except EntitlementError (Option EntitlementMode)
  | none => .ok none
  | some (.str "extend") => .ok (some .extend)
  | some (.str "upgrade") => .ok (some .upgrade)
  | _ => .error ⟨400, "invalid_mode"⟩

def isHexDigit (letter : Char) : Bool :=
  letter.isDigit || ('a' ≤ letter && letter ≤ 'f') ||
    ('A' ≤ letter && letter ≤ 'F')

/-- `/^[0-9a-f]{64}$/i`. -/
def isPaymentHash (text : String) : Bool := text.toList.length == 64 && text.toList.all isHexDigit

/-- A hash is kept in lower case. -/
def parsePaymentHash : JsValue ℚ → Except EntitlementError (Option String)
  | none => .ok none
  | some (.str text) =>
    if isPaymentHash text then
      .ok (some (String.ofList (text.toList.map Char.toLower)))
    else .error ⟨400, "invalid_payment_hash"⟩
  | _ => .error ⟨400, "invalid_payment_hash"⟩

/-- Only an administrator may set the date. -/
def parsePlanExpiresAt (js : Runtime) (source : EntitlementSource) :
    JsValue ℚ → Except EntitlementError (Option Int)
  | none => .ok none
  | some value =>
    if source ≠ .admin then .error ⟨403, "expiry_override_requires_admin"⟩
    else
      match value with
      | .str text =>
        match js.dateTime text with
        | some time => .ok (some time)
        | none => .error ⟨400, "invalid_plan_expires_at"⟩
      | _ => .error ⟨400, "invalid_plan_expires_at"⟩

/-- `parseEntitlementRequest`, with its checks in order. -/
def parseEntitlementRequest (js : Runtime) (body : JsValue ℚ) :
    Except EntitlementError EntitlementRequest := do
  if !isObject body then
    throw ⟨400, "invalid_entitlement"⟩
  let field (name : String) : JsValue ℚ := body.bind (·.member name)
  let durationDays ← parseDuration (field "durationDays")
  let source ← parseSource (field "source")
  let storageBytesBig ← parseStorageBytes js (field "storageBytes")
  let mode ← parseMode (field "mode")
  let force := strictEq (field "force") (some (.bool true))
  if force && source ≠ .admin then
    throw ⟨403, "force_requires_admin"⟩
  let paymentHash ← parsePaymentHash (field "paymentHash")
  if source = .payment && paymentHash.isNone then
    throw ⟨400, "payment_hash_required"⟩
  let planExpiresAt ← parsePlanExpiresAt js source (field "planExpiresAt")
  return {
    durationDays := durationDays
    source := source
    storageBytesBig := storageBytesBig
    mode := mode
    force := force
    paymentHash := paymentHash
    planExpiresAt := planExpiresAt }

/-! ## The effect -/

/-- The plan that is written. -/
structure EntitlementEffect where
  /-- Nothing for an invalid date. -/
  planExpiresAt : Option Int
  storageBytes : Option Int
deriving DecidableEq, Repr

/-- `new Date(time)`. -/
def date (time : Int) : Option Int :=
  if time.natAbs ≤ 8640000000000000 then some time else none

/-- The plan has not ended. -/
def isLive (user : User) (now : Int) : Bool :=
  match user.planExpiresAt with
  | some expiresAt => now < expiresAt
  | none => false

/-- `computeEntitlement`; a live plan is extended from its end. -/
def computeEntitlement (user : User) (request : EntitlementRequest)
    (now : Int) : Except EntitlementError EntitlementEffect :=
  let live := isLive user now
  if live && !request.force && request.mode.isNone then
    .error ⟨409, "mode_required"⟩
  else
    let mode := request.mode.getD .extend
    let base := max now (user.planExpiresAt.getD 0)
    let preserve := mode = .extend && live && !request.force
    .ok
      { planExpiresAt :=
          match request.planExpiresAt with
          | some override => some override
          | none => date (base + request.durationDays * dayMs)
        storageBytes :=
          if preserve then user.storageBytes
          else some request.storageBytesBig }

/-- The part of a row that the computation reads. -/
def plan (user : User) : Option Int × Option Int := (user.planExpiresAt, user.storageBytes)

theorem computeEntitlement_congr (eq : plan u = plan user') (req : EntitlementRequest) (now : Int) :
    computeEntitlement u req now = computeEntitlement user' req now := by
  rcases Prod.mk.inj eq with ⟨sameExpiry, sameBytes⟩
  have sameLive : isLive u now = isLive user' now := by rw [isLive, isLive, sameExpiry]
  rw [computeEntitlement, computeEntitlement, sameLive, sameExpiry, sameBytes]

end StorageOrchestrator.Accounts.Entitlement
