import StorageOrchestrator.Nip98.Verify

/-!
# Signed calls between the services

`createNip98Signer` builds the header of a request from the method, the URL
and the body the caller is about to send; the service that receives the call
hashes the body its middleware hands over.  The two hashes agree when the
route parses JSON: reading the sent text gives back the value that was signed.
A route without a parser sees no body at all, so it refuses every call whose
body was signed.

The calls are the ones of this repository: the mutations and lookups of the
database client, the purge of the notifier and the entitlement push.
-/

namespace StorageOrchestrator.Nip98.Signing

open Lib Lib.JsonValue Lib.JsonText Lib.Numerals Nip98.Events Nip98.Verify

/-! ## The signer -/

/-- `Math.floor(Date.now() / 1000)`. -/
structure Seconds extends Numeral where
  exact : toNumeral.Exact

/-- The event before it is signed. -/
structure EventTemplate where
  kind : Numeral
  createdAt : Seconds
  content : String
  tags : List (List String)

/--
Signing and verifying with `nostr-tools`: a finalised event verifies.  Whole
numbers of at most fifteen digits are read as they are written.
-/
structure SigningTools (SecretKey : Type) extends NostrTools where
  getPublicKey : SecretKey → String
  finalizeEvent : EventTemplate → SecretKey → Nip98Event
  finalize_verifies : ∀ template secret, verifyEvent (finalizeEvent template secret) = true
  finalize_pubkey : ∀ template secret, (finalizeEvent template secret).pubkey = getPublicKey secret
  finalize_kind : ∀ template secret, (finalizeEvent template secret).kind = template.kind
  finalize_createdAt : ∀ template secret,
    (finalizeEvent template secret).createdAt = template.createdAt.toNumeral
  finalize_tags : ∀ template secret, (finalizeEvent template secret).tags = template.tags
  nearest_exact : ∀ number : Numeral, number.Exact → nearest number = number

variable {SecretKey : Type}

def signedTags (method url nonce : String) (body : Option Value) : List (List String) :=
  [["u", url], ["method", upperCase method], ["nonce", nonce]] ++
    (body.map fun value => ["payload", sha256Hex value.compact]).toList

/-- The event that `header` signs. -/
def signedEvent (tools : SigningTools SecretKey) (secret : SecretKey)
    (method url : String) (body : Option Value) (createdAt : Seconds)
    (nonce : String) : Nip98Event :=
  tools.finalizeEvent
    { kind := nip98Kind
      createdAt := createdAt
      content := ""
      tags := signedTags method url nonce body }
    secret

def header (tools : SigningTools SecretKey) (secret : SecretKey)
    (method url : String) (body : Option Value) (createdAt : Seconds) (nonce : String) : String :=
  encodeHeader (signedEvent tools secret method url body createdAt nonce)

/-! ## The calls -/

/-- An object of the runtime: its fields are in the order it keeps them. -/
structure JsObject where
  fields : Fields Numeral
  ordered : Ordered (.obj fields)

def JsObject.value (object : JsObject) : Value := .obj object.fields

/-- The object literal without fields. -/
def JsObject.empty : JsObject where
  fields := []
  ordered := ⟨List.Pairwise.nil, trivial⟩

def encodeURIComponent (text : String) : String :=
  String.ofList (text.toList.flatMap fun letter =>
    if letter.isAlphanum || "-_.!~*'()".toList.contains letter then [letter]
    else
      (ByteText.utf8 [letter]).flatMap fun byte =>
        '%' :: (Hex.encode [byte]).map Char.toUpper)

/-- The methods of the internal calls. -/
inductive Method where
  | get
  | post
  | put
  | patch
  | delete
deriving DecidableEq, Repr

def Method.text : Method → String
  | .get => "GET"
  | .post => "POST"
  | .put => "PUT"
  | .patch => "PATCH"
  | .delete => "DELETE"

/-- The internal calls. -/
inductive Call where
  /-- `mutate` of the database client. -/
  | mutation (method : Method) (path : String) (body : Option JsObject)
  /-- `get` and `getOk` of the database client. -/
  | lookup (path : String)
  /-- The purge of the notifier. -/
  | purge (npub : String)
  /-- The push of an entitlement to the proxy. -/
  | entitlement (npub : String) (body : JsObject)

/-- The routes that receive them. -/
inductive Route where
  | dbApi
  | internalPurge
  | internalEntitlement
deriving DecidableEq, Repr

/-- The route mounts `express.json()` before its gate. -/
def Route.parsesJson : Route → Bool
  | .dbApi => true
  | .internalPurge => false
  | .internalEntitlement => true

def Call.route : Call → Route
  | .mutation _ _ _ | .lookup _ => .dbApi
  | .purge _ => .internalPurge
  | .entitlement _ _ => .internalEntitlement

def Call.method : Call → Method
  | .mutation method _ _ => method
  | .lookup _ => .get
  | .purge _ | .entitlement _ _ => .post

def Call.path : Call → String
  | .mutation _ path _ | .lookup path => path
  | .purge npub => "/internal/purge/" ++ encodeURIComponent npub
  | .entitlement npub _ =>
    "/internal/users/" ++ encodeURIComponent npub ++ "/entitlement"

/-- The body that is signed and whose text is sent. -/
def Call.body : Call → Option JsObject
  | .mutation _ _ body => some (body.getD .empty)
  | .lookup _ => none
  | .purge _ => some .empty
  | .entitlement _ body => some body

/-! ## The request that arrives -/

structure Service where
  protocol : String
  host : String

/-- The base URL that callers are configured with. -/
def Service.baseUrl (service : Service) : String :=
  service.protocol ++ "://" ++ service.host

/-- What a route sees of the text that was sent. -/
def Route.receivedBody (route : Route) (sent : Option String) : Body :=
  if route.parsesJson then
    match sent.bind fun text => parse text.toList with
    | some value => .json value
    | none => .absent
  else .absent

def Call.event (tools : SigningTools SecretKey) (secret : SecretKey)
    (service : Service) (call : Call) (createdAt : Seconds) (nonce : String) : Nip98Event :=
  signedEvent tools secret call.method.text (service.baseUrl ++ call.path)
    (call.body.map JsObject.value) createdAt nonce

def Call.request (tools : SigningTools SecretKey) (secret : SecretKey)
    (service : Service) (call : Call) (createdAt : Seconds) (nonce : String) : Request where
  authorization := .single (header tools secret call.method.text
    (service.baseUrl ++ call.path) (call.body.map JsObject.value) createdAt
    nonce)
  method := call.method.text
  originalUrl := call.path
  protocol := service.protocol
  host := some service.host
  body := call.route.receivedBody (call.body.map fun object => object.value.compact)

/-- The gates pass no options to `verifyNip98`. -/
def gateOptions : VerifyOptions where
  expectedUrl := none
  maxSkewSeconds := none

/-! ## Reading the tags -/

theorem upperCase_text (method : Method) : upperCase method.text = method.text := by
  cases method <;> rfl

theorem lowerCase_sha256Hex (text : String) : lowerCase (sha256Hex text) = sha256Hex text := by
  rw [lowerCase, sha256Hex, hexDigest, String.toList_ofList, Hex.map_toLower_encode]

theorem sha256Hex_ne_empty (text : String) : sha256Hex text ≠ "" := by
  intro empty
  have cs := congrArg (fun text => text.toList.length) empty
  simp only [sha256Hex, hexDigest, String.toList_ofList, Hex.length_encode,
    Sha256.length_sha256] at cs
  cases cs

section

variable (method : Method) (url nonce : String) (body : Option Value)

theorem tagValue_u : tagValue (signedTags method.text url nonce body) "u" = some url := by
  simp [tagValue, signedTags]

theorem tagValue_method :
    tagValue (signedTags method.text url nonce body) "method" = some method.text := by
  simp [tagValue, signedTags, upperCase_text]

theorem truthyTag_payload :
    truthyTag (signedTags method.text url nonce body) "payload" =
      body.map fun value => sha256Hex value.compact := by
  cases body with
  | none => simp [truthyTag, tagValue, signedTags]
  | some value => simp [truthyTag, tagValue, signedTags, sha256Hex_ne_empty]

end

theorem baseUrl_ne_empty (service : Service) (path : String) : service.baseUrl ++ path ≠ "" := by
  intro empty
  have cs := congrArg String.toList empty
  simp [Service.baseUrl] at cs

/-! ## Calls at their routes -/

section

variable (tools : SigningTools SecretKey) (secret : SecretKey) (service : Service) (call : Call)
  (createdAt : Seconds) (nonce : String)

theorem tags_event : (call.event tools secret service createdAt nonce).tags =
      signedTags call.method.text (service.baseUrl ++ call.path) nonce
      (call.body.map JsObject.value) :=
  tools.finalize_tags _ _

theorem urlMatches_call : urlMatches (call.request tools secret service createdAt nonce) gateOptions
      (service.baseUrl ++ call.path) = true := by
  have eq : derivedUrl (call.request tools secret service createdAt nonce) =
      service.baseUrl ++ call.path := rfl
  rw [urlMatches, eq]
  simp

/-- What a parsing route sees of a body is the value that was signed. -/
theorem receivedBody_parsing (route : Route)
    (parses : route.parsesJson = true) (object : JsObject) :
    route.receivedBody (some object.value.compact) = .json object.value := by
  have read : parse object.value.compact.toList = some object.value := parse_compact object.ordered
  rw [Route.receivedBody, if_pos parses, Option.bind_some, read]

theorem payloadHash_object (object : JsObject) :
    payloadHash (.json object.value) = sha256Hex object.value.compact :=
  rfl

/-- The texts of no body and of an empty object have different hashes. -/
theorem sha256Hex_empty_ne : sha256Hex "" ≠ sha256Hex "\x7b\x7d" := by decide +kernel

/-- The hash of the body that arrives is the signed one, or there is none. -/
theorem payloadMatches_call :
    payloadMatches (call.request tools secret service createdAt nonce).body
      (call.event tools secret service createdAt nonce).tags =
      (call.route.parsesJson || call.body.isNone) := by
  rw [payloadMatches, tags_event, truthyTag_payload]
  cases call with
  | mutation method path body =>
    have received := receivedBody_parsing .dbApi rfl (body.getD .empty)
    simp [Call.request, Call.route, Call.body, received, payloadHash_object, lowerCase_sha256Hex,
      Route.parsesJson]
  | lookup path => rfl
  | purge npub =>
    have ne : (sha256Hex "" == sha256Hex "\x7b\x7d") = false :=
      beq_eq_false_iff_ne.mpr sha256Hex_empty_ne
    simp only [Call.body, Option.map_some, lowerCase_sha256Hex]
    exact ne
  | entitlement npub body =>
    have received := receivedBody_parsing .internalEntitlement rfl body
    simp [Call.request, Call.route, Call.body, received, payloadHash_object, lowerCase_sha256Hex,
      Route.parsesJson]

/-- The header of a call is read back as it was signed. -/
theorem rounded_event : (call.event tools secret service createdAt nonce).rounded tools.nearest =
    call.event tools secret service createdAt nonce := by
  have time : (call.event tools secret service createdAt nonce).createdAt =
      createdAt.toNumeral := tools.finalize_createdAt _ _
  have kind : (call.event tools secret service createdAt nonce).kind = nip98Kind :=
    tools.finalize_kind _ _
  have exactKind : nip98Kind.Exact := by
    unfold Numeral.Exact
    decide +kernel
  rw [Nip98Event.rounded, time, kind, tools.nearest_exact _ createdAt.exact,
    tools.nearest_exact _ exactKind, ← time, ← kind]

variable {now : ℚ} {seen : ReplayCache}

/-- At the gate of its route, only the payload of a call can be refused. -/
theorem checkRequest_call (near : |now - createdAt.value| ≤ 300) : checkRequest tools.toNostrTools
      (call.request tools secret service createdAt nonce) gateOptions now =
      if call.route.parsesJson || call.body.isNone then
      .ok (call.event tools secret service createdAt nonce)
      else .error wrongPayload := by
  have tags := tags_event tools secret service call createdAt nonce
  have time : (call.event tools secret service createdAt nonce).createdAt =
      createdAt.toNumeral := tools.finalize_createdAt _ _
  have url : truthyTag (call.event tools secret service createdAt nonce).tags
      "u" = some (service.baseUrl ++ call.path) := by
    rw [truthyTag, tags, tagValue_u]
    exact if_pos (decide_eq_true (baseUrl_ne_empty service call.path))
  have method : (tagValue
      (call.event tools secret service createdAt nonce).tags "method").map
        upperCase = some (upperCase call.method.text) := by
    rw [tags, tagValue_method]
    rfl
  have close : |now - (call.event tools secret service createdAt nonce).createdAt.value| ≤
        gateOptions.skew := by
    rw [time]
    exact near
  have carried : (call.request tools secret service createdAt nonce).authorization =
      .single (encodeHeader (call.event tools secret service createdAt nonce)) := rfl
  rw [← payloadMatches_call tools secret service call createdAt nonce,
    checkRequest_encoded carried, rounded_event]
  exact checkEvent_of_checks (tools.finalize_verifies _ _)
    (tools.finalize_kind _ _) close url method
    (urlMatches_call tools secret service call createdAt nonce)

/-- The identity that the gate learns from a call. -/
def callSigner : Signer where
  pubkey := tools.getPublicKey secret
  npub := tools.npubEncode (tools.getPublicKey secret)

section

variable (near : |now - createdAt.value| ≤ 300)
  (fresh : ∀ entry ∈ seen, entry.1 ≠ (call.event tools secret service createdAt nonce).id)
include near fresh

/-- What the gate answers to a call at its first use. -/
theorem verifyNip98_call : (verifyNip98 tools.toNostrTools
      (call.request tools secret service createdAt nonce) gateOptions now
      seen).1 =
      if call.route.parsesJson || call.body.isNone then
      .ok (callSigner tools secret)
      else .error wrongPayload := by
  rw [verifyNip98, checkRequest_call tools secret service call createdAt nonce near]
  have new : (remember (call.event tools secret service createdAt nonce).id now
      seen).1 = true := ExpiringSet.remember_new fresh
  have signer : (call.event tools secret service createdAt nonce).pubkey =
      tools.getPublicKey secret := tools.finalize_pubkey _ _
  cases call.route.parsesJson || call.body.isNone with
  | false => rfl
  | true =>
    simp only [if_true]
    split
    · rename_i known
      rw [known] at new
      cases new
    · simp [callSigner, signer]

/--
At its first use and within the clock window, a signed call is accepted exactly
when its route parses JSON or the call signs no body.
-/
theorem call_accepted_iff : (verifyNip98 tools.toNostrTools
        (call.request tools secret service createdAt nonce) gateOptions now
        seen).1 = .ok (callSigner tools secret) ↔
      call.route.parsesJson = true ∨ call.body = none := by
  have condition : (call.route.parsesJson || call.body.isNone) = true ↔
      call.route.parsesJson = true ∨ call.body = none := by
    rw [Bool.or_eq_true, Option.isNone_iff_eq_none]
  rw [verifyNip98_call tools secret service call createdAt nonce near fresh, ← condition]
  split
  · rename_i ok
    exact ⟨fun _ => ok, fun _ => rfl⟩
  · rename_i deny
    exact ⟨nofun, fun ok => absurd ok deny⟩

end

end

/-! A database mutation is accepted, the notifier's purge is not. -/

/-- An event that names its key and its time verifies. -/
def sampleSigning : SigningTools String where
  verifyEvent event := event.sig == event.pubkey
  notAnEvent := .exception
  npubEncode pubkey := "npub1" ++ pubkey
  nearest := id
  getPublicKey secret := secret
  finalizeEvent template secret :=
    { id := toString template.createdAt.toNumeral
      pubkey := secret
      createdAt := template.createdAt.toNumeral
      kind := template.kind
      tags := template.tags
      content := template.content
      sig := secret }
  finalize_verifies _ _ := beq_self_eq_true _
  finalize_pubkey _ _ := rfl
  finalize_kind _ _ := rfl
  finalize_createdAt _ _ := rfl
  finalize_tags _ _ := rfl
  nearest_exact _ _ := rfl

def sampleDbApi : Service where
  protocol := "http"
  host := "db-api:3000"

def sampleProxy : Service where
  protocol := "http"
  host := "blossom:3001"

def sampleTime : Seconds where
  toNumeral := normalize false [1, 7] 10
  exact := ⟨by decide +kernel, by decide +kernel⟩

theorem sampleTime_near : |(1700000020 : ℚ) - sampleTime.value| ≤ 300 := by decide +kernel

/-- A blob of three bytes, as it is registered. -/
def sampleBody : JsObject where
  fields := [("hash", .str "aa"), ("size", .number (normalize false [3] 1))]
  ordered := ⟨(inOrder_iff _).mpr (by decide +kernel), trivial, trivial, trivial⟩

theorem call_accepted_mutation : (verifyNip98 sampleSigning.toNostrTools
        ((Call.mutation .post "/users/a/blobs" (some sampleBody)).request sampleSigning
          "service" sampleDbApi sampleTime "00") gateOptions 1700000020
        []).1 = .ok (callSigner sampleSigning "service") :=
  (call_accepted_iff sampleSigning "service" sampleDbApi _ sampleTime "00"
    sampleTime_near (List.forall_mem_nil _)).mpr (.inl rfl)

theorem purge_refused : (verifyNip98 sampleSigning.toNostrTools
        ((Call.purge "npub1a").request sampleSigning "service" sampleProxy
          sampleTime "00") gateOptions 1700000020 []).1 =
      .error wrongPayload :=
  verifyNip98_call sampleSigning "service" sampleProxy (.purge "npub1a")
    sampleTime "00" sampleTime_near (List.forall_mem_nil _)

end StorageOrchestrator.Nip98.Signing
