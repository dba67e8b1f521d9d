import StorageOrchestrator.Lib.ExpiringSet
import StorageOrchestrator.Nip98.Events

/-!
# Verifying NIP-98 requests

`verifyNip98` as the services of the repository call it: the event in the
Authorization header, its signature, time, address, method and payload, and
last the cache of the event ids already used.  The signature itself is checked
by `nostr-tools`, which is a parameter.

The cache forgets an id after twice the largest clock skew.  An event is
accepted only within the skew of its own time, so no id is accepted twice
(`verified_ids_nodup`).
-/

namespace StorageOrchestrator.Nip98.Verify

open Lib Lib.JsonText Lib.Numerals Nip98.Events List

/-! ## Requests -/

/-- `headers["authorization"]`. -/
inductive Header where
  | absent
  | single (text : String)
  | several (texts : List String)

/-- `req.body`. -/
inductive Body where
  | absent
  | buffer (bytes : List Hex.Byte)
  | json (value : Value)

/-- `Nip98RequestLike`. -/
structure Request where
  authorization : Header
  method : String
  originalUrl : String
  protocol : String
  host : Option String
  body : Body

/-- `VerifyOptions`, apart from the cache. -/
structure VerifyOptions where
  expectedUrl : Option String
  maxSkewSeconds : Option ℚ

def defaultSkew : ℚ := 300

/-- `options.maxSkewSeconds ?? DEFAULT_SKEW`. -/
def VerifyOptions.skew (options : VerifyOptions) : ℚ := options.maxSkewSeconds.getD defaultSkew

/-- Why a request is refused: a `Nip98Error`, or another exception. -/
inductive Failure where
  | nip98Error (message : String) (status : Nat)
  | exception
deriving DecidableEq, Repr

/--
What the services use of `nostr-tools`: the check of an event, how it refuses
a value that has not the fields of one, and the text form of a public key.
`nearest` is the number that `JSON.parse` reads from a decimal; a decimal
beyond the doubles becomes a number that is no kind and no time.
-/
structure NostrTools where
  verifyEvent : Nip98Event → Bool
  notAnEvent : Failure
  npubEncode : String → String
  nearest : Numeral → Numeral

/-- `createInMemoryReplayCache`: the ids with the time they were used. -/
abbrev ReplayCache := List (String × ℚ)

def remember (id : String) (now : ℚ) (seen : ReplayCache) : Bool × ReplayCache :=
  ExpiringSet.remember (defaultSkew * 2) id now seen

/-! ## The header -/

/-- The text of the header; `undefined` and the empty text are falsy. -/
def rawHeader : Header → Option String
  | .absent => none
  | .single text => if text = "" then none else some text
  | .several texts =>
    texts.head?.bind fun text => if text = "" then none else some text

/-! ## The checks -/

/-- `tags.find((t) => t[0] === name)?.[1]`. -/
def tagValue (tags : List (List String)) (name : String) : Option String :=
  (tags.find? fun tag => tag.head? == some name).bind fun tag => tag[1]?

/-- A tag that is present and not empty. -/
def truthyTag (tags : List (List String)) (name : String) : Option String :=
  (tagValue tags name).filter (· ≠ "")

def upperCase (text : String) : String := String.ofList (text.toList.map Char.toUpper)

def lowerCase (text : String) : String := String.ofList (text.toList.map Char.toLower)

/-- `value.replace(/\/+$/, "")`. -/
def normalized (value : String) : List Char := Text.trimEndMatches (· == '/') value.toList

def derivedUrl (request : Request) : String :=
  request.protocol ++ "://" ++ request.host.getD "undefined" ++
    request.originalUrl

def urlMatches (request : Request) (options : VerifyOptions) (uTag : String) : Bool :=
  normalized (derivedUrl request) == normalized uTag || options.expectedUrl.any fun expected =>
      normalized expected == normalized uTag

def payloadHash : Body → String
  | .buffer bytes => hexDigest bytes
  | .absent | .json .null => sha256Hex ""
  | .json value => sha256Hex value.compact

/-- The body has the hash that a payload tag names, where there is one. -/
def payloadMatches (body : Body) (tags : List (List String)) : Bool :=
  match truthyTag tags "payload" with
  | none => true
  | some tag => payloadHash body == lowerCase tag

def missingHeader : Failure :=
  .nip98Error "Missing Authorization header" 401

def malformedHeader : Failure :=
  .nip98Error "Malformed Authorization header" 400

def invalidSignature : Failure :=
  .nip98Error "Invalid Nostr signature" 401

def wrongKind : Failure :=
  .nip98Error "Authorization event must be kind 27235" 401

def outsideWindow : Failure :=
  .nip98Error "Authorization event timestamp outside the accepted window" 401

def wrongTags : Failure :=
  .nip98Error "Authorization event must carry matching u and method tags" 401

def wrongUrl : Failure :=
  .nip98Error "Authorization event URL does not match the request" 401

def wrongPayload : Failure :=
  .nip98Error
    "Authorization event payload hash does not match the request body" 401

def alreadyUsed : Failure :=
  .nip98Error "Authorization event has already been used" 401

/-- The checks of a decoded event, up to the replay cache. -/
def checkEvent (tools : NostrTools) (request : Request)
    (options : VerifyOptions) (now : ℚ) (event : Nip98Event) :
    Except Failure Nip98Event :=
  if tools.verifyEvent event = false then .error invalidSignature
  else if event.kind ≠ nip98Kind then .error wrongKind
  else if |now - event.createdAt.value| > options.skew then
    .error outsideWindow
  else
    match truthyTag event.tags "u" with
    | none => .error wrongTags
    | some uTag =>
      if (tagValue event.tags "method").map upperCase ≠
          some (upperCase request.method) then
        .error wrongTags
      else if urlMatches request options uTag = false then .error wrongUrl
      else if payloadMatches request.body event.tags = false then
        .error wrongPayload
      else .ok event

/-- The event of a request that passes every check but the replay cache. -/
def checkRequest (tools : NostrTools) (request : Request) (options : VerifyOptions)
    (now : ℚ) : Except Failure Nip98Event :=
  match rawHeader request.authorization with
  | none => .error missingHeader
  | some raw =>
    match decodeHeader raw with
    | none => .error malformedHeader
    | some json =>
      match eventOf tools.nearest json with
      | none => .error tools.notAnEvent
      | some event => checkEvent tools request options now event

structure Signer where
  pubkey : String
  npub : String
deriving DecidableEq, Repr

/-- `verifyNip98`, with the replay cache before and after. -/
def verifyNip98 (tools : NostrTools) (request : Request)
    (options : VerifyOptions) (now : ℚ) (seen : ReplayCache) :
    Except Failure Signer × ReplayCache :=
  match checkRequest tools request options now with
  | .error failure => (.error failure, seen)
  | .ok event =>
    match remember event.id now seen with
    | (false, seen) => (.error alreadyUsed, seen)
    | (true, seen) =>
      (.ok { pubkey := event.pubkey, npub := tools.npubEncode event.pubkey },
        seen)

/-! ## Runs -/

/-- A request with the options of its route and the time it is served. -/
structure Arrival where
  request : Request
  options : VerifyOptions
  now : ℚ

/-- The event that the request carries, as `tools` read it. -/
def Arrival.event (tools : NostrTools) (arrival : Arrival) : Option Nip98Event :=
  (rawHeader arrival.request.authorization).bind (carriedEvent tools.nearest)

/-- The id of the event, when `verifyNip98` accepts it. -/
def verifiedId (tools : NostrTools) (seen : ReplayCache) (arrival : Arrival) : Option String :=
  match (verifyNip98 tools arrival.request arrival.options arrival.now seen).1
  with
  | .ok _ => (arrival.event tools).map Nip98Event.id
  | .error _ => none

/-- The ids accepted while requests are served one after the other. -/
def verifiedIds (tools : NostrTools) : ReplayCache → List Arrival → List String
  | _, [] => []
  | seen, arrival :: arrivals =>
    (verifiedId tools seen arrival).toList ++ verifiedIds tools
        (verifyNip98 tools arrival.request arrival.options arrival.now seen).2
        arrivals

section

theorem checkEvent_ok (ok : checkEvent tools request options now event = .ok accepted) :
    accepted = event ∧ tools.verifyEvent event = true ∧
      |now - event.createdAt.value| ≤ options.skew := by
  unfold checkEvent at ok
  split at ok
  · cases ok
  · rename_i fine
    split at ok
    · cases ok
    · split at ok
      · cases ok
      · rename_i near
        split at ok
        · cases ok
        · split at ok
          · cases ok
          · split at ok
            · cases ok
            · split at ok
              · cases ok
              · cases ok
                exact ⟨rfl, by simpa using fine, not_lt.mp near⟩

theorem checkEvent_of_checks (ok : tools.verifyEvent ev = true)
    (kind : ev.kind = nip98Kind) (near : |now - ev.createdAt.value| ≤ options.skew)
    (tagged : truthyTag ev.tags "u" = some uTag)
    (method : (tagValue ev.tags "method").map upperCase =
      some (upperCase req.method)) (url : urlMatches req options uTag = true) :
    checkEvent tools req options now ev =
      if payloadMatches req.body ev.tags then .ok ev
      else .error wrongPayload := by
  rw [checkEvent, if_neg (by simp [ok]), if_neg (not_not.mpr kind), if_neg (not_lt.mpr near)]
  simp only [tagged, method, url]
  cases payloadMatches req.body ev.tags <;> simp

end

/-- What `verifyNip98` needs to accept an event. -/
theorem checkRequest_ok {arr : Arrival}
    (ok : checkRequest tools arr.request arr.options arr.now = .ok event) :
    arr.event tools = some event ∧ tools.verifyEvent event = true ∧
      |arr.now - event.createdAt.value| ≤ arr.options.skew := by
  unfold checkRequest at ok
  split at ok
  · cases ok
  · rename_i raw found
    split at ok
    · cases ok
    · rename_i json decoded
      split at ok
      · cases ok
      · rename_i kept shaped
        obtain ⟨rfl, fine, near⟩ := checkEvent_ok ok
        refine ⟨?_, fine, near⟩
        simp [Arrival.event, carriedEvent, found, decoded, shaped]

theorem rawHeader_encoded (ev : Nip98Event) :
    rawHeader (.single (encodeHeader ev)) = some (encodeHeader ev) := by
  rw [rawHeader, if_neg (encodeHeader_ne_empty ev)]

/-- A header that carries an event passes when the event does. -/
theorem checkRequest_encoded {req : Request}
    (kept : req.authorization = .single (encodeHeader event)) (tools : NostrTools)
    (options : VerifyOptions) (now : ℚ) :
    checkRequest tools req options now =
      checkEvent tools req options now (event.rounded tools.nearest) := by
  unfold checkRequest
  simp [kept, rawHeader_encoded, decodeHeader_encodeHeader, eventOf_eventJson]

/-- A request leaves the cache as it is, or an id is looked up in it. -/
theorem seen_afterwards (tools : NostrTools) (seen : ReplayCache) (arr : Arrival) :
    (verifyNip98 tools arr.request arr.options arr.now seen).2 = seen ∨
      ∃ id, (verifyNip98 tools arr.request arr.options arr.now
      seen).2 = (remember id arr.now seen).2 := by
  unfold verifyNip98
  split
  · exact .inl rfl
  · rename_i ev ok
    right
    refine ⟨ev.id, ?_⟩
    split <;> simp [*]

theorem remembered_of_verifiedId {tools : NostrTools} {seen : ReplayCache}
    {arr : Arrival} {id : String} (fine : verifiedId tools seen arr = some id) :
    ∃ ev, arr.event tools = some ev ∧ ev.id = id ∧ tools.verifyEvent ev = true ∧
      |arr.now - ev.createdAt.value| ≤ arr.options.skew ∧
      (remember id arr.now seen).1 = true ∧
      (verifyNip98 tools arr.request arr.options arr.now seen).2 =
      (remember id arr.now seen).2 := by
  unfold verifiedId verifyNip98 at fine
  unfold verifyNip98
  split at fine
  · rename_i signer ok
    split at ok
    · cases ok
    · rename_i ev checked
      obtain ⟨kept, signed, near⟩ := checkRequest_ok checked
      rw [kept] at fine
      cases fine
      refine ⟨ev, kept, rfl, signed, near, ?_⟩
      split at ok
      · cases ok
      · rename_i post new
        rw [new]
        exact ⟨rfl, rfl⟩
  · cases fine

/-! ## No id is accepted twice -/

/-- Every verified event of the requests has the time that its id stands for. -/
def Stamped (tools : NostrTools) (stamp : String → ℚ) (arrivals : List Arrival) : Prop :=
  ∀ arrival ∈ arrivals, ∀ event, arrival.event tools = some event →
    tools.verifyEvent event = true → event.createdAt.value = stamp event.id

/-- No two verified events of the requests share an id but not their time. -/
def IdsFixTimes (tools : NostrTools) (arrivals : List Arrival) : Prop :=
  ∀ first ∈ arrivals, ∀ second ∈ arrivals, ∀ left right,
    first.event tools = some left → second.event tools = some right →
    tools.verifyEvent left = true → tools.verifyEvent right = true →
    left.id = right.id → left.createdAt = right.createdAt

theorem IdsFixTimes.exists_stamp (fixed : IdsFixTimes tools arrivals) :
    ∃ stamp, Stamped tools stamp arrivals := by
  classical
  let Carried (id : String) (ev : Nip98Event) : Prop :=
    (∃ arr ∈ arrivals, arr.event tools = some ev) ∧ tools.verifyEvent ev = true ∧ ev.id = id
  refine ⟨fun id =>
    if known : ∃ ev, Carried id ev then known.choose.createdAt.value
    else 0, ?_⟩
  intro arr mem ev kept ok
  have known : ∃ other, Carried ev.id other := ⟨ev, ⟨arr, mem, kept⟩, ok, rfl⟩
  obtain ⟨⟨other, omem, otherCarried⟩, otherVerified, eq⟩ := known.choose_spec
  dsimp only
  rw [dif_pos known]
  exact congrArg Numeral.value (fixed _ mem _ omem _ _ kept otherCarried ok otherVerified eq.symm)

/-- The age at which the cache forgets is twice the largest skew. -/
theorem longEnough : defaultSkew + defaultSkew ≤ defaultSkew * 2 := by rw [mul_two]

section

/-- One request: what is accepted is new, and the cache keeps covering it. -/
theorem covers_step {seen : ReplayCache} {arrival : Arrival}
    (stamped : Stamped tools stamp [arrival]) (skew : arrival.options.skew ≤ defaultSkew)
    (covered : ExpiringSet.Covers stamp defaultSkew arrival.now seen used) :
    (∀ id ∈ (verifiedId tools seen arrival).toList, id ∉ used) ∧
      ExpiringSet.Covers stamp defaultSkew arrival.now
      (verifyNip98 tools arrival.request arrival.options arrival.now seen).2
      ((verifiedId tools seen arrival).toList ++ used) := by
  cases fine : verifiedId tools seen arrival with
  | none =>
    refine ⟨nofun, ?_⟩
    rcases seen_afterwards tools seen arrival with eq | ⟨id, looked⟩
    · rw [eq]
      exact covered
    · rw [looked]
      exact covered.remember longEnough
  | some id =>
    obtain ⟨ev, carried, rfl, signed, near, new, post⟩ := remembered_of_verifiedId fine
    have time := stamped arrival (mem_singleton.mpr rfl) ev carried signed
    rw [time] at near
    have close := near.trans skew
    rw [post]
    constructor
    · intro id mem
      rw [mem_singleton.mp mem]
      exact covered.not_mem longEnough close new
    · exact covered.remember_cons longEnough close new

/-- A whole run: nothing accepted was used before, or is accepted again. -/
theorem verifiedIds_run {comes : List Arrival} {seen : ReplayCache}
    (stamped : Stamped tools stamp comes) (skews : ∀ arr ∈ comes, arr.options.skew ≤ defaultSkew)
    (begun : ∀ arr ∈ comes, start ≤ arr.now)
    (clock : comes.Pairwise fun first second => first.now ≤ second.now)
    (covers : ExpiringSet.Covers stamp defaultSkew start seen used) :
    (verifiedIds tools seen comes).Nodup ∧ ∀ id ∈ verifiedIds tools seen comes, id ∉ used := by
  induction comes generalizing seen start used with
  | nil => exact ⟨nodup_nil, nofun⟩
  | cons arr comes ih =>
    rw [pairwise_cons] at clock
    have here : ExpiringSet.Covers stamp defaultSkew arr.now seen used :=
      covers.mono (begun arr mem_cons_self)
    have stampedHere : Stamped tools stamp [arr] := by
      intro other mem
      rw [mem_singleton.mp mem]
      exact stamped arr mem_cons_self
    obtain ⟨new, covered⟩ := covers_step stampedHere (skews arr mem_cons_self) here
    obtain ⟨nodup, unused⟩ := ih (fun other mem => stamped other (mem_cons_of_mem _ mem))
      (fun other mem => skews other (mem_cons_of_mem _ mem))
      clock.1 clock.2 covered
    rw [verifiedIds]
    constructor
    · refine nodup_append.mpr ⟨?_, nodup, ?_⟩
      · cases verifiedId tools seen arr <;> simp
      · rintro id first other later rfl
        exact unused id later (mem_append_left _ first)
    · intro id mem
      rcases mem_append.mp mem with first | later
      · exact new id first
      · intro pre
        exact unused id later (mem_append_right _ pre)

end

/--
While requests are served with one replay cache, skews of at most 300 seconds
and a clock that does not go back, no event id is accepted twice.
-/
theorem verified_ids_nodup (tools : NostrTools) (arrivals : List Arrival)
    (fixed : IdsFixTimes tools arrivals)
    (skews : ∀ arrival ∈ arrivals, arrival.options.skew ≤ 300)
    (clock : arrivals.Pairwise fun first second => first.now ≤ second.now) :
    (verifiedIds tools [] arrivals).Nodup := by
  obtain ⟨stamp, stamped⟩ := fixed.exists_stamp
  cases arrivals with
  | nil => exact nodup_nil
  | cons arrival arrivals =>
    have begun : ∀ other ∈ arrival :: arrivals, arrival.now ≤ other.now := by
      intro other mem
      rcases mem_cons.mp mem with rfl | mem
      · exact le_refl _
      · exact (pairwise_cons.mp clock).1 other mem
    have covered : ExpiringSet.Covers stamp defaultSkew arrival.now ([] : ReplayCache) [] := nofun
    exact (verifiedIds_run stamped skews begun clock covered).1

/-! A header used again at the far end of its window is refused, however its time is written. -/

/-- The id that belongs to an event: the hash of its content. -/
def contentId (event : Nip98Event) : String :=
  sha256Hex (JsonValue.Json.compact (.arr
    [.number (normalize false [0] 1), .str event.pubkey, .number event.createdAt,
      .number event.kind, .arr (event.tags.map fun tag => .arr (tag.map .str)),
      .str event.content]))

/-- The number with at most fifteen of its digits, which a double keeps. -/
def fifteen (number : Numeral) : Numeral :=
  normalize number.negative (number.digits.take 15) number.point

/-- An event verifies when its id is the hash of its content and its key stands under it. -/
def sampleTools : NostrTools where
  verifyEvent event := event.id == contentId event && event.sig == event.pubkey
  notAnEvent := .exception
  npubEncode := id
  nearest := fifteen

/-- An event with the id that belongs to it. -/
def identified (event : Nip98Event) : Nip98Event := { event with id := contentId event }

theorem verifyEvent_identified (event : Nip98Event) (signed : event.sig = event.pubkey) :
    sampleTools.verifyEvent (identified event) = true := by
  have same : (identified event).id = contentId (identified event) := rfl
  simp only [sampleTools, same, beq_self_eq_true, Bool.true_and]
  exact beq_iff_eq.mpr signed

def sampleEvent : Nip98Event :=
  identified
    { id := ""
      pubkey := "22"
      createdAt := normalize false [1, 7] 10
      kind := nip98Kind
      tags := [["u", "http://storage/list"], ["method", "GET"]]
      content := ""
      sig := "22" }

/-- The event with its time written as 1700000000.00000001. -/
def rewritten : Nip98Event :=
  { sampleEvent with
    createdAt := normalize false [1, 7, 0, 0, 0, 0, 0, 0, 0, 0, 0, 0, 0, 0, 0, 0, 0, 1] 10 }

def sampleRequest (carried : Nip98Event) : Request where
  authorization := .single (encodeHeader carried)
  method := "GET"
  originalUrl := "/list"
  protocol := "http"
  host := some "storage"
  body := .absent

def sampleOptions : VerifyOptions where
  expectedUrl := none
  maxSkewSeconds := none

/-- The event at the start of its window, and the rewritten one at the end. -/
def sampleArrivals : List Arrival :=
  [⟨sampleRequest sampleEvent, sampleOptions, 1699999700⟩,
    ⟨sampleRequest rewritten, sampleOptions, 1700000300⟩]

theorem event_sampleRequest (carried : Nip98Event)
    (read : carried.rounded fifteen = sampleEvent) (options : VerifyOptions) (now : ℚ) :
    Arrival.event sampleTools ⟨sampleRequest carried, options, now⟩ = some sampleEvent := by
  rw [Arrival.event, sampleRequest, rawHeader_encoded, Option.bind_some, carriedEvent_encodeHeader]
  exact congrArg some read

theorem checkRequest_sample (carried : Nip98Event) (now : ℚ)
    (read : carried.rounded fifteen = sampleEvent) (near : |now - 1700000000| ≤ 300) :
    checkRequest sampleTools (sampleRequest carried) sampleOptions now = .ok sampleEvent := by
  have time : sampleEvent.createdAt.value = 1700000000 := by decide +kernel
  have url : urlMatches (sampleRequest carried) sampleOptions "http://storage/list" = true := by
    have derived : derivedUrl (sampleRequest carried) = "http://storage/list" := rfl
    rw [urlMatches, derived]
    simp
  rw [← time] at near
  have rounded : carried.rounded sampleTools.nearest = sampleEvent := read
  have signed : sampleTools.verifyEvent sampleEvent = true := verifyEvent_identified _ rfl
  rw [checkRequest_encoded rfl, rounded, checkEvent_of_checks signed rfl near rfl rfl url]
  rfl

theorem remember_first (id : String) (now : ℚ) : remember id now [] = (true, [(id, now)]) := rfl

theorem remember_again (id : String) :
    remember id 1700000300 [(id, 1699999700)] = (false, [(id, 1699999700)]) := by
  have kept : ¬ (1700000300 - 1699999700 : ℚ) > defaultSkew * 2 := by decide +kernel
  simp [remember, ExpiringSet.remember, ExpiringSet.unexpired, kept]

theorem verifiedIds_again {event : Nip98Event} {first second : Request}
    (read : Arrival.event sampleTools ⟨first, sampleOptions, 1699999700⟩ = some event)
    (fresh : checkRequest sampleTools first sampleOptions 1699999700 = .ok event)
    (again : checkRequest sampleTools second sampleOptions 1700000300 = .ok event) :
    verifiedIds sampleTools [] [⟨first, sampleOptions, 1699999700⟩,
      ⟨second, sampleOptions, 1700000300⟩] = [event.id] := by
  simp only [verifiedIds, verifiedId, verifyNip98, read, fresh, again, remember_first,
    remember_again]
  rfl

theorem verified_ids_nodup_replayed :
    verifiedIds sampleTools [] sampleArrivals = [sampleEvent.id] ∧
      (verifiedIds sampleTools [] sampleArrivals).Nodup := by
  have plain : sampleEvent.rounded fifteen = sampleEvent := rfl
  have again : rewritten.rounded fifteen = sampleEvent := rfl
  have carried : ∀ arrival ∈ sampleArrivals, arrival.event sampleTools = some sampleEvent := by
    simp [sampleArrivals, event_sampleRequest _ plain, event_sampleRequest _ again]
  constructor
  · exact verifiedIds_again (event_sampleRequest _ plain _ _)
      (checkRequest_sample sampleEvent 1699999700 plain (by decide +kernel))
      (checkRequest_sample rewritten 1700000300 again (by decide +kernel))
  · apply verified_ids_nodup
    · intro first firstMem second secondMem left right isLeft isRight _ _ _
      rw [carried first firstMem] at isLeft
      rw [carried second secondMem] at isRight
      exact congrArg Nip98Event.createdAt (Option.some.inj (isLeft.symm.trans isRight))
    · have skew : sampleOptions.skew ≤ 300 := le_refl _
      simp [sampleArrivals, skew]
    · have later : (1699999700 : ℚ) ≤ 1700000300 := by decide +kernel
      simp [sampleArrivals, later]

end StorageOrchestrator.Nip98.Verify
