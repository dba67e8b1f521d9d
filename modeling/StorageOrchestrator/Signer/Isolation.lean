import StorageOrchestrator.Lib.Transition
import StorageOrchestrator.Signer.Custody

/-!
# Origin isolation of the browser signer

Pages reach the worker through the content-script relay only; the user acts
through the popup.  A session carries, besides the worker, the origins that
the user enabled in the popup.

`relay` spreads the `args` a page chose over the message it builds, after the
`type` it means to send, so a page can choose the type itself.  The worker
checks the sender's origin for the NIP-07 calls only.  A run in which no page
names a key-custody command in its `args` isolates every origin the user has
not enabled (`uncommanded_run_isolates`); one message that does name one adds
its own origin to the allowlist (`commanding_page_enables_itself`).
-/

namespace StorageOrchestrator.Signer.Isolation

open Lib.Js Lib.JsonValue Lib.Transition Signer.Custody

section

variable {Number : Type} [ToString Number]

/-- What the relay does with a message posted to the window. -/
inductive Relayed (Number : Type) where
  | ignored
  | refused (id : JsValue Number) (error : String)
  | forwarded (id : JsValue Number) (message : Fields Number)

/-- The runtime message built for a method, `args` spread over its type. -/
def runtimeMessage (command : Command) (args : JsValue Number) : Fields Number :=
  spread args ++ [("type", .str command.text)]

/-- The relay's `message` listener. -/
def relay (data : Json Number) : Relayed Number :=
  match data.member "type" with
  | some (.str "formstr-signer-request") =>
    match data.member "method" with
    | some (.str "getPublicKey") =>
      .forwarded (data.member "id")
        (runtimeMessage .pubkey (data.member "args"))
    | some (.str "signEvent") =>
      .forwarded (data.member "id")
        (runtimeMessage .signEvent (data.member "args"))
    | method =>
      .refused (data.member "id")
        ("Unsupported method: " ++ templateText method)
  | _ => .ignored

/-- A forwarded message is one of the two NIP-07 calls with `args` spread. -/
theorem relay_eq_forwarded {data : Json Number} {id : JsValue Number}
    {message : Fields Number} (sent : relay data = .forwarded id message) :
    message = runtimeMessage .pubkey (data.member "args") ∨
      message = runtimeMessage .signEvent (data.member "args") := by
  simp only [relay] at sent
  split at sent
  · split at sent
    · cases sent
      exact .inl rfl
    · cases sent
      exact .inr rfl
    · cases sent
  · cases sent

omit [ToString Number] in
/-- The type of a built message is the one in `args`, or the default. -/
theorem lookup_type_runtimeMessage (command : Command) (args : JsValue Number) :
    (runtimeMessage command args).lookup "type" =
      ((spread args).lookup "type").or (some (.str command.text)) := by
  simp [runtimeMessage, List.lookup_append]

end

section

variable {Number Secret SignedEvent : Type} [DecidableEq Number] [Zero Number] [ToString Number]
  (tools : NostrTools Number Secret SignedEvent)

/-- What is posted back to the page. -/
structure Response (Number SignedEvent : Type) where
  id : JsValue Number
  reply : Except String (Answer Number SignedEvent)

/-- A window message of a page, through the relay and the worker. -/
def pagePost (worker : Worker Number Secret) (origin : Option String)
    (data : Json Number) (moment : Moment) :
    Worker Number Secret × Option (Response Number SignedEvent) :=
  match relay data with
  | .ignored => (worker, none)
  | .refused id error => (worker, some { id := id, reply := .error error })
  | .forwarded id message =>
    let handled := handle tools worker message origin moment
    (handled.1, some { id := id, reply := handled.2 })

inductive WorkerRequest where
  | status
  | unlock (npub passphrase : String)
  | lock
  | importKey (nsec passphrase label : String)
  | generateKey (passphrase label : String)
  | removeProfile (npub : String)
  | allowlist
  | setOriginAllowed (origin : String) (allowed : Bool)

/-- The runtime message of a popup request. -/
def WorkerRequest.message : WorkerRequest → Fields Number
  | .status => [("type", .str "status"), ("via", .str "formstr-signer-request")]
  | .unlock npub passphrase =>
    [("type", .str "unlock"), ("npub", .str npub),
      ("passphrase", .str passphrase),
      ("via", .str "formstr-signer-request")]
  | .lock => [("type", .str "lock"), ("via", .str "formstr-signer-request")]
  | .importKey nsec passphrase label =>
    [("type", .str "importKey"), ("nsec", .str nsec),
      ("passphrase", .str passphrase), ("label", .str label),
      ("via", .str "formstr-signer-request")]
  | .generateKey passphrase label =>
    [("type", .str "generateKey"), ("passphrase", .str passphrase),
      ("label", .str label), ("via", .str "formstr-signer-request")]
  | .removeProfile npub =>
    [("type", .str "removeProfile"), ("npub", .str npub),
      ("via", .str "formstr-signer-request")]
  | .allowlist =>
    [("type", .str "allowlist"), ("via", .str "formstr-signer-request")]
  | .setOriginAllowed origin allowed =>
    [("type", .str "setOriginAllowed"), ("origin", .str origin),
      ("allowed", .bool allowed), ("via", .str "formstr-signer-request")]

/-- The worker together with the origins the user enabled in the popup. -/
structure Session (Number Secret : Type) where
  worker : Worker Number Secret
  enabled : List String

/-- What happens to the signer: pages post, the user acts, the key expires. -/
inductive Action (Number : Type) where
  | page (origin : Option String) (data : Json Number) (moment : Moment)
  | popup (request : WorkerRequest) (extension : Option String)
      (moment : Moment)
  | idle

/-- The origins enabled by the user after one more popup request. -/
def enabledAfter (enabled : List String) : WorkerRequest → List String
  | .setOriginAllowed origin true =>
    origin :: enabled.filter fun other => other ≠ origin
  | .setOriginAllowed origin false =>
    enabled.filter fun other => other ≠ origin
  | _ => enabled

/-- One message handled to its end, or the idle timer. -/
def step (session : Session Number Secret) : Action Number → Option (Session Number Secret)
  | .page origin data moment =>
    some { session with
      worker := (pagePost tools session.worker origin data moment).1 }
  | .popup request extension moment =>
    some
      { worker :=
          (handle tools session.worker request.message extension moment).1
        enabled := enabledAfter session.enabled request }
  | .idle => some { session with worker := lock session.worker }

end

/-! ## What a page must not obtain -/

section

variable {Number Secret SignedEvent : Type}

/-- The answers that carry a public key or a signed event. -/
def Discloses : Answer Number SignedEvent → Prop
  | .status _ activeNpub profiles => activeNpub.isSome ∨ profiles ≠ []
  | .outcome _ _ => False
  | .npub _ => True
  | .undefined | .allowlist _ => False
  | .pubkey _ | .event _ => True

/-- The outcome of a page's message leaves the signer isolated from it. -/
structure Isolated (before : Worker Number Secret) (outcome :
      Worker Number Secret × Option (Response Number SignedEvent)) :
    Prop where
  allowlist : outcome.1.allowlist = before.allowlist
  profiles : outcome.1.profiles = before.profiles
  activeSecret : outcome.1.activeSecret = before.activeSecret
  activeNpub : outcome.1.activeNpub = before.activeNpub
  undisclosed : ∀ response answer, outcome.2 = some response → response.reply = .ok answer →
      ¬ Discloses answer

/-- The commands that read or change key custody without an origin check. -/
def custodyCommands : List Command :=
  [.status, .unlock, .lock, .importKey, .generateKey, .removeProfile, .setOriginAllowed]

/-- The `args` of a posted message name no key-custody command as `type`. -/
def Uncommanding (data : Json Number) : Prop :=
  ∀ command ∈ custodyCommands,
    (spread (data.member "args")).lookup "type" ≠ some (.str command.text)

/-- Every message a page posts in the step is `Uncommanding`. -/
def PagesUncommanding (_ : Session Number Secret) : Action Number → Prop
  | .page _ data _ => Uncommanding data
  | .popup _ _ _ | .idle => True

end

/-! ## What the handlers leave alone -/

section

variable {Number Secret SignedEvent : Type} [DecidableEq Number] [Zero Number] [ToString Number]
  (tools : NostrTools Number Secret SignedEvent)

omit [Zero Number] [ToString Number] in
theorem unlock_allowlist (worker : Worker Number Secret) (npub pass : JsValue Number) :
    (unlock tools worker npub pass).1.allowlist = worker.allowlist := by
  simp only [unlock]
  split
  · rfl
  · split <;> rfl

omit [ToString Number] in
theorem importKey_allowlist (worker : Worker Number Secret)
    (nsec pass label : JsValue Number) (moment : Moment) :
    (importKey tools worker nsec pass label moment).1.allowlist = worker.allowlist := by
  simp only [importKey]
  split
  · split
    · rfl
    · rfl
    · split
      · rfl
      · split <;> rfl
  · rfl

omit [ToString Number] in
theorem generateKey_allowlist (worker : Worker Number Secret)
    (pass label : JsValue Number) (moment : Moment) :
    (generateKey tools worker pass label moment).1.allowlist = worker.allowlist := by
  simp only [generateKey]
  split <;> rfl

omit [Zero Number] [ToString Number] in
theorem removeProfile_allowlist (worker : Worker Number Secret) (npub : JsValue Number) :
    (removeProfile worker npub).allowlist = worker.allowlist := by
  simp only [removeProfile]
  split <;> rfl

/-- Only `setOriginAllowed` writes the allowlist. -/
theorem handle_allowlist (worker : Worker Number Secret)
    (message : Fields Number) (sender : Option String) (moment : Moment)
    (other : Command.ofType? (message.lookup "type") ≠ some .setOriginAllowed) :
    (handle tools worker message sender moment).1.allowlist = worker.allowlist := by
  simp only [handle]
  split
  case h_2 =>
    exact unlock_allowlist tools _ _ _
  case h_4 =>
    exact importKey_allowlist tools _ _ _ _ _
  case h_5 =>
    exact generateKey_allowlist tools _ _ _ _
  case h_6 =>
    exact removeProfile_allowlist _ _
  case h_8 selected =>
    exact absurd selected other
  case h_9 =>
    split <;> rfl
  case h_10 =>
    split <;> rfl
  all_goals rfl

omit [Zero Number] [ToString Number] in
/-- The origin gate lets an allow-listed origin pass and no other. -/
theorem requireAllowed_eq_ok {worker : Worker Number Secret}
    {sender : Option String} (pass : requireAllowed worker sender = .ok ()) :
    ∃ origin, sender = some origin ∧ isOriginAllowed worker origin = true := by
  simp only [requireAllowed] at pass
  split at pass
  · cases pass
  · rename_i origin
    split at pass
    · cases pass
    · split at pass
      · rename_i ok
        exact ⟨origin, rfl, ok⟩
      · cases pass

section

variable (worker : Worker Number Secret) (message : Fields Number) (sender : Option String)
  (moment : Moment)
  (outside : ∀ command ∈ custodyCommands, Command.ofType? (message.lookup "type") ≠ some command)
include worker message sender moment outside

/-- A message outside key custody leaves the worker as it is. -/
theorem handle_worker_of_not_custody : (handle tools worker message sender moment).1 = worker := by
  simp only [handle]
  split
  case h_7 =>
    rfl
  case h_9 =>
    split <;> rfl
  case h_10 =>
    split <;> rfl
  case h_11 =>
    rfl
  all_goals
    rename_i sel
    exact absurd sel (outside _ (by decide))

/-- Sent from an origin that is not allow-listed, it discloses nothing. -/
theorem handle_undisclosed_of_not_custody
    (foreign : ∀ origin, sender = some origin → isOriginAllowed worker origin = false)
    {answer : Answer Number SignedEvent}
    (got : (handle tools worker message sender moment).2 = .ok answer) :
    ¬ Discloses answer := by
  have gateClosed : requireAllowed worker sender ≠ .ok () := by
    intro pass
    rcases requireAllowed_eq_ok pass with ⟨origin, sent, ok⟩
    rw [foreign origin sent] at ok
    cases ok
  simp only [handle] at got
  split at got
  case h_7 =>
    cases got
    exact id
  case h_9 =>
    split at got
    · cases got
    · rename_i pass
      exact absurd pass gateClosed
  case h_10 =>
    split at got
    · cases got
    · rename_i pass
      exact absurd pass gateClosed
  case h_11 =>
    cases got
  all_goals
    rename_i sel
    exact absurd sel (outside _ (by decide))

end

end

/-! ## Isolation along a run -/

section

variable {Number Secret SignedEvent : Type} [DecidableEq Number] [Zero Number] [ToString Number]
  (tools : NostrTools Number Secret SignedEvent)

omit [DecidableEq Number] [Zero Number] in
/-- A forwarded message of an uncommanding page is outside key custody. -/
theorem Uncommanding.not_custody {data : Json Number} {id : JsValue Number}
    {message : Fields Number} (uncommanding : Uncommanding data)
    (sent : relay data = .forwarded id message) (command : Command)
    (custody : command ∈ custodyCommands) :
    Command.ofType? (message.lookup "type") ≠ some command := by
  intro sel
  have text := Command.type_eq_of_ofType? sel
  have notInArgs := uncommanding command custody
  have defaultCase : ∀ call,
      message = runtimeMessage call (data.member "args") → call = command := by
    rintro call rfl
    rw [lookup_type_runtimeMessage] at text
    cases named : (spread (data.member "args")).lookup "type" with
    | none =>
      rw [named] at text
      have default : Command.ofType? (some (.str call.text)) =
          Command.ofType? (some (.str command.text) : JsValue Number) :=
        congrArg _ text
      simpa using default
    | some v =>
      rw [named] at text notInArgs
      exact absurd text notInArgs
  rcases relay_eq_forwarded sent with built | built
  all_goals
    rw [← defaultCase _ built] at custody
    exact absurd custody (by decide)

section

variable (worker : Worker Number Secret) (origin : Option String) (data : Json Number)
  (moment : Moment) (uncommanding : Uncommanding data)
include worker origin data moment uncommanding

/-- An uncommanding page changes nothing in the worker. -/
theorem pagePost_worker : (pagePost tools worker origin data moment).1 = worker := by
  simp only [pagePost]
  cases relayed : relay data with
  | ignored | refused id error => rfl
  | forwarded id message =>
    exact handle_worker_of_not_custody tools worker message origin moment
      (uncommanding.not_custody relayed)

/-- An uncommanding page of an origin that is not allow-listed is isolated. -/
theorem pagePost_isolated (foreign : ∀ name, origin = some name →
      isOriginAllowed worker name = false) :
    Isolated worker (pagePost tools worker origin data moment) := by
  have kept := pagePost_worker tools worker origin data moment uncommanding
  refine ⟨by rw [kept], by rw [kept], by rw [kept], by rw [kept], ?_⟩
  intro res ans told got
  simp only [pagePost] at told
  cases relayed : relay data with
  | ignored => simp [relayed] at told
  | refused id error =>
    simp only [relayed, Option.some.injEq] at told
    subst told
    cases got
  | forwarded id message =>
    simp only [relayed, Option.some.injEq] at told
    subst told
    exact handle_undisclosed_of_not_custody tools worker message origin
      moment (uncommanding.not_custody relayed) foreign got

end

/-- Every allow-listed origin was enabled by the user. -/
def AllowlistEnabled (session : Session Number Secret) : Prop :=
  ∀ entry ∈ session.worker.allowlist, ∀ origin,
    entry.origin = some (.str origin) → origin ∈ session.enabled

omit [Zero Number] [ToString Number] in
theorem AllowlistEnabled.not_allowed
    {session : Session Number Secret} (ok : AllowlistEnabled session)
    {origin : String} (unlisted : origin ∉ session.enabled) :
    isOriginAllowed session.worker origin = false := by
  by_contra allowed
  simp only [isOriginAllowed, Bool.not_eq_false, List.any_eq_true, strictEq_str_iff] at allowed
  rcases allowed with ⟨entry, mem, named⟩
  exact unlisted (ok entry mem origin named)

/-- A popup request keeps the allowlist within what the user enabled. -/
theorem AllowlistEnabled.popup (ok : AllowlistEnabled session) (req : WorkerRequest)
    (extension : Option String) (moment : Moment) :
    AllowlistEnabled
      { worker :=
          (handle tools session.worker req.message extension moment).1
        enabled := enabledAfter session.enabled req } := by
  have same : ∀ worker : Worker Number Secret, worker.allowlist = session.worker.allowlist →
      AllowlistEnabled { worker := worker, enabled := session.enabled } := by
    intro worker eq entry mem
    rw [eq] at mem
    exact ok entry mem
  cases req with
  | setOriginAllowed origin allowed =>
    intro entry mem name named
    have kept : entry ∈ session.worker.allowlist →
      strictEq entry.origin (some (.str origin)) = false →
          name ∈ session.enabled ∧ name ≠ origin := by
      intro old ne
      rw [named] at ne
      exact ⟨ok entry old name named, by simpa using ne⟩
    cases allowed with
    | false =>
      have old := List.mem_filter.mp (show entry ∈ session.worker.allowlist.filter
          (fun entry => !strictEq entry.origin (some (.str origin)))
          from mem)
      rcases kept old.1 (by simpa using old.2) with ⟨has, ne⟩
      simpa [enabledAfter] using ⟨has, ne⟩
    | true =>
      have split := List.mem_append.mp (show entry ∈ session.worker.allowlist.filter
          (fun entry => !strictEq entry.origin (some (.str origin))) ++
            [{ origin := some (.str origin), addedAt := moment.now }]
          from mem)
      rcases split with older | last
      · have old := List.mem_filter.mp older
        rcases kept old.1 (by simpa using old.2) with ⟨has, ne⟩
        simpa [enabledAfter] using .inr ⟨has, ne⟩
      · rw [List.mem_singleton] at last
        subst last
        cases named
        simp [enabledAfter]
  | _ =>
    refine same _ (handle_allowlist tools _ _ _ _ ?_)
    intro sel
    cases sel

theorem AllowlistEnabled.step {session next : Session Number Secret}
    {act : Action Number} (ok : AllowlistEnabled session)
    (uncommanding : PagesUncommanding session act) (ran : step tools session act = some next) :
    AllowlistEnabled next := by
  cases act with
  | page origin data moment =>
    cases ran
    have kept := pagePost_worker tools session.worker origin data moment uncommanding
    intro entry mem
    simp only [kept] at mem
    exact ok entry mem
  | popup req extension moment =>
    cases ran
    exact ok.popup tools req extension moment
  | idle =>
    cases ran
    exact ok

/-- A fresh installation: nothing allow-listed, nothing enabled. -/
def Session.Fresh (session : Session Number Secret) : Prop :=
  session.worker.allowlist = [] ∧ session.enabled = []

/--
While no page names a key-custody command in its `args`, a message of a page
whose origin the user has not enabled changes neither the allowlist nor the
profiles nor the lock state, and obtains no public key and no signed event.
-/
theorem uncommanded_run_isolates {initial session : Session Number Secret}
    {actions : List (Action Number)}
    (fresh : initial.Fresh)
    (run : GuardedRun (step tools) PagesUncommanding initial actions session)
    (origin : Option String) (data : Json Number) (moment : Moment)
    (uncommanding : Uncommanding data)
    (unlisted : ∀ name, origin = some name → name ∉ session.enabled) :
    Isolated session.worker (pagePost tools session.worker origin data moment) := by
  have init : AllowlistEnabled initial := by
    intro entry mem
    rw [fresh.1] at mem
    cases mem
  have sound : AllowlistEnabled session := run.invariant (fun _ _ _ h ok ran =>
        AllowlistEnabled.step tools h ok ran)
      init
  exact pagePost_isolated tools session.worker origin data moment uncommanding
    (fun name sent => sound.not_allowed (unlisted name sent))

end

/-! ## A page that names a command -/

/-- A transparent stand-in for nostr-tools: keys are numbers. -/
def transparentTools : NostrTools Nat Nat Nat where
  decodeTrimmed := fun _ => .ok (.nsec 7)
  generateSecretKey := id
  getPublicKey := fun secret => "pubkey" ++ toString secret
  npubEncode := fun pubkey => "npub" ++ pubkey
  nip49Encrypt := fun secret _ _ => .ok (toString secret)
  nip49Decrypt := fun _ _ => .ok 7
  finalizeEvent := fun _ secret => .ok secret

/-- An unlocked signer on which the user has enabled no origin. -/
def unlockedSession : Session Nat Nat where
  worker :=
    { profiles :=
        [{ ncryptsec := "7", npub := "npubpubkey7", label := .str "Key 1"
           createdAt := 0 }]
      allowlist := []
      activeSecret := some 7
      activeNpub := some "npubpubkey7" }
  enabled := []

/-- A request of the inpage script, with the `args` a page chose. -/
def pageRequest (method : String) (args : Fields Nat) : Json Nat :=
  .obj [("type", .str "formstr-signer-request"), ("id", .str "1"),
    ("method", .str method), ("args", .obj args)]

/-- The `args` of a page that asks the worker to allow-list an origin. -/
def grantArgs (origin : String) : Fields Nat :=
  [("type", .str "setOriginAllowed"), ("origin", .str origin),
    ("allowed", .bool true)]

theorem uncommanding_plain_request (method : String) : Uncommanding (pageRequest method []) := by
  intro command custody named
  cases named

/-- The user enables one origin, whose page then asks for a signature. -/
def consentedActions : List (Action Nat) :=
  [.popup (.setOriginAllowed "https://good.example" true) none ⟨0, 0⟩,
    .page (some "https://good.example") (pageRequest "signEvent" [])
      ⟨1, 0⟩]

theorem uncommanded_run_isolates_evil : ∃ session : Session Nat Nat,
      replay (step transparentTools) unlockedSession consentedActions = some session ∧
        session.enabled = ["https://good.example"] ∧
        Isolated session.worker (pagePost transparentTools session.worker
            (some "https://evil.example") (pageRequest "getPublicKey" [])
            ⟨2, 0⟩) := by
  refine ⟨_, rfl, rfl, ?_⟩
  have run : GuardedRun (step transparentTools) PagesUncommanding
      unlockedSession consentedActions _ :=
    .move trivial rfl
      (.move (uncommanding_plain_request "signEvent") rfl (.done _))
  refine uncommanded_run_isolates transparentTools ⟨rfl, rfl⟩ run
    _ _ _ (uncommanding_plain_request "getPublicKey") ?_
  rintro name ⟨⟩
  decide

/--
A page of an origin the user never enabled puts itself on the allowlist with
one message, and its next message is answered with the public key.
-/
theorem commanding_page_enables_itself : unlockedSession.Fresh ∧ ∃ seized,
        replay (step transparentTools) unlockedSession
          [.page (some "https://evil.example")
            (pageRequest "getPublicKey" (grantArgs "https://evil.example"))
            ⟨0, 0⟩] = some seized ∧
        seized.enabled = [] ∧
        seized.worker.allowlist ≠ unlockedSession.worker.allowlist ∧
        ∃ response, (pagePost transparentTools seized.worker
            (some "https://evil.example")
            (pageRequest "getPublicKey" []) ⟨0, 0⟩).2 = some response ∧
          response.reply = .ok (.pubkey "pubkey7") := by
  refine ⟨⟨rfl, rfl⟩, _, rfl, rfl, ?_, _, rfl, rfl⟩
  exact List.cons_ne_nil _ _

end StorageOrchestrator.Signer.Isolation
