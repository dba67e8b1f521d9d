import StorageOrchestrator.Lib.Js

/-!
# The service worker of the browser signer

Key custody and request handling: the stored profiles and allowlist of
`core.ts`, the decrypted key held in memory, and the dispatch on the message
type in `background.ts`.  A message is handled to its end before the next
one starts.

nostr-tools (key codecs, NIP-49 encryption, event signing) is a parameter.
The clock and the randomness a message draws on are given by a `Moment`.
-/

namespace StorageOrchestrator.Signer.Custody

open Lib.Js Lib.JsonValue

/-- What one message reads of the clock and of the random source. -/
structure Moment where
  now : Nat
  entropy : Nat

/-- A decoded NIP-19 text. -/
inductive Decoded (Secret : Type) where
  | nsec (secret : Secret)
  | other (kind : String)

/-- The nostr-tools functions the worker calls; an error is a thrown one. -/
structure NostrTools (Number Secret SignedEvent : Type) where
  decodeTrimmed : String → Except String (Decoded Secret)
  generateSecretKey : Nat → Secret
  getPublicKey : Secret → String
  npubEncode : String → String
  nip49Encrypt : Secret → JsValue Number → Nat → Except String String
  nip49Decrypt : String → JsValue Number → Except String Secret
  finalizeEvent : JsValue Number → Secret → Except String SignedEvent

/-- A stored profile; only the encrypted key is persisted. -/
structure StoredProfile (Number : Type) where
  ncryptsec : String
  npub : String
  label : Json Number
  createdAt : Nat

/-- An allowlist entry, with whatever value came as its origin. -/
structure AllowlistEntry (Number : Type) where
  origin : JsValue Number
  addedAt : Nat

/-- Extension storage together with the key held in memory. -/
structure Worker (Number Secret : Type) where
  profiles : List (StoredProfile Number)
  allowlist : List (AllowlistEntry Number)
  activeSecret : Option Secret
  activeNpub : Option String

/-- The part of a profile that `status` lists. -/
structure ProfileSummary (Number : Type) where
  npub : String
  label : Json Number
  createdAt : Nat

/-- The `data` of an answer the worker gives without throwing. -/
inductive Answer (Number SignedEvent : Type) where
  | status (unlocked : Bool) (activeNpub : Option String)
      (profiles : List (ProfileSummary Number))
  | outcome (ok : Bool) (error : Option String)
  | npub (npub : String)
  | undefined
  | allowlist (entries : List (AllowlistEntry Number))
  | pubkey (pubkey : String)
  | event (event : SignedEvent)

/-- The message types `handle` knows. -/
inductive Command where
  | status
  | unlock
  | lock
  | importKey
  | generateKey
  | removeProfile
  | allowlist
  | setOriginAllowed
  | pubkey
  | signEvent
deriving DecidableEq, Repr

/-- The text of a message type. -/
def Command.text : Command → String
  | .status => "status"
  | .unlock => "unlock"
  | .lock => "lock"
  | .importKey => "importKey"
  | .generateKey => "generateKey"
  | .removeProfile => "removeProfile"
  | .allowlist => "allowlist"
  | .setOriginAllowed => "setOriginAllowed"
  | .pubkey => "pubkey"
  | .signEvent => "signEvent"

/-- The cases of the `switch` in `handle`, in source order. -/
def Command.all : List Command :=
  [.status, .unlock, .lock, .importKey, .generateKey, .removeProfile,
    .allowlist, .setOriginAllowed, .pubkey, .signEvent]

/-- The case a message type selects; `none` is the `default` case. -/
def Command.ofType? {Number : Type} (type : JsValue Number) : Option Command :=
  match type with
  | some (.str text) => Command.all.find? fun command => command.text = text
  | _ => none

/-- A selected case is the one that the message type spells out. -/
theorem Command.type_eq_of_ofType? {Number : Type} {type : JsValue Number}
    {cmd : Command} (sel : Command.ofType? type = some cmd) :
    type = some (.str cmd.text) := by
  unfold Command.ofType? at sel
  split at sel
  · have text := List.find?_some sel
    simp only [decide_eq_true_eq] at text
    rw [text]
  · cases sel

@[simp]
theorem Command.ofType?_text {Number : Type} (command : Command) :
    Command.ofType? (some (.str command.text) : JsValue Number) = some command := by
  cases command <;> rfl

section

variable {Number Secret SignedEvent : Type} [DecidableEq Number] [Zero Number] [ToString Number]
  (tools : NostrTools Number Secret SignedEvent)

/-- The worker after a message, and its answer or the thrown error. -/
abbrev Handled (Number Secret SignedEvent : Type) :=
  Worker Number Secret × Except String (Answer Number SignedEvent)

/-- `label || "Key n"`. -/
def labelOr (label : JsValue Number) (profiles : List (StoredProfile Number)) : Json Number :=
  match label with
  | some value =>
    if truthy label then value
    else .str ("Key " ++ toString (profiles.length + 1))
  | none => .str ("Key " ++ toString (profiles.length + 1))

def NostrTools.npubOf (secret : Secret) : String := tools.npubEncode (tools.getPublicKey secret)

/-- Encrypt a key and append its profile. -/
def storeKey (worker : Worker Number Secret) (secret : Secret)
    (ncryptsec : String) (label : JsValue Number) (moment : Moment) :
    Handled Number Secret SignedEvent :=
  let profile : StoredProfile Number :=
    { ncryptsec := ncryptsec
      npub := tools.npubOf secret
      label := labelOr label worker.profiles
      createdAt := moment.now }
  ({ worker with profiles := worker.profiles ++ [profile] },
    .ok (.npub (tools.npubOf secret)))

def importKey (worker : Worker Number Secret)
    (nsec passphrase label : JsValue Number) (moment : Moment) :
    Handled Number Secret SignedEvent :=
  match nsec with
  | some (.str text) =>
    match tools.decodeTrimmed text with
    | .error thrown => (worker, .error thrown)
    | .ok (.other _) => (worker, .error "Not an nsec")
    | .ok (.nsec secret) =>
      match tools.nip49Encrypt secret passphrase moment.entropy with
      | .error thrown => (worker, .error thrown)
      | .ok ncryptsec =>
        if worker.profiles.any fun profile => profile.npub = tools.npubOf secret then
          (worker, .error "Key already imported")
        else storeKey tools worker secret ncryptsec label moment
  | _ => (worker, .error "nsec.trim is not a function")

def generateKey (worker : Worker Number Secret)
    (passphrase label : JsValue Number) (moment : Moment) :
    Handled Number Secret SignedEvent :=
  let secret := tools.generateSecretKey moment.entropy
  match tools.nip49Encrypt secret passphrase moment.entropy with
  | .error thrown => (worker, .error thrown)
  | .ok ncryptsec => storeKey tools worker secret ncryptsec label moment

/-- Forget the decrypted key. -/
def lock (worker : Worker Number Secret) : Worker Number Secret :=
  { worker with activeSecret := none, activeNpub := none }

/-- `null` or the text, as JavaScript compares it. -/
def nullable (text : Option String) : JsValue Number := some (text.elim .null .str)

def removeProfile (worker : Worker Number Secret) (npub : JsValue Number) : Worker Number Secret :=
  let kept :=
    { worker with
      profiles := worker.profiles.filter fun profile =>
        !strictEq (some (.str profile.npub)) npub }
  if strictEq (nullable worker.activeNpub) npub then lock kept else kept

def unlock (worker : Worker Number Secret) (npub passphrase : JsValue Number) :
    Handled Number Secret SignedEvent :=
  match worker.profiles.find? fun candidate =>
      strictEq (some (.str candidate.npub)) npub with
  | none => (worker, .ok (.outcome false (some "Unknown profile")))
  | some profile =>
    match tools.nip49Decrypt profile.ncryptsec passphrase with
    | .error _ => (worker, .ok (.outcome false (some "Wrong passphrase")))
    | .ok secret =>
      ({ worker with
          activeSecret := some secret
          activeNpub := some profile.npub },
        .ok (.outcome true none))

def status (worker : Worker Number Secret) : Answer Number SignedEvent :=
  .status worker.activeSecret.isSome worker.activeNpub (worker.profiles.map fun profile =>
      { npub := profile.npub
        label := profile.label
        createdAt := profile.createdAt })

def setOriginAllowed (worker : Worker Number Secret)
    (origin allowed : JsValue Number) (moment : Moment) :
    Worker Number Secret :=
  let others := worker.allowlist.filter fun entry =>
    !strictEq entry.origin origin
  { worker with
    allowlist :=
      if truthy allowed then
        others ++ [{ origin := origin, addedAt := moment.now }]
      else others }

def isOriginAllowed (worker : Worker Number Secret) (origin : String) : Bool :=
  worker.allowlist.any fun entry =>
    strictEq entry.origin (some (.str origin))

/-- Origin gate of the NIP-07 calls. -/
def requireAllowed (worker : Worker Number Secret) (sender : Option String) : Except String Unit :=
  match sender with
  | none => .error "Unknown caller origin"
  | some origin =>
    if origin = "" then .error "Unknown caller origin"
    else if isOriginAllowed worker origin then .ok ()
    else .error ("Origin not enabled: " ++ origin)

def getActivePublicKey (worker : Worker Number Secret) : Answer Number SignedEvent :=
  match worker.activeSecret with
  | none => .outcome false (some "Signer locked")
  | some secret => .pubkey (tools.getPublicKey secret)

def signEvent (worker : Worker Number Secret) (template : JsValue Number) :
    Except String (Answer Number SignedEvent) :=
  match worker.activeSecret with
  | none => .ok (.outcome false (some "Signer locked"))
  | some secret =>
    match tools.finalizeEvent template secret with
    | .error thrown => .error thrown
    | .ok event => .ok (.event event)

/-- Dispatch of one runtime message on its `type` field. -/
def handle (worker : Worker Number Secret) (message : Fields Number)
    (sender : Option String) (moment : Moment) :
    Handled Number Secret SignedEvent :=
  let field := fun name => message.lookup name
  match Command.ofType? (field "type") with
  | some .status => (worker, .ok (status worker))
  | some .unlock =>
    unlock tools worker (field "npub") (field "passphrase")
  | some .lock => (lock worker, .ok (.outcome true none))
  | some .importKey =>
    importKey tools worker (field "nsec") (field "passphrase")
      (field "label") moment
  | some .generateKey =>
    generateKey tools worker (field "passphrase") (field "label") moment
  | some .removeProfile =>
    (removeProfile worker (field "npub"), .ok .undefined)
  | some .allowlist => (worker, .ok (.allowlist worker.allowlist))
  | some .setOriginAllowed =>
    (setOriginAllowed worker (field "origin") (field "allowed") moment,
      .ok (.outcome true none))
  | some .pubkey =>
    match requireAllowed worker sender with
    | .error thrown => (worker, .error thrown)
    | .ok () => (worker, .ok (getActivePublicKey tools worker))
  | some .signEvent =>
    match requireAllowed worker sender with
    | .error thrown => (worker, .error thrown)
    | .ok () => (worker, signEvent tools worker (field "event"))
  | none =>
    (worker,
      .error ("Unknown message type: " ++ templateText (field "type")))

end

end StorageOrchestrator.Signer.Custody
