import StorageOrchestrator.Lib.ByteText
import StorageOrchestrator.Lib.JsonText
import StorageOrchestrator.Lib.Sha256

/-!
# NIP-98 events and their headers

The event that an Authorization header carries, as the signer writes it and as
the verifier reads it: JSON in UTF-8 in base64, after the scheme.  What is
written reads back, with its numbers rounded (`carriedEvent_encodeHeader`):
`JSON.parse` gives the double nearest to a decimal, and `nearest` stands for
that double's shortest decimal.
-/

namespace StorageOrchestrator.Nip98.Events

open Lib Lib.JsonValue Lib.JsonText Lib.Numerals

/-- The event of an Authorization header. -/
structure Nip98Event where
  id : String
  pubkey : String
  createdAt : Numeral
  kind : Numeral
  tags : List (List String)
  content : String
  sig : String
deriving DecidableEq

/-- A value that is a text. -/
def asString : Value → Option String
  | .str text => some text
  | _ => none

/-- A value that is a number, as `JSON.parse` reads it. -/
def asNumber (nearest : Numeral → Numeral) : Value → Option Numeral
  | .number number => some (nearest number)
  | _ => none

/-- A value that is an array. -/
def asItems : Value → Option (List Value)
  | .arr items => some items
  | _ => none

/-- A tag: an array of texts. -/
def asTag (json : Value) : Option (List String) :=
  (asItems json).bind fun items => items.mapM asString

/-- The event that a JSON value is, when it has all the fields of one. -/
def eventOf (nearest : Numeral → Numeral) (json : Value) : Option Nip98Event :=
  match (json.member "id").bind asString,
    (json.member "pubkey").bind asString,
    (json.member "created_at").bind (asNumber nearest),
    (json.member "kind").bind (asNumber nearest),
    ((json.member "tags").bind asItems).bind fun tags => tags.mapM asTag,
    (json.member "content").bind asString,
    (json.member "sig").bind asString with
  | some id, some pubkey, some createdAt, some kind, some tags,
      some content, some sig =>
      some
        { id := id
          pubkey := pubkey
          createdAt := createdAt
          kind := kind
          tags := tags
          content := content
          sig := sig }
  | _, _, _, _, _, _, _ => none

/-- The kind of NIP-98 events, 27235. -/
def nip98Kind : Numeral := normalize false [2, 7, 2, 3, 5] 5

/-- The JSON value of an event, in the order its fields were set. -/
def eventJson (event : Nip98Event) : Value :=
  .obj
    [("kind", .number event.kind),
      ("created_at", .number event.createdAt),
      ("content", .str event.content),
      ("tags", .arr (event.tags.map fun tag => .arr (tag.map .str))),
      ("pubkey", .str event.pubkey),
      ("id", .str event.id),
      ("sig", .str event.sig)]

/-! ## Hashes -/

/-- The SHA-256 hash of some bytes, in hexadecimal. -/
def hexDigest (bytes : List Hex.Byte) : String := String.ofList (Hex.encode (Sha256.sha256 bytes))

/-- The hash of a text in UTF-8. -/
def sha256Hex (value : String) : String := hexDigest (ByteText.utf8 value.toList)

/-! ## The header -/

/-- The white space of a regular expression. -/
def isSpace (letter : Char) : Bool :=
  (Text.isBlank letter && letter.toNat != 0x85) || letter.toNat == 0xFEFF

/-- `raw.replace(/^Nostr\s+/i, "")`. -/
def withoutScheme (raw : List Char) : List Char :=
  let scheme := raw.take 5
  let rest := raw.drop 5
  if scheme.map Char.toLower = "nostr".toList ∧ rest.head?.any isSpace then
    rest.dropWhile isSpace
  else raw

/-- The JSON value inside the header. -/
def decodeHeader (raw : String) : Option Value :=
  parse (ByteText.ofUtf8 (ByteText.ofBase64 (withoutScheme raw.toList)))

/-- The event inside the header. -/
def carriedEvent (nearest : Numeral → Numeral) (raw : String) : Option Nip98Event :=
  (decodeHeader raw).bind (eventOf nearest)

/-- An event with its numbers rounded. -/
def Nip98Event.rounded (nearest : Numeral → Numeral) (event : Nip98Event) : Nip98Event :=
  { event with createdAt := nearest event.createdAt, kind := nearest event.kind }

/-- `Nostr ${Buffer.from(JSON.stringify(event)).toString("base64")}`. -/
def encodeHeader (event : Nip98Event) : String :=
  String.ofList ("Nostr ".toList ++
    ByteText.toBase64 (ByteText.utf8 (eventJson event).compact.toList))

/-! ## What is written reads back -/

theorem mapM_asString (texts : List String) :
    (texts.map (Json.str : String → Value)).mapM asString = some texts := by
  induction texts with
  | nil => rfl
  | cons text texts ih => simp [asString, ih]

theorem mapM_asTag (tags : List (List String)) :
    (tags.map fun tag => (Json.arr (tag.map .str) : Value)).mapM asTag = some tags := by
  induction tags with
  | nil => rfl
  | cons tag tags ih =>
    have read : asTag (.arr (tag.map .str)) = some tag := mapM_asString tag
    rw [List.map_cons, List.mapM_cons, read, ih]
    rfl

theorem eventOf_eventJson (nearest : Numeral → Numeral) (event : Nip98Event) :
    eventOf nearest (eventJson event) = some (event.rounded nearest) := by
  have tags := mapM_asTag event.tags
  simp [eventOf, eventJson, Json.member, List.lookup, asString, asNumber, asItems, tags,
    Nip98Event.rounded]

theorem orderedItems_strings (texts : List String) : OrderedItems (texts.map .str) := by
  induction texts with
  | nil => trivial
  | cons text texts ih => exact ⟨trivial, ih⟩

theorem orderedItems_tags (tags : List (List String)) :
    OrderedItems (tags.map fun tag => .arr (tag.map .str)) := by
  induction tags with
  | nil => trivial
  | cons tag tags ih =>
    exact ⟨orderedItems_strings tag, ih⟩

theorem ordered_eventJson (event : Nip98Event) : Ordered (eventJson event) := by
  refine ⟨(inOrder_iff _).mpr ?_, trivial, trivial, trivial,
    orderedItems_tags event.tags, trivial, trivial, trivial, trivial⟩
  have names : ["kind", "created_at", "content", "tags", "pubkey", "id",
      "sig"].Pairwise fun first second =>
        first ≠ second ∧ precedes second first = false := by
    decide +kernel
  exact names

theorem isSpace_sextetLetter (sextet : Fin 64) :
    isSpace (ByteText.sextetLetter sextet) = false := by
  revert sextet
  decide +kernel

theorem withoutScheme_base64 (bytes : List Hex.Byte) :
    withoutScheme ("Nostr ".toList ++ ByteText.toBase64 bytes) = ByteText.toBase64 bytes := by
  have shown : (ByteText.toBase64 bytes).dropWhile isSpace = ByteText.toBase64 bytes := by
    cases letters : ByteText.toBase64 bytes with
    | nil => rfl
    | cons letter rest =>
      have head : (ByteText.toBase64 bytes).head? = some letter := by
        rw [letters]
        rfl
      obtain ⟨sextet, rfl⟩ := ByteText.head_toBase64 head
      exact List.dropWhile_cons_of_neg (by simp [isSpace_sextetLetter])
  exact shown

theorem toList_encodeHeader (event : Nip98Event) :
    (encodeHeader event).toList = "Nostr ".toList ++
      ByteText.toBase64 (ByteText.utf8 (eventJson event).compact.toList) :=
  String.toList_ofList

theorem encodeHeader_ne_empty (event : Nip98Event) : encodeHeader event ≠ "" := by
  intro empty
  have letters := toList_encodeHeader event
  rw [empty] at letters
  cases letters

theorem payload_encodeHeader (event : Nip98Event) :
    ByteText.ofBase64 (withoutScheme (encodeHeader event).toList) =
      ByteText.utf8 (eventJson event).compact.toList := by
  rw [toList_encodeHeader, withoutScheme_base64, ByteText.ofBase64_toBase64]

theorem decodeHeader_encodeHeader (event : Nip98Event) :
    decodeHeader (encodeHeader event) = some (eventJson event) := by
  unfold decodeHeader
  rw [payload_encodeHeader, ByteText.ofUtf8_utf8]
  exact parse_compact (ordered_eventJson event)

theorem carriedEvent_encodeHeader (nearest : Numeral → Numeral) (event : Nip98Event) :
    carriedEvent nearest (encodeHeader event) = some (event.rounded nearest) := by
  rw [carriedEvent, decodeHeader_encodeHeader, Option.bind_some, eventOf_eventJson]

end StorageOrchestrator.Nip98.Events
