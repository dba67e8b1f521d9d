import Mathlib

/-!
# JSON values

JSON over an arbitrary type of numbers, with member access and the compact
text that serialisers print.
-/

namespace StorageOrchestrator.Lib.JsonValue

/-- A JSON value over an arbitrary type of numbers. -/
inductive Json (Number : Type) where
  | null
  | bool (value : Bool)
  | number (value : Number)
  | str (text : String)
  | arr (items : List (Json Number))
  | obj (fields : List (String × Json Number))

/-- The fields of an object, the effective one of a name first. -/
abbrev Fields (Number : Type) := List (String × Json Number)

variable {Number : Type}

/-- The field of an object; nothing for other values. -/
def Json.member (value : Json Number) (name : String) : Option (Json Number) :=
  match value with
  | .obj fields => fields.lookup name
  | _ => none

def hexDigit (value : Nat) : Char :=
  "0123456789abcdef".toList.getD value '0'

/-- A character inside a JSON string. -/
def escapedChar (letter : Char) : List Char :=
  if letter = '"' then ['\\', '"']
  else if letter = '\\' then ['\\', '\\']
  else if letter = '\n' then ['\\', 'n']
  else if letter = '\r' then ['\\', 'r']
  else if letter = '\t' then ['\\', 't']
  else if letter = Char.ofNat 8 then ['\\', 'b']
  else if letter = Char.ofNat 12 then ['\\', 'f']
  else if letter.toNat < 32 then
    ['\\', 'u', '0', '0', hexDigit (letter.toNat / 16), hexDigit (letter.toNat % 16)]
  else [letter]

/-- A JSON string literal. -/
def quotedText (text : String) : String :=
  String.ofList ('"' :: text.toList.flatMap escapedChar ++ ['"'])

mutual

/-- The compact text of a JSON value. -/
def Json.compact [ToString Number] : Json Number → String
  | .null => "null"
  | .bool value => if value then "true" else "false"
  | .number value => toString value
  | .str text => quotedText text
  | .arr items => "[" ++ compactItems items ++ "]"
  | .obj fields => "\x7b" ++ compactFields fields ++ "\x7d"

/-- The comma-separated texts of array items. -/
def compactItems [ToString Number] : List (Json Number) → String
  | [] => ""
  | [item] => item.compact
  | item :: rest => item.compact ++ "," ++ compactItems rest

/-- The comma-separated texts of object fields. -/
def compactFields [ToString Number] : List (String × Json Number) → String
  | [] => ""
  | [(name, value)] => quotedText name ++ ":" ++ value.compact
  | (name, value) :: rest =>
    quotedText name ++ ":" ++ value.compact ++ "," ++ compactFields rest

end

/-! ## Equality of values -/

section

variable [DecidableEq Number]

mutual

/-- Whether two values are the same. -/
def Json.same : Json Number → Json Number → Bool
  | .null, .null => true
  | .bool left, .bool right => left == right
  | .number left, .number right => decide (left = right)
  | .str left, .str right => left == right
  | .arr left, .arr right => sameItems left right
  | .obj left, .obj right => sameFields left right
  | _, _ => false

/-- Whether two lists of items are the same. -/
def sameItems : List (Json Number) → List (Json Number) → Bool
  | [], [] => true
  | left :: lefts, right :: rights =>
    left.same right && sameItems lefts rights
  | _, _ => false

/-- Whether two lists of fields are the same. -/
def sameFields : List (String × Json Number) → List (String × Json Number) → Bool
  | [], [] => true
  | (name, left) :: lefts, (other, right) :: rights =>
    name == other && left.same right && sameFields lefts rights
  | _, _ => false

end

mutual

theorem Json.same_iff (left right : Json Number) : left.same right = true ↔ left = right := by
  cases left <;> cases right <;>
    simp [Json.same, sameItems_iff, sameFields_iff]

theorem sameItems_iff (lefts rights : List (Json Number)) :
    sameItems lefts rights = true ↔ lefts = rights := by
  cases lefts <;> cases rights <;>
    simp [sameItems, Json.same_iff, sameItems_iff]

theorem sameFields_iff (lefts rights : List (String × Json Number)) :
    sameFields lefts rights = true ↔ lefts = rights := by
  rcases lefts with _ | ⟨⟨name, left⟩, lefts⟩ <;>
    rcases rights with _ | ⟨⟨other, right⟩, rights⟩ <;>
    simp [sameFields, Json.same_iff, sameFields_iff]

end

instance : DecidableEq (Json Number) := fun left right =>
  decidable_of_iff (left.same right = true) (Json.same_iff left right)

end

end StorageOrchestrator.Lib.JsonValue
