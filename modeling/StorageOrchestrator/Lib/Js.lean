import StorageOrchestrator.Lib.JsonValue

/-!
# JSON payloads as JavaScript reads them

The handful of JavaScript operations that untyped message handlers apply to
a JSON value: truthiness, strict equality, object spread and template text.
`undefined` is `none`.
-/

namespace StorageOrchestrator.Lib.Js

open Lib.JsonValue

/-- A JavaScript value that came out of JSON; `none` is `undefined`. -/
abbrev JsValue (Number : Type) := Option (Json Number)

variable {Number : Type}

/-- The index keys JavaScript gives to the items of a list. -/
def indexed (items : List (Json Number)) : Fields Number :=
  items.zipIdx.map fun (item, index) => (toString index, item)

/-- The own enumerable fields that `...value` copies into an object. -/
def spread : JsValue Number → Fields Number
  | some (.obj fields) => fields
  | some (.arr items) => indexed items
  | some (.str text) =>
    indexed (text.toList.map fun letter => .str (String.ofList [letter]))
  | _ => []

/-- JavaScript truthiness. -/
def truthy [Zero Number] [DecidableEq Number] : JsValue Number → Bool
  | none | some .null => false
  | some (.bool value) => value
  | some (.number value) => value ≠ 0
  | some (.str text) => text ≠ ""
  | some (.arr _) | some (.obj _) => true

/--
JavaScript `===`.  Arrays and objects compare by identity, and two values
that were decoded apart are never identical.
-/
def strictEq [DecidableEq Number] : JsValue Number → JsValue Number → Bool
  | none, none | some .null, some .null => true
  | some (.bool left), some (.bool right) | some (.number left), some (.number right)
  | some (.str left), some (.str right) => left = right
  | _, _ => false

mutual

/-- The text `${value}` of a JSON value. -/
def jsonText [ToString Number] : Json Number → String
  | .null => "null"
  | .bool value => if value then "true" else "false"
  | .number value => toString value
  | .str text => text
  | .arr items => joinTexts items
  | .obj _ => "[object Object]"

/-- The comma-separated text of an array; `null` items leave no text. -/
def joinTexts [ToString Number] : List (Json Number) → String
  | [] => ""
  | [item] => itemText item
  | item :: rest => itemText item ++ "," ++ joinTexts rest

/-- The text of one array item inside the text of its array. -/
def itemText [ToString Number] : Json Number → String
  | .null => ""
  | .bool value => if value then "true" else "false"
  | .number value => toString value
  | .str text => text
  | .arr items => joinTexts items
  | .obj _ => "[object Object]"

end

/-- The text `${value}` of a JavaScript value. -/
def templateText [ToString Number] : JsValue Number → String
  | none => "undefined"
  | some value => jsonText value

@[simp]
theorem strictEq_str [DecidableEq Number] (left right : String) :
    strictEq (some (.str left) : JsValue Number) (some (.str right)) = decide (left = right) :=
  rfl

/-- Only a string is strictly equal to a string. -/
theorem strictEq_str_iff [DecidableEq Number] (v : JsValue Number) (text : String) :
    strictEq v (some (.str text)) = true ↔ v = some (.str text) := by
  cases v with
  | none => simp [strictEq]
  | some json => cases json <;> simp [strictEq]

end StorageOrchestrator.Lib.Js
