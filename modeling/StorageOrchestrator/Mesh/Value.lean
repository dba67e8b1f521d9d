import StorageOrchestrator.Lib.JsonValue

/-!
# Values on their way through the mesh

A column value appears in three forms: the text that the central Postgres
returns when a row is captured, the JSON that a provider's agent answers a
read with, and the texts that the gateway makes of JSON, for row ids
(`valueAsString`) and for the client (`valueToWireText`).  Numbers in JSON are
kept as they are spelled.
-/

namespace StorageOrchestrator.Mesh.Value

open Lib.JsonValue

/-- JSON with numbers as they are spelled. -/
abbrev WireJson := Json String

/--
A value of a column.  `other` is a value of any further type, with its
Postgres text and the JSON that the provider's driver makes of it.
-/
inductive SqlValue where
  | null
  | integer (value : Int)
  | text (value : String)
  | boolean (value : Bool)
  | bytea (hex : String)
  | other (printed : String) (json : WireJson)

/-- The text Postgres prints in a simple query; `none` is NULL. -/
def SqlValue.captureText : SqlValue → Option String
  | .null => none
  | .integer value => some (toString value)
  | .text value => some value
  | .boolean value => some (if value then "t" else "f")
  | .bytea hex => some ("\\x" ++ hex)
  | .other printed _ => some printed

/-- `serializeValue` of the agent on what its driver decoded. -/
def SqlValue.agentJson : SqlValue → WireJson
  | .null => .null
  | .integer value => .number (toString value)
  | .text value => .str value
  | .boolean value => .bool value
  | .bytea hex => .str ("\\x" ++ hex)
  | .other _ json => json

/-- Drop a leading `\x`. -/
def stripHexMark (text : String) : String :=
  match text.toList with
  | '\\' :: 'x' :: rest => String.ofList rest
  | _ => text

/-- Two hexadecimal digits of a byte given as a JSON number. -/
def byteText : WireJson → Option String
  | .number spelled =>
    spelled.toNat?.map fun byte =>
      String.ofList [hexDigit (byte / 16 % 16), hexDigit (byte % 16)]
  | _ => none

def valueAsString : WireJson → Option String
  | .str text => some (stripHexMark text)
  | .number spelled => some spelled
  | .bool flag => some (if flag then "true" else "false")
  | .arr items => (items.mapM byteText).map String.join
  | _ => none

/-- `value_to_wire_text`; `none` is NULL. -/
def valueToWireText : WireJson → Option String
  | .null => none
  | .str text => some text
  | .number spelled => some spelled
  | .bool flag => some (if flag then "t" else "f")
  | .arr items => some (Json.arr items).compact
  | .obj fields => some (Json.obj fields).compact

/-- A captured value inside a buffered row image. -/
def SqlValue.capturedJson (value : SqlValue) : WireJson :=
  match value.captureText with
  | none => .null
  | some printed => .str printed

/-- What the client sees of a captured value is the Postgres text. -/
@[simp]
theorem wireText_capturedJson (value : SqlValue) :
    valueToWireText value.capturedJson = value.captureText := by
  cases value <;> rfl

/-- The agent's JSON shows the client the Postgres text of the value. -/
def SqlValue.Plain (value : SqlValue) : Prop := valueToWireText value.agentJson = value.captureText

/-- The built-in types are plain. -/
theorem SqlValue.plain_of_builtin {v : SqlValue} (builtin : ∀ text json, v ≠ .other text json) :
    v.Plain := by
  simp only [SqlValue.Plain]
  cases v with
  | other text json => exact absurd rfl (builtin text json)
  | _ => rfl

/-- The gateway recognises the value as the row id that was captured. -/
def SqlValue.Recognised (value : SqlValue) : Prop :=
  valueAsString value.agentJson = value.captureText

/-- A bytea key is not: its captured id keeps the hex mark. -/
example : ¬ (SqlValue.bytea "ab").Recognised := by
  unfold SqlValue.Recognised
  decide

/-- A boolean key is not: `true` against `t`. -/
example : ¬ (SqlValue.boolean true).Recognised := by
  unfold SqlValue.Recognised
  decide

end StorageOrchestrator.Mesh.Value
