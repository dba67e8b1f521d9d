import StorageOrchestrator.Lib.FirstPerKey
import StorageOrchestrator.Mesh.Simulation

/-!
# Reads of the mesh

`SELECT * FROM t WHERE pk = r` looks for a buffered operation on the row
first, and then asks the provider that the placement index names; without a
placement it asks all providers.  `SELECT * FROM t` asks all providers, merges
their rows by key and lays the buffered rows over them.

A row on its way to the client is a JSON object: a provider's row as its agent
serialises it, a buffered row as it was captured, with the conflict target in
reserved fields.
-/

namespace StorageOrchestrator.Mesh.Reads

open Lib.FirstPerKey Lib.JsonValue Mesh.Value Mesh.Table Mesh.Agent Mesh.Gateway Mesh.Buffer
  Mesh.Locality Mesh.Simulation List

/-! ## The read engine -/

/-- A row as a JSON object. -/
abbrev WireRow := Fields String

/-- A provider's row in the agent's answer. -/
def agentRow (row : Row) : WireRow := row.map fun field => (field.1, field.2.agentJson)

/-- Setting a field of a JSON object. -/
def setField (row : WireRow) (name : String) (value : WireJson) : WireRow :=
  row.filter (fun field => field.1 ≠ name) ++ [(name, value)]

/-- The reserved fields that carry the conflict target. -/
def withTarget (row : WireRow) (conflict : List String)
    (predicate : Option IndexPredicate) : WireRow :=
  let targeted := setField row "_conflictColumns" (.arr (conflict.map .str))
  match predicate with
  | none => targeted
  | some predicate =>
    setField targeted "_conflictPredicate" (.str predicate.text)

/-- A buffered row image: the captured texts and the conflict target. -/
def imageRow (row : Row) (conflict : List String) (predicate : Option IndexPredicate) : WireRow :=
  withTarget (row.map fun field => (field.1, field.2.capturedJson)) conflict predicate

/-- The JSON of a payload; a DELETE is left out of the pending rows. -/
def pendingRow : Payload → Option WireRow
  | .image row conflict predicate => some (imageRow row conflict predicate)
  | .update change conflict =>
    some (withTarget [("sql", .str change.sql)] conflict none)
  | .delete _ _ => none

def latestOps (mesh : MeshState) (name : String) : List WriteOp :=
  firstPerKey WriteOp.rowId
    ((ofTable name mesh.buffer).insertionSort fun left right =>
      left.notAfter right).reverse

/-- `pending_rows`; the order of different rows does not matter. -/
def pendingRows (mesh : MeshState) (name : String) : List (String × WireRow) :=
  (latestOps mesh name).filterMap fun op =>
    (pendingRow op.payload).map fun row => (op.rowId, row)

/-- The text of a row's key, as the gateway compares it with row ids. -/
def keyText (pk : String) (row : WireRow) : Option String := (row.lookup pk).bind valueAsString

/-- The text of a column that the client sees; `none` is NULL. -/
def wireText (column : String) (row : WireRow) : Option String :=
  (row.lookup column).bind valueToWireText

def providerRows (mesh : MeshState) (name : String) (selects : Row → Bool)
    (provider : String) : List WireRow :=
  (((mesh.providers provider).tables name).filter selects).map agentRow

/-- The first row of every key, then the rows without a key. -/
def mergeRows (pk : String) (rows : List WireRow) : List WireRow :=
  firstPerKey (keyText pk) (rows.filter fun row => (keyText pk row).isSome) ++
    rows.filter fun row => (keyText pk row).isNone

/-- A pending row takes the place of the rows with its id. -/
def overlayRow (pk : String) (rows : List WireRow) (pending : String × WireRow) : List WireRow :=
  rows.filter (fun row => keyText pk row ≠ some pending.1) ++ [pending.2]

/-- The rows of all providers of the roster. -/
def fannedRows (mesh : MeshState) (table : TableDef) (name : String)
    (selects : Row → Bool) : List WireRow :=
  mergeRows table.pk (mesh.roster.flatMap (providerRows mesh name selects))

/-- `fanout_read` of a filtered query: no overlay. -/
def fanoutFiltered (mesh : MeshState) (table : TableDef) (name : String)
    (selects : Row → Bool) : Except GatewayError (List WireRow) :=
  if mesh.roster.isEmpty then .error .noProviders
  else .ok (fannedRows mesh table name selects)

/-- `fanout_read` of `SELECT * FROM t`. -/
def fanoutRead (mesh : MeshState) (table : TableDef) (name : String) :
    Except GatewayError (List WireRow) :=
  if mesh.roster.isEmpty then .error .noProviders
  else
    .ok ((pendingRows mesh name).foldl (overlayRow table.pk)
      (fannedRows mesh table name fun _ => true))

def withKey (pk rowId : String) (rows : List WireRow) : List WireRow :=
  rows.filter fun row => keyText pk row = some rowId

/-- `point_read` of `SELECT * FROM t WHERE pk = r`. -/
def pointRead (mesh : MeshState) (table : TableDef) (name rowId : String)
    (selects : Row → Bool) : Except GatewayError (List WireRow) :=
  match (pendingRows mesh name).find? fun pending => pending.1 = rowId with
  | some pending => .ok [pending.2]
  | none =>
    match mesh.placement name rowId with
    | none =>
      (fanoutFiltered mesh table name selects).map (withKey table.pk rowId)
    | some (replicas, _) =>
      match replicas.find? fun replica => replica ∈ mesh.roster with
      | none => .error .noProviders
      | some replica =>
        .ok (withKey table.pk rowId (providerRows mesh name selects replica))

/-! ## What a client should see -/

/-- The texts of the table's columns that the client sees. -/
def shown (table : TableDef) (row : WireRow) : List (Option String) :=
  table.columns.map fun column => wireText column row

def texts (table : TableDef) (row : Row) : List (Option String) :=
  table.columns.map fun column => (cell row column).captureText

def latestOn (mesh : MeshState) (name rowId : String) : Option WriteOp :=
  (ofTable name mesh.buffer).reverse.find? fun op => op.rowId = rowId

/--
The rows show what serial execution gives the row id.  When no operation on
the row is buffered, they are the providers' rows, without other fields.
-/
def ReadsSerial (table : TableDef) (mesh : MeshState) (name rowId : String)
    (rows : List WireRow) : Prop :=
  rows.map (shown table) = (part table (onlyRow rowId) (mesh.serial name)).map (texts table) ∧
    (latestOn mesh name rowId = none →
      rows = (part table (onlyRow rowId) (mesh.serial name)).map agentRow)

/-- The table has no column with the name of a reserved field. -/
structure Unreserved (table : TableDef) : Prop where
  conflictColumns : "_conflictColumns" ∉ table.columns
  conflictPredicate : "_conflictPredicate" ∉ table.columns
  sqlKey : table.pk ≠ "sql"

/-- Stored values reach the client, and keys are recognised as row ids. -/
structure Legible (table : TableDef) (mesh : MeshState) (name : String) : Prop where
  recognised : ∀ provider row, row ∈ (mesh.providers provider).tables name →
    (cell row table.pk).Recognised
  plain : ∀ provider row, row ∈ (mesh.providers provider).tables name →
    ∀ column ∈ table.columns, (cell row column).Plain
  unmarked : ∀ op ∈ ofTable name mesh.buffer, stripHexMark op.rowId = op.rowId

/-! ## Fields of a row -/

/-- Mapping the values of named fields maps what is found under a name. -/
theorem lookup_mapValues {Value Image : Type} (image : Value → Image)
    (fs : List (String × Value)) (name : String) :
    lookup name (fs.map fun field => (field.1, image field.2)) = (fs.lookup name).map image := by
  induction fs with
  | nil => rfl
  | cons field rest ih =>
    rcases field with ⟨fieldName, v⟩
    simp only [map_cons, lookup_cons]
    cases name == fieldName with
    | true => rfl
    | false => exact ih

theorem wireText_agentRow (plain : (cell row col).Plain) :
    wireText col (agentRow row) = (cell row col).captureText := by
  rw [wireText, agentRow, lookup_mapValues]
  simp only [SqlValue.Plain, cell] at plain ⊢
  cases found : row.lookup col with
  | none => rfl
  | some v =>
    rw [found] at plain
    exact plain

theorem keyText_agentRow {table : TableDef} (recognised : (cell row table.pk).Recognised) :
    keyText table.pk (agentRow row) = table.rowId row := by
  rw [keyText, agentRow, lookup_mapValues]
  simp only [SqlValue.Recognised, cell, TableDef.rowId] at recognised ⊢
  cases found : row.lookup table.pk with
  | none => rfl
  | some v =>
    rw [found] at recognised
    exact recognised

theorem lookup_setField (other : column ≠ name) :
    (setField row name value).lookup column = row.lookup column := by
  have ne : (column == name) = false := beq_false_of_ne other
  induction row with
  | nil =>
    simp [setField, filter_nil, nil_append, lookup_cons, ne, lookup_nil]
  | cons field rest ih =>
    rcases field with ⟨fieldName, fieldValue⟩
    simp only [setField] at ih ⊢
    by_cases eqName : fieldName = name
    · subst eqName
      simp only [ne_eq, not_true_eq_false, decide_false,
        Bool.false_eq_true, not_false_eq_true, filter_cons_of_neg,
        lookup_cons, ne]
      exact ih
    · rw [filter_cons_of_pos (by simpa using eqName), cons_append, lookup_cons, lookup_cons, ih]

theorem lookup_withTarget (notColumns : column ≠ "_conflictColumns")
    (notPredicate : column ≠ "_conflictPredicate") :
    (withTarget row conflict predicate).lookup column = row.lookup column := by
  simp only [withTarget]
  split
  · exact lookup_setField notColumns
  · rw [lookup_setField notPredicate, lookup_setField notColumns]

end StorageOrchestrator.Mesh.Reads
