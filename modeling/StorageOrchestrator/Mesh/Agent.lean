import StorageOrchestrator.Mesh.Table

/-!
# Applying buffered operations on a provider

The gateway buffers an INSERT as the row the central Postgres resolved, and an
UPDATE or DELETE as its statement.  A provider's agent applies an operation in
one transaction, once per operation id.

The agent deletes by `id = rowId` whatever the table's key column is called
and whatever else the statement asked for; `denotes` says which values of the
column a text parameter equals.  The values of a row image go through the
agent's Postgres driver, which turns the text of a boolean or of a date into
another value than the captured one, and statements on a provider fire its
triggers, while the captured ones run with triggers off; `receive` and
`trigger` stand for the two.
-/

namespace StorageOrchestrator.Mesh.Agent

open Lib.Text Mesh.Value Mesh.Table

/-- The database of a provider, as its agent uses it. -/
structure Host where
  /-- The values that a text parameter equals. -/
  denotes : String → SqlValue → Bool
  /-- A row image of a table as the driver stores it. -/
  receive : String → Row → Row
  /-- The tables after a statement on one of them, from those before and those it wrote. -/
  trigger : String → (before written : String → Content) → String → Content

/-- What the gateway buffers of a statement. -/
inductive Payload where
  | image (row : Row) (conflictColumns : List String)
      (conflictPredicate : Option IndexPredicate)
  | update (change : PointUpdate) (conflictColumns : List String)
  | delete (removal : PointDelete) (conflictColumns : List String)

/--
A buffered operation.  `seq` numbers the operations in the order in which the
gateway accepted them; the code does not store it.
-/
structure WriteOp where
  id : String
  table : String
  rowId : String
  payload : Payload
  createdAt : Nat
  seq : Nat

/-- The buffer's order: by creation time, then by id. -/
def WriteOp.notAfter (left right : WriteOp) : Bool :=
  left.createdAt < right.createdAt ||
    (left.createdAt == right.createdAt && decide (left.id ≤ right.id))

/-- Two operations on one row. -/
def WriteOp.sameRow (left right : WriteOp) : Prop :=
  left.table = right.table ∧ left.rowId = right.rowId

instance (left right : WriteOp) : Decidable (left.sameRow right) :=
  inferInstanceAs (Decidable (_ ∧ _))

/-- A provider's tables and the operation ids it has applied. -/
structure Provider where
  tables : String → Content
  applied : List String

/-- The one parameter that `uniqueIndexCovers` binds for the columns. -/
def boundConflict (conflict : List String) : String :=
  String.intercalate "," (conflict.map quotedLiteral)

/--
`uniqueIndexCovers`.  The column list is bound as one text, so it is compared
with the names of an index as a list of one name.
-/
def uniqueIndexCovers (table : TableDef) (conflict : List String) : Bool :=
  table.indexes.any fun index =>
    index.predicate.isNone && index.columns == [boundConflict conflict]

/-- The conflict clause with which the agent inserts a row image. -/
def imageClause (table : TableDef) (conflict : List String)
    (predicate : Option IndexPredicate) : OnConflict :=
  if !conflict.isEmpty && predicate.isSome then
    { columns := conflict
      predicate := predicate
      action := .doUpdate fun _ image => image }
  else if !conflict.isEmpty && uniqueIndexCovers table conflict then
    { columns := conflict
      predicate := none
      action := .doUpdate fun _ image => image }
  else
    { columns := []
      predicate := none
      action := .doNothing }

/-- The text of a replayed predicate begins with WHERE. -/
def predicateValid (predicate : IndexPredicate) : Bool :=
  startsWithWord (lowered "where") (lowered predicate.text)

/-- INSERT of a row image; `none` where the agent answers with an error. -/
def applyImage (table : TableDef) (content : Content) (row : Row)
    (conflict : List String) (predicate : Option IndexPredicate) :
    Option Content :=
  if !predicate.all predicateValid then none
  else if row.isEmpty then none
  else
    (insertRow table content row (some (imageClause table conflict predicate))).content content row

/-- The effect of an operation on the table it names. -/
def applyPayload (denotes : String → SqlValue → Bool) (table : TableDef)
    (content : Content) (rowId : String) : Payload → Option Content
  | .image row conflict predicate =>
    applyImage table content row conflict predicate
  | .update change _ => updateRows table content change
  | .delete _ _ =>
    if "id" ∈ table.columns then
      some (deleteRows content fun row => denotes rowId (cell row "id"))
    else none

/-- The payload with its row image as the agent's driver stores it. -/
def Payload.received (receive : Row → Row) : Payload → Payload
  | .image row conflict predicate => .image (receive row) conflict predicate
  | other => other

/-- The table names that `OpSchema` accepts. -/
def tableNameValid (name : String) : Bool :=
  match name.toList with
  | [] => true
  | first :: rest =>
    (first.isAlpha || first == '_') && rest.all fun letter => letter.isAlphanum || letter == '_'

/-- The tables as an operation writes them, before any trigger. -/
def Provider.written (host : Host) (table : TableDef) (provider : Provider) (op : WriteOp) :
    Option (String → Content) :=
  (applyPayload host.denotes table (provider.tables op.table) op.rowId
    (op.payload.received (host.receive op.table))).map (Function.update provider.tables op.table)

/-- `POST /pg/apply` with one operation; `none` is an error answer. -/
def Provider.apply (host : Host) (table : TableDef) (provider : Provider) (op : WriteOp) :
    Option Provider :=
  if !tableNameValid op.table then none
  else if op.id ∈ provider.applied then some provider
  else
    (provider.written host table op).map fun written =>
      { tables := host.trigger op.table provider.tables written
        applied := op.id :: provider.applied }

/-- A new operation on a table with a valid name is written, and fires its triggers. -/
theorem Provider.apply_of_new {provider : Provider} (named : tableNameValid op.table = true)
    (new : op.id ∉ provider.applied)
    (effect : applyPayload host.denotes table (provider.tables op.table) op.rowId
      (op.payload.received (host.receive op.table)) = some rows) :
    provider.apply host table op = some
      { tables := host.trigger op.table provider.tables
          (Function.update provider.tables op.table rows)
        applied := op.id :: provider.applied } := by
  simp [Provider.apply, Provider.written, named, new, effect]

/-- An operation applied before is skipped; a new one has its effect. -/
theorem Provider.apply_cases {provider : Provider}
    (applied : provider.apply host table op = some next) :
    (op.id ∈ provider.applied ∧ next = provider) ∨ (op.id ∉ provider.applied ∧ ∃ written,
      provider.written host table op = some written ∧
      next =
      { tables := host.trigger op.table provider.tables written
        applied := op.id :: provider.applied }) := by
  simp only [Provider.apply] at applied
  split at applied
  · cases applied
  · split at applied
    · rename_i known
      cases applied
      exact .inl ⟨known, rfl⟩
    · rename_i new
      rcases Option.map_eq_some_iff.mp applied with ⟨written, effect, rfl⟩
      exact .inr ⟨new, written, effect, rfl⟩

end StorageOrchestrator.Mesh.Agent
