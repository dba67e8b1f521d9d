import StorageOrchestrator.Mesh.Gateway
import StorageOrchestrator.Wire.Statements

/-!
# Point UPDATE and DELETE on their owner

The gateway reduces a point UPDATE or DELETE to a row id and the text of the
statement.  The agent refuses operations on tables whose names are not plain
words.  It executes the text of an UPDATE.  For a DELETE it deletes the rows
whose column `id` is the row id, whatever the primary key is called and whatever
else the WHERE clause asks for.
-/

namespace StorageOrchestrator.Mesh.Replay

open Mesh.Agent Mesh.Gateway Mesh.Table Mesh.Value Wire.Statements

/-- An UPDATE with its assignments, or a DELETE. -/
inductive Change where
  | update (assign : Row → Row)
  | delete

/--
A client's statement.  Its WHERE clause compares the key with a literal, which
equals some values (`equals`), and asks something more of a row (`rest`).
-/
structure Keyed where
  sql : String
  table : TableFactor
  selection : Expr
  equals : SqlValue → Bool
  rest : Row → Bool
  change : Change

/-- What the WHERE clause says of a row. -/
def Keyed.selects (keyed : Keyed) (pk : String) (row : Row) : Bool :=
  keyed.equals (cell row pk) && keyed.rest row

/-- The statement as the gateway parses it. -/
def Keyed.parsed (keyed : Keyed) : Wire.Statements.Statement :=
  match keyed.change with
  | .update _ => .update keyed.table (some keyed.selection)
  | .delete => .delete [keyed.table] (some keyed.selection)

/-- What the gateway buffers of the statement. -/
def Keyed.payload (keyed : Keyed) (pk : String) : Payload :=
  match keyed.change with
  | .update assign => .update ⟨keyed.sql, keyed.selects pk, assign⟩ [pk]
  | .delete => .delete ⟨keyed.sql, keyed.selects pk⟩ [pk]

/-- The operation that reaches the owner (`build_op_payload`); `none` when the
statement is not a point write. -/
def Keyed.dispatched (keyed : Keyed) (pk opId : String) : Option WriteOp :=
  match analyzeStatement keyed.sql.toList pk none keyed.parsed with
  | .ok (.write write) =>
    if write.broad then none
    else some ⟨opId, write.table, write.rowId, keyed.payload pk, 0, 0⟩
  | _ => none

/-- What executing the statement leaves; a rejected one changes nothing. -/
def Keyed.executed (keyed : Keyed) (table : TableDef) (slice : Content) : Content :=
  match keyed.change with
  | .update assign =>
    (updateRows table slice ⟨keyed.sql, keyed.selects table.pk, assign⟩).getD slice
  | .delete => deleteRows slice (keyed.selects table.pk)

/-- What applying the operation leaves; a failed one changes nothing. -/
def replayed (host : Host) (table : TableDef) (owner : Provider) (op : WriteOp) : Content :=
  ((owner.apply host table op).getD owner).tables op.table

/-- On every owner the operation changes the table as the statement would. -/
def Faithful (host : Host) (table : TableDef) (keyed : Keyed) (op : WriteOp) : Prop :=
  ∀ owner : Provider, op.id ∉ owner.applied →
    replayed host table owner op = keyed.executed table (owner.tables op.table)

variable {host : Host} {table : TableDef} {owner : Provider}
  {keyed : Keyed} {op : WriteOp} {opId : String}

theorem payload_of_dispatched (sent : keyed.dispatched pk opId = some op) :
    op.payload = keyed.payload pk := by
  simp only [Keyed.dispatched] at sent
  split at sent
  · split at sent
    · cases sent
    · cases sent
      rfl
  · cases sent

/-- The agent refuses an operation on a table with another name. -/
theorem replayed_unnamed (unnamed : tableNameValid op.table = false) :
    replayed host table owner op = owner.tables op.table := by
  simp [replayed, Provider.apply, unnamed]

theorem replayed_named (named : tableNameValid op.table = true) (new : op.id ∉ owner.applied)
    (untriggered : ∀ before written, host.trigger op.table before written op.table =
      written op.table) :
    replayed host table owner op = (applyPayload host.denotes table (owner.tables op.table)
      op.rowId (op.payload.received (host.receive op.table))).getD (owner.tables op.table) := by
  cases effect : applyPayload host.denotes table (owner.tables op.table) op.rowId
      (op.payload.received (host.receive op.table)) with
  | none => simp [replayed, Provider.apply, Provider.written, named, new, effect]
  | some rows =>
    rw [replayed, Provider.apply_of_new named new effect]
    exact (untriggered ..).trans (Function.update_self ..)

theorem deleteRows_eq_iff {slice : Content} : deleteRows slice left = deleteRows slice right ↔
      ∀ row ∈ slice, left row = right row := by
  constructor
  · intro same row mem
    have kept : row ∈ deleteRows slice left ↔ row ∈ deleteRows slice right := by rw [same]
    simp only [deleteRows, List.mem_filter, mem, true_and] at kept
    exact Bool.not_inj (Bool.eq_iff_iff.mpr kept)
  · intro same
    exact List.filter_congr fun row mem => by rw [same row mem]

/-- A DELETE by `id` is one by the key if the rest of the WHERE clause holds there. -/
theorem faithful_delete_iff (named : tableNameValid op.table = true)
    (untriggered : ∀ before written, host.trigger op.table before written op.table =
      written op.table)
    (isId : table.pk = "id") (alike : ∀ value, keyed.equals value = host.denotes op.rowId value)
    (isDelete : keyed.change = .delete) (isPayload : op.payload = keyed.payload table.pk) :
    Faithful host table keyed op ↔
      ∀ row, host.denotes op.rowId (cell row "id") = true → keyed.rest row = true := by
  have hasId : "id" ∈ table.columns := isId ▸ table.pkListed
  have same : ∀ owner : Provider, op.id ∉ owner.applied →
      (replayed host table owner op = keyed.executed table (owner.tables op.table) ↔
        ∀ row ∈ owner.tables op.table, host.denotes op.rowId (cell row "id") = true →
          keyed.rest row = true) := by
    intro owner new
    rw [replayed_named named new untriggered, isPayload, Keyed.executed, Keyed.payload, isDelete]
    simp only [Payload.received, applyPayload, hasId, if_true, Option.getD_some,
      deleteRows_eq_iff, Keyed.selects, isId, alike]
    refine forall_congr' fun row => imp_congr_right fun _ => ?_
    cases host.denotes op.rowId (cell row "id") <;> cases keyed.rest row <;> simp
  constructor
  · intro faithful row denoted
    have new : op.id ∉ (⟨fun _ => [row], []⟩ : Provider).applied := List.not_mem_nil
    exact (same _ new).mp (faithful _ new) row List.mem_cons_self denoted
  · intro rest owner new
    exact (same owner new).mpr fun row _ => rest row

/-- `DELETE FROM notes WHERE id = 'a'`, with another condition on the note. -/
def deleteNote (condition : Expr → Expr) (rest : Row → Bool) : Keyed where
  sql := "DELETE FROM notes WHERE id = 'a' ..."
  table := .table [some "notes"]
  selection := condition (.equal (.identifier "id") (.value (.singleQuoted "a")))
  equals := notesSetting.denotes "a"
  rest := rest
  change := .delete

/-- The operation of such a statement. -/
def deleteOp (rest : Row → Bool) : WriteOp :=
  ⟨"op", "notes", "a", (deleteNote id rest).payload "id", 0, 0⟩

end StorageOrchestrator.Mesh.Replay
