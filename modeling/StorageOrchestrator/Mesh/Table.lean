import StorageOrchestrator.Lib.Text
import StorageOrchestrator.Mesh.Value

/-!
# Tables and point statements

A table's content is its list of rows.  The constraints that decide whether
Postgres takes a row are the unique indexes, the primary key's among them, and
a row check that stands for NOT NULL and CHECK constraints.

A point statement is an INSERT of one resolved row, or an UPDATE or DELETE
whose WHERE clause equates the primary key with a literal.  Its expressions
read only the row they act on, so they are functions of the row.
-/

namespace StorageOrchestrator.Mesh.Table

open Lib.Text Mesh.Value List

variable {next : Content}

/-- A row: its columns with their values. -/
abbrev Row := List (String × SqlValue)

abbrev Content := List Row

/-- The value of a column, NULL where the row has none. -/
def cell (row : Row) (column : String) : SqlValue := (row.lookup column).getD .null

/--
The predicate of a partial index: its text, from WHERE on, and what it says of
a row.
-/
structure IndexPredicate where
  text : String
  holds : Row → Bool
  fromWhere : startsWithWord (lowered "where") (lowered text)

/-- A unique index, partial when it has a predicate. -/
structure UniqueIndex where
  columns : List String
  predicate : Option IndexPredicate

/-- A table with a single-column primary key. -/
structure TableDef where
  name : String
  columns : List String
  pk : String
  indexes : List UniqueIndex
  check : Row → Bool
  pkListed : pk ∈ columns
  pkIndexed : { columns := [pk], predicate := none } ∈ indexes
  pkPresent : ∀ row, check row → ((cell row pk).captureText).isSome

/-- The row id: the captured text of the primary key. -/
def TableDef.rowId (table : TableDef) (row : Row) : Option String := (cell row table.pk).captureText

/-- Two values of one column are equal and not NULL. -/
def sameValue (left right : SqlValue) : Bool :=
  left.captureText.isSome && left.captureText = right.captureText

/-- Two rows that the index does not admit together. -/
def UniqueIndex.clash (index : UniqueIndex) (left right : Row) : Bool :=
  index.columns.all (fun column =>
    sameValue (cell left column) (cell right column)) &&
  index.predicate.all fun predicate =>
    predicate.holds left && predicate.holds right

/-- Two rows that the table does not admit together. -/
def TableDef.clash (table : TableDef) (left right : Row) : Bool :=
  table.indexes.any fun index => index.clash left right

/-- No two rows of the content clash, and every row passes the check. -/
def TableDef.Admits (table : TableDef) (content : Content) : Prop :=
  content.Pairwise (fun left right => table.clash left right = false) ∧
    ∀ row ∈ content, table.check row

instance (table : TableDef) (content : Content) : Decidable (table.Admits content) :=
  inferInstanceAs (Decidable (_ ∧ _))

/-! ## INSERT -/

/-- What an INSERT does with a conflicting row. -/
inductive ConflictAction where
  | doNothing
  | doUpdate (merge : Row → Row → Row)

/-- An ON CONFLICT clause; no columns means no target. -/
structure OnConflict where
  columns : List String
  predicate : Option IndexPredicate
  action : ConflictAction

/-- The conflict target infers the index as an arbiter. -/
def OnConflict.infers (clause : OnConflict) (index : UniqueIndex) : Bool :=
  clause.columns.isPerm index.columns &&
    match index.predicate, clause.predicate with
    | none, _ => true
    | some _, none => false
    | some partialOn, some target => partialOn.text = target.text

/-- The arbiter indexes of an INSERT; `none` when the target has none. -/
def TableDef.arbiters (table : TableDef) : Option OnConflict → Option (List UniqueIndex)
  | none => some []
  | some clause =>
    if clause.columns = [] then some table.indexes
    else
      let inferred := table.indexes.filter clause.infers
      if inferred.isEmpty then none else some inferred

inductive InsertOutcome where
  | added
  | skipped
  | merged (content : Content) (row : Row)
  | rejected (message : String)

/-- Put a row in the place of another. -/
def replaceRow (table : TableDef) (content : Content) (old new : Row) : Content :=
  content.map fun row =>
    if table.rowId row = table.rowId old then new else row

/-- The conflicting row takes the clause's action. -/
def resolveConflict (table : TableDef) (content : Content) (old row : Row) :
    ConflictAction → InsertOutcome
  | .doNothing => .skipped
  | .doUpdate merge =>
    let merged := merge old row
    let next := replaceRow table content old merged
    if table.Admits next then .merged next merged
    else .rejected "duplicate key value violates unique constraint"

def insertRow (table : TableDef) (content : Content) (row : Row)
    (onConflict : Option OnConflict) : InsertOutcome :=
  if !table.check row then
    .rejected "new row violates a constraint of the relation"
  else
    match table.arbiters onConflict with
    | none =>
      .rejected ("there is no unique or exclusion constraint matching " ++
        "the ON CONFLICT specification")
    | some arbiters =>
      match content.find? fun old =>
          arbiters.any fun index => index.clash old row with
      | some old =>
        match onConflict with
        | some clause =>
          resolveConflict table content old row clause.action
        | none => .skipped
      | none =>
        if content.any fun old => table.clash old row then
          .rejected "duplicate key value violates unique constraint"
        else .added

/-- The content after an INSERT; `none` where it raises an error. -/
def InsertOutcome.content (outcome : InsertOutcome) (before : Content)
    (row : Row) : Option Content :=
  match outcome with
  | .added => some (before ++ [row])
  | .skipped => some before
  | .merged content _ => some content
  | .rejected _ => none

/-! ## UPDATE and DELETE -/

/-- A point UPDATE: its text, its WHERE clause and its assignments. -/
structure PointUpdate where
  sql : String
  selects : Row → Bool
  assign : Row → Row

/-- A point DELETE: its text and its WHERE clause. -/
structure PointDelete where
  sql : String
  selects : Row → Bool

/-- UPDATE; `none` where a constraint is violated. -/
def updateRows (table : TableDef) (content : Content) (change : PointUpdate) : Option Content :=
  let next := content.map fun row =>
    if change.selects row then change.assign row else row
  if table.Admits next then some next else none

def deleteRows (content : Content) (selects : Row → Bool) : Content :=
  content.filter fun row => !selects row

/-- A point statement; an UPDATE or DELETE names its row id literally. -/
inductive Statement where
  | insert (row : Row) (onConflict : Option OnConflict)
  | update (rowId : String) (change : PointUpdate)
  | delete (rowId : String) (removal : PointDelete)

/-- Executing a statement on one Postgres; `none` where it is rejected. -/
def Statement.run (table : TableDef) (content : Content) : Statement → Option Content
  | .insert row onConflict =>
    (insertRow table content row onConflict).content content row
  | .update _ change => updateRows table content change
  | .delete _ removal => some (deleteRows content removal.selects)

/-- Serial execution: a rejected statement changes nothing. -/
def Statement.exec (table : TableDef) (content : Content) (statement : Statement) : Content :=
  (statement.run table content).getD content

/-! ## Row ids and clashes -/

variable {table : TableDef} {content : Content}

theorem TableDef.Admits.sublist {smaller : Content}
    (admits : table.Admits content) (sublist : smaller.Sublist content) :
    table.Admits smaller := by
  constructor
  · exact admits.1.sublist sublist
  · intro row mem
    exact admits.2 row (sublist.subset mem)

/-- Rows with one row id clash on the primary key. -/
theorem TableDef.clash_of_rowId (table : TableDef) {left right : Row}
    {rowId : String} (leftId : table.rowId left = some rowId)
    (rightId : table.rowId right = some rowId) :
    table.clash left right = true := by
  simp only [TableDef.clash, any_eq_true]
  refine ⟨_, table.pkIndexed, ?_⟩
  simp only [TableDef.rowId] at leftId rightId
  simp [UniqueIndex.clash, sameValue, leftId, rightId]

variable {row : Row}

/-- Every row that passes the check has a row id. -/
theorem TableDef.exists_rowId (table : TableDef) (ok : table.check row) :
    ∃ rowId, table.rowId row = some rowId :=
  Option.isSome_iff_exists.mp (table.pkPresent row ok)

/-- Every way in which an INSERT ends. -/
inductive Inserts (table : TableDef) (content : Content) (row : Row)
    (onConflict : Option OnConflict) : InsertOutcome → Prop where
  | refused (message : String) :
      Inserts table content row onConflict (.rejected message)
  | resolved {clause : OnConflict} {old : Row}
      (checked : table.check row)
      (given : onConflict = some clause)
      (member : old ∈ content) :
      Inserts table content row onConflict (resolveConflict table content old row clause.action)
  | added {arbiters : List UniqueIndex}
      (checked : table.check row)
      (inferred : table.arbiters onConflict = some arbiters)
      (apart : ∀ old ∈ content, table.clash old row = false) :
      Inserts table content row onConflict .added

theorem inserts_insertRow (table : TableDef) (content : Content) (row : Row)
    (clash : Option OnConflict) :
    Inserts table content row clash (insertRow table content row clash) := by
  simp only [insertRow]
  split
  · exact .refused _
  · rename_i ok
    have ok : table.check row := by simpa using ok
    split
    · exact .refused _
    · rename_i arbiters types
      split
      · rename_i old found
        cases clash with
        | none =>
          simp only [TableDef.arbiters, Option.some.injEq] at types
          have conflicting := find?_some found
          simp [← types] at conflicting
        | some part =>
          exact .resolved ok rfl (mem_of_find?_eq_some found)
      · split
        · exact .refused _
        · rename_i noClash
          exact .added ok types (by simpa using noClash)

/-- An added row clashes with nothing. -/
theorem insertRow_eq_added (added : insertRow table content row clash = .added) :
    table.check row ∧ (∃ arbiters, table.arbiters clash = some arbiters) ∧
      ∀ old ∈ content, table.clash old row = false := by
  have ends := inserts_insertRow table content row clash
  generalize insertRow table content row clash = out at added ends
  cases ends with
  | refused msg => cases added
  | @resolved part old ok given mem =>
    cases act : part.action with
    | doNothing => simp [act, resolveConflict] at added
    | doUpdate merge =>
      simp only [act, resolveConflict] at added
      split at added <;> cases added
  | added ok types ne => exact ⟨ok, ⟨_, types⟩, ne⟩

/-- A merged row stands in the place of a conflicting one. -/
theorem insertRow_eq_merged (both : insertRow table content row clash = .merged next image) :
    ∃ part merge old, clash = some part ∧ part.action = .doUpdate merge ∧ old ∈ content ∧
      image = merge old row ∧ next = replaceRow table content old image ∧
      table.Admits next := by
  have ends := inserts_insertRow table content row clash
  generalize insertRow table content row clash = out at both ends
  cases ends with
  | refused msg | added ok types ne => cases both
  | @resolved part old ok given mem =>
    cases act : part.action with
    | doNothing => simp [act, resolveConflict] at both
    | doUpdate merge =>
      simp only [act, resolveConflict] at both
      split at both
      · rename_i admits
        cases both
        exact ⟨part, merge, old, given, act, mem, rfl, rfl, admits⟩
      · cases both

theorem mem_replaceRow (mem : row ∈ replaceRow table content old new) :
    row ∈ content ∨ row = new := by
  rcases mem_map.mp mem with ⟨src, inBody, rfl⟩
  split
  · exact .inr rfl
  · exact .inl inBody

/-- A row that an INSERT added or merged has a row id. -/
theorem exists_rowId_of_added (added : insertRow table content row onConflict = .added) :
    ∃ rowId, table.rowId row = some rowId :=
  table.exists_rowId (insertRow_eq_added added).1

theorem exists_rowId_of_merged
    (both : insertRow table content row onConflict = .merged next image) :
    ∃ rowId, table.rowId image = some rowId := by
  rcases insertRow_eq_merged both with ⟨_, _, old, _, _, mem, _, rfl, admits⟩
  apply table.exists_rowId
  apply admits.2
  exact mem_map.mpr ⟨old, mem, by simp⟩

theorem UniqueIndex.clash_of_mem (mem : index ∈ table.indexes)
    (ne : table.clash left right = false) :
    index.clash left right = false := by
  simp only [TableDef.clash, any_eq_false] at ne
  simpa using ne index mem

theorem mem_indexes_of_arbiters (types : table.arbiters onConflict = some arbiters) :
    arbiters ⊆ table.indexes := by
  intro i mem
  simp only [TableDef.arbiters] at types
  split at types
  · cases types
    cases mem
  · split at types
    · cases types
      exact mem
    · split at types
      · cases types
      · cases types
        exact (mem_filter.mp mem).1

/-- A row that clashes with nothing is added under every usable target. -/
theorem insertRow_added_of_apart (ok : table.check row)
    (types : table.arbiters onConflict = some arbiters)
    (ne : ∀ old ∈ content, table.clash old row = false) :
    insertRow table content row onConflict = .added := by
  have noArbiter : content.find? (fun old =>
      arbiters.any fun i => i.clash old row) = none := by
    rw [find?_eq_none]
    intro old mem
    simp only [any_eq_true, not_exists, not_and]
    intro i arbiter
    rw [UniqueIndex.clash_of_mem (mem_indexes_of_arbiters types arbiter) (ne old mem)]
    exact Bool.false_ne_true
  have noClash : content.any (fun old => table.clash old row) = false := by simpa using ne
  simp [insertRow, ok, types, noArbiter, noClash]

/-- A statement never leaves a content that violates the constraints. -/
theorem Statement.exec_admits (stmt : Statement) (admits : table.Admits content) :
    table.Admits (stmt.exec table content) := by
  cases stmt with
  | insert row clash =>
    simp only [Statement.exec, Statement.run]
    cases out : insertRow table content row clash with
    | added =>
      rcases insertRow_eq_added out with ⟨ok, _, ne⟩
      constructor
      · rw [InsertOutcome.content, Option.getD_some, pairwise_append]
        refine ⟨admits.1, pairwise_singleton _ _, ?_⟩
        intro old mem new isNew
        rw [mem_singleton.mp isNew]
        exact ne old mem
      · intro other mem
        rcases mem_append.mp mem with old | new
        · exact admits.2 other old
        · rw [mem_singleton.mp new]
          exact ok
    | skipped | rejected msg => exact admits
    | merged next image =>
      rcases insertRow_eq_merged out with ⟨_, _, _, _, _, _, _, _, nextAdmits⟩
      exact nextAdmits
  | update rowId edit =>
    simp only [Statement.exec, Statement.run, updateRows]
    split
    · rename_i nextAdmits
      exact nextAdmits
    · exact admits
  | delete rowId removal => exact admits.sublist filter_sublist

/-! ## A table of notes -/

/-- Notes with a text key and a text body. -/
def notesTable : TableDef where
  name := "notes"
  columns := ["id", "body"]
  pk := "id"
  indexes := [{ columns := ["id"], predicate := none }]
  check := fun row => (cell row "id").captureText.isSome
  pkListed := List.mem_cons_self
  pkIndexed := List.mem_singleton_self _
  pkPresent := fun _ checked => checked

def note (id body : String) : Row :=
  [("id", .text id), ("body", .text body)]

def editNote (id body : String) : PointUpdate where
  sql := "UPDATE notes SET body = '" ++ body ++ "' WHERE id = '" ++ id ++ "'"
  selects := fun row => (cell row "id").captureText == some id
  assign := fun _ => note id body

def removeNote (id : String) : PointDelete where
  sql := "DELETE FROM notes WHERE id = '" ++ id ++ "'"
  selects := fun row => (cell row "id").captureText == some id

end StorageOrchestrator.Mesh.Table
