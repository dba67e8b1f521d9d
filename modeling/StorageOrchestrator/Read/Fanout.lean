import StorageOrchestrator.Lib.KeyedMerge
import StorageOrchestrator.Read.Sql

/-!
# Fan-out reads

`fanout_read` sends a query to every provider and merges the answers: rows
whose primary key is shown go through a map, which keeps the first row of
every key and gives them back in the order of its hashes, and the other rows
follow as they came.

When the answers make up the answer over the whole database, the merge is
exact precisely when no key is shown twice.  For the single-table reads of a
table with an integer, uuid or bytea key that is always so.
-/

namespace StorageOrchestrator.Read.Fanout

open Lib.KeyedMerge Lib.Text Mesh.Value Mesh.Table Mesh.Gateway Mesh.Reads Read.Sql List

/-! ## The read engine -/

/--
`fanout_read` when all providers answer.  `hashes` is the order in which the
map gives its rows back, and `pending` are the buffered rows of the table.
-/
def fanoutRead (hashes : Arrangement WireRow) (schema : Schema) (pk : String)
    (query : Query) (providers : List Database) (pending : List (String × WireRow)) :
    Except GatewayError (List WireRow) :=
  if providers.isEmpty then .error .noProviders
  else
    let rows := merge (keyText pk) hashes (providers.flatMap (query.answer schema))
    .ok (if overlayIsSafe query then pending.foldl (overlayRow pk) rows
      else rows)

/-- The rows of the whole database are shared among the providers. -/
def Partition (whole : Database) (providers : List Database) : Prop :=
  ∀ name, (whole name).Perm (providers.flatMap fun database => database name)

/-- The read returns the rows of the query over the whole database. -/
def ReadsExactly (hashes : Arrangement WireRow) (schema : Schema)
    (pk : String) (query : Query) (whole : Database)
    (providers : List Database) (pending : List (String × WireRow)) : Prop :=
  ∃ rows, fanoutRead hashes schema pk query providers pending = .ok rows ∧
    rows.Perm (query.answer schema whole)

/-- No key is shown by two rows of the query's answer. -/
def KeysOnce (schema : Schema) (pk : String) (query : Query) (whole : Database) : Prop :=
  ((query.answer schema whole).filterMap (keyText pk)).Nodup

/-- The rows of a query that do not show the key. -/
def withoutKey (schema : Schema) (pk : String) (query : Query) (row : Tuple) : Bool :=
  (keyText pk (wireRow (query.body.names schema) row)).isNone

section

variable (schema : Schema) (pk : String) (query : Query) (rows : List Tuple)

theorem keyless_map : keyless (keyText pk) (rows.map (wireRow (query.body.names schema))) =
      (rows.filter (withoutKey schema pk query)).map (wireRow (query.body.names schema)) := by
  rw [keyless, filter_map]
  rfl

theorem keyed_map : keyed (keyText pk) (rows.map (wireRow (query.body.names schema))) =
      (rows.filter fun row => !withoutKey schema pk query row).map
      (wireRow (query.body.names schema)) := by
  rw [keyed, filter_map]
  apply congrArg (map _)
  apply filter_congr
  intro row _
  simp only [withoutKey, Option.not_isNone]
  rfl

end

section

variable {schema : Schema}

/-- A read that lays nothing over the merged rows. -/
theorem fanoutRead_eq (full : hosts ≠ []) (plain : overlayIsSafe query = true → pending = []) :
    fanoutRead hashes schema pk query hosts pending = .ok (merge (keyText pk) hashes
      (hosts.flatMap (query.answer schema))) := by
  have notEmpty : hosts.isEmpty = false := by simpa using full
  simp only [fanoutRead, notEmpty, Bool.false_eq_true, if_false]
  cases safe : overlayIsSafe query with
  | false => rfl
  | true =>
    rw [plain safe]
    rfl

theorem readsExactly_iff (full : providers ≠ [])
    (plain : overlayIsSafe query = true → pending = []) :
    ReadsExactly hashes schema pk query whole providers pending ↔ (merge (keyText pk) hashes
      (providers.flatMap (query.answer schema))).Perm (query.answer schema whole) := by
  rw [ReadsExactly, fanoutRead_eq full plain]
  constructor
  · rintro ⟨rows, read, eq⟩
    cases read
    exact eq
  · intro eq
    exact ⟨_, rfl, eq⟩

/-- A read whose answers add up is exact when no key is shown twice. -/
theorem readsExactly_iff_keysOnce (full : providers ≠ [])
    (plain : overlayIsSafe query = true → pending = [])
    (addsUp : (query.answer schema whole).Perm (providers.flatMap (query.answer schema))) :
    ReadsExactly hashes schema pk query whole providers pending ↔
      KeysOnce schema pk query whole := by
  rw [readsExactly_iff full plain, KeysOnce,
    (addsUp.filterMap _).nodup_iff, ← merge_perm_self_iff hashes]
  constructor
  · intro eq
    exact eq.trans addsUp
  · intro eq
    exact eq.trans addsUp.symm

end

/-! ## Single-table reads -/

/-- A text of hexadecimal digits and dashes, as uuids are printed. -/
def IsUuidText (text : String) : Prop :=
  text.toList.length = 36 ∧ text.toList.all fun letter =>
      letter.isDigit || ('a' ≤ letter && letter ≤ 'f') || letter == '-'

/-- The types of a primary key. -/
inductive KeyType where
  | integer
  | bigint
  | uuid
  | bytea

/-- The driver decodes bigint and uuid values to texts. -/
def KeyType.Holds : KeyType → SqlValue → Prop
  | .integer, value => ∃ number : Int, value = .integer number
  | .bigint, value => ∃ number : Int,
      value = .other (toString number) (.str (toString number))
  | .uuid, value => ∃ text, IsUuidText text ∧ value = .other text (.str text)
  | .bytea, value => ∃ hex, value = .bytea hex

/-- The projection of a plain read: `*`, or some of the columns. -/
inductive Projection (table : TableDef) where
  | all
  | columns (names : List String) (distinct : names.Nodup)
      (known : names ⊆ table.columns)

def Projection.names {table : TableDef} : Projection table → List String
  | .all => table.columns
  | .columns names _ _ => names

def columnExpr (column : String) : Expr :=
  { hasAggregate := false
    value := fun _ combination => cellAt combination 0 column }

def Projection.items {table : TableDef} : Projection table → List SelectItem
  | .all => [.wildcard]
  | .columns names _ _ => names.map fun column =>
    .unnamed (columnExpr column) column

/-- A WHERE clause that refers to columns of the row only. -/
def rowClause (holds : Row → Bool) (_ : Database) (combination : Combination) : Bool :=
  match combination with
  | [some row] => holds row
  | _ => false

def tableSelect (table : TableDef) (projection : Projection table)
    (clause : Option (Row → Bool)) : Select :=
  { sources := [{ relation := .table table.name, joins := [] }]
    selection := clause.map rowClause
    grouped := false
    having := false
    distinct := .absent
    projection := projection.items }

def tableQuery (table : TableDef) (projection : Projection table)
    (clause : Option (Row → Bool)) : Query :=
  { hasWith := false
    hasFetch := false
    hasLocks := false
    body := .select (tableSelect table projection clause)
    bounds := Bounds.absent }

section

theorem stripHexMark_of_ne {text : String} (bare : text.toList.head? ≠ some '\\') :
    stripHexMark text = text := by
  rw [stripHexMark]
  split
  · rename_i rest isMarked
    rw [isMarked] at bare
    exact absurd rfl bare
  · rfl

theorem stripHexMark_bytea (hex : String) : stripHexMark ("\\x" ++ hex) = hex := by
  simp [stripHexMark]

theorem unmarked_toString_int (n : Int) : (toString n).toList.head? ≠ some '\\' := by
  intro isMark
  rcases head_toString_int n isMark with isDigit | isMinus
  · cases isDigit
  · cases isMinus

theorem unmarked_of_isUuidText (isUuid : IsUuidText text) : text.toList.head? ≠ some '\\' := by
  intro isMark
  have mem := all_eq_true.mp isUuid.2 '\\' (mem_of_mem_head? isMark)
  exact absurd mem (by decide)

/-- The gateway's text of a key tells keys of one type apart. -/
theorem KeyType.text_injective (keyType : KeyType) (hl : keyType.Holds left)
    (hr : keyType.Holds right)
    (eqText : valueAsString left.agentJson = valueAsString right.agentJson) :
    left = right := by
  cases keyType with
  | integer =>
    rcases hl with ⟨n, rfl⟩
    rcases hr with ⟨other, rfl⟩
    rw [toString_int_injective (Option.some_inj.mp eqText)]
  | bigint =>
    rcases hl with ⟨n, rfl⟩
    rcases hr with ⟨other, rfl⟩
    simp only [SqlValue.agentJson, valueAsString, Option.some_inj,
      stripHexMark_of_ne (unmarked_toString_int _)] at eqText
    rw [eqText]
  | uuid =>
    rcases hl with ⟨text, isText, rfl⟩
    rcases hr with ⟨other, oth, rfl⟩
    simp only [SqlValue.agentJson, valueAsString, Option.some_inj,
      stripHexMark_of_ne (unmarked_of_isUuidText isText),
      stripHexMark_of_ne (unmarked_of_isUuidText oth)] at eqText
    rw [eqText]
  | bytea =>
    rcases hl with ⟨hex, rfl⟩
    rcases hr with ⟨other, rfl⟩
    simp only [SqlValue.agentJson, valueAsString, stripHexMark_bytea, Option.some_inj] at eqText
    rw [eqText]

end

/-! ## What a plain read answers -/

theorem fromCombinations_singleton (database : Database) (src : TableWithJoins) :
    fromCombinations database [src] = src.combinations database := by
  simp [fromCombinations]

theorem rows_of_absent (rows : List Tuple) : Bounds.absent.apply rows = rows :=
  rfl

section

variable {schema : Schema} {table : TableDef} (projection : Projection table)
  (clause : Option (Row → Bool))

/-- A row as a plain read shows it. -/
def shownRow (row : Row) : WireRow :=
  wireRow projection.names (projection.names.map fun column => cell row column)

def passes (row : Row) : Bool := clause.all fun holds => holds row

variable (described : schema table.name = table.columns)
include described

theorem outputs_tableSelect :
    ((tableSelect table projection clause).outputs schema).map Output.name = projection.names ∧
      ∀ db row, ((tableSelect table projection clause).outputs schema).map
      (fun out => out.value db [some row]) =
      projection.names.map fun column => cell row column := by
  cases projection with
  | all =>
    simp [Select.outputs, tableSelect, Projection.items, SelectItem.outputs,
      Select.relations, sourceOutputs, Relation.columns, described,
      Projection.names, Function.comp_def, cellAt]
  | columns names nodup known =>
    simp [Select.outputs, tableSelect, Projection.items, SelectItem.outputs,
      Projection.names, flatMap_map, map_flatMap, columnExpr,
      cellAt]
    intro row
    exact flatMap_pure_eq_map _ _

theorem answer_tableQuery (db : Database) : (tableQuery table projection clause).answer schema db =
      ((db table.name).filter (passes clause)).map (shownRow projection) := by
  have names := (outputs_tableSelect projection clause described).1
  have vs := (outputs_tableSelect projection clause described).2 db
  have combs : (tableSelect table projection clause).selected db =
      ((db table.name).filter (passes clause)).map fun row => [some row] := by
    have srcs : fromCombinations db [{ relation := .table table.name, joins := [] }] =
          (db table.name).map fun row => [some row] :=
      fromCombinations_singleton db _
    cases clause with
    | none =>
      simp only [Select.selected, tableSelect, Option.map_none, srcs]
      congr 1
      exact (filter_eq_self.mpr fun _ _ => rfl).symm
    | some h =>
      simp only [Select.selected, tableSelect, Option.map_some, srcs, filter_map]
      rfl
  have projected : (tableSelect table projection clause).rows schema db =
      ((db table.name).filter (passes clause)).map fun row =>
        projection.names.map fun column => cell row column := by
    have rowsOf : (tableSelect table projection clause).rows schema db =
        ((tableSelect table projection clause).selected db).map fun combination =>
            ((tableSelect table projection clause).outputs schema).map
              fun out => out.value db combination := rfl
    rw [rowsOf, combs, map_map]
    exact map_congr_left fun row _ => vs row
  have got : (tableQuery table projection clause).answer schema db =
      ((tableSelect table projection clause).rows schema db).map
        (wireRow (((tableSelect table projection clause).outputs schema).map Output.name)) := rfl
  rw [got, projected, names, map_map]
  rfl

end

/-! ## Keys that are shown -/

theorem lookup_of_graph {Value : Type} (v : String → Value) (name : String)
    {fs : List (String × Value)} (graph : ∀ field ∈ fs, field.2 = v field.1) :
    fs.lookup name =
      if name ∈ fs.map Prod.fst then some (v name) else none := by
  induction fs with
  | nil => rfl
  | cons field fs ih =>
    rcases field with ⟨fieldName, found⟩
    have isValue := graph _ mem_cons_self
    have later := ih fun other mem =>
      graph other (mem_cons_of_mem _ mem)
    by_cases eqName : name = fieldName
    · subst eqName
      simp only at isValue
      simp [isValue]
    · have ne : (name == fieldName) = false := beq_false_of_ne eqName
      simp only [lookup_cons, ne, later, map_cons, mem_cons, eqName, false_or]

theorem keyText_shownRow (projection : Projection table) (row : Row) :
    keyText table.pk (shownRow projection row) =
      if table.pk ∈ projection.names then
      valueAsString (cell row table.pk).agentJson
      else none := by
  have graph : ∀ field ∈ shownRow projection row, field.2 = (cell row field.1).agentJson := by
    intro field mem
    rw [shownRow, wireRow, mem_reverse, map_map, ← map_prod_left_eq_zip, mem_map] at mem
    rcases mem with ⟨name, _, rfl⟩
    rfl
  have names : ∀ name, name ∈ (shownRow projection row).map Prod.fst ↔ name ∈ projection.names := by
    intro name
    rw [shownRow, wireRow, map_reverse, mem_reverse, map_fst_zip]
    simp
  rw [keyText, lookup_of_graph (fun name => (cell row name).agentJson) table.pk graph]
  simp only [names]
  split
  · rfl
  · rfl

/-- Rows that a table admits together have different keys. -/
theorem pk_ne_of_clash {table : TableDef} (ok : table.check left)
    (ne : table.clash left right = false) :
    cell left table.pk ≠ cell right table.pk := by
  intro eqKey
  have indexApart := (any_eq_false.mp ne) _ table.pkIndexed
  apply indexApart
  simp [UniqueIndex.clash, sameValue, ← eqKey, table.pkPresent left ok]

theorem keysOnce_tableQuery {table : TableDef} {keyType : KeyType} (projection : Projection table)
    (clause : Option (Row → Bool)) {whole : Database}
    (described : schema table.name = table.columns) (ok : table.Admits (whole table.name))
    (typed : ∀ row ∈ whole table.name, keyType.Holds (cell row table.pk)) :
    KeysOnce schema table.pk (tableQuery table projection clause) whole := by
  rw [KeysOnce, answer_tableQuery projection clause described, filterMap_map]
  apply List.Pairwise.filterMap (R := fun left right =>
    left ∈ whole table.name ∧ right ∈ whole table.name ∧ cell left table.pk ≠ cell right table.pk)
  · rintro left right ⟨hl, hr, ne⟩ text isText other oth rfl
    rw [Function.comp_apply, keyText_shownRow] at isText oth
    split at isText
    · rename_i isShown
      rw [if_pos isShown] at oth
      exact ne (keyType.text_injective (typed left hl) (typed right hr) (isText.trans oth.symm))
    · cases isText
  · apply List.Pairwise.filter
    apply ok.1.imp_of_mem
    intro left right hl hr ne
    exact ⟨hl, hr, pk_ne_of_clash (ok.2 left hl) ne⟩

theorem answer_tableQuery_perm (projection : Projection table) (clause : Option (Row → Bool))
    (parts : Partition whole providers) (described : schema table.name = table.columns) :
    ((tableQuery table projection clause).answer schema whole).Perm (providers.flatMap
      ((tableQuery table projection clause).answer schema)) := by
  have ans := funext (answer_tableQuery projection clause described)
  rw [ans, ← map_flatMap, ← filter_flatMap]
  exact ((parts table.name).filter _).map _

/--
A read of one table returns exactly the rows of the query over the whole
table, however the rows are shared among providers; it fails only when there
is no provider.
-/
theorem single_table_read_exact {schema : Schema} {table : TableDef} {keyType : KeyType}
    (projection : Projection table) (clause : Option (Row → Bool))
    {whole : Database} {providers : List Database}
    (described : schema table.name = table.columns)
    (admitted : table.Admits (whole table.name))
    (typed : ∀ row ∈ whole table.name, keyType.Holds (cell row table.pk))
    (partition : Partition whole providers)
    (hashes : Arrangement WireRow) :
    analyzeSelect (tableQuery table projection clause) = .ok .read ∧
      match fanoutRead hashes schema table.pk (tableQuery table projection clause) providers [] with
      | .ok rows =>
        rows.Perm ((tableQuery table projection clause).answer schema whole)
      | .error error => providers = [] ∧ error = .noProviders := by
  constructor
  · cases projection with
    | all => rfl
    | columns names nodup known =>
      simp [analyzeSelect, tableQuery, analyzePlain, tableSelect,
        Select.needsAggregate, Projection.items, SelectItem.hasAggregate,
        columnExpr]
  · cases providers with
    | nil => exact ⟨rfl, rfl⟩
    | cons host providers =>
      have exactly : ReadsExactly hashes schema table.pk (tableQuery table projection clause) whole
          (host :: providers) [] :=
        (readsExactly_iff_keysOnce (cons_ne_nil _ _) (fun _ => rfl)
          (answer_tableQuery_perm projection clause partition described)).mpr
          (keysOnce_tableQuery projection clause described admitted typed)
      rcases exactly with ⟨rows, read, eq⟩
      rw [read]
      exact eq

/-! ## A table of events -/

/-- Events with a bytea key. -/
def eventsTable : TableDef where
  name := "events"
  columns := ["event_id", "event_kind"]
  pk := "event_id"
  indexes := [{ columns := ["event_id"], predicate := none }]
  check row := (cell row "event_id").captureText.isSome
  pkListed := by decide
  pkIndexed := List.mem_singleton_self _
  pkPresent _ checked := checked

def eventsSchema : Schema := fun _ => ["event_id", "event_kind"]

def storedEvent (hex : String) (kind : Int) : Row :=
  [("event_id", .bytea hex), ("event_kind", .integer kind)]

def eventsOnly (events : Content) : Database := fun name =>
  if name = "events" then events else []

def reversed : Arrangement WireRow where
  arrange := List.reverse
  perm := List.reverse_perm

theorem events_read_exact : analyzeSelect (tableQuery eventsTable .all none) = .ok .read ∧
      match fanoutRead reversed eventsSchema "event_id"
        (tableQuery eventsTable .all none)
        [eventsOnly [storedEvent "ab" 1], eventsOnly [],
          eventsOnly [storedEvent "cd" 1]] [] with
      | .ok rows =>
        rows.Perm ((tableQuery eventsTable .all none).answer eventsSchema
          (eventsOnly [storedEvent "ab" 1, storedEvent "cd" 1]))
      | .error error =>
        [eventsOnly [storedEvent "ab" 1], eventsOnly [],
          eventsOnly [storedEvent "cd" 1]] = [] ∧ error = .noProviders := by
  have parts : Partition
      (eventsOnly [storedEvent "ab" 1, storedEvent "cd" 1])
      [eventsOnly [storedEvent "ab" 1], eventsOnly [],
        eventsOnly [storedEvent "cd" 1]] := by
    intro name
    by_cases isEvents : name = "events"
    · simp [eventsOnly, isEvents]
    · simp [eventsOnly, isEvents]
  have ok : eventsTable.Admits
      (eventsOnly [storedEvent "ab" 1, storedEvent "cd" 1] "events") := by
    decide
  have typed : ∀ row ∈ eventsOnly [storedEvent "ab" 1, storedEvent "cd" 1]
      "events", KeyType.bytea.Holds (cell row "event_id") := by
    intro row isRow
    rcases mem_pair.mp isRow with rfl | rfl
    · exact ⟨"ab", rfl⟩
    · exact ⟨"cd", rfl⟩
  exact single_table_read_exact .all none rfl ok typed parts reversed

end StorageOrchestrator.Read.Fanout
