import StorageOrchestrator.Lib.Hex
import StorageOrchestrator.Wire.Statements

/-!
# The row id of an INSERT and of later statements

The row id of an INSERT is the text that Postgres prints for the primary key of
the captured row.  The row id of a later UPDATE, DELETE or SELECT is the text
of a literal in its WHERE clause.  The two are the same exactly when that
literal is spelled as Postgres prints its value: `true` is not (`t`), nor is
`007`, an upper-case uuid, or `decode('ab', 'hex')` (`\xab`).  And a row id is
the text of one column, so rows with different composite keys can share one.
-/

namespace StorageOrchestrator.Wire.Identity

open Lib.Hex Lib.Text Mesh.Value Mesh.Table Wire.Statements List

/-! ## Registered columns -/

/-- An entry of the `columns` of a registered table. -/
structure Column where
  name : String
  primaryKey : Bool
deriving DecidableEq, Repr

/-- `PK_COLUMN`. -/
def defaultPk : String := "id"

/-- The first column that is marked. -/
def pkFromColumns (columns : List Column) : Option String :=
  (columns.find? Column.primaryKey).map Column.name

/-- The column whose text is the row id. -/
def pkColumnOf (columns : List Column) : String := (pkFromColumns columns).getD defaultPk

/-! ## Key values -/

inductive PkType where
  | integer
  | text
  | uuid
  | boolean
  | bytea
deriving DecidableEq, Repr

inductive PkValue where
  | integer (value : Int)
  | text (value : String)
  | uuid (bytes : List Byte) (sized : bytes.length = 16)
  | boolean (value : Bool)
  | bytea (bytes : List Byte)

def PkValue.type : PkValue → PkType
  | .integer _ => .integer
  | .text _ => .text
  | .uuid _ _ => .uuid
  | .boolean _ => .boolean
  | .bytea _ => .bytea

/-- The lengths of the groups of a uuid, but the last. -/
def uuidGroups : List Nat := [8, 4, 4, 4]

/-- The text that Postgres prints. -/
def PkValue.printed : PkValue → String
  | .integer value => toString value
  | .text value => value
  | .uuid bytes _ => String.ofList (hyphenate uuidGroups (encode bytes))
  | .boolean value => if value then "t" else "f"
  | .bytea bytes => "\\x" ++ String.ofList (encode bytes)

/-- The value in a row of the mesh. -/
def PkValue.sql : PkValue → SqlValue
  | .integer value => .integer value
  | .text value => .text value
  | .uuid bytes sized =>
    .other (PkValue.uuid bytes sized).printed (.str (PkValue.uuid bytes sized).printed)
  | .boolean value => .boolean value
  | .bytea bytes => .bytea (String.ofList (encode bytes))

@[simp]
theorem captureText_sql (value : PkValue) : value.sql.captureText = some value.printed := by
  cases value <;> rfl

/-! ## The row id of an INSERT -/

/-- The row id of the captured row; `none` is the error of a missing key. -/
def recordedRowId (columns : List Column) (row : Row) : Option String :=
  valueToWireText (cell row (pkColumnOf columns)).capturedJson

/-- A registered table with a primary key, and the types of its columns. -/
structure PkTable where
  name : String
  columns : List Column
  typeOf : String → PkType
  keyed : ∃ column ∈ columns, column.primaryKey = true

def PkTable.keyColumns (table : PkTable) : List String :=
  (table.columns.filter Column.primaryKey).map Column.name

/-- The column that the gateway takes for the primary key. -/
def PkTable.pk (table : PkTable) : String := pkColumnOf table.columns

def PkTable.primaryKey (table : PkTable) (row : Row) : List SqlValue :=
  table.keyColumns.map (cell row)

def PkTable.Holds (table : PkTable) (row : Row) (column : String) (value : PkValue) : Prop :=
  value.type = table.typeOf column ∧ cell row column = value.sql

/-- The columns of the primary key have values of their types. -/
def PkTable.Typed (table : PkTable) (row : Row) : Prop :=
  ∀ column ∈ table.keyColumns, ∃ value, table.Holds row column value

/-- The primary key has one column. -/
def PkTable.SingleColumn (table : PkTable) : Prop := ∀ column ∈ table.keyColumns, column = table.pk

/-! ## The row id of a later statement -/

/-- A statement with a WHERE clause; that of a query is its syntax. -/
inductive Later where
  | update (table : TableFactor) (selection : Option Expr)
  | delete (tables : List TableFactor) (selection : Option Expr)
  | select (query : Read.Sql.Query) (selection : Option Expr)

def Later.selection : Later → Option Expr
  | .update _ selection | .delete _ selection | .select _ selection => selection

def writeRowId : Except String AnalyzedStatement → Option String
  | .ok (.write write) => if write.broad then none else some write.rowId
  | _ => none

/-- `point_read_row_id_with_pk` on a parsed query. -/
def pointReadRowId (pk : String) (query : Read.Sql.Query)
    (selection : Option Expr) : Option String :=
  match query.body with
  | .select select =>
    if select.sources.length ≠ 1 then none
    else selection.bind (extractPkEquality pk)
  | _ => none

/-- The row id that `execute_sql_bound` computes from the literals. -/
def Later.rowId (pk : String) : Later → Option String
  | .update table selection =>
    writeRowId (analyzeKeyed .update pk (extractTableFactorName table) selection)
  | .delete tables selection =>
    writeRowId (analyzeKeyed .delete pk (extractDeleteTable tables) selection)
  | .select query selection =>
    match Read.Sql.analyzeSelect query with
    | .ok .read => pointReadRowId pk query selection
    | _ => none

/-- The statement is on the table; a SELECT is read row by row. -/
def Later.On (name : String) : Later → Prop
  | .update table _ => extractTableFactorName table = .ok name
  | .delete tables _ => extractDeleteTable tables = .ok name
  | .select query _ =>
    Read.Sql.analyzeSelect query = .ok .read ∧ ∃ select source rest, query.body = .select select ∧
        select.sources = source :: rest ∧ source.relation = .table name

/-! ## Canonical literals -/

/-- The texts that Postgres prints for values of the type. -/
def PkType.isCanonical (type : PkType) (text : String) : Bool :=
  match type with
  | .integer => isInteger text.toList
  | .text => true
  | .uuid =>
    let digits := unhyphenated text.toList
    isHex digits && digits.length == 32 && hyphenate uuidGroups digits == text.toList
  | .boolean => text == "t" || text == "f"
  | .bytea =>
    match text.toList with
    | '\\' :: 'x' :: digits => isHex digits
    | _ => false

/--
The operand of the first conjunct that `extract_pk_equality` takes for an
equality on the primary key.
-/
def pkOperand (pk : String) : Expr → Option Expr
  | .and left right =>
    (pkOperand pk left).orElse fun _ => pkOperand pk right
  | .equal left right =>
    if (pkLiteral pk left right).isSome then some right
    else if (pkLiteral pk right left).isSome then some left
    else none
  | _ => none

/--
The input functions of Postgres: the text of a value that a column can hold is
read back, and no printed text is read as another value.
-/
structure InputFunctions where
  Storable : PkValue → Prop
  reads : PkType → String → Option PkValue
  reads_printed : ∀ value, Storable value → reads value.type value.printed = some value
  reads_only : ∀ value other, reads value.type value.printed = some other → other = value

/-- What a literal denotes beside a column of the type. -/
def InputFunctions.denotes (input : InputFunctions) (type : PkType) : Expr → Option PkValue
  | .value (.singleQuoted text) | .value (.escaped text) => input.reads type text
  | .value (.number text) =>
    if type = .integer then input.reads .integer text else none
  | .value (.boolean flag) =>
    if type = .boolean then some (.boolean flag) else none
  | _ => none

/-- The text of the operand is canonical, and as a literal it is the value. -/
def InputFunctions.SpellsOut (input : InputFunctions) (value : PkValue) (operand : Expr) : Prop :=
  ∃ text, literalToString operand = some text ∧ value.type.isCanonical text = true ∧
    input.reads value.type text = some value

/-! ## Printed values are read back -/

def readDigits (digits : List Char) : Option Nat :=
  if digits ≠ [] ∧ digits.all Char.isDigit then
    some (Nat.ofDigitChars 10 digits 0)
  else none

/-- Digits with an optional sign. -/
def readInteger : List Char → Option Int
  | '-' :: digits => (readDigits digits).map fun magnitude => -magnitude
  | '+' :: digits => (readDigits digits).map fun magnitude => magnitude
  | digits => (readDigits digits).map fun magnitude => magnitude

/-- Digits of either case, with hyphens anywhere. -/
def readUuid (letters : List Char) : Option PkValue :=
  match decode ((unhyphenated letters).map Char.toLower) with
  | some bytes =>
    if sized : bytes.length = 16 then some (.uuid bytes sized) else none
  | none => none

def readBoolean (text : String) : Option Bool :=
  if lowered text ∈ ["t", "true", "y", "yes", "on", "1"].map String.toList then
    some true
  else if
    lowered text ∈ ["f", "false", "n", "no", "off", "0"].map String.toList then
    some false
  else none

/-- The hexadecimal format of byte strings. -/
def readBytea : List Char → Option (List Byte)
  | '\\' :: 'x' :: digits => decode (digits.map Char.toLower)
  | _ => none

/-- Input functions that accept the common spellings. -/
def readCommon : PkType → String → Option PkValue
  | .integer, text => (readInteger text.toList).map .integer
  | .text, text => some (.text text)
  | .uuid, text => readUuid text.toList
  | .boolean, text => (readBoolean text).map .boolean
  | .bytea, text => (readBytea text.toList).map .bytea

theorem readDigits_toDigits (number : Nat) : readDigits (Nat.toDigits 10 number) = some number := by
  have ds : (Nat.toDigits 10 number).all Char.isDigit = true :=
    all_eq_true.mpr fun c => isDigit_of_mem_toDigits
  rw [readDigits, if_pos ⟨Nat.toDigits_ne_nil, ds⟩, Nat.ofDigitChars_ten_toDigits]

theorem readInteger_toString (number : Int) :
    readInteger (toString number).toList = some number := by
  cases number with
  | ofNat magnitude =>
    rw [toList_toString_ofNat, readInteger.eq_def]
    split
    · rename_i ds signed
      refine absurd ?_ (minus_not_mem_toDigits magnitude)
      rw [signed]
      exact mem_cons_self
    · rename_i ds signed
      have isDigit : '+'.isDigit = true := by
        have mem : '+' ∈ Nat.toDigits 10 magnitude := by
          rw [signed]
          exact mem_cons_self
        exact isDigit_of_mem_toDigits mem
      cases isDigit
    · rw [readDigits_toDigits]
      rfl
  | negSucc magnitude =>
    rw [toList_toString_negSucc, readInteger, readDigits_toDigits]
    rfl

theorem readUuid_printed (bytes : List Byte) (sized : bytes.length = 16) :
    readUuid (PkValue.uuid bytes sized).printed.toList = some (.uuid bytes sized) := by
  simp [readUuid, PkValue.printed, unhyphenated_hyphenate _ (hyphen_not_mem_encode bytes),
    map_toLower_encode, decode_encode, sized]

theorem toList_printed_bytea (bytes : List Byte) :
    (PkValue.bytea bytes).printed.toList = '\\' :: 'x' :: encode bytes := by
  simp only [PkValue.printed, String.toList_append, String.toList_ofList]
  rfl

theorem readBytea_printed (bytes : List Byte) :
    readBytea (PkValue.bytea bytes).printed.toList = some bytes := by
  rw [toList_printed_bytea, readBytea, map_toLower_encode, decode_encode]

/-- The common spellings include the printed ones. -/
theorem readCommon_printed (value : PkValue) :
    readCommon value.type value.printed = some value := by
  cases value with
  | integer value =>
    simp only [PkValue.type, PkValue.printed, readCommon, readInteger_toString, Option.map_some]
  | text value => rfl
  | uuid bytes sized => exact readUuid_printed bytes sized
  | boolean value => cases value <;> rfl
  | bytea bytes =>
    simp [PkValue.type, readCommon, readBytea_printed]

def commonInput : InputFunctions where
  Storable := fun _ => True
  reads := readCommon
  reads_printed := fun value _ => readCommon_printed value
  reads_only := by
    intro value other read
    rw [readCommon_printed value] at read
    exact (Option.some.inj read).symm

/-- Values of one type are printed differently. -/
theorem eq_of_printed {left right : PkValue} (sameType : left.type = right.type)
    (samePrinted : left.printed = right.printed) : left = right := by
  have read := readCommon_printed left
  rw [sameType, samePrinted, readCommon_printed right] at read
  exact (Option.some.inj read).symm

/-! ## Canonical texts are the printed ones -/

theorem isCanonical_printed (v : PkValue) : v.type.isCanonical v.printed = true := by
  cases v with
  | integer v => exact isInteger_toString v
  | text v => rfl
  | uuid bytes sized =>
    have ds : isHex (encode bytes) = true := (exists_encode_iff _).mp ⟨bytes, rfl⟩
    simp [PkValue.type, PkType.isCanonical, PkValue.printed,
      unhyphenated_hyphenate _ (hyphen_not_mem_encode bytes), ds, length_encode, sized]
  | boolean v => cases v <;> rfl
  | bytea bytes =>
    simp only [PkValue.type, PkType.isCanonical, toList_printed_bytea]
    exact (exists_encode_iff _).mp ⟨bytes, rfl⟩

theorem exists_printed_of_isCanonical {type : PkType} (canon : type.isCanonical text = true) :
    ∃ value : PkValue, value.type = type ∧ value.printed = text := by
  cases type with
  | integer =>
    obtain ⟨n, word⟩ := (exists_toString_int_iff text).mpr canon
    exact ⟨.integer n, rfl, word⟩
  | text => exact ⟨.text text, rfl, rfl⟩
  | uuid =>
    simp only [PkType.isCanonical, Bool.and_eq_true, beq_iff_eq] at canon
    obtain ⟨⟨ds, length⟩, group⟩ := canon
    obtain ⟨bytes, encoded⟩ := (exists_encode_iff _).mpr ds
    have sized : bytes.length = 16 := by
      rw [← encoded, length_encode] at length
      omega
    refine ⟨.uuid bytes sized, rfl, ?_⟩
    rw [PkValue.printed, encoded, group, String.ofList_toList]
  | boolean =>
    simp only [PkType.isCanonical, Bool.or_eq_true, beq_iff_eq] at canon
    rcases canon with rfl | rfl
    · exact ⟨.boolean true, rfl, rfl⟩
    · exact ⟨.boolean false, rfl, rfl⟩
  | bytea =>
    simp only [PkType.isCanonical] at canon
    split at canon
    · rename_i ds word
      obtain ⟨bytes, encoded⟩ := (exists_encode_iff _).mpr canon
      refine ⟨.bytea bytes, rfl, ?_⟩
      apply String.toList_injective
      rw [toList_printed_bytea, encoded, word]
    · cases canon

/-- The operand spells the value out when its text is the printed one. -/
theorem spellsOut_iff {input : InputFunctions} (storable : input.Storable v) (operand : Expr) :
    input.SpellsOut v operand ↔ literalToString operand = some v.printed := by
  constructor
  · rintro ⟨text, word, canon, read⟩
    obtain ⟨other, sameType, rfl⟩ := exists_printed_of_isCanonical canon
    rw [← sameType] at read
    rw [input.reads_only other v read]
    exact word
  · intro word
    exact ⟨v.printed, word, isCanonical_printed v, input.reads_printed v storable⟩

/-! ## The row id of a WHERE clause -/

theorem pkLiteral_eq_some (found : pkLiteral pk named literal = some text) :
    literalToString literal = some text := by
  simp only [pkLiteral] at found
  split at found
  · split at found
    · cases found
      assumption
    · cases found
  · cases found

theorem isSome_of_pkOperand (found : pkOperand pk selection = some operand) :
    ∃ text, literalToString operand = some text := by
  induction selection with
  | and left right ihl ihr =>
    rw [pkOperand, Option.orElse_eq_or, Option.or_eq_some_iff] at found
    rcases found with onLeft | ⟨-, onRight⟩
    · exact ihl onLeft
    · exact ihr onRight
  | equal left right =>
    simp only [pkOperand] at found
    split at found
    · rename_i forward
      cases found
      obtain ⟨text, word⟩ := Option.isSome_iff_exists.mp forward
      exact ⟨text, pkLiteral_eq_some word⟩
    · split at found
      · rename_i backward
        cases found
        obtain ⟨text, word⟩ := Option.isSome_iff_exists.mp backward
        exact ⟨text, pkLiteral_eq_some word⟩
      · cases found
  | _ => cases found

/-- The row id of a WHERE clause is the text of its operand. -/
theorem extractPkEquality_eq (pk : String) (sel : Expr) : extractPkEquality pk sel =
      (pkOperand pk sel).bind literalToString := by
  induction sel with
  | and left right ihl ihr =>
    rw [extractPkEquality, pkOperand, ihl, ihr]
    cases found : pkOperand pk left with
    | none => rfl
    | some operand =>
      obtain ⟨text, word⟩ := isSome_of_pkOperand found
      simp [word]
  | equal left right =>
    simp only [extractPkEquality, pkOperand]
    cases found : pkLiteral pk left right with
    | some text => simp [pkLiteral_eq_some found]
    | none =>
      cases reversed : pkLiteral pk right left with
      | some text => simp [pkLiteral_eq_some reversed]
      | none => rfl
  | _ => rfl

theorem writeRowId_analyzeKeyed (kind : StatementKind) (pk name : String) (sel : Option Expr) :
    writeRowId (analyzeKeyed kind pk (.ok name) sel) = sel.bind (extractPkEquality pk) := by
  simp only [analyzeKeyed]
  cases sel.bind (extractPkEquality pk) <;> rfl

/-- A SELECT that is read row by row has at most one FROM item. -/
theorem length_sources_of_read (read : Read.Sql.analyzeSelect query = .ok .read)
    (sel : query.body = .select select) (srcs : select.sources = source :: rest) :
    select.sources.length = 1 := by
  simp only [Read.Sql.analyzeSelect, sel, Read.Sql.analyzePlain, srcs] at read
  split at read
  · cases read
  · split at read
    · cases read
    · split at read
      · rename_i single
        rw [srcs, isEmpty_iff.mp single, length_singleton]
      · cases read

theorem rowId_of_on {later : Later} (here : later.On name) (pk : String) :
    later.rowId pk = later.selection.bind (extractPkEquality pk) := by
  cases later with
  | update target sel =>
    have tab : extractTableFactorName target = .ok name := here
    rw [Later.rowId, tab]
    exact writeRowId_analyzeKeyed .update pk name sel
  | delete targets sel =>
    have tab : extractDeleteTable targets = .ok name := here
    rw [Later.rowId, tab]
    exact writeRowId_analyzeKeyed .delete pk name sel
  | select q sel =>
    obtain ⟨read, select, src, rest, isSelect, srcs, -⟩ := here
    have single := length_sources_of_read read isSelect srcs
    simp only [Later.rowId, read, pointReadRowId, isSelect, single, ne_eq, not_true_eq_false,
      if_false]
    rfl

/-! ## The row id of an INSERT -/

section

variable {table : PkTable}

theorem recordedRowId_of_holds (h : table.Holds row table.pk v) :
    recordedRowId table.columns row = some v.printed := by
  have isCell : cell row (pkColumnOf table.columns) = v.sql := h.2
  rw [recordedRowId, isCell, wireText_capturedJson, captureText_sql]

/-- The gateway's column is one of the primary key. -/
theorem pk_mem_keyColumns (table : PkTable) : table.pk ∈ table.keyColumns := by
  obtain ⟨col, mem, isKey⟩ := table.keyed
  cases found : table.columns.find? Column.primaryKey with
  | none => exact absurd isKey (find?_eq_none.mp found col mem)
  | some first =>
    have hfst : table.pk = first.name := by simp [PkTable.pk, pkColumnOf, pkFromColumns, found]
    rw [hfst]
    exact mem_map_of_mem (mem_filter.mpr ⟨mem_of_find?_eq_some found, find?_some found⟩)

/-- Rows of one row id have one value in the gateway's column. -/
theorem cell_eq_of_recordedRowId (leftTyped : table.Typed left) (rightTyped : table.Typed right)
    (eq : recordedRowId table.columns left = recordedRowId table.columns right) :
    cell left table.pk = cell right table.pk := by
  obtain ⟨leftValue, leftHolds⟩ := leftTyped _ (pk_mem_keyColumns table)
  obtain ⟨rightValue, rightHolds⟩ := rightTyped _ (pk_mem_keyColumns table)
  rw [recordedRowId_of_holds leftHolds, recordedRowId_of_holds rightHolds, Option.some.injEq] at eq
  rw [leftHolds.2, rightHolds.2, eq_of_printed (leftHolds.1.trans rightHolds.1.symm) eq]

/-! ### Rows with given keys -/

def PkTable.rowOf (table : PkTable) (values : String → PkValue) : Row :=
  table.keyColumns.map fun column => (column, (values column).sql)

theorem cell_rowOf (mem : col ∈ table.keyColumns) (vs : String → PkValue) :
    cell (table.rowOf vs) col = (vs col).sql := by
  have found : ∀ cols : List String, col ∈ cols →
      (cols.map fun name => (name, (vs name).sql)).lookup col = some (vs col).sql := by
    intro cols
    induction cols with
    | nil => nofun
    | cons first rest ih =>
      intro mem
      rw [map_cons, lookup_cons]
      by_cases hfst : col = first
      · subst hfst
        rw [beq_self_eq_true]
      · rw [beq_false_of_ne hfst]
        exact ih ((mem_cons.mp mem).resolve_left hfst)
  rw [cell, PkTable.rowOf, found _ mem, Option.getD_some]

theorem typed_rowOf (typed : ∀ col, (vs col).type = table.typeOf col) :
    table.Typed (table.rowOf vs) :=
  fun col mem =>
    ⟨vs col, typed col, cell_rowOf mem vs⟩

/-- Two values of a type. -/
def PkType.samples : PkType → PkValue × PkValue
  | .integer => (.integer 0, .integer 1)
  | .text => (.text "", .text "a")
  | .uuid =>
    (.uuid (List.replicate 16 0) (List.length_replicate ..),
      .uuid (List.replicate 16 1) (List.length_replicate ..))
  | .boolean => (.boolean false, .boolean true)
  | .bytea => (.bytea [], .bytea [0])

theorem samples_typed (type : PkType) :
    type.samples.1.type = type ∧ type.samples.2.type = type := by
  cases type <;> exact ⟨rfl, rfl⟩

theorem samples_differ (type : PkType) :
    type.samples.1.sql.captureText ≠ type.samples.2.sql.captureText := by
  cases type <;> decide

/-- With a second column, two rows with different keys share a row id. -/
theorem exists_shared_row_id (mem : col ∈ table.keyColumns) (second : col ≠ table.pk) :
    ∃ left right, table.Typed left ∧ table.Typed right ∧
      table.primaryKey left ≠ table.primaryKey right ∧
      recordedRowId table.columns left = recordedRowId table.columns right := by
  let vs : String → PkValue := fun name => (table.typeOf name).samples.1
  let new := Function.update vs col (table.typeOf col).samples.2
  have valuesTyped : ∀ name, (vs name).type = table.typeOf name := fun name => (samples_typed _).1
  have changedTyped : ∀ name, (new name).type = table.typeOf name := by
    intro name
    by_cases isColumn : name = col
    · subst isColumn
      simp only [new, Function.update_self]
      exact (samples_typed _).2
    · simp only [new, Function.update_of_ne isColumn]
      exact valuesTyped name
  refine ⟨table.rowOf vs, table.rowOf new, typed_rowOf valuesTyped,
    typed_rowOf changedTyped, ?_, ?_⟩
  · intro eq
    have sameCell := map_inj_left.mp eq col mem
    rw [cell_rowOf mem, cell_rowOf mem] at sameCell
    simp only [new, Function.update_self] at sameCell
    exact samples_differ _ (congrArg SqlValue.captureText sameCell)
  · have sameCell : cell (table.rowOf vs) (pkColumnOf table.columns) =
        cell (table.rowOf new) (pkColumnOf table.columns) := by
      have leftCell := cell_rowOf (pk_mem_keyColumns table) vs
      have rightCell := cell_rowOf (pk_mem_keyColumns table) new
      simp only [new, Function.update_of_ne second.symm] at rightCell
      exact leftCell.trans rightCell.symm
    rw [recordedRowId, recordedRowId, sameCell]

end

/-! ## Row identity -/

/--
The row id of a later statement is the recorded one exactly when the literal
of its WHERE clause spells out the key value, and rows with different keys
have different row ids exactly when the primary key has one column.
-/
theorem row_ids_agree_iff (input : InputFunctions) (table : PkTable) :
    (∀ row value (later : Later), input.Storable value →
      table.Holds row table.pk value → later.On table.name →
        (later.rowId table.pk = recordedRowId table.columns row ↔ ∃ operand,
            later.selection.bind (pkOperand table.pk) = some operand ∧
            input.SpellsOut value operand)) ∧
    ((∀ left right, table.Typed left → table.Typed right →
        table.primaryKey left ≠ table.primaryKey right → recordedRowId table.columns left ≠
            recordedRowId table.columns right) ↔
      table.SingleColumn) := by
  constructor
  · intro row value later storable h here
    rw [rowId_of_on here, recordedRowId_of_holds h]
    simp only [extractPkEquality_eq, spellsOut_iff storable]
    cases later.selection with
    | none => simp
    | some sel =>
      simp only [Option.bind_some]
      exact Option.bind_eq_some_iff
  · constructor
    · intro nodup col mem
      by_contra second
      obtain ⟨left, right, leftTyped, rightTyped, ne, eq⟩ := exists_shared_row_id mem second
      exact nodup left right leftTyped rightTyped ne eq
    · intro single left right leftTyped rightTyped ne eq
      apply ne
      apply map_congr_left
      intro col mem
      rw [single col mem]
      exact cell_eq_of_recordedRowId leftTyped rightTyped eq

def notesKey : PkTable where
  name := "notes"
  columns := [⟨"id", true⟩, ⟨"body", false⟩]
  typeOf := fun _ => .text
  keyed := ⟨⟨"id", true⟩, List.mem_cons_self, rfl⟩

/-- `UPDATE name SET ... WHERE column = literal`. -/
def updateWhere (name column : String) (literal : Value) : Later :=
  .update (.table [some name])
    (some (.equal (.identifier column) (.value literal)))

/-- `UPDATE notes SET ... WHERE id = 'a'` finds the row id of the note. -/
theorem quoted_note_is_found :
    (updateWhere "notes" "id" (.singleQuoted "a")).rowId "id" =
      recordedRowId notesKey.columns (note "a" "text") ∧
    recordedRowId notesKey.columns (note "a" "text") ≠
      recordedRowId notesKey.columns (note "b" "text") := by
  obtain ⟨agreement, inj⟩ := row_ids_agree_iff commonInput notesKey
  constructor
  · have agreed := agreement (note "a" "text") (.text "a")
      (updateWhere "notes" "id" (.singleQuoted "a")) trivial ⟨rfl, rfl⟩ rfl
    exact agreed.mpr ⟨.value (.singleQuoted "a"), rfl, "a", rfl, rfl, rfl⟩
  · apply inj.mpr
    · intro col mem
      exact mem_singleton.mp mem
    · intro col mem
      rw [mem_singleton.mp mem]
      exact ⟨.text "a", rfl, rfl⟩
    · intro col mem
      rw [mem_singleton.mp mem]
      exact ⟨.text "b", rfl, rfl⟩
    · intro eq
      have eqText := SqlValue.text.inj (cons.inj eq).1
      revert eqText
      decide

def switchesKey : PkTable where
  name := "switches"
  columns := [⟨"state", true⟩]
  typeOf := fun _ => .boolean
  keyed := ⟨⟨"state", true⟩, List.mem_cons_self, rfl⟩

def seatsKey : PkTable where
  name := "seats"
  columns := [⟨"line", true⟩, ⟨"number", true⟩]
  typeOf := fun _ => .integer
  keyed := ⟨⟨"line", true⟩, List.mem_cons_self, rfl⟩

/--
`UPDATE switches SET ... WHERE state = true` computes the row id `true`, and
the INSERT of that row recorded `t`.  The seats `(1, 1)` and `(1, 2)` share the
row id `1`.
-/
theorem true_is_not_t_and_seats_share_row_id :
    (commonInput.denotes .boolean (.value (.boolean true)) = some (.boolean true) ∧
      switchesKey.Holds [("state", .boolean true)] "state" (.boolean true) ∧
      (updateWhere "switches" "state" (.boolean true)).rowId "state" =
        some "true" ∧
      recordedRowId switchesKey.columns [("state", .boolean true)] =
        some "t") ∧
    (seatsKey.primaryKey [("line", .integer 1), ("number", .integer 1)] ≠
        seatsKey.primaryKey [("line", .integer 1), ("number", .integer 2)] ∧
      recordedRowId seatsKey.columns
          [("line", .integer 1), ("number", .integer 1)] =
        recordedRowId seatsKey.columns
          [("line", .integer 1), ("number", .integer 2)]) := by
  refine ⟨⟨rfl, ⟨rfl, rfl⟩, by decide +kernel, rfl⟩, ?_, rfl⟩
  intro eq
  cases eq

end StorageOrchestrator.Wire.Identity
