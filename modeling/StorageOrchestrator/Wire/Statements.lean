import StorageOrchestrator.Aggregate.Plan
import StorageOrchestrator.Read.Sql
import StorageOrchestrator.Wire.Classifier

/-!
# Parsed statements and their analysis

The part of a parsed statement that `analyze_statement` looks at, and the
analysis itself.  Its outcome does not depend on the text of string constants:
`shape` leaves these texts out, and statements of one shape are analysed alike,
except where the analysis goes back to the text (`INSERT … SELECT` and the
aggregate planner).
-/

namespace StorageOrchestrator.Wire.Statements

open Lib.Text List

/-! ## The parsed statement -/

/-- A literal of the parser. -/
inductive Value where
  | singleQuoted (text : String)
  | doubleQuoted (text : String)
  | escaped (text : String)
  | number (text : String)
  | boolean (flag : Bool)
  | null
  | placeholder (name : String)
  | other

/-- An expression; a function call has its last name and a plain argument. -/
inductive Expr where
  | identifier (name : String)
  | compound (parts : List String)
  | value (value : Value)
  | cast (inner : Expr)
  | function (name : Option String) (argument : Option Value)
  | and (left right : Expr)
  | equal (left right : Expr)
  | other

/-- The parts of a name, those that are identifiers. -/
abbrev ObjectName := List (Option String)

/-- A target that is a plain table or not. -/
inductive TableFactor where
  | table (name : ObjectName)
  | other

/-- What an INSERT writes. -/
inductive InsertSource where
  | absent
  | values (rows : List (List Expr))
  | select
  | other

/-- The target of ON CONFLICT. -/
inductive ConflictClause where
  | absent
  | columns (names : List String)
  | anyTarget
  | constraint
  | other

/-- `table` is missing when the target is not a plain table. -/
structure Insert where
  table : Option ObjectName
  columns : List ObjectName
  source : InsertSource
  onConflict : ConflictClause

/-- A query as the read analyzer and as the aggregate planner look at it. -/
structure ParsedQuery where
  read : Read.Sql.Query
  plan : Aggregate.Plan.Query

/-- A statement, by what the analyzer looks at. -/
inductive Statement where
  | query (query : ParsedQuery)
  | insert (insert : Insert)
  | update (table : TableFactor) (selection : Option Expr)
  | delete (tables : List TableFactor) (selection : Option Expr)
  | createTable (name : ObjectName)
  | alterTable (name : ObjectName) (additive : List Bool)
  | dropTable (names : List ObjectName)
  | createIndex (table : ObjectName)
  | dropIndex
  | other (kind : String)

/-! ## The analyzer -/

/-- `value_to_string`; NULL and placeholders get marks of their own. -/
def valueToString : Value → Option String
  | .singleQuoted text | .doubleQuoted text | .escaped text | .number text => some text
  | .boolean flag => some (if flag then "true" else "false")
  | .null => some "\x00null"
  | .placeholder name => some ("\x1ePARAM:" ++ name)
  | .other => none

/-- `identifier_name`. -/
def identifierName : Expr → Option String
  | .identifier name => some name
  | .compound parts => parts.getLast?
  | _ => none

/-- `literal_to_string`. -/
def literalToString : Expr → Option String
  | .value value => valueToString value
  | .cast inner => literalToString inner
  | .function name argument =>
    if name.any fun written => eqIgnoringCase written "decode" then
      argument.bind valueToString
    else none
  | .identifier name => some name
  | .compound parts => parts.getLast?
  | _ => none

/-- One side names the primary key and the other is a literal. -/
def pkLiteral (pk : String) (named literal : Expr) : Option String :=
  match identifierName named, literalToString literal with
  | some name, some text => if eqIgnoringCase name pk then some text else none
  | _, _ => none

/-- `extract_pk_equality`; it has one error. -/
def extractPkEquality (pk : String) : Expr → Option String
  | .and left right =>
    (extractPkEquality pk left).orElse fun _ => extractPkEquality pk right
  | .equal left right =>
    (pkLiteral pk left right).orElse fun _ => pkLiteral pk right left
  | _ => none

/-- `extract_table_name`. -/
def extractTableName : ObjectName → Except String String
  | [some table] => .ok table
  | [none] => .error "table name must be an identifier"
  | [schema, table] =>
    if schema.any fun written => eqIgnoringCase written "public" then
      match table with
      | some name => .ok name
      | none => .error "table name must be an identifier"
    else .error "only tables in the public schema are supported"
  | _ =>
    .error
      "qualified table names deeper than schema.table are not supported"

/-- `extract_table_factor_name`. -/
def extractTableFactorName : TableFactor → Except String String
  | .table name => extractTableName name
  | .other => .error "only plain table references are supported"

/-- `extract_delete_table`. -/
def extractDeleteTable : List TableFactor → Except String String
  | [] => .error "DELETE needs a table"
  | table :: _ => extractTableFactorName table

/-- `object_name_eq`. -/
def objectNameEq (name : ObjectName) (expected : String) : Bool :=
  match name with
  | [some ident] => eqIgnoringCase ident expected
  | _ => false

/-- What a statement does to its table. -/
inductive StatementKind where
  | create
  | createIndex
  | alter
  | drop
  | insert
  | update
  | delete
deriving DecidableEq

/-- A write with what routes it. -/
structure Write where
  kind : StatementKind
  table : String
  rowId : String
  rowIdPlaceholder : Option String
  generateRowId : Bool
  broad : Bool
  conflictColumns : Option (List String)
  conflictPredicate : Option (List Char)

/-- What the analyzer makes of a statement. -/
inductive AnalyzedStatement where
  | ddl (kind : StatementKind) (table : String)
  | write (write : Write)
  | read
  | aggregate (plan : Aggregate.Plan.AggregatePlan)

/-- `analyze_select`, with the plan of an aggregate query. -/
def analyzeQuery (query : ParsedQuery) : Except String AnalyzedStatement :=
  match Read.Sql.analyzeSelect query.read with
  | .error message => .error message
  | .ok .read => .ok .read
  | .ok .aggregate =>
    match Aggregate.Plan.planQuery query.plan with
    | .ok plan => .ok (.aggregate plan)
    | .error message => .error message

/-- The columns of ON CONFLICT. -/
def conflictColumns : ConflictClause → Except String (Option (List String))
  | .absent => .ok none
  | .columns names => .ok (some names)
  | .anyTarget => .ok none
  | .constraint => .error "ON CONFLICT ON CONSTRAINT is not supported"
  | .other => .error "INSERT OR / DUPLICATE KEY UPDATE is not supported"

/-- The value an INSERT gives the primary key; first without a column list. -/
def pkValue (pk : String) (columns : List ObjectName) (row : List Expr) : Option Expr :=
  match columns.findIdx? fun column => objectNameEq column pk with
  | some index => row[index]?
  | none => if columns.isEmpty then row.head? else none

/-- The row id of an INSERT, its placeholder, and whether it is generated. -/
def insertRowId : Option Expr → Except String (String × Option String × Bool)
  | some (.value (.placeholder name)) => .ok ("", some name, false)
  | some value =>
    match literalToString value with
    | some text => .ok (text, none, false)
    | none => .error "primary-key predicate must be a literal"
  | none => .ok ("", none, true)

/-- An INSERT of one row. -/
def analyzeValues (pk table : String) (predicate : Option (List Char))
    (insert : Insert) (rows : List (List Expr)) :
    Except String AnalyzedStatement :=
  if rows.length > 1 then
    .error "multi-row INSERT is not supported; issue one INSERT per row"
  else
    match conflictColumns insert.onConflict,
      insertRowId (pkValue pk insert.columns (rows.headD [])) with
    | .error message, _ | _, .error message => .error message
    | .ok columns, .ok (rowId, rowIdPlaceholder, generateRowId) =>
      .ok (.write
        { kind := .insert
          table := table
          rowId := rowId
          rowIdPlaceholder := rowIdPlaceholder
          generateRowId := generateRowId
          broad := false
          conflictColumns := columns
          conflictPredicate := predicate })

/-- A write that goes to every provider as it is. -/
def broadWrite (kind : StatementKind) (table : String) : Write :=
  { kind := kind
    table := table
    rowId := ""
    rowIdPlaceholder := none
    generateRowId := false
    broad := true
    conflictColumns := none
    conflictPredicate := none }

/-- The INSERT branch of `analyze_statement`. -/
def analyzeInsert (sql : List Char) (pk : String)
    (predicate : Option (List Char)) (insert : Insert) :
    Except String AnalyzedStatement :=
  match insert.table with
  | none => .error "INSERT must target a plain table"
  | some name =>
    match extractTableName name with
    | .error message => .error message
    | .ok table =>
      match insert.source with
      | .absent => .error "INSERT ... VALUES is required"
      | .select =>
        if sql.contains '$' then
          .error "INSERT ... SELECT with placeholders is not supported"
        else .ok (.write (broadWrite .insert table))
      | .other => .error "INSERT with plain VALUES is required"
      | .values rows => analyzeValues pk table predicate insert rows

/-- The UPDATE and DELETE branches of `analyze_statement`. -/
def analyzeKeyed (kind : StatementKind) (pk : String)
    (table : Except String String) (selection : Option Expr) :
    Except String AnalyzedStatement :=
  match table with
  | .error message => .error message
  | .ok table =>
    match selection.bind (extractPkEquality pk) with
    | some rowId =>
      .ok (.write { broadWrite kind table with
        rowId := rowId
        broad := false })
    | none => .ok (.write (broadWrite kind table))

/-- A schema change of one table. -/
def analyzeDdl (kind : StatementKind) (table : Except String String) :
    Except String AnalyzedStatement :=
  match table with
  | .error message => .error message
  | .ok table => .ok (.ddl kind table)

/-- `analyze_statement`. -/
def analyzeStatement (sql : List Char) (pk : String) (predicate : Option (List Char)) :
    Statement → Except String AnalyzedStatement
  | .query query => analyzeQuery query
  | .insert insert => analyzeInsert sql pk predicate insert
  | .update table selection =>
    analyzeKeyed .update pk (extractTableFactorName table) selection
  | .delete tables selection =>
    analyzeKeyed .delete pk (extractDeleteTable tables) selection
  | .createTable name => analyzeDdl .create (extractTableName name)
  | .alterTable name _ => analyzeDdl .alter (extractTableName name)
  | .dropTable names =>
    match names with
    | [] => .error "DROP TABLE needs a name"
    | name :: _ => analyzeDdl .drop (extractTableName name)
  | .createIndex table =>
    match table.getLast? with
    | none => .error "CREATE INDEX needs a table"
    | some none => .error "index table must be an identifier"
    | some (some name) => .ok (.ddl .createIndex name)
  | .dropIndex => .ok (.ddl .drop "")
  | .other kind =>
    .error ("statement of kind " ++ kind ++ " is not supported")

/-! ## Shapes -/

/-- A value without the text of a string constant. -/
def Value.shape : Value → Value
  | .singleQuoted _ => .singleQuoted ""
  | .escaped _ => .escaped ""
  | plain => plain

/-- An expression without the texts of its string constants. -/
def Expr.shape : Expr → Expr
  | .value written => .value written.shape
  | .cast inner => .cast inner.shape
  | .function name argument => .function name (argument.map Value.shape)
  | .and left right => .and left.shape right.shape
  | .equal left right => .equal left.shape right.shape
  | expr => expr

/-- The rows without the texts of their string constants. -/
def InsertSource.shape : InsertSource → InsertSource
  | .values rows => .values (rows.map fun row => row.map Expr.shape)
  | source => source

/-- An INSERT without the texts of its string constants. -/
def Insert.shape (insert : Insert) : Insert := { insert with source := insert.source.shape }

section

open Read.Sql

/-- A relation without what its rows depend on. -/
def relationShape : Relation → Relation
  | .table name => .table name
  | .derived columns _ => .derived columns fun _ => []

/-- A join without its condition. -/
def joinShape (joined : Join) : Join :=
  { kind := joined.kind
    relation := relationShape joined.relation
    on := fun _ _ _ => false }

/-- A source without what its rows depend on. -/
def sourceShape (source : TableWithJoins) : TableWithJoins :=
  { relation := relationShape source.relation
    joins := source.joins.map joinShape }

/-- An item without the value it stands for. -/
def itemShape : SelectItem → SelectItem
  | .unnamed expr name =>
    .unnamed { hasAggregate := expr.hasAggregate, value := fun _ _ => .null }
      name
  | .aliased expr aliasName =>
    .aliased { hasAggregate := expr.hasAggregate, value := fun _ _ => .null }
      aliasName
  | item => item

/-- A DISTINCT clause without its key. -/
def distinctShape : DistinctClause → DistinctClause
  | .on _ => .on id
  | clause => clause

/-- A SELECT without the values it computes. -/
def selectShape (select : Select) : Select :=
  { sources := select.sources.map sourceShape
    selection := select.selection.map fun _ _ _ => true
    grouped := select.grouped
    having := select.having
    distinct := distinctShape select.distinct
    projection := select.projection.map itemShape }

/-- A query body without the values it computes. -/
def bodyShape : SetExpr → SetExpr
  | .select branch => .select (selectShape branch)
  | .summary branch _ => .summary (selectShape branch) fun _ _ => []
  | .query inner _ => .query (bodyShape inner) Bounds.absent
  | .setOperation operator all left right =>
    .setOperation operator all (bodyShape left) (bodyShape right)
  | .values rows => .values (rows.map fun row => row.map fun _ => .null)

/-- A query without the values it computes. -/
def queryShape (query : Query) : Query :=
  { query with
    body := bodyShape query.body
    bounds := Bounds.absent }

end

/-- The planner keeps texts, so its view has no shape. -/
def noPlan : Aggregate.Plan.Query :=
  { hasWith := false
    hasFetch := false
    hasLocks := false
    body := none
    orderBy := []
    limit := none
    offset := none }

/-- A statement without the texts of its string constants. -/
def Statement.shape : Statement → Statement
  | .query parsed => .query { read := queryShape parsed.read, plan := noPlan }
  | .insert written => .insert written.shape
  | .update table selection => .update table (selection.map Expr.shape)
  | .delete tables selection => .delete tables (selection.map Expr.shape)
  | statement => statement

/-! ## Reads of one shape -/

section

open Read.Sql

theorem hasAggregate_itemShape (x : SelectItem) : (itemShape x).hasAggregate = x.hasAggregate := by
  cases x <;> rfl

theorem any_hasAggregate_shape (xs : List SelectItem) :
    (xs.map itemShape).any SelectItem.hasAggregate = xs.any SelectItem.hasAggregate := by
  rw [any_map]
  congr 1
  funext item
  exact hasAggregate_itemShape item

theorem validateUnionSelect_shape (select : Select) :
    validateUnionSelect (selectShape select) = validateUnionSelect select := by
  simp only [validateUnionSelect, selectShape, any_hasAggregate_shape]

theorem validateUnionSelects_shape (selects : List Select) :
    validateUnionSelects (selects.map selectShape) = validateUnionSelects selects := by
  induction selects with
  | nil => rfl
  | cons sel selects ih =>
    rw [map_cons, validateUnionSelects, validateUnionSelects, validateUnionSelect_shape, ih]

theorem collectUnionSelects_shape (body : SetExpr) : collectUnionSelects (bodyShape body) =
      (collectUnionSelects body).map (map selectShape) := by
  induction body with
  | select arm | summary arm => rfl
  | query inner limit ih => exact ih
  | setOperation op all left right ihl ihr =>
    simp only [bodyShape, collectUnionSelects, ihl, ihr]
    by_cases isUnion : op = .union
    · simp only [isUnion, if_true]
      cases collectUnionSelects left with
      | error msg => rfl
      | ok lefts =>
        cases collectUnionSelects right with
        | error msg => rfl
        | ok rights => simp [Except.map, map_append]
    · simp only [isUnion, if_false]
      rfl
  | values rows => rfl

theorem needsAggregate_shape (sel : Select) :
    (selectShape sel).needsAggregate = sel.needsAggregate := by
  have join : ((sel.sources.map sourceShape).any fun src =>
      !src.joins.isEmpty) = sel.sources.any fun src => !src.joins.isEmpty := by
    rw [any_map]
    congr 1
    funext src
    simp [sourceShape]
  simp only [Select.needsAggregate, selectShape, any_hasAggregate_shape, join]
  cases sel.distinct <;> rfl

theorem analyzePlain_shape (select : Select) :
    analyzePlain (selectShape select) = analyzePlain select := by
  have sameNeed := needsAggregate_shape select
  rcases select with ⟨srcs, sel, group, having, part, xs⟩
  cases srcs with
  | nil => rfl
  | cons src more =>
    simp only [analyzePlain, sameNeed]
    rcases src with ⟨rel, joins⟩
    simp only [selectShape, map_cons, sourceShape, isEmpty_map]
    cases rel <;> rfl

theorem analyzeSelect_shape (query : Query) :
    analyzeSelect (queryShape query) = analyzeSelect query := by
  rcases query with ⟨hasWith, hasFetch, hasLocks, body, limit⟩
  cases body with
  | select arm | summary arm =>
    simp [analyzeSelect, queryShape, bodyShape, analyzePlain_shape]
  | query inner innerBounds => rfl
  | setOperation op all left right =>
    have got := collectUnionSelects_shape (.setOperation op all left right)
    simp only [bodyShape] at got
    simp only [analyzeSelect, queryShape, bodyShape, got]
    cases collectUnionSelects (.setOperation op all left right) with
    | error msg => rfl
    | ok selects => simp [Except.map, validateUnionSelects_shape]
  | values rows => rfl

end

/-! ## Writes of one shape -/

theorem valueToString_shape (v : Value) :
    (valueToString v.shape).isSome = (valueToString v).isSome := by
  cases v <;> rfl

theorem identifierName_shape (expr : Expr) : identifierName expr.shape = identifierName expr := by
  cases expr <;> rfl

theorem literalToString_shape (expr : Expr) :
    (literalToString expr.shape).isSome = (literalToString expr).isSome := by
  induction expr with
  | value value => exact valueToString_shape value
  | cast inner ih => exact ih
  | function name argument =>
    simp only [Expr.shape, literalToString]
    split
    · cases argument with
      | none => rfl
      | some value => exact valueToString_shape value
    · rfl
  | _ => rfl

theorem isSome_pkLiteral (pk : String) (named lit : Expr) : (pkLiteral pk named lit).isSome =
      ((identifierName named).any (fun name => eqIgnoringCase name pk) &&
      (literalToString lit).isSome) := by
  simp only [pkLiteral]
  cases identifierName named with
  | none => rfl
  | some name =>
    cases literalToString lit with
    | none => simp
    | some text =>
      simp only [Option.any_some, Option.isSome_some, Bool.and_true]
      split
      · rename_i eq
        rw [eq, Option.isSome_some]
      · rename_i ne
        rw [Bool.not_eq_true] at ne
        rw [ne, Option.isSome_none]

theorem isSome_extractPkEquality_shape (pk : String) (expr : Expr) :
    (extractPkEquality pk expr.shape).isSome = (extractPkEquality pk expr).isSome := by
  induction expr with
  | and left right ihl ihr =>
    simp [Expr.shape, extractPkEquality, ihl, ihr]
  | equal left right =>
    simp [Expr.shape, extractPkEquality, isSome_pkLiteral, identifierName_shape,
      literalToString_shape]
  | _ => rfl

theorem pkValue_shape (pk : String) (cols : List ObjectName) (row : List Expr) :
    pkValue pk cols (row.map Expr.shape) = (pkValue pk cols row).map Expr.shape := by
  simp only [pkValue]
  split
  · rw [getElem?_map]
  · split
    · rw [head?_map]
    · rfl

/-! ## Where an analysed statement goes -/

/-- What the analysis decides about the way of a statement. -/
inductive Destination where
  | ddl
  | read
  | aggregate
  | broadWrite
  | pointWrite (unresolved : Bool)
  | refused
deriving DecidableEq

/-- A write whose row id is a placeholder is still to be resolved. -/
def destination : Except String AnalyzedStatement → Destination
  | .ok (.ddl _ _) => .ddl
  | .ok .read => .read
  | .ok (.aggregate _) => .aggregate
  | .ok (.write write) =>
    if write.broad then .broadWrite
    else .pointWrite (write.rowIdPlaceholder.isSome)
  | .error _ => .refused

/-- The way of an INSERT by its row id. -/
def rowIdDestination : Except String (String × Option String × Bool) → Destination
  | .ok (_, placeholder, _) => .pointWrite placeholder.isSome
  | .error _ => .refused

theorem rowIdDestination_shape (value : Option Expr) :
    rowIdDestination (insertRowId (value.map Expr.shape)) =
      rowIdDestination (insertRowId value) := by
  have lit : ∀ expr : Expr, (∀ name, expr ≠ .value (.placeholder name)) →
      rowIdDestination (insertRowId (some expr)) =
        if (literalToString expr).isSome then .pointWrite false
        else .refused := by
    intro expr plain
    rw [insertRowId.eq_def]
    split
    · rename_i name eq
      exact absurd (Option.some.inj eq) (plain name)
    · rename_i eq
      rw [Option.some.inj eq]
      cases literalToString _ <;> rfl
    · rename_i eq
      cases eq
  cases value with
  | none => rfl
  | some expr =>
    by_cases mark : ∃ name, expr = .value (.placeholder name)
    · rcases mark with ⟨name, rfl⟩
      rfl
    · have plain : ∀ name, expr ≠ .value (.placeholder name) := fun name eq => mark ⟨name, eq⟩
      have plainShape : ∀ name, expr.shape ≠ .value (.placeholder name) := by
        intro name eq
        cases expr with
        | value written =>
          cases written with
          | placeholder other => exact plain other rfl
          | _ => cases eq
        | _ => cases eq
      rw [Option.map_some, lit _ plainShape, lit _ plain, literalToString_shape]

theorem destination_analyzeValues (pk table : String) (pred : Option (List Char)) (ins : Insert)
    (rows : List (List Expr)) :
    destination (analyzeValues pk table pred ins rows) =
      if rows.length > 1 then .refused
      else
      match conflictColumns ins.onConflict with
      | .error _ => .refused
      | .ok _ =>
      rowIdDestination (insertRowId (pkValue pk ins.columns (rows.headD []))) := by
  rw [analyzeValues]
  split
  · rfl
  · cases conflictColumns ins.onConflict with
    | error msg => rfl
    | ok cols =>
      cases insertRowId (pkValue pk ins.columns (rows.headD [])) <;> rfl

theorem destination_analyzeInsert_shape (sql : List Char) (pk : String)
    (pred : Option (List Char)) (ins : Insert) :
    destination (analyzeInsert sql pk pred ins.shape) =
      destination (analyzeInsert sql pk pred ins) := by
  rcases ins with ⟨table, cols, src, clash⟩
  cases src with
  | values rows =>
    cases table with
    | none => rfl
    | some name =>
      simp only [analyzeInsert, Insert.shape, InsertSource.shape]
      cases extractTableName name with
      | error msg => rfl
      | ok table =>
        have eqRow : (rows.map fun row =>
            row.map Expr.shape).headD [] = (rows.headD []).map Expr.shape := by
          cases rows <;> rfl
        simp only [destination_analyzeValues, length_map, eqRow,
          pkValue_shape, rowIdDestination_shape]
  | _ => rfl

/-- The text and the predicate only matter to an INSERT … SELECT. -/
theorem destination_analyzeInsert_congr {sql sql' : List Char} (pk : String)
    (pred predicate' : Option (List Char)) {ins : Insert}
    (sameMark : ins.source = .select → sql.contains '$' = sql'.contains '$') :
    destination (analyzeInsert sql pk pred ins) =
      destination (analyzeInsert sql' pk predicate' ins) := by
  rcases ins with ⟨table, cols, src, clash⟩
  cases table with
  | none => rfl
  | some name =>
    simp only [analyzeInsert]
    cases extractTableName name with
    | error msg => rfl
    | ok table =>
      cases src with
      | select => simp only [sameMark rfl]
      | values rows => simp [destination_analyzeValues]
      | _ => rfl

theorem destination_analyzeKeyed_shape (kind : StatementKind) (pk : String)
    (table : Except String String) (sel : Option Expr) :
    destination (analyzeKeyed kind pk table (sel.map Expr.shape)) =
      destination (analyzeKeyed kind pk table sel) := by
  cases table with
  | error msg => rfl
  | ok table =>
    cases sel with
    | none => rfl
    | some expr =>
      have found := isSome_extractPkEquality_shape pk expr
      simp only [analyzeKeyed, Option.map_some, Option.bind_some]
      cases shown : extractPkEquality pk expr.shape with
      | none =>
        cases plain : extractPkEquality pk expr with
        | none => rfl
        | some rowId =>
          rw [shown, plain] at found
          cases found
      | some rowId =>
        cases plain : extractPkEquality pk expr with
        | none =>
          rw [shown, plain] at found
          cases found
        | some other => rfl

end StorageOrchestrator.Wire.Statements
