import StorageOrchestrator.Lib.Joins
import StorageOrchestrator.Mesh.Reads

/-!
# Queries on the read path

The part of a parsed query that `analyze_select` looks at, what it accepts as
a read, and what Postgres answers to a query over a database.

Expressions are embedded by their meaning.  A meaning takes the database of
the provider that evaluates it as well as the rows it is applied to, since an
expression may hold a subquery.  The answer is a bag: a list in an order that
only ORDER BY determines.  SQL values are taken up to SQL equality.
-/

namespace StorageOrchestrator.Read.Sql

open Lib.FirstPerKey Lib.Joins Mesh.Value Mesh.Table Mesh.Reads

deriving instance DecidableEq for SqlValue

/-- The rows of the tables of a database. -/
abbrev Database := String → Content

/-- The columns of the tables. -/
abbrev Schema := String → List String

/-- One row of every source of a FROM clause; none where there is no match. -/
abbrev Combination := List (Option Row)

/-- A result row before its columns are named. -/
abbrev Tuple := List SqlValue

/-! ## The parsed query -/

structure Expr where
  hasAggregate : Bool
  value : Database → Combination → SqlValue

inductive SelectItem where
  | wildcard
  | qualifiedWildcard (source : Nat)
  | unnamed (expr : Expr) (name : String)
  | aliased (expr : Expr) (aliasName : String)

/-- A table, or a subquery or function in its place. -/
inductive Relation where
  | table (name : String)
  | derived (columns : List String) (rows : Database → Content)

structure Join where
  kind : JoinKind
  relation : Relation
  on : Database → Combination → Row → Bool

structure TableWithJoins where
  relation : Relation
  joins : List Join

inductive DistinctClause where
  | absent
  | distinct
  | on (key : Tuple → Tuple)

structure Select where
  sources : List TableWithJoins
  selection : Option (Database → Combination → Bool)
  grouped : Bool
  having : Bool
  distinct : DistinctClause
  projection : List SelectItem

/-- An ORDER BY clause: it compares any two rows. -/
structure SortOrder where
  before : Tuple → Tuple → Bool
  total : ∀ left right, before left right || before right left
  trans : ∀ {first second third}, before first second → before second third → before first third

/-- ORDER BY, LIMIT and OFFSET. -/
structure Bounds where
  order : Option SortOrder
  limit : Option Nat
  offset : Nat

def Bounds.absent : Bounds :=
  { order := none
    limit := none
    offset := 0 }

inductive SetOperator where
  | union
  | except
  | intersect
deriving DecidableEq

def SetOperator.text : SetOperator → String
  | .union => "UNION"
  | .except => "EXCEPT"
  | .intersect => "INTERSECT"

/--
The body of a query.  A `summary` is a SELECT with an aggregate where
`expr_has_aggregate` does not look, inside a call or a CASE: Postgres answers
it with one row.
-/
inductive SetExpr where
  | select (select : Select)
  | summary (select : Select) (row : Database → List Combination → Tuple)
  | query (inner : SetExpr) (bounds : Bounds)
  | setOperation (operator : SetOperator) (all : Bool) (left right : SetExpr)
  | values (rows : List Tuple)

structure Query where
  hasWith : Bool
  hasFetch : Bool
  hasLocks : Bool
  body : SetExpr
  bounds : Bounds

/-! ## The analyzer -/

def SelectItem.hasAggregate : SelectItem → Bool
  | .unnamed expr _ | .aliased expr _ => expr.hasAggregate
  | _ => false

/-- A read, or a query for the aggregate planner. -/
inductive Analyzed where
  | read
  | aggregate
deriving DecidableEq

def collectUnionSelects : SetExpr → Except String (List Select)
  | .select select | .summary select _ => .ok [select]
  | .query inner _ => collectUnionSelects inner
  | .setOperation operator _ left right =>
    if operator = .union then
      match collectUnionSelects left, collectUnionSelects right with
      | .ok lefts, .ok rights => .ok (lefts ++ rights)
      | .error message, _ | _, .error message => .error message
    else
      .error (operator.text ++
        " set operations are not supported; only UNION")
  | .values _ => .error "UNION operands must be SELECT statements"

def validateUnionSelect (select : Select) : Except String Unit :=
  if select.having || select.grouped then
    .error "aggregates/GROUP BY/HAVING are not supported inside a UNION"
  else if select.projection.any SelectItem.hasAggregate then
    .error "aggregates are not supported inside a UNION"
  else .ok ()

/-- The checks of every branch of a UNION, in order. -/
def validateUnionSelects : List Select → Except String Analyzed
  | [] => .ok .read
  | select :: rest =>
    match validateUnionSelect select with
    | .ok () => validateUnionSelects rest
    | .error message => .error message

/-- A SELECT that only the aggregate planner can take. -/
def Select.needsAggregate (select : Select) : Bool :=
  let hasJoin := select.sources.any fun source => !source.joins.isEmpty
  select.projection.any SelectItem.hasAggregate || select.having || select.grouped ||
    match select.distinct with
    | .absent => false
    | .distinct => !hasJoin
    | .on _ => true

/-- `analyze_select` on a SELECT that is not a set operation. -/
def analyzePlain (select : Select) : Except String Analyzed :=
  match select.sources with
  | [] => .ok .read
  | source :: more =>
    if select.needsAggregate then .ok .aggregate
    else if more.isEmpty then
      match source.relation with
      | .table _ => .ok .read
      | .derived _ _ => .error "only plain table references are supported"
    else
      .error ("multiple FROM tables (comma joins) are not supported; " ++
        "use explicit JOIN")

def analyzeSelect (query : Query) : Except String Analyzed :=
  if query.hasWith || query.hasFetch || query.hasLocks then
    .error "CTEs, window expressions and locking clauses are not supported"
  else
    match query.body with
    | .setOperation operator all left right =>
      match collectUnionSelects (.setOperation operator all left right) with
      | .ok selects => validateUnionSelects selects
      | .error message => .error message
    | .select select | .summary select _ => analyzePlain select
    | _ =>
      .error "plain SELECT is required (no UNION/VALUES on the read path)"

def overlayIsSafe (query : Query) : Bool :=
  match query.body with
  | .select select | .summary select _ =>
    select.selection.isNone && !select.having &&
      select.sources.all fun source => source.joins.isEmpty
  | _ => false

/-! ## What a query means -/

def Relation.rows (database : Database) : Relation → Content
  | .table name => database name
  | .derived _ rows => rows database

def Relation.columns (schema : Schema) : Relation → List String
  | .table name => schema name
  | .derived columns _ => columns

def cellAt (combination : Combination) (source : Nat) (column : String) : SqlValue :=
  match combination[source]? with
  | some (some row) => cell row column
  | _ => .null

/-- Put a row beside a combination; `width` is the number of sources so far. -/
def beside (width : Nat) (combination : Option Combination) (row : Option Row) : Combination :=
  combination.getD (List.replicate width none) ++ [row]

/-- Join one more relation to combinations of `width` sources. -/
def joinOne (database : Database) (width : Nat) (combinations : List Combination)
    (joined : Join) : List Combination :=
  join (joined.on database) (beside width) joined.kind combinations (joined.relation.rows database)

/-- Join relations from left to right. -/
def joinAll (database : Database) : Nat → List Combination → List Join → List Combination
  | _, combinations, [] => combinations
  | width, combinations, joined :: rest =>
    joinAll database (width + 1) (joinOne database width combinations joined) rest

def TableWithJoins.combinations (database : Database)
    (source : TableWithJoins) : List Combination :=
  joinAll database 1 ((source.relation.rows database).map fun row => [some row]) source.joins

/-- The combinations of a FROM clause; without one there is the empty one. -/
def fromCombinations (database : Database) : List TableWithJoins → List Combination
  | [] => [[]]
  | source :: rest =>
    (source.combinations database).flatMap fun combination =>
      (fromCombinations database rest).map fun other => combination ++ other

/-- The relations of a FROM clause, in the order of a combination. -/
def Select.relations (select : Select) : List Relation :=
  select.sources.flatMap fun source =>
    source.relation :: source.joins.map Join.relation

/-- A named output column. -/
structure Output where
  name : String
  value : Database → Combination → SqlValue

def sourceOutputs (schema : Schema) (source : Nat) (relation : Relation) : List Output :=
  (relation.columns schema).map fun column =>
    { name := column
      value := fun _ combination => cellAt combination source column }

def SelectItem.outputs (schema : Schema) (relations : List Relation) : SelectItem → List Output
  | .wildcard =>
    relations.zipIdx.flatMap fun entry =>
      sourceOutputs schema entry.2 entry.1
  | .qualifiedWildcard source =>
    match relations[source]? with
    | some relation => sourceOutputs schema source relation
    | none => []
  | .unnamed expr name => [{ name := name, value := expr.value }]
  | .aliased expr aliasName => [{ name := aliasName, value := expr.value }]

def Select.outputs (schema : Schema) (select : Select) : List Output :=
  select.projection.flatMap (SelectItem.outputs schema select.relations)

/-- The combinations that pass the WHERE clause. -/
def Select.selected (database : Database) (select : Select) : List Combination :=
  match select.selection with
  | none => fromCombinations database select.sources
  | some holds =>
    (fromCombinations database select.sources).filter (holds database)

/-- The projected rows, before DISTINCT. -/
def Select.projected (schema : Schema) (database : Database) (select : Select) : List Tuple :=
  (select.selected database).map fun combination =>
    (select.outputs schema).map fun output => output.value database combination

def DistinctClause.apply : DistinctClause → List Tuple → List Tuple
  | .absent, rows => rows
  | .distinct, rows => rows.dedup
  | .on key, rows => firstPerKey key rows

def Select.rows (schema : Schema) (database : Database) (select : Select) : List Tuple :=
  select.distinct.apply (select.projected schema database)

/-- Sort, skip and cut. -/
def Bounds.apply (bounds : Bounds) (rows : List Tuple) : List Tuple :=
  let sorted :=
    match bounds.order with
    | some order => rows.insertionSort fun left right => order.before left right
    | none => rows
  match bounds.limit with
  | some limit => (sorted.drop bounds.offset).take limit
  | none => sorted.drop bounds.offset

def SetOperator.apply (operator : SetOperator) (all : Bool)
    (left right : List Tuple) : List Tuple :=
  match operator, all with
  | .union, true => left ++ right
  | .union, false => (left ++ right).dedup
  | .except, true => left.diff right
  | .except, false => (left.filter fun row => row ∉ right).dedup
  | .intersect, true => left.bagInter right
  | .intersect, false => (left.filter fun row => row ∈ right).dedup

def SetExpr.rows (schema : Schema) (database : Database) : SetExpr → List Tuple
  | .select branch => branch.rows schema database
  | .summary branch row => [row database (branch.selected database)]
  | .query inner bounds => bounds.apply (inner.rows schema database)
  | .setOperation operator all left right =>
    operator.apply all (left.rows schema database) (right.rows schema database)
  | .values rows => rows

/-- The column names of a set operation are those of its first SELECT. -/
def SetExpr.names (schema : Schema) : SetExpr → List String
  | .select branch | .summary branch _ => (branch.outputs schema).map Output.name
  | .query inner _ => inner.names schema
  | .setOperation _ _ left _ => left.names schema
  | .values rows =>
    (List.range (rows.headD []).length).map fun index =>
      "column" ++ toString (index + 1)

def Query.rows (schema : Schema) (query : Query) (database : Database) : List Tuple :=
  query.bounds.apply (query.body.rows schema database)

/-! ## The agent's answer -/

/-- A row as the agent answers it: of columns with one name, the last stays. -/
def wireRow (names : List String) (row : Tuple) : WireRow :=
  (names.zip (row.map SqlValue.agentJson)).reverse

/--
The rows a provider answers with.  A set operation is sent inside
`select * from (…) as _mesh_union` (`provider_read_sql`), which means the same.
-/
def Query.answer (schema : Schema) (query : Query) (database : Database) : List WireRow :=
  (query.rows schema database).map (wireRow (query.body.names schema))

end StorageOrchestrator.Read.Sql
