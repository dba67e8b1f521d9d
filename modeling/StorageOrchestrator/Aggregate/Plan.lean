import StorageOrchestrator.Lib.Text

/-!
# Planning a distributed aggregate

The part of a parsed `SELECT` that the aggregate planner reads, and the
planner itself (`plan_query`, `classify_expr`): it sorts the projection into
aggregates and plain columns, matches the plain columns with the GROUP BY
keys, and rejects what it cannot distribute.  A plan holds texts, as in the
source: a GROUP BY key is the text of its expression.
-/

namespace StorageOrchestrator.Aggregate.Plan

open Lib.Text

/-! ## The parsed query -/

/-- An identifier, without its quotes. -/
structure Ident where
  value : String
  quoted : Bool

/-- The identifier as it is printed. -/
def Ident.text (ident : Ident) : String :=
  if ident.quoted then
    "\"" ++ String.ofList (ident.value.toList.flatMap fun letter =>
      if letter = '"' then ['"', '"'] else [letter]) ++ "\""
  else ident.value

/-- The name Postgres takes the identifier for. -/
def Ident.folded (ident : Ident) : String :=
  if ident.quoted then ident.value else String.ofList (lowered ident.value)

/-- A column reference: an identifier, possibly behind its qualifiers. -/
structure ColumnRef where
  qualifiers : List Ident
  name : Ident

def ColumnRef.parts (ref : ColumnRef) : List Ident := ref.qualifiers ++ [ref.name]

/-- The reference as it is printed. -/
def ColumnRef.text (ref : ColumnRef) : String :=
  ".".intercalate (ref.parts.map Ident.text)

/-- The values of the parts, joined by dots. -/
def ColumnRef.full (ref : ColumnRef) : String :=
  ".".intercalate (ref.parts.map Ident.value)

inductive FunctionArg where
  | wildcard
  | expr (text : String)
  | unsupported

inductive FunctionArguments where
  | none
  | list (args : List FunctionArg) (distinct ordered : Bool)
  | subquery

def FunctionArguments.args : FunctionArguments → List FunctionArg
  | .list args _ _ => args
  | _ => []

def FunctionArguments.isDistinct : FunctionArguments → Bool
  | .list _ distinct _ => distinct
  | _ => false

/-- The arguments come with an ORDER BY clause. -/
def FunctionArguments.isOrdered : FunctionArguments → Bool
  | .list _ _ ordered => ordered
  | _ => false

/-- A function call; `name` is the last part of the function's name. -/
structure FunctionCall where
  name : Option String
  arguments : FunctionArguments
  filtered : Bool
  text : String

inductive Expr where
  | column (ref : ColumnRef)
  | function (call : FunctionCall)
  | binary (operator : String) (left right : Expr)
  | nested (inner : Expr)
  | other (text : String)

def Expr.text : Expr → String
  | .column ref => ref.text
  | .function call => call.text
  | .binary operator left right =>
    left.text ++ " " ++ operator ++ " " ++ right.text
  | .nested inner => "(" ++ inner.text ++ ")"
  | .other text => text

/-- An unquoted column without qualifiers. -/
def bareColumn (name : String) : Expr := .column { qualifiers := [], name := ⟨name, false⟩ }

@[simp]
theorem text_bareColumn (name : String) : (bareColumn name).text = name :=
  rfl

/-- `is_plain_column` on the printed expression. -/
def Expr.isPlainColumn : Expr → Bool
  | .column _ => true
  | _ => false

inductive SelectItem where
  | wildcard
  | multiAliased
  | unnamed (expr : Expr)
  | aliased (expr : Expr) (aliasName : String)

/-- What a query reads; the planner does not look at the alias of a table. -/
inductive Relation where
  | table (name : Option Ident) (aliasName : Option Ident)
  | derived

structure TableWithJoins where
  relation : Relation
  joined : Bool

inductive GroupBy where
  | expressions (items : List Expr)
  | all

structure Select where
  sources : List TableWithJoins
  selection : Option String
  groupBy : GroupBy
  having : Option String
  distinct : Bool
  projection : List SelectItem

/-- A query; ORDER BY items carry whether they descend. -/
structure Query where
  hasWith : Bool
  hasFetch : Bool
  hasLocks : Bool
  body : Option Select
  orderBy : List (String × Bool)
  limit : Option Nat
  offset : Option Nat

/-! ## The plan -/

inductive AggregateKind where
  | count
  | countDistinct
  | sum
  | avg
  | min
  | max
  | boolAnd
  | boolOr
  | variance (sample : Bool)
  | stdDev (sample : Bool)
  | stringAgg
  | arrayAgg
  | jsonAgg
deriving DecidableEq

structure AggregateSpec where
  kind : AggregateKind
  arg : String
  output : String
  original : String

structure AggregatePlan where
  table : String
  filter : String
  groupKeys : List String
  aggregates : List AggregateSpec
  plainColumns : List (String × String)
  distinctOnly : Option (List (String × String))
  having : String
  orderBy : List (String × Bool)
  limit : Option Nat
  offset : Option Nat

def unprojected (plainColumns : List (String × String)) (groupKeys : List String) : List String :=
  groupKeys.filter fun key =>
    !plainColumns.any fun column => eqIgnoringCase column.1 key

def planOutputs (plainColumns : List (String × String))
    (groupKeys : List String) (aggregates : List AggregateSpec) :
    List String :=
  plainColumns.map Prod.snd ++ unprojected plainColumns groupKeys ++
    aggregates.map AggregateSpec.output

/-! ## Classifying the projection -/

/-- What `classify_expr` collects. -/
structure Classified where
  aggregates : List AggregateSpec
  plainColumns : List (String × String)
  distinctItems : List (String × String)
  hasAggregate : Bool

def Classified.start : Classified :=
  { aggregates := []
    plainColumns := []
    distinctItems := []
    hasAggregate := false }

/-- The aggregate a function name stands for. -/
def aggregateKind (name : String) (distinct : Bool) : Option AggregateKind :=
  match name with
  | "count" => some (if distinct then .countDistinct else .count)
  | "sum" => some .sum
  | "avg" | "mean" => some .avg
  | "min" => some .min
  | "max" => some .max
  | "bool_and" | "every" => some .boolAnd
  | "bool_or" | "any" => some .boolOr
  | "variance" | "var_samp" => some (.variance true)
  | "var_pop" => some (.variance false)
  | "stddev" | "stddev_samp" => some (.stdDev true)
  | "stddev_pop" => some (.stdDev false)
  | "string_agg" | "group_concat" => some .stringAgg
  | "array_agg" => some .arrayAgg
  | "json_agg" | "jsonb_agg" => some .jsonAgg
  | _ => none

/-- The names `expr_has_aggregate` looks for. -/
def knownAggregates : List String :=
  ["count", "sum", "avg", "min", "max", "string_agg", "array_agg", "json_agg",
    "jsonb_agg", "bool_and", "bool_or", "every", "bit_and", "bit_or", "stddev",
    "stddev_pop", "stddev_samp", "variance", "var_pop", "var_samp"]

def exprHasAggregate : Expr → Bool
  | .function call =>
    match call.name with
    | some name => knownAggregates.contains (String.ofList (lowered name))
    | none => false
  | .binary _ left right => exprHasAggregate left || exprHasAggregate right
  | .nested inner => exprHasAggregate inner
  | _ => false

/-- The argument text of a call. -/
def argText (name : String) : List FunctionArg → Except String String
  | .wildcard :: _ => .ok "*"
  | .expr text :: _ => .ok text
  | .unsupported :: _ => .error "unsupported aggregate argument"
  | [] =>
    if name = "count" then .ok "*" else .error "aggregate needs an argument"

/-- `classify_expr` on a function call. -/
def classifyFunction (call : FunctionCall) (aliasName : Option String)
    (found : Classified) : Except String Classified :=
  match call.name with
  | none => .error "function name expected"
  | some written =>
    let name := String.ofList (lowered written)
    match call.arguments with
    | .subquery => .error "aggregate over subquery unsupported"
    | arguments =>
      if call.filtered then .error "FILTER not supported yet"
      else
        match argText name arguments.args with
        | .error message => .error message
        | .ok arg =>
          match aggregateKind name arguments.isDistinct with
          | none => .error ("aggregate " ++ name ++ " not supported")
          | some kind =>
            if kind = .countDistinct ∧ arg = "*" then
              .error "count(distinct *) is not supported"
            else if arguments.isOrdered then
              .error "ORDER BY inside aggregates is not supported"
            else
              .ok { found with
                hasAggregate := true
                aggregates := found.aggregates ++
                  [{ kind := kind
                     arg := arg
                     output := aliasName.getD name
                     original := call.text }] }

/-- `classify_expr` on a column reference. -/
def classifyColumn (groupKeys : List String) (ref : ColumnRef)
    (aliasName : Option String) (found : Classified) : Except String Classified :=
  let last := ref.name.value
  let matched :=
    if groupKeys.isEmpty then some ref.full
    else groupKeys.find? fun key =>
      eqIgnoringCase key ref.full || eqIgnoringCase key last
  match matched with
  | none => .error ("column " ++ ref.full ++ " must appear in GROUP BY")
  | some key =>
    .ok { found with
      distinctItems := found.distinctItems ++ [(key, aliasName.getD last)]
      plainColumns :=
        if found.plainColumns.any fun column =>
          eqIgnoringCase column.1 key
        then found.plainColumns
        else found.plainColumns ++ [(key, aliasName.getD last)] }

def classifyExpr (groupKeys : List String) (expr : Expr)
    (aliasName : Option String) (found : Classified) : Except String Classified :=
  match expr with
  | .function call => classifyFunction call aliasName found
  | expr =>
    if exprHasAggregate expr then
      .error "aggregates inside expressions are not supported"
    else
      match expr with
      | .column ref => classifyColumn groupKeys ref aliasName found
      | other =>
        .error ("projection expression " ++ other.text ++
          " is not a column or aggregate")

def classifyItem (groupKeys : List String) (found : Classified) :
    SelectItem → Except String Classified
  | .wildcard => .error "wildcard projection cannot be aggregated"
  | .multiAliased => .error "multi-alias projection unsupported"
  | .unnamed expr => classifyExpr groupKeys expr none found
  | .aliased expr aliasName => classifyExpr groupKeys expr (some aliasName) found

/-- The loop over the projection. -/
def classifyItems (groupKeys : List String) :
    Classified → List SelectItem → Except String Classified
  | found, [] => .ok found
  | found, item :: items =>
    match classifyItem groupKeys found item with
    | .error message => .error message
    | .ok next => classifyItems groupKeys next items

/-- The key that a column of the projection stands for. -/
def matchedKey (groupKeys : List String) (ref : ColumnRef) : Option String :=
  if groupKeys.isEmpty then some ref.full
  else groupKeys.find? fun key =>
    eqIgnoringCase key ref.full || eqIgnoringCase key ref.name.value

/-- An item with or without an alias. -/
def SelectItem.of (expr : Expr) : Option String → SelectItem
  | none => .unnamed expr
  | some aliasName => .aliased expr aliasName

/-- The two kinds of item that are classified. -/
inductive Classifies (groupKeys : List String) (found : Classified) :
    SelectItem → Classified → Prop where
  | call {call : FunctionCall} (aliasName : Option String)
      {written arg : String} {kind : AggregateKind}
      (isNamed : call.name = some written)
      (isArg : argText (String.ofList (lowered written)) call.arguments.args = .ok arg)
      (isKind : aggregateKind (String.ofList (lowered written))
        call.arguments.isDistinct = some kind) :
      Classifies groupKeys found (.of (.function call) aliasName)
        { found with
          hasAggregate := true
          aggregates := found.aggregates ++
            [{ kind := kind
               arg := arg
               output := aliasName.getD (String.ofList (lowered written))
               original := call.text }] }
  | column {ref : ColumnRef} (aliasName : Option String) {key : String}
      (isKey : matchedKey groupKeys ref = some key) :
      Classifies groupKeys found (.of (.column ref) aliasName)
        { found with
          distinctItems := found.distinctItems ++ [(key, aliasName.getD ref.name.value)]
          plainColumns :=
            if found.plainColumns.any fun column =>
              eqIgnoringCase column.1 key
            then found.plainColumns
            else found.plainColumns ++ [(key, aliasName.getD ref.name.value)] }

section

theorem classifies_of_classifyFunction (reads : classifyFunction call aliasName found = .ok next) :
    Classifies groupKeys found (.of (.function call) aliasName) next := by
  simp only [classifyFunction] at reads
  split at reads
  · cases reads
  · rename_i written named
    split at reads
    · cases reads
    · split at reads
      · cases reads
      · split at reads
        · cases reads
        · rename_i arg isArg
          split at reads
          · cases reads
          · rename_i kind isKind
            split at reads
            · cases reads
            · split at reads
              · cases reads
              · cases reads
                exact .call aliasName named isArg isKind

theorem classifies_of_classifyExpr
    (reads : classifyExpr groupKeys expr aliasName found = .ok next) :
    Classifies groupKeys found (.of expr aliasName) next := by
  simp only [classifyExpr] at reads
  split at reads
  · exact classifies_of_classifyFunction reads
  · split at reads
    · cases reads
    · split at reads
      · simp only [classifyColumn] at reads
        split at reads
        · cases reads
        · rename_i key isKey
          cases reads
          exact .column aliasName isKey
      · cases reads

/-- What an accepted item adds. -/
theorem classifies_of_classifyItem (reads : classifyItem groupKeys found x = .ok next) :
    Classifies groupKeys found x next := by
  cases x with
  | wildcard | multiAliased => cases reads
  | unnamed expr | aliased expr label =>
    exact classifies_of_classifyExpr reads

end

/-! ## The planner -/

/-- The table a `SELECT` reads, when it is a plain one. -/
def sourceTable (select : Select) : Except String Ident :=
  match select.sources with
  | [source] =>
    match source.relation with
    | .table (some name) _ =>
      if source.joined then
        .error "aggregates over joins are not supported yet"
      else .ok name
    | .table none _ => .error "table expected"
    | .derived =>
      .error "aggregates over subqueries/derived tables are not supported"
  | _ => .error "single FROM required"

def rewriteHavingAgg (having original output : String) : String :=
  let needle := (lowered original).filter fun letter => !letter.isWhitespace
  String.ofList (replaceFrom Char.toLower needle output.toList 0 having.toList)

/-- The ORDER BY items, with aggregates under their output names. -/
def mappedOrder (aggregates : List AggregateSpec)
    (orderBy : List (String × Bool)) : List (String × Bool) :=
  orderBy.map fun item =>
    match aggregates.find? fun spec => eqIgnoringCase spec.original item.1 with
    | some spec => (spec.output, item.2)
    | none => item

/-- The checks and rewrites after the projection is classified. -/
def finishPlan (query : Query) (select : Select) (table : Ident)
    (groupBy : List Expr) (found : Classified) :
    Except String AggregatePlan :=
  let groupKeys := groupBy.map Expr.text
  let filter := select.selection.getD ""
  let having := select.having.getD ""
  if found.hasAggregate then
    match found.plainColumns.find? fun column =>
      !groupKeys.any fun key => eqIgnoringCase key column.1 with
    | some column =>
      .error ("column " ++ column.1 ++ " must appear in GROUP BY")
    | none =>
      match groupBy.find? fun expr => !expr.isPlainColumn with
      | some expr =>
        .error ("GROUP BY expression " ++ expr.text ++
          " must be a plain column")
      | none =>
        let orderBy := mappedOrder found.aggregates query.orderBy
        let outputs := planOutputs found.plainColumns groupKeys found.aggregates
        match orderBy.find? fun item =>
          !outputs.any fun output => eqIgnoringCase output item.1 with
        | some item =>
          .error ("ORDER BY " ++ item.1 ++
            " must reference a projected output")
        | none =>
          .ok
            { table := table.value
              filter := filter
              groupKeys := groupKeys
              aggregates := found.aggregates
              plainColumns := found.plainColumns
              distinctOnly := none
              having :=
                if having.isEmpty then having
                else found.aggregates.foldl (fun text spec =>
                  rewriteHavingAgg text spec.original spec.output) having
              orderBy := orderBy
              limit := query.limit
              offset := query.offset }
  else if select.distinct then
    if found.distinctItems.isEmpty then .error "empty distinct projection"
    else
      .ok
        { table := table.value
          filter := filter
          groupKeys := []
          aggregates := []
          plainColumns := []
          distinctOnly := some found.distinctItems
          having := having
          orderBy := query.orderBy
          limit := query.limit
          offset := query.offset }
  else .error "not an aggregate query"

def planQuery (query : Query) : Except String AggregatePlan :=
  if query.hasWith || query.hasFetch || query.hasLocks then
    .error "CTEs/windows/locking unsupported"
  else
    match query.body with
    | none => .error "plain SELECT required"
    | some select =>
      match sourceTable select with
      | .error message => .error message
      | .ok table =>
        match select.groupBy with
        | .all => .error "GROUP BY ALL not supported"
        | .expressions groupBy =>
          match classifyItems (groupBy.map Expr.text) Classified.start select.projection with
          | .error message => .error message
          | .ok found => finishPlan query select table groupBy found

/-- The two ways in which a query is accepted. -/
inductive Planned (select : Select) (plan : AggregatePlan) : Prop where
  | aggregated (groupBy : List Expr) (found : Classified)
      (isGroupBy : select.groupBy = .expressions groupBy)
      (classified : classifyItems (groupBy.map Expr.text) .start select.projection = .ok found)
      (hasAggregate : found.hasAggregate = true)
      (grouped : ∀ column ∈ found.plainColumns,
        (groupBy.map Expr.text).any fun key => eqIgnoringCase key column.1)
      (groupKeys : plan.groupKeys = groupBy.map Expr.text)
      (filter : plan.filter = select.selection.getD "")
      (aggregates : plan.aggregates = found.aggregates)
      (plainColumns : plan.plainColumns = found.plainColumns)
      (distinctOnly : plan.distinctOnly = none)
  | distinct (groupBy : List Expr) (found : Classified)
      (isGroupBy : select.groupBy = .expressions groupBy)
      (classified : classifyItems (groupBy.map Expr.text) .start select.projection = .ok found)
      (noAggregate : found.hasAggregate = false)
      (isDistinct : select.distinct = true)
      (groupKeys : plan.groupKeys = [])
      (aggregates : plan.aggregates = [])
      (distinctOnly : plan.distinctOnly = some found.distinctItems)
      (nonempty : found.distinctItems ≠ [])

theorem planned_of_finishPlan {sel : Select} (isGroupBy : sel.groupBy = .expressions groupBy)
    (reads : classifyItems (groupBy.map Expr.text) .start sel.projection = .ok found)
    (done : finishPlan query sel table groupBy found = .ok plan) :
    Planned sel plan := by
  simp only [finishPlan] at done
  split at done
  · rename_i hasAggregate
    split at done
    · cases done
    · rename_i allGrouped
      have group : ∀ col ∈ found.plainColumns, (groupBy.map Expr.text).any fun key =>
            eqIgnoringCase key col.1 := by
        intro col mem
        simpa using List.find?_eq_none.mp allGrouped col mem
      split at done
      · cases done
      · split at done
        · cases done
        · cases done
          exact .aggregated groupBy found isGroupBy reads hasAggregate group rfl rfl rfl rfl rfl
  · rename_i plain
    split at done
    · rename_i isDistinct
      split at done
      · cases done
      · rename_i nonempty
        cases done
        exact .distinct groupBy found isGroupBy reads
          (Bool.eq_false_iff.mpr plain) isDistinct rfl rfl rfl
          (by simpa using nonempty)
    · cases done

/-- What an accepted query went through. -/
theorem planned_of_planQuery {q : Query} (body : q.body = some select)
    (ok : planQuery q = .ok plan) : Planned select plan := by
  simp only [planQuery, body] at ok
  split at ok
  · cases ok
  · split at ok
    · cases ok
    · split at ok
      · cases ok
      · rename_i groupBy isGroupBy
        split at ok
        · cases ok
        · rename_i found reads
          exact planned_of_finishPlan isGroupBy reads ok

end StorageOrchestrator.Aggregate.Plan
