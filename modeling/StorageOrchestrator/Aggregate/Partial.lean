import StorageOrchestrator.Aggregate.Plan
import StorageOrchestrator.Lib.Grouping
import StorageOrchestrator.Lib.JsonValue
import StorageOrchestrator.Lib.Record

/-!
# The partial query of a plan

Every provider runs `partial_sql` over its own slice.  Here are the select
list of that query with the labels the gateway later reads, and what a
Postgres provider answers to it: one JSON object per group of the slice, whose
fields are named by the labels.  The query reads the table without the alias
that the client gave it.  The meaning of a WHERE text and of an aggregate call
is the engine's.  SQL values are taken up to SQL equality, and `json` is how
the provider prints one.
-/

namespace StorageOrchestrator.Aggregate.Partial

open Aggregate.Plan Lib.Grouping Lib.JsonValue Lib.Record

/-! ## The select list -/

/-- An aggregate call of the partial query. -/
structure Call where
  function : String
  argument : String
deriving DecidableEq

/-- An expression of the partial query. -/
inductive Item where
  | column (text : String)
  | call (called : Call)
deriving DecidableEq

/-- `agg_name`. -/
def aggName : AggregateKind → String
  | .count | .countDistinct => "count"
  | .sum => "sum"
  | .avg => "avg"
  | .min => "min"
  | .max => "max"
  | .boolAnd => "bool_and"
  | .boolOr => "bool_or"
  | .variance _ => "variance"
  | .stdDev _ => "stddev"
  | .stringAgg => "string_agg"
  | .arrayAgg => "array_agg"
  | .jsonAgg => "json_agg"

/-- The name of a helper column, `__c_{output}_{arg}` for the mark `c`. -/
def helperName (mark : String) (spec : AggregateSpec) : String :=
  "__" ++ mark ++ "_" ++ spec.output ++ "_" ++ spec.arg

/-- What an aggregate adds to the select list. -/
def specCalls (spec : AggregateSpec) : List (String × Call) :=
  match spec.kind with
  | .avg =>
    [(helperName "c" spec, ⟨"count", spec.arg⟩),
      (helperName "s" spec, ⟨"sum", spec.arg⟩)]
  | .variance _ | .stdDev _ =>
    [(helperName "n" spec, ⟨"count", spec.arg⟩),
      (helperName "m" spec, ⟨"avg", spec.arg⟩),
      (helperName "q" spec,
        ⟨"sum", "(" ++ spec.arg ++ ") * (" ++ spec.arg ++ ")"⟩)]
  | .countDistinct => [(spec.output, ⟨"array_agg", "DISTINCT " ++ spec.arg⟩)]
  | kind => [(spec.output, ⟨aggName kind, spec.arg⟩)]

/-- The group columns of the select list. -/
def columnItems (plan : AggregatePlan) : List (String × Item) :=
  plan.plainColumns.map (fun column => (column.2, .column column.1)) ++
    (unprojected plan.plainColumns plan.groupKeys).map fun key =>
      (key, .column key)

/-- The aggregate calls of the select list. -/
def callItems (plan : AggregatePlan) : List (String × Item) :=
  plan.aggregates.flatMap fun spec =>
    (specCalls spec).map fun item => (item.1, .call item.2)

/-- The select list of the partial query, with its labels. -/
def selectList (plan : AggregatePlan) : List (String × Item) := columnItems plan ++ callItems plan

/-! ## Names as Postgres reads them -/

/-- The longest beginning of at most `room` bytes. -/
def clip : Nat → List Char → List Char
  | _, [] => []
  | room, letter :: rest =>
    if letter.utf8Size ≤ room then letter :: clip (room - letter.utf8Size) rest
    else []

/-- A label as the name of a result field: names are cut at 63 bytes. -/
def fieldName (label : String) : String := String.ofList (clip 63 label.toList)

/-- The parts of a printed column reference, folded and without quotes. -/
def segmentsFrom : Bool → List Char → List Char → List String
  | _, name, [] => [String.ofList name.reverse]
  | true, name, '"' :: '"' :: rest => segmentsFrom true ('"' :: name) rest
  | quoted, name, '"' :: rest => segmentsFrom (!quoted) name rest
  | false, name, '.' :: rest =>
    String.ofList name.reverse :: segmentsFrom false [] rest
  | quoted, name, letter :: rest =>
    segmentsFrom quoted ((if quoted then letter else letter.toLower) :: name) rest

/-- The parts of a printed column reference. -/
def segments (text : String) : List String := segmentsFrom false [] text.toList

/-- The column a printed reference names. -/
def columnOf (text : String) : String :=
  (segments text).getLastD ""

/-- The relation a printed reference is qualified with. -/
def qualifierOf (text : String) : Option String := (segments text).dropLast.getLast?

/-- Where a text is being read: in a name, a quoted name or a string. -/
inductive Quoting where
  | bare
  | name
  | string

/--
The names that stand before a dot in a text, folded and without quotes; the
digits before a decimal point are no name.
-/
def qualifiersFrom : Quoting → List Char → List Char → List String
  | _, _, [] => []
  | .string, _, '\'' :: rest => qualifiersFrom .bare [] rest
  | .string, _, _ :: rest => qualifiersFrom .string [] rest
  | .name, name, '"' :: '"' :: rest => qualifiersFrom .name ('"' :: name) rest
  | .name, name, '"' :: rest => qualifiersFrom .bare name rest
  | .name, name, letter :: rest => qualifiersFrom .name (letter :: name) rest
  | .bare, _, '\'' :: rest => qualifiersFrom .string [] rest
  | .bare, _, '"' :: rest => qualifiersFrom .name [] rest
  | .bare, name, '.' :: rest =>
    if name.all Char.isDigit then qualifiersFrom .bare [] rest
    else String.ofList name.reverse :: qualifiersFrom .bare [] rest
  | .bare, name, letter :: rest =>
    qualifiersFrom .bare
      (if letter.isAlphanum || letter == '_' then letter.toLower :: name else []) rest

/-- The relations that a WHERE text or an argument refers to. -/
def qualifiers (text : String) : List String := qualifiersFrom .bare [] text.toList

/-- The table of a query as Postgres names it, and the alias it has in the query. -/
structure Source where
  relation : String
  aliasName : Option String

/-- The WHERE text and the arguments of a plan. -/
def texts (plan : AggregatePlan) : List String :=
  plan.filter :: plan.aggregates.map AggregateSpec.arg

/-- The text does without the alias, which the partial query drops. -/
def Source.admits (source : Source) (text : String) : Bool :=
  source.aliasName.all fun aliasName =>
    aliasName == source.relation || !(qualifiers text).contains aliasName

/--
Postgres accepts the partial query: it names the relation, no label closes its
own quotes, the keys are qualified with nothing else, and no text uses an
alias.
-/
def runsOn (source : Source) (plan : AggregatePlan) : Bool :=
  plan.table == source.relation &&
    (selectList plan).all (fun entry => !entry.1.toList.contains '"') &&
    plan.groupKeys.all (fun key => (qualifierOf key).all (· == source.relation)) &&
    (texts plan).all source.admits

/-! ## The answer -/

/-- JSON as the gateway reads it, with exact numbers. -/
abbrev Value := Json ℚ

/-- A JSON object, read by field name. -/
abbrev Object := String → Option Value

/-- A row of the table: the value of every column. -/
abbrev Row (V : Type) := String → V

/-- What the query texts mean to the providers' Postgres. -/
structure Engine (V : Type) where
  holds : String → Row V → Bool
  aggregate : Call → List (Row V) → Value

section

variable {V : Type} [DecidableEq V] (engine : Engine V) (json : V → Value)

/-- The rows that pass the WHERE text. -/
def kept (filter : String) (rows : List (Row V)) : List (Row V) :=
  if filter.isEmpty then rows else rows.filter (engine.holds filter)

/-- The group a row belongs to. -/
def sqlKey (keys : List String) (row : Row V) : List V := keys.map fun key => row (columnOf key)

/-- The groups of a query; without keys there is one, even of no rows. -/
def sqlGroups (keys : List String) (rows : List (Row V)) : List (List (Row V)) :=
  if keys.isEmpty then [rows]
  else (rows.map (sqlKey keys)).dedup.map fun key =>
    itemsOf (sqlKey keys) key rows

/-- The fields of an answered row, with the expressions they show. -/
def answerFields (plan : AggregatePlan) : List (String × Item) :=
  (selectList plan).map fun entry => (fieldName entry.1, entry.2)

/-- The value of an expression over a group. -/
def itemValue (rows : List (Row V)) : Item → Value
  | .column text =>
    match rows.head? with
    | some row => json (row (columnOf text))
    | none => .null
  | .call call => engine.aggregate call rows

/-- The answered row of a group. -/
def answerRow (plan : AggregatePlan) (rows : List (Row V)) : Object := fun name =>
  (lastNamed (answerFields plan) name).map (itemValue engine json rows)

/-- A provider's answer to the partial query over its slice. -/
def answer (source : Source) (plan : AggregatePlan) (slice : List (Row V)) : Option (List Object) :=
  if runsOn source plan then
    some ((sqlGroups plan.groupKeys (kept engine plan.filter slice)).map
      (answerRow engine json plan))
  else none

end

end StorageOrchestrator.Aggregate.Partial
