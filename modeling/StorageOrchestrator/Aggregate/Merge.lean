import StorageOrchestrator.Aggregate.Partial
import StorageOrchestrator.Lib.Decimal

/-!
# Merging the partial answers

The reduce side of a distributed aggregate (`merge_partials`): the answered
rows are grouped by the values of the key columns, every group folds its rows
into an accumulator, and every accumulator becomes one result row.  HAVING,
ORDER BY, OFFSET and LIMIT act on the rows made here.  Floating-point numbers
are read as exact rationals; the two operations that leave them are
parameters.
-/

namespace StorageOrchestrator.Aggregate.Merge

open Aggregate.Plan Aggregate.Partial Lib Lib.Grouping Lib.JsonValue Lib.Record
  Lib.Text

/-- The square root and the printed form of a floating-point number. -/
structure FloatOps where
  sqrt : ℚ → ℚ
  text : ℚ → String

/-! ## Reading JSON -/

def jsonNum : Value → Option ℚ
  | .number value => some value
  | .str text => Decimal.parse text
  | _ => none

def asBool : Value → Option Bool
  | .bool flag => some flag
  | .str text =>
    if ["t", "true", "1"].contains text then some true
    else if ["f", "false", "0"].contains text then some false
    else none
  | .number value => some (decide (value ≠ 0))
  | _ => none

/-- A string as it is, any other value printed. -/
def valueText (ops : FloatOps) : Value → String
  | .str text => text
  | other => @Json.compact ℚ ⟨ops.text⟩ other

def jsonLe (ops : FloatOps) (left right : Value) : Bool :=
  match jsonNum left, jsonNum right with
  | some x, some y => decide (x ≤ y)
  | _, _ => decide (valueText ops left ≤ valueText ops right)

def jsonGe (ops : FloatOps) (left right : Value) : Bool :=
  match jsonNum left, jsonNum right with
  | some x, some y => decide (x ≥ y)
  | _, _ => decide (valueText ops left ≥ valueText ops right)

/-- The number a row shows under a name. -/
def readNum (row : Object) (name : String) : Option ℚ := (row name).bind jsonNum

/-! ## Accumulating -/

/-- The running accumulator of one group. -/
structure Acc where
  counts : String → Option ℚ
  sums : String → Option ℚ
  mins : String → Option Value
  maxes : String → Option Value
  boolsAnd : String → Option Bool
  boolsOr : String → Option Bool
  distinctSets : String → Option (List Value)
  lists : String → Option (List Value)

def Acc.start : Acc :=
  { counts := fun _ => none
    sums := fun _ => none
    mins := fun _ => none
    maxes := fun _ => none
    boolsAnd := fun _ => none
    boolsOr := fun _ => none
    distinctSets := fun _ => none
    lists := fun _ => none }

/-- Add a number, if there is one, to the total of a name. -/
def addNumber (totals : String → Option ℚ) (name : String) : Option ℚ → String → Option ℚ
  | some number =>
    Function.update totals name (some ((totals name).getD 0 + number))
  | none => totals

/-- Keep the better of the value so far and a new one; NULL is passed over. -/
def keepBest (better : Value → Value → Bool) (best : String → Option Value) (name : String) :
    Option Value → String → Option Value
  | none => best
  | some value =>
    if value = .null then best
    else
      match best name with
      | some current =>
        if better current value then best
        else Function.update best name (some value)
      | none => Function.update best name (some value)

/-- Combine a flag, if there is one, with the flag so far. -/
def addFlag (combine : Bool → Bool → Bool) (flags : String → Option Bool)
    (name : String) : Option Bool → String → Option Bool
  | none => flags
  | some flag =>
    Function.update flags name (some (match flags name with
      | some current => combine current flag
      | none => flag))

def addValues (lists : String → Option (List Value)) (name : String)
    (values : List Value) : String → Option (List Value) :=
  Function.update lists name (some ((lists name).getD [] ++ values))

/-- One aggregate reads one answered row. -/
def accumulate (ops : FloatOps) (row : Object) (acc : Acc) (spec : AggregateSpec) : Acc :=
  match spec.kind with
  | .avg =>
    { acc with
      counts := addNumber acc.counts spec.output
        (readNum row (helperName "c" spec))
      sums := addNumber acc.sums spec.output
        (readNum row (helperName "s" spec)) }
  | .variance _ | .stdDev _ =>
    let count := (readNum row (helperName "n" spec)).getD 0
    if 0 < count then
      match readNum row (helperName "m" spec) with
      | some mean =>
        { acc with
          sums := addNumber
            (addNumber acc.sums (helperName "sum" spec)
              (some (mean * count)))
            (helperName "q" spec)
            (some ((readNum row (helperName "q" spec)).getD 0))
          counts := addNumber acc.counts spec.output (some count) }
      | none => acc
    else acc
  | .countDistinct =>
    match row spec.output with
    | some (.arr items) =>
      { acc with
        distinctSets := addValues acc.distinctSets spec.output items }
    | _ => acc
  | .stringAgg | .arrayAgg | .jsonAgg =>
    match row spec.output with
    | some value =>
      { acc with lists := addValues acc.lists spec.output [value] }
    | none => acc
  | .count =>
    { acc with
      counts := addNumber acc.counts spec.output (readNum row spec.output) }
  | .sum =>
    { acc with
      sums := addNumber acc.sums spec.output (readNum row spec.output) }
  | .min =>
    { acc with
      mins := keepBest (jsonLe ops) acc.mins spec.output (row spec.output) }
  | .max =>
    { acc with
      maxes := keepBest (jsonGe ops) acc.maxes spec.output (row spec.output) }
  | .boolAnd =>
    { acc with
      boolsAnd := addFlag and acc.boolsAnd spec.output ((row spec.output).bind asBool) }
  | .boolOr =>
    { acc with
      boolsOr := addFlag or acc.boolsOr spec.output ((row spec.output).bind asBool) }

/-- All aggregates read one answered row. -/
def accumulateRow (ops : FloatOps) (plan : AggregatePlan) (acc : Acc) (row : Object) : Acc :=
  plan.aggregates.foldl (accumulate ops row) acc

/-! ## Reducing -/

/-- A flag as the gateway prints it. -/
def flagValue : Option Bool → Value
  | some flag => .str (if flag then "t" else "f")
  | none => .null

/-- The variance from a count, a sum and a sum of squares. -/
def reduceVariance (sample : Bool) (count total squares : ℚ) : Option ℚ :=
  if count = 0 then none
  else
    let mean := total / count
    let deviation := squares - count * mean * mean
    let denominator := if sample then count - 1 else count
    if denominator ≤ 0 then none
    else some (max (deviation / denominator) 0)

def reduceOne (ops : FloatOps) (spec : AggregateSpec) (acc : Acc) : Value :=
  match spec.kind with
  | .count =>
    match acc.counts spec.output with
    | some count => .number (count.num.tdiv count.den : Int)
    | none => .number 0
  | .sum =>
    match acc.sums spec.output with
    | some total => .number total
    | none => .null
  | .avg =>
    let count := (acc.counts spec.output).getD 0
    let total := (acc.sums spec.output).getD 0
    if 0 < count then .number (total / count) else .null
  | .min => (acc.mins spec.output).getD .null
  | .max => (acc.maxes spec.output).getD .null
  | .boolAnd => flagValue (acc.boolsAnd spec.output)
  | .boolOr => flagValue (acc.boolsOr spec.output)
  | .countDistinct =>
    match acc.distinctSets spec.output with
    | some items => .number ((items.map (valueText ops)).dedup.length : Nat)
    | none => .number 0
  | .stringAgg =>
    match acc.lists spec.output with
    | some values => .str (",".intercalate (values.map (valueText ops)))
    | none => .null
  | .arrayAgg =>
    match acc.lists spec.output with
    | some values => .arr values
    | none => .null
  | .jsonAgg =>
    match acc.lists spec.output with
    | some values =>
      .arr (values.flatMap fun value =>
        match value with
        | .arr items => items
        | other => [other])
    | none => .null
  | .variance sample =>
    match reduceVariance sample ((acc.counts spec.output).getD 0)
      ((acc.sums (helperName "sum" spec)).getD 0)
      ((acc.sums (helperName "q" spec)).getD 0) with
    | some variance => .number variance
    | none => .null
  | .stdDev sample =>
    match reduceVariance sample ((acc.counts spec.output).getD 0)
      ((acc.sums (helperName "sum" spec)).getD 0)
      ((acc.sums (helperName "q" spec)).getD 0) with
    | some variance => .number (ops.sqrt variance)
    | none => .null

/-! ## Merging -/

/-- The texts whose values make up the key of an answered row. -/
def keyTexts (plan : AggregatePlan) : List String :=
  plan.groupKeys ++ plan.plainColumns.map Prod.fst

def keyValue (row : Object) (text : String) : Value :=
  ((row text).or (row (lastSegment text))).getD .null

def rowKey (plan : AggregatePlan) (row : Object) : List Value := (keyTexts plan).map (keyValue row)

/-- The output names filled from the key, by position. -/
def keyOutputs (plan : AggregatePlan) : List String :=
  plan.plainColumns.map Prod.snd ++
    unprojected plan.plainColumns plan.groupKeys

/-- The fields of a result row, in the order of their insertion. -/
def mergedFields (ops : FloatOps) (plan : AggregatePlan) (key : List Value)
    (acc : Acc) : List (String × Value) :=
  (keyOutputs plan).zip key ++ plan.aggregates.map fun spec => (spec.output, reduceOne ops spec acc)

/-- The grouping part of `merge_partials`. -/
def mergeGroups (ops : FloatOps) (plan : AggregatePlan)
    (partials : List (List Object)) : List Object :=
  (groupFold (rowKey plan) Acc.start (accumulateRow ops plan) partials.flatten).map fun entry =>
      lastNamed (mergedFields ops plan entry.1 entry.2)

end StorageOrchestrator.Aggregate.Merge
