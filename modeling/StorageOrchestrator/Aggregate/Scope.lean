import StorageOrchestrator.Aggregate.Alignment

/-!
# Plain aggregate queries

Queries over one table with unquoted lower-case names of at most twenty
characters, which project their GROUP BY columns as they are and in order and,
anywhere between them, `count`, `sum`, `avg`, `min`, `max`, the variances and
the boolean aggregates of single columns, all under different output names.

Names of this kind survive every step of the planner: they fold to themselves,
stay under the length Postgres keeps, and are found again as keys.
-/

namespace StorageOrchestrator.Aggregate.Scope

open Aggregate.Plan Aggregate.Partial Aggregate.Merge Aggregate.Alignment
  Lib.Record Lib.Text List

/-! ## Names -/

/-- A character of an unquoted name. -/
def isNameChar (letter : Char) : Bool := letter.isLower || letter.isDigit || letter == '_'

/-- An unquoted lower-case name of at most twenty characters. -/
def IsName (text : String) : Prop :=
  text.toList.length ≤ 20 ∧ ∀ letter ∈ text.toList, isNameChar letter = true

instance (text : String) : Decidable (IsName text) :=
  decidable_of_iff
    (text.toList.length ≤ 20 ∧ text.toList.all isNameChar = true)
    (and_congr_right fun _ => all_eq_true)

/-- A name, with the proof that it is one. -/
abbrev Name := { text : String // IsName text }

theorem toLower_of_isNameChar (isChar : isNameChar letter = true) : letter.toLower = letter := by
  simp only [Char.toLower]
  split
  · rename_i isUpper
    simp [isNameChar, Char.isLower, Char.isDigit] at isChar
    rcases isChar with (isLower | isDigit) | isUnderscore
    · grind
    · grind
    · subst isUnderscore
      simp at isUpper
  · rfl

theorem utf8Size_of_isNameChar (isChar : isNameChar letter = true) : letter.utf8Size = 1 := by
  rw [Char.utf8Size_eq_one_iff]
  simp [isNameChar, Char.isLower, Char.isDigit] at isChar
  rcases isChar with (isLower | isDigit) | isUnderscore
  · grind
  · grind
  · rw [isUnderscore]
    decide

theorem lowered_of_isName (name : IsName text) : lowered text = text.toList := by
  have eq : text.toList.map Char.toLower = text.toList.map id := by
    apply map_congr_left
    intro c mem
    exact toLower_of_isNameChar (name.2 c mem)
  rw [lowered, eq, map_id]

theorem eqIgnoringCase_of_isName (leftName : IsName left) (rightName : IsName right) :
    eqIgnoringCase left right = decide (left = right) := by
  rw [eqIgnoringCase, lowered_of_isName leftName, lowered_of_isName rightName]
  by_cases eq : left = right
  · simp [eq]
  · simp [eq, String.toList_inj]

/-- A text of single-byte characters that is short enough is not clipped. -/
theorem clip_eq_self {letters : List Char} (single : ∀ c ∈ letters, c.utf8Size = 1)
    (fits : letters.length ≤ room) :
    clip room letters = letters := by
  induction letters generalizing room with
  | nil => rfl
  | cons c rest ih =>
    have size := single c mem_cons_self
    rw [length_cons] at fits
    rw [clip, size, if_pos (by omega)]
    rw [ih (fun other mem => single other (mem_cons_of_mem _ mem)) (by omega)]

theorem fieldName_eq_self {label : String} (chars : ∀ c ∈ label.toList, isNameChar c = true)
    (fits : label.toList.length ≤ 63) :
    fieldName label = label := by
  rw [fieldName, clip_eq_self _ fits, String.ofList_toList]
  intro c mem
  exact utf8Size_of_isNameChar (chars c mem)

theorem segmentsFrom_of_chars (cs name : List Char) (chars : ∀ c ∈ cs, isNameChar c = true) :
    segmentsFrom false name cs = [String.ofList (name.reverse ++ cs)] := by
  induction cs generalizing name with
  | nil => simp [segmentsFrom]
  | cons c rest ih =>
    have isChar := chars c mem_cons_self
    have notQuote : c ≠ '"' := by
      rintro rfl
      exact absurd isChar (by decide)
    have notDot : c ≠ '.' := by
      rintro rfl
      exact absurd isChar (by decide)
    have step : segmentsFrom false name (c :: rest) =
        segmentsFrom false (c.toLower :: name) rest := by
      rw [segmentsFrom.eq_def]
      split <;> simp_all
    rw [step, toLower_of_isNameChar isChar, ih]
    · simp
    · intro other mem
      exact chars other (mem_cons_of_mem _ mem)

theorem segments_of_isName (name : IsName text) : segments text = [text] := by
  rw [segments, segmentsFrom_of_chars _ _ name.2]
  simp

theorem columnOf_of_isName (name : IsName text) : columnOf text = text := by
  rw [columnOf, segments_of_isName name]
  rfl

theorem qualifierOf_of_isName (name : IsName text) : qualifierOf text = none := by
  rw [qualifierOf, segments_of_isName name]
  rfl

/-! ## Queries -/

/-- The aggregate functions that a plan splits. -/
inductive SqlFunction where
  | count
  | sum
  | avg
  | min
  | max
  | variance
  | varSamp
  | varPop
  | boolAnd
  | boolOr

/-- The name that SQL calls it by. -/
def SqlFunction.name : SqlFunction → Name
  | .count => ⟨"count", by decide⟩
  | .sum => ⟨"sum", by decide⟩
  | .avg => ⟨"avg", by decide⟩
  | .min => ⟨"min", by decide⟩
  | .max => ⟨"max", by decide⟩
  | .variance => ⟨"variance", by decide⟩
  | .varSamp => ⟨"var_samp", by decide⟩
  | .varPop => ⟨"var_pop", by decide⟩
  | .boolAnd => ⟨"bool_and", by decide⟩
  | .boolOr => ⟨"bool_or", by decide⟩

/-- What the planner takes it for. -/
def SqlFunction.kind : SqlFunction → AggregateKind
  | .count => .count
  | .sum => .sum
  | .avg => .avg
  | .min => .min
  | .max => .max
  | .variance | .varSamp => .variance true
  | .varPop => .variance false
  | .boolAnd => .boolAnd
  | .boolOr => .boolOr

/-- `count(*)`, or a function of one column. -/
inductive Measure where
  | rows
  | of (function : SqlFunction) (column : Name)

/-- The function that is called. -/
def Measure.function : Measure → SqlFunction
  | .rows => .count
  | .of function _ => function

/-- The argument as the planner prints it. -/
def Measure.arg : Measure → String
  | .rows => "*"
  | .of _ column => column

/-- A projected aggregate. -/
structure Reported where
  measure : Measure
  aliasName : Option Name

/-- The alias, else the name of the function. -/
def Reported.output (reported : Reported) : Name :=
  reported.aliasName.getD reported.measure.function.name

/-- The call as the parser has it. -/
def Reported.call (reported : Reported) : FunctionCall :=
  { name := some reported.measure.function.name
    arguments := .list [match reported.measure with
        | .rows => .wildcard
        | .of _ column => .expr column] false false
    filtered := false
    text := reported.measure.function.name.val ++ "(" ++
      reported.measure.arg ++ ")" }

/-- What the planner makes of a projected aggregate. -/
def Reported.spec (reported : Reported) : AggregateSpec :=
  { kind := reported.measure.function.kind
    arg := reported.measure.arg
    output := reported.output
    original := reported.call.text }

/-- An item of the projection. -/
inductive Shown where
  | key (name : Name)
  | aggregate (reported : Reported)

/-- The item as the parser has it. -/
def Shown.item : Shown → SelectItem
  | .key name => .unnamed (bareColumn name)
  | .aggregate reported =>
    match reported.aliasName with
    | some aliasName => .aliased (.function reported.call) aliasName
    | none => .unnamed (.function reported.call)

/-- The name of its column. -/
def Shown.output : Shown → Name
  | .key name => name
  | .aggregate reported => reported.output

/-- The key that it shows. -/
def Shown.key? : Shown → Option Name
  | .key name => some name
  | .aggregate _ => none

/-- The aggregate that it shows. -/
def Shown.reported? : Shown → Option Reported
  | .key _ => none
  | .aggregate reported => some reported

/-- A plain aggregate query. -/
structure PlainQuery where
  table : Name
  filter : Option String
  keys : List Name
  shown : List Shown
  distinctKeys : keys.Nodup
  inOrder : shown.filterMap Shown.key? = keys
  distinctOutputs : (shown.map Shown.output).Nodup

namespace PlainQuery

variable (plain : PlainQuery)

/-- The SELECT as the parser has it. -/
def select : Select :=
  { sources := [⟨.table (some ⟨plain.table, false⟩) none, false⟩]
    selection := plain.filter
    groupBy := .expressions (plain.keys.map fun key => bareColumn key.val)
    having := none
    distinct := false
    projection := plain.shown.map Shown.item }

/-- The query as the parser has it. -/
def query : Query :=
  { hasWith := false
    hasFetch := false
    hasLocks := false
    body := some plain.select
    orderBy := []
    limit := none
    offset := none }

/-- The aggregates, in the order of the projection. -/
def reported : List Reported := plain.shown.filterMap Shown.reported?

/-- The keys as texts. -/
def keyNames : List String := plain.keys.map Subtype.val

/-- The plan that the planner is to make of it. -/
def plan : AggregatePlan :=
  { table := plain.table
    filter := plain.filter.getD ""
    groupKeys := plain.keyNames
    aggregates := plain.reported.map Reported.spec
    plainColumns := plain.keyNames.map fun key => (key, key)
    distinctOnly := none
    having := ""
    orderBy := []
    limit := none
    offset := none }

end PlainQuery

/-! ## Planning -/

theorem aggregateKind_name (fn : SqlFunction) : aggregateKind fn.name.val false = some fn.kind := by
  cases fn <;> rfl

theorem folded_name (name : Name) : String.ofList (lowered name.val) = name.val := by
  rw [lowered_of_isName name.property, String.ofList_toList]

/-- What the planner has found after some items. -/
def Shown.added (found : Classified) : Shown → Classified
  | .key name =>
    { found with
      distinctItems := found.distinctItems ++ [(name.val, name.val)]
      plainColumns := found.plainColumns ++ [(name.val, name.val)] }
  | .aggregate reported =>
    { found with
      hasAggregate := true
      aggregates := found.aggregates ++ [reported.spec] }

theorem classifyFunction_call (told : Reported) (found : Classified) :
    classifyFunction told.call (told.aliasName.map Subtype.val) found =
      .ok (Shown.added found (.aggregate told)) := by
  rcases told with ⟨measure, label⟩
  have notDistinct : measure.function.kind ≠ .countDistinct := by
    cases measure.function <;> nofun
  have outputs : (label.map Subtype.val).getD measure.function.name.val =
        (label.getD measure.function.name).val := by
    cases label <;> rfl
  cases measure with
  | rows | of fn col =>
    simp only [classifyFunction, Reported.call, folded_name, argText,
      FunctionArguments.args, FunctionArguments.isDistinct,
      FunctionArguments.isOrdered, aggregateKind_name, outputs,
      notDistinct, false_and, if_false, Bool.false_eq_true]
    rfl

theorem classifyItem_key {keys : List Name} {name : Name} (isKey : name ∈ keys) {found : Classified}
    (named : ∀ col ∈ found.plainColumns, IsName col.1)
    (new : name.val ∉ found.plainColumns.map Prod.fst) :
    classifyItem (keys.map Subtype.val) found (Shown.key name).item =
      .ok (Shown.added found (.key name)) := by
  have notEmpty : (keys.map Subtype.val).isEmpty = false := by
    rw [isEmpty_eq_false_iff]
    exact ne_nil_of_mem (mem_map_of_mem isKey)
  have foundKey : (keys.map Subtype.val).find? (fun key =>
      eqIgnoringCase key name.val || eqIgnoringCase key name.val) = some name.val := by
    rw [find?_map]
    have eqKey : ((fun key => eqIgnoringCase key name.val ||
        eqIgnoringCase key name.val) ∘ Subtype.val) = fun key : Name => decide (key = name) := by
      funext key
      simp [eqIgnoringCase_of_isName key.property name.property, Subtype.ext_iff]
    rw [eqKey]
    cases search : keys.find? fun key => decide (key = name) with
    | none =>
      exact absurd (decide_eq_true rfl) (find?_eq_none.mp search name isKey)
    | some key =>
      have eq := find?_some search
      rw [of_decide_eq_true eq]
      rfl
  have notShown : (found.plainColumns.any fun col =>
      eqIgnoringCase col.1 name.val) = false := by
    rw [any_eq_false]
    intro col mem eq
    rw [eqIgnoringCase_of_isName (named col mem) name.property] at eq
    apply new
    rw [← of_decide_eq_true eq]
    exact mem_map_of_mem mem
  have full : ColumnRef.full ⟨[], ⟨name.val, false⟩⟩ = name.val := rfl
  simp only [classifyItem, Shown.item, bareColumn, classifyExpr,
    exprHasAggregate, classifyColumn, notEmpty, full, foundKey, notShown,
    Bool.false_eq_true, if_false, Option.getD_none, Shown.added]

theorem classifyItem_aggregate (keys : List String) (told : Reported) (found : Classified) :
    classifyItem keys found (Shown.aggregate told).item =
      .ok (Shown.added found (.aggregate told)) := by
  have reads := classifyFunction_call told found
  cases isAliased : told.aliasName with
  | none | some label =>
    rw [isAliased] at reads
    simp only [Shown.item, isAliased, classifyItem, classifyExpr]
    exact reads

/-- The planner finds the items as they are shown. -/
theorem classifyItems_shown (keys : List Name) (shown : List Shown) (found : Classified)
    (known : ∀ name ∈ shown.filterMap Shown.key?, name ∈ keys)
    (named : ∀ col ∈ found.plainColumns, IsName col.1) (fresh : (found.plainColumns.map Prod.fst ++
      (shown.filterMap Shown.key?).map Subtype.val).Nodup) :
    classifyItems (keys.map Subtype.val) found (shown.map Shown.item) =
      .ok (shown.foldl Shown.added found) := by
  induction shown generalizing found with
  | nil => rfl
  | cons first shown ih =>
    cases first with
    | key name =>
      have isKey := known name mem_cons_self
      simp only [filterMap_cons, Shown.key?, map_cons] at fresh
      have notYet : name.val ∉ found.plainColumns.map Prod.fst := by
        intro mem
        exact (nodup_append.mp fresh).2.2 _ mem _ mem_cons_self rfl
      simp only [map_cons, classifyItems, classifyItem_key isKey named notYet, foldl_cons]
      apply ih
      · intro other mem
        exact known other (mem_cons_of_mem _ mem)
      · intro col mem
        rcases mem_append.mp mem with old | new
        · exact named col old
        · rw [mem_singleton] at new
          rw [new]
          exact name.property
      · simpa [Shown.added] using fresh
    | aggregate told =>
      simp only [map_cons, classifyItems, classifyItem_aggregate, foldl_cons]
      exact ih _ known named fresh

theorem foldl_added (shown : List Shown) (found : Classified) :
    (shown.foldl Shown.added found).plainColumns = found.plainColumns ++
      (shown.filterMap Shown.key?).map (fun name => (name.val, name.val)) ∧
      (shown.foldl Shown.added found).aggregates = found.aggregates ++
      (shown.filterMap Shown.reported?).map Reported.spec := by
  induction shown generalizing found with
  | nil => simp
  | cons first shown ih =>
    cases first with
    | key name | aggregate told =>
      simp [filterMap_cons, Shown.added, Shown.key?, Shown.reported?, ih]

/-- An accepted plain query has the plan one reads off it. -/
theorem PlainQuery.plan_eq (plain : PlainQuery) {plan : AggregatePlan}
    (ok : planQuery plain.query = .ok plan) :
    plan = plain.plan := by
  have texts : (plain.keys.map fun key => bareColumn key.val).map Expr.text =
      plain.keys.map Subtype.val := by
    rw [map_map]
    rfl
  have reads : classifyItems (plain.keys.map Subtype.val)
      Classified.start (plain.shown.map Shown.item) =
        .ok (plain.shown.foldl Shown.added Classified.start) := by
    apply classifyItems_shown
    · rw [plain.inOrder]
      exact fun _ => id
    · intro col mem
      cases mem
    · rw [plain.inOrder]
      exact plain.distinctKeys.map Subtype.val_injective
  rcases foldl_added plain.shown Classified.start with ⟨plainColumns, aggs⟩
  rw [plain.inOrder] at plainColumns
  simp only [planQuery, PlainQuery.query, PlainQuery.select, sourceTable,
    texts, reads, finishPlan, Bool.or_self, Bool.false_eq_true,
    if_false] at ok
  split at ok
  · split at ok
    · cases ok
    · split at ok
      · cases ok
      · simp only [mappedOrder, map_nil, find?_nil, Except.ok.injEq] at ok
        rw [← ok, PlainQuery.plan, plainColumns, aggs]
        simp [Classified.start, PlainQuery.keyNames, PlainQuery.reported]
  · cases ok

/-! ## Labels that are read back -/

/--
Labels of the partial query and keys of the accumulator are not shared: one
label stands for one expression, and no sum or average has the output name
under which a variance keeps its sum or its sum of squares.
-/
structure Unshared (plan : AggregatePlan) : Prop where
  labels : ∀ left ∈ selectList plan, ∀ right ∈ selectList plan,
    left.1 = right.1 → left.2 = right.2
  totals : ∀ adder ∈ plan.aggregates, ∀ spread ∈ plan.aggregates,
    (adder.kind = .sum ∨ adder.kind = .avg) → (∃ sample, spread.kind = .variance sample) →
        adder.output ≠ helperName "sum" spread ∧
          adder.output ≠ helperName "q" spread

namespace PlainQuery

variable (plain : PlainQuery)

theorem isName_of_mem_keyNames (mem : key ∈ plain.keyNames) : IsName key := by
  rcases mem_map.mp mem with ⟨name, _, rfl⟩
  exact name.property

theorem unprojected_eq_nil : unprojected plain.plan.plainColumns plain.plan.groupKeys = [] := by
  rw [unprojected, filter_eq_nil_iff]
  intro key mem
  have isShown : (plain.plan.plainColumns.any fun col =>
      eqIgnoringCase col.1 key) = true := by
    rw [any_eq_true]
    exact ⟨(key, key), mem_map_of_mem mem, beq_self_eq_true _⟩
  simp [isShown]

theorem columnItems_plan : columnItems plain.plan =
      plain.keyNames.map fun key => (key, .column key) := by
  rw [columnItems, unprojected_eq_nil, PlainQuery.plan]
  simp

end PlainQuery

/-- The letters of a label, and how many there may be. -/
def Legible (label : String) : Prop :=
  (∀ letter ∈ label.toList, isNameChar letter = true) ∧
    label.toList.length ≤ 63

theorem legible_of_isName (name : IsName text) : Legible text :=
  ⟨name.2, by have := name.1; omega⟩

theorem legible_helperName {mark : String} (shortMark : mark.toList.length ≤ 1)
    (markChars : mark.toList.all isNameChar = true) {spec : AggregateSpec}
    (out : IsName spec.output) (isArg : IsName spec.arg) :
    Legible (helperName mark spec) := by
  have cs : (helperName mark spec).toList =
      ['_', '_'] ++ mark.toList ++ ['_'] ++ spec.output.toList ++ ['_'] ++
        spec.arg.toList := by
    simp [helperName]
  have underscore : isNameChar '_' = true := by decide
  constructor
  · rw [cs]
    simp only [mem_append, mem_cons, not_mem_nil, or_false]
    rintro c ((((((rfl | rfl) | isMark) | rfl) | inOutput) | rfl) | inArg)
    · exact underscore
    · exact underscore
    · exact all_eq_true.mp markChars c isMark
    · exact underscore
    · exact out.2 c inOutput
    · exact underscore
    · exact isArg.2 c inArg
  · rw [cs]
    have outputLength := out.1
    have argLength := isArg.1
    simp only [length_append, length_cons, length_nil]
    omega

theorem legible_specCalls (told : Reported) (isCall : entry ∈ specCalls told.spec) :
    Legible entry.1 := by
  rcases told with ⟨measure, label⟩
  have out : IsName (Reported.spec ⟨measure, label⟩).output :=
    (Reported.output ⟨measure, label⟩).property
  cases measure with
  | rows =>
    simp only [specCalls, Reported.spec, Measure.function, SqlFunction.kind,
      mem_singleton] at isCall
    rw [isCall]
    exact legible_of_isName out
  | of fn col =>
    have isArg : IsName (Reported.spec ⟨.of fn col, label⟩).arg := col.property
    have isHelper : ∀ mark ∈ ["c", "s", "n", "m", "q"], Legible (helperName mark
          (Reported.spec ⟨.of fn col, label⟩)) := by
      intro mark mem
      simp only [mem_cons, not_mem_nil, or_false] at mem
      rcases mem with rfl | rfl | rfl | rfl | rfl <;>
        exact legible_helperName (by decide) (by decide) out isArg
    cases fn <;>
      simp only [specCalls, Reported.spec, Measure.function,
        SqlFunction.kind, mem_cons, not_mem_nil, or_false]
        at isCall <;>
      rcases isCall with rfl | rfl | rfl <;>
      first
        | exact legible_of_isName out
        | exact isHelper _ (by decide)

namespace PlainQuery

variable (plain : PlainQuery)

theorem legible_label (isEntry : entry ∈ selectList plain.plan) : Legible entry.1 := by
  rcases mem_append.mp isEntry with col | isCall
  · rw [columnItems_plan] at col
    rcases mem_map.mp col with ⟨key, isKey, rfl⟩
    exact legible_of_isName (plain.isName_of_mem_keyNames isKey)
  · rcases mem_flatMap.mp isCall with ⟨spec, isSpec, isItem⟩
    rcases mem_map.mp isSpec with ⟨told, _, rfl⟩
    rcases mem_map.mp isItem with ⟨call, inCalls, rfl⟩
    exact legible_specCalls told inCalls

theorem answerFields_plan : answerFields plain.plan = selectList plain.plan := by
  have unclipped : (selectList plain.plan).map (fun entry => (fieldName entry.1, entry.2)) =
        (selectList plain.plan).map id := by
    apply map_congr_left
    intro entry mem
    have legible := plain.legible_label mem
    rw [fieldName_eq_self legible.1 legible.2]
    rfl
  rw [answerFields, unclipped, map_id]

theorem runsOn_plan : runsOn (sourceOf plain.select) plain.plan = true := by
  have source : sourceOf plain.select = ⟨plain.table.val, none⟩ := by
    simp only [sourceOf, relationOf, aliasOf, sourceTable, PlainQuery.select, Ident.folded,
      Bool.false_eq_true, if_false, folded_name, Option.map_none]
  rw [runsOn, source]
  simp only [Bool.and_eq_true]
  refine ⟨⟨⟨beq_self_eq_true _, ?_⟩, ?_⟩, all_eq_true.mpr fun _ _ => rfl⟩
  · rw [all_eq_true]
    intro entry isEntry
    have chars := (plain.legible_label isEntry).1
    have noQuote : '"' ∉ entry.1.toList := by
      intro member
      exact absurd (chars '"' member) (by decide)
    simpa using noQuote
  · rw [all_eq_true]
    intro key member
    rw [qualifierOf_of_isName (plain.isName_of_mem_keyNames member)]
    rfl

variable {plain} (sole : Unshared plain.plan)
include sole

/-- Every label is read back as what it was written for. -/
theorem lastNamed_answerFields (entry : (label, item) ∈ selectList plain.plan) :
    lastNamed (answerFields plain.plan) label = some item := by
  rw [answerFields_plan]
  rcases exists_lastNamed_of_mem entry with ⟨last, isLast⟩
  have eq := sole.labels _ (mem_of_lastNamed isLast) _ entry rfl
  rw [isLast]
  exact congrArg some eq

theorem resolve_key (isKey : key ∈ plain.keyNames) :
    resolve plain.plan key = some (.column key) := by
  have entry : (key, Item.column key) ∈ selectList plain.plan := by
    apply mem_append_left
    rw [columnItems_plan]
    exact mem_map_of_mem isKey
  rw [resolve, lastNamed_answerFields sole entry, Option.some_or]

omit sole in
theorem output_ne_key {told : Reported} (isReported : told ∈ plain.reported)
    {key : String} (isKey : key ∈ plain.keyNames) :
    told.output.val ≠ key := by
  intro eq
  rcases mem_map.mp isKey with ⟨name, inKeys, rfl⟩
  rw [← plain.inOrder] at inKeys
  rcases mem_filterMap.mp inKeys with ⟨shownKey, inShown, isName⟩
  rcases mem_filterMap.mp isReported with ⟨shownAggregate, alsoShown, isAggregate⟩
  cases shownKey with
  | aggregate _ => cases isName
  | key shownName =>
    cases isName
    cases shownAggregate with
    | key _ => cases isAggregate
    | aggregate _ =>
      cases isAggregate
      have oneItem := inj_on_of_nodup_map plain.distinctOutputs alsoShown inShown (Subtype.ext eq)
      cases oneItem

omit sole in
theorem zip_append_self (names more : List String) :
    names.zip (names ++ more) = names.map fun name => (name, name) := by
  induction names with
  | nil => rfl
  | cons name names ih =>
    rw [cons_append, zip_cons_cons, ih, map_cons]

omit sole in
theorem shownKey_key (isKey : key ∈ plain.keyNames) : shownKey plain.plan key = some key := by
  have notAggregate : (plain.plan.aggregates.any fun spec =>
      spec.output = key) = false := by
    rw [any_eq_false]
    intro spec isSpec eq
    rcases mem_map.mp isSpec with ⟨told, isReported, rfl⟩
    exact output_ne_key isReported isKey (of_decide_eq_true eq)
  have fs : (keyOutputs plain.plan).zip (keyTexts plain.plan) =
      plain.keyNames.map fun key => (key, key) := by
    rw [keyOutputs, unprojected_eq_nil, append_nil, keyTexts]
    simp only [PlainQuery.plan, map_map]
    have outputs : plain.keyNames.map
        (Prod.snd ∘ fun key : String => (key, key)) = plain.keyNames :=
      map_id _
    rw [outputs]
    exact zip_append_self _ _
  rw [shownKey, notAggregate, fs]
  have isField : (key, key) ∈ plain.keyNames.map fun key => (key, key) := mem_map_of_mem isKey
  rcases exists_lastNamed_of_mem isField with ⟨last, isLast⟩
  rcases mem_map.mp (mem_of_lastNamed isLast) with ⟨name, _, eq⟩
  cases eq
  simpa using isLast

omit sole in
theorem projected_select : projected plain.select = plain.keyNames.map fun key => (key, key) := by
  have x : ∀ shown : Shown, projectedItem shown.item =
      shown.key?.map fun name => (name.val, name.val) := by
    intro shown
    cases shown with
    | key name =>
      have col : columnOf (bareColumn name.val).text = name.val := by
        rw [text_bareColumn, columnOf_of_isName name.property]
      simp only [Shown.item, bareColumn, projectedItem, Shown.key?, Option.map_some]
      exact congrArg (fun col => some (col, name.val)) col
    | aggregate told =>
      cases isAliased : told.aliasName <;>
        simp [Shown.item, isAliased, projectedItem, Shown.key?]
  rw [projected, PlainQuery.select, filterMap_map,
    PlainQuery.keyNames, ← plain.inOrder, map_filterMap,
    map_filterMap]
  apply filterMap_congr
  intro shown _
  rw [Function.comp_apply, x]
  cases shown.key? <;> rfl

/-- The keys of a plain query are read back as themselves. -/
theorem aligned_plan : Aligned plain.select plain.plan := by
  constructor
  · exact plain.runsOn_plan
  · intro key isKey called
    rw [resolve_key sole isKey]
    nofun
  · intro key isKey
    exact ⟨key, isKey, key, resolve_key sole isKey, rfl⟩
  · intro x isItem
    rw [projected_select] at isItem
    rcases mem_map.mp isItem with ⟨key, isKey, rfl⟩
    exact ⟨key, key, shownKey_key isKey, resolve_key sole isKey,
      columnOf_of_isName (plain.isName_of_mem_keyNames isKey)⟩

end PlainQuery

end StorageOrchestrator.Aggregate.Scope
