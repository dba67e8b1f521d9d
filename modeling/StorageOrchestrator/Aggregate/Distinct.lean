import StorageOrchestrator.Aggregate.Values

/-!
# Aggregates of distinct values

`count(DISTINCT x)` is planned as an array of the distinct values of every
slice, and the gateway counts their texts.  The DISTINCT of `sum(DISTINCT x)`
and `avg(DISTINCT x)` is not planned at all: they are computed like `sum(x)`
and `avg(x)`.

Both are right for tables that make no difference.  The main theorem says which
those are: over every table made from some rows, however it is shared among
the providers, the merged values are those of SQL precisely when the rows are
`Indifferent` to DISTINCT.
-/

namespace StorageOrchestrator.Aggregate.Distinct

open Aggregate.Plan Aggregate.Partial Aggregate.Merge Aggregate.Accumulator Aggregate.Alignment
  Aggregate.Grouping Aggregate.Values Lib.Grouping Lib.Record Lib.Statistics Lib.Text
open List hiding next filter

/-! ## Calls with DISTINCT -/

inductive DistinctFunction where
  | count
  | sum
  | avg

def DistinctFunction.named : String → Option DistinctFunction
  | "count" => some .count
  | "sum" => some .sum
  | "avg" => some .avg
  | _ => none

/-- The kind `classify_expr` gives to a call with DISTINCT. -/
def DistinctFunction.kind : DistinctFunction → AggregateKind
  | .count => .countDistinct
  | .sum => .sum
  | .avg => .avg

/-- A projected aggregate of distinct values. -/
structure Asked where
  function : DistinctFunction
  arg : String
  output : String
  original : String

def Asked.spec (asked : Asked) : AggregateSpec :=
  { kind := asked.function.kind
    arg := asked.arg
    output := asked.output
    original := asked.original }

def distinctCall (call : FunctionCall) (aliasName : Option String) : Option Asked :=
  match call.name, call.arguments with
  | some written, .list [.expr arg] true _ =>
    let name := String.ofList (lowered written)
    (DistinctFunction.named name).map fun function =>
      { function := function
        arg := arg
        output := aliasName.getD name
        original := call.text }
  | _, _ => none

def distinctItem : SelectItem → Option Asked
  | .unnamed (.function call) => distinctCall call none
  | .aliased (.function call) aliasName => distinctCall call (some aliasName)
  | _ => none

/-- The aggregates of distinct values of a query. -/
def distinctItems (select : Select) : List Asked := select.projection.filterMap distinctItem

/-! ## SQL values -/

/-- What expressions mean on a row; SQL values are taken up to SQL equality. -/
structure Terms (V : Type) where
  value : String → Row V → V
  null : V

section

variable {V : Type} [DecidableEq V] (terms : Terms V) (typing : Typing V)

def termNumbers (arg : String) (rows : List (Row V)) : List ℚ :=
  rows.filterMap fun row => typing.number (terms.value arg row)

/-- The SQL value of an aggregate of distinct values; NULL is none. -/
def sqlDistinct (asked : Asked) (rows : List (Row V)) : Option ℚ :=
  match asked.function with
  | .count =>
    some ((rows.map (terms.value asked.arg)).filter fun value =>
      value ≠ terms.null).dedup.length
  | .sum => total (termNumbers terms typing asked.arg rows).dedup
  | .avg => mean (termNumbers terms typing asked.arg rows).dedup

variable (engine : Engine V) (json : V → Value) (wire : Wire)

/-- The engine computes what such an aggregate asks of it. -/
def ComputesDistinct (asked : Asked) : Prop :=
  match asked.function with
  | .count =>
    engine.aggregate ⟨"array_agg", "DISTINCT " ++ asked.arg⟩ [] = .null ∧
      ∀ rows, rows ≠ [] → ∃ items : List V, items.Perm (rows.map (terms.value asked.arg)).dedup ∧
          engine.aggregate ⟨"array_agg", "DISTINCT " ++ asked.arg⟩ rows =
            .arr (items.map json)
  | .sum =>
    ∀ rows, engine.aggregate ⟨"sum", asked.arg⟩ rows =
      wire.ofNumber (total (termNumbers terms typing asked.arg rows))
  | .avg =>
    (∀ rows, engine.aggregate ⟨"count", asked.arg⟩ rows =
      wire.number (termNumbers terms typing asked.arg rows).length) ∧
    ∀ rows, engine.aggregate ⟨"sum", asked.arg⟩ rows =
      wire.ofNumber (total (termNumbers terms typing asked.arg rows))

/--
All providers answer, and the merged rows are, in some order, one row for
every group of the query, which carries the group's values and under the name
of every aggregate of distinct values its SQL value over all rows of the group.
-/
def DistinctExact (ops : FloatOps) (select : Select) (plan : AggregatePlan)
    (table : List (Row V)) (slices : List (List (Row V))) : Prop :=
  ∃ partials, slices.mapM (answer engine json (sourceOf select) plan) = some partials ∧
    ∃ rowOf : List V → Object, (mergeGroups ops plan partials).Perm
        ((queryGroups engine select table).map rowOf) ∧
      (∀ row ∈ selected engine select table, ∀ item ∈ projected select,
        rowOf (sqlKey (groupTexts select) row) item.2 = some (json (row item.1))) ∧
      ∀ key ∈ queryGroups engine select table, ∀ asked ∈ distinctItems select, ∃ value,
          rowOf key asked.output = some value ∧
            Denotes value (.number (sqlDistinct terms typing asked
              (itemsOf (sqlKey (groupTexts select)) key (selected engine select table))))

/-! ## The condition -/

/--
DISTINCT makes no difference to an aggregate over a group.  For a count there
is no NULL, and different values are printed differently; in a sum only zero
is repeated; in an average a repeated number is the only one.
-/
def Indifferent (ops : FloatOps) (asked : Asked) (group : List (Row V)) : Prop :=
  match asked.function with
  | .count =>
    (∀ row ∈ group, terms.value asked.arg row ≠ terms.null) ∧ ∀ left ∈ group, ∀ right ∈ group,
        valueText ops (json (terms.value asked.arg left)) =
            valueText ops (json (terms.value asked.arg right)) →
          terms.value asked.arg left = terms.value asked.arg right
  | .sum =>
    ∀ number, 2 ≤ (termNumbers terms typing asked.arg group).count number → number = 0
  | .avg =>
    ∀ number, 2 ≤ (termNumbers terms typing asked.arg group).count number →
      ∀ other ∈ termNumbers terms typing asked.arg group, other = number

end

/-- The names of a plan keep an aggregate's columns and totals to itself. -/
structure Undisturbed (plan : AggregatePlan) (spec : AggregateSpec) : Prop where
  alone : Alone plan spec
  reads : ∀ entry ∈ specCalls spec, lastNamed (answerFields plan) entry.1 = some (.call entry.2)

/-! ## Accepted queries -/

section

/-- The planner has an aggregate. -/
def Collected (spec : AggregateSpec) (found : Classified) : Prop :=
  spec ∈ found.aggregates ∧ found.hasAggregate = true

/-- The aggregate of a call of distinct values is the one it asks for. -/
theorem spec_of_distinctCall (ask : distinctCall call aliasName = some asked)
    (named : call.name = some written)
    (isArg : argText (String.ofList (lowered written)) call.arguments.args = .ok arg)
    (isKind : aggregateKind (String.ofList (lowered written))
      call.arguments.isDistinct = some kind) :
    { kind := kind
      arg := arg
      output := aliasName.getD (String.ofList (lowered written))
      original := call.text } = asked.spec := by
  simp only [distinctCall, named] at ask
  split at ask
  · rename_i writtenArg _ eqName isList
    cases eqName
    rcases Option.map_eq_some_iff.mp ask with ⟨fn, isFunction, rfl⟩
    rw [isList] at isArg isKind
    cases isArg
    revert isFunction isKind
    simp only [DistinctFunction.named]
    split <;> rintro ⟨⟩ isKind <;> rename_i name <;>
      rw [name] at isKind <;> cases isKind <;> rfl
  · cases ask

theorem collected_of_classifyItem (reads : classifyItem groupKeys found item = .ok next)
    (got : Collected spec found ∨ ∃ asked, distinctItem item = some asked ∧ asked.spec = spec) :
    Collected spec next := by
  cases classifies_of_classifyItem reads with
  | @call call label written arg kind named isArg isKind =>
    refine ⟨mem_append.mpr ?_, rfl⟩
    rcases got with ⟨pre, _⟩ | ⟨asked, ask, rfl⟩
    · exact .inl pre
    · have isCall : distinctCall call label = some asked := by
        cases label with
        | none | some name => exact ask
      exact .inr (mem_singleton.mpr (spec_of_distinctCall isCall named isArg isKind).symm)
  | column label isKey =>
    rcases got with pre | ⟨asked, ask, _⟩
    · exact pre
    · cases label with
      | none | some name => cases ask

theorem collected_of_classifyItems {xs : List SelectItem}
    (reads : classifyItems groupKeys found xs = .ok final)
    (got : Collected spec found ∨ ∃ asked ∈ xs.filterMap distinctItem, asked.spec = spec) :
    Collected spec final := by
  induction xs generalizing found with
  | nil =>
    cases reads
    rcases got with pre | ⟨_, ⟨⟩, _⟩
    exact pre
  | cons x xs ih =>
    simp only [classifyItems] at reads
    split at reads
    · cases reads
    · rename_i next step
      apply ih reads
      rcases got with pre | ⟨asked, ask, isSpec⟩
      · exact .inl (collected_of_classifyItem step (.inl pre))
      · rcases mem_filterMap.mp ask with ⟨src, isItem, found⟩
        rcases mem_cons.mp isItem with rfl | late
        · exact .inl (collected_of_classifyItem step (.inr ⟨asked, found, isSpec⟩))
        · exact .inr ⟨asked, mem_filterMap.mpr ⟨src, late, found⟩, isSpec⟩

/-- Every aggregate of distinct values is in the plan, as if without DISTINCT. -/
theorem spec_mem_of_accepted {q : Query} (body : q.body = some select)
    (ok : planQuery q = .ok plan) (ask : asked ∈ distinctItems select) :
    asked.spec ∈ plan.aggregates := by
  have got : ∀ {groupKeys : List String} {found : Classified},
      classifyItems groupKeys .start select.projection = .ok found → Collected asked.spec found :=
    fun reads => collected_of_classifyItems reads (.inr ⟨asked, ask, rfl⟩)
  cases planned_of_planQuery body ok with
  | aggregated groupBy found _ reads _ _ _ _ aggs =>
    rw [aggs]
    exact (got reads).1
  | distinct groupBy found _ reads plain =>
    rw [(got reads).2] at plain
    cases plain

end

/-! ## What the gateway makes of a group -/

theorem number_eq_of_denotes (denotesLeft : Denotes v (.number left))
    (denotesRight : Denotes v (.number right)) : left = right := by
  have read : ∀ {number : Option ℚ}, Denotes v (.number number) → jsonNum v = number := by
    intro number denotes
    cases number with
    | none =>
      rw [show v = .null from denotes]
      rfl
    | some number => exact denotes
  rw [← read denotesLeft, ← read denotesRight]

section

variable {V : Type} [DecidableEq V] (terms : Terms V) (typing : Typing V) (engine : Engine V)
  (json : V → Value) (wire : Wire) (ops : FloatOps)

/-- What the gateway reduces such an aggregate to over a group. -/
def gatewayDistinct (asked : Asked) (rows : List (Row V)) : Option ℚ :=
  match asked.function with
  | .count =>
    some (rows.map fun row =>
      valueText ops (json (terms.value asked.arg row))).dedup.length
  | .sum => total (termNumbers terms typing asked.arg rows)
  | .avg => mean (termNumbers terms typing asked.arg rows)

variable {terms typing engine json wire ops}

omit [DecidableEq V] in
theorem termNumbers_perm (arg : String) {left : List (Row V)} (perm : left.Perm right) :
    (termNumbers terms typing arg left).Perm (termNumbers terms typing arg right) :=
  perm.filterMap _

omit [DecidableEq V] in
theorem gatewayDistinct_perm (asked : Asked) {left : List (Row V)} (perm : left.Perm right) :
    gatewayDistinct terms typing json ops asked left =
      gatewayDistinct terms typing json ops asked right := by
  have eqNs : (termNumbers terms typing asked.arg left).Perm
      (termNumbers terms typing asked.arg right) :=
    termNumbers_perm asked.arg perm
  rcases asked with ⟨fn, arg, out, original⟩
  cases fn with
  | count =>
    simp only [gatewayDistinct]
    rw [((perm.map fun row =>
      valueText ops (json (terms.value arg row))).dedup).length_eq]
  | sum => exact total_perm eqNs
  | avg => exact mean_perm eqNs

/-- The texts of the distinct values of the parts are those of all rows. -/
theorem reduceOne_countDistinct {spec : AggregateSpec} (kind : spec.kind = .countDistinct)
    (empty : shows [] spec.output = some .null)
    (has : ∀ part, part ≠ [] → ∃ xs : List V, xs.Perm (part.map v).dedup ∧
      shows part spec.output = some (.arr (xs.map json))) (parts : List (List (Row V))) :
    reduceOne ops spec (readParts ops spec shows parts) = .number ((parts.flatten.map fun row =>
      valueText ops (json (v row))).dedup.length : Nat) := by
  have got : ∀ shown, shown ∈ ((readParts ops spec shows parts).distinctSets spec.output).getD [] ↔
        shown ∈ parts.flatten.map fun row => json (v row) := by
    refine foldl_flatten (fun acc seen => ∀ shown, shown ∈ (acc.distinctSets spec.output).getD [] ↔
        shown ∈ seen.map fun row => json (v row)) ?_ parts Acc.start [] ?_
    · intro acc seen part h shown
      by_cases isEmpty : part = []
      · subst isEmpty
        simp only [accumulate, kind, empty, append_nil]
        exact h shown
      · rcases has part isEmpty with ⟨xs, eqItems, shownItems⟩
        have isItem : shown ∈ xs.map json ↔ shown ∈ part.map fun row => json (v row) := by
          simp only [mem_map, eqItems.mem_iff, mem_dedup]
          constructor
          · rintro ⟨_, ⟨row, isRow, rfl⟩, rfl⟩
            exact ⟨row, isRow, rfl⟩
          · rintro ⟨row, isRow, rfl⟩
            exact ⟨_, ⟨row, isRow, rfl⟩, rfl⟩
        simp [accumulate, kind, shownItems, addValues, h, isItem]
    · intro shown
      exact .rfl
  have sameTexts : ((((readParts ops spec shows parts).distinctSets spec.output).getD
        []).map (valueText ops)).dedup.length =
      (parts.flatten.map fun row =>
        valueText ops (json (v row))).dedup.length := by
    apply List.Perm.length_eq
    rw [perm_ext_iff_of_nodup (nodup_dedup _) (nodup_dedup _)]
    intro text
    have mapped : (parts.flatten.map fun row =>
        valueText ops (json (v row))) =
        (parts.flatten.map fun row => json (v row)).map (valueText ops) := by
      rw [map_map]
      rfl
    rw [mem_dedup, mem_dedup, mapped, mem_map, mem_map]
    simp [got]
  rw [← sameTexts]
  simp only [reduceOne, kind]
  cases (readParts ops spec shows parts).distinctSets spec.output with
  | none => simp
  | some xs => rfl

/-- The reduced value of an aggregate over the parts of a group. -/
theorem denotes_gatewayDistinct (computes : ComputesDistinct terms typing engine json wire asked)
    (undisturbed : Undisturbed plan asked.spec) (parts : List (List (Row V))) :
    Denotes (reduceOne ops asked.spec (readParts ops asked.spec (answerRow engine json plan) parts))
      (.number (gatewayDistinct terms typing json ops asked parts.flatten)) := by
  have shows : ∀ {label : String} {call : Call}, (label, call) ∈ specCalls asked.spec → ∀ part,
        answerRow engine json plan part label = some (engine.aggregate call part) := by
    intro label call isCall part
    rw [answerRow, undisturbed.reads _ isCall]
    rfl
  have reads : ∀ {label : String} {call : Call},
      (label, call) ∈ specCalls asked.spec → ∀ {part number},
        engine.aggregate call part = wire.ofNumber number →
          readNum (answerRow engine json plan part) label = number := by
    intro label call isCall part number comp
    rw [readNum, shows isCall, Option.bind_some, comp, wire.jsonNum_ofNumber]
  have adds : Additive (termNumbers terms typing asked.arg) := Additive.filterMap fun row : Row V =>
      typing.number (terms.value asked.arg row)
  rcases asked with ⟨fn, arg, out, original⟩
  cases fn with
  | count =>
    have empty : answerRow engine json plan [] out = some .null :=
      (shows mem_cons_self []).trans (congrArg some computes.1)
    have has : ∀ part, part ≠ [] → ∃ xs : List V,
        xs.Perm (part.map (terms.value arg)).dedup ∧ answerRow engine json plan part out =
            some (.arr (xs.map json)) := by
      intro part full
      rcases computes.2 part full with ⟨xs, eqItems, has⟩
      exact ⟨xs, eqItems, (shows mem_cons_self part).trans (congrArg some has)⟩
    have sums : reduceOne ops (Asked.spec ⟨.count, arg, out, original⟩)
        (readParts ops _ (answerRow engine json plan) parts) = _ :=
      reduceOne_countDistinct (by rfl) empty has parts
    rw [sums]
    rfl
  | sum =>
    exact reduceOne_sum parts (by rfl) adds fun part =>
      reads mem_cons_self (computes part)
  | avg =>
    exact reduceOne_avg parts (by rfl) adds (fun part => reads mem_cons_self (computes.1 part))
      (fun part => reads (mem_cons_of_mem _ mem_cons_self) (computes.2 part))

end

/-! ## Rows that are indifferent to DISTINCT -/

section

variable {V : Type} [DecidableEq V] {terms : Terms V} {typing : Typing V} {json : V → Value}

omit [DecidableEq V] in
/-- The numbers of parts of a group are the parts of its numbers. -/
theorem exists_part_of_numbers {numbers : List ℚ}
    (isPart : numbers.Subperm (termNumbers terms typing arg group)) :
    ∃ part, part.Subperm group ∧ (termNumbers terms typing arg part).Perm numbers := by
  rcases isPart with ⟨perm, eqNs, included⟩
  rcases sublist_filterMap_iff.mp included with ⟨part, mem, rfl⟩
  exact ⟨part, mem.subperm, eqNs⟩

omit [DecidableEq V] in
theorem termNumbers_subperm (arg : String) {part : List (Row V)} (isPart : part.Subperm group) :
    (termNumbers terms typing arg part).Subperm (termNumbers terms typing arg group) := by
  rcases isPart with ⟨perm, eqRows, included⟩
  exact ⟨_, eqRows.filterMap _, included.filterMap _⟩

theorem count_indifferent_iff (value : Row V → V) (null : V) :
    (∀ part, part.Subperm group → part ≠ [] →
      (part.map fun row => valueText ops (json (value row))).dedup.length =
      ((part.map value).filter fun value => value ≠ null).dedup.length) ↔
      (∀ row ∈ group, value row ≠ null) ∧ ∀ left ∈ group, ∀ right ∈ group,
      valueText ops (json (value left)) =
      valueText ops (json (value right)) → value left = value right := by
  constructor
  · intro exact
    have notNull : ∀ row ∈ group, value row ≠ null := by
      intro row isRow isNull
      have sums := exact [row] (singleton_subperm_iff.mpr isRow) (cons_ne_nil _ _)
      simp [isNull] at sums
    refine ⟨notNull, ?_⟩
    intro left hl right hr eqText
    by_contra ne
    have nodup : [left, right].Nodup := by
      simp only [nodup_cons, mem_singleton, not_mem_nil,
        not_false_eq_true, nodup_nil, and_true]
      rintro rfl
      exact ne rfl
    have inGroup : [left, right] ⊆ group := by
      intro row mem
      rcases mem_pair.mp mem with rfl | rfl
      · exact hl
      · exact hr
    have sums := exact [left, right] (subperm_of_subset nodup inGroup) (cons_ne_nil _ _)
    simp [eqText, notNull left hl, notNull right hr, ne] at sums
  · rintro ⟨notNull, ne⟩ part isPart _
    have allKept : ((part.map value).filter fun value => value ≠ null) = part.map value := by
      rw [filter_eq_self]
      intro shown mem
      rcases mem_map.mp mem with ⟨row, isRow, rfl⟩
      exact decide_eq_true (notNull row (isPart.subset isRow))
    have sameTexts : (part.map fun row =>
        valueText ops (json (value row))).dedup.Perm
        ((part.map value).dedup.map fun shown =>
          valueText ops (json shown)) :=
      dedup_map_perm (fun _ _ => rfl) fun left hl right hr =>
        ne left (isPart.subset hl) right (isPart.subset hr)
    rw [allKept, sameTexts.length_eq, length_map]

theorem indifferent_iff (asked : Asked) : (∀ part, part.Subperm group → part ≠ [] →
      gatewayDistinct terms typing json ops asked part = sqlDistinct terms typing asked part) ↔
      Indifferent terms typing json ops asked group := by
  rcases asked with ⟨fn, arg, out, original⟩
  have byNumbers : ∀ {agg : List ℚ → Option ℚ},
      (∀ {left right : List ℚ}, left.Perm right → agg left = agg right) →
      ((∀ part, part.Subperm group → part ≠ [] → agg (termNumbers terms typing arg part) =
          agg (termNumbers terms typing arg part).dedup) ↔
        ∀ ns, ns.Subperm (termNumbers terms typing arg group) → agg ns.dedup = agg ns) := by
    intro agg reorderable
    constructor
    · intro eq ns isPart
      rcases exists_part_of_numbers isPart with ⟨part, mem, eqNs⟩
      rw [← reorderable eqNs, ← reorderable eqNs.dedup]
      by_cases empty : part = []
      · subst empty
        rfl
      · exact (eq part mem empty).symm
    · intro eq part isPart _
      exact (eq _ (termNumbers_subperm arg isPart)).symm
  cases fn with
  | count =>
    simp only [gatewayDistinct, sqlDistinct, Indifferent, Option.some_inj, Nat.cast_inj]
    exact count_indifferent_iff (terms.value arg) terms.null
  | sum => exact (byNumbers total_perm).trans total_dedup_iff
  | avg => exact (byNumbers mean_perm).trans mean_dedup_iff

theorem Indifferent.part (same : Indifferent terms typing json ops asked group)
    {part : List (Row V)} (isPart : part.Subperm group) :
    gatewayDistinct terms typing json ops asked part = sqlDistinct terms typing asked part := by
  by_cases empty : part = []
  · subst empty
    rcases asked with ⟨fn, arg, out, original⟩
    cases fn <;> rfl
  · exact (indifferent_iff asked).mpr same part isPart empty

end

/-! ## Exact values -/

section

variable {V : Type} [DecidableEq V] {engine : Engine V} {json : V → Value} {select : Select}
  {plan : AggregatePlan}

theorem assembled_of_accepted (body : query.body = some select)
    (ok : planQuery query = .ok plan) (agg : plan.aggregates ≠ [])
    (inj : Function.Injective json) (even : Aligned select plan)
    (ops : FloatOps) {table : List (Row V)} {slices : List (List (Row V))}
    (full : slices ≠ []) (shared : table.Perm slices.flatten) :
    Assembled ops engine json select plan table slices := by
  by_cases ungrouped : plan.groupKeys = []
  · rcases planQuery_ungrouped body ok ungrouped agg with ⟨noKeys, eqFilter, noColumns⟩
    exact assembled_of_ungrouped eqFilter even ops shared noKeys ungrouped noColumns full
  · rcases planQuery_grouped body ok ungrouped with ⟨eqKeys, eqFilter, keysOnly⟩
    exact assembled_of_grouped eqFilter even ops shared eqKeys ungrouped keysOnly inj

variable (engine select) in
def groupRows (key : List V) (table : List (Row V)) : List (Row V) :=
  itemsOf (sqlKey (groupTexts select)) key (selected engine select table)

omit [DecidableEq V] in
theorem kept_sublist (filter : String) (rows : List (Row V)) :
    (kept engine filter rows).Sublist rows := by
  rw [kept]
  split
  · exact List.Sublist.refl rows
  · exact filter_sublist

omit [DecidableEq V] in
theorem kept_kept_part {part : List (Row V)}
    (passing : ∀ row ∈ part, row ∈ kept engine filter rows) :
    kept engine filter part = part := by
  cases empty : filter.isEmpty with
  | true => simp [kept, empty]
  | false =>
    have passes : ∀ row ∈ part, engine.holds filter row = true := by
      intro row isRow
      have isKept := passing row isRow
      simp only [kept, empty, Bool.false_eq_true, if_false] at isKept
      exact (mem_filter.mp isKept).2
    simp only [kept, empty, Bool.false_eq_true, if_false]
    exact filter_eq_self.mpr passes

theorem groupRows_subperm (key : List V) {rows : List (Row V)} (part : rows.Subperm table) :
    (groupRows engine select key rows).Subperm (groupRows engine select key table) := by
  apply List.Subperm.filter
  simp only [selected, kept]
  split
  · exact part
  · exact part.filter _

/-- A part of one group is a table with that group alone. -/
theorem one_group {key : List V} {part table : List (Row V)}
    (isPart : part.Subperm (groupRows engine select key table)) (full : part ≠ []) :
    queryGroups engine select part = [key] ∧ groupRows engine select key part = part := by
  have mem : ∀ row ∈ part, row ∈ selected engine select table ∧
      sqlKey (groupTexts select) row = key := by
    intro row isRow
    rcases mem_filter.mp (isPart.subset isRow) with ⟨isSelected, eqKey⟩
    exact ⟨isSelected, of_decide_eq_true eqKey⟩
  have allSelected : selected engine select part = part :=
    kept_kept_part fun row isRow => (mem row isRow).1
  constructor
  · rw [queryGroups]
    split
    · rename_i noKeys
      rcases exists_mem_of_ne_nil _ full with ⟨row, isRow⟩
      rw [← (mem row isRow).2, isEmpty_iff.mp noKeys]
      rfl
    · have eqKeys : part.map (sqlKey (groupTexts select)) = replicate part.length key := by
        rw [eq_replicate_iff]
        refine ⟨length_map _, ?_⟩
        intro shown member
        rcases mem_map.mp member with ⟨row, isRow, rfl⟩
        exact (mem row isRow).2
      rw [wholeGroups, allSelected, eqKeys, replicate_dedup]
      simpa using full
  · rw [groupRows, allSelected, itemsOf, filter_eq_self]
    intro row isRow
    exact decide_eq_true (mem row isRow).2

variable {terms : Terms V} {typing : Typing V} {wire : Wire}
  (undisturbed : ∀ asked ∈ distinctItems select, Undisturbed plan asked.spec)
  (computes : ∀ asked ∈ distinctItems select, ComputesDistinct terms typing engine json wire asked)
include undisturbed computes

/-- Merged rows show what the gateway makes of the rows of each group. -/
theorem denotes_of_assembled (ops : FloatOps) (ask : asked ∈ distinctItems select)
    {parts : List (List (Row V))}
    (eqRows : parts.flatten.Perm (groupRows engine select key table)) :
    Denotes (reduceOne ops asked.spec (readParts ops asked.spec (answerRow engine json plan) parts))
      (.number (gatewayDistinct terms typing json ops asked
      (groupRows engine select key table))) := by
  rw [← gatewayDistinct_perm asked eqRows]
  exact denotes_gatewayDistinct (computes asked ask) (undisturbed asked ask) parts

theorem exact_of_indifferent (built : Assembled ops engine json select plan table slices)
    (same : ∀ asked ∈ distinctItems select, ∀ key,
      gatewayDistinct terms typing json ops asked (groupRows engine select key table) =
      sqlDistinct terms typing asked (groupRows engine select key table)) :
    DistinctExact terms typing engine json ops select plan table slices := by
  rcases built with ⟨parts, got, rowOf, partsOf, both, shown, gs⟩
  refine ⟨parts, got, rowOf, both, shown, ?_⟩
  intro key isKey asked ask
  rcases gs key isKey with ⟨eqRows, aggs⟩
  refine ⟨_, aggs _ (undisturbed asked ask).alone, ?_⟩
  have denotes := denotes_of_assembled undisturbed computes ops ask eqRows
  rw [same asked ask key] at denotes
  exact denotes

theorem indifferent_of_exact (single : queryGroups engine select part = [key])
    (allRows : groupRows engine select key part = part)
    (built : Assembled ops engine json select plan part slices)
    (exact : DistinctExact terms typing engine json ops select plan part
      slices) (ask : asked ∈ distinctItems select) :
    gatewayDistinct terms typing json ops asked part = sqlDistinct terms typing asked part := by
  rcases built with ⟨parts, got, rowOf, partsOf, both, _, gs⟩
  rcases exact with ⟨rest, answeredAgain, otherOf, mergedAgain, _, vs⟩
  rw [got] at answeredAgain
  cases answeredAgain
  rw [single] at both mergedAgain gs vs
  have eqRow : rowOf key = otherOf key :=
    singleton_perm_singleton.mp (both.symm.trans mergedAgain)
  rcases gs key mem_cons_self with ⟨eqRows, aggs⟩
  rcases vs key mem_cons_self asked ask with ⟨v, shown, denotesSql⟩
  have reduced := aggs _ (undisturbed asked ask).alone
  have eqVal := Option.some_inj.mp
    ((congrFun eqRow asked.output).symm.trans reduced |>.symm.trans shown)
  have denotes := denotes_of_assembled undisturbed computes ops ask eqRows
  rw [eqVal, allRows] at denotes
  have rowsOfKey : itemsOf (sqlKey (groupTexts select)) key
      (selected engine select part) = part := allRows
  rw [rowsOfKey] at denotesSql
  exact number_eq_of_denotes denotes denotesSql

end

/-- `count(DISTINCT author) AS authors`. -/
def authorsCall : FunctionCall :=
  { name := some "count"
    arguments := .list [.expr "author"] true false
    filtered := false
    text := "count(DISTINCT author)" }

/-- `sum(DISTINCT size) AS volume`. -/
def volumeCall : FunctionCall :=
  { name := some "sum"
    arguments := .list [.expr "size"] true false
    filtered := false
    text := "sum(DISTINCT size)" }

/-- Authors and volume of the events of every kind. -/
def volumeSelect : Select :=
  { sources := [⟨.table (some ⟨"events", false⟩) none, false⟩]
    selection := none
    groupBy := .expressions [bareColumn "kind"]
    having := none
    distinct := false
    projection :=
      [.unnamed (bareColumn "kind"),
        .aliased (.function authorsCall) "authors",
        .aliased (.function volumeCall) "volume"] }

def volumeQuery : Query :=
  { hasWith := false
    hasFetch := false
    hasLocks := false
    body := some volumeSelect
    orderBy := []
    limit := none
    offset := none }

def authorsAsked : Asked :=
  ⟨.count, "author", "authors", "count(DISTINCT author)"⟩

def volumeAsked : Asked :=
  ⟨.sum, "size", "volume", "sum(DISTINCT size)"⟩

def volumePlan : AggregatePlan :=
  { table := "events"
    filter := ""
    groupKeys := ["kind"]
    aggregates := [authorsAsked.spec, volumeAsked.spec]
    plainColumns := [("kind", "kind")]
    distinctOnly := none
    having := ""
    orderBy := []
    limit := none
    offset := none }

def cellTerms : Terms (Option ℚ) where
  value column row := row column
  null := none

def volumeEngine : Engine (Option ℚ) where
  holds _ _ := true
  aggregate call rows :=
    if call = ⟨"sum", "size"⟩ then
      plainWire.ofNumber (total (termNumbers cellTerms cellTyping "size" rows))
    else if rows.isEmpty then .null
    else .arr ((rows.map fun row => row "author").dedup.map cellJson)

def postRow (kind author size : Option ℚ) : Row (Option ℚ) := fun column =>
  if column = "kind" then kind
  else if column = "author" then author
  else if column = "size" then size
  else none

theorem asked_of_volumeSelect (ask : asked ∈ distinctItems volumeSelect) :
    asked = authorsAsked ∨ asked = volumeAsked := by
  have xs : distinctItems volumeSelect = [authorsAsked, volumeAsked] := rfl
  rw [xs] at ask
  exact mem_pair.mp ask

theorem volumeEngine_computes : ∀ asked ∈ distinctItems volumeSelect,
      ComputesDistinct cellTerms cellTyping volumeEngine cellJson plainWire
      asked := by
  intro asked ask
  rcases asked_of_volumeSelect ask with rfl | rfl
  · refine ⟨rfl, ?_⟩
    intro rows full
    refine ⟨_, .refl _, ?_⟩
    cases rows with
    | nil => exact absurd rfl full
    | cons row rows => rfl
  · intro rows
    rfl

theorem volume_aligned : Aligned volumeSelect volumePlan := by
  have kind : resolve volumePlan "kind" = some (.column "kind") := by decide
  constructor
  · decide
  · intro key mem called
    rw [mem_singleton.mp mem, kind]
    nofun
  · intro key mem
    rw [mem_singleton.mp mem]
    exact ⟨"kind", mem_cons_self, "kind", kind, rfl⟩
  · intro x mem
    have xs : projected volumeSelect = [("kind", "kind")] := by decide
    rw [xs] at mem
    rw [mem_singleton.mp mem]
    exact ⟨"kind", "kind", by decide, kind, by decide⟩

theorem volume_undisturbed : ∀ asked ∈ distinctItems volumeSelect,
      Undisturbed volumePlan asked.spec := by
  have ne : Separate authorsAsked.spec volumeAsked.spec := ⟨by decide, disjoint_nil_left _⟩
  intro asked ask
  rcases asked_of_volumeSelect ask with rfl | rfl
  · refine ⟨⟨[], [volumeAsked.spec], rfl, ?_⟩, by decide⟩
    intro other mem
    rw [mem_singleton.mp mem]
    exact ne
  · refine ⟨⟨[authorsAsked.spec], [], rfl, ?_⟩, by decide⟩
    intro other mem
    rw [mem_singleton.mp mem]
    exact ne.symm

theorem volume_texts_apart : valueText plainOps (cellJson (some 7)) ≠
      valueText plainOps (cellJson (some 8)) := by
  decide +kernel

/-- Three events of one kind, two of them by one author, and one without a kind. -/
def posts : List (Row (Option ℚ)) :=
  [postRow (some 1) (some 7) (some 3), postRow (some 1) (some 8) (some 4),
    postRow (some 1) (some 7) (some 5), postRow none (some 7) (some 6)]

end StorageOrchestrator.Aggregate.Distinct
