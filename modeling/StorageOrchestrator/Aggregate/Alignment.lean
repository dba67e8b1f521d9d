import StorageOrchestrator.Aggregate.Merge

/-!
# Names that lead back to the group columns

The gateway recovers the groups of a query from the answered rows: it looks
the text of every GROUP BY key up among the fields of a row, and shows the key
values again by position.  Both go by names that the partial query chose
differently, so whether the groups come out right is a matter of the names of
the query alone.  `Aligned` is that matter as a check of a query and its plan.

The rest of the module says what the providers' answers are to the gateway:
one row for every group of every slice, and under `Aligned` the key of such a
row is one to one with the group.
-/

namespace StorageOrchestrator.Aggregate.Alignment

open Aggregate.Plan Aggregate.Partial Aggregate.Merge Lib.Grouping Lib.Record Lib.Text List

/-! ## The query itself -/

def groupTexts (select : Select) : List String :=
  match select.groupBy with
  | .expressions items => items.map Expr.text
  | .all => []

/-- The WHERE text; empty when there is none. -/
def filterText (select : Select) : String :=
  select.selection.getD ""

/-- The relation a query reads. -/
def relationOf (select : Select) : String :=
  match sourceTable select with
  | .ok table => table.folded
  | .error _ => ""

/-- The alias of that relation in the query. -/
def aliasOf (select : Select) : Option String :=
  match select.sources with
  | [⟨.table _ aliasName, _⟩] => aliasName.map Ident.folded
  | _ => none

/-- The relation a query reads, with its alias. -/
def sourceOf (select : Select) : Source := ⟨relationOf select, aliasOf select⟩

/-- A projected column, with its output name. -/
def projectedItem : SelectItem → Option (String × String)
  | .unnamed (.column ref) => some (columnOf ref.text, ref.name.value)
  | .aliased (.column ref) aliasName => some (columnOf ref.text, aliasName)
  | _ => none

def projected (select : Select) : List (String × String) :=
  select.projection.filterMap projectedItem

section

variable {V : Type} [DecidableEq V]

/-- The rows of a table that the query reads. -/
def selected (engine : Engine V) (select : Select) (table : List (Row V)) : List (Row V) :=
  kept engine (filterText select) table

/-- The groups of a query over a whole table. -/
def wholeGroups (engine : Engine V) (select : Select) (table : List (Row V)) : List (List V) :=
  ((selected engine select table).map (sqlKey (groupTexts select))).dedup

/--
All providers answer, and the merged rows are, in some order, one row for
every group of the query, with the group's values under the output names of
the projected columns.
-/
def Exact (ops : FloatOps) (engine : Engine V) (json : V → Value)
    (select : Select) (plan : AggregatePlan) (table : List (Row V))
    (slices : List (List (Row V))) : Prop :=
  ∃ partials, slices.mapM (answer engine json (sourceOf select) plan) = some partials ∧
    ∃ rowOf : List V → Object, (mergeGroups ops plan partials).Perm
        ((wholeGroups engine select table).map rowOf) ∧
      ∀ row ∈ selected engine select table, ∀ item ∈ projected select,
        rowOf (sqlKey (groupTexts select) row) item.2 = some (json (row item.1))

end

/-! ## What the gateway makes of the names -/

/-- The expression whose value the gateway takes for a key text. -/
def resolve (plan : AggregatePlan) (text : String) : Option Item :=
  (lastNamed (answerFields plan) text).or (lastNamed (answerFields plan) (lastSegment text))

/--
The key text whose value a merged row shows under a name; there is none when
an aggregate has the name.
-/
def shownKey (plan : AggregatePlan) (name : String) : Option String :=
  if plan.aggregates.any fun spec => spec.output = name then none
  else lastNamed ((keyOutputs plan).zip (keyTexts plan)) name

/-- Some key leads the gateway to the column of the key. -/
def Found (plan : AggregatePlan) (key : String) : Prop :=
  ∃ other ∈ plan.groupKeys, ∃ text, resolve plan other = some (.column text) ∧
    columnOf text = columnOf key

/-- The names of a query lead the gateway back to its group columns. -/
structure Aligned (select : Select) (plan : AggregatePlan) : Prop where
  /-- Postgres accepts the partial query. -/
  runs : runsOn (sourceOf select) plan = true
  /-- No key is taken from an aggregate's field. -/
  uncalled : ∀ key ∈ plan.groupKeys, ∀ called, resolve plan key ≠ some (.call called)
  /-- Every group column is taken for some key. -/
  found : ∀ key ∈ plan.groupKeys, Found plan key
  /-- Every projected output shows its own column. -/
  carried : ∀ item ∈ projected select, ∃ key text, shownKey plan item.2 = some key ∧
      resolve plan key = some (.column text) ∧ columnOf text = item.1

/-! ## Accepted plans -/

/-- Plain columns are named by GROUP BY keys. -/
def KeysOnly (groupKeys : List String) (found : Classified) : Prop :=
  ∀ column ∈ found.plainColumns, column.1 ∈ groupKeys

theorem KeysOnly.classifyItem {next : Classified} (group : groupKeys ≠ [])
    (keysOnly : KeysOnly groupKeys found) (reads : classifyItem groupKeys found item = .ok next) :
    KeysOnly groupKeys next := by
  cases classifies_of_classifyItem reads with
  | call => exact keysOnly
  | column _ isKey =>
    have notEmpty : groupKeys.isEmpty = false := by simpa using group
    rw [matchedKey, notEmpty] at isKey
    intro column mem
    simp only at mem
    split at mem
    · exact keysOnly column mem
    · rcases mem_append.mp mem with old | new
      · exact keysOnly column old
      · rw [mem_singleton] at new
        rw [new]
        exact mem_of_find?_eq_some isKey

theorem KeysOnly.classifyItems (group : groupKeys ≠ []) (keysOnly : KeysOnly groupKeys found)
    (reads : classifyItems groupKeys found xs = .ok final) :
    KeysOnly groupKeys final := by
  induction xs generalizing found with
  | nil =>
    cases reads
    exact keysOnly
  | cons x xs ih =>
    simp only [Plan.classifyItems] at reads
    split at reads
    · cases reads
    · rename_i next step
      exact ih (keysOnly.classifyItem group step) reads

/-- What the planner makes of a grouped query. -/
theorem planQuery_grouped {q : Query} {plan : AggregatePlan} (body : q.body = some sel)
    (ok : planQuery q = .ok plan) (group : plan.groupKeys ≠ []) :
    plan.groupKeys = groupTexts sel ∧ plan.filter = filterText sel ∧
      ∀ column ∈ plan.plainColumns, column.1 ∈ plan.groupKeys := by
  cases planned_of_planQuery body ok with
  | aggregated groupBy found isGroupBy classified _ _ groupKeys filter _
      plainColumns =>
      have texts : groupTexts sel = groupBy.map Expr.text := by simp [groupTexts, isGroupBy]
      refine ⟨groupKeys.trans texts.symm, filter, ?_⟩
      rw [groupKeys] at group
      rw [plainColumns, groupKeys]
      apply KeysOnly.classifyItems group _ classified
      intro column mem
      cases mem
  | distinct _ _ _ _ _ _ groupKeys => exact absurd groupKeys group

/-- What the planner makes of aggregates without GROUP BY. -/
theorem planQuery_ungrouped {q : Query} (body : q.body = some sel)
    (ok : planQuery q = .ok plan) (ungrouped : plan.groupKeys = [])
    (aggregated : plan.aggregates ≠ []) :
    groupTexts sel = [] ∧ plan.filter = filterText sel ∧ plan.plainColumns = [] := by
  cases planned_of_planQuery body ok with
  | aggregated groupBy found isGroupBy _ _ group groupKeys filter _
      plainColumns =>
      rw [groupKeys] at ungrouped
      refine ⟨?_, filter, ?_⟩
      · simp [groupTexts, isGroupBy, ungrouped]
      · rw [plainColumns, eq_nil_iff_forall_not_mem]
        intro column col
        have no := group column col
        rw [ungrouped] at no
        cases no
  | distinct _ _ _ _ _ _ _ aggs => exact absurd aggs aggregated

/-! ## The answered rows -/

section

variable {V : Type} [DecidableEq V] {engine : Engine V} {json : V → Value} {plan : AggregatePlan}

variable (engine plan) in
def sliceGroups (slices : List (List (Row V))) : List (List (Row V)) :=
  slices.flatMap fun slice =>
    sqlGroups plan.groupKeys (kept engine plan.filter slice)

theorem mapM_answer (runs : runsOn source plan = true) (slices : List (List (Row V))) :
    slices.mapM (answer engine json source plan) = some (slices.map fun slice =>
      (sqlGroups plan.groupKeys (kept engine plan.filter slice)).map
      (answerRow engine json plan)) := by
  induction slices with
  | nil => rfl
  | cons slice slices ih =>
    simp only [mapM_cons, ih, answer, runs, if_true, map_cons]
    rfl

theorem flatten_answers (slices : List (List (Row V))) : (slices.map fun slice =>
      (sqlGroups plan.groupKeys (kept engine plan.filter slice)).map
      (answerRow engine json plan)).flatten =
      (sliceGroups engine plan slices).map (answerRow engine json plan) := by
  rw [sliceGroups, map_flatMap, flatMap_def]

variable (engine json plan) in
/-- The accumulator of a key the gateway sees. -/
def accAt (ops : FloatOps) (slices : List (List (Row V))) (key : List Value) : Acc :=
  (itemsOf (rowKey plan) key ((sliceGroups engine plan slices).map
    (answerRow engine json plan))).foldl (accumulateRow ops plan) Acc.start

variable (engine json plan) in
/-- The merged row of a key the gateway sees. -/
def mergedAt (ops : FloatOps) (slices : List (List (Row V))) (key : List Value) : Object :=
  lastNamed (mergedFields ops plan key (accAt engine json plan ops slices key))

/-- The merged rows, one for every key the gateway sees. -/
theorem mergeGroups_perm (ops : FloatOps) (slices : List (List (Row V))) :
    (mergeGroups ops plan (slices.map fun slice =>
      (sqlGroups plan.groupKeys (kept engine plan.filter slice)).map
      (answerRow engine json plan))).Perm
      (((sliceGroups engine plan slices).map fun group =>
      rowKey plan (answerRow engine json plan group)).dedup.map
      (mergedAt engine json plan ops slices)) := by
  rw [mergeGroups, flatten_answers]
  have entries := (groupFold_perm (rowKey plan) Acc.start
    (accumulateRow ops plan) ((sliceGroups engine plan slices).map
      (answerRow engine json plan))).map fun entry =>
        lastNamed (mergedFields ops plan entry.1 entry.2)
  rw [map_map, map_map] at entries
  exact entries

omit [DecidableEq V] in
/-- The WHERE text picks the same rows from the slices and the table. -/
theorem kept_perm {table : List (Row V)} {slices : List (List (Row V))}
    (shared : table.Perm slices.flatten) (filter : String) :
    (kept engine filter table).Perm (slices.flatMap (kept engine filter)) := by
  have keptBy : ∀ rows, kept engine filter rows =
      rows.filter fun row => filter.isEmpty || engine.holds filter row := by
    intro rows
    cases empty : filter.isEmpty with
    | true => simp [kept, empty]
    | false =>
      simp [kept, empty]
  simp only [funext keptBy, flatMap_def, ← filter_flatten]
  exact shared.filter _

theorem sqlGroups_of_ne_nil {keys : List String} (group : keys ≠ []) (rows : List (Row V)) :
    sqlGroups keys rows = (rows.map (sqlKey keys)).dedup.map fun key =>
      itemsOf (sqlKey keys) key rows := by
  rw [sqlGroups, if_neg]
  simpa using group

/-- A group of a slice: the rows of the slice with the key of its first. -/
theorem exists_of_mem_sliceGroups (grouped : plan.groupKeys ≠ []) {slices : List (List (Row V))}
    (mem : group ∈ sliceGroups engine plan slices) :
    ∃ slice ∈ slices, ∃ first rest, group = first :: rest ∧ first ∈ kept engine plan.filter slice ∧
      group = itemsOf (sqlKey plan.groupKeys) (sqlKey plan.groupKeys first)
      (kept engine plan.filter slice) := by
  rcases mem_flatMap.mp mem with ⟨slice, inSlices, inSlice⟩
  rw [sqlGroups_of_ne_nil grouped] at inSlice
  rcases mem_map.mp inSlice with ⟨key, isKey, rfl⟩
  rcases mem_map.mp (mem_dedup.mp isKey) with ⟨row, isRow, rfl⟩
  have inGroup : row ∈ itemsOf (sqlKey plan.groupKeys)
      (sqlKey plan.groupKeys row) (kept engine plan.filter slice) := by
    rw [itemsOf, mem_filter]
    exact ⟨isRow, by simp⟩
  rcases exists_cons_of_ne_nil (ne_nil_of_mem inGroup) with ⟨first, rest, grp⟩
  have firstIn : first ∈ itemsOf (sqlKey plan.groupKeys)
      (sqlKey plan.groupKeys row) (kept engine plan.filter slice) := by
    rw [grp]
    exact mem_cons_self
  rw [itemsOf, mem_filter] at firstIn
  refine ⟨slice, inSlices, first, rest, grp, firstIn.1, ?_⟩
  rw [of_decide_eq_true firstIn.2]

theorem exists_sliceGroup (group : plan.groupKeys ≠ []) (inSlices : slice ∈ slices)
    (isRow : row ∈ kept engine plan.filter slice) :
    itemsOf (sqlKey plan.groupKeys) (sqlKey plan.groupKeys row)
      (kept engine plan.filter slice) ∈ sliceGroups engine plan slices := by
  apply mem_flatMap.mpr
  refine ⟨slice, inSlices, ?_⟩
  rw [sqlGroups_of_ne_nil group]
  exact mem_map.mpr ⟨_, mem_dedup.mpr (mem_map_of_mem isRow), rfl⟩

end

/-! ## Keys of the gateway and keys of the query -/

section

variable {V : Type} {json : V → Value} {plan : AggregatePlan}

theorem keyValue_answerRow (group : List (Row V)) (text : String) :
    keyValue (answerRow engine json plan group) text =
      ((resolve plan text).map (itemValue engine json group)).getD .null := by
  simp only [keyValue, answerRow, resolve]
  cases lastNamed (answerFields plan) text <;> rfl

/-- The columns of the partial query are GROUP BY keys. -/
theorem column_mem_groupKeys (keysOnly : ∀ column ∈ plan.plainColumns, column.1 ∈ plan.groupKeys)
    (found : resolve plan text = some (.column name)) :
    name ∈ plan.groupKeys := by
  have inFields : ∃ label, (label, Item.column name) ∈ answerFields plan := by
    rcases Option.or_eq_some_iff.mp found with first | ⟨_, second⟩
    · exact ⟨_, mem_of_lastNamed first⟩
    · exact ⟨_, mem_of_lastNamed second⟩
  rcases inFields with ⟨label, mem⟩
  rcases mem_map.mp mem with ⟨⟨written, x⟩, inList, eq⟩
  cases eq
  rcases mem_append.mp inList with col | isCall
  · rcases mem_append.mp col with isPlain | isKey
    · rcases mem_map.mp isPlain with ⟨column, inPlain, eq⟩
      cases eq
      exact keysOnly column inPlain
    · rcases mem_map.mp isKey with ⟨key, isKey, eq⟩
      cases eq
      exact (mem_filter.mp isKey).1
  · rcases mem_flatMap.mp isCall with ⟨spec, _, isItem⟩
    rcases mem_map.mp isItem with ⟨_, _, eq⟩
    cases eq

variable (json plan) in
/-- The key the gateway sees for a group, from a row of the group. -/
def gatewayKey (row : Row V) : List Value :=
  (keyTexts plan).map fun text =>
    match resolve plan text with
    | some (.column name) => json (row (columnOf name))
    | _ => .null

section

variable (keysOnly : ∀ column ∈ plan.plainColumns, column.1 ∈ plan.groupKeys)
include keysOnly

theorem mem_groupKeys_of_mem_keyTexts (mem : text ∈ keyTexts plan) : text ∈ plan.groupKeys := by
  rcases mem_append.mp mem with isKey | isPlain
  · exact isKey
  · rcases mem_map.mp isPlain with ⟨column, col, rfl⟩
    exact keysOnly column col

theorem rowKey_answerRow
    (uncalled : ∀ key ∈ plan.groupKeys, ∀ called, resolve plan key ≠ some (.call called))
    (first : Row V) (rest : List (Row V)) :
    rowKey plan (answerRow engine json plan (first :: rest)) = gatewayKey json plan first := by
  apply map_congr_left
  intro text mem
  have isKey := mem_groupKeys_of_mem_keyTexts keysOnly mem
  rw [keyValue_answerRow]
  cases found : resolve plan text with
  | none => rfl
  | some x =>
    cases x with
    | column name => rfl
    | call called => exact absurd found (uncalled text isKey called)

/-- Rows of one group give one key. -/
theorem gatewayKey_eq (eqGroup : sqlKey plan.groupKeys left = sqlKey plan.groupKeys right) :
    gatewayKey json plan left = gatewayKey json plan right := by
  apply map_congr_left
  intro text mem
  split
  · rename_i name found
    have isKey := column_mem_groupKeys keysOnly found
    rw [map_inj_left.mp eqGroup name isKey]
  · rfl

end

/-- Rows of different groups give different keys. -/
theorem sqlKey_eq_of_gatewayKey (inj : Function.Injective json)
    (found : ∀ key ∈ plan.groupKeys, Found plan key)
    (eqKey : gatewayKey json plan left = gatewayKey json plan right) :
    sqlKey plan.groupKeys left = sqlKey plan.groupKeys right := by
  apply map_congr_left
  intro key isKey
  rcases found key isKey with ⟨other, oth, text, resolved, sameColumn⟩
  have eqVal := map_inj_left.mp eqKey other (mem_append_left _ oth)
  simp only [resolved, sameColumn] at eqVal
  exact inj eqVal

/-- A merged row shows the value of the key text it has under a name. -/
theorem lastNamed_mergedFields (shown : shownKey plan name = some text) (ops : FloatOps)
    (v : String → Value) (acc : Acc) :
    lastNamed (mergedFields ops plan ((keyTexts plan).map v) acc) name = some (v text) := by
  simp only [shownKey] at shown
  split at shown
  · cases shown
  · rename_i plain
    have notOverwritten : lastNamed (plan.aggregates.map fun spec =>
        (spec.output, reduceOne ops spec acc)) name = none := by
      rw [lastNamed_eq_none_iff]
      intro field mem eqName
      rcases mem_map.mp mem with ⟨spec, isSpec, rfl⟩
      apply plain
      rw [any_eq_true]
      exact ⟨spec, isSpec, decide_eq_true eqName⟩
    rw [mergedFields, lastNamed_append, notOverwritten, Option.none_or, zip_map_right]
    have mapped := lastNamed_map v ((keyOutputs plan).zip (keyTexts plan)) name
    rw [shown] at mapped
    exact mapped

end

end StorageOrchestrator.Aggregate.Alignment
