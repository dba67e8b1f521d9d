import StorageOrchestrator.Aggregate.Alignment

/-!
# Distributed grouping

The main theorem says that alignment is exact: the merged rows are the groups
of the query, for every table content, every way to share it among providers
and every engine, precisely when the plan is aligned and the providers print
different values differently.

One direction carries the keys of the query over to the keys of the gateway.
The other probes a plan with tables of one to three rows and with two engines,
one blank and one that counts.
-/

namespace StorageOrchestrator.Aggregate.Grouping

open Aggregate.Plan Aggregate.Partial Aggregate.Merge Aggregate.Alignment Lib.Grouping Lib.Record
  List

/-! ## Aligned plans group exactly -/

section

variable {V : Type} [DecidableEq V] {engine : Engine V} {json : V → Value} {plan : AggregatePlan}

variable (plan) in
def headKey : List (Row V) → List V
  | [] => []
  | first :: _ => sqlKey plan.groupKeys first

/-- The groups of the slices have the keys of the whole table. -/
theorem headKeys_perm (grouped : plan.groupKeys ≠ []) {table : List (Row V)}
    {slices : List (List (Row V))} (shared : table.Perm slices.flatten) :
    ((sliceGroups engine plan slices).map (headKey plan)).dedup.Perm
      ((kept engine plan.filter table).map (sqlKey plan.groupKeys)).dedup := by
  rw [perm_ext_iff_of_nodup (nodup_dedup _) (nodup_dedup _)]
  intro key
  rw [mem_dedup, mem_dedup]
  constructor
  · intro mem
    rcases mem_map.mp mem with ⟨group, grp, rfl⟩
    rcases exists_of_mem_sliceGroups grouped grp with ⟨slice, inSlices, first, rest, rfl, isRow, _⟩
    apply mem_map_of_mem
    rw [(kept_perm shared plan.filter).mem_iff]
    exact mem_flatMap.mpr ⟨slice, inSlices, isRow⟩
  · intro mem
    rcases mem_map.mp mem with ⟨row, isRow, rfl⟩
    rw [(kept_perm shared plan.filter).mem_iff] at isRow
    rcases mem_flatMap.mp isRow with ⟨slice, inSlices, inSlice⟩
    have grp := exists_sliceGroup grouped inSlices inSlice
    rcases exists_of_mem_sliceGroups grouped grp with ⟨_, _, first, rest, hfst, _, _⟩
    have firstIn : first ∈ itemsOf (sqlKey plan.groupKeys)
        (sqlKey plan.groupKeys row) (kept engine plan.filter slice) := by
      rw [hfst]
      exact mem_cons_self
    rw [itemsOf, mem_filter] at firstIn
    refine mem_map.mpr ⟨_, grp, ?_⟩
    rw [hfst]
    exact of_decide_eq_true firstIn.2

variable (engine json plan) in
/-- The key the gateway sees for a group of the query. -/
def translated (slices : List (List (Row V))) (key : List V) : List Value :=
  match (sliceGroups engine plan slices).find? fun group =>
    headKey plan group = key with
  | some group => rowKey plan (answerRow engine json plan group)
  | none => []

variable (grouped : plan.groupKeys ≠ [])
  (keysOnly : ∀ column ∈ plan.plainColumns, column.1 ∈ plan.groupKeys)
  (uncalled : ∀ key ∈ plan.groupKeys, ∀ called,
    resolve plan key ≠ some (.call called))
include grouped keysOnly uncalled

/-- A group of a slice is seen under the key of any of its rows. -/
theorem rowKey_of_headKey (grp : group ∈ sliceGroups engine plan slices)
    (eqGroup : headKey plan group = sqlKey plan.groupKeys row) :
    rowKey plan (answerRow engine json plan group) = gatewayKey json plan row := by
  rcases exists_of_mem_sliceGroups grouped grp with ⟨_, _, first, rest, rfl, _, _⟩
  rw [rowKey_answerRow keysOnly uncalled]
  exact gatewayKey_eq keysOnly eqGroup

theorem translated_eq (grp : group ∈ sliceGroups engine plan slices)
    (eqGroup : headKey plan group = sqlKey plan.groupKeys row) :
    translated engine json plan slices (sqlKey plan.groupKeys row) = gatewayKey json plan row := by
  rw [translated]
  split
  · rename_i found got
    apply rowKey_of_headKey grouped keysOnly uncalled (mem_of_find?_eq_some got)
    simpa using find?_some got
  · rename_i notFound
    have gone := find?_eq_none.mp notFound group grp
    exact absurd (decide_eq_true eqGroup) gone

/-- The keys the gateway sees are the keys of the query, one to one. -/
theorem rowKeys_perm (inj : Function.Injective json)
    (found : ∀ key ∈ plan.groupKeys, Found plan key) {table : List (Row V)}
    {slices : List (List (Row V))} (shared : table.Perm slices.flatten) :
    ((sliceGroups engine plan slices).map fun group =>
      rowKey plan (answerRow engine json plan group)).dedup.Perm
      (((kept engine plan.filter table).map (sqlKey plan.groupKeys)).dedup.map
      (translated engine json plan slices)) := by
  refine .trans ?_ ((headKeys_perm grouped shared).map _)
  apply dedup_map_perm
  · intro group grp
    rcases exists_of_mem_sliceGroups grouped grp with ⟨_, _, first, rest, rfl, _, _⟩
    rw [rowKey_answerRow keysOnly uncalled]
    exact (translated_eq grouped keysOnly uncalled grp rfl).symm
  · intro left hl right hr eqKey
    rcases exists_of_mem_sliceGroups grouped hl with ⟨_, _, first, _, rfl, _, _⟩
    rcases exists_of_mem_sliceGroups grouped hr with ⟨_, _, other, _, rfl, _, _⟩
    rw [rowKey_answerRow keysOnly uncalled, rowKey_answerRow keysOnly uncalled] at eqKey
    exact sqlKey_eq_of_gatewayKey inj found eqKey

/-- A row of the table is seen under its gateway key. -/
theorem translated_sqlKey {table : List (Row V)} {slices : List (List (Row V))}
    (shared : table.Perm slices.flatten) (isRow : row ∈ kept engine plan.filter table) :
    translated engine json plan slices (sqlKey plan.groupKeys row) = gatewayKey json plan row := by
  have isKey : sqlKey plan.groupKeys row ∈
      ((sliceGroups engine plan slices).map (headKey plan)).dedup := by
    rw [(headKeys_perm grouped shared).mem_iff, mem_dedup]
    exact mem_map_of_mem isRow
  rcases mem_map.mp (mem_dedup.mp isKey) with ⟨group, grp, eqGroup⟩
  exact translated_eq grouped keysOnly uncalled grp eqGroup

variable (ops : FloatOps)

/-- The merged rows, one for every group of the query. -/
theorem mergeGroups_translated (inj : Function.Injective json)
    (found : ∀ key ∈ plan.groupKeys, Found plan key) {table : List (Row V)}
    {slices : List (List (Row V))} (shared : table.Perm slices.flatten) :
    (mergeGroups ops plan (slices.map fun slice =>
      (sqlGroups plan.groupKeys (kept engine plan.filter slice)).map
      (answerRow engine json plan))).Perm
      (((kept engine plan.filter table).map (sqlKey plan.groupKeys)).dedup.map fun key =>
      mergedAt engine json plan ops slices (translated engine json plan slices key)) := by
  refine (mergeGroups_perm ops slices).trans ?_
  refine ((rowKeys_perm grouped keysOnly uncalled inj found shared).map _).trans ?_
  rw [map_map]
  exact .refl _

/-- The merged row of a group carries the values of the group. -/
theorem mergedAt_translated {table : List (Row V)} {slices : List (List (Row V))}
    (shared : table.Perm slices.flatten) (isRow : row ∈ kept engine plan.filter table)
    (shown : shownKey plan name = some key) (found : resolve plan key = some (.column text)) :
    mergedAt engine json plan ops slices
      (translated engine json plan slices (sqlKey plan.groupKeys row)) name =
      some (json (row (columnOf text))) := by
  rw [translated_sqlKey grouped keysOnly uncalled shared isRow, mergedAt,
    gatewayKey, lastNamed_mergedFields shown]
  simp [found]

end

/-- The merged rows of an aligned plan are the groups of the query. -/
theorem exact_of_aligned {V : Type} [DecidableEq V] {json : V → Value}
    {q : Query} {select : Select} {plan : AggregatePlan}
    (body : q.body = some select) (ok : planQuery q = .ok plan)
    (grouped : plan.groupKeys ≠ []) (inj : Function.Injective json)
    (even : Aligned select plan) (ops : FloatOps) (engine : Engine V)
    {table : List (Row V)} {slices : List (List (Row V))} (shared : table.Perm slices.flatten) :
    Exact ops engine json select plan table slices := by
  rcases planQuery_grouped body ok grouped with ⟨sameKeys, eqFilter, keysOnly⟩
  refine ⟨_, mapM_answer even.runs slices, ?_⟩
  refine ⟨fun key => mergedAt engine json plan ops slices
    (translated engine json plan slices key), ?_, ?_⟩
  · rw [wholeGroups, selected, ← eqFilter, ← sameKeys]
    exact mergeGroups_translated grouped keysOnly even.uncalled ops inj even.found shared
  · intro row isRow x isItem
    rw [selected, ← eqFilter] at isRow
    rcases even.carried x isItem with ⟨key, text, shown, found, sameColumn⟩
    rw [← sameKeys, ← sameColumn]
    exact mergedAt_translated grouped keysOnly even.uncalled ops shared isRow shown found

/-! ## Small tables that tell plans apart -/

section

variable {V : Type} [DecidableEq V] {ops : FloatOps} {engine : Engine V} {json : V → Value}
  {select : Select} {plan : AggregatePlan}

theorem runsOn_of_exact (exact : Exact ops engine json select plan [] [[]]) :
    runsOn (sourceOf select) plan = true := by
  rcases exact with ⟨parts, got, _⟩
  by_contra refused
  simp [answer, refused] at got

variable (sameKeys : plan.groupKeys = groupTexts select)
  (always : ∀ text row, engine.holds text row = true)

omit [DecidableEq V] in
include always in
theorem kept_always (filter : String) (rows : List (Row V)) : kept engine filter rows = rows := by
  rw [kept]
  split
  · rfl
  · rw [filter_eq_self]
    intro row _
    exact always filter row

include sameKeys always

/-- The merged rows of an exact plan, when the WHERE text always holds. -/
theorem perm_of_exact (runs : runsOn (sourceOf select) plan = true) {table : List (Row V)}
    (exact : Exact ops engine json select plan table slices) :
    ∃ rowOf : List V → Object, (((sliceGroups engine plan slices).map fun group =>
      rowKey plan (answerRow engine json plan group)).dedup.map
      (mergedAt engine json plan ops slices)).Perm
      ((table.map (sqlKey plan.groupKeys)).dedup.map rowOf) ∧
      ∀ row ∈ table, ∀ item ∈ projected select, rowOf (sqlKey plan.groupKeys row) item.2 =
      some (json (row item.1)) := by
  rcases exact with ⟨parts, got, rowOf, both, kept⟩
  rw [mapM_answer runs] at got
  cases got
  rw [wholeGroups, selected, kept_always always, ← sameKeys] at both
  rw [selected, kept_always always, ← sameKeys] at kept
  exact ⟨rowOf, (mergeGroups_perm ops slices).symm.trans both, kept⟩

section

variable (grouped : plan.groupKeys ≠ []) (runs : runsOn (sourceOf select) plan = true)
include grouped runs

/-- Two groups of one slice must be seen under two keys. -/
theorem rowKey_ne_of_exact (exact : Exact ops engine json select plan [left, right] [[left, right]])
    (ne : sqlKey plan.groupKeys left ≠ sqlKey plan.groupKeys right) :
    rowKey plan (answerRow engine json plan [left]) ≠
      rowKey plan (answerRow engine json plan [right]) := by
  intro eqKey
  rcases perm_of_exact sameKeys always runs exact with ⟨rowOf, both, _⟩
  have twoGroups : sliceGroups engine plan [[left, right]] = [[left], [right]] := by
    simp [sliceGroups, sqlGroups_of_ne_nil grouped, kept_always always, itemsOf, ne, Ne.symm ne]
  have lens := both.length_eq
  simp [twoGroups, eqKey, ne] at lens

/-- One group of two slices must be seen under one key. -/
theorem rowKey_eq_of_exact
    (exact : Exact ops engine json select plan [row, row, row] [[row], [row, row]]) :
    rowKey plan (answerRow engine json plan [row]) =
      rowKey plan (answerRow engine json plan [row, row]) := by
  by_contra apart
  rcases perm_of_exact sameKeys always runs exact with ⟨rowOf, both, _⟩
  have twoGroups : sliceGroups engine plan [[row], [row, row]] = [[row], [row, row]] := by
    simp [sliceGroups, sqlGroups_of_ne_nil grouped, kept_always always, itemsOf]
  have lens := both.length_eq
  simp [twoGroups, apart] at lens

/-- The one row of a table must be shown under its output names. -/
theorem shown_of_exact
    (exact : Exact ops engine json select plan [row] [[row]]) (isItem : item ∈ projected select) :
    lastNamed (mergedFields ops plan (rowKey plan (answerRow engine json plan [row]))
      (accumulateRow ops plan Acc.start (answerRow engine json plan [row]))) item.2 =
      some (json (row item.1)) := by
  rcases perm_of_exact sameKeys always runs exact with ⟨rowOf, both, kept⟩
  have single : sliceGroups engine plan [[row]] = [[row]] := by
    simp [sliceGroups, sqlGroups_of_ne_nil grouped, kept_always always, itemsOf]
  have eqRow : mergedAt engine json plan ops [[row]]
      (rowKey plan (answerRow engine json plan [row])) = rowOf (sqlKey plan.groupKeys row) := by
    simpa [single] using both
  rw [← kept row mem_cons_self item isItem, ← eqRow, mergedAt, accAt, single]
  simp [itemsOf]

end

end

/-! ## Exact plans are aligned -/

theorem clip_clip (room : Nat) (letters : List Char) :
    clip room (clip room letters) = clip room letters := by
  induction letters generalizing room with
  | nil => rfl
  | cons c rest ih =>
    by_cases fits : c.utf8Size ≤ room
    · simp [clip, fits, ih]
    · simp [clip, fits]

theorem fieldName_fieldName (label : String) : fieldName (fieldName label) = fieldName label := by
  simp [fieldName, clip_clip]

/-- The names an aggregate reads never lead to a column. -/
theorem call_not_column {plan : AggregatePlan} (isSpec : spec ∈ plan.aggregates)
    (isCall : (label, called) ∈ specCalls spec) (text : String) :
    lastNamed (answerFields plan) label ≠ some (.column text) := by
  intro col
  rw [answerFields, selectList, map_append, lastNamed_append] at col
  rcases Option.or_eq_some_iff.mp col with fromCall | ⟨noCall, fromColumn⟩
  · rcases mem_map.mp (mem_of_lastNamed fromCall) with ⟨entry, isEntry, eq⟩
    rcases mem_flatMap.mp isEntry with ⟨_, _, isItem⟩
    rcases mem_map.mp isItem with ⟨_, _, rfl⟩
    cases eq
  · rcases mem_map.mp (mem_of_lastNamed fromColumn) with ⟨entry, _, eq⟩
    have named : fieldName entry.1 = label := congrArg Prod.fst eq
    have clipped : fieldName label = label := by rw [← named, fieldName_fieldName]
    apply lastNamed_eq_none_iff.mp noCall (label, .call called) _ rfl
    refine mem_map.mpr ⟨(label, .call called), ?_, ?_⟩
    · refine mem_flatMap.mpr ⟨spec, isSpec, ?_⟩
      exact mem_map.mpr ⟨(label, called), isCall, rfl⟩
    · rw [clipped]

/-- An aggregate reads a row by the labels of its own calls. -/
theorem accumulate_congr (ops : FloatOps) {spec : AggregateSpec}
    (agree : ∀ entry ∈ specCalls spec, left entry.1 = right entry.1) (acc : Acc) :
    accumulate ops left acc spec = accumulate ops right acc spec := by
  have ns : ∀ entry ∈ specCalls spec, readNum left entry.1 = readNum right entry.1 := by
    intro entry mem
    rw [readNum, readNum, agree entry mem]
  simp only [specCalls] at agree ns
  cases kind : spec.kind <;>
    simp only [kind, mem_cons, not_mem_nil, or_false, forall_eq_or_imp, forall_eq] at agree ns <;>
    simp [accumulate, kind, agree, ns]

section

variable {V : Type} {json : V → Value} {plan : AggregatePlan}

/-- An engine in which every aggregate of every group is NULL. -/
def Engine.blank (V : Type) : Engine V :=
  { holds := fun _ _ => true
    aggregate := fun _ _ => .null }

/-- Under the blank engine the accumulator knows nothing of the row. -/
theorem accumulateRow_blank (ops : FloatOps) (left right : List (Row V)) (acc : Acc) :
    accumulateRow ops plan acc (answerRow (Engine.blank V) json plan left) =
      accumulateRow ops plan acc (answerRow (Engine.blank V) json plan right) := by
  apply foldl_ext
  intro acc spec isSpec
  apply accumulate_congr
  intro entry isCall
  simp only [answerRow]
  cases found : lastNamed (answerFields plan) entry.1 with
  | none => rfl
  | some x =>
    cases x with
    | column text =>
      exact absurd found (call_not_column isSpec isCall text)
    | call called => rfl

theorem rowKey_blank (row : Row V) : rowKey plan (answerRow (Engine.blank V) json plan [row]) =
      gatewayKey json plan row := by
  apply map_congr_left
  intro text _
  rw [keyValue_answerRow]
  rcases resolve plan text with _ | ⟨_ | _⟩ <;> rfl

/-- An engine whose aggregates tell one row from several. -/
def Engine.counting (V : Type) : Engine V :=
  { holds := fun _ _ => true
    aggregate := fun _ rows => .bool (rows.length == 1) }

/-- What is not shown from the key does not depend on it. -/
theorem lastNamed_mergedFields_of_none (hidden : shownKey plan name = none) (ops : FloatOps)
    (left right : String → Value) (acc : Acc) :
    lastNamed (mergedFields ops plan ((keyTexts plan).map left) acc) name =
      lastNamed (mergedFields ops plan ((keyTexts plan).map right) acc)
      name := by
  simp only [mergedFields, lastNamed_append, zip_map_right]
  cases overwritten : lastNamed (plan.aggregates.map fun spec =>
      (spec.output, reduceOne ops spec acc)) name with
  | some v => rfl
  | none =>
    have unnamed : lastNamed ((keyOutputs plan).zip (keyTexts plan)) name =
        none := by
      simp only [shownKey] at hidden
      split at hidden
      · rename_i out
        rw [any_eq_true] at out
        rcases out with ⟨spec, isSpec, eqName⟩
        exact absurd (of_decide_eq_true eqName)
          (lastNamed_eq_none_iff.mp overwritten _ (mem_map_of_mem isSpec))
      · exact hidden
    have mapped : ∀ v : String → Value, lastNamed (((keyOutputs plan).zip (keyTexts plan)).map
          (Prod.map id v)) name = none := by
      intro v
      have named := lastNamed_map v ((keyOutputs plan).zip (keyTexts plan)) name
      rw [unnamed] at named
      exact named
    rw [mapped left, mapped right]

variable [DecidableEq V] {ops : FloatOps} {select : Select}
  (sameKeys : plan.groupKeys = groupTexts select) (grouped : plan.groupKeys ≠ [])
  (exact : ∀ (engine : Engine V) (table : List (Row V)) (slices : List (List (Row V))),
    table.Perm slices.flatten → Exact ops engine json select plan table slices)

include exact in
theorem runsOn_of_all_exact : runsOn (sourceOf select) plan = true :=
  runsOn_of_exact (exact (Engine.blank V) [] [[]] (.refl _))

include sameKeys grouped exact

/-- Rows of different groups must have different keys. -/
theorem gatewayKey_ne_of_exact (ne : sqlKey plan.groupKeys left ≠ sqlKey plan.groupKeys right) :
    gatewayKey json plan left ≠ gatewayKey json plan right := by
  have keysApart := rowKey_ne_of_exact sameKeys (fun _ _ => rfl) grouped (runsOn_of_all_exact exact)
    (exact (Engine.blank V) [left, right] [[left, right]] (.refl _)) ne
  rwa [rowKey_blank, rowKey_blank] at keysApart

theorem injective_of_exact : Function.Injective json := by
  intro left right sameJson
  by_contra apart
  have groupsApart : sqlKey plan.groupKeys (fun _ => left) ≠
      sqlKey plan.groupKeys fun _ => right := by
    intro eqGroup
    rcases exists_mem_of_ne_nil _ grouped with ⟨key, isKey⟩
    exact apart (map_inj_left.mp eqGroup key isKey)
  apply gatewayKey_ne_of_exact sameKeys grouped exact groupsApart
  simp [gatewayKey, sameJson]

theorem uncalled_of_exact [Nonempty V] (key : String)
    (isKey : key ∈ plan.groupKeys) (called : Call) :
    resolve plan key ≠ some (.call called) := by
  intro found
  rcases (inferInstance : Nonempty V) with ⟨v⟩
  have eqKey := rowKey_eq_of_exact sameKeys (fun _ _ => rfl) grouped (runsOn_of_all_exact exact)
    (exact (Engine.counting V) [fun _ => v, fun _ => v, fun _ => v]
      [[fun _ => v], [fun _ => v, fun _ => v]]
      (.refl _))
  have eqVal := map_inj_left.mp eqKey key (mem_append_left _ isKey)
  simp [keyValue_answerRow, found, itemValue, Engine.counting] at eqVal

theorem found_of_exact [Nontrivial V]
    (keysOnly : ∀ column ∈ plan.plainColumns, column.1 ∈ plan.groupKeys)
    (key : String) (isKey : key ∈ plan.groupKeys) :
    Found plan key := by
  by_contra lacks
  simp only [Found] at lacks
  push Not at lacks
  rcases exists_pair_ne V with ⟨v, other, ne⟩
  have groupsApart : sqlKey plan.groupKeys (fun _ => v) ≠ sqlKey plan.groupKeys
        (Function.update (fun _ => v) (columnOf key) other) := by
    intro eqGroup
    have eqVal := map_inj_left.mp eqGroup key isKey
    rw [Function.update_self] at eqVal
    exact ne eqVal
  apply gatewayKey_ne_of_exact sameKeys grouped exact groupsApart
  apply map_congr_left
  intro text mem
  split
  · rename_i name found
    have away := lacks text (mem_groupKeys_of_mem_keyTexts keysOnly mem) name found
    rw [Function.update_of_ne away]
  · rfl

theorem carried_of_exact [Nontrivial V] (x : String × String) (isItem : x ∈ projected select) :
    ∃ key text, shownKey plan x.2 = some key ∧
      resolve plan key = some (.column text) ∧ columnOf text = x.1 := by
  have inj := injective_of_exact sameKeys grouped exact
  rcases exists_pair_ne V with ⟨v, other, ne⟩
  have shownBy : ∀ row : Row V, lastNamed (mergedFields ops plan (gatewayKey json plan row)
        (accumulateRow ops plan Acc.start (answerRow (Engine.blank V) json plan []))) x.2 =
        some (json (row x.1)) := by
    intro row
    have shown := shown_of_exact sameKeys (fun _ _ => rfl) grouped (runsOn_of_all_exact exact)
      (exact (Engine.blank V) [row] [[row]] (.refl _)) isItem
    rwa [rowKey_blank, accumulateRow_blank ops [row] []] at shown
  cases shown : shownKey plan x.2 with
  | none =>
    have valueShown := shownBy fun _ => v
    have otherShown := shownBy fun _ => other
    rw [gatewayKey] at valueShown otherShown
    have sameShown := valueShown.symm.trans
      ((lastNamed_mergedFields_of_none shown ops _ _ _).trans otherShown)
    exact absurd (inj (Option.some.inj sameShown)) ne
  | some key =>
    refine ⟨key, ?_⟩
    have keyShown := fun row : Row V =>
      Option.some.inj ((lastNamed_mergedFields shown ops _ _).symm.trans (shownBy row))
    have notNull : ¬ ∀ row : Row V, .null = json (row x.1) := fun isNull =>
      ne (inj ((isNull fun _ => v).symm.trans (isNull fun _ => other)))
    cases found : resolve plan key with
    | none =>
      simp only [found] at keyShown
      exact absurd keyShown notNull
    | some item =>
      cases item with
      | column text =>
        simp only [found] at keyShown
        refine ⟨text, rfl, rfl, ?_⟩
        by_contra away
        have oneColumn := keyShown (Function.update (fun _ => other) x.1 v)
        rw [Function.update_self, Function.update_of_ne away] at oneColumn
        exact ne (inj oneColumn).symm
      | _ =>
        simp only [found] at keyShown
        exact absurd keyShown notNull

end

def countStar : Expr :=
  .function
    { name := some "count"
      arguments := .list [.wildcard] false false
      filtered := false
      text := "count(*)" }

/-- `SELECT shown, count(*) FROM events GROUP BY keys`. -/
def tallySelect (shown keys : List String) : Select :=
  { sources := [⟨.table (some ⟨"events", false⟩) none, false⟩]
    selection := none
    groupBy := .expressions (keys.map bareColumn)
    having := none
    distinct := false
    projection := shown.map (fun name => .unnamed (bareColumn name)) ++ [.unnamed countStar] }

def tallyQuery (shown keys : List String) : Query :=
  { hasWith := false
    hasFetch := false
    hasLocks := false
    body := some (tallySelect shown keys)
    orderBy := []
    limit := none
    offset := none }

def tallyPlan (shown keys : List String) : AggregatePlan :=
  { table := "events"
    filter := ""
    groupKeys := keys
    aggregates := [⟨.count, "*", "count", "count(*)"⟩]
    plainColumns := shown.map fun name => (name, name)
    distinctOnly := none
    having := ""
    orderBy := []
    limit := none
    offset := none }

def natJson (value : Nat) : Value := .number value

def plainOps : FloatOps :=
  { sqrt := id
    text := fun number => toString number.num }

theorem natJson_injective : Function.Injective natJson := by
  intro left right eq
  simpa [natJson] using eq

/-- Keys projected under their own names, in their own order. -/
theorem aligned_in_key_order :
    Aligned (tallySelect ["kind", "author"] ["kind", "author"])
      (tallyPlan ["kind", "author"] ["kind", "author"]) := by
  have kind : resolve (tallyPlan ["kind", "author"] ["kind", "author"])
      "kind" = some (.column "kind") := by
    decide
  have authorFound : resolve (tallyPlan ["kind", "author"] ["kind", "author"])
      "author" = some (.column "author") := by
    decide
  have isKey : ∀ key ∈ ["kind", "author"], key = "kind" ∨ key = "author" := by simp
  constructor
  · decide
  · intro key mem called
    rcases isKey key mem with rfl | rfl
    · simp [kind]
    · simp [authorFound]
  · intro key mem
    rcases isKey key mem with rfl | rfl
    · exact ⟨"kind", mem, "kind", kind, rfl⟩
    · exact ⟨"author", mem, "author", authorFound, rfl⟩
  · intro x mem
    have isItem : x = ("kind", "kind") ∨ x = ("author", "author") := by
      have xs : projected
          (tallySelect ["kind", "author"] ["kind", "author"]) =
            [("kind", "kind"), ("author", "author")] := by
        decide
      rw [xs] at mem
      simpa using mem
    rcases isItem with rfl | rfl
    · exact ⟨"kind", "kind", by decide, kind, by decide⟩
    · exact ⟨"author", "author", by decide, authorFound, by decide⟩

/-- Every aggregate counts the rows of its group. -/
def tallyEngine : Engine Nat :=
  { holds := fun _ _ => true
    aggregate := fun _ rows => natJson rows.length }

def eventRow (kind author : Nat) : Row Nat := fun column =>
  if column = "kind" then kind else author

end StorageOrchestrator.Aggregate.Grouping
