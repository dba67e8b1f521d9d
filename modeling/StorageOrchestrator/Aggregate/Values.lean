import StorageOrchestrator.Aggregate.Accumulator
import StorageOrchestrator.Aggregate.Grouping
import StorageOrchestrator.Aggregate.Scope

/-!
# Distributed aggregate values

For plain queries, the value that the gateway reduces from the providers'
partial values is the SQL value of the aggregate over the whole group, as long
as no two helper columns share a label and no accumulator is used twice.

Each aggregate keeps a few entries of the accumulator to itself.  Folding the
answered rows of a group moves those entries the way the aggregate of a
growing list of numbers moves, so the reduced value is that of all the
group's rows.
-/

namespace StorageOrchestrator.Aggregate.Values

open Aggregate.Plan Aggregate.Partial Aggregate.Merge Aggregate.Accumulator
  Aggregate.Alignment Aggregate.Grouping Aggregate.Scope Lib.Grouping
  Lib.JsonValue Lib.Record Lib.Statistics List

variable {reported : Reported}

/-! ## SQL values -/

/-- How numbers and flags reach the gateway: it reads back what was printed. -/
structure Wire where
  number : ℚ → Value
  flag : Bool → Value
  number_read : ∀ value, jsonNum (number value) = some value
  flag_read : ∀ value, asBool (flag value) = some value

def Wire.ofNumber (wire : Wire) : Option ℚ → Value
  | some value => wire.number value
  | none => .null

def Wire.ofFlag (wire : Wire) : Option Bool → Value
  | some value => wire.flag value
  | none => .null

/-- The number or flag a column value is; NULL is none. -/
structure Typing (V : Type) where
  number : V → Option ℚ
  flag : V → Option Bool

section

variable {V : Type} (typing : Typing V)

def numbers (column : String) (rows : List (Row V)) : List ℚ :=
  rows.filterMap fun row => typing.number (row column)

def flags (column : String) (rows : List (Row V)) : List Bool :=
  rows.filterMap fun row => typing.flag (row column)

/-- A value of a SQL aggregate; NULL is none. -/
inductive SqlResult where
  | number (value : Option ℚ)
  | flag (value : Option Bool)

/-- The SQL value of an aggregate over some rows. -/
def sqlValue (measure : Measure) (rows : List (Row V)) : SqlResult :=
  match measure with
  | .rows => .number (some rows.length)
  | .of function column =>
    let values := numbers typing column rows
    match function with
    | .count => .number (some values.length)
    | .sum => .number (total values)
    | .avg => .number (mean values)
    | .min => .number values.min?
    | .max => .number values.max?
    | .variance | .varSamp => .number (variance true values)
    | .varPop => .number (variance false values)
    | .boolAnd => .flag (conjunction (flags typing column rows))
    | .boolOr => .flag (disjunction (flags typing column rows))

def Denotes (value : Value) : SqlResult → Prop
  | .number (some number) => jsonNum value = some number
  | .number none => value = .null
  | .flag (some flag) => asBool value = some flag
  | .flag none => value = .null

variable (engine : Engine V) (wire : Wire)

/-- The engine computes the aggregates of a numeric column. -/
structure SqlNumbers (column : String) : Prop where
  count : ∀ rows, engine.aggregate ⟨"count", column⟩ rows =
    wire.number (numbers typing column rows).length
  sum : ∀ rows, engine.aggregate ⟨"sum", column⟩ rows =
    wire.ofNumber (total (numbers typing column rows))
  avg : ∀ rows, engine.aggregate ⟨"avg", column⟩ rows =
    wire.ofNumber (mean (numbers typing column rows))
  min : ∀ rows, engine.aggregate ⟨"min", column⟩ rows =
    wire.ofNumber (numbers typing column rows).min?
  max : ∀ rows, engine.aggregate ⟨"max", column⟩ rows =
    wire.ofNumber (numbers typing column rows).max?
  squares : ∀ rows, engine.aggregate
      ⟨"sum", "(" ++ column ++ ") * (" ++ column ++ ")"⟩ rows =
    wire.ofNumber (total (squares (numbers typing column rows)))

/-- The engine computes the aggregates of a boolean column. -/
structure SqlFlags (column : String) : Prop where
  boolAnd : ∀ rows, engine.aggregate ⟨"bool_and", column⟩ rows =
    wire.ofFlag (conjunction (flags typing column rows))
  boolOr : ∀ rows, engine.aggregate ⟨"bool_or", column⟩ rows =
    wire.ofFlag (disjunction (flags typing column rows))

/-- The engine computes what an aggregate asks of it. -/
def Computes : Measure → Prop
  | .rows => ∀ rows, engine.aggregate ⟨"count", "*"⟩ rows =
      wire.number rows.length
  | .of .boolAnd column | .of .boolOr column => SqlFlags typing engine wire column
  | .of _ column => SqlNumbers typing engine wire column

end

theorem sqlValue_perm {V : Type} (typing : Typing V) (measure : Measure)
    {left right : List (Row V)} (perm : left.Perm right) :
    sqlValue typing measure left = sqlValue typing measure right := by
  cases measure with
  | rows => simp [sqlValue, perm.length_eq]
  | of function column =>
    have sameNumbers : (numbers typing column left).Perm (numbers typing column right) :=
      perm.filterMap _
    have sameFlags : (flags typing column left).Perm (flags typing column right) := perm.filterMap _
    cases function with
    | count => simp [sqlValue, sameNumbers.length_eq]
    | sum => simp [sqlValue, total_perm sameNumbers]
    | avg => simp [sqlValue, mean_perm sameNumbers]
    | min => simp [sqlValue, min?_perm sameNumbers]
    | max => simp [sqlValue, max?_perm sameNumbers]
    | variance | varSamp | varPop =>
      simp [sqlValue, variance_perm sameNumbers]
    | boolAnd => simp [sqlValue, conjunction_perm sameFlags]
    | boolOr => simp [sqlValue, disjunction_perm sameFlags]

/-! ## One aggregate over the parts of a group -/

section

variable {Item : Type}

/-- The accumulator of one aggregate after the rows shown for some parts. -/
def readParts (ops : FloatOps) (spec : AggregateSpec)
    (shows : List Item → Object) (parts : List (List Item)) : Acc :=
  parts.foldl (fun acc part => accumulate ops (shows part) acc spec) Acc.start

/-- The values that items have, list by list. -/
structure Additive {Measured : Type} (values : List Item → List Measured) : Prop where
  empty : values [] = []
  joined : ∀ front back, values (front ++ back) = values front ++ values back

theorem Additive.filterMap {Measured : Type} (measured : Item → Option Measured) :
    Additive (filterMap measured) :=
  ⟨rfl, fun _ _ => filterMap_append⟩

theorem Additive.self : Additive fun items : List Item => items := ⟨rfl, fun _ _ => rfl⟩

variable (parts : List (List Item))

/-- What holds of the accumulator and the values of the parts read so far. -/
theorem Additive.readParts {Measured : Type} {vs : List Item → List Measured} (adds : Additive vs)
    (rel : Acc → List Measured → Prop) (start : rel Acc.start [])
    (kept : ∀ {acc seen} part, rel acc seen →
      rel (accumulate ops (shows part) acc spec) (seen ++ vs part)) :
    rel (readParts ops spec shows parts) (vs parts.flatten) := by
  refine foldl_flatten (fun acc seen => rel acc (vs seen)) ?_ parts Acc.start [] ?_
  · intro acc seen part h
    rw [adds.joined]
    exact kept part h
  · rw [adds.empty]
    exact start

theorem reduceOne_count (kind : spec.kind = .count) {Measured : Type}
    {vs : List Item → List Measured} (adds : Additive vs)
    (reads : ∀ part, readNum (shows part) spec.output = some ((vs part).length : ℚ)) :
    Denotes (reduceOne ops spec (readParts ops spec shows parts))
      (.number (some ((vs parts.flatten).length : ℚ))) := by
  have sums : ((readParts ops spec shows parts).counts spec.output).getD 0 =
      ((vs parts.flatten).length : ℚ) := by
    refine adds.readParts parts (fun acc seen => (acc.counts spec.output).getD 0 =
      (seen.length : ℚ)) rfl ?_
    intro acc seen part h
    simp [accumulate, kind, addNumber_self, getD_addTotal, h, reads]
  simp only [reduceOne, kind]
  cases entry : (readParts ops spec shows parts).counts spec.output with
  | none =>
    rw [entry] at sums
    simp [Denotes, jsonNum, ← sums]
  | some count =>
    rw [entry, Option.getD_some] at sums
    rw [sums]
    simp [Denotes, jsonNum]

theorem reduceOne_sum (kind : spec.kind = .sum) (adds : Additive vs)
    (reads : ∀ part, readNum (shows part) spec.output = total (vs part)) :
    Denotes (reduceOne ops spec (readParts ops spec shows parts))
      (.number (total (vs parts.flatten))) := by
  have summed : (readParts ops spec shows parts).sums spec.output = total (vs parts.flatten) := by
    refine adds.readParts parts (fun acc seen => acc.sums spec.output = total seen) rfl ?_
    intro acc seen part h
    simp [accumulate, kind, addNumber_self, h, reads, addTotal_total]
  simp only [reduceOne, kind, summed]
  cases total (vs parts.flatten) <;> rfl

theorem reduceOne_avg (kind : spec.kind = .avg) (adds : Additive vs)
    (readsCount : ∀ part, readNum (shows part) (helperName "c" spec) = some ((vs part).length : ℚ))
    (readsSum : ∀ part, readNum (shows part) (helperName "s" spec) = total (vs part)) :
    Denotes (reduceOne ops spec (readParts ops spec shows parts))
      (.number (mean (vs parts.flatten))) := by
  have got : ((readParts ops spec shows parts).counts spec.output).getD 0 =
          ((vs parts.flatten).length : ℚ) ∧
        ((readParts ops spec shows parts).sums spec.output).getD 0 = (vs parts.flatten).sum := by
    refine adds.readParts parts (fun acc seen => (acc.counts spec.output).getD 0 =
      (seen.length : ℚ) ∧ (acc.sums spec.output).getD 0 = seen.sum) ⟨rfl, rfl⟩ ?_
    rintro acc seen part ⟨sums, summed⟩
    simp [accumulate, kind, addNumber_self, getD_addTotal, sums, summed, readsCount, readsSum,
      getD_total]
  simp only [reduceOne, kind, got.1, got.2, Nat.cast_pos, length_pos_iff]
  by_cases empty : vs parts.flatten = []
  · simp [empty, mean, Denotes]
  · simp [empty, mean, Denotes, jsonNum]

/-- Keeping the better of two printed numbers. -/
theorem keepBest_printed
    (picks : ∀ {left right x y}, jsonNum left = some x → jsonNum right = some y →
      pick x y = if better left right then x else y) (wire : Wire) {sofar : Option ℚ}
    (h : (best name).map jsonNum = sofar.map some) (number : Option ℚ) :
    (keepBest better best name (some (wire.ofNumber number)) name).map jsonNum =
      (Option.merge pick sofar number).map some := by
  cases number with
  | none => cases sofar <;> exact h
  | some number =>
    have notNull : wire.number number ≠ .null := by
      intro isNull
      have read := wire.number_read number
      rw [isNull] at read
      cases read
    have text : wire.ofNumber (some number) = wire.number number := rfl
    rw [text]
    simp only [keepBest, notNull, if_false]
    cases cur : best name with
    | none =>
      rw [cur] at h
      cases sofar with
      | none => simp [Option.merge, wire.number_read]
      | some sofar => cases h
    | some v =>
      rw [cur] at h
      cases sofar with
      | none => cases h
      | some sofar =>
        have read : jsonNum v = some sofar := Option.some_inj.mp h
        have picked := picks read (wire.number_read number)
        by_cases isBetter : better v (wire.number number) = true
        · simp [isBetter, cur, Option.merge, picked, read]
        · simp [isBetter, Option.merge, picked, wire.number_read]

section

variable (ops : FloatOps) (leftRead : jsonNum left = some x) (rightRead : jsonNum right = some y)
include ops leftRead rightRead

theorem min_picks : min x y = if jsonLe ops left right then x else y := by
  simp [jsonLe, leftRead, rightRead, decide_eq_true_eq, min_def]

theorem max_picks : max x y = if jsonGe ops left right then x else y := by
  simp only [jsonGe, leftRead, rightRead, decide_eq_true_eq, ge_iff_le]
  rw [max_comm, max_def]

end

/-- A kept value shows the number it was printed from. -/
theorem denotes_kept {kept : Option Value} {n : Option ℚ} (h : kept.map jsonNum = n.map some) :
    Denotes (kept.getD .null) (.number n) := by
  cases kept with
  | none =>
    cases n with
    | none => rfl
    | some n => cases h
  | some v =>
    cases n with
    | none => cases h
    | some n => exact Option.some_inj.mp h

theorem reduceOne_min (kind : spec.kind = .min) (wire : Wire)
    (adds : Additive values) (reads : ∀ part, shows part spec.output =
      some (wire.ofNumber (values part).min?)) :
    Denotes (reduceOne ops spec (readParts ops spec shows parts))
      (.number (values parts.flatten).min?) := by
  have least : ((readParts ops spec shows parts).mins spec.output).map
      jsonNum = (values parts.flatten).min?.map some := by
    refine adds.readParts parts (fun acc seen => (acc.mins spec.output).map jsonNum =
      seen.min?.map some) rfl ?_
    intro acc seen part h
    simp only [accumulate, kind, reads, min?_append]
    exact keepBest_printed (min_picks ops) wire h _
  simp only [reduceOne, kind]
  exact denotes_kept least

theorem reduceOne_max (kind : spec.kind = .max) (wire : Wire)
    (adds : Additive values) (reads : ∀ part, shows part spec.output =
      some (wire.ofNumber (values part).max?)) :
    Denotes (reduceOne ops spec (readParts ops spec shows parts))
      (.number (values parts.flatten).max?) := by
  have greatest : ((readParts ops spec shows parts).maxes spec.output).map
      jsonNum = (values parts.flatten).max?.map some := by
    refine adds.readParts parts (fun acc seen => (acc.maxes spec.output).map jsonNum =
      seen.max?.map some) rfl ?_
    intro acc seen part h
    simp only [accumulate, kind, reads, max?_append]
    exact keepBest_printed (max_picks ops) wire h _
  simp only [reduceOne, kind]
  exact denotes_kept greatest

theorem denotes_flagValue (flag : Option Bool) : Denotes (flagValue flag) (.flag flag) := by
  cases flag with
  | none => rfl
  | some flag => cases flag <;> rfl

theorem reduceOne_boolAnd (kind : spec.kind = .boolAnd)
    {vs : List Item → List Bool} (adds : Additive vs)
    (reads : ∀ part, (shows part spec.output).bind asBool = conjunction (vs part)) :
    Denotes (reduceOne ops spec (readParts ops spec shows parts))
      (.flag (conjunction (vs parts.flatten))) := by
  have join : (readParts ops spec shows parts).boolsAnd spec.output =
      conjunction (vs parts.flatten) := by
    refine adds.readParts parts (fun acc seen => acc.boolsAnd spec.output = conjunction seen) rfl ?_
    intro acc seen part h
    simp [accumulate, kind, addFlag_self, h, reads, joinFlag_conjunction]
  simp only [reduceOne, kind, join]
  exact denotes_flagValue _

theorem reduceOne_boolOr (kind : spec.kind = .boolOr)
    {vs : List Item → List Bool} (adds : Additive vs)
    (reads : ∀ part, (shows part spec.output).bind asBool = disjunction (vs part)) :
    Denotes (reduceOne ops spec (readParts ops spec shows parts))
      (.flag (disjunction (vs parts.flatten))) := by
  have join : (readParts ops spec shows parts).boolsOr spec.output =
      disjunction (vs parts.flatten) := by
    refine adds.readParts parts (fun acc seen => acc.boolsOr spec.output = disjunction seen) rfl ?_
    intro acc seen part h
    simp [accumulate, kind, addFlag_self, h, reads, joinFlag_disjunction]
  simp only [reduceOne, kind, join]
  exact denotes_flagValue _

/-- Count, sum and sum of squares give the variance. -/
theorem reduceVariance_eq (sample : Bool) (numbers : List ℚ) :
    reduceVariance sample numbers.length numbers.sum (squares numbers).sum =
      variance sample numbers := by
  rw [reduceVariance, variance]
  by_cases empty : numbers = []
  · simp [empty]
  · have deviations := sum_deviations_mean empty
    have sums : (numbers.length : ℚ) ≠ 0 := by simpa using empty
    have denominator : (if sample = true then (numbers.length : ℚ) - 1
        else numbers.length) = numbers.length - if sample = true then 1 else 0 := by
      split
      · rfl
      · rw [sub_zero]
    have many : ((numbers.length : ℚ) - if sample = true then 1 else 0) ≤ 0 ↔
        numbers.length ≤ if sample = true then 1 else 0 := by
      rw [sub_nonpos]
      split
      · exact_mod_cast Iff.rfl
      · exact_mod_cast Iff.rfl
    simp only [sums, if_false, denominator, many, ← deviations]
    by_cases few : numbers.length ≤ if sample = true then 1 else 0
    · simp [few]
    · simp only [few, if_false]
      rw [max_eq_left]
      apply div_nonneg
      · apply sum_nonneg
        intro square mem
        rcases mem_map.mp mem with ⟨n, _, rfl⟩
        exact sq_nonneg _
      · exact le_of_not_ge fun small => few (many.mp small)

theorem reduceOne_variance {sample : Bool} (kind : spec.kind = .variance sample)
    (adds : Additive vs) (readsCount : ∀ part, readNum (shows part) (helperName "n" spec) =
      some ((vs part).length : ℚ))
    (readsMean : ∀ part, readNum (shows part) (helperName "m" spec) = mean (vs part))
    (readsSquares : ∀ part, readNum (shows part) (helperName "q" spec) =
      total (squares (vs part))) :
    Denotes (reduceOne ops spec (readParts ops spec shows parts))
      (.number (variance sample (vs parts.flatten))) := by
  have ne := helperName_sum_ne_q spec spec
  have got : ((readParts ops spec shows parts).counts spec.output).getD 0 =
          ((vs parts.flatten).length : ℚ) ∧
        ((readParts ops spec shows parts).sums
          (helperName "sum" spec)).getD 0 = (vs parts.flatten).sum ∧
        ((readParts ops spec shows parts).sums (helperName "q" spec)).getD 0 =
            (squares (vs parts.flatten)).sum := by
    refine adds.readParts parts (fun acc seen => (acc.counts spec.output).getD 0 =
      (seen.length : ℚ) ∧
        (acc.sums (helperName "sum" spec)).getD 0 = seen.sum ∧
        (acc.sums (helperName "q" spec)).getD 0 = (squares seen).sum) ⟨rfl, rfl, rfl⟩ ?_
    rintro acc seen part ⟨sums, summed, squared⟩
    simp only [accumulate, kind, readsCount, readsMean, readsSquares,
      Option.getD_some, Nat.cast_pos, length_pos_iff]
    by_cases empty : vs part = []
    · simp only [empty, ne_eq, not_true_eq_false, if_false, append_nil]
      exact ⟨sums, summed, squared⟩
    · have average : mean (vs part) = some ((vs part).sum / (vs part).length) := by
        simp [mean, empty]
      simp [empty, average, mean_mul_length empty, addNumber_self, addNumber_of_ne ne,
        addNumber_of_ne ne.symm, getD_addTotal, sums, summed, squared, getD_total, squares]
  simp only [reduceOne, kind, got.1, got.2.1, got.2.2, reduceVariance_eq]
  cases variance sample (vs parts.flatten) <;> rfl

end

/-! ## The parts of a group -/

section

variable {V : Type} [DecidableEq V]

/-- The groups of the slices that the gateway sees under a key. -/
def partsAt (engine : Engine V) (json : V → Value) (plan : AggregatePlan)
    (slices : List (List (Row V))) (key : List Value) :
    List (List (Row V)) :=
  (sliceGroups engine plan slices).filter fun group =>
    rowKey plan (answerRow engine json plan group) = key

variable {select : Select} {plan : AggregatePlan} (grouped : plan.groupKeys ≠ [])
include grouped

theorem flatten_sqlGroups (key : List V) (rows : List (Row V)) :
    ((sqlGroups plan.groupKeys rows).filter fun group =>
      headKey plan group = key).flatten = itemsOf (sqlKey plan.groupKeys) key rows := by
  have headOf : ∀ other ∈ (rows.map (sqlKey plan.groupKeys)).dedup,
      headKey plan (itemsOf (sqlKey plan.groupKeys) other rows) = other := by
    intro other isKey
    rcases mem_map.mp (mem_dedup.mp isKey) with ⟨row, isRow, rfl⟩
    have mem : row ∈ itemsOf (sqlKey plan.groupKeys) (sqlKey plan.groupKeys row) rows :=
      mem_filter.mpr ⟨isRow, decide_eq_true rfl⟩
    cases group : itemsOf (sqlKey plan.groupKeys) (sqlKey plan.groupKeys row) rows with
    | nil =>
      rw [group] at mem
      cases mem
    | cons first rest =>
      have firstIn : first ∈ itemsOf (sqlKey plan.groupKeys) (sqlKey plan.groupKeys row) rows := by
        rw [group]
        exact mem_cons_self
      exact of_decide_eq_true (mem_filter.mp firstIn).2
  rw [sqlGroups_of_ne_nil grouped, filter_map, ← flatten_groups key rows]
  congr 2
  apply filter_congr
  intro other isKey
  rw [Function.comp_apply, headOf other isKey]

/-- The groups of the slices seen under a key are parts of its group. -/
theorem flatten_partsAt (keysOnly : ∀ column ∈ plan.plainColumns, column.1 ∈ plan.groupKeys)
    (aligned : Aligned select plan) (inj : Function.Injective json) {table : List (Row V)}
    {slices : List (List (Row V))} (shared : table.Perm slices.flatten)
    (isRow : row ∈ kept engine plan.filter table) :
    (partsAt engine json plan slices (translated engine json plan slices
      (sqlKey plan.groupKeys row))).flatten.Perm
      (itemsOf (sqlKey plan.groupKeys) (sqlKey plan.groupKeys row)
      (kept engine plan.filter table)) := by
  have eqParts : partsAt engine json plan slices
      (translated engine json plan slices (sqlKey plan.groupKeys row)) =
        (sliceGroups engine plan slices).filter fun group =>
          headKey plan group = sqlKey plan.groupKeys row := by
    rw [translated_sqlKey grouped keysOnly aligned.uncalled shared isRow]
    apply filter_congr
    intro group grp
    rw [decide_eq_decide]
    constructor
    · intro eqKey
      rcases exists_of_mem_sliceGroups grouped grp with ⟨_, _, first, rest, rfl, _, _⟩
      rw [rowKey_answerRow keysOnly aligned.uncalled] at eqKey
      exact sqlKey_eq_of_gatewayKey inj aligned.found eqKey
    · exact rowKey_of_headKey grouped keysOnly aligned.uncalled grp
  have bySlice : (partsAt engine json plan slices (translated engine json plan slices
        (sqlKey plan.groupKeys row))).flatten =
      itemsOf (sqlKey plan.groupKeys) (sqlKey plan.groupKeys row)
        (slices.flatMap (kept engine plan.filter)) := by
    rw [eqParts, sliceGroups, filter_flatMap, itemsOf, filter_flatMap]
    simp only [flatMap_def, flatten_flatten, map_map]
    congr 1
    apply map_congr_left
    intro slice _
    exact flatten_sqlGroups grouped _ _
  rw [bySlice]
  exact ((kept_perm shared plan.filter).filter _).symm

omit grouped in
/-- The merged row of a key shows what an aggregate makes of its groups. -/
theorem mergedAt_output (ops : FloatOps) (alone : Alone plan spec) (slices : List (List (Row V)))
    (key : List Value) :
    mergedAt engine json plan ops slices key spec.output =
      some (reduceOne ops spec (readParts ops spec (answerRow engine json plan)
      (partsAt engine json plan slices key))) := by
  have agree : Agree spec (accAt engine json plan ops slices key)
      (readParts ops spec (answerRow engine json plan) (partsAt engine json plan slices key)) := by
    have shown : itemsOf (rowKey plan) key
        ((sliceGroups engine plan slices).map (answerRow engine json plan)) =
        (partsAt engine json plan slices key).map (answerRow engine json plan) := by
      rw [itemsOf, filter_map]
      rfl
    have read : readParts ops spec (answerRow engine json plan)
        (partsAt engine json plan slices key) = ((partsAt engine json plan slices key).map
            (answerRow engine json plan)).foldl
              (fun acc row => accumulate ops row acc spec) Acc.start := by
      rw [foldl_map]
      rfl
    rw [accAt, shown, read]
    exact Agree.foldl alone _ (Agree.refl _ _)
  rcases alone with ⟨init, back, split, sep⟩
  have notLater : lastNamed (back.map fun other =>
      (other.output, reduceOne ops other
        (accAt engine json plan ops slices key))) spec.output = none := by
    rw [lastNamed_eq_none_iff]
    intro field mem eqName
    rcases mem_map.mp mem with ⟨other, oth, rfl⟩
    exact (sep other (mem_append_right _ oth)).outputs eqName.symm
  have last : lastNamed (plan.aggregates.map fun other =>
      (other.output, reduceOne ops other (accAt engine json plan ops slices key))) spec.output =
      some (reduceOne ops spec (accAt engine json plan ops slices key)) := by
    rw [split, map_append, lastNamed_append, map_cons,
      ← singleton_append, lastNamed_append, notLater]
    simp [lastNamed]
  rw [mergedAt, mergedFields, lastNamed_append, last, Option.some_or, agree.reduceOne]

end

/-! ## Aggregates of a plain query -/

theorem helperName_eq_iff : helperName mark left = helperName mark right ↔
      left.output ++ "_" ++ left.arg = right.output ++ "_" ++ right.arg := by
  rw [← String.toList_inj, ← String.toList_inj]
  simp [helperName]

theorem Wire.jsonNum_ofNumber (wire : Wire) (number : Option ℚ) :
    jsonNum (wire.ofNumber number) = number := by
  cases number with
  | none => rfl
  | some number => exact wire.number_read number

theorem Wire.asBool_ofFlag (wire : Wire) (flag : Option Bool) :
    asBool (wire.ofFlag flag) = flag := by
  cases flag with
  | none => rfl
  | some flag => exact wire.flag_read flag

section

variable {plain : PlainQuery}

theorem outputs_pairwise : plain.reported.Pairwise fun left right =>
      left.output.val ≠ right.output.val := by
  have shownOutputs : plain.shown.Pairwise fun left right =>
      left.output ≠ right.output :=
    pairwise_map.mp plain.distinctOutputs
  rw [PlainQuery.reported, pairwise_filterMap]
  apply shownOutputs.imp
  intro left right ne leftReported hl rightReported hr eq
  cases left with
  | key name => cases hl
  | aggregate reported =>
    cases right with
    | key name => cases hr
    | aggregate other =>
      cases hl
      cases hr
      exact ne (Subtype.ext eq)

theorem spec_mem_aggregates (told : reported ∈ plain.reported) :
    reported.spec ∈ plain.plan.aggregates :=
  mem_map_of_mem told

theorem call_mem_selectList (told : reported ∈ plain.reported)
    (isCall : (label, call) ∈ specCalls reported.spec) :
    (label, Item.call call) ∈ selectList plain.plan := by
  apply mem_append_right
  rw [callItems, mem_flatMap]
  exact ⟨reported.spec, spec_mem_aggregates told, mem_map_of_mem isCall⟩

theorem sumKeys_spec (reported : Reported) :
    (reported.spec.kind = .sum ∨ reported.spec.kind = .avg) ∧
      sumKeys reported.spec = [reported.output.val] ∨
      (∃ sample, reported.spec.kind = .variance sample) ∧ sumKeys reported.spec =
      [helperName "sum" reported.spec, helperName "q" reported.spec] ∨
      sumKeys reported.spec = [] := by
  rcases reported with ⟨measure, label⟩
  cases measure with
  | rows => exact .inr (.inr rfl)
  | of fn col =>
    cases fn with
    | sum => exact .inl ⟨.inl rfl, rfl⟩
    | avg => exact .inl ⟨.inr rfl, rfl⟩
    | variance | varSamp | varPop => exact .inr (.inl ⟨⟨_, rfl⟩, rfl⟩)
    | _ => exact .inr (.inr rfl)

variable (unshared : Unshared plain.plan)
include unshared

section

variable (hl : left ∈ plain.reported) (hr : right ∈ plain.reported)
include hl hr

/-- Two variances whose helpers share a name are one. -/
theorem output_eq_of_helperName (leftSpread : ∃ sample, left.spec.kind = .variance sample)
    (rightSpread : ∃ sample, right.spec.kind = .variance sample)
    (eq : helperName mark left.spec = helperName mark right.spec) :
    left.output.val = right.output.val := by
  rcases leftSpread with ⟨leftSample, leftKind⟩
  rcases rightSpread with ⟨rightSample, rightKind⟩
  have sameTail := helperName_eq_iff.mp eq
  have leftCall : (helperName "n" left.spec, ⟨"count", left.spec.arg⟩) ∈
      specCalls left.spec := by
    simp [specCalls, leftKind]
  have rightCall : (helperName "n" right.spec, ⟨"count", right.spec.arg⟩) ∈
      specCalls right.spec := by
    simp [specCalls, rightKind]
  have sameItem := unshared.labels _ (call_mem_selectList hl leftCall)
    _ (call_mem_selectList hr rightCall) (helperName_eq_iff.mpr sameTail)
  have sameArg : left.spec.arg = right.spec.arg := by simpa using sameItem
  rw [sameArg, ← String.toList_inj] at sameTail
  have sameOutput : left.spec.output = right.spec.output := by
    rw [← String.toList_inj]
    simpa using sameTail
  exact sameOutput

theorem separate_specs (ne : left.output.val ≠ right.output.val) :
    Separate left.spec right.spec := by
  refine ⟨ne, ?_⟩
  have leftSpec := spec_mem_aggregates hl
  have rightSpec := spec_mem_aggregates hr
  intro name inLeft inRight
  rcases sumKeys_spec left with ⟨leftAdds, keys⟩ | ⟨leftSpread, keys⟩ | keys <;>
    rw [keys] at inLeft <;>
    rcases sumKeys_spec right with ⟨rightAdds, keys⟩ | ⟨rightSpread, keys⟩ | keys <;>
    rw [keys] at inRight <;>
    simp only [mem_cons, not_mem_nil, or_false] at inLeft inRight
  · exact ne (inLeft.symm.trans inRight)
  · have nodup := unshared.totals _ leftSpec _ rightSpec leftAdds rightSpread
    rcases inRight with isSum | isSquares
    · exact nodup.1 (inLeft.symm.trans isSum)
    · exact nodup.2 (inLeft.symm.trans isSquares)
  · have nodup := unshared.totals _ rightSpec _ leftSpec rightAdds leftSpread
    rcases inLeft with isSum | isSquares
    · exact nodup.1 (inRight.symm.trans isSum)
    · exact nodup.2 (inRight.symm.trans isSquares)
  · rcases inLeft with rfl | rfl
    · rcases inRight with eq | eq
      · exact ne (output_eq_of_helperName unshared hl hr leftSpread rightSpread eq)
      · exact helperName_sum_ne_q _ _ eq
    · rcases inRight with eq | eq
      · exact helperName_sum_ne_q _ _ eq.symm
      · exact ne (output_eq_of_helperName unshared hl hr leftSpread rightSpread eq)

end

theorem separate_aggregates : plain.plan.aggregates.Pairwise Separate := by
  rw [PlainQuery.plan, pairwise_map]
  apply outputs_pairwise.imp_of_mem
  intro left right hl hr ne
  exact separate_specs unshared hl hr ne

variable {V : Type} [DecidableEq V]

omit [DecidableEq V] in
/-- Under the label of an aggregate call a row shows its value. -/
theorem answerRow_label (told : reported ∈ plain.reported) {label : String} {call : Call}
    (isCall : (label, call) ∈ specCalls reported.spec) (group : List (Row V)) :
    answerRow engine json plain.plan group label = some (engine.aggregate call group) := by
  rw [answerRow, PlainQuery.lastNamed_answerFields unshared (call_mem_selectList told isCall)]
  rfl

omit [DecidableEq V] in
/-- The reduced value of an aggregate over the parts of a group. -/
theorem denotes_readParts (ops : FloatOps) (told : reported ∈ plain.reported)
    (comp : Computes typing engine wire reported.measure) (parts : List (List (Row V))) :
    Denotes (reduceOne ops reported.spec (readParts ops reported.spec
      (answerRow engine json plain.plan) parts))
      (sqlValue typing reported.measure parts.flatten) := by
  have shows : ∀ {label : String} {call : Call}, (label, call) ∈ specCalls reported.spec → ∀ part,
        answerRow engine json plain.plan part label = some (engine.aggregate call part) :=
    fun isCall part => answerRow_label unshared told isCall part
  have reads : ∀ {label : String} {call : Call},
      (label, call) ∈ specCalls reported.spec → ∀ {part number},
        engine.aggregate call part = wire.ofNumber number →
          readNum (answerRow engine json plain.plan part) label = number := by
    intro label call isCall part number computed
    rw [readNum, shows isCall, Option.bind_some, computed, wire.jsonNum_ofNumber]
  have flagged : ∀ {label : String} {call : Call},
      (label, call) ∈ specCalls reported.spec → ∀ {part flag},
        engine.aggregate call part = wire.ofFlag flag →
          (answerRow engine json plain.plan part label).bind asBool = flag := by
    intro label call isCall part flag computed
    rw [shows isCall, Option.bind_some, computed, wire.asBool_ofFlag]
  rcases reported with ⟨measure, aliasName⟩
  cases measure with
  | rows =>
    exact reduceOne_count parts (by rfl) Additive.self fun part =>
      reads mem_cons_self (comp part)
  | of fn col =>
    have adds := Additive.filterMap fun row : Row V =>
      typing.number (row col)
    have additiveFlags := Additive.filterMap fun row : Row V =>
      typing.flag (row col)
    have first : ∀ {entry : String × Call} {rest : List (String × Call)}, entry ∈ entry :: rest :=
      mem_cons_self
    cases fn with
    | count =>
      exact reduceOne_count parts (by rfl) adds fun part =>
        reads first (comp.count part)
    | sum =>
      exact reduceOne_sum parts (by rfl) adds fun part =>
        reads first (comp.sum part)
    | avg =>
      exact reduceOne_avg parts (by rfl) adds (fun part => reads first (comp.count part))
        (fun part => reads (mem_cons_of_mem _ first) (comp.sum part))
    | min =>
      exact reduceOne_min parts (by rfl) wire adds fun part =>
        (shows first part).trans (congrArg some (comp.min part))
    | max =>
      exact reduceOne_max parts (by rfl) wire adds fun part =>
        (shows first part).trans (congrArg some (comp.max part))
    | variance | varSamp | varPop =>
      exact reduceOne_variance parts (by rfl) adds (fun part => reads first (comp.count part))
        (fun part => reads (mem_cons_of_mem _ first) (comp.avg part))
        (fun part => reads (mem_cons_of_mem _ (mem_cons_of_mem _ first)) (comp.squares part))
    | boolAnd =>
      exact reduceOne_boolAnd parts (by rfl) additiveFlags fun part =>
        flagged first (comp.boolAnd part)
    | boolOr =>
      exact reduceOne_boolOr parts (by rfl) additiveFlags fun part =>
        flagged first (comp.boolOr part)

end

/-! ## Exact values -/

section

variable {V : Type} [DecidableEq V]

/-- The groups of a query; without keys there is one, even of no rows. -/
def queryGroups (engine : Engine V) (select : Select) (table : List (Row V)) : List (List V) :=
  if (groupTexts select).isEmpty then [[]]
  else wholeGroups engine select table

/--
All providers answer, and the merged rows are one row for every group of the
query, with the group's values, whose aggregates are each reduced from parts
of the group.
-/
def Assembled (ops : FloatOps) (engine : Engine V) (json : V → Value)
    (select : Select) (plan : AggregatePlan) (table : List (Row V))
    (slices : List (List (Row V))) : Prop :=
  ∃ partials, slices.mapM (answer engine json (sourceOf select) plan) = some partials ∧
    ∃ (rowOf : List V → Object) (partsOf : List V → List (List (Row V))),
      (mergeGroups ops plan partials).Perm ((queryGroups engine select table).map rowOf) ∧
      (∀ row ∈ selected engine select table, ∀ item ∈ projected select,
        rowOf (sqlKey (groupTexts select) row) item.2 = some (json (row item.1))) ∧
      ∀ key ∈ queryGroups engine select table,
        (partsOf key).flatten.Perm (itemsOf (sqlKey (groupTexts select)) key
          (selected engine select table)) ∧
        ∀ spec, Alone plan spec → rowOf key spec.output = some (reduceOne ops spec
            (readParts ops spec (answerRow engine json plan) (partsOf key)))

/--
All providers answer, and the merged rows are, in some order, one row for
every group of the query, which carries the group's values and under every
aggregate's name the SQL value over all rows of the group.
-/
def ValuesExact (ops : FloatOps) (engine : Engine V) (json : V → Value)
    (typing : Typing V) (plain : PlainQuery) (plan : AggregatePlan)
    (table : List (Row V)) (slices : List (List (Row V))) : Prop :=
  ∃ partials, slices.mapM (answer engine json (sourceOf plain.select) plan) = some partials ∧
    ∃ rowOf : List V → Object, (mergeGroups ops plan partials).Perm
        ((queryGroups engine plain.select table).map rowOf) ∧
      (∀ row ∈ selected engine plain.select table, ∀ item ∈ projected plain.select,
          rowOf (sqlKey (groupTexts plain.select) row) item.2 = some (json (row item.1))) ∧
      ∀ key ∈ queryGroups engine plain.select table, ∀ reported ∈ plain.reported, ∃ value,
          rowOf key reported.output.val = some value ∧
            Denotes value (sqlValue typing reported.measure
              (itemsOf (sqlKey (groupTexts plain.select)) key (selected engine plain.select table)))

theorem groupTexts_select (plain : PlainQuery) : groupTexts plain.select = plain.keyNames := by
  simp only [groupTexts, PlainQuery.select, map_map]
  rfl

section

variable {select : Select} {plan : AggregatePlan} (sameFilter : plan.filter = filterText select)
  (aligned : Aligned select plan) (ops : FloatOps) {table : List (Row V)}
  {slices : List (List (Row V))} (shared : table.Perm slices.flatten)
include sameFilter aligned shared

theorem assembled_of_grouped (eqKeys : plan.groupKeys = groupTexts select)
    (grouped : plan.groupKeys ≠ [])
    (keysOnly : ∀ column ∈ plan.plainColumns, column.1 ∈ plan.groupKeys)
    (inj : Function.Injective json) :
    Assembled ops engine json select plan table slices := by
  have gs : queryGroups engine select table =
      ((kept engine plan.filter table).map (sqlKey plan.groupKeys)).dedup := by
    rw [queryGroups, if_neg, wholeGroups, selected, ← sameFilter, ← eqKeys]
    rw [← eqKeys]
    simpa using grouped
  refine ⟨_, mapM_answer aligned.runs slices, fun key =>
    mergedAt engine json plan ops slices (translated engine json plan slices key), fun key =>
    partsAt engine json plan slices (translated engine json plan slices key), ?_, ?_, ?_⟩
  · rw [gs]
    exact mergeGroups_translated grouped keysOnly aligned.uncalled ops inj aligned.found shared
  · intro row isRow x isItem
    rw [selected, ← sameFilter] at isRow
    rcases aligned.carried x isItem with ⟨key, text, shown, found, sameColumn⟩
    rw [← eqKeys, ← sameColumn]
    exact mergedAt_translated grouped keysOnly aligned.uncalled ops shared isRow shown found
  · intro key isKey
    rw [gs, mem_dedup] at isKey
    rcases mem_map.mp isKey with ⟨row, isRow, rfl⟩
    rw [← eqKeys, selected, ← sameFilter]
    refine ⟨flatten_partsAt grouped keysOnly aligned inj shared isRow, ?_⟩
    intro spec alone
    exact mergedAt_output ops alone slices _

theorem assembled_of_ungrouped (noKeys : groupTexts select = []) (ungrouped : plan.groupKeys = [])
    (noColumns : plan.plainColumns = []) (full : slices ≠ []) :
    Assembled ops engine json select plan table slices := by
  have noTexts : keyTexts plan = [] := by
    rw [keyTexts, ungrouped, noColumns]
    rfl
  have noKey : ∀ row, rowKey plan row = [] := by
    intro row
    rw [rowKey, noTexts, map_nil]
  have gs : queryGroups engine select table = [[]] := by
    rw [queryGroups, if_pos]
    rw [noKeys]
    rfl
  have bySlice : sliceGroups engine plan slices = slices.map (kept engine plan.filter) := by
    have single : ∀ rows : List (Row V), sqlGroups plan.groupKeys rows = [rows] := by
      intro rows
      simp [sqlGroups, ungrouped]
    simp only [sliceGroups, single]
    exact flatMap_pure_eq_map _ _
  refine ⟨_, mapM_answer aligned.runs slices, fun _ =>
    mergedAt engine json plan ops slices [], fun _ =>
    partsAt engine json plan slices [], ?_, ?_, ?_⟩
  · refine (mergeGroups_perm ops slices).trans ?_
    have oneKey : ((sliceGroups engine plan slices).map fun group =>
        rowKey plan (answerRow engine json plan group)).dedup = [[]] := by
      simp only [noKey, map_const']
      apply replicate_dedup
      rw [bySlice, length_map]
      simpa using full
    rw [oneKey, gs]
    exact .refl _
  · intro row isRow x isItem
    rcases aligned.carried x isItem with ⟨key, _, shown, _⟩
    rw [shownKey, noTexts, zip_nil_right] at shown
    split at shown <;> cases shown
  · intro key isKey
    rw [gs, mem_singleton] at isKey
    subst isKey
    have allParts : partsAt engine json plan slices [] = sliceGroups engine plan slices := by
      simp [partsAt, noKey]
    have allRows : ∀ rows : List (Row V), itemsOf (sqlKey (groupTexts select)) [] rows = rows := by
      intro rows
      simp [itemsOf, sqlKey, noKeys]
    refine ⟨?_, fun spec alone => mergedAt_output ops alone slices _⟩
    rw [allParts, bySlice, allRows, ← flatMap_def, selected, ← sameFilter]
    exact (kept_perm shared plan.filter).symm

end

theorem PlainQuery.assembled {plain : PlainQuery} {engine : Engine V}
    {json : V → Value} (unshared : Unshared plain.plan) (ops : FloatOps)
    (inj : Function.Injective json) {table : List (Row V)}
    {slices : List (List (Row V))} (full : slices ≠ []) (shared : table.Perm slices.flatten) :
    Assembled ops engine json plain.select plain.plan table slices := by
  have aligned := PlainQuery.aligned_plan unshared
  by_cases ungrouped : plain.keyNames = []
  · apply assembled_of_ungrouped rfl aligned ops shared
      ((groupTexts_select plain).trans ungrouped) ungrouped _ full
    rw [PlainQuery.plan, ungrouped]
    rfl
  · apply assembled_of_grouped rfl aligned ops shared (groupTexts_select plain).symm ungrouped _ inj
    intro col isColumn
    rcases mem_map.mp isColumn with ⟨key, isKey, rfl⟩
    exact isKey

end

/--
For every plain query whose plan shares no labels and no sums, the merged
rows carry the SQL values of all aggregates over the whole groups.
-/
theorem unshared_plan_values_exact {V : Type} [DecidableEq V] {json : V → Value}
    {plain : PlainQuery} {plan : AggregatePlan}
    (accepted : planQuery plain.query = .ok plan)
    (unshared : Unshared plan)
    (injective : Function.Injective json)
    (ops : FloatOps) {engine : Engine V} {typing : Typing V} {wire : Wire}
    (computes : ∀ reported ∈ plain.reported, Computes typing engine wire reported.measure)
    {table : List (Row V)} {slices : List (List (Row V))}
    (inhabited : slices ≠ []) (shared : table.Perm slices.flatten) :
    ValuesExact ops engine json typing plain plan table slices := by
  have samePlan := plain.plan_eq accepted
  subst samePlan
  rcases PlainQuery.assembled unshared ops injective inhabited shared with
    ⟨partials, got, rowOf, partsOf, both, shown, gs⟩
  refine ⟨partials, got, rowOf, both, shown, ?_⟩
  intro key isKey reported told
  rcases gs key isKey with ⟨eqRows, aggs⟩
  refine ⟨_, aggs _ (alone_of_pairwise
    (spec_mem_aggregates told) (separate_aggregates unshared)), ?_⟩
  rw [← sqlValue_perm typing reported.measure eqRows]
  exact denotes_readParts unshared ops told (computes reported told) _

/-! ## Two queries -/

def cellJson : Option ℚ → Value
  | some number => .number number
  | none => .null

def plainWire : Wire where
  number := .number
  flag := .bool
  number_read _ := rfl
  flag_read _ := rfl

def cellTyping : Typing (Option ℚ) where
  number cell := cell
  flag cell := cell.map fun number => decide (number ≠ 0)

/-- The value of a call of a function over a list of numbers. -/
def numberValue (function : String) (numbers : List ℚ) : Value :=
  match function with
  | "count" => .number numbers.length
  | "sum" => plainWire.ofNumber (total numbers)
  | "avg" => plainWire.ofNumber (mean numbers)
  | "min" => plainWire.ofNumber numbers.min?
  | "max" => plainWire.ofNumber numbers.max?
  | _ => .null

/-- An engine for a table with some columns of numbers. -/
def cellEngine (columns : List String) : Engine (Option ℚ) where
  holds _ _ := true
  aggregate call rows :=
    if call.argument = "*" then .number rows.length
    else
      match columns.find? fun column => call.argument = column with
      | some column =>
        numberValue call.function (numbers cellTyping column rows)
      | none =>
        match columns.find? fun column =>
          call.argument = "(" ++ column ++ ") * (" ++ column ++ ")" with
        | some column =>
          numberValue call.function (squares (numbers cellTyping column rows))
        | none => .null

/-- `SELECT kind, count(*), variance(size) AS spread … GROUP BY kind`. -/
def spreadQuery : PlainQuery where
  table := ⟨"events", by decide⟩
  filter := none
  keys := [⟨"kind", by decide⟩]
  shown := [.key ⟨"kind", by decide⟩, .aggregate ⟨.rows, none⟩,
    .aggregate ⟨.of .variance ⟨"size", by decide⟩,
      some ⟨"spread", by decide⟩⟩]
  distinctKeys := by decide
  inOrder := rfl
  distinctOutputs := by decide

def spreadRow (kind size : Option ℚ) : Row (Option ℚ) := fun column =>
  if column = "kind" then kind else if column = "size" then size else none

theorem cellEngine_size : SqlNumbers cellTyping (cellEngine ["size"]) plainWire "size" :=
  ⟨fun _ => rfl, fun _ => rfl, fun _ => rfl, fun _ => rfl, fun _ => rfl, fun _ => rfl⟩

theorem cellJson_injective : Function.Injective cellJson := by
  intro left right eq
  cases left <;> cases right <;> simp_all [cellJson]

theorem spread_values_exact :
    ValuesExact plainOps (cellEngine ["size"]) cellJson cellTyping spreadQuery
      spreadQuery.plan
      [spreadRow (some 1) (some 3), spreadRow (some 1) none,
        spreadRow none (some 5), spreadRow (some 1) (some 7)]
      [[spreadRow (some 1) (some 3), spreadRow (some 1) none], [],
        [spreadRow none (some 5), spreadRow (some 1) (some 7)]] := by
  have ok : planQuery spreadQuery.query = .ok spreadQuery.plan := rfl
  have unshared : Unshared spreadQuery.plan := by
    constructor
    · decide
    · decide
  have comp : ∀ reported ∈ spreadQuery.reported,
      Computes cellTyping (cellEngine ["size"]) plainWire
        reported.measure := by
    intro reported told
    rcases mem_cons.mp told with rfl | late
    · exact fun _ => rfl
    · rw [mem_singleton.mp late]
      exact cellEngine_size
  exact unshared_plan_values_exact ok unshared cellJson_injective plainOps comp (by simp) (.refl _)

/-- `SELECT avg(c) AS a_b, avg(b_c) AS a FROM t`. -/
def sharedQuery : PlainQuery where
  table := ⟨"t", by decide⟩
  filter := none
  keys := []
  shown :=
    [.aggregate ⟨.of .avg ⟨"c", by decide⟩, some ⟨"a_b", by decide⟩⟩,
      .aggregate ⟨.of .avg ⟨"b_c", by decide⟩, some ⟨"a", by decide⟩⟩]
  distinctKeys := by decide
  inOrder := rfl
  distinctOutputs := by decide

def sharedRow : Row (Option ℚ) := fun column =>
  if column = "c" then some 1 else if column = "b_c" then some 2 else none

/-- Both averages are read from the helpers of the second. -/
theorem shared_helpers_misread : planQuery sharedQuery.query = .ok sharedQuery.plan ∧
      (∀ reported ∈ sharedQuery.reported,
        Computes cellTyping (cellEngine ["c", "b_c"]) plainWire
          reported.measure) ∧
      ¬ ValuesExact plainOps (cellEngine ["c", "b_c"]) cellJson cellTyping
        sharedQuery sharedQuery.plan [sharedRow] [[sharedRow]] := by
  refine ⟨rfl, ?_, ?_⟩
  · intro reported told
    rcases mem_cons.mp told with rfl | isLater
    · exact ⟨fun _ => rfl, fun _ => rfl, fun _ => rfl, fun _ => rfl, fun _ => rfl, fun _ => rfl⟩
    · rw [mem_singleton.mp isLater]
      exact ⟨fun _ => rfl, fun _ => rfl, fun _ => rfl, fun _ => rfl, fun _ => rfl, fun _ => rfl⟩
  · rintro ⟨partials, answered, rowOf, both, _, vs⟩
    have groups : queryGroups (cellEngine ["c", "b_c"]) sharedQuery.select
        [sharedRow] = [[]] := rfl
    rw [groups] at both vs
    rcases vs [] mem_cons_self _ mem_cons_self with ⟨value, shown, denotes⟩
    rw [mapM_answer (PlainQuery.runsOn_plan sharedQuery)] at answered
    cases answered
    have oneRow := singleton_perm_singleton.mp both
    have misread : rowOf [] "a_b" = some (.number 2) := by
      rw [← oneRow]
      decide +kernel
    have isTwo : Json.number 2 = value := Option.some_inj.mp (misread.symm.trans shown)
    have isOne : sqlValue cellTyping (.of .avg ⟨"c", by decide⟩)
        [sharedRow] = .number (some 1) := by
      simp [sqlValue, numbers, cellTyping, sharedRow, mean]
    have onRow : Denotes (.number 2)
        (sqlValue cellTyping (.of .avg ⟨"c", by decide⟩) [sharedRow]) := by
      rw [isTwo]
      exact denotes
    rw [isOne] at onRow
    have wrong : (2 : ℚ) = 1 := Option.some_inj.mp onRow
    norm_num at wrong

end StorageOrchestrator.Aggregate.Values
