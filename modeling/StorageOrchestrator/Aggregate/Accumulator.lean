import StorageOrchestrator.Aggregate.Merge
import StorageOrchestrator.Lib.Statistics

/-!
# The accumulator, seen by one aggregate

All aggregates of a plan write into one accumulator.  An aggregate looks at
the entries under its output name and at the sums under the names of its
helpers.  Where no two aggregates of a plan use the same of these, each finds
what it would have found alone.
-/

namespace StorageOrchestrator.Aggregate.Accumulator

open Aggregate.Plan Aggregate.Partial Aggregate.Merge Lib.Statistics List

variable {spec : AggregateSpec} {plan : AggregatePlan} {right : Acc}

/-! ## Entries of one aggregate -/

def sumKeys (spec : AggregateSpec) : List String :=
  match spec.kind with
  | .sum | .avg => [spec.output]
  | .variance _ | .stdDev _ => [helperName "sum" spec, helperName "q" spec]
  | _ => []

/-- Two accumulators are the same to an aggregate. -/
structure Agree (spec : AggregateSpec) (left right : Acc) : Prop where
  counts : left.counts spec.output = right.counts spec.output
  sums : ∀ name ∈ sumKeys spec, left.sums name = right.sums name
  mins : left.mins spec.output = right.mins spec.output
  maxes : left.maxes spec.output = right.maxes spec.output
  boolsAnd : left.boolsAnd spec.output = right.boolsAnd spec.output
  boolsOr : left.boolsOr spec.output = right.boolsOr spec.output
  distinctSets :
    left.distinctSets spec.output = right.distinctSets spec.output
  lists : left.lists spec.output = right.lists spec.output

theorem Agree.refl (spec : AggregateSpec) (acc : Acc) : Agree spec acc acc :=
  ⟨rfl, fun _ _ => rfl, rfl, rfl, rfl, rfl, rfl, rfl⟩

theorem Agree.trans (left : Agree spec first second) (right : Agree spec second third) :
    Agree spec first third where
  counts := left.counts.trans right.counts
  sums name member := (left.sums name member).trans (right.sums name member)
  mins := left.mins.trans right.mins
  maxes := left.maxes.trans right.maxes
  boolsAnd := left.boolsAnd.trans right.boolsAnd
  boolsOr := left.boolsOr.trans right.boolsOr
  distinctSets := left.distinctSets.trans right.distinctSets
  lists := left.lists.trans right.lists

/-- Two aggregates use different entries. -/
structure Separate (spec other : AggregateSpec) : Prop where
  outputs : spec.output ≠ other.output
  sums : (sumKeys spec).Disjoint (sumKeys other)

theorem Separate.symm {other : AggregateSpec} (sep : Separate spec other) : Separate other spec :=
  ⟨sep.outputs.symm, sep.sums.symm⟩

/-- No other aggregate of a plan moves what an aggregate looks at. -/
def Alone (plan : AggregatePlan) (spec : AggregateSpec) : Prop :=
  ∃ front back, plan.aggregates = front ++ spec :: back ∧
    ∀ other ∈ front ++ back, Separate spec other

theorem alone_of_pairwise (isSpec : spec ∈ plan.aggregates)
    (sep : plan.aggregates.Pairwise Separate) : Alone plan spec := by
  rcases append_of_mem isSpec with ⟨init, back, split⟩
  refine ⟨init, back, split, ?_⟩
  rw [split, pairwise_append, pairwise_cons] at sep
  rcases sep with ⟨_, ⟨later, _⟩, early⟩
  intro other mem
  rcases mem_append.mp mem with inFront | inBack
  · exact (early other inFront spec mem_cons_self).symm
  · exact later other inBack

/-! ## Updates of one entry -/

section

variable {name other : String}

theorem addNumber_self (totals : String → Option ℚ) (name : String) (number : Option ℚ) :
    addNumber totals name number name = addTotal (totals name) number := by
  cases number with
  | none => rfl
  | some number => simp [addNumber, addTotal]

theorem addFlag_self (combine : Bool → Bool → Bool)
    (flags : String → Option Bool) (name : String) (flag : Option Bool) :
    addFlag combine flags name flag name = joinFlag combine (flags name) flag := by
  cases flag with
  | none => rfl
  | some flag => exact Function.update_self name _ flags

theorem keepBest_self (better : Value → Value → Bool) (eq : best name = best' name)
    (v : Option Value) :
    keepBest better best name v name = keepBest better best' name v name := by
  cases v with
  | none => exact eq
  | some v =>
    simp only [keepBest, eq]
    split
    · exact eq
    · cases best' name with
      | none => simp
      | some cur =>
        by_cases isBetter : better cur v = true
        · simp [isBetter, eq]
        · simp [isBetter]

variable (apart : name ≠ other)
include apart

theorem addNumber_of_ne (totals : String → Option ℚ) (n : Option ℚ) :
    addNumber totals other n name = totals name := by
  cases n with
  | none => rfl
  | some n => exact Function.update_of_ne apart _ _

theorem keepBest_of_ne (better : Value → Value → Bool)
    (best : String → Option Value) (v : Option Value) :
    keepBest better best other v name = best name := by
  cases v with
  | none => rfl
  | some v =>
    simp only [keepBest]
    split
    · rfl
    · cases best other with
      | none => exact Function.update_of_ne apart _ _
      | some cur =>
        by_cases isBetter : better cur v = true
        · simp [isBetter]
        · simp [isBetter, apart]

theorem addFlag_of_ne (combine : Bool → Bool → Bool)
    (flags : String → Option Bool) (flag : Option Bool) :
    addFlag combine flags other flag name = flags name := by
  cases flag with
  | none => rfl
  | some flag => exact Function.update_of_ne apart _ _

theorem addValues_of_ne (lists : String → Option (List Value)) (vs : List Value) :
    addValues lists other vs name = lists name :=
  Function.update_of_ne apart _ _

end

/-! ## Rows and runs -/

section

variable {other : AggregateSpec}

/-- Another aggregate changes nothing that this one looks at. -/
theorem Agree.accumulate_other (sep : Separate spec other) :
    Agree spec (accumulate ops row acc other) acc := by
  have apart := sep.outputs
  have sumsOf : ∀ {key : String}, key ∈ sumKeys other → ∀ totals n, ∀ name ∈ sumKeys spec,
        addNumber totals key n name = totals name := by
    intro key isKey totals n name mem
    apply addNumber_of_ne
    rintro rfl
    exact sep.sums mem isKey
  cases kind : other.kind with
  | count =>
    simp only [accumulate, kind]
    exact ⟨addNumber_of_ne apart _ _, fun _ _ => rfl, rfl, rfl, rfl, rfl, rfl, rfl⟩
  | sum =>
    have isKey : other.output ∈ sumKeys other := by simp [sumKeys, kind]
    simp only [accumulate, kind]
    exact ⟨rfl, sumsOf isKey _ _, rfl, rfl, rfl, rfl, rfl, rfl⟩
  | avg =>
    have isKey : other.output ∈ sumKeys other := by simp [sumKeys, kind]
    simp only [accumulate, kind]
    exact ⟨addNumber_of_ne apart _ _, sumsOf isKey _ _, rfl, rfl, rfl, rfl, rfl, rfl⟩
  | min =>
    simp only [accumulate, kind]
    exact ⟨rfl, fun _ _ => rfl, keepBest_of_ne apart _ _ _, rfl, rfl, rfl, rfl, rfl⟩
  | max =>
    simp only [accumulate, kind]
    exact ⟨rfl, fun _ _ => rfl, rfl, keepBest_of_ne apart _ _ _, rfl, rfl, rfl, rfl⟩
  | boolAnd =>
    simp only [accumulate, kind]
    exact ⟨rfl, fun _ _ => rfl, rfl, rfl, addFlag_of_ne apart _ _ _, rfl, rfl, rfl⟩
  | boolOr =>
    simp only [accumulate, kind]
    exact ⟨rfl, fun _ _ => rfl, rfl, rfl, rfl, addFlag_of_ne apart _ _ _, rfl, rfl⟩
  | countDistinct =>
    simp only [accumulate, kind]
    split
    · exact ⟨rfl, fun _ _ => rfl, rfl, rfl, rfl, rfl, addValues_of_ne apart _ _, rfl⟩
    · exact Agree.refl spec acc
  | stringAgg | arrayAgg | jsonAgg =>
    simp only [accumulate, kind]
    split
    · exact ⟨rfl, fun _ _ => rfl, rfl, rfl, rfl, rfl, rfl, addValues_of_ne apart _ _⟩
    · exact Agree.refl spec acc
  | variance _ | stdDev _ =>
    have isSum : helperName "sum" other ∈ sumKeys other := by simp [sumKeys, kind]
    have isSquares : helperName "q" other ∈ sumKeys other := by simp [sumKeys, kind]
    simp only [accumulate, kind]
    split
    · split
      · refine ⟨addNumber_of_ne apart acc.counts (some _), ?_, rfl, rfl, rfl, rfl, rfl, rfl⟩
        intro name mem
        simp only
        rw [sumsOf isSquares _ _ name mem, sumsOf isSum _ _ name mem]
      · exact Agree.refl spec acc
    · exact Agree.refl spec acc

theorem helperName_sum_ne_q (left right : AggregateSpec) :
    helperName "sum" left ≠ helperName "q" right := by
  intro eq
  have cs := congrArg String.toList eq
  simp [helperName] at cs

/-- What an aggregate makes of a row depends on what it looks at. -/
theorem Agree.accumulate_self (agree : Agree spec left right) :
    Agree spec (accumulate ops row left spec) (accumulate ops row right spec) := by
  cases kind : spec.kind with
  | count =>
    simp only [accumulate, kind]
    refine { agree with counts := ?_ }
    simp [addNumber_self, agree.counts]
  | sum =>
    have keys : sumKeys spec = [spec.output] := by simp [sumKeys, kind]
    simp only [accumulate, kind]
    refine { agree with sums := ?_ }
    intro name mem
    have out : name = spec.output := by simpa [keys] using mem
    subst out
    simp [addNumber_self, agree.sums _ mem]
  | avg =>
    have keys : sumKeys spec = [spec.output] := by simp [sumKeys, kind]
    simp only [accumulate, kind]
    refine { agree with counts := ?_, sums := ?_ }
    · simp [addNumber_self, agree.counts]
    · intro name mem
      have out : name = spec.output := by simpa [keys] using mem
      subst out
      simp [addNumber_self, agree.sums _ mem]
  | min =>
    simp only [accumulate, kind]
    exact { agree with mins := keepBest_self _ agree.mins _ }
  | max =>
    simp only [accumulate, kind]
    exact { agree with maxes := keepBest_self _ agree.maxes _ }
  | boolAnd =>
    simp only [accumulate, kind]
    refine { agree with boolsAnd := ?_ }
    simp [addFlag_self, agree.boolsAnd]
  | boolOr =>
    simp only [accumulate, kind]
    refine { agree with boolsOr := ?_ }
    simp [addFlag_self, agree.boolsOr]
  | countDistinct =>
    simp only [accumulate, kind]
    split
    · refine { agree with distinctSets := ?_ }
      simp [addValues, agree.distinctSets]
    · exact agree
  | stringAgg | arrayAgg | jsonAgg =>
    simp only [accumulate, kind]
    split
    · refine { agree with lists := ?_ }
      simp [addValues, agree.lists]
    · exact agree
  | variance _ | stdDev _ =>
    have keys : sumKeys spec =
        [helperName "sum" spec, helperName "q" spec] := by
      simp [sumKeys, kind]
    have apart := helperName_sum_ne_q spec spec
    simp only [accumulate, kind]
    split
    · split
      · refine { agree with counts := ?_, sums := ?_ }
        · simp [addNumber_self, agree.counts]
        · rw [keys]
          have sameSum := agree.sums (helperName "sum" spec) (by simp [keys])
          have sameSquares := agree.sums (helperName "q" spec) (by simp [keys])
          simp only [mem_cons, not_mem_nil, or_false]
          rintro name (rfl | rfl)
          · simp [addNumber_of_ne apart, addNumber_self, sameSum]
          · simp [addNumber_of_ne apart.symm, addNumber_self, sameSquares]
      · exact agree
    · exact agree

theorem Agree.reduceOne (agree : Agree spec left right) :
    reduceOne ops spec left = reduceOne ops spec right := by
  cases kind : spec.kind with
  | sum | avg =>
    have eq := agree.sums spec.output (by simp [sumKeys, kind])
    simp [Merge.reduceOne, kind, agree.counts, eq]
  | variance _ | stdDev _ =>
    have sameSum := agree.sums (helperName "sum" spec) (by simp [sumKeys, kind])
    have sameSquares := agree.sums (helperName "q" spec) (by simp [sumKeys, kind])
    simp [Merge.reduceOne, kind, agree.counts, sameSum, sameSquares]
  | _ =>
    simp [Merge.reduceOne, kind, agree.counts, agree.mins, agree.maxes, agree.boolsAnd,
      agree.boolsOr, agree.distinctSets, agree.lists]

theorem Agree.foldl_others {them : List AggregateSpec}
    (sep : ∀ other ∈ them, Separate spec other) (acc : Acc) :
    Agree spec (them.foldl (accumulate ops row) acc) acc := by
  induction them generalizing acc with
  | nil => exact Agree.refl spec acc
  | cons other them ih =>
    have rest := ih (fun later mem => sep later (mem_cons_of_mem _ mem))
      (accumulate ops row acc other)
    exact rest.trans (Agree.accumulate_other (sep other mem_cons_self))

/-- Of a row, an aggregate sees its own reading. -/
theorem Agree.accumulateRow (alone : Alone plan spec) (agree : Agree spec left right) :
    Agree spec (accumulateRow ops plan left row) (accumulate ops row right spec) := by
  rcases alone with ⟨init, back, split, sep⟩
  have pre : Agree spec (init.foldl (accumulate ops row) left) left := by
    apply Agree.foldl_others
    intro other mem
    exact sep other (mem_append_left _ mem)
  have post : ∀ other ∈ back, Separate spec other := by
    intro other mem
    exact sep other (mem_append_right _ mem)
  rw [Merge.accumulateRow, split, foldl_append, foldl_cons]
  exact (Agree.foldl_others post _).trans (pre.trans agree).accumulate_self

/-- Of a run of rows, an aggregate sees its own readings. -/
theorem Agree.foldl (alone : Alone plan spec) (rows : List Object) (agree : Agree spec left right) :
    Agree spec (rows.foldl (Merge.accumulateRow ops plan) left)
      (rows.foldl (fun acc row => accumulate ops row acc spec) right) := by
  induction rows generalizing left right with
  | nil => exact agree
  | cons row rows ih =>
    exact ih (agree.accumulateRow alone)

end

end StorageOrchestrator.Aggregate.Accumulator
