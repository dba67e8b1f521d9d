import Mathlib

/-!
# Aggregates of a list

The sum, mean, extremes and variance of a list of numbers and the conjunction
and disjunction of a list of flags, absent where a list has none, and how each
of them is put together from the parts of a list.
-/

namespace StorageOrchestrator.Lib.Statistics

open List

/-! ## Numbers -/

section

variable {K : Type*} [Field K]

/-- The sum of a list that is not empty. -/
def total (numbers : List K) : Option K :=
  if numbers.isEmpty then none else some numbers.sum

/-- The mean of a list that is not empty. -/
def mean (numbers : List K) : Option K :=
  if numbers.isEmpty then none else some (numbers.sum / numbers.length)

def squares (numbers : List K) : List K := numbers.map fun number => number * number

/--
The mean square deviation, over the count or, for a sample, over one less;
absent where that is not positive.
-/
def variance (sample : Bool) (numbers : List K) : Option K :=
  if numbers.length ≤ (if sample then 1 else 0) then none
  else
    some ((numbers.map fun number =>
      (number - numbers.sum / numbers.length) ^ 2).sum / (numbers.length - if sample then 1 else 0))

/-- Add a number, if there is one, to a sum, if there is one. -/
def addTotal (sum : Option K) : Option K → Option K
  | some number => some (sum.getD 0 + number)
  | none => sum

theorem getD_total (numbers : List K) : (total numbers).getD 0 = numbers.sum := by
  cases numbers <;> rfl

theorem getD_addTotal (sum n : Option K) : (addTotal sum n).getD 0 = sum.getD 0 + n.getD 0 := by
  cases n with
  | none => simp [addTotal]
  | some n => rfl

theorem addTotal_total (init back : List K) :
    addTotal (total init) (total back) = total (init ++ back) := by
  cases back with
  | nil => simp [total, addTotal]
  | cons n back =>
    have back_total : total (n :: back) = some (n :: back).sum := rfl
    have whole_total : total (init ++ n :: back) = some (init ++ n :: back).sum := by simp [total]
    rw [back_total, whole_total, addTotal, getD_total, sum_append]

theorem mean_mul_length [CharZero K] {numbers : List K} (full : numbers ≠ []) :
    numbers.sum / numbers.length * numbers.length = numbers.sum := by
  apply div_mul_cancel₀
  simpa using full

/-- Deviations from any point, from the sum and the sum of squares. -/
theorem sum_deviations (point : K) (numbers : List K) : (numbers.map fun n => (n - point) ^ 2).sum =
      (squares numbers).sum - 2 * point * numbers.sum + numbers.length * point ^ 2 := by
  induction numbers with
  | nil => simp [squares]
  | cons n numbers ih =>
    simp only [squares, map_cons, sum_cons, length_cons, Nat.cast_add, Nat.cast_one] at ih ⊢
    rw [ih]
    ring

theorem sum_deviations_mean [CharZero K] {numbers : List K} (full : numbers ≠ []) :
    (numbers.map fun n =>
      (n - numbers.sum / numbers.length) ^ 2).sum =
      (squares numbers).sum - numbers.length * (numbers.sum / numbers.length) *
      (numbers.sum / numbers.length) := by
  have recovered := mean_mul_length full
  rw [sum_deviations]
  calc
    (squares numbers).sum - 2 * (numbers.sum / numbers.length) * numbers.sum +
          numbers.length * (numbers.sum / numbers.length) ^ 2 =
      (squares numbers).sum - 2 * (numbers.sum / numbers.length) *
          (numbers.sum / numbers.length * numbers.length) +
          numbers.length * (numbers.sum / numbers.length) ^ 2 := by
        rw [recovered]
    _ = (squares numbers).sum - numbers.length * (numbers.sum / numbers.length) *
          (numbers.sum / numbers.length) := by
        ring

section

variable {left right : List K} (perm : left.Perm right)
include perm

theorem total_perm : total left = total right := by
  simp only [total, isEmpty_iff_length_eq_zero, perm.length_eq, perm.sum_eq]

theorem mean_perm : mean left = mean right := by
  simp only [mean, isEmpty_iff_length_eq_zero, perm.length_eq, perm.sum_eq]

theorem variance_perm (sample : Bool) : variance sample left = variance sample right := by
  simp only [variance, perm.length_eq, perm.sum_eq]
  rw [(perm.map _).sum_eq]

end

section

variable [DecidableEq K] {numbers : List K}

theorem sum_dedup (onlyZero : ∀ n, 2 ≤ numbers.count n → n = 0) :
    numbers.dedup.sum = numbers.sum := by
  induction numbers with
  | nil => rfl
  | cons first numbers ih =>
    have later := ih fun n twice =>
      onlyZero n (twice.trans count_le_count_cons)
    by_cases again : first ∈ numbers
    · have isZero : first = 0 := by
        apply onlyZero
        have pos := count_pos_iff.mpr again
        rw [count_cons_self]
        omega
      rw [dedup_cons_of_mem again, later, sum_cons, isZero, zero_add]
    · rw [dedup_cons_of_notMem again, sum_cons, later, sum_cons]

/-- Every part sums to its distinct numbers when only zero is repeated. -/
theorem total_dedup_iff [CharZero K] :
    (∀ part, part.Subperm numbers → total part.dedup = total part) ↔
      ∀ n, 2 ≤ numbers.count n → n = 0 := by
  constructor
  · intro same n twice
    have isPart : (replicate 2 n).Subperm numbers := (replicate_sublist_iff.mpr twice).subperm
    have eq := same _ isPart
    rw [replicate_dedup two_ne_zero] at eq
    simpa [total, replicate_succ] using eq
  · intro onlyZero part isPart
    have sums := sum_dedup fun n twice =>
      onlyZero n (twice.trans (isPart.count_le n))
    simp [total, sums]

/-- Every part averages to its distinct numbers when one is repeated alone. -/
theorem mean_dedup_iff [CharZero K] : (∀ part, part.Subperm numbers → mean part.dedup = mean part) ↔
      ∀ number, 2 ≤ numbers.count number → ∀ other ∈ numbers, other = number := by
  constructor
  · intro same number twice other mem
    by_contra ne
    have isPart : [number, number, other].Subperm numbers := by
      rw [subperm_iff_count]
      intro sums
      by_cases num : sums = number
      · subst num
        simpa [count_cons, ne] using twice
      · by_cases oth : sums = other
        · subst oth
          have pos := count_pos_iff.mpr mem
          simpa [count_cons, Ne.symm num] using pos
        · simp [Ne.symm num, Ne.symm oth]
    have eq := same _ isPart
    have deduped : [number, number, other].dedup = [number, other] := by simp [Ne.symm ne]
    rw [deduped] at eq
    simp only [mean, isEmpty_cons, Bool.false_eq_true, if_false,
      sum_cons, sum_nil, length_cons, length_nil,
      Option.some_inj] at eq
    apply ne
    push_cast at eq
    field_simp at eq
    linear_combination eq
  · intro alone part isPart
    by_cases nodup : part.Nodup
    · rw [nodup.dedup]
    · rw [nodup_iff_count_le_one] at nodup
      push Not at nodup
      rcases nodup with ⟨number, twice⟩
      have constant : part = replicate part.length number := by
        rw [eq_replicate_iff]
        refine ⟨rfl, ?_⟩
        intro other mem
        exact alone number (Nat.le_trans twice (isPart.count_le number)) other (isPart.subset mem)
      have full : part.length ≠ 0 := by
        have bound := count_le_length (a := number) (l := part)
        omega
      rw [constant, replicate_dedup full]
      simp [mean, full]

end

end

/-! ## Extremes -/

section

variable {K : Type*} [LinearOrder K]

theorem min?_append (init back : List K) :
    (init ++ back).min? = Option.merge min init.min? back.min? := by
  cases init with
  | nil => cases back <;> rfl
  | cons first init =>
    cases back with
    | nil =>
      rw [append_nil]
      rfl
    | cons other back =>
      rw [cons_append]
      simp only [min?_cons', foldl_append, Option.merge, foldl_cons, foldl_assoc]

theorem max?_append (init back : List K) :
    (init ++ back).max? = Option.merge max init.max? back.max? := by
  cases init with
  | nil => cases back <;> rfl
  | cons first init =>
    cases back with
    | nil =>
      rw [append_nil]
      rfl
    | cons other back =>
      rw [cons_append]
      simp only [max?_cons', foldl_append, Option.merge, foldl_cons, foldl_assoc]

theorem min?_perm {left : List K} (perm : left.Perm right) : left.min? = right.min? := by
  apply Option.ext
  intro best
  rw [min?_eq_some_iff, min?_eq_some_iff]
  simp [perm.mem_iff]

theorem max?_perm {left : List K} (perm : left.Perm right) : left.max? = right.max? := by
  apply Option.ext
  intro best
  rw [max?_eq_some_iff, max?_eq_some_iff]
  simp [perm.mem_iff]

end

/-! ## Flags -/

/-- All of the flags of a list that is not empty. -/
def conjunction (flags : List Bool) : Option Bool :=
  if flags.isEmpty then none else some (flags.all id)

/-- Any of the flags of a list that is not empty. -/
def disjunction (flags : List Bool) : Option Bool :=
  if flags.isEmpty then none else some (flags.any id)

/-- Combine a flag, if there is one, with the flag so far, if there is one. -/
def joinFlag (combine : Bool → Bool → Bool) (sofar : Option Bool) : Option Bool → Option Bool
  | none => sofar
  | some flag =>
    some (match sofar with
      | some current => combine current flag
      | none => flag)

theorem joinFlag_conjunction (init back : List Bool) :
    joinFlag and (conjunction init) (conjunction back) = conjunction (init ++ back) := by
  cases init <;> cases back <;>
    simp [conjunction, joinFlag, Bool.and_assoc]

theorem joinFlag_disjunction (init back : List Bool) :
    joinFlag or (disjunction init) (disjunction back) = disjunction (init ++ back) := by
  cases init <;> cases back <;>
    simp [disjunction, joinFlag, Bool.or_assoc]

theorem conjunction_perm {left : List Bool} (perm : left.Perm right) :
    conjunction left = conjunction right := by
  simp only [conjunction, isEmpty_iff_length_eq_zero, perm.length_eq, perm.all_eq]

theorem disjunction_perm {left : List Bool} (perm : left.Perm right) :
    disjunction left = disjunction right := by
  simp only [disjunction, isEmpty_iff_length_eq_zero, perm.length_eq, perm.any_eq]

end StorageOrchestrator.Lib.Statistics
