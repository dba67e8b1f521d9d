import StorageOrchestrator.Lib.Text

/-!
# Numbered placeholders replaced one number at a time

`passes` replaces the marks `$n`, …, `$1` of a text, in this order, each in
the text that the replacements before it have left.  A mark is a dollar sign
and digits, and what stands for it starts with neither, so nothing new is
joined to a mark and every dollar sign is decided where it stands: it goes, in
the pass of the largest number whose digits follow, or it stays.
-/

namespace StorageOrchestrator.Lib.Placeholders

open Lib.Text List

variable {number count : Nat} {c : Char} {rest text : List Char}

/-! ## Marks -/

def digits (number : Nat) : List Char := (toString number).toList

def mark (number : Nat) : List Char := '$' :: digits number

/-- The number that digits are read as. -/
def valueOf (letters : List Char) : Nat := Nat.ofDigitChars 10 letters 0

theorem digits_eq (number : Nat) : digits number = Nat.toDigits 10 number := by
  rw [digits, Nat.toString_eq_repr, Nat.toList_repr]

theorem isDigit_of_mem_digits (mem : c ∈ digits number) : c.isDigit = true := by
  rw [digits_eq] at mem
  exact Nat.isDigit_of_mem_toDigits (by omega) (by omega) mem

theorem valueOf_digits (number : Nat) : valueOf (digits number) = number := by
  rw [valueOf, digits_eq]
  exact Nat.ofDigitChars_ten_toDigits

theorem le_ofDigitChars (cs : List Char) (start : Nat) : start ≤ Nat.ofDigitChars 10 cs start := by
  induction cs generalizing start with
  | nil => exact Nat.le_refl start
  | cons c cs ih =>
    rw [Nat.ofDigitChars_cons]
    exact Nat.le_trans (by omega) (ih _)

/-- A number whose digits begin another's is not larger. -/
theorem le_of_digits_begin (init : digits left <+: digits right) : left ≤ right := by
  rcases init with ⟨rest, whole⟩
  have v := valueOf_digits right
  rw [← whole, valueOf, Nat.ofDigitChars_append] at v
  have bound := le_ofDigitChars rest (Nat.ofDigitChars 10 (digits left) 0)
  rw [v] at bound
  exact Nat.le_trans (Nat.le_of_eq (valueOf_digits left).symm) bound

theorem digits_append (pos : 0 < number) (isDigit : digit < 10) :
    digits (10 * number + digit) = digits number ++ [digit.digitChar] := by
  rw [digits_eq, digits_eq, ← Nat.toDigits_append_toDigits (by omega) pos isDigit,
    Nat.toDigits_of_lt_base isDigit]

theorem digitChar_of_isDigit (isDigit : c.isDigit = true) :
    (c.toNat - 48).digitChar = c ∧ c.toNat - 48 < 10 := by
  have limit : 48 ≤ c.toNat ∧ c.toNat ≤ 57 := by
    simpa [Char.isDigit, UInt32.le_iff_toNat_le] using isDigit
  refine ⟨?_, by omega⟩
  apply Char.toNat_inj.mp
  rw [Nat.toNat_digitChar_of_lt_ten (by omega)]
  omega

/-- Further digits are appended as they are. -/
theorem digits_ofDigitChars {letters : List Char}
    (digs : ∀ c ∈ letters, c.isDigit = true) (pos : 0 < start) :
    digits (Nat.ofDigitChars 10 letters start) = digits start ++ letters := by
  induction letters generalizing start with
  | nil =>
    rw [append_nil]
    rfl
  | cons c letters ih =>
    rcases digitChar_of_isDigit (digs c mem_cons_self) with ⟨printed, small⟩
    have later : ∀ other ∈ letters, other.isDigit = true :=
      fun other mem => digs other (mem_cons_of_mem _ mem)
    have shifted : 0 < 10 * start + (c.toNat - 48) := by omega
    have step := ih later shifted
    rw [digits_append pos small, printed, append_assoc] at step
    rw [Nat.ofDigitChars_cons]
    exact step

/-- Digits without a leading zero are those of their number. -/
theorem digits_valueOf {letters : List Char}
    (areDigits : ∀ other ∈ c :: letters, other.isDigit = true) (noZero : c ≠ '0') :
    digits (valueOf (c :: letters)) = c :: letters := by
  rcases digitChar_of_isDigit (areDigits c mem_cons_self) with ⟨printed, small⟩
  have pos : 0 < c.toNat - 48 := by
    by_contra notPositive
    have isZero : c.toNat - 48 = 0 := by omega
    rw [isZero] at printed
    exact noZero printed.symm
  have first : digits (c.toNat - 48) = [c] := by
    rw [digits_eq, Nat.toDigits_of_lt_base small, printed]
  have rest := digits_ofDigitChars (fun other mem => areDigits other (mem_cons_of_mem _ mem)) pos
  rw [first] at rest
  rw [valueOf, Nat.ofDigitChars_cons, Nat.mul_zero, Nat.zero_add]
  exact rest

/-- The digits of a positive number do not start with zero. -/
theorem digits_eq_cons (pos : 0 < number) : ∃ c cs, digits number = c :: cs ∧ c ≠ '0' := by
  induction number using Nat.strongRecOn with
  | ind number ih =>
    by_cases small : number < 10
    · refine ⟨number.digitChar, [], ?_, ?_⟩
      · rw [digits_eq, Nat.toDigits_of_lt_base small]
      · intro isZero
        have v := congrArg Char.toNat isZero
        rw [Nat.toNat_digitChar_of_lt_ten small] at v
        simp at v
        omega
    · have split : number = 10 * (number / 10) + number % 10 := by omega
      rcases ih (number / 10) (by omega) (by omega) with ⟨c, cs, shown, noZero⟩
      refine ⟨c, cs ++ [(number % 10).digitChar], ?_, noZero⟩
      rw [split, digits_append (by omega) (by omega), shown, cons_append]
      simp

/-! ## One replacement -/

/-- Every occurrence of a needle, from left to right, becomes a new text. -/
def replaceAll (needle new text : List Char) : List Char := replaceFrom id needle new 0 text

theorem replaceFrom_skip (needle new text : List Char) (skip : Nat) :
    replaceFrom id needle new skip text = replaceAll needle new (text.drop skip) := by
  induction text generalizing skip with
  | nil => cases skip <;> rfl
  | cons c rest ih =>
    cases skip with
    | zero => rfl
    | succ skip => exact ih skip

theorem replaceAll_front (full : needle ≠ []) (new rest : List Char) :
    replaceAll needle new (needle ++ rest) = new ++ replaceAll needle new rest := by
  cases needle with
  | nil => exact absurd rfl full
  | cons c needle =>
    rw [replaceAll, cons_append, replaceFrom, if_pos]
    · rw [replaceFrom_skip, length_cons, Nat.add_sub_cancel, drop_left]
    · rw [map_id, isPrefixOf_iff_prefix]
      exact prefix_append _ _

theorem replaceAll_cons (away : ¬ needle <+: c :: rest) (new : List Char) :
    replaceAll needle new (c :: rest) = c :: replaceAll needle new rest := by
  rw [replaceAll, replaceFrom, if_neg]
  · rfl
  · rw [map_id, isPrefixOf_iff_prefix]
    exact away

/-! ## Replacing a mark -/

def leading (text : List Char) : List Char := text.takeWhile Char.isDigit

/-- A text that can stand for a mark: it starts with no digit and no `$`. -/
def Solid (text : List Char) : Prop :=
  ∃ first rest, text = first :: rest ∧ first.isDigit = false ∧ first ≠ '$'

theorem digits_prefix_iff : digits number <+: text ↔ digits number <+: leading text := by
  constructor
  · rintro ⟨rest, rfl⟩
    rw [leading, takeWhile_append_of_pos]
    · exact prefix_append _ _
    · intro c mem
      exact isDigit_of_mem_digits mem
  · intro begins
    have init : leading text <+: text := takeWhile_prefix _
    exact begins.trans init

theorem mark_prefix_iff : mark number <+: c :: rest ↔ c = '$' ∧ digits number <+: leading rest := by
  rw [mark, cons_prefix_cons, ← digits_prefix_iff, eq_comm]

/-- A text ends, or starts with a mark, a bare dollar sign or another character. -/
theorem mark_induction {motive : List Char → Prop} (number : Nat) (nil : motive [])
    (marked : ∀ after, motive after → motive (mark number ++ after))
    (bare : ∀ rest, ¬ digits number <+: leading rest → motive rest → motive ('$' :: rest))
    (letter : ∀ c rest, c ≠ '$' → motive rest → motive (c :: rest)) (text : List Char) :
    motive text := by
  induction size : text.length using Nat.strongRecOn generalizing text with
  | ind size ih =>
    subst size
    cases text with
    | nil => exact nil
    | cons c rest =>
      have shorter := ih rest.length (Nat.lt_succ_self _) rest rfl
      by_cases isDollar : c = '$'
      · subst isDollar
        by_cases isMark : digits number <+: leading rest
        · rcases digits_prefix_iff.mpr isMark with ⟨after, rfl⟩
          refine marked after (ih _ ?_ after rfl)
          simp only [length_cons, length_append]
          omega
        · exact bare rest isMark shorter
      · exact letter c rest isDollar shorter

section

variable {number : Nat} {new : List Char}

theorem replaceAll_of_ne (notDollar : c ≠ '$') (rest : List Char) :
    replaceAll (mark number) new (c :: rest) = c :: replaceAll (mark number) new rest := by
  apply replaceAll_cons
  rw [mark_prefix_iff]
  exact fun init => notDollar init.1

theorem replaceAll_dollar (bare : ¬ digits number <+: leading rest) :
    replaceAll (mark number) new ('$' :: rest) = '$' :: replaceAll (mark number) new rest := by
  apply replaceAll_cons
  rw [mark_prefix_iff]
  exact fun init => bare init.2

theorem replaceAll_mark (rest : List Char) : replaceAll (mark number) new (mark number ++ rest) =
      new ++ replaceAll (mark number) new rest :=
  replaceAll_front (by simp [mark]) new rest

variable (solid : Solid new)
include solid

/-- Leading digits are left alone. -/
theorem leading_replaceAll (text : List Char) :
    leading (replaceAll (mark number) new text) = leading text := by
  have noDigit : Char.isDigit '$' = false := rfl
  induction text using mark_induction number with
  | nil => rfl
  | marked after ih =>
    rcases solid with ⟨first, tail, rfl, notDigit, _⟩
    rw [replaceAll_mark]
    simp [leading, notDigit, mark, noDigit]
  | bare rest notMark ih =>
    rw [replaceAll_dollar notMark]
    simp [leading, noDigit]
  | letter c rest notDollar ih =>
    rw [replaceAll_of_ne notDollar]
    simp only [leading, takeWhile_cons] at ih ⊢
    rw [ih]

end

theorem leading_append_congr (init : List Char) (sameDigits : leading back = leading other) :
    leading (init ++ back) = leading (init ++ other) := by
  induction init with
  | nil => exact sameDigits
  | cons c init ih =>
    simp only [leading, cons_append, takeWhile_cons] at ih ⊢
    rw [ih]

theorem leading_append (front : List Char) (noDigit : leading back = []) :
    leading (front ++ back) = leading front := by
  have same := leading_append_congr front (show leading back = leading [] from noDigit)
  rwa [append_nil] at same

/-- What does not start with a digit is searched on its own. -/
theorem replaceAll_append (init : List Char) (noDigit : leading back = []) :
    replaceAll (mark number) new (init ++ back) = replaceAll (mark number) new init ++
      replaceAll (mark number) new back := by
  induction init using mark_induction number with
  | nil => rfl
  | marked after ih => rw [append_assoc, replaceAll_mark, replaceAll_mark, ih, append_assoc]
  | bare rest notMark ih =>
    have stillBare : ¬ digits number <+: leading (rest ++ back) := by
      rw [leading_append rest noDigit]
      exact notMark
    rw [cons_append, replaceAll_dollar stillBare, replaceAll_dollar notMark, ih, cons_append]
  | letter c rest notDollar ih =>
    rw [cons_append, replaceAll_of_ne notDollar, replaceAll_of_ne notDollar, ih, cons_append]

theorem mark_infix_cons_iff : mark number <:+: c :: rest ↔
      c = '$' ∧ digits number <+: leading rest ∨ mark number <:+: rest := by
  rw [infix_cons_iff, mark_prefix_iff]

theorem mark_infix_append (noDollar : '$' ∉ init) (mem : mark number <:+: init ++ back) :
    mark number <:+: back := by
  induction init with
  | nil => exact mem
  | cons c init ih =>
    rw [mem_cons, not_or] at noDollar
    rw [cons_append, mark_infix_cons_iff] at mem
    rcases mem with ⟨isDollar, _⟩ | later
    · exact absurd isDollar.symm noDollar.1
    · exact ih noDollar.2 later

/-- A replacement without dollar signs makes no mark and leaves none of its own. -/
theorem mark_infix_of_replaceAll (solid : Solid new) (noDollar : '$' ∉ new) (text : List Char)
    (inside : mark other <:+: replaceAll (mark number) new text) :
    mark other <:+: text ∧ other ≠ number := by
  induction text using mark_induction number with
  | nil =>
    have none : mark other <:+: [] := inside
    exact absurd (infix_nil.mp none) (cons_ne_nil _ _)
  | marked after ih =>
    rw [replaceAll_mark] at inside
    rcases ih (mark_infix_append noDollar inside) with ⟨later, ne⟩
    exact ⟨later.trans (suffix_append _ _).isInfix, ne⟩
  | bare rest notMark ih =>
    rw [replaceAll_dollar notMark, mark_infix_cons_iff, leading_replaceAll solid] at inside
    rw [mark_infix_cons_iff]
    rcases inside with ⟨_, here⟩ | later
    · refine ⟨.inl ⟨rfl, here⟩, ?_⟩
      rintro rfl
      exact notMark here
    · exact (ih later).imp_left .inr
  | letter c rest notDollar ih =>
    rw [replaceAll_of_ne notDollar, mark_infix_cons_iff] at inside
    rcases inside with ⟨isDollar, _⟩ | later
    · exact absurd isDollar notDollar
    · exact (ih later).imp_left fun later => mark_infix_cons_iff.mpr (.inr later)

/-! ## All marks -/

/-- The replacements of `$n`, …, `$1`, one after the other. -/
def passes (literal : Nat → List Char) : Nat → List Char → List Char
  | 0, text => text
  | number + 1, text =>
    passes literal number (replaceAll (mark (number + 1)) (literal (number + 1)) text)

/-- The digits of a number up to `n` follow. -/
def Marked (count : Nat) (text : List Char) : Prop :=
  ∃ number, 0 < number ∧ number ≤ count ∧ digits number <+: leading text

/-- No mark up to `n` stands in the text. -/
def Unmarked (count : Nat) (text : List Char) : Prop :=
  ∀ number, 0 < number → number ≤ count → ¬ mark number <:+: text

theorem Unmarked.part {part : List Char} (bare : Unmarked count text) (mem : part <:+: text) :
    Unmarked count part :=
  fun number pos bound found =>
    bare number pos bound (found.trans mem)

theorem Unmarked.lower {lower : Nat} (bare : Unmarked count text) (fewer : lower ≤ count) :
    Unmarked lower text :=
  fun number pos bound =>
    bare number pos (Nat.le_trans bound fewer)

section

variable {literal : Nat → List Char} (solid : ∀ number, Solid (literal number))

theorem passes_nil (count : Nat) : passes literal count [] = [] := by
  induction count with
  | zero => rfl
  | succ count ih => exact ih

theorem passes_of_ne (notDollar : c ≠ '$') (count : Nat) (rest : List Char) :
    passes literal count (c :: rest) = c :: passes literal count rest := by
  induction count generalizing rest with
  | zero => rfl
  | succ count ih =>
    rw [passes, replaceAll_of_ne notDollar, ih, passes]

theorem passes_congr (eq : ∀ number, 0 < number → number ≤ count →
      literal number = other number) (text : List Char) :
    passes literal count text = passes other count text := by
  induction count generalizing text with
  | zero => rfl
  | succ count ih =>
    rw [passes, passes, eq (count + 1) (by omega) (Nat.le_refl _), ih fun number pos bound =>
        eq number pos (by omega)]

include solid

theorem leading_passes (count : Nat) (text : List Char) :
    leading (passes literal count text) = leading text := by
  induction count generalizing text with
  | zero => rfl
  | succ count ih =>
    rw [passes, ih, leading_replaceAll (solid _)]

/-- A dollar sign without a mark stays. -/
theorem passes_dollar (bare : ¬ Marked count rest) : passes literal count ('$' :: rest) =
      '$' :: passes literal count rest := by
  induction count generalizing rest with
  | zero => rfl
  | succ count ih =>
    have notLast : ¬ digits (count + 1) <+: leading rest :=
      fun init => bare ⟨count + 1, by omega, by omega, init⟩
    rw [passes, replaceAll_dollar notLast, ih, passes]
    rintro ⟨number, pos, bound, init⟩
    rw [leading_replaceAll (solid _)] at init
    exact bare ⟨number, pos, by omega, init⟩

/-- A dollar sign with a mark goes. -/
theorem passes_marked (marked : Marked count rest) : ∃ c after, c ≠ '$' ∧
      passes literal count ('$' :: rest) = c :: after := by
  induction count generalizing rest with
  | zero =>
    rcases marked with ⟨number, pos, bound, _⟩
    omega
  | succ count ih =>
    by_cases last : digits (count + 1) <+: leading rest
    · rcases digits_prefix_iff.mpr last with ⟨after, rfl⟩
      rcases solid (count + 1) with ⟨first, tail, shape, _, notDollar⟩
      have whole : '$' :: (digits (count + 1) ++ after) = mark (count + 1) ++ after := rfl
      rw [passes, whole, replaceAll_mark, shape, cons_append, passes_of_ne notDollar]
      exact ⟨first, _, notDollar, rfl⟩
    · rw [passes, replaceAll_dollar last]
      apply ih
      rcases marked with ⟨number, pos, bound, init⟩
      have notLast : number ≠ count + 1 := by
        rintro rfl
        exact last init
      refine ⟨number, pos, by omega, ?_⟩
      rw [leading_replaceAll (solid _)]
      exact init

/-- What does not start with a digit is replaced on its own. -/
theorem passes_append (count : Nat) (init : List Char) (noDigit : leading back = []) :
    passes literal count (init ++ back) =
      passes literal count init ++ passes literal count back := by
  induction count generalizing init back with
  | zero => rfl
  | succ count ih =>
    have stillNone : leading (replaceAll (mark (count + 1)) (literal (count + 1)) back) = [] := by
      rw [leading_replaceAll (solid _)]
      exact noDigit
    rw [passes, replaceAll_append init noDigit, ih _ stillNone, passes, passes]

omit solid in
/-- A mark alone becomes what the lower passes leave of its literal. -/
theorem passes_mark (pos : 0 < number) (bound : number ≤ count) :
    passes literal count (mark number) = passes literal (number - 1) (literal number) := by
  induction count with
  | zero => omega
  | succ count ih =>
    by_cases last : number = count + 1
    · subst last
      have alone : replaceAll (mark (count + 1)) (literal (count + 1))
          (mark (count + 1) ++ []) = literal (count + 1) ++ [] :=
        replaceAll_mark []
      rw [append_nil, append_nil] at alone
      rw [passes, alone, Nat.add_sub_cancel]
    · have big : ¬ digits (count + 1) <+: leading (digits number) := by
        rw [← digits_prefix_iff]
        intro init
        have := le_of_digits_begin init
        omega
      have plain : ∀ letters : List Char, '$' ∉ letters →
          replaceAll (mark (count + 1)) (literal (count + 1)) letters =
            letters := by
        intro letters noDollar
        induction letters with
        | nil => rfl
        | cons c letters rest =>
          rw [mem_cons, not_or] at noDollar
          rw [replaceAll_of_ne (Ne.symm noDollar.1), rest noDollar.2]
      have noDollar : '$' ∉ digits number := by
        intro mem
        exact absurd (isDigit_of_mem_digits mem) (by decide)
      have eq : replaceAll (mark (count + 1)) (literal (count + 1))
          (mark number) = mark number := by
        exact (replaceAll_dollar big).trans (congrArg (cons '$') (plain _ noDollar))
      rw [passes, eq]
      exact ih (by omega)

/-- A text without marks is left alone. -/
theorem passes_of_unmarked (bare : Unmarked count text) : passes literal count text = text := by
  induction text with
  | nil => exact passes_nil count
  | cons c rest ih =>
    have later : Unmarked count rest := by
      intro number pos bound mem
      exact bare number pos bound (mark_infix_cons_iff.mpr (.inr mem))
    by_cases isDollar : c = '$'
    · subst isDollar
      have notHere : ¬ Marked count rest := by
        rintro ⟨number, pos, bound, init⟩
        exact bare number pos bound (mark_infix_cons_iff.mpr (.inl ⟨rfl, init⟩))
      rw [passes_dollar solid notHere, ih later]
    · rw [passes_of_ne isDollar, ih later]

/-- A front without marks stays, whatever digits are the same after it. -/
theorem passes_front_of_unmarked (sameDigits : leading back = leading other)
    (bare : Unmarked count (init ++ other)) :
    passes literal count (init ++ back) = init ++ passes literal count back := by
  induction init with
  | nil => rfl
  | cons c init ih =>
    have later : Unmarked count (init ++ other) := by
      intro number pos bound mem
      exact bare number pos bound (mark_infix_cons_iff.mpr (.inr mem))
    rw [cons_append]
    by_cases isDollar : c = '$'
    · subst isDollar
      have notHere : ¬ Marked count (init ++ back) := by
        rintro ⟨number, pos, bound, begins⟩
        rw [leading_append_congr init sameDigits] at begins
        exact bare number pos bound (mark_infix_cons_iff.mpr (.inl ⟨rfl, begins⟩))
      rw [passes_dollar solid notHere, ih later, cons_append]
    · rw [passes_of_ne isDollar, ih later, cons_append]

/-- A front that is still there has lost no mark. -/
theorem passes_front (still : init <+: passes literal count (init ++ back)) :
    passes literal count (init ++ back) = init ++ passes literal count back := by
  induction init with
  | nil => rfl
  | cons c init ih =>
    rw [cons_append] at still ⊢
    by_cases isDollar : c = '$'
    · subst isDollar
      by_cases marked : Marked count (init ++ back)
      · rcases passes_marked solid marked with ⟨first, post, notDollar, gone⟩
        rw [gone, cons_prefix_cons] at still
        exact absurd still.1.symm notDollar
      · rw [passes_dollar solid marked, cons_prefix_cons] at still
        rw [passes_dollar solid marked, ih still.2, cons_append]
    · rw [passes_of_ne isDollar, cons_prefix_cons] at still
      rw [passes_of_ne isDollar, ih still.2, cons_append]

/-- Literals without dollar signs leave no mark behind. -/
theorem unmarked_passes (noDollar : ∀ number, '$' ∉ literal number)
    (count : Nat) (text : List Char) :
    Unmarked count (passes literal count text) := by
  have kept : ∀ (number count : Nat) (text : List Char),
      mark number <:+: passes literal count text → mark number <:+: text := by
    intro number count
    induction count with
    | zero => exact fun _ => id
    | succ count ih =>
      intro text mem
      exact (mark_infix_of_replaceAll (solid _) (noDollar _) text (ih _ mem)).1
  induction count generalizing text with
  | zero =>
    intro number pos bound
    omega
  | succ count ih =>
    intro number pos bound mem
    by_cases last : number = count + 1
    · subst last
      exact (mark_infix_of_replaceAll (solid _) (noDollar _) text (kept _ _ _ mem)).2 rfl
    · exact ih _ number pos (by omega) mem

end

end StorageOrchestrator.Lib.Placeholders
