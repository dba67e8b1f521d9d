import Mathlib

/-!
# Texts as lists of characters

The searches a regular expression without captures stands for: does a text
contain another one, or contain it as a whole word, ignoring ASCII case.
Beside them the replacement of one text by another, the last segment of a
dotted name, the quoting of a literal, and the texts that integers are printed
as.
-/

namespace StorageOrchestrator.Lib.Text

open List

/-- Lower-case the ASCII letters of a text. -/
def lowered (text : String) : List Char := text.toList.map Char.toLower

/-- Some suffix of the text starts with the needle. -/
def containsChars (needle : List Char) : List Char → Bool
  | [] => needle.isEmpty
  | letter :: rest =>
    needle.isPrefixOf (letter :: rest) || containsChars needle rest

/-- Case-insensitive search for a text. -/
def containsIgnoringCase (needle text : String) : Bool :=
  containsChars (lowered needle) (lowered text)

/-- The characters of a regular-expression word. -/
def isWordChar (letter : Char) : Bool := letter.isAlphanum || letter == '_'

/-- Nothing of a word stands at the front of a text. -/
def atBoundary : List Char → Bool
  | [] => true
  | letter :: _ => !isWordChar letter

/-- The text starts with the word, and the word ends there. -/
def startsWithWord (word text : List Char) : Bool :=
  word.isPrefixOf text && atBoundary (text.drop word.length)

/-- The word stands somewhere in the text; `fresh` says one may start here. -/
def containsWordFrom (word : List Char) : Bool → List Char → Bool
  | _, [] => false
  | fresh, letter :: rest =>
    (fresh && startsWithWord word (letter :: rest)) ||
      containsWordFrom word (!isWordChar letter) rest

/-- Case-insensitive search for a whole word. -/
def containsWordIgnoringCase (word text : String) : Bool :=
  containsWordFrom (lowered word) true (lowered text)

/-- Equality of texts up to the case of ASCII letters. -/
def eqIgnoringCase (left right : String) : Bool := lowered left == lowered right

/--
Replace the occurrences of a needle from left to right.  Characters are
compared after `fold`; `skip` characters of an occurrence are still to be
dropped.
-/
def replaceFrom (fold : Char → Char) (needle new : List Char) : Nat → List Char → List Char
  | _, [] => []
  | skip + 1, _ :: rest => replaceFrom fold needle new skip rest
  | 0, letter :: rest =>
    if needle.isPrefixOf ((letter :: rest).map fold) then
      new ++ replaceFrom fold needle new (needle.length - 1) rest
    else letter :: replaceFrom fold needle new 0 rest

/-- The part of a text after its last dot. -/
def lastSegment (text : String) : String :=
  String.ofList (text.toList.reverse.takeWhile (· != '.')).reverse

/-- The text between single quotes, with its own quotes doubled. -/
def quotedLiteral (text : String) : String :=
  String.ofList ('\'' ::
    text.toList.flatMap (fun letter =>
      if letter = '\'' then ['\'', '\''] else [letter]) ++ ['\''])

/-! ## Trimming -/

/-- The characters of Unicode's `White_Space` property. -/
def isBlank (letter : Char) : Bool :=
  let code := letter.toNat
  (9 ≤ code && code ≤ 13) || code == 0x20 || code == 0x85 || code == 0xA0 ||
    code == 0x1680 || (0x2000 ≤ code && code ≤ 0x200A) || code == 0x2028 ||
    code == 0x2029 || code == 0x202F || code == 0x205F || code == 0x3000

def trimStart (text : List Char) : List Char := text.dropWhile isBlank

/-- Drop such characters from the end. -/
def trimEndMatches (drop : Char → Bool) (text : List Char) : List Char :=
  (text.reverse.dropWhile drop).reverse

def trim (text : List Char) : List Char := trimStart (trimEndMatches isBlank text)

/-- The characters before the first blank, after leading blanks. -/
def firstWord (text : List Char) : List Char :=
  (trimStart text).takeWhile fun letter => !isBlank letter

section

variable {drop : Char → Bool} {stop : Char} (stops : drop stop = false)

include stops in
theorem dropWhile_front (init rest : List Char) : (init ++ stop :: rest).dropWhile drop =
      init.dropWhile drop ++ stop :: rest := by
  induction init with
  | nil => simp [stops]
  | cons c init ih =>
    cases dropped : drop c with
    | true => simpa [dropped] using ih
    | false => simp [dropped]

include stops in
theorem trimEndMatches_front (init rest : List Char) :
    trimEndMatches drop (init ++ stop :: rest) = init ++ stop :: trimEndMatches drop rest := by
  have turned : (init ++ stop :: rest).reverse = rest.reverse ++ stop :: init.reverse := by simp
  rw [trimEndMatches, turned, dropWhile_front stops, trimEndMatches]
  simp

theorem isPrefixOf_front {phrase : List Char} (gone : stop ∉ phrase) (front rest : List Char) :
    phrase.isPrefixOf (front ++ stop :: rest) = phrase.isPrefixOf front := by
  induction phrase generalizing front with
  | nil => cases front <;> rfl
  | cons c phrase ih =>
    rw [mem_cons, not_or] at gone
    cases front with
    | nil => simp [isPrefixOf, Ne.symm gone.1]
    | cons first front => simp [isPrefixOf, ih gone.2]

end

/-! ## Printed integers -/

theorem toList_toString_ofNat (magnitude : Nat) :
    (toString (Int.ofNat magnitude)).toList = Nat.toDigits 10 magnitude :=
  Nat.toList_repr

theorem toList_toString_negSucc (size : Nat) : (toString (Int.negSucc size)).toList =
      '-' :: Nat.toDigits 10 (size + 1) := by
  have text : toString (Int.negSucc size) = "-" ++ (size + 1).repr := rfl
  rw [text, String.toList_append, Nat.toList_repr]
  rfl

theorem isDigit_of_mem_toDigits (mem : letter ∈ Nat.toDigits 10 number) : letter.isDigit = true :=
  Nat.isDigit_of_mem_toDigits (by decide) (by decide) mem

theorem minus_not_mem_toDigits (number : Nat) : '-' ∉ Nat.toDigits 10 number := by
  intro mem
  cases isDigit_of_mem_toDigits mem

theorem toDigits_injective (eq : Nat.toDigits 10 left = Nat.toDigits 10 right) : left = right := by
  have vs := congrArg (fun cs => Nat.ofDigitChars 10 cs 0) eq
  simpa using vs

theorem toString_int_injective {left right : Int} (eq : toString left = toString right) :
    left = right := by
  have cs := congrArg String.toList eq
  cases left with
  | ofNat left =>
    rw [toList_toString_ofNat] at cs
    cases right with
    | ofNat right =>
      rw [toList_toString_ofNat] at cs
      exact congrArg Int.ofNat (toDigits_injective cs)
    | negSucc right =>
      rw [toList_toString_negSucc] at cs
      apply absurd _ (minus_not_mem_toDigits left)
      rw [cs]
      exact mem_cons_self
  | negSucc left =>
    rw [toList_toString_negSucc] at cs
    cases right with
    | ofNat right =>
      rw [toList_toString_ofNat] at cs
      apply absurd _ (minus_not_mem_toDigits right)
      rw [← cs]
      exact mem_cons_self
    | negSucc right =>
      rw [toList_toString_negSucc] at cs
      have sameMagnitude := toDigits_injective (cons.inj cs).2
      rw [Nat.succ.inj sameMagnitude]

/-- A printed integer starts with a digit or a minus sign. -/
theorem head_toString_int (n : Int) (isHead : (toString n).toList.head? = some letter) :
    letter.isDigit = true ∨ letter = '-' := by
  cases n with
  | ofNat size =>
    rw [toList_toString_ofNat] at isHead
    exact .inl (isDigit_of_mem_toDigits (mem_of_mem_head? isHead))
  | negSucc size =>
    rw [toList_toString_negSucc, head?_cons] at isHead
    exact .inr (Option.some_inj.mp isHead).symm

/-- Digits without a leading zero. -/
def isDecimal (letters : List Char) : Bool :=
  letters == ['0'] ||
    (letters.all Char.isDigit && letters.head?.any (· != '0'))

/-- A decimal, or a minus sign and a decimal that is not zero. -/
def isInteger : List Char → Bool
  | '-' :: letters => isDecimal letters && letters != ['0']
  | letters => isDecimal letters

theorem toDigits_digit {c : Char} (isDigit : c.isDigit = true) :
    Nat.toDigits 10 (c.toNat - 48) = [c] := by
  obtain ⟨lower, upper⟩ := Char.isDigit_iff_toNat.mp isDigit
  have text : ∀ digit < 10, Nat.toDigits 10 digit = [Char.ofNat (48 + digit)] := by decide
  have isCode : 48 + (c.toNat - 48) = c.toNat := Nat.add_sub_cancel' lower
  rw [text _ (by change c.toNat ≤ 57 at upper; omega), isCode, Char.ofNat_toNat]

/-- Digits without a leading zero are those of a positive number. -/
theorem exists_toDigits_of_head {letters : List Char} (ds : letters.all Char.isDigit = true)
    (leading : letters.head?.any (· != '0') = true) :
    ∃ n, 0 < n ∧ Nat.toDigits 10 n = letters := by
  induction letters using reverseRecOn with
  | nil => cases leading
  | append_singleton init last ih =>
    rw [all_append, Bool.and_eq_true] at ds
    have isDigit : last.isDigit = true := all_eq_true.mp ds.2 last (mem_singleton_self _)
    have text := toDigits_digit isDigit
    cases init with
    | nil =>
      refine ⟨last.toNat - 48, ?_, text⟩
      apply Nat.pos_of_ne_zero
      intro isZero
      rw [isZero, Nat.toDigits_zero] at text
      rw [← text] at leading
      cases leading
    | cons first init =>
      obtain ⟨n, pos, isFront⟩ := ih ds.1 leading
      have small : last.toNat - 48 < 10 := by
        have upper : last.toNat ≤ 57 := (Char.isDigit_iff_toNat.mp isDigit).2
        omega
      refine ⟨10 * n + (last.toNat - 48), by omega, ?_⟩
      rw [← Nat.toDigits_append_toDigits (by decide) pos small, isFront, text]

theorem head_toDigits (pos : 0 < n) : (Nat.toDigits 10 n).head?.any (· != '0') = true := by
  induction n using Nat.strongRecOn with
  | ind n ih =>
    rw [Nat.toDigits_eq_if (by decide)]
    split
    · rename_i small
      have single : ∀ digit < 10, 0 < digit →
        [Nat.digitChar digit].head?.any (· != '0') = true := by
        decide
      exact single n small pos
    · rename_i large
      have init := ih (n / 10) (by omega) (by omega)
      cases ds : Nat.toDigits 10 (n / 10) with
      | nil =>
        rw [ds] at init
        cases init
      | cons first rest =>
        rw [ds] at init
        exact init

theorem isDecimal_toDigits (n : Nat) : isDecimal (Nat.toDigits 10 n) = true := by
  rcases Nat.eq_zero_or_pos n with rfl | pos
  · rfl
  · have ds : (Nat.toDigits 10 n).all Char.isDigit = true :=
      all_eq_true.mpr fun c => isDigit_of_mem_toDigits
    simp [isDecimal, ds, head_toDigits pos]

theorem exists_toDigits_iff (cs : List Char) : (∃ n, Nat.toDigits 10 n = cs) ↔
      isDecimal cs = true := by
  constructor
  · rintro ⟨n, rfl⟩
    exact isDecimal_toDigits n
  · intro decimal
    simp only [isDecimal, Bool.or_eq_true, beq_iff_eq, Bool.and_eq_true] at decimal
    rcases decimal with rfl | ⟨ds, leading⟩
    · exact ⟨0, Nat.toDigits_zero 10⟩
    · obtain ⟨n, -, text⟩ := exists_toDigits_of_head ds leading
      exact ⟨n, text⟩

theorem isInteger_of_unsigned (unsigned : '-' ∉ letters) :
    isInteger letters = isDecimal letters := by
  unfold isInteger
  split
  · exact absurd mem_cons_self unsigned
  · rfl

theorem isInteger_toString (n : Int) : isInteger (toString n).toList = true := by
  cases n with
  | ofNat size =>
    rw [toList_toString_ofNat, isInteger_of_unsigned (minus_not_mem_toDigits size)]
    exact isDecimal_toDigits size
  | negSucc size =>
    have notZero : Nat.toDigits 10 (size + 1) ≠ ['0'] := by
      intro isZero
      rw [← Nat.toDigits_zero 10] at isZero
      cases toDigits_injective isZero
    rw [toList_toString_negSucc]
    simp only [isInteger, isDecimal_toDigits, Bool.true_and]
    exact bne_iff_ne.mpr notZero

theorem exists_toString_int_iff (text : String) : (∃ n : Int, toString n = text) ↔
      isInteger text.toList = true := by
  constructor
  · rintro ⟨n, rfl⟩
    exact isInteger_toString n
  · intro integer
    unfold isInteger at integer
    split at integer
    · rename_i cs word
      rw [Bool.and_eq_true] at integer
      obtain ⟨n, num⟩ := (exists_toDigits_iff cs).mpr integer.1
      cases n with
      | zero =>
        rw [Nat.toDigits_zero] at num
        exact absurd num.symm (bne_iff_ne.mp integer.2)
      | succ size =>
        refine ⟨Int.negSucc size, ?_⟩
        apply String.toList_injective
        rw [toList_toString_negSucc, num, word]
    · obtain ⟨n, num⟩ := (exists_toDigits_iff _).mpr integer
      refine ⟨Int.ofNat n, ?_⟩
      apply String.toList_injective
      rw [toList_toString_ofNat, num]

end StorageOrchestrator.Lib.Text
