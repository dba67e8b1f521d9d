import StorageOrchestrator.Lib.Text

/-!
# Numbers in their shortest decimal

A finite number of a dynamically typed runtime, given by the shortest decimal
that stands for it: no digit of it is a leading or a trailing zero.  `letters`
prints it the way such runtimes do, with an exponent outside the range where
plain digits are used; `readNumeral` reads the grammar of JSON numbers.
-/

namespace StorageOrchestrator.Lib.Numerals

open List

abbrev Digit := Fin 10

instance digit_neZero : NeZero 10 := ⟨by decide⟩

/-- The number `0.d₁d₂…dₖ × 10 ^ point`. -/
structure Numeral where
  negative : Bool
  digits : List Digit
  point : Int
  leads : digits.head? ≠ some 0
  ends : digits.getLast? ≠ some 0
  zero : digits = [] → negative = false ∧ point = 0
deriving DecidableEq

def Numeral.value (number : Numeral) : ℚ :=
  let magnitude : Nat := number.digits.foldl (fun total digit => 10 * total + digit.val) 0
  (if number.negative then -1 else 1) * magnitude * (10 : ℚ) ^ (number.point - number.digits.length)

/-- A whole number of at most fifteen digits: a double holds it exactly. -/
def Numeral.Exact (number : Numeral) : Prop :=
  number.digits.length ≤ number.point ∧ number.point ≤ 15

/-! ## Printing -/

def digitLetter (digit : Digit) : Char := Nat.digitChar digit

def exponentLetters (exponent : Int) : List Char :=
  (if exponent < 0 then '-' else '+') :: Nat.toDigits 10 exponent.natAbs

/-- The text of a positive number. -/
def magnitudeLetters (digits : List Digit) (point : Int) : List Char :=
  if digits.length ≤ point ∧ point ≤ 21 then
    digits.map digitLetter ++ List.replicate (point - digits.length).toNat '0'
  else if 0 < point ∧ point ≤ 21 then
    (digits.take point.toNat).map digitLetter ++ '.' :: (digits.drop point.toNat).map digitLetter
  else if -6 < point ∧ point ≤ 0 then
    '0' :: '.' :: (List.replicate (-point).toNat '0' ++ digits.map digitLetter)
  else if digits.length = 1 then
    digits.map digitLetter ++ 'e' :: exponentLetters (point - 1)
  else
    (digits.take 1).map digitLetter ++ '.' :: ((digits.drop 1).map digitLetter ++
        'e' :: exponentLetters (point - 1))

def Numeral.letters (number : Numeral) : List Char :=
  if number.digits = [] then ['0']
  else if number.negative then
    '-' :: magnitudeLetters number.digits number.point
  else magnitudeLetters number.digits number.point

instance : ToString Numeral where
  toString number := String.ofList number.letters

/-! ## Reading -/

def digitOf (letter : Char) : Digit := Fin.ofNat 10 (letter.toNat - 48)

/-- Without leading and without trailing zeros. -/
def significant (digits : List Digit) : List Digit :=
  (digits.dropWhile (· == 0)).rdropWhile (· == 0)

theorem head_significant (digits : List Digit) : (significant digits).head? ≠ some 0 := by
  intro leading
  have kept := head?_dropWhile_not (· == (0 : Digit)) digits
  have init : (digits.dropWhile (· == 0)).head? = some 0 := by
    obtain ⟨rest, shown⟩ := head?_eq_some_iff.mp leading
    obtain ⟨drop, whole⟩ := rdropWhile_prefix (· == 0) (digits.dropWhile (· == 0))
    rw [significant] at shown
    rw [← whole, shown]
    rfl
  rw [init] at kept
  cases kept

theorem last_significant (digits : List Digit) : (significant digits).getLast? ≠ some 0 := by
  intro trailing
  have here : significant digits ≠ [] := by
    intro empty
    rw [empty] at trailing
    cases trailing
  rw [getLast?_eq_some_getLast here] at trailing
  have kept := rdropWhile_last_not (· == 0) _ here
  exact kept (beq_iff_eq.mpr (Option.some.inj trailing))

/-- The number of a run of digits after a point. -/
def normalize (negative : Bool) (digits : List Digit) (point : Int) : Numeral :=
  if nothing : significant digits = [] then
    { negative := false
      digits := []
      point := 0
      leads := nofun
      ends := nofun
      zero := fun _ => ⟨rfl, rfl⟩ }
  else
    { negative := negative
      digits := significant digits
      point := point - (digits.takeWhile (· == 0)).length
      leads := head_significant digits
      ends := last_significant digits
      zero := fun none => absurd none nothing }

def readFraction : List Char → Option (List Char × List Char)
  | '.' :: text =>
    let digits := text.takeWhile Char.isDigit
    if digits = [] then none
    else some (digits, text.dropWhile Char.isDigit)
  | text => some ([], text)

def readPower (sign : Int) (text : List Char) : Option (Int × List Char) :=
  let digits := text.takeWhile Char.isDigit
  if digits = [] then none
  else
    some (sign * Nat.ofDigitChars 10 digits 0, text.dropWhile Char.isDigit)

def readExponent : List Char → Option (Int × List Char)
  | letter :: text =>
    if letter = 'e' ∨ letter = 'E' then
      match text with
      | '-' :: text => readPower (-1) text
      | '+' :: text => readPower 1 text
      | text => readPower 1 text
    else some (0, letter :: text)
  | [] => some (0, [])

/-- No digit, or a leading zero before others. -/
def badWhole : List Char → Bool
  | [] | '0' :: _ :: _ => true
  | _ => false

/-- A number without its sign. -/
def readMagnitude (negative : Bool) (text : List Char) : Option (Numeral × List Char) :=
  let whole := text.takeWhile Char.isDigit
  if badWhole whole then none
  else
    match readFraction (text.dropWhile Char.isDigit) with
    | none => none
    | some (fraction, text) =>
      match readExponent text with
      | none => none
      | some (exponent, text) =>
        some (normalize negative ((whole ++ fraction).map digitOf) (whole.length + exponent), text)

/-- The number at the front of a text. -/
def readNumeral : List Char → Option (Numeral × List Char)
  | '-' :: text => readMagnitude true text
  | text => readMagnitude false text

/-! ## What is printed reads back -/

theorem digitOf_digitLetter (digit : Digit) : digitOf (digitLetter digit) = digit := by
  revert digit
  decide

theorem isDigit_digitLetter (digit : Digit) : (digitLetter digit).isDigit = true := by
  revert digit
  decide

theorem dropWhile_zeros {digits : List Digit} (leads : digits.head? ≠ some 0) (pre : Nat) :
    (replicate pre 0 ++ digits).dropWhile (· == 0) = digits := by
  rw [dropWhile_append_of_pos (by simp)]
  cases digits with
  | nil => rfl
  | cons digit digits =>
    have nonzero : digit ≠ 0 := fun eq => leads (congrArg some eq)
    exact dropWhile_cons_of_neg (by simpa using nonzero)

theorem takeWhile_zeros {digits : List Digit} (leads : digits.head? ≠ some 0) (before : Nat) :
    ((replicate before 0 ++ digits).takeWhile (· == 0)).length = before := by
  rw [takeWhile_append_of_pos (by simp)]
  cases digits with
  | nil => simp
  | cons digit digits =>
    have nonzero : digit ≠ 0 := fun eq => leads (congrArg some eq)
    rw [takeWhile_cons_of_neg (by simpa using nonzero)]
    simp

theorem rdropWhile_zeros {digits : List Digit} (ends : digits.getLast? ≠ some 0) (post : Nat) :
    (digits ++ replicate post 0).rdropWhile (· == 0) = digits := by
  have leads : digits.reverse.head? ≠ some 0 := by
    rw [head?_reverse]
    exact ends
  rw [rdropWhile, reverse_append, reverse_replicate, dropWhile_zeros leads, reverse_reverse]

/-- The zeros around the digits of a number do not count. -/
theorem normalize_padded (number : Numeral) (here : number.digits ≠ [])
    (before post : Nat) {digits : List Digit} {point : Int}
    (word : digits = replicate before 0 ++ (number.digits ++ replicate post 0))
    (put : point = number.point + before) :
    normalize number.negative digits point = number := by
  have leads : (number.digits ++ replicate post 0).head? ≠ some 0 := by
    rw [head?_append_of_ne_nil _ here]
    exact number.leads
  have shown : significant digits = number.digits := by
    rw [word, significant, dropWhile_zeros leads, rdropWhile_zeros number.ends]
  have shifted : (digits.takeWhile (· == 0)).length = before := by rw [word, takeWhile_zeros leads]
  have back : point - before = number.point := by omega
  rw [normalize, dif_neg (by rw [shown]; exact here)]
  simp [shown, shifted, back]

/-- No more of a number stands at the front. -/
def NumberEnds (text : List Char) : Prop :=
  ∀ letter, text.head? = some letter →
    letter.isDigit = false ∧ letter ≠ '.' ∧ letter ≠ 'e' ∧ letter ≠ 'E'

/-- No digit stands at the front. -/
def DigitsEnd (text : List Char) : Prop :=
  ∀ letter, text.head? = some letter → letter.isDigit = false

theorem NumberEnds.digitsEnd {text : List Char} (ends : NumberEnds text) : DigitsEnd text :=
  fun letter first => (ends letter first).1

section

variable {run text : List Char} (digits : ∀ letter ∈ run, letter.isDigit = true)
  (ends : DigitsEnd text)

include digits ends

theorem takeWhile_run : (run ++ text).takeWhile Char.isDigit = run := by
  rw [takeWhile_append_of_pos digits]
  cases text with
  | nil => simp
  | cons letter text => simp [ends letter rfl]

theorem dropWhile_run : (run ++ text).dropWhile Char.isDigit = text := by
  rw [dropWhile_append_of_pos digits]
  cases text with
  | nil => rfl
  | cons letter text => simp [ends letter rfl]

theorem readFraction_run (here : run ≠ []) :
    readFraction ('.' :: (run ++ text)) = some (run, text) := by
  simp [readFraction, takeWhile_run digits ends, dropWhile_run digits ends, if_neg here]

theorem readPower_run (here : run ≠ []) (sign : Int) : readPower sign (run ++ text) =
      some (sign * Nat.ofDigitChars 10 run 0, text) := by
  simp [readPower, takeWhile_run digits ends, dropWhile_run digits ends, if_neg here]

/-- The parts of a number, read one after the other. -/
theorem readMagnitude_run (negative : Bool) (good : badWhole run = false)
    {fraction rest last : List Char} {exp : Int}
    (readFirst : readFraction text = some (fraction, rest))
    (readSecond : readExponent rest = some (exp, last)) :
    readMagnitude negative (run ++ text) = some (normalize negative ((run ++ fraction).map digitOf)
      (run.length + exp), last) := by
  simp only [readMagnitude, takeWhile_run digits ends,
    dropWhile_run digits ends, good, readFirst, readSecond]
  rfl

end

theorem readFraction_none {text : List Char}
    (gone : text.head? ≠ some '.') : readFraction text = some ([], text) := by
  cases text with
  | nil => rfl
  | cons letter text =>
    have other : letter ≠ '.' := fun eq => gone (congrArg some eq)
    simp [readFraction, other]

theorem readExponent_none {text : List Char} (ends : NumberEnds text) :
    readExponent text = some (0, text) := by
  cases text with
  | nil => rfl
  | cons letter text =>
    obtain ⟨-, -, lower, upper⟩ := ends letter rfl
    simp [readExponent, lower, upper]

theorem readExponent_letters (exponent : Int) {text : List Char} (ends : DigitsEnd text) :
    readExponent ('e' :: (exponentLetters exponent ++ text)) = some (exponent, text) := by
  have digits : ∀ letter ∈ Nat.toDigits 10 exponent.natAbs, letter.isDigit = true :=
    fun letter mem => Text.isDigit_of_mem_toDigits mem
  have power := readPower_run digits ends Nat.toDigits_ne_nil
  rw [Nat.ofDigitChars_ten_toDigits] at power
  by_cases negative : exponent < 0
  · have back : -1 * (exponent.natAbs : Int) = exponent := by omega
    rw [exponentLetters, if_pos negative]
    simp only [readExponent, cons_append, true_or, if_true, power, back]
  · have back : 1 * (exponent.natAbs : Int) = exponent := by omega
    rw [exponentLetters, if_neg negative]
    simp only [readExponent, cons_append, true_or, if_true, power, back]

section

variable (digits : List Digit)

theorem isDigit_of_mem_letters {letter : Char}
    (mem : letter ∈ digits.map digitLetter) : letter.isDigit = true := by
  obtain ⟨digit, -, rfl⟩ := mem_map.mp mem
  exact isDigit_digitLetter digit

theorem map_digitOf_letters : (digits.map digitLetter).map digitOf = digits := by
  have back : digitOf ∘ digitLetter = id := by
    funext digit
    exact digitOf_digitLetter digit
  rw [map_map, back, map_id]

theorem badWhole_letters {digits : List Digit} (here : digits ≠ [])
    (leads : digits.head? ≠ some 0) (more : List Char) :
    badWhole (digits.map digitLetter ++ more) = false := by
  cases digits with
  | nil => exact absurd rfl here
  | cons digit digits =>
    have other : digitLetter digit ≠ '0' := by
      intro eq
      have zero := congrArg digitOf eq
      rw [digitOf_digitLetter] at zero
      exact leads (congrArg some zero)
    rw [map_cons, cons_append, badWhole]
    · nofun
    · intro second rest eq
      exact other (cons.inj eq).1

end

theorem isDigit_of_mem_zeros {letter : Char} {count : Nat}
    (mem : letter ∈ replicate count '0') : letter.isDigit = true := by
  rw [(mem_replicate.mp mem).2]
  rfl

theorem map_digitOf_zeros (count : Nat) : (replicate count '0').map digitOf = replicate count 0 :=
  map_replicate

theorem digitsEnd_cons {letter : Char} (other : letter.isDigit = false)
    (text : List Char) : DigitsEnd (letter :: text) := by
  intro first eq
  cases eq
  exact other

section

variable (number : Numeral) (here : number.digits ≠ []) {text : List Char} (ends : NumberEnds text)

include ends in
theorem noFraction : readFraction text = some ([], text) :=
  readFraction_none fun point => (ends '.' point).2.1 rfl

include here

include ends in
/-- Digits and zeros, without a point. -/
theorem readMagnitude_plain (reaches : number.digits.length ≤ number.point) :
    readMagnitude number.negative (number.digits.map digitLetter ++
      replicate (number.point - number.digits.length).toNat '0' ++ text) =
      some (number, text) := by
  have run : ∀ letter ∈ number.digits.map digitLetter ++
      replicate (number.point - number.digits.length).toNat '0',
      letter.isDigit = true := by
    intro letter mem
    rcases mem_append.mp mem with mem | mem
    · exact isDigit_of_mem_letters _ mem
    · exact isDigit_of_mem_zeros mem
  rw [readMagnitude_run run ends.digitsEnd number.negative
    (badWhole_letters here number.leads _) (noFraction ends)
    (readExponent_none ends),
    normalize_padded number here 0 (number.point - number.digits.length).toNat]
  · simp only [append_nil, map_append, map_digitOf_letters,
      map_digitOf_zeros, replicate_zero, nil_append]
  · simp only [length_append, length_map, length_replicate]
    omega

/-- A point between the digits, and perhaps an exponent after them. -/
theorem readMagnitude_pointed {count : Nat} (pos : 0 < count)
    (mem : count < number.digits.length) {rest : List Char} (rests : DigitsEnd rest) {exp : Int}
    (scaled : readExponent rest = some (exp, text)) (put : count + exp = number.point) :
    readMagnitude number.negative ((number.digits.take count).map digitLetter ++
      '.' :: ((number.digits.drop count).map digitLetter ++ rest)) =
      some (number, text) := by
  have whole : number.digits.take count ≠ [] := by
    intro empty
    rcases take_eq_nil_iff.mp empty with zero | empty
    · omega
    · exact here empty
  have leads : (number.digits.take count).head? ≠ some 0 := by
    rw [head?_take, if_neg (by omega)]
    exact number.leads
  have fraction : (number.digits.drop count).map digitLetter ≠ [] := by
    simp only [ne_eq, map_eq_nil_iff, drop_eq_nil_iff]
    omega
  have good := badWhole_letters whole leads []
  rw [append_nil] at good
  rw [readMagnitude_run (fun _ => isDigit_of_mem_letters _)
    (digitsEnd_cons rfl _) number.negative good
    (readFraction_run (fun _ => isDigit_of_mem_letters _) rests fraction)
    scaled, normalize_padded number here 0 0]
  · rw [map_append, map_digitOf_letters, map_digitOf_letters,
      take_append_drop, replicate_zero, append_nil,
      nil_append]
  · simp only [length_map, length_take]
    omega

include ends

/-- A point in front of the digits. -/
theorem readMagnitude_small (below : number.point ≤ 0) : readMagnitude number.negative
      ('0' :: '.' :: (replicate (-number.point).toNat '0' ++
      number.digits.map digitLetter) ++ text) =
      some (number, text) := by
  have run : ∀ letter ∈ replicate (-number.point).toNat '0' ++
      number.digits.map digitLetter, letter.isDigit = true := by
    intro letter mem
    rcases mem_append.mp mem with mem | mem
    · exact isDigit_of_mem_zeros mem
    · exact isDigit_of_mem_letters _ mem
  have fraction : replicate (-number.point).toNat '0' ++ number.digits.map digitLetter ≠ [] := by
    simp [here]
  have zero : ∀ letter ∈ ['0'], letter.isDigit = true := by simp
  have read := readMagnitude_run zero (digitsEnd_cons rfl _) number.negative
    rfl (readFraction_run run ends.digitsEnd fraction) (readExponent_none ends)
  rw [normalize_padded number here ((-number.point).toNat + 1) 0] at read
  · exact read
  · simp only [map_append, map_cons, map_digitOf_letters,
      map_digitOf_zeros, replicate_zero, append_nil,
      replicate_succ, cons_append, nil_append]
    rfl
  · simp only [length_cons, length_nil]
    omega

theorem readMagnitude_single (single : number.digits.length = 1) : readMagnitude number.negative
      (number.digits.map digitLetter ++ 'e' :: (exponentLetters (number.point - 1) ++ text)) =
      some (number, text) := by
  have good := badWhole_letters here number.leads []
  rw [append_nil] at good
  rw [readMagnitude_run (fun _ => isDigit_of_mem_letters _)
    (digitsEnd_cons rfl _) number.negative good
    (readFraction_none (by simp))
    (readExponent_letters (number.point - 1) ends.digitsEnd),
    normalize_padded number here 0 0]
  · simp only [append_nil, map_digitOf_letters, replicate_zero, nil_append]
  · simp only [length_map, single]
    omega

theorem readMagnitude_letters : readMagnitude number.negative
      (magnitudeLetters number.digits number.point ++ text) =
      some (number, text) := by
  have pos := length_pos_of_ne_nil here
  rw [magnitudeLetters]
  split
  · rename_i plain
    exact readMagnitude_plain number here ends plain.1
  · split
    · rename_i long pointed
      rw [append_assoc, cons_append]
      exact readMagnitude_pointed number here (by omega) (by omega)
        ends.digitsEnd (readExponent_none ends) (by omega)
    · split
      · rename_i small
        exact readMagnitude_small number here ends small.2
      · split
        · rename_i single
          rw [append_assoc, cons_append]
          exact readMagnitude_single number here ends single
        · rename_i several
          rw [append_assoc, cons_append, append_assoc, cons_append]
          exact readMagnitude_pointed number here one_pos (by omega) (digitsEnd_cons rfl _)
            (readExponent_letters (number.point - 1) ends.digitsEnd)
            (by omega)

end

theorem readNumeral_zero (ends : NumberEnds text) :
    readNumeral ('0' :: text) = some (normalize false [0] 1, text) := by
  have zero : ∀ letter ∈ ['0'], letter.isDigit = true := by simp
  exact readMagnitude_run zero ends.digitsEnd false rfl (noFraction ends) (readExponent_none ends)

theorem readNumeral_unsigned (read : readMagnitude false text = some (number, rest)) :
    readNumeral text = some (number, rest) := by
  unfold readNumeral
  split
  · cases read
  · exact read

/-- What is printed is read back, up to the end of the number. -/
theorem readNumeral_letters (number : Numeral) (ends : NumberEnds text) :
    readNumeral (number.letters ++ text) = some (number, text) := by
  rw [Numeral.letters]
  split
  · rename_i empty
    rw [singleton_append, readNumeral_zero ends]
    obtain ⟨unsigned, put⟩ := number.zero empty
    cases number
    simp only at empty unsigned put
    subst empty unsigned put
    rfl
  · rename_i here
    have read := readMagnitude_letters number here ends
    split
    · rename_i negative
      rw [negative] at read
      exact read
    · rename_i pos
      rw [Bool.not_eq_true] at pos
      rw [pos] at read
      exact readNumeral_unsigned read

example : readNumeral "-12.50e2".toList =
    some (normalize true [1, 2, 5] 4, []) := by
  decide +kernel

end StorageOrchestrator.Lib.Numerals
