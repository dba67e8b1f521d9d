import Mathlib

/-!
# Decimal numerals

The value of a numeral with an optional sign, fraction and exponent, as an
exact rational number.
-/

namespace StorageOrchestrator.Lib.Decimal

def digitsValue (digits : List Char) : Option Nat :=
  if digits.all Char.isDigit then
    some (digits.foldl (fun value digit => value * 10 + (digit.toNat - 48)) 0)
  else none

/-- Split a sign off; `true` is a minus. -/
def splitSign : List Char → Bool × List Char
  | '-' :: rest => (true, rest)
  | '+' :: rest => (false, rest)
  | letters => (false, letters)

/-- The power of ten an exponent part stands for. -/
def scaleOf : List Char → Option ℚ
  | [] => some 1
  | _ :: exponent =>
    let (negative, digits) := splitSign exponent
    if digits.isEmpty then none
    else
      (digitsValue digits).map fun power =>
        if negative then (1 / 10 ^ power : ℚ) else 10 ^ power

def unsignedValue (letters : List Char) : Option ℚ :=
  let mantissa := letters.takeWhile fun letter => letter != 'e' && letter != 'E'
  let whole := mantissa.takeWhile (· != '.')
  let fraction := (mantissa.drop whole.length).drop 1
  if (whole ++ fraction).isEmpty then none
  else
    match digitsValue (whole ++ fraction), scaleOf (letters.drop mantissa.length) with
    | some value, some scale =>
      some ((value : ℚ) / 10 ^ fraction.length * scale)
    | _, _ => none

/-- The value of a numeral. -/
def parse (text : String) : Option ℚ :=
  let (negative, letters) := splitSign text.toList
  (unsignedValue letters).map fun value => if negative then -value else value

example : parse "-12.50" = some (-25 / 2) := by decide +kernel

end StorageOrchestrator.Lib.Decimal
