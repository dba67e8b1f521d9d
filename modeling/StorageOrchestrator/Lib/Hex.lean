import StorageOrchestrator.Lib.JsonValue

/-!
# Hexadecimal text

Bytes in lower-case hexadecimal, and the same digits in groups with hyphens
between them.  The texts of bytes are exactly the runs of an even number of
lower-case digits.
-/

namespace StorageOrchestrator.Lib.Hex

open Lib.JsonValue List

abbrev Byte := Fin 256

instance byte_neZero : NeZero 256 := ⟨by decide⟩

/-- The value of a lower-case digit. -/
def digitValue (letter : Char) : Option (Fin 16) :=
  (List.finRange 16).find? fun value => hexDigit value == letter

/-- The value of two digits. -/
def ofDigits (high low : Fin 16) : Byte := ⟨16 * high + low, by omega⟩

/-- The two digits of each byte. -/
def encode : List Byte → List Char
  | [] => []
  | byte :: bytes =>
    hexDigit (byte / 16) :: hexDigit (byte % 16) :: encode bytes

/-- Read pairs of lower-case digits. -/
def decode : List Char → Option (List Byte)
  | [] => some []
  | [_] => none
  | high :: low :: rest =>
    match digitValue high, digitValue low, decode rest with
    | some high, some low, some bytes => some (ofDigits high low :: bytes)
    | _, _, _ => none

/-- Lower-case digits, an even number of them. -/
def isHex (letters : List Char) : Bool :=
  letters.all (fun letter => (digitValue letter).isSome) &&
    letters.length % 2 == 0

theorem digitValue_hexDigit (value : Fin 16) : digitValue (hexDigit value) = some value := by
  revert value
  decide

theorem hexDigit_of_digitValue (found : digitValue letter = some value) :
    hexDigit value = letter := by
  have eq := find?_some found
  exact beq_iff_eq.mp eq

theorem digitValue_high (byte : Byte) : digitValue (hexDigit (byte / 16)) =
      some ⟨byte / 16, by omega⟩ :=
  digitValue_hexDigit ⟨byte / 16, by omega⟩

theorem digitValue_low (byte : Byte) : digitValue (hexDigit (byte % 16)) =
      some ⟨byte % 16, Nat.mod_lt _ (by decide)⟩ :=
  digitValue_hexDigit ⟨byte % 16, Nat.mod_lt _ (by decide)⟩

theorem decode_encode (bytes : List Byte) : decode (encode bytes) = some bytes := by
  induction bytes with
  | nil => rfl
  | cons byte bytes ih =>
    simp only [encode, decode, digitValue_high, digitValue_low,
      ih, Option.some.injEq, cons.injEq, and_true]
    exact Fin.ext (Nat.div_add_mod byte.val 16)

theorem encode_of_decode (decoded : decode letters = some bytes) : encode bytes = letters := by
  fun_induction decode letters generalizing bytes with
  | case1 =>
    cases decoded
    rfl
  | case2 c | case4 => cases decoded
  | case3 first second rest high low tail readTail readLow readHigh
      ih =>
      cases decoded
      have highDigit : (ofDigits high low).val / 16 = high := by
        simp only [ofDigits]
        omega
      have lowDigit : (ofDigits high low).val % 16 = low := by
        simp only [ofDigits]
        omega
      simp only [encode, highDigit, lowDigit]
      rw [hexDigit_of_digitValue readHigh, hexDigit_of_digitValue readLow, ih readTail]

theorem isHex_cons_cons (high low : Char) (rest : List Char) : isHex (high :: low :: rest) =
      ((digitValue high).isSome && (digitValue low).isSome && isHex rest) := by
  have parity : (rest.length + 1 + 1) % 2 = rest.length % 2 := by omega
  simp [isHex, all_cons, length_cons, parity, Bool.and_assoc]

theorem isSome_decode (letters : List Char) : (decode letters).isSome = isHex letters := by
  fun_induction decode letters with
  | case1 => rfl
  | case2 c => simp [isHex]
  | case3 first second rest high low tail readTail readLow readHigh
      ih =>
      rw [isHex_cons_cons, readHigh, readLow, ← ih, readTail]
      rfl
  | case4 first second rest unread ih =>
    rw [isHex_cons_cons, ← ih]
    cases readHigh : digitValue first with
    | none => rfl
    | some high =>
      cases readLow : digitValue second with
      | none => rfl
      | some low =>
        cases readTail : decode rest with
        | none => rfl
        | some tail =>
          exact (unread high low tail readHigh readLow readTail).elim

theorem exists_encode_iff (cs : List Char) : (∃ bytes, encode bytes = cs) ↔ isHex cs = true := by
  rw [← isSome_decode, Option.isSome_iff_exists]
  constructor
  · rintro ⟨bytes, rfl⟩
    exact ⟨bytes, decode_encode bytes⟩
  · rintro ⟨bytes, decoded⟩
    exact ⟨bytes, encode_of_decode decoded⟩

theorem length_encode (bytes : List Byte) : (encode bytes).length = 2 * bytes.length := by
  induction bytes with
  | nil => rfl
  | cons byte bytes ih =>
    simp only [encode, length_cons, ih]
    omega

theorem hyphen_not_mem_encode (bytes : List Byte) : '-' ∉ encode bytes := by
  have isDigit : ∀ c ∈ encode bytes, (digitValue c).isSome := by
    have isHex := (exists_encode_iff _).mp ⟨bytes, rfl⟩
    simp only [Hex.isHex, Bool.and_eq_true] at isHex
    exact all_eq_true.mp isHex.1
  intro mem
  exact absurd (isDigit '-' mem) (by decide)

theorem map_toLower_encode (bytes : List Byte) :
    (encode bytes).map Char.toLower = encode bytes := by
  have lower : ∀ value : Fin 16, (hexDigit value).toLower = hexDigit value := by decide
  induction bytes with
  | nil => rfl
  | cons byte bytes ih =>
    have high := lower ⟨byte / 16, by omega⟩
    have low := lower ⟨byte % 16, Nat.mod_lt _ (by decide)⟩
    simp only at high low
    simp [encode, high, low, ih]

/-! ## Groups -/

/-- Hyphens after groups of the given lengths. -/
def hyphenate : List Nat → List Char → List Char
  | [], letters => letters
  | length :: lengths, letters =>
    letters.take length ++ '-' :: hyphenate lengths (letters.drop length)

/-- Without its hyphens. -/
def unhyphenated (letters : List Char) : List Char := letters.filter (· != '-')

theorem unhyphenated_hyphenate (lens : List Nat) (plain : '-' ∉ letters) :
    unhyphenated (hyphenate lens letters) = letters := by
  induction lens generalizing letters with
  | nil =>
    exact filter_eq_self.mpr fun c mem =>
      bne_iff_ne.mpr fun eq => plain (eq ▸ mem)
  | cons length lens ih =>
    have init : unhyphenated (letters.take length) = letters.take length :=
      filter_eq_self.mpr fun c mem =>
        bne_iff_ne.mpr fun eq =>
          plain (eq ▸ mem_of_mem_take mem)
    have back : unhyphenated (hyphenate lens (letters.drop length)) = letters.drop length :=
      ih fun mem => plain (mem_of_mem_drop mem)
    calc unhyphenated (hyphenate (length :: lens) letters) = unhyphenated (letters.take length) ++
            unhyphenated (hyphenate lens (letters.drop length)) := by
          simp [hyphenate, unhyphenated]
      _ = letters := by rw [init, back, take_append_drop]

end StorageOrchestrator.Lib.Hex
