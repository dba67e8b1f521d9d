import StorageOrchestrator.Lib.Hex

/-!
# Bytes of a text, and texts of bytes

UTF-8 and base64 as a byte buffer converts them.  Reading is total in both:
an ill-formed sequence reads as the replacement character, and a letter
outside the base64 alphabet is skipped.  What was written reads back.
-/

namespace StorageOrchestrator.Lib.ByteText

open Lib.Hex List

/-! ## UTF-8 -/

/-- The bytes of a text. -/
def utf8 (letters : List Char) : List Byte :=
  (letters.flatMap String.utf8EncodeChar).map UInt8.toFin

/-- The character at the front of some bytes. -/
def firstChar (bytes : List Byte) : Option Char :=
  ByteArray.utf8DecodeChar? (bytes.map UInt8.ofFin).toByteArray 0

/-- The text of some bytes; a byte that starts no character is replaced. -/
def ofUtf8 : List Byte → List Char
  | [] => []
  | byte :: bytes =>
    match firstChar (byte :: bytes) with
    | some letter => letter :: ofUtf8 (bytes.drop (letter.utf8Size - 1))
    | none => Char.ofNat 0xFFFD :: ofUtf8 bytes
termination_by bytes => bytes.length
decreasing_by
  · simp only [List.length_drop, List.length_cons]
    omega
  · simp

theorem utf8_cons (c : Char) (letters : List Char) : utf8 (c :: letters) =
      (String.utf8EncodeChar c).map UInt8.toFin ++ utf8 letters := by
  simp [utf8]

theorem length_encodeChar (c : Char) :
    ((String.utf8EncodeChar c).map UInt8.toFin).length = c.utf8Size := by
  simp

theorem map_ofFin_utf8 (cs : List Char) :
    ((utf8 cs).map UInt8.ofFin).toByteArray = cs.utf8Encode := by
  have back : (UInt8.ofFin ∘ UInt8.toFin) = id := by
    funext byte
    rfl
  simp [utf8, utf8Encode, back]

theorem firstChar_utf8 (letter : Char) (cs : List Char) :
    firstChar (utf8 (letter :: cs)) = some letter := by
  rw [firstChar, map_ofFin_utf8]
  exact utf8DecodeChar?_utf8Encode_cons

theorem ofUtf8_utf8 (letters : List Char) : ofUtf8 (utf8 letters) = letters := by
  induction letters with
  | nil => simp [utf8, ofUtf8]
  | cons c letters ih =>
    have first := firstChar_utf8 c letters
    have length := length_encodeChar c
    have pos := c.utf8Size_pos
    rw [utf8_cons] at first ⊢
    cases init : (String.utf8EncodeChar c).map UInt8.toFin with
    | nil =>
      rw [init, length_nil] at length
      omega
    | cons byte bytes =>
      rw [init, length_cons] at length
      rw [init, cons_append] at first
      have drop : (bytes ++ utf8 letters).drop (c.utf8Size - 1) = utf8 letters :=
        drop_left' (by omega)
      rw [cons_append, ofUtf8, first]
      simp [drop, ih]

/-! ## Base64 -/

/-- The letter of six bits. -/
def sextetLetter (value : Nat) : Char :=
  "ABCDEFGHIJKLMNOPQRSTUVWXYZabcdefghijklmnopqrstuvwxyz0123456789+/".toList.getD
    value 'A'

/-- The value of a letter, in the standard or in the URL-safe alphabet. -/
def sextetValue (letter : Char) : Option Nat :=
  let code := letter.toNat
  if 65 ≤ code ∧ code ≤ 90 then some (code - 65)
  else if 97 ≤ code ∧ code ≤ 122 then some (code - 71)
  else if 48 ≤ code ∧ code ≤ 57 then some (code + 4)
  else if letter = '+' ∨ letter = '-' then some 62
  else if letter = '/' ∨ letter = '_' then some 63
  else none

/-- `toString("base64")`. -/
def toBase64 : List Byte → List Char
  | [] => []
  | [first] =>
    [sextetLetter (first / 4), sextetLetter (first % 4 * 16), '=', '=']
  | [first, second] =>
    [sextetLetter (first / 4), sextetLetter (first % 4 * 16 + second / 16),
      sextetLetter (second % 16 * 4), '=']
  | first :: second :: third :: rest =>
    sextetLetter (first / 4) :: sextetLetter (first % 4 * 16 + second / 16) ::
        sextetLetter (second % 16 * 4 + third / 64) :: sextetLetter (third % 64) :: toBase64 rest

/-- A byte from its high and low bits. -/
def joinBits (value : Nat) : Byte := ⟨value % 256, Nat.mod_lt _ (by decide)⟩

/-- The bytes that whole groups of sextets stand for. -/
def regroup : List Nat → List Byte
  | first :: second :: third :: fourth :: rest =>
    joinBits (first * 4 + second / 16) :: joinBits (second * 16 + third / 4) ::
        joinBits (third * 64 + fourth) :: regroup rest
  | [first, second, third] =>
    [joinBits (first * 4 + second / 16), joinBits (second * 16 + third / 4)]
  | [first, second] => [joinBits (first * 4 + second / 16)]
  | [_] | [] => []

/-- `Buffer.from(text, "base64")`. -/
def ofBase64 (letters : List Char) : List Byte := regroup (letters.filterMap sextetValue)

theorem sextetValue_sextetLetter (value : Nat) (bound : value < 64) :
    sextetValue (sextetLetter value) = some value := by
  have cs : ∀ value : Fin 64, sextetValue (sextetLetter value) = some value.val := by decide +kernel
  exact cs ⟨value, bound⟩

theorem sextetValue_padding : sextetValue '=' = none := by decide

theorem joinBits_eq {byte : Byte} (eq : value % 256 = byte.val) : joinBits value = byte :=
  Fin.ext eq

theorem ofBase64_toBase64 (bytes : List Byte) : ofBase64 (toBase64 bytes) = bytes := by
  fun_induction toBase64 bytes with
  | case1 => rfl
  | case2 first =>
    have letter1 := sextetValue_sextetLetter (first / 4) (by omega)
    have letter2 := sextetValue_sextetLetter (first % 4 * 16) (by omega)
    simp only [ofBase64, filterMap_cons, filterMap_nil, letter1,
      letter2, sextetValue_padding, regroup, cons.injEq, and_true]
    exact joinBits_eq (by omega)
  | case3 first second =>
    have letter1 := sextetValue_sextetLetter (first / 4) (by omega)
    have letter2 := sextetValue_sextetLetter (first % 4 * 16 + second / 16) (by omega)
    have letter3 := sextetValue_sextetLetter (second % 16 * 4) (by omega)
    simp only [ofBase64, filterMap_cons, filterMap_nil, letter1,
      letter2, letter3, sextetValue_padding, regroup, cons.injEq,
      and_true]
    exact ⟨joinBits_eq (by omega), joinBits_eq (by omega)⟩
  | case4 first second third rest ih =>
    have letter1 := sextetValue_sextetLetter (first / 4) (by omega)
    have letter2 := sextetValue_sextetLetter (first % 4 * 16 + second / 16) (by omega)
    have letter3 := sextetValue_sextetLetter (second % 16 * 4 + third / 64) (by omega)
    have letter4 := sextetValue_sextetLetter (third % 64) (by omega)
    rw [ofBase64] at ih
    simp only [ofBase64, filterMap_cons, letter1, letter2, letter3,
      letter4, regroup, ih, cons.injEq, and_true]
    exact ⟨joinBits_eq (by omega), joinBits_eq (by omega), joinBits_eq (by omega)⟩

theorem head_toBase64 (first : (toBase64 bytes).head? = some letter) :
    ∃ value : Fin 64, sextetLetter value = letter := by
  cases bytes with
  | nil => cases first
  | cons byte bytes =>
    refine ⟨⟨byte / 4, by omega⟩, ?_⟩
    rcases bytes with _ | ⟨second, _ | ⟨third, rest⟩⟩ <;>
      exact Option.some.inj first

end StorageOrchestrator.Lib.ByteText
