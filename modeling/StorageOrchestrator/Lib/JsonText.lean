import StorageOrchestrator.Lib.Hex
import StorageOrchestrator.Lib.Numerals

/-!
# JSON as text

The reader of JSON texts beside the printer of `Lib.JsonValue`, for numbers in
their shortest decimal.  Objects are built field by field: a later field of a
name replaces the earlier one, and names that are array indices come first, in
ascending order.  A value whose objects are in that order is what its text
reads as.
-/

namespace StorageOrchestrator.Lib.JsonText

open Lib.JsonValue Lib.Numerals List

abbrev Value := Json Numeral

/-! ## Strings -/

/-- The value of a hexadecimal digit in either case. -/
def hexValue (letter : Char) : Option Nat := (Hex.digitValue letter.toLower).map Fin.val

/-- The code unit of a short escape. -/
def shortEscape (letter : Char) : Option Nat :=
  if letter = '"' ∨ letter = '\\' ∨ letter = '/' then some letter.toNat
  else if letter = 'n' then some 10
  else if letter = 'r' then some 13
  else if letter = 't' then some 9
  else if letter = 'b' then some 8
  else if letter = 'f' then some 12
  else none

/-- The code units of a string up to its closing quote. -/
def readUnits : List Char → Option (List Nat × List Char)
  | [] => none
  | '"' :: text => some ([], text)
  | '\\' :: 'u' :: first :: second :: third :: fourth :: text =>
    match hexValue first, hexValue second, hexValue third, hexValue fourth, readUnits text with
    | some first, some second, some third, some fourth,
        some (units, rest) =>
        some ((((first * 16 + second) * 16 + third) * 16 + fourth) :: units, rest)
    | _, _, _, _, _ => none
  | '\\' :: letter :: text =>
    match shortEscape letter, readUnits text with
    | some unit, some (units, rest) => some (unit :: units, rest)
    | _, _ => none
  | letter :: text =>
    if letter.toNat < 32 then none
    else
      match readUnits text with
      | some (units, rest) => some (letter.toNat :: units, rest)
      | none => none

/-- The character of a code unit; half of a pair is replaced. -/
def unitChar (unit : Nat) : Char :=
  if 0xD800 ≤ unit ∧ unit ≤ 0xDFFF then Char.ofNat 0xFFFD
  else Char.ofNat unit

/-- The characters of code units, pairs of them joined. -/
def joinUnits : List Nat → List Char
  | high :: low :: rest =>
    if (0xD800 ≤ high ∧ high ≤ 0xDBFF) ∧ 0xDC00 ≤ low ∧ low ≤ 0xDFFF then
      Char.ofNat (0x10000 + (high - 0xD800) * 0x400 + (low - 0xDC00)) :: joinUnits rest
    else unitChar high :: joinUnits (low :: rest)
  | [unit] => [unitChar unit]
  | [] => []

/-- A string after its opening quote. -/
def readString (text : List Char) : Option (String × List Char) :=
  match readUnits text with
  | some (units, rest) => some (String.ofList (joinUnits units), rest)
  | none => none

/-! ## Objects -/

def arrayIndex (name : String) : Option Nat :=
  let letters := name.toList
  let index := Nat.ofDigitChars 10 letters 0
  if letters.all Char.isDigit ∧ badWhole letters = false ∧ index < 2 ^ 32 - 1 then
    some index
  else none

/-- A new name goes before an old one. -/
def precedes (name old : String) : Bool :=
  match arrayIndex name, arrayIndex old with
  | some index, some oldIndex => decide (index < oldIndex)
  | some _, none => true
  | none, _ => false

def putField (name : String) (value : Value) : Fields Numeral → Fields Numeral
  | [] => [(name, value)]
  | (old, present) :: fields =>
    if old = name then (name, value) :: fields
    else if precedes name old then (name, value) :: (old, present) :: fields
    else (old, present) :: putField name value fields

/-- The object that results from defining fields one after the other. -/
def object (fields : Fields Numeral) : Fields Numeral :=
  fields.foldl (fun built field => putField field.1 field.2 built) []

/-- The order of an object's own fields. -/
def InOrder (fields : Fields Numeral) : Prop :=
  fields.Pairwise fun first second =>
    first.1 ≠ second.1 ∧ precedes second.1 first.1 = false

mutual

/-- Every object inside a value is in order. -/
def Ordered : Value → Prop
  | .arr items => OrderedItems items
  | .obj fields => InOrder fields ∧ OrderedFields fields
  | _ => True

def OrderedItems : List Value → Prop
  | [] => True
  | item :: items => Ordered item ∧ OrderedItems items

def OrderedFields : Fields Numeral → Prop
  | [] => True
  | (_, value) :: fields => Ordered value ∧ OrderedFields fields

end

/-! ## Values -/

def isBlank (letter : Char) : Bool :=
  letter == ' ' || letter == '\t' || letter == '\n' || letter == '\r'

def skipBlank (text : List Char) : List Char := text.dropWhile isBlank

mutual

/-- The value at the front of a text. -/
def readValue : Nat → List Char → Option (Value × List Char)
  | 0, _ => none
  | fuel + 1, text =>
    match skipBlank text with
    | '"' :: text =>
      match readString text with
      | some (string, rest) => some (.str string, rest)
      | none => none
    | '[' :: text =>
      match skipBlank text with
      | ']' :: text => some (.arr [], text)
      | text =>
        match readItems fuel text with
        | some (items, rest) => some (.arr items, rest)
        | none => none
    | '\x7b' :: text =>
      match skipBlank text with
      | '\x7d' :: text => some (.obj [], text)
      | text =>
        match readFields fuel text with
        | some (fields, rest) => some (.obj (object fields), rest)
        | none => none
    | 'n' :: 'u' :: 'l' :: 'l' :: text => some (.null, text)
    | 't' :: 'r' :: 'u' :: 'e' :: text => some (.bool true, text)
    | 'f' :: 'a' :: 'l' :: 's' :: 'e' :: text => some (.bool false, text)
    | text =>
      match readNumeral text with
      | some (number, rest) => some (.number number, rest)
      | none => none

def readItems : Nat → List Char → Option (List Value × List Char)
  | 0, _ => none
  | fuel + 1, text =>
    match readValue fuel text with
    | none => none
    | some (item, text) =>
      match skipBlank text with
      | ']' :: text => some ([item], text)
      | ',' :: text =>
        match readItems fuel text with
        | some (items, rest) => some (item :: items, rest)
        | none => none
      | _ => none

def readFields : Nat → List Char → Option (Fields Numeral × List Char)
  | 0, _ => none
  | fuel + 1, text =>
    match skipBlank text with
    | '"' :: text =>
      match readString text with
      | none => none
      | some (name, text) =>
        match skipBlank text with
        | ':' :: text =>
          match readValue fuel text with
          | none => none
          | some (value, text) =>
            match skipBlank text with
            | '\x7d' :: text => some ([(name, value)], text)
            | ',' :: text =>
              match readFields fuel text with
              | some (fields, rest) =>
                some ((name, value) :: fields, rest)
              | none => none
            | _ => none
        | _ => none
    | _ => none

end

/-- `JSON.parse`. -/
def parse (text : List Char) : Option Value :=
  match readValue (text.length + 1) text with
  | some (value, rest) => if skipBlank rest = [] then some value else none
  | none => none

/-! ## What is printed reads back -/

theorem hexValue_hexDigit (bound : value < 16) : hexValue (hexDigit value) = some value := by
  have lower : ∀ value : Fin 16, hexValue (hexDigit value) = some value.val := by decide
  exact lower ⟨value, bound⟩

section

variable {text rest : List Char} {units : List Nat} (read : readUnits text = some (units, rest))

include read

theorem readUnits_short (short : shortEscape c = some unit) :
    readUnits ('\\' :: c :: text) = some (unit :: units, rest) := by
  have notUnicode : c ≠ 'u' := by
    rintro rfl
    cases short
  simp [readUnits, notUnicode, short, read]

theorem readUnits_unicode (bound : value < 256) :
    readUnits ('\\' :: 'u' :: '0' :: '0' :: hexDigit (value / 16) ::
      hexDigit (value % 16) :: text) =
      some (value :: units, rest) := by
  have zero : hexValue '0' = some 0 := by decide
  have high : hexValue (hexDigit (value / 16)) = some (value / 16) := hexValue_hexDigit (by omega)
  have low : hexValue (hexDigit (value % 16)) = some (value % 16) := hexValue_hexDigit (by omega)
  have whole : ((0 * 16 + 0) * 16 + value / 16) * 16 + value % 16 = value := by omega
  simp only [readUnits, zero, high, low, read, whole]

theorem readUnits_plain (notQuote : c ≠ '"') (notEscape : c ≠ '\\') (printable : ¬c.toNat < 32) :
    readUnits (c :: text) = some (c.toNat :: units, rest) := by
  simp [readUnits, notEscape, printable, read]

theorem readUnits_escapedChar (c : Char) : readUnits (escapedChar c ++ text) =
      some (c.toNat :: units, rest) := by
  rw [escapedChar]
  split_ifs with quote escape _ _ _ _ _ control
  on_goal 9 => exact readUnits_plain read quote escape control
  on_goal 8 => exact readUnits_unicode read (by omega)
  all_goals
    subst c
    exact readUnits_short read rfl

end

theorem readUnits_quoted (cs text : List Char) :
    readUnits (cs.flatMap escapedChar ++ '"' :: text) = some (cs.map Char.toNat, text) := by
  induction cs with
  | nil => rfl
  | cons c cs ih =>
    rw [flatMap_cons, append_assoc, map_cons]
    exact readUnits_escapedChar ih c

theorem not_surrogate (c : Char) : ¬(0xD800 ≤ c.toNat ∧ c.toNat ≤ 0xDFFF) := by
  have valid : c.toNat.isValidChar := c.valid
  rw [Nat.isValidChar] at valid
  omega

theorem unitChar_toNat (letter : Char) : unitChar letter.toNat = letter := by
  rw [unitChar, if_neg (not_surrogate letter), Char.ofNat_toNat]

theorem joinUnits_map_toNat (letters : List Char) :
    joinUnits (letters.map Char.toNat) = letters := by
  induction letters with
  | nil => rfl
  | cons c letters ih =>
    cases letters with
    | nil => rw [map_singleton, joinUnits, unitChar_toNat]
    | cons second letters =>
      have single := not_surrogate c
      rw [map_cons, map_cons, joinUnits, if_neg (by omega), unitChar_toNat, ← map_cons, ih]

theorem toList_quotedText (string : String) : (quotedText string).toList =
      '"' :: (string.toList.flatMap escapedChar ++ ['"']) :=
  String.toList_ofList

theorem readString_quoted (string : String) (text : List Char) :
    readString (string.toList.flatMap escapedChar ++ '"' :: text) = some (string, text) := by
  rw [readString, readUnits_quoted]
  simp [joinUnits_map_toNat]

/-! Objects in order are rebuilt as they are. -/

/-- The order is one of the names alone. -/
theorem inOrder_iff (fs : Fields Numeral) : InOrder fs ↔
    (fs.map Prod.fst).Pairwise fun first second =>
      first ≠ second ∧ precedes second first = false := by
  rw [pairwise_map]
  rfl

theorem putField_inOrder (inOrder : InOrder (built ++ [(name, v)])) :
    putField name v built = built ++ [(name, v)] := by
  induction built with
  | nil => rfl
  | cons field built ih =>
    rw [InOrder, cons_append, pairwise_cons] at inOrder
    obtain ⟨nodup, later⟩ := inOrder.1 (name, v) (by simp)
    simp only at nodup later
    simp [putField, if_neg nodup, later, ih inOrder.2]

theorem foldl_putField {built : Fields Numeral} (inOrder : InOrder (built ++ fields)) :
    fields.foldl (fun built field => putField field.1 field.2 built) built = built ++ fields := by
  induction fields generalizing built with
  | nil =>
    rw [append_nil]
    rfl
  | cons field fields ih =>
    rw [append_cons] at inOrder ⊢
    have init : InOrder (built ++ [field]) := (pairwise_append.mp inOrder).1
    rw [foldl_cons, putField_inOrder init]
    exact ih inOrder

theorem object_eq_self (inOrder : InOrder fields) : object fields = fields := foldl_putField inOrder

/-! A printed value is read up to what follows it. -/

theorem skipBlank_cons (c : Char) (shown : isBlank c = false)
    (text : List Char) : skipBlank (c :: text) = c :: text := by
  rw [skipBlank, dropWhile_cons_of_neg (by simp [shown])]

/-- A value starts here: nothing to skip, and no end of an array. -/
def Opens (text : List Char) : Prop :=
  ∃ letter rest, text = letter :: rest ∧ isBlank letter = false ∧ letter ≠ ']'

theorem Opens.append (opens : Opens text) (more : List Char) : Opens (text ++ more) := by
  obtain ⟨c, rest, rfl, shown, other⟩ := opens
  exact ⟨c, rest ++ more, rfl, shown, other⟩

theorem opens_of_readNumeral (read : readNumeral text = some (number, rest)) : Opens text := by
  cases text with
  | nil => cases read
  | cons c text =>
    refine ⟨c, text, rfl, ?_, ?_⟩
    · rw [← Bool.not_eq_true]
      intro blank
      simp only [isBlank, Bool.or_eq_true, beq_iff_eq] at blank
      rcases blank with ((rfl | rfl) | rfl) | rfl
      all_goals cases read
    · rintro rfl
      cases read

theorem Opens.skipBlank_eq (opens : Opens text) : skipBlank text = text := by
  obtain ⟨c, rest, rfl, shown, -⟩ := opens
  exact skipBlank_cons c shown rest

theorem readValue_number (read : readNumeral text = some (number, rest)) (fuel : Nat) :
    readValue (fuel + 1) text = some (.number number, rest) := by
  rw [readValue, (opens_of_readNumeral read).skipBlank_eq]
  split
  · cases read
  · cases read
  · cases read
  · cases read
  · cases read
  · cases read
  · rw [read]

theorem numberEnds_cons {c : Char} (ends : c.isDigit = false ∧ c ≠ '.' ∧ c ≠ 'e' ∧ c ≠ 'E')
    (text : List Char) : NumberEnds (c :: text) := by
  intro first eq
  cases eq
  exact ends

theorem numberEnds_comma (text : List Char) : NumberEnds (',' :: text) :=
  numberEnds_cons (by decide) text

theorem numberEnds_bracket (text : List Char) : NumberEnds (']' :: text) :=
  numberEnds_cons (by decide) text

theorem numberEnds_brace (text : List Char) : NumberEnds ('\x7d' :: text) :=
  numberEnds_cons (by decide) text

theorem toList_number (n : Numeral) : (Json.number n).compact.toList = n.letters :=
  String.toList_ofList

theorem opens_letters (n : Numeral) : Opens n.letters := by
  have ends : NumberEnds [] := nofun
  have read := readNumeral_letters n ends
  rw [append_nil] at read
  exact opens_of_readNumeral read

theorem opens_compact (v : Value) : Opens v.compact.toList := by
  cases v with
  | null => exact ⟨'n', _, rfl, rfl, by decide⟩
  | bool flag =>
    cases flag with
    | false => exact ⟨'f', _, rfl, rfl, by decide⟩
    | true => exact ⟨'t', _, rfl, rfl, by decide⟩
  | number number =>
    rw [toList_number]
    exact opens_letters number
  | str string => exact ⟨'"', _, toList_quotedText string, rfl, by decide⟩
  | arr xs =>
    simp only [Json.compact, String.toList_append]
    exact ⟨'[', _, rfl, rfl, by decide⟩
  | obj fs =>
    simp only [Json.compact, String.toList_append]
    exact ⟨'\x7b', _, rfl, rfl, by decide⟩

theorem opens_compactItems (x : Value) (xs : List Value) :
    Opens (compactItems (x :: xs)).toList := by
  cases xs with
  | nil => exact opens_compact x
  | cons second xs =>
    simp only [compactItems, String.toList_append, append_assoc]
    exact (opens_compact x).append _

theorem readValue_array {inner rest : List Char} (opens : Opens inner)
    (read : readItems fuel (inner ++ text) = some (items, rest)) :
    readValue (fuel + 1) ('[' :: (inner ++ text)) = some (.arr items, rest) := by
  obtain ⟨letter, inner, rfl, shown, other⟩ := opens
  rw [List.cons_append] at read ⊢
  rw [readValue, skipBlank_cons _ rfl]
  simp only [skipBlank_cons _ shown]
  split
  · rename_i same
    exact absurd (List.cons.inj same).1 other
  · rw [read]

theorem toList_compactItems (x second : Value) (xs : List Value) :
    (compactItems (x :: second :: xs)).toList =
      x.compact.toList ++ ',' :: (compactItems (second :: xs)).toList := by
  simp only [compactItems, String.toList_append, append_assoc]
  rfl

theorem toList_compactField (name : String) (v : Value) : (compactFields [(name, v)]).toList =
      (quotedText name).toList ++ ':' :: v.compact.toList := by
  simp only [compactFields, String.toList_append, append_assoc]
  rfl

theorem toList_compactFields (name : String) (v : Value)
    (field : String × Value) (fs : Fields Numeral) :
    (compactFields ((name, v) :: field :: fs)).toList =
      (quotedText name).toList ++ ':' :: (v.compact.toList ++
      ',' :: (compactFields (field :: fs)).toList) := by
  simp only [compactFields, String.toList_append, append_assoc]
  rfl

section

variable (name : String) {rest text : List Char}

theorem readFields_last (read : readValue fuel rest = some (v, '\x7d' :: text)) :
    readFields (fuel + 1) ((quotedText name).toList ++ ':' :: rest) = some ([(name, v)], text) := by
  rw [toList_quotedText]
  simp only [cons_append, append_assoc, nil_append]
  rw [readFields, skipBlank_cons _ rfl]
  simp [readString_quoted, skipBlank_cons ':' rfl, read, skipBlank_cons '\x7d' rfl]

/-- A field with others after it. -/
theorem readFields_more {fs : Fields Numeral} {last : List Char}
    (read : readValue fuel rest = some (v, ',' :: text))
    (more : readFields fuel text = some (fs, last)) :
    readFields (fuel + 1) ((quotedText name).toList ++ ':' :: rest) =
      some ((name, v) :: fs, last) := by
  rw [toList_quotedText]
  simp only [cons_append, append_assoc, nil_append]
  rw [readFields, skipBlank_cons _ rfl]
  simp only [readString_quoted, skipBlank_cons ':' rfl, read, skipBlank_cons ',' rfl, more]

end

theorem front_compactFields (field : String × Value) (fs : Fields Numeral) :
    ∃ rest, (compactFields (field :: fs)).toList = '"' :: rest := by
  cases fs with
  | nil =>
    rw [toList_compactField, toList_quotedText]
    exact ⟨_, rfl⟩
  | cons second fs =>
    rw [toList_compactFields, toList_quotedText]
    exact ⟨_, rfl⟩

theorem readValue_object {fuel : Nat} {fields : Fields Numeral}
    {inner text rest : List Char} (inOrder : InOrder fields) (front : ∃ rest, inner = '"' :: rest)
    (read : readFields fuel (inner ++ text) = some (fields, rest)) :
    readValue (fuel + 1) ('\x7b' :: (inner ++ text)) = some (.obj fields, rest) := by
  obtain ⟨inner, rfl⟩ := front
  rw [cons_append] at read ⊢
  rw [readValue, skipBlank_cons _ rfl]
  simp only [skipBlank_cons '"' rfl]
  split
  · rename_i eq
    cases eq
  · simp [read, object_eq_self inOrder]

mutual

theorem readValue_compact (v : Value) (ord : Ordered v)
    (fuel : Nat) (many : v.compact.toList.length < fuel)
    {text : List Char} (ends : NumberEnds text) :
    readValue fuel (v.compact.toList ++ text) = some (v, text) := by
  obtain ⟨fuel, rfl⟩ : ∃ less, fuel = less + 1 := ⟨fuel - 1, by omega⟩
  cases v with
  | null => rfl
  | bool flag => cases flag <;> rfl
  | number number =>
    rw [toList_number]
    exact readValue_number (readNumeral_letters number ends) fuel
  | str string =>
    have read := readString_quoted string text
    rw [Json.compact, toList_quotedText]
    simp only [cons_append, append_assoc, nil_append]
    rw [readValue, skipBlank_cons _ rfl]
    simp [read]
  | arr xs =>
    cases xs with
    | nil => rfl
    | cons x xs =>
      have shape : (Json.arr (x :: xs)).compact.toList =
          '[' :: ((compactItems (x :: xs)).toList ++ [']']) := by
        simp only [Json.compact, String.toList_append]
        rfl
      rw [shape, length_cons, length_append, length_singleton] at many
      rw [shape, cons_append, append_assoc]
      exact readValue_array (opens_compactItems x xs)
        (readItems_compact x xs ord.1 ord.2 fuel (by omega) text)
  | obj fs =>
    cases fs with
    | nil => rfl
    | cons field fs =>
      obtain ⟨name, v⟩ := field
      have shape : (Json.obj ((name, v) :: fs)).compact.toList =
          '\x7b' :: ((compactFields ((name, v) :: fs)).toList ++ ['\x7d']) := by
        simp only [Json.compact, String.toList_append]
        rfl
      rw [shape, length_cons, length_append, length_singleton] at many
      rw [shape, cons_append, append_assoc]
      exact readValue_object ord.1 (front_compactFields _ fs)
        (readFields_compact name v fs ord.2.1 ord.2.2 fuel (by omega) text)
termination_by fuel

theorem readItems_compact (item : Value) (items : List Value)
    (first : Ordered item) (others : OrderedItems items) (fuel : Nat)
    (enough : (compactItems (item :: items)).toList.length + 1 < fuel) (text : List Char) :
    readItems fuel ((compactItems (item :: items)).toList ++ ']' :: text) =
      some (item :: items, text) := by
  obtain ⟨fuel, rfl⟩ : ∃ less, fuel = less + 1 := ⟨fuel - 1, by omega⟩
  cases items with
  | nil =>
    have read := readValue_compact item first fuel
      (by rw [compactItems] at enough; omega) (numberEnds_bracket text)
    simp only [compactItems, readItems, read, skipBlank_cons ']' rfl]
  | cons second items =>
    rw [toList_compactItems, List.length_append, List.length_cons] at enough
    have read := readValue_compact item first fuel (by omega)
      (numberEnds_comma ((compactItems (second :: items)).toList ++ ']' :: text))
    have more := readItems_compact second items others.1 others.2 fuel (by omega) text
    rw [toList_compactItems, List.append_assoc, List.cons_append]
    simp only [readItems, read, skipBlank_cons ',' rfl, more]
termination_by fuel

theorem readFields_compact (name : String) (v : Value) (fs : Fields Numeral) (first : Ordered v)
    (them : OrderedFields fs) (fuel : Nat) (many :
      (compactFields ((name, v) :: fs)).toList.length + 1 < fuel)
    (text : List Char) :
    readFields fuel ((compactFields ((name, v) :: fs)).toList ++ '\x7d' :: text) =
      some ((name, v) :: fs, text) := by
  obtain ⟨fuel, rfl⟩ : ∃ less, fuel = less + 1 := ⟨fuel - 1, by omega⟩
  cases fs with
  | nil =>
    rw [toList_compactField, length_append] at many
    simp only [length_cons] at many
    have read := readValue_compact v first fuel (by omega) (numberEnds_brace text)
    rw [toList_compactField, append_assoc, cons_append]
    exact readFields_last name read
  | cons field fs =>
    obtain ⟨second, other⟩ := field
    rw [toList_compactFields, length_append] at many
    simp only [length_cons, length_append] at many
    have read := readValue_compact v first fuel (by omega)
      (numberEnds_comma ((compactFields ((second, other) :: fs)).toList ++ '\x7d' :: text))
    have more := readFields_compact second other fs them.1 them.2 fuel (by omega) text
    rw [toList_compactFields]
    simp only [append_assoc, cons_append]
    exact readFields_more name read more
termination_by fuel

end

/-- A value in order is what its text reads as. -/
theorem parse_compact (ord : Ordered value) : parse value.compact.toList = some value := by
  have ends : NumberEnds [] := nofun
  have read := readValue_compact value ord (value.compact.toList.length + 1) (by omega) ends
  rw [append_nil] at read
  rw [parse, read]
  rfl

end StorageOrchestrator.Lib.JsonText
