import StorageOrchestrator.Lib.Placeholders
import StorageOrchestrator.Lib.SqlLexer

/-!
# Parameter inlining

The extended protocol sends a statement with placeholders and the bytes of its
parameters.  `do_query` inlines the parameters as text before
`execute_sql_bound` parses the statement, and the read path inlines once more,
with every parameter NULL.  Both inline one placeholder number after the
other in the text so far.

The main theorem says for which statements and parameters the result is the
simultaneous substitution: every placeholder token becomes one literal and all
other tokens stay.
-/

namespace StorageOrchestrator.Wire.Inlining

open Lib.Placeholders Lib.SqlLexer Lib.Text
open List hiding after lex

/-! ## The source -/

def replaced (text : String) (needle new : List Char) : String :=
  String.ofList (replaceAll needle new text.toList)

/-- The loop of both functions: from the last parameter to the first. -/
def inlineWith {Param : Type} (literal : Option Param → List Char)
    (sql : String) (params : List (Option Param)) : String :=
  params.zipIdx.reverse.foldl (fun result entry =>
      replaced result (mark (entry.2 + 1)) (literal entry.1)) sql

def textLiteral : Option String → List Char
  | some text => (quotedLiteral text).toList
  | none => "NULL".toList

def inlineParams (sql : String) (params : List (Option String)) : String :=
  inlineWith textLiteral sql params

/-- Two hexadecimal digits a byte. -/
def hex (bytes : ByteArray) : List Char :=
  bytes.toList.flatMap fun byte =>
    [(byte.toNat / 16).digitChar, (byte.toNat % 16).digitChar]

def bytesLiteral : Option ByteArray → List Char
  | some bytes =>
    match String.fromUTF8? bytes with
    | some text => (quotedLiteral text).toList
    | none => "decode('".toList ++ hex bytes ++ "','hex')::bytea".toList
  | none => "NULL".toList

def inlineParamsBytes (sql : String) (params : List (Option ByteArray)) : String :=
  inlineWith bytesLiteral sql params

/-- The statement `do_query` gives to `execute_sql_bound`, which parses it. -/
def boundStatement (sql : String) (params : List (Option ByteArray)) : String :=
  if params.isEmpty then sql else inlineParamsBytes sql params

/-- The statement the read path of `execute_sql_bound` sends on. -/
def sentStatement (sql : String) (params : List (Option ByteArray)) : String :=
  if params.isEmpty then boundStatement sql params
  else inlineParams (boundStatement sql params) (params.map fun _ => none)

/-! ## The substitution it stands for -/

def placeholder? : Token → Option Nat
  | '$' :: digits =>
    if digits ≠ [] ∧ digits.all Char.isDigit then some (valueOf digits)
    else none
  | _ => none

/-- The parameter of a number, if there is one. -/
def boundValue (params : List (Option ByteArray)) (number : Nat) : Option (Option ByteArray) :=
  if number = 0 then none else params[number - 1]?

/-- The literal that denotes a parameter; bytes are in hexadecimal format. -/
def literalToken : Option ByteArray → Token
  | some bytes =>
    match String.fromUTF8? bytes with
    | some text => (quotedLiteral text).toList
    | none => (quotedLiteral (String.ofList ('\\' :: 'x' :: hex bytes))).toList
  | none => "NULL".toList

/-- A token of the statement with the parameters in their places. -/
def substituted (params : List (Option ByteArray)) (token : Token) : Token :=
  match (placeholder? token).bind (boundValue params) with
  | some value => literalToken value
  | none => token

/-- The tokens of the statement with the parameters in their places. -/
def substitution (sql : String) (params : List (Option ByteArray)) : List Token :=
  (lex sql.toList).map (substituted params)

/-- What is parsed, and what is sent if it is a read, have the tokens of the substitution. -/
def Faithful (sql : String) (params : List (Option ByteArray)) : Prop :=
  lex (boundStatement sql params).toList = substitution sql params ∧
    lex (sentStatement sql params).toList = substitution sql params

/-- A token stands for a parameter. -/
def StandsFor (params : List (Option ByteArray)) (token : Token)
    (number : Nat) (value : Option ByteArray) : Prop :=
  placeholder? token = some number ∧ boundValue params number = some value

/-- When a statement can be inlined number by number. -/
structure Inlinable (sql : String) (params : List (Option ByteArray)) : Prop where
  /-- Placeholders of parameters have no leading zeros. -/
  canonical : ∀ token ∈ lex sql.toList, ∀ number value,
    StandsFor params token number value → token = mark number
  /-- Parameters that are used are NULL or text. -/
  textual : ∀ token ∈ lex sql.toList, ∀ number bytes, StandsFor params token number (some bytes) →
      (String.fromUTF8? bytes).isSome = true
  /-- Neither a literal nor the rest of the statement has a mark. -/
  unmarked : Unmarked params.length (substitution sql params).flatten
  /-- No literal runs together with what is next to it. -/
  apart : allClose (substitution sql params) = true

/-! ## Literals -/

theorem quotedLiteral_toList (text : String) :
    (quotedLiteral text).toList = '\'' :: (text.toList.flatMap fun c =>
      if c = '\'' then ['\'', '\''] else [c]) ++ ['\''] := by
  rw [quotedLiteral, String.toList_ofList]

theorem solid_quotedLiteral (text : String) : Solid (quotedLiteral text).toList := by
  rw [quotedLiteral_toList, cons_append]
  exact ⟨_, _, rfl, rfl, by decide⟩

theorem solid_bytesLiteral (param : Option ByteArray) : Solid (bytesLiteral param) := by
  cases param with
  | none => exact ⟨_, _, rfl, rfl, by decide⟩
  | some bytes =>
    simp only [bytesLiteral]
    split
    · exact solid_quotedLiteral _
    · exact ⟨_, _, rfl, rfl, by decide⟩

/-- A quoted text is a token before a blank. -/
theorem ends_quotedLiteral (text : String) : Ends (quotedLiteral text).toList [' '] := by
  have body : ∀ cs : List Char, quotedRest '\'' ((cs.flatMap fun c =>
        if c = '\'' then ['\'', '\''] else [c]) ++ ['\'', ' ']) =
      (cs.flatMap fun c =>
        if c = '\'' then ['\'', '\''] else [c]).length + 1 := by
    intro cs
    induction cs with
    | nil => rfl
    | cons c cs ih =>
      by_cases quote : c = '\''
      · subst quote
        simp [quotedRest_doubled, ih]
      · simp [quote, quotedRest_of_ne quote, ih]
  have opens : opening '\'' = .string := rfl
  rw [quotedLiteral_toList, cons_append, Ends, further, opens, append_assoc, length_append]
  exact body text.toList

/-- A value that is not NULL is denoted by a quoted text. -/
theorem literalToken_some (bytes : ByteArray) :
    ∃ text, literalToken (some bytes) = (quotedLiteral text).toList := by
  simp only [literalToken]
  split
  · exact ⟨_, rfl⟩
  · exact ⟨_, rfl⟩

theorem ends_literalToken (v : Option ByteArray) : Ends (literalToken v) [' '] := by
  cases v with
  | none =>
    show further 'N' ['U', 'L', 'L', ' '] = 3
    decide
  | some bytes =>
    rcases literalToken_some bytes with ⟨text, quoted⟩
    rw [quoted]
    exact ends_quotedLiteral text

/-! ## Inlining as passes -/

theorem toList_inlineWith {Param : Type} (lit : Option Param → List Char)
    (params : List (Option Param)) (sql : String) :
    (inlineWith lit sql params).toList =
      passes (fun n => lit (params.getD (n - 1) none)) params.length sql.toList := by
  induction params using reverseRecOn generalizing sql with
  | nil => rfl
  | append_singleton params param ih =>
    have first : inlineWith lit sql (params ++ [param]) = inlineWith lit
          (replaced sql (mark (params.length + 1)) (lit param))
          params := by
      simp [inlineWith, zipIdx_append]
    rw [first, ih, length_append, length_singleton, passes, replaced, String.toList_ofList]
    have last : (params ++ [param]).getD (params.length + 1 - 1) none =
        param := by
      simp
    rw [last]
    apply passes_congr
    intro n pos bound
    have mem : n - 1 < params.length := by omega
    simp [getD_eq_getElem?_getD, getElem?_append_left mem]

/-! ## Placeholders among the tokens -/

section

theorem placeholder?_eq_some (mark : placeholder? tok = some number) :
    ∃ digits, tok = '$' :: digits ∧ digits ≠ [] ∧ (∀ c ∈ digits, c.isDigit = true) ∧
      number = valueOf digits := by
  cases tok with
  | nil => cases mark
  | cons c digits =>
    by_cases isDollar : c = '$'
    · subst isDollar
      simp only [placeholder?] at mark
      split at mark
      · rename_i shape
        refine ⟨digits, rfl, shape.1, all_eq_true.mp shape.2, ?_⟩
        exact (Option.some_inj.mp mark).symm
      · cases mark
    · simp [placeholder?, isDollar] at mark

/-- No digit follows a placeholder. -/
theorem leading_of_ends (mark : placeholder? token = some number)
    (ends : Ends token post) : leading post = [] := by
  rcases placeholder?_eq_some mark with ⟨ds, rfl, full, digs, _⟩
  have shut := (ends_iff_closes ends id).mp ends
  have opens : opening '$' = .dollar := rfl
  cases ds with
  | nil => exact absurd rfl full
  | cons first ds =>
    have isDigit := digs first mem_cons_self
    have stopped : stops isRunPart post = true := by simpa [closes, opens, isDigit] using shut
    cases post with
    | nil => rfl
    | cons c post =>
      have notDigit : c.isDigit = false := by
        simp only [stops, head?_cons, Option.any_some, isRunPart,
          Bool.not_eq_true', Bool.or_eq_false_iff] at stopped
        exact stopped.2
      simp [leading, notDigit]

theorem substituted_of_standsFor (means : StandsFor params token number value) :
    substituted params token = literalToken value := by
  rw [substituted, means.1, Option.bind_some, means.2]

theorem substituted_cases (params : List (Option ByteArray)) (token : Token) :
    (∃ n v, StandsFor params token n v) ∨ (∀ n v, ¬ StandsFor params token n v) ∧
      substituted params token = token := by
  cases mark : placeholder? token with
  | none =>
    right
    refine ⟨?_, by rw [substituted, mark, Option.bind_none]⟩
    intro n v means
    rw [means.1] at mark
    cases mark
  | some n =>
    cases bound : boundValue params n with
    | none =>
      right
      refine ⟨?_, ?_⟩
      · intro other v means
        have eq := means.1
        rw [mark] at eq
        cases eq
        rw [means.2] at bound
        cases bound
      · rw [substituted, mark, Option.bind_some, bound]
    | some v => exact .inl ⟨n, v, mark, bound⟩

theorem bounds_of_standsFor (means : StandsFor params token number value) :
    0 < number ∧ number ≤ params.length ∧ params.getD (number - 1) none = value := by
  have bound := means.2
  rw [boundValue] at bound
  split at bound
  · cases bound
  · rename_i notZero
    rcases List.getElem?_eq_some_iff.mp bound with ⟨mem, eq⟩
    refine ⟨by omega, by omega, ?_⟩
    rw [List.getD_eq_getElem?_getD, bound, Option.getD_some]

/-- NULL and text are inlined as their literals. -/
theorem bytesLiteral_eq_literalToken (textual : ∀ bytes, value = some bytes →
      (String.fromUTF8? bytes).isSome = true) :
    bytesLiteral value = literalToken value := by
  cases value with
  | none => rfl
  | some bytes =>
    rcases Option.isSome_iff_exists.mp (textual bytes rfl) with ⟨text, isText⟩
    simp [bytesLiteral, literalToken, isText]

end

/-! ## Passes over the tokens -/

section

variable (params : List (Option ByteArray))

/-- What the first inlining writes for a number. -/
def written (number : Nat) : List Char := bytesLiteral (params.getD (number - 1) none)

theorem solid_written (n : Nat) : Solid (written params n) := solid_bytesLiteral _

variable {params}

/-- A placeholder whose literal has no mark becomes its literal. -/
theorem passes_placeholder (pos : 0 < number) (bound : number ≤ params.length)
    (bare : Unmarked params.length (written params number)) (noDigit : leading after = []) :
    passes (written params) params.length (mark number ++ after) = written params number ++
      passes (written params) params.length after := by
  rw [passes_append (solid_written params) _ _ noDigit, passes_mark pos bound,
    passes_of_unmarked (solid_written params) (bare.lower (by omega))]

/-- The passes of a statement that can be inlined. -/
theorem passes_tokens {ts : List Token} (done : Settled ts)
    (canon : ∀ token ∈ ts, ∀ n v, StandsFor params token n v → token = mark n)
    (textual : ∀ token ∈ ts, ∀ n bytes, StandsFor params token n (some bytes) →
      (String.fromUTF8? bytes).isSome = true)
    (bare : Unmarked params.length (ts.map (substituted params)).flatten) :
    passes (written params) params.length ts.flatten = (ts.map (substituted params)).flatten := by
  induction ts with
  | nil => exact passes_nil _
  | cons token rest ih =>
    rw [map_cons, flatten_cons] at bare
    have later := ih done.2 (fun other mem => canon other (mem_cons_of_mem _ mem))
      (fun other mem => textual other (mem_cons_of_mem _ mem))
      (bare.part (suffix_append _ _).isInfix)
    rw [flatten_cons, map_cons, flatten_cons]
    rcases substituted_cases params token with ⟨n, v, means⟩ | ⟨_, eq⟩
    · rcases bounds_of_standsFor means with ⟨pos, bound, isValue⟩
      have isLiteral : written params n = substituted params token := by
        rw [written, isValue, substituted_of_standsFor means]
        apply bytesLiteral_eq_literalToken
        rintro bytes rfl
        exact textual token mem_cons_self n bytes means
      have noDigit := leading_of_ends means.1 done.1
      have isMark := canon token mem_cons_self n v means
      have clean : Unmarked params.length (written params n) := by
        rw [isLiteral]
        exact bare.part (prefix_append _ _).isInfix
      rw [← isLiteral, isMark, passes_placeholder pos bound clean noDigit, later]
    · rw [eq] at bare ⊢
      have sameDigits : leading rest.flatten = leading (rest.map (substituted params)).flatten := by
        rw [← later, leading_passes (solid_written params)]
      rw [passes_front_of_unmarked (solid_written params) sameDigits bare, later]

/-- The first letter of what is written is never the dollar sign it replaces. -/
theorem literalToken_head (v : Option ByteArray) : (literalToken v).head? = some '\'' ∨
      (literalToken v).head? = some 'N' := by
  cases v with
  | none => exact .inr rfl
  | some bytes =>
    left
    rcases literalToken_some bytes with ⟨text, quoted⟩
    rw [quoted, quotedLiteral_toList]
    rfl

/-- A placeholder with a leading zero is left standing. -/
theorem mark_of_passes (means : StandsFor params token number v)
    (pass : passes (written params) params.length (token ++ post) =
      substituted params token ++ result) :
    token = mark number := by
  rcases placeholder?_eq_some means.1 with ⟨cs, rfl, full, digs, num⟩
  cases cs with
  | nil => exact absurd rfl full
  | cons c cs =>
    by_cases isZero : c = '0'
    · subst isZero
      have notMarked : ¬ Marked params.length ('0' :: cs ++ post) := by
        rintro ⟨other, pos, _, init⟩
        rcases digits_eq_cons pos with ⟨first, rest, shown, notZero⟩
        have isDigit : Char.isDigit '0' = true := rfl
        rw [shown, cons_append, leading, takeWhile_cons,
          isDigit, if_pos rfl, cons_prefix_cons] at init
        exact notZero init.1
      rw [cons_append, passes_dollar (solid_written params) notMarked,
        substituted_of_standsFor means] at pass
      have heads := congrArg head? pass
      rw [head?_cons, head?_append] at heads
      rcases literalToken_head v with quote | isLetter
      · rw [quote] at heads
        cases heads
      · rw [isLetter] at heads
        cases heads
    · rw [num, mark, digits_valueOf digs isZero]

/-- Bytes that are not text are not written as one literal. -/
theorem textual_of_passes (means : StandsFor params token n (some bytes))
    (noDigit : leading after = []) (pass : passes (written params) params.length (mark n ++ after) =
      substituted params token ++ result) :
    (String.fromUTF8? bytes).isSome = true := by
  rcases bounds_of_standsFor means with ⟨pos, bound, isValue⟩
  cases isText : String.fromUTF8? bytes with
  | some text => rfl
  | none =>
    have shape : written params n = 'd' ::
        ("ecode('".toList ++ hex bytes ++ "','hex')::bytea".toList) := by
      simp only [written, isValue, bytesLiteral, isText]
      rfl
    rw [passes_append (solid_written params) _ _ noDigit,
      passes_mark pos bound, shape, passes_of_ne (by decide),
      substituted_of_standsFor means] at pass
    have heads := congrArg head? pass
    rw [cons_append, head?_cons, head?_append] at heads
    rcases literalToken_head (some bytes) with quote | isLetter
    · rw [quote] at heads
      cases heads
    · rw [isLetter] at heads
      cases heads

/-- Where the passes give the substitution, the tokens allowed it. -/
theorem allowed_of_passes {ts : List Token} (done : Settled ts)
    (bare : Unmarked params.length (ts.map (substituted params)).flatten)
    (pass : passes (written params) params.length ts.flatten =
      (ts.map (substituted params)).flatten) :
    ∀ token ∈ ts, ∀ number v, StandsFor params token number v →
      token = mark number ∧ ∀ bytes, v = some bytes → (String.fromUTF8? bytes).isSome = true := by
  induction ts with
  | nil =>
    intro token mem
    cases mem
  | cons token rest ih =>
    rw [map_cons, flatten_cons] at bare
    rw [flatten_cons, map_cons, flatten_cons] at pass
    have laterUnmarked := bare.part (suffix_append _ _).isInfix
    rcases substituted_cases params token with ⟨number, v, means⟩ | ⟨free, eq⟩
    · rcases bounds_of_standsFor means with ⟨pos, bound, isValue⟩
      have isLiteral := substituted_of_standsFor means
      have noDigit := leading_of_ends means.1 done.1
      have isMark : token = mark number := mark_of_passes means pass
      have textual : ∀ bytes, v = some bytes → (String.fromUTF8? bytes).isSome = true := by
        rintro bytes rfl
        apply textual_of_passes means noDigit
        rw [← isMark]
        exact pass
      have sameLiteral : written params number = substituted params token := by
        rw [written, isValue, isLiteral]
        exact bytesLiteral_eq_literalToken textual
      have clean : Unmarked params.length (written params number) := by
        rw [sameLiteral]
        exact bare.part (prefix_append _ _).isInfix
      rw [← sameLiteral, isMark, passes_placeholder pos bound clean noDigit] at pass
      have later := ih done.2 laterUnmarked (append_cancel_left pass)
      intro other mem otherNumber otherValue otherStands
      rcases mem_cons.mp mem with rfl | late
      · have sameNumber : number = otherNumber :=
          Option.some_inj.mp (means.1.symm.trans otherStands.1)
        subst sameNumber
        have eqVal : v = otherValue := Option.some_inj.mp (means.2.symm.trans otherStands.2)
        subst eqVal
        exact ⟨isMark, textual⟩
      · exact later other late otherNumber otherValue otherStands
    · rw [eq] at pass
      have still : token <+: passes (written params) params.length (token ++ rest.flatten) := by
        rw [pass]
        exact prefix_append _ _
      rw [passes_front (solid_written params) still] at pass
      have later := ih done.2 laterUnmarked (append_cancel_left pass)
      intro other mem number v means
      rcases mem_cons.mp mem with rfl | late
      · exact absurd means (free number v)
      · exact later other late number v means

end

/-! ## The statement that is parsed and sent -/

section

variable (sql : String) (params : List (Option ByteArray))

theorem toList_boundStatement : (boundStatement sql params).toList =
      passes (written params) params.length sql.toList := by
  cases params with
  | nil => rfl
  | cons param params =>
    exact toList_inlineWith bytesLiteral (param :: params) sql

theorem toList_sentStatement : (sentStatement sql params).toList =
      passes (fun _ => "NULL".toList) params.length
      (boundStatement sql params).toList := by
  cases params with
  | nil => rfl
  | cons param params =>
    have inlined := toList_inlineWith textLiteral ((param :: params).map fun _ => none)
      (boundStatement sql (param :: params))
    rw [length_map] at inlined
    rw [sentStatement, isEmpty_cons, if_neg Bool.false_ne_true, inlineParams, inlined]
    apply passes_congr
    intro n _ _
    rw [getD_eq_getElem?_getD, getElem?_map]
    cases (param :: params)[n - 1]? <;> rfl

theorem substituted_ne_nil (full : tok ≠ []) : substituted params tok ≠ [] := by
  rcases substituted_cases params tok with ⟨n, v, means⟩ | ⟨_, eq⟩
  · rw [substituted_of_standsFor means]
    intro isEmpty
    rcases literalToken_head v with quote | isLetter
    · rw [isEmpty] at quote
      cases quote
    · rw [isEmpty] at isLetter
      cases isLetter
  · rw [eq]
    exact full

/-- The substitution is read back exactly when its literals stand apart. -/
theorem lex_substitution_iff : lex (substitution sql params).flatten = substitution sql params ↔
      allClose (substitution sql params) = true := by
  have full : ∀ tok ∈ lex sql.toList, tok ≠ [] := fun _ mem => lex_ne_nil mem
  rw [lex_flatten_iff]
  · apply settled_map_iff (settled_lex _) full
    intro tok _
    rcases substituted_cases params tok with ⟨n, v, means⟩ | ⟨_, eq⟩
    · right
      rw [substituted_of_standsFor means]
      exact ⟨[' '], by simp, ends_literalToken v⟩
    · exact .inl eq
  · intro tok mem
    rcases mem_map.mp mem with ⟨original, isToken, rfl⟩
    exact substituted_ne_nil params (full original isToken)

theorem reads_iff (text : List Char) : lex text = substitution sql params ↔
      text = (substitution sql params).flatten ∧ allClose (substitution sql params) = true := by
  rw [← lex_substitution_iff]
  constructor
  · intro reads
    have eq : text = (substitution sql params).flatten := by rw [← reads, flatten_lex]
    refine ⟨eq, ?_⟩
    rw [← eq]
    exact reads
  · rintro ⟨rfl, readBack⟩
    exact readBack

theorem solid_null : Solid "NULL".toList :=
  ⟨_, _, rfl, rfl, by decide⟩

variable {sql params} in
theorem boundStatement_of_inlinable (inlinable : Inlinable sql params) :
    (boundStatement sql params).toList = (substitution sql params).flatten := by
  have pass := passes_tokens (settled_lex sql.toList)
    inlinable.canonical inlinable.textual inlinable.unmarked
  rw [flatten_lex] at pass
  rw [toList_boundStatement, pass]
  rfl

/--
Parameter inlining is the simultaneous substitution for exactly the statements
and parameters that are `Inlinable`.
-/
theorem inlining_faithful_iff : Faithful sql params ↔ Inlinable sql params := by
  rw [Faithful, reads_iff, reads_iff, toList_sentStatement]
  constructor
  · rintro ⟨⟨bound, apart⟩, isSent, _⟩
    rw [bound] at isSent
    have unmarked : Unmarked params.length (substitution sql params).flatten := by
      rw [← isSent]
      exact unmarked_passes (fun _ => solid_null) (fun _ => by decide) _ _
    rw [toList_boundStatement, ← flatten_lex sql.toList] at bound
    have ok := allowed_of_passes (settled_lex _) unmarked bound
    exact
      { canonical := fun tok mem n v means =>
          (ok tok mem n v means).1
        textual := fun tok mem n bytes means =>
          (ok tok mem n _ means).2 bytes rfl
        unmarked := unmarked
        apart := apart }
  · intro inlinable
    have bound := boundStatement_of_inlinable inlinable
    refine ⟨⟨bound, inlinable.apart⟩, ?_, inlinable.apart⟩
    rw [bound]
    exact passes_of_unmarked (fun _ => solid_null) inlinable.unmarked

end

/-- A parameter with the text of another's placeholder ends its own literal. -/
theorem parameter_text_is_rescanned :
    ¬ Faithful "select $1, $2"
      [some "; drop table t; --".toUTF8, some "$1".toUTF8] := by
  have read : (boundStatement "select $1, $2"
      [some "; drop table t; --".toUTF8, some "$1".toUTF8]) =
        "select '; drop table t; --', ''; drop table t; --''" := by
    decide +kernel
  rintro ⟨reads, _⟩
  rw [read] at reads
  revert reads
  decide +kernel

end StorageOrchestrator.Wire.Inlining
