import Mathlib

/-!
# The lexical structure of SQL

A text is cut into tokens from left to right: blanks, comments, string
constants (also with escapes, Unicode escapes or dollar quotes), quoted names,
words, numbers and placeholders.  Nothing is dropped, so a text is its tokens
put together.  Backslashes are ordinary in a plain string constant.  Operators
and the parts of a fraction are read character by character, which only
refines the tokens of a database.  Of its other rules two are left out: string
constants that go on after a line break, and comments that a carriage return
ends.

A token is its text.  Where a token ends depends on little of what follows it:
`closes` says on what, and a list of tokens is read back from its text exactly
when every token closes before the next.
-/

namespace StorageOrchestrator.Lib.SqlLexer

open List

variable {text body after other : List Char} {quote letter : Char}

abbrev Token := List Char

/-! ## Characters -/

def isWordStart (letter : Char) : Bool :=
  letter.isAlpha || letter == '_' || decide (128 ≤ letter.toNat)

/-- The characters that run on in a number, a placeholder or a tag. -/
def isRunPart (letter : Char) : Bool := isWordStart letter || letter.isDigit

def isWordPart (letter : Char) : Bool := isRunPart letter || letter == '$'

/-- What a token is by its first character. -/
inductive Opening where
  | string
  | quotedName
  | minus
  | slash
  | dollar
  | number
  | word
  | other

def opening (letter : Char) : Opening :=
  if letter = '\'' then .string
  else if letter = '"' then .quotedName
  else if letter = '-' then .minus
  else if letter = '/' then .slash
  else if letter = '$' then .dollar
  else if letter.isDigit then .number
  else if isWordStart letter then .word
  else .other

/-! ## Lengths -/

/-- Up to the closing quote; a doubled quote does not close. -/
def quotedRest (quote : Char) : List Char → Nat
  | [] => 0
  | [_] => 1
  | first :: second :: rest =>
    if first = quote then
      if second = quote then quotedRest quote rest + 2 else 1
    else quotedRest quote (second :: rest) + 1

/-- Up to the closing quote; a quote or backslash may follow a backslash. -/
def escapedRest : List Char → Nat
  | [] => 0
  | [_] => 1
  | first :: second :: rest =>
    if first = '\\' then escapedRest rest + 2
    else if first = '\'' then
      if second = '\'' then escapedRest rest + 2 else 1
    else escapedRest (second :: rest) + 1

/-- Up to the end of a comment; comments nest. -/
def blockRest : Nat → List Char → Nat
  | _, [] => 0
  | _, [_] => 1
  | depth, first :: second :: rest =>
    if first = '*' ∧ second = '/' then
      match depth with
      | 0 => 2
      | depth + 1 => blockRest depth rest + 2
    else if first = '/' ∧ second = '*' then blockRest (depth + 1) rest + 2
    else blockRest depth (second :: rest) + 1

/-- Up to the end of the first occurrence of a delimiter. -/
def delimitedRest (delimiter : List Char) : List Char → Nat
  | [] => 0
  | first :: rest =>
    if delimiter.isPrefixOf (first :: rest) then delimiter.length
    else delimitedRest delimiter rest + 1

/-- After a minus: a comment runs to the end of the line. -/
def minusRest (rest : List Char) : Nat :=
  if rest.head? = some '-' then (rest.takeWhile (· != '\n')).length else 0

def slashRest (rest : List Char) : Nat :=
  if rest.head? = some '*' then blockRest 0 rest.tail + 1 else 0

/-- After a dollar sign: a placeholder, or a string between two tags. -/
def dollarRest (rest : List Char) : Nat :=
  let tag := rest.takeWhile isRunPart
  if rest.head?.any Char.isDigit then tag.length
  else
    match rest.drop tag.length with
    | '$' :: inner =>
      tag.length + 1 + delimitedRest ('$' :: tag ++ ['$']) inner
    | _ => tag.length

/-- A letter before a quote makes a string with escapes. -/
def wordRest (letter : Char) (rest : List Char) : Nat :=
  if letter.toLower = 'e' ∧ rest.head? = some '\'' then
    escapedRest rest.tail + 1
  else if letter.toLower = 'u' ∧ ['&', '\''].isPrefixOf rest then
    quotedRest '\'' (rest.drop 2) + 2
  else if letter.toLower = 'u' ∧ ['&', '"'].isPrefixOf rest then
    quotedRest '"' (rest.drop 2) + 2
  else (rest.takeWhile isWordPart).length

/-- How many characters of a token follow its first. -/
def further (letter : Char) (rest : List Char) : Nat :=
  match opening letter with
  | .string => quotedRest '\'' rest
  | .quotedName => quotedRest '"' rest
  | .minus => minusRest rest
  | .slash => slashRest rest
  | .dollar => dollarRest rest
  | .number => (rest.takeWhile isRunPart).length
  | .word => wordRest letter rest
  | .other => 0

/-! ## Tokens -/

/-- The tokens of a text; `skip` characters belong to the token before. -/
def lexFrom : Nat → List Char → List Token
  | _, [] => []
  | skip + 1, _ :: rest => lexFrom skip rest
  | 0, letter :: rest =>
    (letter :: rest.take (further letter rest)) :: lexFrom (further letter rest) rest

def lex (text : List Char) : List Token := lexFrom 0 text

theorem lexFrom_skip (skip : Nat) (text : List Char) :
    lexFrom skip text = lex (text.drop skip) := by
  induction text generalizing skip with
  | nil => cases skip <;> rfl
  | cons letter rest ih =>
    cases skip with
    | zero => rfl
    | succ skip => exact ih skip

theorem lex_cons (letter : Char) (rest : List Char) : lex (letter :: rest) =
      (letter :: rest.take (further letter rest)) :: lex (rest.drop (further letter rest)) := by
  rw [← lexFrom_skip]
  rfl

theorem flatten_lexFrom (skip : Nat) (text : List Char) :
    (lexFrom skip text).flatten = text.drop skip := by
  induction text generalizing skip with
  | nil => simp [lexFrom]
  | cons letter rest ih =>
    cases skip with
    | zero => rw [lexFrom, flatten_cons, ih, cons_append, take_append_drop, drop_zero]
    | succ skip => exact ih skip

/-- Nothing is dropped. -/
theorem flatten_lex (text : List Char) : (lex text).flatten = text := flatten_lexFrom 0 text

theorem lexFrom_ne_nil (mem : token ∈ lexFrom skip text) : token ≠ [] := by
  induction text generalizing skip with
  | nil => cases skip <;> cases mem
  | cons letter rest ih =>
    cases skip with
    | zero =>
      rcases mem_cons.mp mem with rfl | later
      · exact cons_ne_nil _ _
      · exact ih later
    | succ skip => exact ih mem

theorem lex_ne_nil (mem : token ∈ lex text) : token ≠ [] := lexFrom_ne_nil mem

/-! ## Lengths are within the text -/

theorem quotedRest_le (quote : Char) (text : List Char) : quotedRest quote text ≤ text.length := by
  fun_induction quotedRest quote text <;> simp_all

theorem escapedRest_le (text : List Char) : escapedRest text ≤ text.length := by
  fun_induction escapedRest text <;> simp_all

theorem blockRest_le (depth : Nat) (text : List Char) : blockRest depth text ≤ text.length := by
  fun_induction blockRest depth text <;> simp_all

theorem delimitedRest_le (mark text : List Char) : delimitedRest mark text ≤ text.length := by
  fun_induction delimitedRest mark text with
  | case1 => exact Nat.le_refl 0
  | case2 first rest init =>
    exact ( isPrefixOf_iff_prefix.mp init).length_le
  | case3 first rest away ih =>
    rw [length_cons]
    omega

theorem length_takeWhile_le (part : Char → Bool) (text : List Char) :
    (text.takeWhile part).length ≤ text.length :=
  (takeWhile_sublist part).length_le

theorem further_le (letter : Char) (rest : List Char) : further letter rest ≤ rest.length := by
  rw [further]
  split
  · exact quotedRest_le _ _
  · exact quotedRest_le _ _
  · rw [minusRest]
    split
    · exact length_takeWhile_le _ _
    · exact Nat.zero_le _
  · rw [slashRest]
    split
    · cases rest with
      | nil => contradiction
      | cons first rest => exact Nat.succ_le_succ (blockRest_le 0 rest)
    · exact Nat.zero_le _
  · rw [dollarRest]
    have tagLength := length_takeWhile_le isRunPart rest
    split
    · exact tagLength
    · split
      · rename_i inner isInner
        have innerLength := delimitedRest_le ('$' :: rest.takeWhile isRunPart ++ ['$']) inner
        have whole := congrArg length isInner
        rw [length_drop, length_cons] at whole
        omega
      · exact tagLength
  · exact length_takeWhile_le _ _
  · rw [wordRest]
    split
    · cases rest with
      | nil => simp_all
      | cons first rest => exact Nat.succ_le_succ (escapedRest_le rest)
    · split
      · rename_i init
        rcases isPrefixOf_iff_prefix.mp init.2 with ⟨after, rfl⟩
        exact Nat.succ_le_succ (Nat.succ_le_succ (quotedRest_le _ after))
      · split
        · rename_i init
          rcases isPrefixOf_iff_prefix.mp init.2 with ⟨after, rfl⟩
          exact Nat.succ_le_succ (Nat.succ_le_succ (quotedRest_le _ after))
        · exact length_takeWhile_le _ _
  · exact Nat.zero_le _

/-! ## Reading tokens back -/

/-- A token ends where the text after it starts. -/
def Ends : Token → List Char → Prop
  | [], _ => False
  | letter :: body, after => further letter (body ++ after) = body.length

/-- Every token of a list ends before the next. -/
def Settled : List Token → Prop
  | [] => True
  | token :: rest => Ends token rest.flatten ∧ Settled rest

theorem lex_flatten_iff {tokens : List Token} (full : ∀ tok ∈ tokens, tok ≠ []) :
    lex tokens.flatten = tokens ↔ Settled tokens := by
  induction tokens with
  | nil => exact ⟨fun _ => trivial, fun _ => rfl⟩
  | cons tok rest ih =>
    have later := ih fun other mem =>
      full other (mem_cons_of_mem _ mem)
    cases tok with
    | nil => exact absurd rfl (full [] mem_cons_self)
    | cons letter body =>
      rw [flatten_cons, cons_append, lex_cons, Settled, Ends, ← later]
      constructor
      · intro readBack
        have first := cons.inj readBack
        have sameBody := (cons.inj first.1).2
        have eqLen : further letter (body ++ rest.flatten) =
            body.length := by
          have lens := congrArg length sameBody
          have bound := further_le letter (body ++ rest.flatten)
          rw [length_take] at lens
          omega
        refine ⟨eqLen, ?_⟩
        have them := first.2
        rw [eqLen, drop_left] at them
        exact them
      · rintro ⟨ends, them⟩
        rw [ends, take_left, drop_left, them]

theorem settled_lex (text : List Char) : Settled (lex text) := by
  rw [← lex_flatten_iff (fun _ mem => lex_ne_nil mem), flatten_lex]

/-! ## Where tokens close -/

/-- The text does not start with such a character. -/
def stops (part : Char → Bool) (text : List Char) : Bool := !text.head?.any part

def stopsWord (letter : Char) (text : List Char) : Bool :=
  stops isWordPart text &&
    !(letter.toLower == 'e' && text.head? == some '\'') &&
    !(letter.toLower == 'u' &&
      (['&', '\''].isPrefixOf text || ['&', '"'].isPrefixOf text))

def closesWord (letter : Char) (body after : List Char) : Bool :=
  if body = [] then stopsWord letter after
  else if body.head? = some '\'' then stops (· == '\'') after
  else if ['&', '\''].isPrefixOf body then stops (· == '\'') after
  else if ['&', '"'].isPrefixOf body then stops (· == '"') after
  else stops isWordPart after

/-- What may follow a token, by the token's own characters. -/
def closes : Token → List Char → Bool
  | [], _ => false
  | letter :: body, after =>
    match opening letter with
    | .string => stops (· == '\'') after
    | .quotedName => stops (· == '"') after
    | .minus =>
      if body = [] then stops (· == '-') after else stops (· != '\n') after
    | .slash => !(body = []) || stops (· == '*') after
    | .dollar =>
      if body.head?.any Char.isDigit then stops isRunPart after
      else body.contains '$' || stops isWordPart after
    | .number => stops isRunPart after
    | .word => closesWord letter body after
    | .other => true

theorem length_takeWhile_append_iff {part : Char → Bool} {body after : List Char} :
    ((body ++ after).takeWhile part).length = body.length ↔
      (∀ letter ∈ body, part letter = true) ∧ stops part after = true := by
  induction body with
  | nil =>
    cases after with
    | nil => simp [stops]
    | cons letter after => cases isPart : part letter <;> simp [stops, isPart]
  | cons letter body ih =>
    cases isPart : part letter with
    | false => simp [isPart]
    | true => simp [isPart, ih]

theorem quotedRest_of_ne (notQuote : letter ≠ quote) (rest : List Char) :
    quotedRest quote (letter :: rest) = quotedRest quote rest + 1 := by
  cases rest with
  | nil => rfl
  | cons second rest => rw [quotedRest, if_neg notQuote]

theorem quotedRest_doubled (quote : Char) (rest : List Char) :
    quotedRest quote (quote :: quote :: rest) = quotedRest quote rest + 2 := by
  rw [quotedRest, if_pos rfl, if_pos rfl]

/-- A quote closes unless another one follows. -/
theorem quotedRest_quote_iff (quote : Char) (rest : List Char) :
    quotedRest quote (quote :: rest) = 1 ↔ stops (· == quote) rest = true := by
  cases rest with
  | nil => simp [quotedRest, stops]
  | cons second rest =>
    by_cases doubled : second = quote
    · subst doubled
      simp [quotedRest_doubled, stops]
    · simp [quotedRest, doubled, stops]

theorem quotedRest_eq_zero (none : quotedRest quote text = 0) : text = [] := by
  cases text with
  | nil => rfl
  | cons letter rest =>
    by_cases mark : letter = quote
    · subst mark
      cases rest with
      | nil => cases none
      | cons second rest =>
        rw [quotedRest, if_pos rfl] at none
        split at none <;> omega
    · rw [quotedRest_of_ne mark] at none
      omega

theorem escapedRest_of_ne (notSlash : letter ≠ '\\') (notQuote : letter ≠ '\'') (rest : List Char) :
    escapedRest (letter :: rest) = escapedRest rest + 1 := by
  cases rest with
  | nil => rfl
  | cons second rest => rw [escapedRest, if_neg notSlash, if_neg notQuote]

theorem escapedRest_escape (letter : Char) (rest : List Char) :
    escapedRest ('\\' :: letter :: rest) = escapedRest rest + 2 := by
  rw [escapedRest, if_pos rfl]

theorem escapedRest_doubled (rest : List Char) :
    escapedRest ('\'' :: '\'' :: rest) = escapedRest rest + 2 := by
  rw [escapedRest, if_neg (by decide), if_pos rfl, if_pos rfl]

theorem escapedRest_quote_iff (rest : List Char) :
    escapedRest ('\'' :: rest) = 1 ↔ stops (· == '\'') rest = true := by
  cases rest with
  | nil => simp [escapedRest, stops]
  | cons second rest =>
    by_cases doubled : second = '\''
    · subst doubled
      simp [escapedRest_doubled, stops]
    · simp [escapedRest, doubled, stops]

theorem escapedRest_eq_zero (none : escapedRest text = 0) : text = [] := by
  cases text with
  | nil => rfl
  | cons letter rest =>
    cases rest with
    | nil => cases none
    | cons second rest =>
      rw [escapedRest] at none
      split at none
      · omega
      · split at none
        · split at none <;> omega
        · omega

theorem blockRest_eq_zero (none : blockRest depth text = 0) : text = [] := by
  cases text with
  | nil => rfl
  | cons letter rest =>
    cases rest with
    | nil => cases none
    | cons second rest =>
      simp only [blockRest] at none
      split at none
      · split at none <;> omega
      · split at none <;> omega

/-- Without its delimiter, all of the text is taken. -/
theorem delimitedRest_cases (mark text : List Char) : delimitedRest mark text = text.length ∨
      mark.length ≤ delimitedRest mark text := by
  induction text with
  | nil => exact .inl rfl
  | cons letter rest ih =>
    rw [delimitedRest]
    split
    · exact .inr (Nat.le_refl _)
    · rw [length_cons]
      omega

section

variable {after other : List Char} (ended : after = [] → other = [])
include ended

theorem quotedRest_append_iff (ends : quotedRest quote (body ++ after) = body.length) :
    quotedRest quote (body ++ other) = body.length ↔ stops (· == quote) other = true := by
  induction body using twoStepInduction with
  | nil =>
    rw [ended (quotedRest_eq_zero ends)]
    simp [quotedRest, stops]
  | singleton letter =>
    by_cases mark : letter = quote
    · subst mark
      exact quotedRest_quote_iff letter other
    · simp only [cons_append, nil_append, quotedRest_of_ne mark, length_singleton,
        Nat.add_eq_right] at ends ⊢
      rw [ended (quotedRest_eq_zero ends)]
      simp [quotedRest, stops]
  | cons_cons letter second body ih shorter =>
    by_cases mark : letter = quote
    · subst mark
      by_cases doubled : second = letter
      · subst doubled
        simp only [cons_append, quotedRest_doubled, length_cons, Nat.add_right_cancel_iff] at ends ⊢
        exact ih ends
      · have shut : quotedRest letter (letter :: (second :: body ++ after)) = 1 := by
          rw [quotedRest_quote_iff]
          simp [stops, doubled]
        rw [cons_append, shut, length_cons, length_cons] at ends
        omega
    · rw [cons_append, quotedRest_of_ne mark, length_cons, Nat.add_right_cancel_iff] at ends ⊢
      exact shorter second ends

theorem escapedRest_append_iff (ends : escapedRest (body ++ after) = body.length) :
    escapedRest (body ++ other) = body.length ↔ stops (· == '\'') other = true := by
  induction size : body.length using Nat.strongRecOn generalizing body with
  | ind size ih =>
    subst size
    cases body with
    | nil =>
      rw [ended (escapedRest_eq_zero ends)]
      simp [escapedRest, stops]
    | cons letter body =>
      by_cases isSlash : letter = '\\'
      · subst isSlash
        cases body with
        | nil =>
          cases after with
          | nil =>
            rw [ended rfl]
            simp [escapedRest, stops]
          | cons second after =>
            rw [cons_append, nil_append, escapedRest_escape] at ends
            simp at ends
        | cons second body =>
          simp only [cons_append, escapedRest_escape,
            length_cons, Nat.add_right_cancel_iff] at ends ⊢
          exact ih body.length (by rw [length_cons, length_cons]; omega) ends rfl
      · by_cases mark : letter = '\''
        · subst mark
          cases body with
          | nil => exact escapedRest_quote_iff other
          | cons second body =>
            by_cases doubled : second = '\''
            · subst doubled
              simp only [cons_append, escapedRest_doubled,
                length_cons, Nat.add_right_cancel_iff] at ends ⊢
              exact ih body.length (by rw [length_cons, length_cons]; omega) ends rfl
            · have shut : escapedRest ('\'' :: (second :: body ++ after)) = 1 := by
                rw [escapedRest_quote_iff]
                simp [stops, doubled]
              rw [cons_append, shut, length_cons, length_cons] at ends
              omega
        · simp only [cons_append, escapedRest_of_ne isSlash mark,
            length_cons, Nat.add_right_cancel_iff] at ends ⊢
          exact ih body.length (by simp) ends rfl

/-- A comment that has ended does not depend on what follows. -/
theorem blockRest_append (ends : blockRest depth (body ++ after) = body.length) :
    blockRest depth (body ++ other) = body.length := by
  induction size : body.length using Nat.strongRecOn generalizing depth body with
  | ind size ih =>
    subst size
    cases body with
    | nil =>
      rw [ended (blockRest_eq_zero ends)]
      rfl
    | cons first body =>
      cases body with
      | nil =>
        cases after with
        | nil =>
          rw [ended rfl]
          rfl
        | cons second after =>
          simp only [cons_append, nil_append, blockRest, length_cons, length_nil] at ends
          split at ends
          · split at ends <;> omega
          · split at ends
            · omega
            · have none := blockRest_eq_zero (Nat.succ.inj ends)
              cases none
      | cons second body =>
        simp only [cons_append, blockRest, length_cons] at ends ⊢
        split
        · rename_i closing
          rw [if_pos closing] at ends
          cases depth with
          | zero => exact ends
          | succ depth =>
            simp only at ends ⊢
            have inner := ih body.length (by rw [length_cons, length_cons]; omega)
              (Nat.add_right_cancel ends) rfl
            rw [inner]
        · rename_i notClosing
          rw [if_neg notClosing] at ends
          split
          · rename_i opens
            rw [if_pos opens] at ends
            have inner := ih body.length (by rw [length_cons, length_cons]; omega)
              (Nat.add_right_cancel ends) rfl
            rw [inner]
          · rename_i notOpening
            rw [if_neg notOpening] at ends
            have inner := ih (second :: body).length (by simp) (Nat.add_right_cancel ends) rfl
            rw [← cons_append, inner, length_cons]

/-- A closing delimiter is found whatever follows. -/
theorem delimitedRest_append (full : mark ≠ [])
    (ends : delimitedRest mark (body ++ after) = body.length) :
    delimitedRest mark (body ++ other) = body.length := by
  induction body with
  | nil =>
    cases after with
    | nil =>
      rw [ended rfl]
      rfl
    | cons letter after =>
      rw [nil_append, delimitedRest, length_nil] at ends
      split at ends
      · exact absurd (length_eq_zero_iff.mp ends) full
      · omega
  | cons letter body ih =>
    rw [cons_append, delimitedRest, length_cons] at ends
    rw [cons_append, delimitedRest, length_cons]
    split at ends
    · rename_i init
      have whole : mark = letter :: body := by
        apply List.IsPrefix.eq_of_length
        · exact prefix_of_prefix_length_le ( isPrefixOf_iff_prefix.mp init)
            (prefix_append (letter :: body) after)
            (Nat.le_of_eq ends)
        · exact ends
      rw [if_pos, ends]
      rw [whole, isPrefixOf_iff_prefix, ← cons_append]
      exact prefix_append _ _
    · rename_i away
      have inner := Nat.add_right_cancel ends
      rw [if_neg, ih inner]
      intro init
      have init := isPrefixOf_iff_prefix.mp init
      apply away
      rw [ isPrefixOf_iff_prefix]
      by_cases short : mark.length ≤ (letter :: body).length
      · have inBody : mark <+: letter :: body := prefix_of_prefix_length_le init
            (prefix_append (letter :: body) other) short
        exact inBody.trans (prefix_append (letter :: body) after)
      · rw [length_cons] at short
        rcases delimitedRest_cases mark (body ++ after) with all | closed
        · rw [inner, length_append] at all
          have noMore : after = [] := length_eq_zero_iff.mp (by omega)
          rw [ended noMore] at init
          rw [noMore]
          exact init
        · omega

end

theorem isWordPart_of_isRunPart (part : isRunPart letter = true) : isWordPart letter = true := by
  rw [isWordPart, part, Bool.true_or]

theorem dollarRest_eq_zero_iff : dollarRest text = 0 ↔ stops isWordPart text = true := by
  cases text with
  | nil => simp [dollarRest, stops]
  | cons letter rest =>
    by_cases part : isRunPart letter = true
    · have isWord := isWordPart_of_isRunPart part
      have notStopped : stops isWordPart (letter :: rest) = false := by simp [stops, isWord]
      rw [notStopped]
      simp only [dollarRest, takeWhile_cons, part, if_true, length_cons, drop_succ_cons]
      split
      · simp
      · split <;> simp
    · have notDigit : letter.isDigit = false := by
        simp only [isRunPart, Bool.or_eq_true, not_or] at part
        simpa using part.2
      by_cases isDollar : letter = '$'
      · subst isDollar
        have notPart : isRunPart '$' = false := rfl
        have isWord : isWordPart '$' = true := rfl
        simp [dollarRest, stops, notPart, isWord]
      · have notWord : isWordPart letter = false := by simp [isWordPart, part, isDollar]
        simp [dollarRest, stops, part, notDigit, notWord]
        split
        · rename_i eq
          exact absurd (cons.inj eq).1 isDollar
        · rfl

/-- A dollar sign with a tag that no second dollar sign ends. -/
theorem dollarRest_tag_iff (full : body ≠ []) (notDigit : body.head?.any Char.isDigit = false)
    (tag : ∀ letter ∈ body, isRunPart letter = true) (text : List Char) :
    dollarRest (body ++ text) = body.length ↔ stops isWordPart text = true := by
  have sameHead : (body ++ text).head? = body.head? := by
    cases body with
    | nil => exact absurd rfl full
    | cons letter body => rfl
  have sameTag : (body ++ text).takeWhile isRunPart = body ++ text.takeWhile isRunPart :=
    takeWhile_append_of_pos tag
  simp only [dollarRest, sameHead, notDigit, sameTag, Bool.false_eq_true, if_false]
  cases text with
  | nil => simp [stops]
  | cons letter rest =>
    by_cases part : isRunPart letter = true
    · have isWord := isWordPart_of_isRunPart part
      have notStopped : stops isWordPart (letter :: rest) = false := by simp [stops, isWord]
      rw [notStopped, takeWhile_cons, if_pos part]
      simp only [length_append, length_cons, Bool.false_eq_true, iff_false]
      split <;> omega
    · rw [takeWhile_cons, if_neg part, append_nil, drop_left]
      by_cases isDollar : letter = '$'
      · subst isDollar
        have isWord : isWordPart '$' = true := rfl
        simp only [stops, head?_cons, Option.any_some, isWord,
          Bool.not_true, Bool.false_eq_true, iff_false]
        omega
      · have notWord : isWordPart letter = false := by simp [isWordPart, part, isDollar]
        simp only [stops, head?_cons, Option.any_some, notWord, Bool.not_false, iff_true]
        split
        · rename_i eq
          exact absurd (cons.inj eq).1 isDollar
        · rfl

theorem exists_first_other {part : Char → Bool} (notAll : ¬ ∀ letter ∈ text, part letter = true) :
    ∃ init first rest, text = init ++ first :: rest ∧
      (∀ letter ∈ init, part letter = true) ∧ part first = false := by
  induction text with
  | nil => exact absurd (fun _ mem => nomatch mem) notAll
  | cons letter text ih =>
    cases isPart : part letter with
    | false =>
      refine ⟨[], letter, text, rfl, ?_, isPart⟩
      intro other mem
      cases mem
    | true =>
      have notLater : ¬ ∀ other ∈ text, part other = true := by
        intro later
        apply notAll
        rw [forall_mem_cons]
        exact ⟨isPart, later⟩
      rcases ih notLater with ⟨init, first, rest, rfl, parts, notPart⟩
      refine ⟨letter :: init, first, rest, rfl, ?_, notPart⟩
      rw [forall_mem_cons]
      exact ⟨isPart, parts⟩

/-- A string between two tags. -/
theorem dollarRest_quoted_iff (ended : after = [] → other = [])
    (notDigit : body.head?.any Char.isDigit = false)
    (notTag : ¬ ∀ letter ∈ body, isRunPart letter = true)
    (ends : dollarRest (body ++ after) = body.length) :
    dollarRest (body ++ other) = body.length ↔
      (body.contains '$' || stops isWordPart other) = true := by
  rcases exists_first_other notTag with ⟨tag, first, inner, rfl, parts, notPart⟩
  have tagged : ∀ text, ((tag ++ first :: inner) ++ text).takeWhile isRunPart = tag := by
    intro text
    rw [append_assoc, takeWhile_append_of_pos parts,
      cons_append, takeWhile_cons, if_neg (by simp [notPart]),
      append_nil]
  have left : ∀ text, ((tag ++ first :: inner) ++ text).drop tag.length =
    first :: (inner ++ text) := by
    intro text
    rw [append_assoc, drop_left, cons_append]
  have sameHead : ∀ text, ((tag ++ first :: inner) ++ text).head? =
    (tag ++ first :: inner).head? := by
    intro text
    cases tag <;> rfl
  have new : ∀ text, dollarRest ((tag ++ first :: inner) ++ text) =
      match first :: (inner ++ text) with
      | '$' :: quoted => tag.length + 1 +
          delimitedRest ('$' :: tag ++ ['$']) quoted
      | _ => tag.length := by
    intro text
    simp only [dollarRest, sameHead, notDigit, tagged, left, Bool.false_eq_true, if_false]
  by_cases isDollar : first = '$'
  · subst isDollar
    have quoted : ∀ text, dollarRest ((tag ++ '$' :: inner) ++ text) = tag.length + 1 +
          delimitedRest ('$' :: tag ++ ['$']) (inner ++ text) := new
    have lens : (tag ++ '$' :: inner).length = tag.length + 1 + inner.length := by
      rw [length_append, length_cons]
      omega
    rw [quoted, lens] at ends ⊢
    have shut := Nat.add_left_cancel ends
    have full : '$' :: tag ++ ['$'] ≠ [] := by simp
    rw [delimitedRest_append ended full shut]
    simp
  · have short : tag.length = (tag ++ first :: inner).length := by
      rw [new] at ends
      split at ends
      · rename_i eq
        exact absurd (cons.inj eq).1 isDollar
      · exact ends
    rw [length_append, length_cons] at short
    omega

theorem dollarRest_append_iff (ended : after = [] → other = [])
    (ends : dollarRest (body ++ after) = body.length) :
    dollarRest (body ++ other) = body.length ↔
      (if body.head?.any Char.isDigit then stops isRunPart other
      else body.contains '$' || stops isWordPart other) = true := by
  cases body with
  | nil => simpa using dollarRest_eq_zero_iff
  | cons letter body =>
    cases isDigit : letter.isDigit with
    | true =>
      have nth : ∀ text, dollarRest (letter :: body ++ text) =
          ((letter :: body ++ text).takeWhile isRunPart).length := by
        intro text
        simp [dollarRest, isDigit]
      rw [nth, length_takeWhile_append_iff] at ends
      rw [nth, length_takeWhile_append_iff]
      have digitFirst : (letter :: body).head?.any Char.isDigit = true := isDigit
      rw [if_pos digitFirst]
      exact and_iff_right ends.1
    | false =>
      have noDigit : (letter :: body).head?.any Char.isDigit = false := isDigit
      rw [noDigit, if_neg Bool.false_ne_true]
      by_cases tag : ∀ part ∈ letter :: body, isRunPart part = true
      · have noDollar : (letter :: body).contains '$' = false := by
          rw [contains_eq_any_beq, any_eq_false]
          intro part mem isDollar
          have isPart := tag part mem
          rw [← eq_of_beq isDollar] at isPart
          exact absurd isPart (by decide)
        rw [noDollar, Bool.false_or]
        exact dollarRest_tag_iff (cons_ne_nil _ _) noDigit tag other
      · exact dollarRest_quoted_iff ended noDigit tag ends

theorem wordRest_eq_zero_iff : wordRest letter text = 0 ↔ stopsWord letter text = true := by
  have plain : (text.takeWhile isWordPart).length = 0 ↔ stops isWordPart text = true := by
    have alone := @length_takeWhile_append_iff isWordPart [] text
    simpa using alone
  simp only [wordRest, stopsWord]
  split
  · rename_i escaped
    simp [escaped]
  · rename_i notEscaped
    split
    · rename_i unicode
      simp [unicode]
    · rename_i notUnicode
      split
      · rename_i unicodeName
        simp [unicodeName]
      · rename_i notUnicodeName
        rw [plain]
        simp only [Bool.and_eq_true, Bool.not_eq_true', Bool.and_eq_false_iff,
          beq_eq_false_iff_ne, Bool.or_eq_false_iff]
        constructor
        · intro stopped
          refine ⟨⟨stopped, ?_⟩, ?_⟩
          · by_contra both
            rw [not_or, not_ne_iff, not_ne_iff] at both
            exact notEscaped both
          · by_cases isU : letter.toLower = 'u'
            · right
              constructor
              · rw [← Bool.not_eq_true]
                exact fun init => notUnicode ⟨isU, init⟩
              · rw [← Bool.not_eq_true]
                exact fun init => notUnicodeName ⟨isU, init⟩
            · exact .inl isU
        · exact fun shut => shut.1.1

theorem wordRest_quote (escapes : letter.toLower = 'e') (rest : List Char) :
    wordRest letter ('\'' :: rest) = escapedRest rest + 1 := by
  simp [wordRest, escapes]

theorem wordRest_ampersand (unicode : letter.toLower = 'u')
    (mark : quote = '\'' ∨ quote = '"') (rest : List Char) :
    wordRest letter ('&' :: quote :: rest) = quotedRest quote rest + 2 := by
  rcases mark with rfl | rfl <;> simp [wordRest, unicode]

/-- Without a special opening, a word is what runs on. -/
theorem wordRest_of_not {rest : List Char}
    (notEscaped : ¬ (letter.toLower = 'e' ∧ rest.head? = some '\''))
    (notUnicode : ¬ (letter.toLower = 'u' ∧
      (['&', '\''] <+: rest ∨ ['&', '"'] <+: rest))) :
    wordRest letter rest = (rest.takeWhile isWordPart).length := by
  have notString : ¬ (letter.toLower = 'u' ∧ ['&', '\''].isPrefixOf rest = true) := by
    rw [ isPrefixOf_iff_prefix]
    exact fun both => notUnicode ⟨both.1, .inl both.2⟩
  have notName : ¬ (letter.toLower = 'u' ∧
      ['&', '"'].isPrefixOf rest = true) := by
    rw [ isPrefixOf_iff_prefix]
    exact fun both => notUnicode ⟨both.1, .inr both.2⟩
  rw [wordRest, if_neg notEscaped, if_neg notString, if_neg notName]

theorem wordRest_append_iff (ended : after = [] → other = [])
    (ends : wordRest letter (body ++ after) = body.length) :
    wordRest letter (body ++ other) = body.length ↔ closesWord letter body other = true := by
  have opens : ∀ {first : Char} {rest : List Char},
      isWordPart first = false → wordRest letter (first :: rest) ≠ 0 →
        first = '\'' ∧ letter.toLower = 'e' ∨
          ∃ quote inner, (quote = '\'' ∨ quote = '"') ∧
            first :: rest = '&' :: quote :: inner ∧ letter.toLower = 'u' := by
    intro first rest notWord runs
    by_contra neither
    rw [not_or] at neither
    apply runs
    rw [wordRest_of_not]
    · rw [takeWhile_cons, if_neg (by simp [notWord]), length_nil]
    · rintro ⟨isE, mark⟩
      exact neither.1 ⟨Option.some_inj.mp mark, isE⟩
    · rintro ⟨isU, ⟨inner, shape⟩ | ⟨inner, shape⟩⟩
      · exact neither.2 ⟨_, inner, .inl rfl, shape.symm, isU⟩
      · exact neither.2 ⟨_, inner, .inr rfl, shape.symm, isU⟩
  cases body with
  | nil => exact wordRest_eq_zero_iff
  | cons first body =>
    cases isWord : isWordPart first with
    | true =>
      have notQuote : first ≠ '\'' := by
        rintro rfl
        cases isWord
      have notAmpersand : first ≠ '&' := by
        rintro rfl
        cases isWord
      have plain : ∀ text, wordRest letter (first :: body ++ text) =
          ((first :: body ++ text).takeWhile isWordPart).length := by
        intro text
        apply wordRest_of_not
        · rintro ⟨_, mark⟩
          exact notQuote (Option.some_inj.mp mark)
        · rintro ⟨_, ⟨inner, shape⟩ | ⟨inner, shape⟩⟩
          · exact notAmpersand (cons.inj shape).1.symm
          · exact notAmpersand (cons.inj shape).1.symm
      rw [plain, length_takeWhile_append_iff] at ends ⊢
      have closing : closesWord letter (first :: body) other = stops isWordPart other := by
        simp [closesWord, notQuote, Ne.symm notAmpersand]
      rw [closing]
      exact and_iff_right ends.1
    | false =>
      have runs : wordRest letter (first :: (body ++ after)) ≠ 0 := by
        rw [← cons_append, ends]
        exact Nat.succ_ne_zero _
      rcases opens isWord runs with ⟨rfl, isE⟩ | ⟨quote, inner, mark, shape, isU⟩
      · rw [cons_append, wordRest_quote isE, length_cons, Nat.add_right_cancel_iff] at ends ⊢
        rw [escapedRest_append_iff ended ends]
        simp [closesWord]
      · cases body with
        | nil =>
          have rest : after = quote :: inner := (cons.inj shape).2
          rw [(cons.inj shape).1, rest, cons_append,
            nil_append, wordRest_ampersand isU mark] at ends
          simp at ends
        | cons second body =>
          have hfst : first = '&' := (cons.inj shape).1
          have hsnd : second = quote := (cons.inj (cons.inj shape).2).1
          subst hfst
          subst hsnd
          rw [cons_append, cons_append, wordRest_ampersand isU mark, length_cons,
            length_cons, Nat.add_right_cancel_iff] at ends ⊢
          rw [quotedRest_append_iff ended ends]
          rcases mark with rfl | rfl <;> simp [closesWord]

theorem minusRest_append_iff (ends : minusRest (body ++ after) = body.length) :
    minusRest (body ++ other) = body.length ↔ (if body = [] then stops (· == '-') other
      else stops (· != '\n') other) = true := by
  cases body with
  | nil =>
    cases other with
    | nil => simp [minusRest, stops]
    | cons letter rest =>
      by_cases isMinus : letter = '-' <;>
        simp [minusRest, stops, isMinus]
  | cons first body =>
    by_cases isMinus : first = '-'
    · subst isMinus
      have comment : ∀ text, minusRest ('-' :: body ++ text) =
          (('-' :: body ++ text).takeWhile (· != '\n')).length :=
        fun _ => rfl
      rw [comment, length_takeWhile_append_iff] at ends ⊢
      rw [if_neg (cons_ne_nil _ _)]
      exact and_iff_right ends.1
    · simp [minusRest, isMinus] at ends

theorem slashRest_append_iff (ended : after = [] → other = [])
    (ends : slashRest (body ++ after) = body.length) :
    slashRest (body ++ other) = body.length ↔ (!(body = []) || stops (· == '*') other) = true := by
  cases body with
  | nil =>
    cases other with
    | nil => simp [slashRest, stops]
    | cons letter rest =>
      by_cases isStar : letter = '*' <;>
        simp [slashRest, stops, isStar]
  | cons first body =>
    by_cases isStar : first = '*'
    · subst isStar
      have comment : ∀ text, slashRest ('*' :: body ++ text) = blockRest 0 (body ++ text) + 1 :=
        fun _ => rfl
      rw [comment, length_cons, Nat.add_right_cancel_iff] at ends ⊢
      simp [blockRest_append ended ends]
    · simp [slashRest, isStar] at ends

/-- Whether a token ends is said by `closes`. -/
theorem ends_iff_closes (ends : Ends tok after) (ended : after = [] → other = []) :
    Ends tok other ↔ closes tok other = true := by
  cases tok with
  | nil => cases ends
  | cons letter body =>
    rw [Ends, further] at ends
    rw [Ends, further, closes]
    cases kind : opening letter with
    | string | quotedName =>
      simp only [kind] at ends ⊢
      exact quotedRest_append_iff ended ends
    | minus =>
      simp only [kind] at ends ⊢
      exact minusRest_append_iff ends
    | slash =>
      simp only [kind] at ends ⊢
      exact slashRest_append_iff ended ends
    | dollar =>
      simp only [kind] at ends ⊢
      exact dollarRest_append_iff ended ends
    | number =>
      simp only [kind] at ends ⊢
      rw [length_takeWhile_append_iff] at ends ⊢
      exact and_iff_right ends.1
    | word =>
      simp only [kind] at ends ⊢
      exact wordRest_append_iff ended ends
    | other =>
      simp only [kind] at ends ⊢
      simpa using ends

/-- Every token of a list closes before the next. -/
def allClose : List Token → Bool
  | [] => true
  | token :: rest => closes token rest.flatten && allClose rest

/-- Tokens put in the place of others are read back when they all close. -/
theorem settled_map_iff {ts : List Token} (done : Settled ts)
    (full : ∀ tok ∈ ts, tok ≠ []) (isToken : ∀ tok ∈ ts, edit tok = tok ∨
      ∃ after, after ≠ [] ∧ Ends (edit tok) after) :
    Settled (ts.map edit) ↔ allClose (ts.map edit) = true := by
  induction ts with
  | nil => exact ⟨fun _ => rfl, fun _ => trivial⟩
  | cons tok rest ih =>
    have later := ih done.2 (fun other mem => full other (mem_cons_of_mem _ mem))
      (fun other mem => isToken other (mem_cons_of_mem _ mem))
    have here : Ends (edit tok) (rest.map edit).flatten ↔
        closes (edit tok) (rest.map edit).flatten = true := by
      rcases isToken tok mem_cons_self with unchanged | ⟨after, notEmpty, ends⟩
      · rw [unchanged]
        apply ends_iff_closes done.1
        intro noMore
        cases rest with
        | nil => rfl
        | cons next rest =>
          rw [flatten_cons, append_eq_nil_iff] at noMore
          exact absurd noMore.1 (full next (by simp))
      · exact ends_iff_closes ends fun isEmpty => absurd isEmpty notEmpty
    rw [map_cons, Settled, allClose, Bool.and_eq_true, here, later]

end StorageOrchestrator.Lib.SqlLexer
