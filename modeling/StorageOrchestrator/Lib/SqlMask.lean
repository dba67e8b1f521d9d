import StorageOrchestrator.Lib.SqlLexer
import StorageOrchestrator.Lib.Text

/-!
# Statements up to the contents of their string constants

Two texts are alike when they have the same tokens once the contents of closed
string constants are left out.  Where alike texts part for the first time, both
are inside a string constant, behind its opening quote.  A test that stops
looking at a quote therefore gives alike texts the same answer.
-/

namespace StorageOrchestrator.Lib.SqlMask

open Lib.SqlLexer
open List hiding lex

/-- The start of a string constant, up to its opening quote. -/
def quoteOf : Token → Option Token
  | [] => none
  | letter :: body =>
    if letter = '\'' then some ['\'']
    else if letter.toLower = 'e' ∧ body.head? = some '\'' then
      some [letter, '\'']
    else if letter.toLower = 'u' ∧ ['&', '\''].isPrefixOf body then
      some [letter, '&', '\'']
    else none

/-- The token ends by itself. -/
def isClosed : Token → Bool
  | [] => false
  | letter :: body => further letter (body ++ [' ']) = body.length

/-- A token without the contents of a closed string constant. -/
def mask (token : Token) : Token :=
  match quoteOf token with
  | some quote => if isClosed token then quote ++ ['\''] else token
  | none => token

/-- The texts differ in the contents of string constants only. -/
def Alike (first second : List Char) : Prop := (lex first).map mask = (lex second).map mask

theorem isClosed_of_ends (ends : Ends tok [' ']) : isClosed tok = true := by
  cases tok with
  | nil => cases ends
  | cons c body => exact decide_eq_true ends

theorem quoteOf_eq_some (mark : quoteOf tok = some quote) :
    ∃ init rest, quote = init ++ ['\''] ∧ tok = init ++ '\'' :: rest := by
  cases tok with
  | nil => cases mark
  | cons c body =>
    rw [quoteOf] at mark
    split at mark
    · rename_i isPlain
      cases mark
      exact ⟨[], body, rfl, by rw [isPlain]; rfl⟩
    · split at mark
      · rename_i isEscaped
        cases mark
        cases body with
        | nil => cases isEscaped.2
        | cons second body =>
          have isMark : second = '\'' := Option.some.inj isEscaped.2
          exact ⟨[c], body, rfl, by rw [isMark]; rfl⟩
      · split at mark
        · rename_i isUnicode
          cases mark
          have begins := isPrefixOf_iff_prefix.mp isUnicode.2
          rcases begins with ⟨rest, rfl⟩
          exact ⟨[c, '&'], rest, rfl, rfl⟩
        · cases mark

theorem mask_cases (tok : Token) : mask tok = tok ∨ ∃ init rest,
      mask tok = init ++ ['\'', '\''] ∧ tok = init ++ '\'' :: rest := by
  rw [mask]
  split
  · rename_i quote mark
    split
    · rcases quoteOf_eq_some mark with ⟨init, rest, rfl, rfl⟩
      exact .inr ⟨init, rest, by rw [append_assoc]; rfl, rfl⟩
    · exact .inl rfl
  · exact .inl rfl

/-- Tokens with one mask part behind a quote. -/
theorem parts_of_mask_eq (eq : mask first = mask second) : first = second ∨ ∃ init left right,
      first = init ++ '\'' :: left ∧ second = init ++ '\'' :: right := by
  rcases mask_cases first with firstSame | ⟨init, left, firstMask, firstParts⟩
  · rcases mask_cases second with secondSame | ⟨init, right, secondMask, secondParts⟩
    · left
      rw [← firstSame, eq, secondSame]
    · right
      refine ⟨init, ['\''], right, ?_, secondParts⟩
      rw [← firstSame, eq, secondMask]
  · right
    rcases mask_cases second with secondSame | ⟨other, right, secondMask, secondParts⟩
    · refine ⟨init, left, ['\''], firstParts, ?_⟩
      rw [← secondSame, ← eq, firstMask]
    · have sameFront : init = other := by
        rw [firstMask, secondMask] at eq
        exact append_cancel_right eq
      subst sameFront
      exact ⟨init, left, right, firstParts, secondParts⟩

theorem parts_of_map_mask_eq {first second : List Token} (eq : first.map mask = second.map mask) :
    first.flatten = second.flatten ∨ ∃ init left right, first.flatten = init ++ '\'' :: left ∧
      second.flatten = init ++ '\'' :: right := by
  induction first generalizing second with
  | nil =>
    left
    rw [map_eq_nil_iff.mp eq.symm]
  | cons tok first ih =>
    cases second with
    | nil => cases eq
    | cons other second =>
      rw [map_cons, map_cons, List.cons.injEq] at eq
      rw [flatten_cons, flatten_cons]
      rcases parts_of_mask_eq eq.1 with rfl | ⟨init, left, right, rfl, rfl⟩
      · rcases ih eq.2 with sameRest | ⟨init, left, right, firstRest, secondRest⟩
        · left
          rw [sameRest]
        · right
          refine ⟨tok ++ init, left, right, ?_, ?_⟩
          · rw [firstRest, append_assoc]
          · rw [secondRest, append_assoc]
      · right
        refine ⟨init, left ++ first.flatten, right ++ second.flatten, ?_, ?_⟩
        · rw [append_assoc, cons_append]
        · rw [append_assoc, cons_append]

/-- Alike texts part behind a quote. -/
theorem parts_of_alike (alike : Alike first second) : first = second ∨ ∃ front left right,
      first = front ++ '\'' :: left ∧ second = front ++ '\'' :: right := by
  have parts := parts_of_map_mask_eq alike
  rw [flatten_lex, flatten_lex] at parts
  exact parts

/-! ## Tests that stop at a quote -/

/-- The answer does not depend on what follows a quote. -/
def StopsAtQuote {Answer : Type*} (test : List Char → Answer) : Prop :=
  ∀ front left right, test (front ++ '\'' :: left) = test (front ++ '\'' :: right)

theorem StopsAtQuote.eq_of_alike
    {Answer : Type*} {test : List Char → Answer} (stops : StopsAtQuote test)
    {first second : List Char} (alike : Alike first second) :
    test first = test second := by
  rcases parts_of_alike alike with rfl | ⟨init, left, right, rfl, rfl⟩
  · rfl
  · exact stops init left right

end StorageOrchestrator.Lib.SqlMask
