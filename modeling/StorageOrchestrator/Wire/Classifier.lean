import StorageOrchestrator.Lib.SqlMask

/-!
# Tests on the text of a statement

`execute_sql_bound` looks at the text of a statement before and beside parsing
it: for session commands, for references to the catalog, for statements that
go through as they are when the parser fails, and for the predicate of a
partial index that the parser cannot read.

The tests on how a statement begins never look into a string constant.  The
search for catalog references and the repair of a conflict target do.
-/

namespace StorageOrchestrator.Wire.Classifier

open Lib.SqlMask Lib.Text List

def startsWithAny (phrases : List String) (text : List Char) : Bool :=
  phrases.any fun phrase => phrase.toList.isPrefixOf text

/-! ## The beginning of a statement -/

def sessionWords : List String :=
  ["BEGIN", "COMMIT", "ROLLBACK", "SET", "RESET", "SHOW", "DISCARD",
    "DEALLOCATE", "LISTEN", "UNLISTEN", "CLOSE"]

def sessionPhrases : List String :=
  ["SELECT CURRENT_USER", "SELECT CURRENT_SCHEMA",
    "SELECT PG_CATALOG.PG_IS_IN_RECOVERY", "SELECT CURRENT_SETTING", "SHOW "]

/-- A statement without blanks and semicolons around it. -/
def bareStatement (sql : List Char) : List Char := trim (trimEndMatches (· == ';') (trim sql))

def isSessionCommand (sql : List Char) : Bool :=
  let upper := (bareStatement sql).map Char.toUpper
  (sessionWords.any fun word => firstWord upper == word.toList) ||
    startsWithAny sessionPhrases upper

def isDdlText (sql : List Char) : Bool :=
  startsWithAny ["create", "alter", "drop"] ((trim sql).map Char.toLower)

/-- Statements that a parse error leaves to the fallback for bulk writes. -/
def isBroadDml (sql : List Char) : Bool :=
  startsWithAny ["delete", "update", "with"] ((trim sql).map Char.toLower)

/-! ## Catalog references -/

def catalogWords : List String :=
  ["pg_catalog.", "information_schema.", "knex_migrations", "to_regclass",
    "pg_class", "pg_namespace", "pg_attribute", "pg_index", "pg_constraint",
    "pg_type", "pg_database", "session_user", "version()"]

def isCatalogStatement (sql : List Char) : Bool :=
  let lower := sql.map Char.toLower
  (startsWithAny ["create table", "drop table", "create index",
      "create unique index"] (bareStatement lower) &&
    containsChars "knex_migrations".toList lower) ||
    catalogWords.any fun word => containsChars word.toList lower

/-! ## Partial-index conflict targets -/

/-- The position of the first occurrence of a needle. -/
def find (needle : List Char) : List Char → Option Nat
  | [] => if needle.isEmpty then some 0 else none
  | letter :: rest =>
    if needle.isPrefixOf (letter :: rest) then some 0
    else (find needle rest).map (· + 1)

/-- How far it is to behind the parenthesis that closes the first one. -/
def closingFrom : Nat → Bool → List Char → Option Nat
  | _, _, [] => none
  | depth, inString, letter :: rest =>
    if letter = '\'' then (closingFrom depth (!inString) rest).map (· + 1)
    else if letter = '(' ∧ inString = false then
      (closingFrom (depth + 1) inString rest).map (· + 1)
    else if letter = ')' ∧ inString = false then
      if depth = 1 then some 1
      else (closingFrom (depth - 1) inString rest).map (· + 1)
    else (closingFrom depth inString rest).map (· + 1)

structure RepairedConflict where
  strippedSql : List Char
  predicate : List Char

def stripConflictPredicate (sql : List Char) : Option RepairedConflict := do
  let onPos ← find "ON CONFLICT".toList (sql.map Char.toUpper)
  let parenPos ← find ['('] (sql.drop onPos)
  let targetParen := onPos + parenPos
  let length ← closingFrom 0 false (sql.drop targetParen)
  let targetEnd := targetParen + length
  let after := trimStart (sql.drop targetEnd)
  let afterUpper := after.map Char.toUpper
  if startsWithAny ["WHERE"] afterUpper then
    let doPos ← find " DO ".toList afterUpper
    if doPos = 0 then none
    else
      some
        { strippedSql := sql.take targetEnd ++
            ' ' :: trimStart (after.drop doPos)
          predicate := trimEndMatches isBlank (after.take doPos) }
  else none

/-! ## Tests that stop at a quote -/

theorem trim_front (init rest : List Char) : trim (init ++ '\'' :: rest) =
      trimStart init ++ '\'' :: trimEndMatches isBlank rest := by
  have stops : isBlank '\'' = false := rfl
  rw [trim, trimEndMatches_front stops, trimStart, dropWhile_front stops]
  rfl

theorem bareStatement_front (init rest : List Char) :
    ∃ rest', bareStatement (init ++ '\'' :: rest) =
      trimStart (trimStart init) ++ '\'' :: rest' := by
  have cut : ∀ rest, trimEndMatches (· == ';') (trimStart init ++ '\'' :: rest) =
        trimStart init ++ '\'' :: trimEndMatches (· == ';') rest :=
    fun rest => trimEndMatches_front rfl _ rest
  refine ⟨trimEndMatches isBlank (trimEndMatches (· == ';') (trimEndMatches isBlank rest)), ?_⟩
  rw [bareStatement, trim_front, cut, trim_front]

theorem startsWithAny_front
    {phrases : List String} (plain : ∀ phrase ∈ phrases, '\'' ∉ phrase.toList)
    (front rest : List Char) :
    startsWithAny phrases (front ++ '\'' :: rest) = startsWithAny phrases front := by
  rw [startsWithAny, startsWithAny]
  induction phrases with
  | nil => rfl
  | cons phrase phrases ih =>
    rw [any_cons, any_cons, isPrefixOf_front (plain phrase mem_cons_self), ih fun other oth =>
        plain other (mem_cons_of_mem _ oth)]

/-- A word without quotes is told apart before a quote. -/
theorem takeWhile_front_beq (plain : '\'' ∉ word) (init left right : List Char) :
    (((init ++ '\'' :: left).takeWhile fun c => !isBlank c) == word) =
      (((init ++ '\'' :: right).takeWhile fun c => !isBlank c) == word) := by
  have continues : isBlank '\'' = false := rfl
  induction init generalizing word with
  | nil =>
    cases word with
    | nil => simp [continues]
    | cons c word =>
      rw [mem_cons, not_or] at plain
      have ne : ('\'' == c) = false := beq_false_of_ne plain.1
      simp [continues, ne]
  | cons first init ih =>
    cases blank : isBlank first with
    | true => simp [blank]
    | false =>
      cases word with
      | nil => simp [blank]
      | cons c word =>
        rw [mem_cons, not_or] at plain
        have later := ih plain.2
        simp [blank, later]

theorem anyFirstWord_front {words : List String} (plain : ∀ word ∈ words, '\'' ∉ word.toList)
    (init left right : List Char) :
    (words.any fun word => firstWord (init ++ '\'' :: left) == word.toList) = words.any fun word =>
      firstWord (init ++ '\'' :: right) == word.toList := by
  have stops : isBlank '\'' = false := rfl
  simp only [firstWord, trimStart, dropWhile_front stops]
  induction words with
  | nil => rfl
  | cons word words ih =>
    rw [any_cons, any_cons, takeWhile_front_beq (plain word mem_cons_self) _ left right,
      ih fun other oth =>
        plain other (mem_cons_of_mem _ oth)]

theorem stopsAtQuote_isSessionCommand : StopsAtQuote isSessionCommand := by
  intro init left right
  rcases bareStatement_front init left with ⟨left', leftBare⟩
  rcases bareStatement_front init right with ⟨right', rightBare⟩
  have mark : Char.toUpper '\'' = '\'' := rfl
  have plainWords : ∀ word ∈ sessionWords, '\'' ∉ word.toList := by decide
  have plainPhrases : ∀ phrase ∈ sessionPhrases, '\'' ∉ phrase.toList := by decide
  simp only [isSessionCommand, leftBare, rightBare, map_append,
    map_cons, mark, startsWithAny_front plainPhrases]
  rw [anyFirstWord_front plainWords]

theorem stopsAtQuote_startsWithAny
    {phrases : List String} (plain : ∀ phrase ∈ phrases, '\'' ∉ phrase.toList) :
    StopsAtQuote fun sql => startsWithAny phrases ((trim sql).map Char.toLower) := by
  intro init left right
  have mark : Char.toLower '\'' = '\'' := rfl
  simp [trim_front, mark, startsWithAny_front plain]

theorem stopsAtQuote_isDdlText : StopsAtQuote isDdlText := stopsAtQuote_startsWithAny (by decide)

theorem stopsAtQuote_isBroadDml : StopsAtQuote isBroadDml := stopsAtQuote_startsWithAny (by decide)

end StorageOrchestrator.Wire.Classifier
