import StorageOrchestrator.Wire.Inlining
import StorageOrchestrator.Wire.Statements

/-!
# Routes of statements

`execute_sql_bound` sends a statement to the session, to the catalog, to the
providers as a read, an aggregate or a write, or through the DDL paths.  The
catalog test searches the raw text of the statement, string constants
included, before anything is parsed.

The main theorem compares two statements that differ only in the contents of
string constants or in bound values: they take the same route precisely when
the catalog test answers them alike.  The parser is a parameter; the theorem
asks that it reads the two, and their repaired texts, as statements of one
shape.
-/

namespace StorageOrchestrator.Wire.Routing

open Lib.Placeholders Lib.SqlLexer Lib.SqlMask Lib.Text Wire.Classifier
  Wire.Inlining Wire.Statements
open List hiding next lex tail

/-! ## The parser -/

/-- The statements that were read, without the texts of string constants. -/
def shapes : Except String (List Statement) → Option (List Statement)
  | .ok statements => some (statements.map Statement.shape)
  | .error _ => none

/-- A SQL parser. -/
structure SqlParser where
  parse : List Char → Except String (List Statement)

/-- The configuration and the registered primary keys. -/
structure Environment where
  broadWritesEnabled : Bool
  pkOf : String → Option String

section

variable (parser : SqlParser)

/-- The first SELECT of a query body (`first_select`). -/
def firstSelect : Read.Sql.SetExpr → Option Read.Sql.Select
  | .select branch | .summary branch _ => some branch
  | .query inner _ => firstSelect inner
  | .setOperation _ _ left _ => firstSelect left
  | .values _ => none

def queryTable (query : ParsedQuery) : Option String :=
  match firstSelect query.read.body with
  | some select =>
    match select.sources with
    | ⟨.table name, _⟩ :: _ => some name
    | _ => none
  | none => none

/-- `read_table_name` on what was parsed. -/
def readTableOf (statements : List Statement) : Option String :=
  statements.findSome? fun statement =>
    match statement with
    | .query query => queryTable query
    | _ => none

/-- `write_or_read_table`, and `read_table_name` where it finds nothing. -/
def tableOf (statements : List Statement) : Option String :=
  match statements with
  | .insert insert :: _ =>
    (insert.table.bind fun name => (extractTableName name).toOption).orElse
      fun _ => readTableOf statements
  | .update table _ :: _ =>
    (extractTableFactorName table).toOption.orElse fun _ => readTableOf statements
  | .delete tables _ :: _ =>
    (extractDeleteTable tables).toOption.orElse fun _ => readTableOf statements
  | _ => readTableOf statements

/-- The primary key a statement is analysed with; the default is `id`. -/
def pkFor (env : Environment) (sql : List Char) : String :=
  match parser.parse sql with
  | .ok statements => ((tableOf statements).bind env.pkOf).getD "id"
  | .error _ => "id"

/--
What is analysed: the statements of the text, or else those of the text
without a conflict predicate.
-/
def readStatements (sql : List Char) : Except String (List Statement × Option (List Char)) :=
  match parser.parse sql with
  | .ok statements => .ok (statements, none)
  | .error message =>
    match stripConflictPredicate sql with
    | none => .error message
    | some repaired =>
      match parser.parse repaired.strippedSql with
      | .ok statements => .ok (statements, some repaired.predicate)
      | .error _ => .error message

def analyzePk (sql : List Char) (pk : String) : Except String AnalyzedStatement :=
  match readStatements parser sql with
  | .error message => .error message
  | .ok ([statement], predicate) => analyzeStatement sql pk predicate statement
  | .ok _ => .error "exactly one statement per request is supported"

/-- `is_additive_ddl`. -/
def isAdditive : List Statement → Bool
  | [] => true
  | .alterTable _ additive :: rest => additive.all id && isAdditive rest
  | .createTable _ :: rest | .createIndex _ :: rest => isAdditive rest
  | .dropTable _ :: _ => true
  | .dropIndex :: rest => isAdditive rest
  | _ => false

def isAdditiveDdl (sql : List Char) : Bool :=
  match parser.parse sql with
  | .ok statements => isAdditive statements
  | .error _ => false

end

/-! ## Routes -/

inductive Route where
  | session
  | catalog
  | read
  | aggregate
  | pointWrite
  | broadWrite
  | ddl
  | fallback
  | refused
deriving DecidableEq

/-- `fallback_ddl`: the statement goes to every provider as it is. -/
def fallbackDdl (env : Environment) (sql : List Char) : Route :=
  if env.broadWritesEnabled && (isDdlText sql || isBroadDml sql) then .fallback
  else .refused

/-- The route of an analysed statement. -/
def dispatch (parser : SqlParser) (env : Environment) (sql : List Char)
    (boundRowId : Option String) : Destination → Route
  | .read => .read
  | .aggregate => .aggregate
  | .ddl => if isAdditiveDdl parser sql then .ddl else fallbackDdl env sql
  | .broadWrite => .broadWrite
  | .pointWrite unresolved =>
    if unresolved && boundRowId.isNone then .refused else .pointWrite
  | .refused => fallbackDdl env sql

/--
The route of `execute_sql_bound`.  The parameters are only inlined into what
is sent on.
-/
def executeSqlBound (parser : SqlParser) (env : Environment)
    (sql : List Char) (boundRowId : Option String) (_params : List (Option String)) : Route :=
  if isSessionCommand sql then .session
  else if isCatalogStatement sql then .catalog
  else dispatch parser env sql boundRowId
    (destination (analyzePk parser sql (pkFor parser env sql)))

/-! ## Statements of one shape -/

theorem firstSelect_shape (body : Read.Sql.SetExpr) :
    firstSelect (bodyShape body) = (firstSelect body).map selectShape := by
  induction body with
  | select | summary => rfl
  | query inner limit ih => exact ih
  | setOperation op all left right ihl _ =>
    exact ihl
  | values rows => rfl

theorem queryTable_shape (query : ParsedQuery) (plan : Aggregate.Plan.Query) :
    queryTable { read := queryShape query.read, plan := plan } =
      queryTable query := by
  simp only [queryTable, queryShape, firstSelect_shape]
  cases firstSelect query.read.body with
  | none => rfl
  | some select =>
    rcases select with ⟨srcs, sel, group, having, part, xs⟩
    cases srcs with
    | nil => rfl
    | cons src srcs =>
      rcases src with ⟨rel, joins⟩
      cases rel <;> rfl

theorem readTableOf_shape (statements : List Statement) :
    readTableOf (statements.map Statement.shape) = readTableOf statements := by
  rw [readTableOf, readTableOf, findSome?_map]
  congr 1
  funext stmt
  cases stmt with
  | query query => exact queryTable_shape query noPlan
  | _ => rfl

theorem tableOf_shape (statements : List Statement) :
    tableOf (statements.map Statement.shape) = tableOf statements := by
  have eqRead := readTableOf_shape statements
  cases statements with
  | nil => rfl
  | cons stmt statements =>
    cases stmt with
    | insert insert =>
      simp only [map_cons, Statement.shape, Insert.shape] at eqRead
      simp [Statement.shape, Insert.shape, tableOf, eqRead]
    | update table sel | delete tabs sel =>
      simp only [map_cons, Statement.shape] at eqRead
      simp [Statement.shape, tableOf, eqRead]
    | _ => exact eqRead

theorem isAdditive_shape (statements : List Statement) :
    isAdditive (statements.map Statement.shape) = isAdditive statements := by
  induction statements with
  | nil => rfl
  | cons stmt statements ih =>
    cases stmt with
    | alterTable name adds =>
      simp [Statement.shape, isAdditive, ih]
    | createTable name | createIndex table | dropIndex =>
      exact ih
    | _ => rfl

/-- Statements of one shape go the same way. -/
theorem destination_of_shape_eq {sql sql' : List Char} (pk : String) {first second : Statement}
    (eq : first.shape = second.shape)
    (sameMark : ∀ insert, first = .insert insert → insert.source = .select →
      sql.contains '$' = sql'.contains '$')
    (samePlan : ∀ query query', first = .query query → second = .query query' →
      (Aggregate.Plan.planQuery query.plan).toBool =
      (Aggregate.Plan.planQuery query'.plan).toBool) :
    destination (analyzeStatement sql pk predicate first) =
      destination (analyzeStatement sql' pk predicate' second) := by
  cases first with
  | query query =>
    cases second with
    | query query' =>
      simp only [Statement.shape, Statement.query.injEq, ParsedQuery.mk.injEq, and_true] at eq
      have eqRead : Read.Sql.analyzeSelect query.read = Read.Sql.analyzeSelect query'.read := by
        rw [← analyzeSelect_shape, eq, analyzeSelect_shape]
      have planned := samePlan query query' rfl rfl
      simp only [analyzeStatement, analyzeQuery, eqRead]
      cases Read.Sql.analyzeSelect query'.read with
      | error msg => rfl
      | ok analyzed =>
        cases analyzed with
        | read => rfl
        | aggregate =>
          cases isPlan : Aggregate.Plan.planQuery query.plan with
          | error msg =>
            cases isPlan' : Aggregate.Plan.planQuery query'.plan with
            | error msg' => rfl
            | ok plan' =>
              rw [isPlan, isPlan'] at planned
              cases planned
          | ok plan =>
            cases isPlan' : Aggregate.Plan.planQuery query'.plan with
            | error msg' =>
              rw [isPlan, isPlan'] at planned
              cases planned
            | ok plan' => rfl
    | _ => simp [Statement.shape] at eq
  | insert insert =>
    cases second with
    | insert insert' =>
      simp only [Statement.shape, Statement.insert.injEq] at eq
      have sameSource : insert'.source = .select ↔ insert.source = .select := by
        have srcs := congrArg Insert.source eq
        simp only [Insert.shape] at srcs
        cases src : insert.source <;>
          cases isSource' : insert'.source <;>
          simp_all [InsertSource.shape]
      simp only [analyzeStatement]
      rw [← destination_analyzeInsert_shape, eq, destination_analyzeInsert_shape]
      apply destination_analyzeInsert_congr
      intro isSelect
      exact sameMark insert rfl (sameSource.mp isSelect)
    | _ => simp [Statement.shape] at eq
  | update table sel =>
    cases second with
    | update table' selection' =>
      simp only [Statement.shape, Statement.update.injEq] at eq
      simp only [analyzeStatement]
      rw [← destination_analyzeKeyed_shape, eq.1, eq.2, destination_analyzeKeyed_shape]
    | _ => simp [Statement.shape] at eq
  | delete tabs sel =>
    cases second with
    | delete tables' selection' =>
      simp only [Statement.shape, Statement.delete.injEq] at eq
      simp only [analyzeStatement]
      rw [← destination_analyzeKeyed_shape, eq.1, eq.2, destination_analyzeKeyed_shape]
    | _ => simp [Statement.shape] at eq
  | _ => cases second <;> simp_all [Statement.shape, analyzeStatement]

/-! ## Alike statements -/

/-- Texts are read as statements of one shape, or neither is read. -/
def ReadAlike (parser : SqlParser) (first second : List Char) : Prop :=
  shapes (parser.parse first) = shapes (parser.parse second)

/-- Texts are repaired to texts that are read alike, or neither is repaired. -/
def RepairedAlike (parser : SqlParser) (first second : List Char) : Prop :=
  match stripConflictPredicate first, stripConflictPredicate second with
  | some repaired, some repaired' => ReadAlike parser repaired.strippedSql repaired'.strippedSql
  | none, none => True
  | _, _ => False

/--
The texts are read alike, and so answer the tests after the catalog test that
go back to texts: the search for a dollar sign in an `INSERT … SELECT`, the
aggregate planner, which compares printed expressions, and the repair of a text
that cannot be parsed.
-/
structure SameTests (parser : SqlParser) (first second : List Char) : Prop where
  parsed : ReadAlike parser first second
  dollar : ∀ insert predicate, readStatements parser first = .ok ([.insert insert], predicate) →
      insert.source = .select → first.contains '$' = second.contains '$'
  plan : ∀ query query' predicate predicate',
    readStatements parser first = .ok ([.query query], predicate) →
    readStatements parser second = .ok ([.query query'], predicate') →
      (Aggregate.Plan.planQuery query.plan).toBool = (Aggregate.Plan.planQuery query'.plan).toBool
  repair : (parser.parse first).toBool = false → RepairedAlike parser first second

section

variable {parser : SqlParser} {first second : List Char}

section

variable (parsed : ReadAlike parser first second)
include parsed

theorem parse_of_alike : (∃ stmts stmts', parser.parse first = .ok stmts ∧
      parser.parse second = .ok stmts' ∧
      stmts.map Statement.shape = stmts'.map Statement.shape) ∨
      ∃ msg message', parser.parse first = .error msg ∧ parser.parse second = .error message' := by
  rw [ReadAlike] at parsed
  cases hfst : parser.parse first with
  | error msg =>
    cases hsnd : parser.parse second with
    | error message' => exact .inr ⟨msg, message', rfl, rfl⟩
    | ok stmts' =>
      rw [hfst, hsnd] at parsed
      cases parsed
  | ok stmts =>
    cases hsnd : parser.parse second with
    | error message' =>
      rw [hfst, hsnd] at parsed
      cases parsed
    | ok stmts' =>
      rw [hfst, hsnd] at parsed
      exact .inl ⟨stmts, stmts', rfl, rfl, Option.some.inj parsed⟩

theorem pkFor_of_alike (env : Environment) : pkFor parser env first = pkFor parser env second := by
  rcases parse_of_alike parsed with ⟨stmts, stmts', hfst, hsnd, eq⟩ | ⟨msg, msg', hfst, hsnd⟩
  · simp only [pkFor, hfst, hsnd]
    rw [← tableOf_shape stmts, eq, tableOf_shape]
  · simp [pkFor, hfst, hsnd]

theorem isAdditiveDdl_of_alike : isAdditiveDdl parser first = isAdditiveDdl parser second := by
  rcases parse_of_alike parsed with ⟨stmts, stmts', hfst, hsnd, eq⟩ | ⟨msg, msg', hfst, hsnd⟩
  · simp only [isAdditiveDdl, hfst, hsnd]
    rw [← isAdditive_shape stmts, eq, isAdditive_shape]
  · simp [isAdditiveDdl, hfst, hsnd]

theorem readStatements_of_alike (repair : (parser.parse first).toBool = false →
      RepairedAlike parser first second) :
    (∃ stmts predicate stmts' predicate', readStatements parser first = .ok (stmts, predicate) ∧
      readStatements parser second = .ok (stmts', predicate') ∧
      stmts.map Statement.shape = stmts'.map Statement.shape) ∨
      ∃ msg message', readStatements parser first = .error msg ∧
      readStatements parser second = .error message' := by
  rcases parse_of_alike parsed with
    ⟨stmts, stmts', hfst, hsnd, eq⟩ | ⟨msg, message', hfst, hsnd⟩
  · left
    refine ⟨stmts, none, stmts', none, ?_, ?_, eq⟩
    · simp [readStatements, hfst]
    · simp [readStatements, hsnd]
  · have repaired := repair (by rw [hfst]; rfl)
    simp only [readStatements, hfst, hsnd]
    rw [RepairedAlike] at repaired
    revert repaired
    cases stripConflictPredicate first with
    | none =>
      cases stripConflictPredicate second with
      | none =>
        intro _
        exact .inr ⟨msg, message', rfl, rfl⟩
      | some secondRepaired => exact False.elim
    | some firstRepaired =>
      cases stripConflictPredicate second with
      | none => exact False.elim
      | some secondRepaired =>
        intro repaired
        rcases parse_of_alike repaired with
          ⟨stmts, stmts', read, isRead', eq⟩ | ⟨other, other', read, isRead'⟩
        · simp only [read, isRead']
          exact .inl ⟨stmts, _, stmts', _, rfl, rfl, eq⟩
        · simp only [read, isRead']
          exact .inr ⟨msg, message', rfl, rfl⟩

end

theorem destination_of_many (read : readStatements parser sql = .ok (stmts, predicate))
    (many : stmts.length ≠ 1) (pk : String) :
    destination (analyzePk parser sql pk) = .refused := by
  rw [analyzePk, read]
  cases stmts with
  | nil => rfl
  | cons stmt rest =>
    cases rest with
    | nil => exact absurd rfl many
    | cons next rest => rfl

theorem destination_of_alike (tests : SameTests parser first second) (pk : String) :
    destination (analyzePk parser first pk) = destination (analyzePk parser second pk) := by
  rcases readStatements_of_alike tests.parsed tests.repair with
    ⟨stmts, pred, stmts', predicate', hfst, hsnd, eq⟩ | ⟨msg, msg', hfst, hsnd⟩
  · have eqLen : stmts.length = stmts'.length := by
      have lens := congrArg length eq
      rw [length_map, length_map] at lens
      exact lens
    by_cases single : stmts.length = 1
    · rcases length_eq_one_iff.mp single with ⟨statement, rfl⟩
      rcases length_eq_one_iff.mp (eqLen.symm.trans single) with ⟨statement', rfl⟩
      have sameShape : statement.shape = statement'.shape := (cons.inj eq).1
      have analyzed : analyzePk parser first pk =
          analyzeStatement first pk pred statement := by
        rw [analyzePk, hfst]
      have analyzed' : analyzePk parser second pk =
          analyzeStatement second pk predicate' statement' := by
        rw [analyzePk, hsnd]
      rw [analyzed, analyzed']
      apply destination_of_shape_eq pk sameShape
      · rintro ins rfl sel
        exact tests.dollar ins pred hfst sel
      · rintro q query' rfl rfl
        exact tests.plan q query' pred predicate' hfst hsnd
    · rw [destination_of_many hfst single, destination_of_many hsnd (eqLen ▸ single)]
  · rw [analyzePk, analyzePk, hfst, hsnd]
    rfl

/-- Past the catalog test, alike statements go the same way. -/
theorem dispatch_of_alike (alike : Alike first second) (tests : SameTests parser first second)
    (env : Environment) {bound bound' : Option String} (eqBound : bound.isSome = bound'.isSome) :
    dispatch parser env first bound
      (destination (analyzePk parser first (pkFor parser env first))) =
      dispatch parser env second bound'
      (destination (analyzePk parser second (pkFor parser env second))) := by
  have sameFallback : fallbackDdl env first = fallbackDdl env second := by
    rw [fallbackDdl, fallbackDdl, stopsAtQuote_isDdlText.eq_of_alike alike,
      stopsAtQuote_isBroadDml.eq_of_alike alike]
  have sameNone : bound.isNone = bound'.isNone := by
    rw [← Option.not_isSome, ← Option.not_isSome, eqBound]
  rw [pkFor_of_alike tests.parsed env, destination_of_alike tests]
  cases destination (analyzePk parser second (pkFor parser env second)) with
  | ddl => simp [dispatch, isAdditiveDdl_of_alike tests.parsed, sameFallback]
  | pointWrite unresolved => simp [dispatch, sameNone]
  | refused => exact sameFallback
  | _ => rfl

theorem dispatch_ne_catalog (env : Environment) (bound : Option String) (way : Destination) :
    dispatch parser env first bound way ≠ .catalog := by
  have notCatalog : fallbackDdl env first ≠ .catalog := by
    rw [fallbackDdl]
    split
    · decide
    · decide
  cases way with
  | ddl =>
    rw [dispatch]
    split
    · decide
    · exact notCatalog
  | pointWrite unresolved =>
    rw [dispatch]
    split
    · decide
    · decide
  | refused => exact notCatalog
  | _ => exact nofun

end

/-! ## Bound values -/

/-- Values that are both NULL or both not. -/
def SameNulls (params params' : List (Option ByteArray)) : Prop :=
  params.map Option.isNone = params'.map Option.isNone

theorem mask_literalToken (bytes : ByteArray) :
    mask (literalToken (some bytes)) = ['\'', '\''] := by
  rcases literalToken_some bytes with ⟨text, quoted⟩
  have shut := isClosed_of_ends (ends_quotedLiteral text)
  rw [quoted, mask]
  rw [quotedLiteral_toList] at shut ⊢
  simp only [cons_append, quoteOf, if_true]
  rw [cons_append] at shut
  rw [if_pos shut]
  rfl

theorem boundValue_sameNulls (sameNulls : SameNulls params params') (n : Nat) :
    (boundValue params n).map Option.isNone = (boundValue params' n).map Option.isNone := by
  rw [boundValue, boundValue]
  split
  · rfl
  · rw [← getElem?_map, ← getElem?_map, sameNulls]

theorem mask_substituted (sameNulls : SameNulls params params') (tok : Token) :
    mask (substituted params tok) = mask (substituted params' tok) := by
  simp only [substituted]
  cases placeholder? tok with
  | none => rfl
  | some n =>
    have eqBound := boundValue_sameNulls sameNulls n
    simp only [Option.bind_some]
    revert eqBound
    cases boundValue params n with
    | none =>
      cases boundValue params' n with
      | none =>
        intro _
        rfl
      | some value' =>
        intro eqBound
        cases eqBound
    | some v =>
      cases boundValue params' n with
      | none =>
        intro eqBound
        cases eqBound
      | some value' =>
        intro eqBound
        have sameNull := Option.some.inj eqBound
        cases v with
        | none =>
          cases value' with
          | none => rfl
          | some bytes' => cases sameNull
        | some bytes =>
          cases value' with
          | none => cases sameNull
          | some bytes' => simp [mask_literalToken]

/-- Text and NULL parameters leave alike statements. -/
theorem alike_boundStatement {sql : String} {params params' : List (Option ByteArray)}
    (sameNulls : SameNulls params params') (inlinable : Inlinable sql params)
    (inlinable' : Inlinable sql params') :
    Alike (boundStatement sql params).toList (boundStatement sql params').toList := by
  have reads : ∀ {given}, Inlinable sql given →
      lex (boundStatement sql given).toList = substitution sql given := by
    intro given inlinable
    rw [reads_iff]
    exact ⟨boundStatement_of_inlinable inlinable, inlinable.apart⟩
  rw [Alike, reads inlinable, reads inlinable', substitution, substitution,
    map_map, map_map]
  apply map_congr_left
  intro tok _
  exact mask_substituted sameNulls tok

/-! ## The theorem -/

/--
Two statements that differ only in the contents of string constants, with any
bound values, take the same route precisely when the catalog test answers both
alike; a session command always does.  Values bound to a statement as text or
NULL leave statements that differ only in this way.
-/
theorem route_of_alike_iff (parser : SqlParser) (env : Environment) :
    (∀ {first second : List Char}, Alike first second → SameTests parser first second →
      ∀ {bound bound' : Option String}, bound.isSome = bound'.isSome →
      ∀ params params' : List (Option String), (executeSqlBound parser env first bound params =
            executeSqlBound parser env second bound' params' ↔
          isSessionCommand first = true ∨ isCatalogStatement first = isCatalogStatement second)) ∧
    ∀ {sql : String} {params params' : List (Option ByteArray)},
      SameNulls params params' → Inlinable sql params →
      Inlinable sql params' → Alike (boundStatement sql params).toList
          (boundStatement sql params').toList := by
  refine ⟨?_, alike_boundStatement⟩
  intro first second alike tests bound bound' eqBound params params'
  have sameSession := stopsAtQuote_isSessionCommand.eq_of_alike alike
  have sameWay := dispatch_of_alike alike tests env eqBound
  cases isSession : isSessionCommand first with
  | true =>
    rw [isSession] at sameSession
    simp [executeSqlBound, isSession, ← sameSession]
  | false =>
    rw [isSession] at sameSession
    simp only [executeSqlBound, isSession, ← sameSession, Bool.false_eq_true, if_false, false_or]
    cases isCatalog : isCatalogStatement first with
    | true =>
      cases isCatalog' : isCatalogStatement second with
      | true => simp
      | false =>
        simp only [if_true, Bool.false_eq_true, if_false, reduceCtorEq, iff_false]
        exact fun eq => dispatch_ne_catalog env bound' _ eq.symm
    | false =>
      cases isCatalog' : isCatalogStatement second with
      | true =>
        simp only [if_true, Bool.false_eq_true, if_false, iff_false]
        exact dispatch_ne_catalog env bound _
      | false =>
        simp only [Bool.false_eq_true, if_false, iff_true]
        exact sameWay

/-! ## Notes -/

def noteSql (text : String) : List Char :=
  "INSERT INTO notes VALUES (".toList ++ (quotedLiteral text).toList ++ [')']

/-- The text of the first string constant of a statement. -/
def firstText (sql : List Char) : String :=
  let token := ((lex sql).find? fun token => token.head? == some '\'').getD []
  String.ofList token.tail.dropLast

def noteInsert (text : String) : Statement :=
  .insert
    { table := some [some "notes"]
      columns := []
      source := .values [[.value (.singleQuoted text)]]
      onConflict := .absent }

/-- A parser that reads the INSERT of a note. -/
def notesParser : SqlParser where
  parse sql :=
    if (lex sql).map mask = (lex (noteSql "")).map mask then
      .ok [noteInsert (firstText sql)]
    else .error "Expected: the INSERT of a note"

def plainEnvironment : Environment :=
  { broadWritesEnabled := false
    pkOf := fun _ => none }

/-- An INSERT of a note passes no test on the text after it is parsed. -/
theorem sameTests_of_note (isNote : (lex first).map mask = (lex (noteSql "")).map mask)
    (alike : Alike first second) : SameTests notesParser first second := by
  have parsed : notesParser.parse first = .ok [noteInsert (firstText first)] := if_pos isNote
  have parsed' : notesParser.parse second = .ok [noteInsert (firstText second)] :=
    if_pos (alike.symm.trans isNote)
  constructor
  · rw [ReadAlike, parsed, parsed']
    rfl
  · intro ins pred read sel
    rw [readStatements, parsed] at read
    cases read
    cases sel
  · intro q query' pred predicate' read
    rw [readStatements, parsed] at read
    cases read
  · intro unread
    rw [parsed] at unread
    cases unread

def preparedNote : String :=
  "INSERT INTO notes VALUES ($1)"

/-- One text without a mark can be inlined in the INSERT of a note. -/
theorem inlinable_note (isText : (String.fromUTF8? bytes).isSome = true)
    (bare : ¬ mark 1 <:+: (substitution preparedNote [some bytes]).flatten)
    (ne : allClose (substitution preparedNote [some bytes]) = true) :
    Inlinable preparedNote [some bytes] := by
  have onlyFirst : ∀ tok ∈ lex preparedNote.toList, placeholder? tok = none ∨ tok = mark 1 := by
    decide +kernel
  have hfst : placeholder? (mark 1) = some 1 := by decide +kernel
  constructor
  · intro tok mem n v means
    rcases onlyFirst tok mem with isNone | rfl
    · rw [means.1] at isNone
      cases isNone
    · have eq := hfst.symm.trans means.1
      cases eq
      rfl
  · intro tok mem n other means
    rcases onlyFirst tok mem with isNone | rfl
    · rw [means.1] at isNone
      cases isNone
    · have eq := hfst.symm.trans means.1
      cases eq
      have oth : some (some bytes) = some (some other) := means.2
      cases oth
      exact isText
  · intro n pos bound
    obtain rfl : n = 1 := Nat.le_antisymm bound pos
    exact bare
  · exact ne

/-- Two notes take the same route, and so do two bound ones. -/
theorem notes_same_route :
    executeSqlBound notesParser plainEnvironment (noteSql "hello") none [] =
        executeSqlBound notesParser plainEnvironment (noteSql "it's me") none
          [] ∧
      Alike (boundStatement preparedNote [some "hello".toUTF8]).toList
        (boundStatement preparedNote [some "it's me".toUTF8]).toList := by
  have alike : Alike (noteSql "hello") (noteSql "it's me") := by
    rw [Alike]
    decide +kernel
  have tests := sameTests_of_note
    (show (lex (noteSql "hello")).map mask = (lex (noteSql "")).map mask by decide +kernel) alike
  have agree : isCatalogStatement (noteSql "hello") =
      isCatalogStatement (noteSql "it's me") := by
    decide +kernel
  rcases route_of_alike_iff notesParser plainEnvironment with ⟨route, bound⟩
  constructor
  · exact (route alike tests rfl [] []).mpr (.inr agree)
  · apply bound
    · rfl
    · apply inlinable_note <;> decide +kernel
    · apply inlinable_note <;> decide +kernel

/-- A note with the name of a catalog table is not written as a note. -/
theorem note_goes_to_catalog :
    Alike (noteSql "hello") (noteSql "see pg_class") ∧
      executeSqlBound notesParser plainEnvironment (noteSql "hello") none [] =
        .pointWrite ∧
      executeSqlBound notesParser plainEnvironment (noteSql "see pg_class")
        none [] = .catalog := by
  refine ⟨?_, ?_, ?_⟩
  · rw [Alike]
    decide +kernel
  · decide +kernel
  · decide +kernel

end StorageOrchestrator.Wire.Routing
