import StorageOrchestrator.Read.Fanout

/-!
# Pushed-down joins

A SELECT with joins is evaluated by every provider on its own tables.  The
answers add up to the answer over the whole database when rows that join lie
on one provider and every provider decides about its own rows as the whole
database would.  The merge by primary key then keeps one row of those that
show the same key, so a pushed-down join is exact precisely when every key is
shown once.
-/

namespace StorageOrchestrator.Read.Pushdown

open Lib.Joins Lib.KeyedMerge Mesh.Table Mesh.Reads Read.Sql Read.Fanout List

/-! ## Placements -/

section

variable (whole : Database) (providers : List Database)

/-- The rows of a relation are shared among the providers. -/
def Divided (relation : Relation) : Prop :=
  (relation.rows whole).Perm (providers.flatMap fun database =>
    relation.rows database)

/--
Rows that join lie on one provider.  At every join, no combination found on
one provider matches a row of another, and a provider finds the same matches
among its own rows as the whole database.
-/
def CoLocatedFrom : Nat → List (Database × List Combination) → List Join → Prop
  | _, _, [] => True
  | width, parts, joined :: rest =>
    parts.Pairwise (fun first second =>
      Apart (joined.on whole) (first.2, joined.relation.rows first.1)
        (second.2, joined.relation.rows second.1)) ∧
      (∀ part ∈ parts, ∀ combination ∈ part.2, ∀ row ∈ joined.relation.rows part.1,
          joined.on part.1 combination row = joined.on whole combination row) ∧
      CoLocatedFrom (width + 1) (parts.map fun part =>
          (part.1, joinOne part.1 width part.2 joined)) rest

def CoLocated (source : TableWithJoins) : Prop :=
  CoLocatedFrom whole 1
    (providers.map fun database =>
      (database, (source.relation.rows database).map fun row => [some row]))
    source.joins

/-- Every provider decides about its own rows as the whole database would. -/
structure Agrees (schema : Schema) (select : Select) : Prop where
  selection : ∀ holds, select.selection = some holds → ∀ database ∈ providers,
      ∀ combination ∈ fromCombinations database select.sources,
        holds database combination = holds whole combination
  projection : ∀ output ∈ select.outputs schema, ∀ database ∈ providers,
    ∀ combination ∈ select.selected database,
      output.value database combination = output.value whole combination

/-- The rows of a SELECT over the whole database are those of the providers. -/
def AddsUp (schema : Schema) (select : Select) : Prop :=
  (select.projected schema whole).Perm
    (providers.flatMap fun database => select.projected schema database)

end

/-! ## Joins of parts -/

section

/-- One join of combinations that come in parts. -/
theorem joinOne_perm {parts : List (Database × List Combination)}
    {joined : Join} (width : Nat) (ne : parts.Pairwise fun first second =>
      Apart (joined.on whole) (first.2, joined.relation.rows first.1)
      (second.2, joined.relation.rows second.1))
    (agree : ∀ part ∈ parts, ∀ combination ∈ part.2, ∀ row ∈ joined.relation.rows part.1,
      joined.on part.1 combination row = joined.on whole combination row)
    (divided : (joined.relation.rows whole).Perm
      (parts.flatMap fun part => joined.relation.rows part.1))
    {combs : List Combination}
    (shared : combs.Perm (parts.flatMap Prod.snd)) :
    (joinOne whole width combs joined).Perm
      (parts.flatMap fun part => joinOne part.1 width part.2 joined) := by
  have pairsApart : (parts.map fun part =>
      (part.2, joined.relation.rows part.1)).Pairwise (Apart (joined.on whole)) := by
    rw [pairwise_map]
    exact ne
  have joinedParts : (join (joined.on whole) (beside width) joined.kind
      _ _).Perm _ := join_flatMap joined.kind pairsApart
  rw [flatMap_map, flatMap_map, flatMap_map] at joinedParts
  have eqParts : (parts.flatMap fun part => joinOne part.1 width part.2
      joined) = parts.flatMap fun part => join (joined.on whole)
        (beside width) joined.kind part.2 (joined.relation.rows part.1) := by
    apply flatMap_congr
    intro part isPart
    exact join_congr joined.kind (agree part isPart)
  rw [eqParts]
  exact (join_perm joined.kind shared divided).trans joinedParts

/-- Joins from left to right of combinations that come in parts. -/
theorem joinAll_perm {joins : List Join} (coLocated : CoLocatedFrom whole width parts joins)
    (divided : ∀ join ∈ joins, (join.relation.rows whole).Perm
      (parts.flatMap fun part => join.relation.rows part.1)) {combs : List Combination}
    (shared : combs.Perm (parts.flatMap Prod.snd)) :
    (joinAll whole width combs joins).Perm
      (parts.flatMap fun part => joinAll part.1 width part.2 joins) := by
  induction joins generalizing width parts combs with
  | nil => exact shared
  | cons join joins ih =>
    rcases coLocated with ⟨ne, agree, coLocatedRest⟩
    have joinedOnce := joinOne_perm width ne agree (divided join mem_cons_self) shared
    have dividedRest : ∀ other ∈ joins, (other.relation.rows whole).Perm ((parts.map fun part =>
          (part.1, joinOne part.1 width part.2 join)).flatMap
            fun part => other.relation.rows part.1) := by
      intro other oth
      rw [flatMap_map]
      exact divided other (mem_cons_of_mem _ oth)
    have sharedRest : (joinOne whole width combs join).Perm ((parts.map fun part =>
          (part.1, joinOne part.1 width part.2 join)).flatMap Prod.snd) := by
      rw [flatMap_map]
      exact joinedOnce
    have rest := ih coLocatedRest dividedRest sharedRest
    rw [flatMap_map] at rest
    exact rest

end

/-! ## SELECTs of parts -/

section

theorem divided_of_partition (parts : Partition whole providers)
    (derived : ∀ cols rows, relation = .derived cols rows → Divided whole providers relation) :
    Divided whole providers relation := by
  cases relation with
  | table name => exact parts name
  | derived cols rows => exact derived cols rows rfl

variable {select : Select}

section

variable (shared : (fromCombinations whole select.sources).Perm
  (providers.flatMap fun database => fromCombinations database select.sources))
  (agrees : Agrees whole providers schema select)
include shared agrees

theorem selected_perm :
    (select.selected whole).Perm (providers.flatMap fun database => select.selected database) := by
  cases sel : select.selection with
  | none =>
    simp only [Select.selected, sel]
    exact shared
  | some h =>
    have eqParts : (providers.flatMap fun database =>
        select.selected database) = providers.flatMap fun database =>
          (fromCombinations database select.sources).filter (h whole) := by
      apply flatMap_congr
      intro database host
      simp only [Select.selected, sel]
      apply filter_congr
      exact agrees.selection h sel database host
    rw [eqParts, ← filter_flatMap]
    simp only [Select.selected, sel]
    exact shared.filter (h whole)

theorem addsUp_of_shared : AddsUp whole providers schema select := by
  have eqParts : (providers.flatMap fun database =>
      select.projected schema database) = providers.flatMap fun database =>
        (select.selected database).map fun combination =>
          (select.outputs schema).map fun output =>
            output.value whole combination := by
    apply flatMap_congr
    intro database host
    apply map_congr_left
    intro combination isSelected
    apply map_congr_left
    intro output out
    exact agrees.projection output out database host combination isSelected
  rw [AddsUp, eqParts, ← map_flatMap]
  exact (selected_perm shared agrees).map _

end

/-- A SELECT from one table and relations that join with it. -/
theorem addsUp_of_coLocated {src : TableWithJoins} (single : select.sources = [src])
    (coLocated : CoLocated whole providers src) (base : Divided whole providers src.relation)
    (divided : ∀ join ∈ src.joins, Divided whole providers join.relation)
    (agrees : Agrees whole providers schema select) :
    AddsUp whole providers schema select := by
  apply addsUp_of_shared _ agrees
  simp only [single, fromCombinations_singleton]
  have dividedParts : ∀ join ∈ src.joins, (join.relation.rows whole).Perm
        ((providers.map fun database => (database,
          (src.relation.rows database).map fun row => [some row])).flatMap
            fun part => join.relation.rows part.1) := by
    intro join isJoined
    rw [flatMap_map]
    exact divided join isJoined
  have sharedBase : ((src.relation.rows whole).map fun row =>
      [some row]).Perm ((providers.map fun database => (database,
        (src.relation.rows database).map fun row => [some row])).flatMap Prod.snd) := by
    rw [flatMap_map, ← map_flatMap]
    exact base.map _
  have join := joinAll_perm coLocated dividedParts sharedBase
  rw [flatMap_map] at join
  exact join

end

/-! ## Reads with joins -/

/-- A query that is one SELECT, without DISTINCT, ORDER BY, LIMIT and OFFSET. -/
structure PlainRead (query : Query) (select : Select) : Prop where
  body : query.body = .select select
  unbounded : query.bounds = Bounds.absent
  repeating : select.distinct = .absent

section

variable {query : Query} {select : Select} (plain : PlainRead query select)
include plain

theorem answer_plainRead (schema : Schema) (database : Database) : query.answer schema database =
      (select.projected schema database).map (wireRow (query.body.names schema)) := by
  rw [Query.answer, Query.rows, plain.unbounded, rows_of_absent, plain.body,
    SetExpr.rows, Select.rows, plain.repeating]
  rfl

theorem answer_plainRead_perm (addsUp : AddsUp whole providers schema select) :
    (query.answer schema whole).Perm (providers.flatMap (query.answer schema)) := by
  have ans := funext (answer_plainRead plain schema)
  rw [ans, ← map_flatMap]
  exact addsUp.map _

/-- An accepted SELECT with a join reads one table with its joins. -/
theorem single_of_accepted (ok : analyzeSelect query = .ok .read)
    (hasJoin : ∃ src ∈ select.sources, src.joins ≠ []) :
    ∃ name joins, select.sources = [⟨.table name, joins⟩] := by
  simp only [analyzeSelect, plain.body, analyzePlain] at ok
  split at ok
  · cases ok
  · split at ok
    · rename_i noSources
      rcases hasJoin with ⟨src, isSource, _⟩
      rw [noSources] at isSource
      cases isSource
    · rename_i src more isSources
      split at ok
      · cases ok
      · split at ok
        · rename_i noMore
          rw [List.isEmpty_iff] at noMore
          rcases src with ⟨rel, joins⟩
          cases rel with
          | table name => exact ⟨name, joins, by rw [isSources, noMore]⟩
          | derived cols rows => cases ok
        · cases ok

theorem overlayIsSafe_of_join (hasJoin : ∃ src ∈ select.sources, src.joins ≠ []) :
    overlayIsSafe query = false := by
  rcases hasJoin with ⟨src, isSource, joins⟩
  have notAll : (select.sources.all fun src => src.joins.isEmpty) =
      false := by
    rw [all_eq_false]
    exact ⟨src, isSource, by simpa using joins⟩
  simp [overlayIsSafe, plain.body, notAll]

end

/-- A column of one of the sources of a FROM clause. -/
def sourceColumn (source : Nat) (column : String) : Expr :=
  { hasAggregate := false
    value := fun _ combination => cellAt combination source column }

/-- `JOIN event_tags ON event_tags.event_id = events.event_id`. -/
def tagsJoin : Join :=
  { kind := .inner
    relation := .table "event_tags"
    on := fun _ combination row =>
      sameValue (cellAt combination 0 "event_id") (cell row "event_id") }

def taggedSelect : Select :=
  { sources := [{ relation := .table "events", joins := [tagsJoin] }]
    selection := none
    grouped := false
    having := false
    distinct := .absent
    projection :=
      [.unnamed (sourceColumn 0 "event_id") "event_id",
        .unnamed (sourceColumn 1 "tag_value") "tag_value"] }

/-- `SELECT events.event_id, event_tags.tag_value FROM events JOIN …`. -/
def taggedQuery : Query :=
  { hasWith := false
    hasFetch := false
    hasLocks := false
    body := .select taggedSelect
    bounds := Bounds.absent }

def storedTag (hex value : String) : Row :=
  [("event_id", .bytea hex), ("tag_value", .text value)]

def taggedEvents (events tags : Content) : Database := fun name =>
  if name = "events" then events
  else if name = "event_tags" then tags
  else []

end StorageOrchestrator.Read.Pushdown
