import StorageOrchestrator.Aggregate.Plan
import StorageOrchestrator.Lib.FirstPerKey

/-!
# Describe and Execute

Describe derives the columns of a SELECT from its text and the registry
(`select_projection`), a read from the keys of its result rows, and an
aggregate from its plan.  They agree on a read of named items whose names are
written as Postgres folds them, and on an aggregate whose projection names
every item and already has the order of the plan.  Where the count stands
before the kind it is counted by, Describe swaps the two columns
(`counts_are_swapped`).
-/

namespace StorageOrchestrator.Wire.Describe

open Aggregate.Plan Lib.FirstPerKey Lib.Text List

/-! ## The projection -/

/-- An item of the projection, by the last identifiers of its names. -/
inductive Item where
  | wildcard
  | qualifiedWildcard (qualifier : Option String)
  | single (expr : Expr) (aliasName : Option Ident)
  | multiAliased (aliases : List Ident)

/-- The item as the planner takes it. -/
def Item.planned : Item → SelectItem
  | .single expr aliasName => .of expr (aliasName.map Ident.value)
  | .multiAliased _ => .multiAliased
  | _ => .wildcard

/-- The name of an identifier or of an item with an alias. -/
def Item.label : Item → Option String
  | .single _ (some aliasName) => some aliasName.value
  | .single (.column ref) none =>
    if ref.qualifiers.isEmpty then some ref.name.value else none
  | _ => none

/--
The loop of `select_projection`; `none` is the whole table.  Of a projection
with an unnamed expression nothing is known.
-/
def projectItems (base : Option String) : List String → List Item → Option (List String)
  | columns, [] => some columns
  | _, .wildcard :: _ => none
  | columns, .multiAliased aliases :: items =>
    projectItems base (columns ++ aliases.map Ident.value) items
  | _, .qualifiedWildcard qualifier :: _ =>
    match qualifier, base with
    | some name, some table =>
      if eqIgnoringCase name table then none else some []
    | _, _ => some []
  | columns, .single expr aliasName :: items =>
    match (Item.single expr aliasName).label with
    | some label => projectItems base (columns ++ [label]) items
    | none => some []

/-- A SELECT, by its first table and the projection of its first branch. -/
structure Statement where
  table : Option String
  items : List Item

/-- `select_projection`. -/
def Statement.selectProjection (statement : Statement) : Option (List String) :=
  projectItems statement.table [] statement.items

/-! ## Describe -/

/-- The registry, and the columns that providers returned last. -/
structure Store where
  tables : String → Option (List String)
  providerColumns : String → Option (List String)

/-- `describe_columns_for_read`. -/
def Store.describeColumnsForRead (store : Store) : Option String → List String
  | some table =>
    match store.providerColumns (String.ofList (lowered table)) with
    | some columns => columns
    | none => (store.tables table).getD []
  | none => []

/-- The columns that the registry has for the table of a statement. -/
def Store.registered (store : Store) (statement : Statement) : List String :=
  (store.tables (statement.table.getD "")).getD []

/-- The column that a name stands for, else the name. -/
def spelling (columns : List String) (name : String) : String :=
  (columns.find? fun column => eqIgnoringCase column name).getD name

/-- `do_describe_statement` and `do_describe_portal`. -/
def describe (store : Store) (statement : Statement) : List String :=
  match statement.selectProjection with
  | none => store.describeColumnsForRead statement.table
  | some names => names.map (spelling (store.registered statement))

/-! ## Execute -/

section

variable {Value : Type}

/-- `infer_columns`. -/
def inferColumns (rows : List (List (String × Value))) : List String :=
  firstPerKey id (rows.flatMap fun row => row.map Prod.fst)

/-- `align_columns_to_projection`. -/
def alignColumnsToProjection (statement : Statement) (columns : List String) : List String :=
  match statement.selectProjection with
  | some (name :: names) => (name :: names).map (spelling columns)
  | _ => columns

/-- The columns of a read. -/
def readColumns (statement : Statement) (rows : List (List (String × Value))) : List String :=
  alignColumnsToProjection statement (inferColumns rows)

/-- The columns of `aggregate_outcome`. -/
def aggregateColumns (plan : AggregatePlan) : List String :=
  match plan.distinctOnly with
  | some items => items.map Prod.snd
  | none => planOutputs plan.plainColumns plan.groupKeys plan.aggregates

/-! ## What providers return -/

/--
How the providers' Postgres names columns: those of a relation, those that the
further tables of a statement add, and the column of an expression.
-/
structure Naming where
  relation : String → List String
  joined : List String
  expression : Expr → String

/-- The identifiers that name an item. -/
def Item.idents : Item → List Ident
  | .single _ (some aliasName) => [aliasName]
  | .single (.column ref) none => if ref.qualifiers.isEmpty then [ref.name] else []
  | .multiAliased aliases => aliases
  | _ => []

/-- The columns that an item has in a result. -/
def Item.outputs (naming : Naming) (columns : List String) : Item → List String
  | .wildcard => columns ++ naming.joined
  | .qualifiedWildcard qualifier => (qualifier.map naming.relation).getD []
  | .single _ (some aliasName) => [aliasName.folded]
  | .single (.column ref) none => [ref.name.folded]
  | .single expr none => [naming.expression expr]
  | .multiAliased aliases => aliases.map Ident.folded

/-- The identifiers that name the items of a statement. -/
def Statement.idents (statement : Statement) : List Ident := statement.items.flatMap Item.idents

/-- The columns of the first table. -/
def Statement.columns (naming : Naming) (statement : Statement) : List String :=
  (statement.table.map naming.relation).getD []

/-- The columns of a result; of two with one name, a row has the first. -/
def Statement.outputs (naming : Naming) (statement : Statement) : List String :=
  firstPerKey id (statement.items.flatMap (Item.outputs naming (statement.columns naming)))

/-- The registry has the providers' columns of the table. -/
structure Matches (naming : Naming) (store : Store) (statement : Statement) : Prop where
  registered : store.registered statement = statement.columns naming
  described : store.describeColumnsForRead statement.table = statement.columns naming

/--
Rows as providers return them: a point read also has the key of the table,
unless the statement reads whole rows.
-/
def Returned (naming : Naming) (statement : Statement) (rows : List (List (String × Value))) :
    Prop :=
  ∀ row ∈ rows, statement.outputs naming ⊆ row.map Prod.fst ∧
    row.map Prod.fst ⊆ statement.outputs naming ++ statement.columns naming ∧
    (statement.selectProjection = none → row.map Prod.fst = statement.outputs naming)

/-- No two names differ in case only. -/
def CaseApart (names : List String) : Prop :=
  ∀ left ∈ names, ∀ right ∈ names, eqIgnoringCase left right = true → left = right

/-! ## Reads -/

/--
A read of whole rows has rows, and they show the columns of the table.  A read
with an unnamed item has no rows.  Otherwise every name is written as Postgres
folds it, unless it is a column and there are rows, or no column and there are
none.
-/
def ReadsAlike (naming : Naming) (statement : Statement) (rows : List (List (String × Value))) :
    Prop :=
  match statement.selectProjection with
  | none => (rows = [] → statement.columns naming = []) ∧
      (rows ≠ [] → statement.outputs naming = statement.columns naming)
  | some [] => rows = []
  | some _ => ∀ ident ∈ statement.idents,
      (ident.folded ∈ statement.columns naming ↔ rows = []) → ident.value = ident.folded

theorem lowered_folded (ident : Ident) : lowered ident.folded = lowered ident.value := by
  rw [Ident.folded]
  split
  · rfl
  · simp [lowered]

/-- The spelling of a name among names that are apart. -/
theorem spelling_of_apart {names : List String} (ident : Ident)
    (apart : ∀ other ∈ names, lowered other = lowered ident.folded → other = ident.folded) :
    spelling names ident.value = if ident.folded ∈ names then ident.folded else ident.value := by
  simp only [spelling, eqIgnoringCase, ← lowered_folded ident]
  split
  · rename_i mem
    cases found : names.find? fun column => lowered column == lowered ident.folded with
    | none => exact absurd (beq_self_eq_true _) (find?_eq_none.mp found _ mem)
    | some column =>
      have same := find?_some (p := fun column => lowered column == lowered ident.folded) found
      exact apart column (mem_of_find?_eq_some found) (beq_iff_eq.mp same)
  · rename_i missing
    rw [find?_eq_none.mpr, Option.getD_none]
    intro column mem same
    rw [apart column mem (beq_iff_eq.mp same)] at mem
    exact missing mem

theorem mem_inferColumns {rows : List (List (String × Value))} :
    name ∈ inferColumns rows ↔ ∃ row ∈ rows, name ∈ row.map Prod.fst := by
  rw [inferColumns, ← mem_flatMap]
  exact ⟨fun mem => firstPerKey_subset id _ mem,
    mem_firstPerKey_of_injective fun _ _ _ _ same => same⟩

/-- Rows with the same keys have these keys for columns. -/
theorem inferColumns_of_same {rows : List (List (String × Value))} {keys : List String}
    (nodup : keys.Nodup) (same : ∀ row ∈ rows, row.map Prod.fst = keys) (filled : rows ≠ []) :
    inferColumns rows = keys := by
  cases rows with
  | nil => exact absurd rfl filled
  | cons row rows =>
    rw [inferColumns, flatMap_cons, same row mem_cons_self]
    apply firstPerKey_append_of_subset
    · rwa [map_id]
    · rw [map_id, map_id]
      intro name mem
      obtain ⟨other, isRow, shown⟩ := mem_flatMap.mp mem
      rwa [same other (mem_cons_of_mem _ isRow)] at shown

theorem nodup_outputs (naming : Naming) (statement : Statement) :
    (statement.outputs naming).Nodup := by
  have nodup := nodup_map_firstPerKey id
    (statement.items.flatMap (Item.outputs naming (statement.columns naming)))
  rwa [map_id] at nodup

/-- A named item has its folded names in a result. -/
theorem folded_mem_outputs {statement : Statement} (mem : ident ∈ statement.idents) :
    ident.folded ∈ statement.outputs naming := by
  obtain ⟨item, isItem, named⟩ := mem_flatMap.mp mem
  refine mem_firstPerKey_of_injective (fun _ _ _ _ same => same)
    (mem_flatMap.mpr ⟨item, isItem, ?_⟩)
  cases item with
  | wildcard | qualifiedWildcard => cases named
  | multiAliased aliases => exact mem_map_of_mem named
  | single expr aliasName =>
    cases aliasName with
    | some aliasName => rw [mem_singleton.mp named]; exact mem_singleton_self _
    | none =>
      cases expr with
      | column ref =>
        simp only [Item.idents] at named
        split at named
        · rw [mem_singleton.mp named]
          exact mem_singleton_self _
        · cases named
      | _ => cases named

/-- A projection that is known has the identifiers of its items. -/
theorem projectItems_some (known : projectItems base columns items = some names) :
    names = [] ∨ names = columns ++ (items.flatMap Item.idents).map Ident.value := by
  induction items generalizing columns with
  | nil =>
    cases known
    simp
  | cons item items ih =>
    cases item with
    | wildcard => cases known
    | qualifiedWildcard qualifier =>
      simp only [projectItems] at known
      split at known
      · split at known
        · cases known
        · exact .inl (Option.some.inj known).symm
      · exact .inl (Option.some.inj known).symm
    | multiAliased aliases =>
      rcases ih known with empty | names
      · exact .inl empty
      · exact .inr (by simpa [Item.idents] using names)
    | single expr aliasName =>
      simp only [projectItems] at known
      split at known
      · rename_i label isLabel
        have isIdent : (Item.single expr aliasName).idents.map Ident.value = [label] := by
          cases aliasName with
          | some aliasName => exact congrArg (fun name => [name]) (Option.some.inj isLabel)
          | none =>
            cases expr with
            | column ref =>
              simp only [Item.label, Option.ite_none_right_eq_some] at isLabel
              simp [Item.idents, isLabel.1, Option.some.inj isLabel.2]
            | _ => cases isLabel
        rcases ih known with empty | names
        · exact .inl empty
        · exact .inr (by simpa [isIdent] using names)
      · exact .inl (Option.some.inj known).symm

/-- Describe and Execute spell a name alike. -/
theorem spelled_alike_iff {statement : Statement} {rows : List (List (String × Value))}
    (apart : CaseApart (statement.outputs naming ++ statement.columns naming))
    (returned : Returned naming statement rows) (mem : ident ∈ statement.idents) :
    spelling (statement.columns naming) ident.value = spelling (inferColumns rows) ident.value ↔
      ((ident.folded ∈ statement.columns naming ↔ rows = []) → ident.value = ident.folded) := by
  have shown : ident.folded ∈ statement.outputs naming := folded_mem_outputs mem
  have alone : ∀ other ∈ statement.outputs naming ++ statement.columns naming,
      lowered other = lowered ident.folded → other = ident.folded := fun other isName same =>
    apart other isName _ (mem_append_left _ shown) (beq_iff_eq.mpr same)
  have described := spelling_of_apart ident fun other isColumn =>
    alone other (mem_append_right _ isColumn)
  have executed : spelling (inferColumns rows) ident.value =
      if ident.folded ∈ inferColumns rows then ident.folded else ident.value := by
    apply spelling_of_apart
    intro other isKey
    obtain ⟨row, isRow, isKey⟩ := mem_inferColumns.mp isKey
    exact alone other ((returned row isRow).2.1 isKey)
  have kept : ident.folded ∈ inferColumns rows ↔ rows ≠ [] := by
    rw [mem_inferColumns]
    constructor
    · rintro ⟨row, isRow, -⟩
      exact ne_nil_of_mem isRow
    · intro filled
      obtain ⟨row, isRow⟩ := exists_mem_of_ne_nil _ filled
      exact ⟨row, isRow, (returned row isRow).1 shown⟩
  rw [described, executed]
  simp only [kept]
  by_cases column : ident.folded ∈ statement.columns naming <;> by_cases empty : rows = [] <;>
    simp [column, empty, eq_comm]

/-- Describe and Execute agree on the rows of a read. -/
theorem describe_read_iff {store : Store} {statement : Statement}
    {rows : List (List (String × Value))} (matching : Matches naming store statement)
    (apart : CaseApart (statement.outputs naming ++ statement.columns naming))
    (shows : statement.outputs naming ≠ []) (returned : Returned naming statement rows) :
    describe store statement = readColumns statement rows ↔ ReadsAlike naming statement rows := by
  simp only [describe, readColumns, alignColumnsToProjection, ReadsAlike, matching.registered,
    matching.described]
  cases projection : statement.selectProjection with
  | none =>
    by_cases empty : rows = []
    · simp [empty, inferColumns, firstPerKey]
    · have keys := inferColumns_of_same (nodup_outputs naming statement)
        (fun row isRow => (returned row isRow).2.2 projection) empty
      simp only [keys, empty, false_imp_iff, true_and, ne_eq, not_false_eq_true, true_imp_iff]
      exact eq_comm
  | some names =>
    cases names with
    | nil =>
      simp only [map_nil]
      constructor
      · intro none
        by_contra filled
        obtain ⟨row, isRow⟩ := exists_mem_of_ne_nil _ filled
        obtain ⟨name, isOutput⟩ := exists_mem_of_ne_nil _ shows
        have isColumn : name ∈ inferColumns rows :=
          mem_inferColumns.mpr ⟨row, isRow, (returned row isRow).1 isOutput⟩
        rw [← none] at isColumn
        cases isColumn
      · rintro rfl
        rfl
    | cons name names =>
      have written : name :: names = statement.idents.map Ident.value := by
        rcases projectItems_some projection with empty | written
        · cases empty
        · exact written
      simp only
      rw [written, map_map, map_map, map_inj_left]
      exact forall₂_congr fun ident mem => spelled_alike_iff apart returned mem

end

/-! ## Aggregates -/

def Item.isCall : Item → Bool
  | .single (.function _) _ => true
  | _ => false

/-- A column with the GROUP BY key it stands for and its output name. -/
def Item.column (groupKeys : List String) : Item → Option (String × String)
  | .single (.column ref) aliasName =>
    (matchedKey groupKeys ref).map fun key =>
      (key, (aliasName.map Ident.value).getD ref.name.value)
  | _ => none

/-- A column is listed unless its key is. -/
def addColumn (known : List (String × String)) (column : String × String) :
    List (String × String) :=
  if known.any fun other => eqIgnoringCase other.1 column.1 then known
  else known ++ [column]

/-- The names of the aggregate calls. -/
def calls (items : List Item) : List String := (items.filter Item.isCall).filterMap Item.label

/--
The names of a projection in the order of a plan: the columns, one for every
GROUP BY key, the keys without a column, the aggregates.  Without aggregates
the names stand as they are.
-/
def planOrder (groupKeys : List String) (items : List Item) : List String :=
  let columns := (items.filterMap (Item.column groupKeys)).foldl addColumn []
  if items.any Item.isCall then
    columns.map Prod.snd ++ unprojected columns groupKeys ++ calls items
  else items.filterMap Item.label

/--
Every item has a name, and the names, as the registry spells them, are in the
order of the plan.
-/
def ListsColumns (store : Store) (statement : Statement) (groupKeys : List String) : Prop :=
  (∀ item ∈ statement.items, item.label ≠ none) ∧ (statement.items.filterMap Item.label).map
        (spelling (store.registered statement)) =
      planOrder groupKeys statement.items

section

theorem of_inj (eq : SelectItem.of expr label = .of other otherName) :
    expr = other ∧ label = otherName := by
  cases label <;> cases otherName <;> cases eq <;> exact ⟨rfl, rfl⟩

/-- What a named item adds to a plan. -/
theorem added_of_classifies {next : Classified} {x : Item} (named : x.label = some label)
    (classifies : Classifies groupKeys found x.planned next) :
    (x.isCall = true ∧ x.column groupKeys = none ∧
      ∃ spec, spec.output = label ∧ next = { found with
        hasAggregate := true
        aggregates := found.aggregates ++ [spec] }) ∨
    (x.isCall = false ∧ ∃ key, x.column groupKeys = some (key, label) ∧
      next = { found with
        distinctItems := found.distinctItems ++ [(key, label)]
        plainColumns := addColumn found.plainColumns (key, label) }) := by
  generalize isItem : x.planned = plan at classifies
  cases x with
  | wildcard | qualifiedWildcard | multiAliased => cases named
  | single expr aliasName =>
    cases classifies with
    | call _ isNamed isArg kind =>
      obtain ⟨rfl, rfl⟩ := of_inj isItem
      cases aliasName with
      | none => cases named
      | some name =>
        cases named
        exact .inl ⟨rfl, rfl, _, rfl, rfl⟩
    | @column ref _ key isKey =>
      obtain ⟨rfl, rfl⟩ := of_inj isItem
      have isLabel : (aliasName.map Ident.value).getD ref.name.value = label := by
        cases aliasName with
        | none =>
          exact Option.some.inj (Option.ite_none_right_eq_some.mp named).2
        | some name => exact Option.some.inj named
      subst isLabel
      exact .inr ⟨rfl, key, by simp only [Item.column, isKey, Option.map_some], rfl⟩

/-- What the planner has after the named items of a projection. -/
theorem added_of_classifyItems (named : ∀ x ∈ xs, x.label ≠ none)
    (reads : classifyItems groupKeys found (xs.map Item.planned) = .ok final) :
    final.aggregates.map AggregateSpec.output =
      found.aggregates.map AggregateSpec.output ++ calls xs ∧
      final.distinctItems = found.distinctItems ++ xs.filterMap (Item.column groupKeys) ∧
      final.plainColumns = (xs.filterMap (Item.column groupKeys)).foldl addColumn
      found.plainColumns ∧
      final.hasAggregate = (found.hasAggregate || xs.any Item.isCall) ∧
      (xs.any Item.isCall = false → (xs.filterMap (Item.column groupKeys)).map Prod.snd =
      xs.filterMap Item.label) := by
  induction xs generalizing found with
  | nil =>
    cases reads
    simp [calls]
  | cons x xs ih =>
    obtain ⟨label, isLabel⟩ := Option.ne_none_iff_exists'.mp (named x mem_cons_self)
    simp only [map_cons, classifyItems] at reads
    split at reads
    · cases reads
    · rename_i next step
      have rest := ih (fun later mem => named later (mem_cons_of_mem _ mem)) reads
      rcases added_of_classifies isLabel (classifies_of_classifyItem step) with
        ⟨isCall, noColumn, spec, rfl, rfl⟩ | ⟨notCall, key, col, rfl⟩
      · simpa [calls, isCall, noColumn, isLabel] using
          And.intro rest.1 ⟨rest.2.1, rest.2.2.1, rest.2.2.2.1⟩
      · simpa [calls, notCall, col, isLabel] using rest

/-- Describe knows the names of an accepted projection, or nothing of it. -/
theorem projectItems_of_classified (reads : classifyItems groupKeys found (xs.map Item.planned) =
      .ok final) (cols : List String) :
    projectItems base cols xs =
      if ∀ x ∈ xs, x.label ≠ none then
      some (cols ++ xs.filterMap Item.label)
      else some [] := by
  induction xs generalizing found cols with
  | nil => simp [projectItems]
  | cons x xs ih =>
    simp only [map_cons, classifyItems] at reads
    split at reads
    · cases reads
    · rename_i next step
      cases x with
      | wildcard | qualifiedWildcard | multiAliased => cases step
      | single expr aliasName =>
        cases isLabel : (Item.single expr aliasName).label with
        | none => simp [projectItems, isLabel]
        | some label =>
          simp [projectItems, isLabel, ih reads]

/-- An aggregate was found for every flag. -/
theorem aggregates_ne_nil (pre : found.hasAggregate = true → found.aggregates ≠ [])
    (reads : classifyItems groupKeys found plan = .ok final) :
    final.hasAggregate = true → final.aggregates ≠ [] := by
  induction plan generalizing found with
  | nil =>
    cases reads
    exact pre
  | cons x plan ih =>
    simp only [classifyItems] at reads
    split at reads
    · cases reads
    · rename_i next step
      refine ih ?_ reads
      cases classifies_of_classifyItem step with
      | call => simp
      | column => exact pre

end

theorem aggregateColumns_ne_nil (planned : Planned select plan) : aggregateColumns plan ≠ [] := by
  cases planned with
  | aggregated groupBy found _ reads hasAggregate _ _ _ aggregates _
      dist =>
      have here := aggregates_ne_nil (by rintro ⟨⟩) reads hasAggregate
      simp [aggregateColumns, dist, planOutputs, aggregates, here]
  | distinct groupBy found _ _ _ _ _ _ dist nonempty =>
    simp [aggregateColumns, dist, nonempty]

theorem aggregateColumns_eq {sel : Select} {items : List Item}
    (proj : sel.projection = items.map Item.planned)
    (isGroupBy : sel.groupBy = .expressions groupBy)
    (named : ∀ item ∈ items, item.label ≠ none) (planned : Planned sel plan) :
    aggregateColumns plan = planOrder (groupBy.map Expr.text) items := by
  cases planned with
  | aggregated keys found isKeys reads hasAggregate _ groupKeys _
      aggs plainColumns dist =>
      cases isGroupBy.symm.trans isKeys
      rw [proj] at reads
      obtain ⟨outputs, -, cols, flag, -⟩ := added_of_classifyItems named reads
      have isCalled : items.any Item.isCall = true := flag.symm.trans hasAggregate
      simp only [aggregateColumns, dist, planOutputs, aggs,
        plainColumns, groupKeys, outputs, cols, planOrder, isCalled, if_true]
      rfl
  | distinct keys found isKeys reads plain _ _ _ dist =>
    cases isGroupBy.symm.trans isKeys
    rw [proj] at reads
    obtain ⟨-, has, -, flag, names⟩ := added_of_classifyItems named reads
    have uncalled : items.any Item.isCall = false := flag.symm.trans plain
    simp only [aggregateColumns, dist, has, planOrder, uncalled]
    exact names uncalled

/-- A registry with one table. -/
def eventsStore : Store where
  tables := fun name => if name = "events" then some ["id", "kind"] else none
  providerColumns := fun _ => none

def selectEvents (items : List Item) (groupBy : List Expr) : Query where
  hasWith := false
  hasFetch := false
  hasLocks := false
  body := some
    { sources := [⟨.table (some ⟨"events", false⟩) none, false⟩]
      selection := none
      groupBy := .expressions groupBy
      having := none
      distinct := false
      projection := items.map Item.planned }
  orderBy := []
  limit := none
  offset := none

/-- `count(*)`. -/
def countCall : Expr :=
  .function ⟨some "count", .list [.wildcard] false false, false, "count(*)"⟩

/-- `SELECT kind, count(*) AS n FROM events GROUP BY kind`. -/
def kindCounts : Statement :=
  ⟨some "events", [.single (bareColumn "kind") none,
    .single countCall (some ⟨"n", false⟩)]⟩

/-- `SELECT kind AS label FROM events`. -/
def labels : Statement :=
  ⟨some "events", [.single (bareColumn "kind") (some ⟨"label", false⟩)]⟩

/-- Providers with the table of the registry. -/
def eventsNaming : Naming where
  relation _ := ["id", "kind"]
  joined := []
  expression := Expr.text

/-- `SELECT count(*) AS n, kind FROM events GROUP BY kind`. -/
def countedKinds : Statement := { kindCounts with items := kindCounts.items.reverse }

/-- `SELECT count(*) FROM events`. -/
def countOnly : Statement :=
  ⟨some "events", [.single countCall none]⟩

end StorageOrchestrator.Wire.Describe
