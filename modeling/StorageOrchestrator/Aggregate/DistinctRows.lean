import StorageOrchestrator.Aggregate.Alignment

/-!
# SELECT DISTINCT over slices

`merge_distinct` reads every answered row under the output names of the query
and keeps the first row of every tuple.  The partial query labels its columns
with the same names, but Postgres cuts a label at 63 bytes, and the name of the
table goes between quotes.  The result is exact exactly when the names survive
that.
-/

namespace StorageOrchestrator.Aggregate.DistinctRows

open Aggregate.Alignment Aggregate.Partial Aggregate.Plan Lib.Record List

def output (item : ColumnRef × Option String) : String := item.2.getD item.1.name.value

/-- `SELECT DISTINCT` of unquoted columns of one table. -/
structure DistinctQuery where
  table : Ident
  filter : Option String
  items : List (ColumnRef × Option String)
  inhabited : items ≠ []
  unquoted : ∀ item ∈ items, ∀ part ∈ item.1.parts, part.quoted = false
  distinct : (items.map output).Nodup

/-! ## The source -/

/-- The values under which `merge_distinct` compares rows. -/
def distinctKey (items : List (String × String)) (row : Object) : List Value :=
  items.map fun item => ((row item.2).or (row item.1)).getD .null

def distinctObject (items : List (String × String)) (key : List Value) : Object :=
  lastNamed ((items.map Prod.snd).zip key)

/-- The loop of `merge_distinct`. -/
def distinctFrom (items : List (String × String)) : List (List Value) → List Object → List Object
  | _, [] => []
  | seen, row :: rows =>
    if distinctKey items row ∈ seen then distinctFrom items seen rows
    else distinctObject items (distinctKey items row) ::
      distinctFrom items (distinctKey items row :: seen) rows

/-- `merge_distinct` without ORDER BY, LIMIT and OFFSET. -/
def mergeDistinct (items : List (String × String)) (partials : List (List Object)) : List Object :=
  distinctFrom items [] partials.flatten

/-- Postgres accepts the partial query on the relation. -/
def distinctRuns (relation table : String) (items : List (String × String)) : Bool :=
  table == relation && items.all fun item =>
    !item.2.toList.contains '"' && (qualifierOf item.1).all (· == relation)

section

variable {V : Type} [DecidableEq V] (engine : Engine V) (json : V → Value)

def tupleRow (items : List (String × String)) (tuple : List V) : Object := fun name =>
  (lastNamed ((items.map fun item => fieldName item.2).zip tuple) name).map json

/-- A provider's answer to the partial query over its slice. -/
def distinctAnswer (relation : String) (plan : AggregatePlan) (items : List (String × String))
    (slice : List (Row V)) : Option (List Object) :=
  if distinctRuns relation plan.table items then
    some (((kept engine plan.filter slice).map (sqlKey (items.map Prod.fst))).dedup.map
      (tupleRow json items))
  else none

end

namespace DistinctQuery

variable (asked : DistinctQuery)

def select : Select where
  sources := [⟨.table (some asked.table) none, false⟩]
  selection := asked.filter
  groupBy := .expressions []
  having := none
  distinct := true
  projection := asked.items.map fun item => .of (.column item.1) item.2

def query : Query := ⟨false, false, false, some asked.select, [], none, none⟩

/-- The columns of the query and their output names, as the plan has them. -/
def columns : List (String × String) := asked.items.map fun item => (item.1.full, output item)

/-- The rows of the query over a whole table, one for every tuple. -/
def rows {V : Type} [DecidableEq V] (engine : Engine V) (json : V → Value) (table : List (Row V)) :
    List Object :=
  ((selected engine asked.select table).map
    fun row => (projected asked.select).map fun item => row item.1).dedup.map fun tuple =>
      lastNamed (((projected asked.select).map Prod.snd).zip (tuple.map json))

/-- Over every partition of every table, the merged rows are those of the query. -/
def Exact : Prop :=
  ∃ plan items, planQuery asked.query = .ok plan ∧
    plan.distinctOnly = some items ∧
    ∀ (V : Type) [DecidableEq V] (json : V → Value), json.Injective →
      ∀ (engine : Engine V) (table : List (Row V)) (slices : List (List (Row V))),
        table.Perm slices.flatten → ∃ partials,
          slices.mapM (distinctAnswer engine json (relationOf asked.select) plan items) =
              some partials ∧
            (mergeDistinct items partials).Perm (asked.rows engine json table)

/-- The column whose value the gateway takes for an item. -/
def source (item : String × String) : Option String :=
  let fields := asked.columns.map fun column => (fieldName column.2, column.1)
  ((lastNamed fields item.2).or (lastNamed fields item.1)).map columnOf

end DistinctQuery

/-! ## The loop -/

theorem distinctFrom_eq (xs : List (String × String)) (seen : List (List Value))
    (rows : List Object) : ∃ keys : List (List Value), distinctFrom xs seen rows =
      keys.map (distinctObject xs) ∧
      keys.Nodup ∧ ∀ key, key ∈ keys ↔ key ∈ rows.map (distinctKey xs) ∧ key ∉ seen := by
  induction rows generalizing seen with
  | nil => exact ⟨[], rfl, nodup_nil, by simp⟩
  | cons row rows ih =>
    rw [distinctFrom]
    split
    · rename_i known
      obtain ⟨keys, isKeys, nodup, mems⟩ := ih seen
      refine ⟨keys, isKeys, nodup, fun key => ?_⟩
      rw [mems, map_cons, mem_cons]
      grind
    · rename_i new
      obtain ⟨keys, isKeys, nodup, mems⟩ := ih (distinctKey xs row :: seen)
      refine ⟨distinctKey xs row :: keys, by rw [isKeys, map_cons], ?_, fun key => ?_⟩
      · rw [nodup_cons, mems]
        exact ⟨fun mem => mem.2 mem_cons_self, nodup⟩
      · rw [mem_cons, mems, map_cons, mem_cons, mem_cons]
        grind

theorem mergeDistinct_perm (xs : List (String × String)) (parts : List (List Object)) :
    (mergeDistinct xs parts).Perm
      ((parts.flatten.map (distinctKey xs)).dedup.map (distinctObject xs)) := by
  obtain ⟨keys, isKeys, nodup, mems⟩ := distinctFrom_eq xs [] parts.flatten
  rw [mergeDistinct, isKeys]
  refine Perm.map _ ((perm_ext_iff_of_nodup nodup (nodup_dedup _)).mpr fun key => ?_)
  rw [mems, mem_dedup]
  simp

/-! ## Plan and query -/

section

variable (asked : DistinctQuery)

theorem classifyItems_columns (xs : List (ColumnRef × Option String)) (found : Classified) :
    ∃ plain, classifyItems [] found (xs.map fun x => .of (.column x.1) x.2) =
      .ok { found with
        distinctItems := found.distinctItems ++ xs.map fun x => (x.1.full, output x)
        plainColumns := plain } := by
  induction xs generalizing found with
  | nil => exact ⟨found.plainColumns, by simp [classifyItems]⟩
  | cons x xs ih =>
    obtain ⟨plain, first⟩ : ∃ plain, classifyItem [] found (.of (.column x.1) x.2) =
        .ok { found with
          distinctItems := found.distinctItems ++ [(x.1.full, output x)]
          plainColumns := plain } := by
      rcases x with ⟨ref, _ | label⟩ <;> exact ⟨_, rfl⟩
    obtain ⟨rest, later⟩ := ih { found with
      distinctItems := found.distinctItems ++ [(x.1.full, output x)]
      plainColumns := plain }
    refine ⟨rest, ?_⟩
    rw [map_cons, classifyItems, first]
    simpa using later

theorem planQuery_query : ∃ plan, planQuery asked.query = .ok plan ∧
    plan.distinctOnly = some asked.columns ∧ plan.table = asked.table.value ∧
      plan.filter = filterText asked.select := by
  obtain ⟨plain, reads⟩ := classifyItems_columns asked.items .start
  simp only [Classified.start, nil_append] at reads
  simp [planQuery, DistinctQuery.query, DistinctQuery.select, sourceTable, reads, finishPlan,
    Classified.start, asked.inhabited, DistinctQuery.columns, filterText]

/-- Without quotes, a reference is printed as its values are. -/
theorem projected_select : projected asked.select =
    asked.columns.map fun col => (columnOf col.1, col.2) := by
  have read : ∀ x ∈ asked.items, projectedItem (.of (.column x.1) x.2) =
      some (columnOf x.1.full, output x) := by
    intro x mem
    have printed : x.1.parts.map Ident.text = x.1.parts.map Ident.value :=
      map_congr_left fun part isPart => by rw [Ident.text, asked.unquoted x mem part isPart]; rfl
    have eq : x.1.text = x.1.full := by rw [ColumnRef.text, ColumnRef.full, printed]
    rcases x with ⟨ref, _ | aliasName⟩ <;> exact congrArg (fun text => some (columnOf text, _)) eq
  have cols : asked.items.filterMap (fun x => projectedItem (.of (.column x.1) x.2)) =
      asked.items.map fun x => (columnOf x.1.full, output x) :=
    (filterMap_congr read).trans (congrFun filterMap_eq_map' _)
  rw [projected, DistinctQuery.select, filterMap_map, DistinctQuery.columns, map_map]
  exact cols

theorem rows_eq {V : Type} [DecidableEq V] (engine : Engine V) (json : V → Value)
    (table : List (Row V)) : asked.rows engine json table =
      ((selected engine asked.select table).map (sqlKey (asked.columns.map Prod.fst))).dedup.map
      fun tuple => distinctObject asked.columns (tuple.map json) := by
  have tuple : ∀ row : Row V, sqlKey (asked.columns.map Prod.fst) row =
      asked.columns.map fun col => row (columnOf col.1) := fun _ => map_map
  simp only [DistinctQuery.rows, projected_select, map_map, distinctObject, funext tuple]
  rfl

/-- What the gateway reads from the answered row of a tuple. -/
theorem distinctKey_tupleRow {V : Type} (json : V → Value) (row : Row V) : distinctKey asked.columns
      (tupleRow json asked.columns (sqlKey (asked.columns.map Prod.fst) row)) =
      asked.columns.map fun x =>
      ((asked.source x).map fun col => json (row col)).getD .null := by
  have shown : ∀ name, tupleRow json asked.columns (sqlKey (asked.columns.map Prod.fst) row) name =
      (lastNamed (asked.columns.map fun col => (fieldName col.2, col.1)) name).map
        fun col => json (row (columnOf col)) := by
    intro name
    rw [tupleRow, sqlKey, map_map, zip_map', ← lastNamed_map, ← lastNamed_map, map_map, map_map]
    rfl
  simp only [distinctKey, shown, DistinctQuery.source, Option.map_map, ← Option.map_or]
  rfl

theorem distinctObject_inj {left right : String × String → Value}
    (eq : distinctObject asked.columns (asked.columns.map left) =
      distinctObject asked.columns (asked.columns.map right)) (mem : item ∈ asked.columns) :
    left item = right item := by
  have names : (asked.columns.map Prod.snd).Nodup := by
    rw [DistinctQuery.columns, map_map]
    exact asked.distinct
  have reads : ∀ v : String × String → Value,
      distinctObject asked.columns (asked.columns.map v) item.2 = some (v item) := by
    intro v
    rw [distinctObject, zip_map']
    have has : (item.2, v item) ∈ asked.columns.map fun col => (col.2, v col) :=
      mem_map.mpr ⟨item, mem, rfl⟩
    obtain ⟨last, isLast⟩ := exists_lastNamed_of_mem has
    obtain ⟨other, oth, shape⟩ := mem_map.mp (mem_of_lastNamed isLast)
    obtain ⟨eqName, isValue⟩ := Prod.mk.inj shape
    rw [isLast, ← isValue, inj_on_of_nodup_map names oth mem eqName]
  have equal := congrFun eq item.2
  rw [reads, reads] at equal
  exact Option.some.inj equal

end

/-! ## Whether the result is exact -/

/-- One row that tells a column from all others shows where its value comes from. -/
theorem named_of_exact {asked : DistinctQuery} (exact : asked.Exact) :
    distinctRuns (relationOf asked.select) asked.table.value asked.columns = true ∧
      ∀ x ∈ asked.columns, asked.source x = some (columnOf x.1) := by
  obtain ⟨plan, planned, isDistinct, tab, isFilter⟩ := planQuery_query asked
  obtain ⟨plan', xs, planned', isItems, exact⟩ := exact
  obtain rfl : plan' = plan := Except.ok.inj (planned'.symm.trans planned)
  obtain rfl : xs = asked.columns := Option.some.inj (isItems.symm.trans isDistinct)
  have single := fun row : Row Bool => exact Bool .bool (fun _ _ => Lib.JsonValue.Json.bool.inj)
    ⟨fun _ _ => true, fun _ _ => .null⟩ [row] [[row]] (.refl _)
  have runs : distinctRuns (relationOf asked.select) asked.table.value asked.columns = true := by
    obtain ⟨parts, told, -⟩ := single fun _ => true
    by_contra fails
    simp [distinctAnswer, tab, fails] at told
  refine ⟨runs, fun x member => ?_⟩
  obtain ⟨parts, told, both⟩ := single fun column => column = columnOf x.1
  simp only [distinctAnswer, tab, runs, if_true, mapM_cons, mapM_nil, Option.pure_def,
    Option.bind_eq_bind, Option.bind_some, Option.some.injEq] at told
  subst told
  rw [rows_eq] at both
  simp [selected, kept, mergeDistinct, distinctFrom] at both
  rw [distinctKey_tupleRow, sqlKey, map_map, map_map] at both
  have v := distinctObject_inj asked both member
  cases found : asked.source x with
  | none => simp [found] at v
  | some column => simpa [found] using v

/--
The result is exact exactly when the query names its table as the catalog does,
no output name has a quote, and the gateway finds every column under its output
name or, if that has been cut, under the column's own name.
-/
theorem distinct_rows_exact_iff (asked : DistinctQuery) : asked.Exact ↔
    distinctRuns (relationOf asked.select) asked.table.value asked.columns = true ∧
      ∀ item ∈ asked.columns, asked.source item = some (columnOf item.1) := by
  refine ⟨named_of_exact, ?_⟩
  rintro ⟨runs, read⟩
  obtain ⟨plan, planned, isDistinct, tab, isFilter⟩ := planQuery_query asked
  refine ⟨plan, asked.columns, planned, isDistinct, ?_⟩
  intro V _ json injective engine table slices shared
  have ans : distinctAnswer engine json (relationOf asked.select) plan asked.columns =
      fun slice => pure (((kept engine plan.filter slice).map
        (sqlKey (asked.columns.map Prod.fst))).dedup.map (tupleRow json asked.columns)) := by
    funext slice
    simp [distinctAnswer, tab, runs]
  have keyOf : ∀ row, distinctKey asked.columns
      (tupleRow json asked.columns (sqlKey (asked.columns.map Prod.fst) row)) =
        (sqlKey (asked.columns.map Prod.fst) row).map json := by
    intro row
    rw [distinctKey_tupleRow, sqlKey, map_map, map_map]
    exact map_congr_left fun item member => by rw [read item member]; rfl
  refine ⟨_, by rw [ans, mapM_pure]; rfl, (mergeDistinct_perm _ _).trans ?_⟩
  rw [rows_eq, ← Function.comp_def (distinctObject asked.columns), ← map_map]
  refine Perm.map _ ((perm_ext_iff_of_nodup (nodup_dedup _)
    ((nodup_dedup _).map injective.list_map)).mpr fun key => ?_)
  simp only [mem_dedup, mem_map, mem_flatten, exists_exists_and_eq_and, selected, ← isFilter]
  have eqRows : ∀ row, row ∈ kept engine plan.filter table ↔
      ∃ slice ∈ slices, row ∈ kept engine plan.filter slice := by
    intro row
    rw [(kept_perm shared plan.filter).mem_iff, mem_flatMap]
  constructor
  · rintro ⟨_, ⟨slice, isSlice, row, isRow, rfl⟩, rfl⟩
    exact ⟨row, (eqRows row).mpr ⟨slice, isSlice, isRow⟩, (keyOf row).symm⟩
  · rintro ⟨row, isRow, rfl⟩
    obtain ⟨slice, isSlice, inSlice⟩ := (eqRows row).mp isRow
    exact ⟨_, ⟨slice, isSlice, row, inSlice, rfl⟩, keyOf row⟩

/-- `SELECT DISTINCT kind AS aa… FROM events`, with an alias of so many letters. -/
def aliasedKind (letters : Nat) : DistinctQuery where
  table := ⟨"events", false⟩
  filter := none
  items := [(⟨[], ⟨"kind", false⟩⟩, some (String.ofList (replicate letters 'a')))]
  inhabited := nofun
  unquoted := by simp [ColumnRef.parts]
  distinct := by simp

/-- An alias of 64 letters comes back cut, and its column as NULL. -/
theorem long_alias_inexact : ¬ (aliasedKind 64).Exact := by
  intro exact
  have read := (named_of_exact exact).2 _ mem_cons_self
  revert read
  decide +kernel

end StorageOrchestrator.Aggregate.DistinctRows
