import StorageOrchestrator.Lib.Windows
import StorageOrchestrator.Read.Pushdown

/-!
# ORDER BY, LIMIT and OFFSET on fan-out reads

The query is sent to the providers as it is, so every provider sorts, skips
and cuts its own slice, and the gateway neither sorts nor cuts again: rows
that show the primary key come back in the order of a hash map, the others in
the order of the providers.

The returned list is the window of the whole table in the special case that
every slice's window holds just the rows of the whole table's window, that the
windows follow each other in the order of the providers, and that at most one
row shows the key.
-/

namespace StorageOrchestrator.Read.Windows

open Lib.FirstPerKey Lib.KeyedMerge Lib.Windows Mesh.Reads Read.Sql Read.Fanout Read.Pushdown List

/-! ## Orders -/

/-- The order of an ORDER BY clause. -/
abbrev Precedes (order : SortOrder) (left right : Tuple) : Prop := order.before left right

instance totalOrder (order : SortOrder) : Std.Total (Precedes order) where
  total left right := by
    have either := order.total left right
    rw [Bool.or_eq_true] at either
    exact either

instance transOrder (order : SortOrder) : IsTrans Tuple (Precedes order) where
  trans _ _ _ := order.trans

theorem apply_eq_window {bounds : Bounds} (isOrder : bounds.order = some order)
    (rows : List Tuple) :
    bounds.apply rows = window (Precedes order) bounds.offset bounds.limit rows := by
  rcases bounds with ⟨_, limit, offset⟩
  simp only at isOrder
  subst isOrder
  cases limit <;> rfl

/-! ## Exactness and its condition -/

/--
The read returns the list of the query over the whole table, in whatever order
the map gives its rows back.
-/
def ReadsInOrder (schema : Schema) (pk : String) (query : Query)
    (whole : Database) (providers : List Database) : Prop :=
  ∀ hashes, fanoutRead hashes schema pk query providers [] = .ok (query.answer schema whole)

/-- The window of a query over some rows. -/
def shownRows (order : SortOrder) (bounds : Bounds) (rows : List Tuple) : List Tuple :=
  window (Precedes order) bounds.offset bounds.limit rows

/--
When the windows of the slices are the window of the table: every row is
within its slice's window whenever it is within the table's, rows without the
key follow each other in the order of the providers, and at most one row shows
the key, the first.
-/
structure Aligned (schema : Schema) (pk : String) (query : Query)
    (order : SortOrder) (rows : Database → List Tuple) (whole : Database)
    (providers : List Database) : Prop where
  sameWindow : ∀ database ∈ providers, ∀ row ∈ rows database,
    InWindow (Precedes order) query.bounds.offset query.bounds.limit (rows database) row ↔
      InWindow (Precedes order) query.bounds.offset query.bounds.limit (rows whole) row
  inOrder : providers.Pairwise fun first second =>
    ∀ left ∈ shownRows order query.bounds (rows first),
      ∀ right ∈ shownRows order query.bounds (rows second),
        withoutKey schema pk query left → withoutKey schema pk query right →
          Precedes order left right
  keyedFirst : MarkedFirst (Precedes order) (fun row => !withoutKey schema pk query row)
    (shownRows order query.bounds (rows whole))

/-- Different rows look different, and no key is shown twice. -/
structure Legible (schema : Schema) (pk : String) (query : Query) (rows : List Tuple) : Prop where
  shown : ∀ left ∈ rows, ∀ right ∈ rows, wireRow (query.body.names schema) left =
      wireRow (query.body.names schema) right → left = right
  keys : ((rows.map (wireRow (query.body.names schema))).filterMap (keyText pk)).Nodup

theorem Legible.eq_of_shown (legible : Legible schema pk query rows) (hfst : first ⊆ rows)
    (hsnd : second ⊆ rows) (eq : first.map (wireRow (query.body.names schema)) =
      second.map (wireRow (query.body.names schema))) : first = second := by
  induction first generalizing second with
  | nil => exact (map_eq_nil_iff.mp eq.symm).symm
  | cons row first ih =>
    cases second with
    | nil => cases eq
    | cons other second =>
      rw [map_cons, map_cons, cons.injEq] at eq
      rw [cons_subset] at hfst hsnd
      rw [legible.shown row hfst.1 other hsnd.1 eq.1, ih hfst.2 hsnd.2 eq.2]

/-! ## Merged windows -/

section

variable {schema : Schema} {pk : String} {query : Query} {order : SortOrder}
  {rows : Database → List Tuple} {whole : Database} {providers : List Database}
  (ordered : Ordered (Precedes order) (rows whole))
  (divided : (rows whole).Perm (providers.flatMap rows))
include ordered divided

omit ordered divided in
/-- The rows without the key come as the providers are asked. -/
theorem keyless_sorted_iff : (((providers.flatMap fun db =>
      shownRows order query.bounds (rows db)).filter
      (withoutKey schema pk query)).Pairwise (Precedes order)) ↔
      providers.Pairwise fun first second =>
      ∀ left ∈ shownRows order query.bounds (rows first),
      ∀ right ∈ shownRows order query.bounds (rows second), withoutKey schema pk query left →
      withoutKey schema pk query right → Precedes order left right := by
  have eachSorted : ∀ db ∈ providers, ((shownRows order query.bounds (rows db)).filter
        (withoutKey schema pk query)).Pairwise (Precedes order) := by
    intro db _
    exact window_sorted.filter _
  rw [filter_flatMap, pairwise_flatMap, and_iff_right eachSorted]
  apply List.Pairwise.iff
  intro first second
  simp only [mem_filter]
  constructor
  · intro sorted left hl right hr leftKeyless rightKeyless
    exact sorted left ⟨hl, leftKeyless⟩ right ⟨hr, rightKeyless⟩
  · intro sorted left hl right hr
    exact sorted left hl.1 right hr.1 hl.2 hr.2

theorem merge_of_aligned (even : Aligned schema pk query order rows whole providers)
    (hashes : Arrangement WireRow) :
    merge (keyText pk) hashes ((providers.flatMap fun db =>
      shownRows order query.bounds (rows db)).map (wireRow (query.body.names schema))) =
      (shownRows order query.bounds (rows whole)).map (wireRow (query.body.names schema)) := by
  have windowOrdered : Ordered (Precedes order)
      (shownRows order query.bounds (rows whole)) := window_ordered ordered
  have sorted : (shownRows order query.bounds (rows whole)).Pairwise
      (Precedes order) := window_sorted
  have eq : (providers.flatMap fun db =>
      shownRows order query.bounds (rows db)).Perm (shownRows order query.bounds (rows whole)) :=
    (flatMap_window_perm_iff ordered divided).mpr even.sameWindow
  have split := (markedFirst_iff windowOrdered sorted).mp even.keyedFirst
  simp only [Bool.not_not] at split
  have eqKeyed := eq.filter fun row => !withoutKey schema pk query row
  have eqRest := eq.filter (withoutKey schema pk query)
  have keyedEq := eq_of_perm_of_short eqKeyed split.1
  have keylessEq := List.Perm.eq_of_pairwise (fun left right hl hr => windowOrdered.antisymm
      left (mem_of_mem_filter (eqRest.subset hl))
      right (mem_of_mem_filter hr))
    (keyless_sorted_iff.mpr even.inOrder) (sorted.filter _)
    eqRest
  have short : (keyed (keyText pk) ((shownRows order query.bounds (rows whole)).map
        (wireRow (query.body.names schema)))).length ≤ 1 := by
    rw [keyed_map, length_map]
    exact split.1
  refine forall_merge_eq_iff.mpr ⟨?_, short, ?_, ?_⟩ hashes
  · rw [keyed_map, keyedEq, ← keyed_map]
    exact firstPerKey_of_short short
  · rw [keyless_map, keyless_map, keylessEq]
  · rw [keyed_map, keyless_map, ← map_append, split.2]

theorem aligned_of_merge (legible : Legible schema pk query (rows whole))
    (exactly : ∀ hashes, merge (keyText pk) hashes ((providers.flatMap fun db =>
      shownRows order query.bounds (rows db)).map (wireRow (query.body.names schema))) =
      (shownRows order query.bounds (rows whole)).map (wireRow (query.body.names schema))) :
    Aligned schema pk query order rows whole providers := by
  have windowOrdered : Ordered (Precedes order)
      (shownRows order query.bounds (rows whole)) := window_ordered ordered
  have sorted : (shownRows order query.bounds (rows whole)).Pairwise
      (Precedes order) := window_sorted
  have mem : shownRows order query.bounds (rows whole) ⊆ rows whole := by
    intro row isShown
    exact ((mem_window_iff ordered).mp isShown).1
  have inSlices : (providers.flatMap fun db =>
      shownRows order query.bounds (rows db)) ⊆ rows whole :=
    flatMap_window_subset ordered divided
  have slicesPart : (providers.flatMap fun db =>
      shownRows order query.bounds (rows db)).Subperm (rows whole) :=
    subperm_of_subset (flatMap_window_nodup ordered divided) inSlices
  rcases slicesPart with ⟨part, samePart, sublist⟩
  have distinctKeys := nodup_keys_of_subperm ⟨_, samePart.map (wireRow (query.body.names schema)),
      sublist.map (wireRow (query.body.names schema))⟩ legible.keys
  rcases forall_merge_eq_iff.mp exactly with ⟨keyedEq, short, keylessEq, inOrder⟩
  rw [firstPerKey_of_nodup distinctKeys, keyed_map, keyed_map] at keyedEq
  rw [keyed_map, length_map] at short
  rw [keyless_map, keyless_map] at keylessEq
  rw [keyed_map, keyless_map, ← map_append] at inOrder
  have parted : ∀ {shown : List Tuple},
      ((shown.filter fun row => !withoutKey schema pk query row) ++
        shown.filter (withoutKey schema pk query)).Perm shown := by
    intro shown
    have split := filter_append_perm (fun row => !withoutKey schema pk query row) shown
    simpa using split
  have eqKeyed := legible.eq_of_shown (List.Subset.trans filter_sublist.subset inSlices)
    (List.Subset.trans filter_sublist.subset mem) keyedEq
  have eqRest := legible.eq_of_shown (List.Subset.trans filter_sublist.subset inSlices)
    (List.Subset.trans filter_sublist.subset mem) keylessEq
  have split := legible.eq_of_shown (List.Subset.trans parted.subset mem) mem inOrder
  have eq : (providers.flatMap fun db =>
      shownRows order query.bounds (rows db)).Perm (shownRows order query.bounds (rows whole)) := by
    refine parted.symm.trans ?_
    rw [eqKeyed, eqRest]
    exact parted
  constructor
  · exact (flatMap_window_perm_iff ordered divided).mp eq
  · rw [← keyless_sorted_iff, eqRest]
    exact sorted.filter _
  · rw [markedFirst_iff windowOrdered sorted]
    simp only [Bool.not_not]
    exact ⟨short, split⟩

end

/-! ## Reads with ORDER BY -/

section

variable {query : Query} {select : Select} {name : String} {order : SortOrder}
  (body : query.body = .select select) (single : select.sources = [⟨.table name, []⟩])
  (accepted : analyzeSelect query = .ok .read) (isOrder : query.bounds.order = some order)

include body single accepted in
/-- A SELECT DISTINCT from one table is not a read. -/
theorem repeating_of_accepted : select.distinct = .absent := by
  simp only [analyzeSelect, body, analyzePlain, single] at accepted
  split at accepted
  · cases accepted
  · split at accepted
    · cases accepted
    · rename_i plain
      simp only [Select.needsAggregate, single] at plain
      cases isDistinct : select.distinct with
      | absent => rfl
      | distinct | on key => simp [isDistinct] at plain

include body single accepted isOrder in
theorem answer_eq_shownRows (schema : Schema) (db : Database) : query.answer schema db =
      (shownRows order query.bounds (select.projected schema db)).map
      (wireRow (query.body.names schema)) := by
  have repeating := repeating_of_accepted body single accepted
  rw [Query.answer, Query.rows, apply_eq_window isOrder]
  simp only [body, SetExpr.rows, Select.rows, repeating]
  rfl

end

/-- The number in the first column. -/
def leadingNumber : Tuple → Int
  | .integer number :: _ => number
  | _ => 0

def byNumber : SortOrder where
  before left right := leadingNumber left ≤ leadingNumber right
  total left right := by
    rw [Bool.or_eq_true, decide_eq_true_eq, decide_eq_true_eq]
    exact Int.le_total _ _
  trans firstBefore secondBefore := by
    rw [decide_eq_true_eq] at firstBefore secondBefore ⊢
    exact Int.le_trans firstBefore secondBefore

def kindsSelect : Select :=
  { sources := [{ relation := .table "events", joins := [] }]
    selection := none
    grouped := false
    having := false
    distinct := .absent
    projection := [.unnamed (columnExpr "event_kind") "event_kind"] }

/-- `SELECT event_kind FROM events ORDER BY event_kind LIMIT … OFFSET …`. -/
def kindsQuery (limit : Option Nat) (offset : Nat) : Query :=
  { hasWith := false
    hasFetch := false
    hasLocks := false
    body := .select kindsSelect
    bounds :=
      { order := some byNumber
        limit := limit
        offset := offset } }

/-- Events of three kinds, on the first provider. -/
def lowKinds : Mesh.Table.Content := [storedEvent "ab" 1, storedEvent "cd" 2, storedEvent "ef" 3]

/-- An event of a fourth kind, on the second provider. -/
def highKinds : Mesh.Table.Content := [storedEvent "01" 4]

end StorageOrchestrator.Read.Windows
