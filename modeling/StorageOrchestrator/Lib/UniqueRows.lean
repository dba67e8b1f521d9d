import Mathlib

/-!
# Tables with a unique key

A table is a list of rows no two of which share a key, so a key names at most
one row.  Rows are inserted under a new key or changed in place; they are
never deleted.
-/

namespace StorageOrchestrator.Lib

open List hiding after

variable {Row Key : Type*}

structure UniqueRows (key : Row → Key) where
  rows : List Row
  distinct : (rows.map key).Nodup

/-- A change of a row that leaves its key. -/
structure RowChange (key : Row → Key) where
  apply : Row → Row
  keeps : ∀ row, key (apply row) = key row

namespace UniqueRows

variable {key : Row → Key} [DecidableEq Key]

def find (table : UniqueRows key) (name : Key) : Option Row :=
  table.rows.find? fun row => key row = name

theorem mem_of_find {table : UniqueRows key} (found : table.find name = some row)
    : row ∈ table.rows ∧ key row = name :=
  ⟨mem_of_find?_eq_some found, by simpa using find?_some found⟩

theorem find_of_mem {table : UniqueRows key} (mem : row ∈ table.rows)
    : table.find (key row) = some row := by
  cases found : table.find (key row) with
  | none =>
    have differs := find?_eq_none.mp found row mem
    simp at differs
  | some other =>
    have oth := mem_of_find found
    have eq := inj_on_of_nodup_map table.distinct oth.1 mem oth.2
    rw [eq]

def update (table : UniqueRows key) (name : Key) (change : RowChange key) : UniqueRows key where
  rows := table.rows.map fun row =>
    if key row = name then change.apply row else row
  distinct := by
    have same : (table.rows.map fun row =>
        if key row = name then change.apply row else row).map key =
          table.rows.map key := by
      rw [List.map_map]
      apply List.map_congr_left
      intro row member
      by_cases isName : key row = name
      · simp [isName, change.keeps]
      · simp [isName]
    rw [same]
    exact table.distinct

/-- Add a row unless its key is taken. -/
def insert (table : UniqueRows key) (row : Row) : Option (UniqueRows key) :=
  if absent : key row ∈ table.rows.map key then none
  else
    some
      { rows := row :: table.rows
        distinct := List.nodup_cons.mpr ⟨absent, table.distinct⟩ }

/-- Add a row, or change the one that has its key. -/
def put (table : UniqueRows key) (row : Row) (change : RowChange key) : UniqueRows key :=
  (table.insert row).getD (table.update (key row) change)

section

variable {table : UniqueRows key}

theorem mem_update : row ∈ (table.update name change).rows ↔
      ∃ old ∈ table.rows, (if key old = name then change.apply old else old) = row := by
  simp [update]

theorem mem_update_of_ne (mem : row ∈ table.rows) (other : key row ≠ name)
    : row ∈ (table.update name change).rows :=
  mem_update.mpr ⟨row, mem, by simp [other]⟩

theorem find_of_update_none (gone : (table.update name edit).find other = none) :
    table.find other = none := by
  cases found : table.find other with
  | none => rfl
  | some row =>
    have isRow := mem_of_find found
    have mem : (if key row = name then edit.apply row else row) ∈ (table.update name edit).rows :=
      mem_update.mpr ⟨row, isRow.1, rfl⟩
    have post := find_of_mem mem
    have eqKey : key (if key row = name then edit.apply row else row) =
        other := by
      split
      · rw [edit.keeps, isRow.2]
      · exact isRow.2
    rw [eqKey, gone] at post
    cases post

theorem mem_insert (put : table.insert row = some after) :
    other ∈ after.rows ↔ other = row ∨ other ∈ table.rows := by
  rw [insert] at put
  split at put
  · cases put
  · cases put
    exact mem_cons

theorem mem_put_of_ne (mem : other ∈ table.rows) (ne : key other ≠ key row) :
    other ∈ (table.put row change).rows := by
  rw [put]
  cases inserted : table.insert row with
  | none =>
    show other ∈ (table.update (key row) change).rows
    exact mem_update_of_ne mem ne
  | some post => exact (mem_insert inserted).mpr (.inr mem)

/-- The row put is there afterwards, new or changed. -/
theorem exists_mem_put (row : Row) : ∃ placed ∈ (table.put row chg).rows,
      key placed = key row ∧ (placed = row ∨ ∃ old, placed = chg.apply old) := by
  rw [put]
  cases inserted : table.insert row with
  | none =>
    rw [insert] at inserted
    split at inserted
    · rename_i ran
      rcases mem_map.mp ran with ⟨old, mem, eq⟩
      have isChanged : chg.apply old ∈ (table.update (key row) chg).rows :=
        mem_update.mpr ⟨old, mem, by simp [eq]⟩
      refine ⟨chg.apply old, isChanged, ?_, .inr ⟨old, rfl⟩⟩
      rw [chg.keeps, eq]
    · cases inserted
  | some post =>
    exact ⟨row, (mem_insert inserted).mpr (.inl rfl), rfl, .inl rfl⟩

/-- Of two rows with a property one has another key than the given one. -/
theorem exists_other (several : 1 < (table.rows.filter property).length) (name : Key) :
    ∃ row ∈ table.rows, property row = true ∧ key row ≠ name := by
  have nodup : ((table.rows.filter property).map key).Nodup :=
    table.distinct.sublist (filter_sublist.map key)
  match isFilter : table.rows.filter property with
  | [] | [_] => simp [isFilter] at several
  | first :: second :: rest =>
    have hfst : first ∈ table.rows ∧ property first = true :=
      mem_filter.mp (isFilter ▸ mem_cons_self)
    have hsnd : second ∈ table.rows ∧ property second = true := mem_filter.mp
        (isFilter ▸ mem_cons_of_mem _ mem_cons_self)
    rw [isFilter] at nodup
    have ne : key first ≠ key second := by
      intro eq
      simp [eq] at nodup
    by_cases isName : key first = name
    · exact ⟨second, hsnd.1, hsnd.2, fun eq =>
        ne (isName.trans eq.symm)⟩
    · exact ⟨first, hfst.1, hfst.2, isName⟩

end

end UniqueRows

end StorageOrchestrator.Lib
