import Mathlib

/-!
# The first element of every key

A map filled with insert-if-absent, or a query that keeps the first row of
every group, keeps the first element of every key.
-/

namespace StorageOrchestrator.Lib.FirstPerKey

open List

variable {Item Key : Type*} [DecidableEq Key]

def firstPerKey (key : Item → Key) : List Item → List Item
  | [] => []
  | item :: items =>
    item :: (firstPerKey key items).filter fun other =>
      key other ≠ key item

theorem firstPerKey_subset (key : Item → Key) (items : List Item) :
    firstPerKey key items ⊆ items := by
  induction items with
  | nil => exact List.Subset.refl _
  | cons x items ih =>
    apply cons_subset_cons
    intro other mem
    exact ih (mem_filter.mp mem).1

/-- Of one key, the first element is kept and no other. -/
theorem filter_firstPerKey (key : Item → Key) (wanted : Key) (xs : List Item) :
    (firstPerKey key xs).filter (fun x => key x = wanted) =
      (xs.find? fun x => key x = wanted).toList := by
  induction xs with
  | nil => rfl
  | cons x xs ih =>
    simp only [firstPerKey]
    by_cases isWanted : key x = wanted
    · have noOther : ((firstPerKey key xs).filter fun other =>
          key other ≠ key x).filter (fun other => key other = wanted) = [] := by
        rw [filter_eq_nil_iff]
        intro other mem eqKey
        have ne := (mem_filter.mp mem).2
        simp only [decide_eq_true_eq] at eqKey
        simp [eqKey, isWanted] at ne
      rw [filter_cons_of_pos (by simpa using isWanted), noOther,
        find?_cons_of_pos (by simpa using isWanted)]
      rfl
    · have allKept : ((firstPerKey key xs).filter fun other =>
          key other ≠ key x).filter (fun other => key other = wanted) =
            (firstPerKey key xs).filter fun other =>
              key other = wanted := by
        rw [filter_filter]
        apply filter_congr
        intro other mem
        by_cases eqKey : key other = wanted
        · simp [eqKey, Ne.symm isWanted]
        · simp [eqKey]
      rw [filter_cons_of_neg (by simpa using isWanted), allKept,
        ih, find?_cons_of_neg (by simpa using isWanted)]

theorem nodup_map_firstPerKey (key : Item → Key) (xs : List Item) :
    ((firstPerKey key xs).map key).Nodup := by
  induction xs with
  | nil => exact nodup_nil
  | cons x xs ih =>
    rw [firstPerKey, map_cons, nodup_cons]
    constructor
    · intro again
      rcases mem_map.mp again with ⟨other, mem, eqKey⟩
      exact of_decide_eq_true (mem_filter.mp mem).2 eqKey
    · exact (filter_sublist.map key).nodup ih

theorem firstPerKey_of_nodup
    {key : Item → Key} {items : List Item} (nodup : (items.map key).Nodup) :
    firstPerKey key items = items := by
  induction items with
  | nil => rfl
  | cons x items ih =>
    rw [map_cons, nodup_cons] at nodup
    rw [firstPerKey, ih nodup.2, filter_eq_self.mpr]
    intro other mem
    apply decide_eq_true
    intro eqKey
    exact nodup.1 (mem_map.mpr ⟨other, mem, eqKey⟩)

theorem firstPerKey_append (key : Item → Key) (items more : List Item) :
    firstPerKey key (items ++ more) = firstPerKey key items ++
      (firstPerKey key more).filter fun other => key other ∉ items.map key := by
  induction items with
  | nil => simp [firstPerKey]
  | cons item items ih =>
    simp only [cons_append, firstPerKey, ih, filter_append, filter_filter]
    congr 3
    funext other
    simp [not_or]

/-- Elements whose keys came before add nothing. -/
theorem firstPerKey_append_of_subset {key : Item → Key} {items more : List Item}
    (nodup : (items.map key).Nodup) (known : more.map key ⊆ items.map key) :
    firstPerKey key (items ++ more) = items := by
  have nothing : (firstPerKey key more).filter (fun other => key other ∉ items.map key) = [] := by
    rw [filter_eq_nil_iff]
    intro other mem
    have seen := known (mem_map_of_mem (firstPerKey_subset key more mem))
    simpa using seen
  rw [firstPerKey_append, firstPerKey_of_nodup nodup, nothing, append_nil]

/-- Nothing is lost when the key tells the elements apart. -/
theorem mem_firstPerKey_of_injective {key : Item → Key} {items : List Item}
    (inj : ∀ left ∈ items, ∀ right ∈ items, key left = key right → left = right) {item : Item}
    (mem : item ∈ items) :
    item ∈ firstPerKey key items := by
  have found : (items.find? fun other => key other = key item).isSome := by
    rw [find?_isSome]
    exact ⟨item, mem, decide_eq_true rfl⟩
  rcases Option.isSome_iff_exists.mp found with ⟨first, hfst⟩
  have eqKey : key first = key item := by simpa using find?_some hfst
  have sameItem : first = item := inj first (mem_of_find?_eq_some hfst) item mem eqKey
  have kept := filter_firstPerKey key (key item) items
  rw [hfst, sameItem] at kept
  have inFilter : item ∈ (firstPerKey key items).filter fun other =>
      key other = key item := by
    rw [kept]
    exact mem_singleton_self item
  exact (mem_filter.mp inFilter).1

end StorageOrchestrator.Lib.FirstPerKey
