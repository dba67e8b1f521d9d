import Mathlib

/-!
# Grouping a list by a key

`groupFold` fills a map from keys to accumulators, one item after the other:
an item opens the entry of its key when there is none, and is then added to
it.  The map is a list of entries in the order of their first items; where a
hash map is meant, only its entries up to order are.

The main rule is `groupFold_perm`: there is one entry for every key that
occurs, and it holds the fold of the items of that key.
-/

namespace StorageOrchestrator.Lib.Grouping

open List

variable {Item Key Acc : Type*} [DecidableEq Key]

section

variable (key : Item → Key) (start : Acc) (add : Acc → Item → Acc)

/-- Give an item to the entry of its key. -/
def addItem (item : Item) : List (Key × Acc) → List (Key × Acc)
  | [] => [(key item, add start item)]
  | (other, acc) :: rest =>
    if other = key item then (other, add acc item) :: rest
    else (other, acc) :: addItem item rest

def groupFold (items : List Item) : List (Key × Acc) :=
  items.foldl (fun groups item => addItem key start add item groups) []

def itemsOf (wanted : Key) (items : List Item) : List Item :=
  items.filter fun item => key item = wanted

theorem groupFold_concat (xs : List Item) (x : Item) : groupFold key start add (xs ++ [x]) =
      addItem key start add x (groupFold key start add xs) := by
  simp [groupFold]

variable {key start add}

theorem keys_addItem (x : Item) (gs : List (Key × Acc)) :
    (addItem key start add x gs).map Prod.fst =
      if key x ∈ gs.map Prod.fst then gs.map Prod.fst
      else gs.map Prod.fst ++ [key x] := by
  induction gs with
  | nil => simp [addItem]
  | cons entry rest ih =>
    simp only [addItem]
    by_cases eqKey : entry.1 = key x
    · simp [eqKey]
    · simp only [eqKey, if_false, map_cons, ih, mem_cons, Ne.symm eqKey, false_or]
      split <;> rfl

/-- Entries of other keys stay as they are. -/
theorem mem_addItem_of_ne (ne : wanted ≠ key x) (groups : List (Key × Acc)) :
    (wanted, acc) ∈ addItem key start add x groups ↔ (wanted, acc) ∈ groups := by
  induction groups with
  | nil => simp [addItem, ne]
  | cons entry rest ih =>
    rcases entry with ⟨other, old⟩
    simp only [addItem]
    by_cases eqKey : other = key x
    · simp [eqKey, ne]
    · simp [eqKey, ih]

theorem mem_addItem_self (here : (key item, old) ∈ groups)
    (nodup : (groups.map Prod.fst).Nodup) (acc : Acc) :
    (key item, acc) ∈ addItem key start add item groups ↔ acc = add old item := by
  induction groups with
  | nil => cases here
  | cons entry rest ih =>
    rcases entry with ⟨other, first⟩
    simp only [map_cons, nodup_cons] at nodup
    simp only [addItem]
    by_cases eqKey : other = key item
    · subst eqKey
      have gone : ∀ v, (key item, v) ∉ rest := by
        intro v mem
        exact nodup.1 (mem_map_of_mem mem)
      have hfst : old = first := by
        rcases mem_cons.mp here with eq | later
        · exact congrArg Prod.snd eq
        · exact absurd later (gone old)
      simp [hfst, gone]
    · have later : (key item, old) ∈ rest := by
        rcases mem_cons.mp here with eq | later
        · exact absurd (congrArg Prod.fst eq).symm eqKey
        · exact later
      simp [eqKey, Ne.symm eqKey, ih later nodup.2]

/-- A key without an entry gets one from the start. -/
theorem mem_addItem_new {gs : List (Key × Acc)} (gone : key item ∉ gs.map Prod.fst) (acc : Acc) :
    (key item, acc) ∈ addItem key start add item gs ↔ acc = add start item := by
  induction gs with
  | nil => simp [addItem]
  | cons entry rest ih =>
    simp only [map_cons, mem_cons, not_or] at gone
    simp only [addItem, Ne.symm gone.1, if_false, mem_cons]
    rw [ih gone.2, or_iff_right]
    intro eq
    exact gone.1 (congrArg Prod.fst eq)

variable (key start add)

theorem keys_groupFold (xs : List Item) : ((groupFold key start add xs).map Prod.fst).Nodup ∧
      ∀ want, want ∈ (groupFold key start add xs).map Prod.fst ↔ want ∈ xs.map key := by
  induction xs using reverseRecOn with
  | nil => simp [groupFold]
  | append_singleton xs x ih =>
    rcases ih with ⟨nodup, occurs⟩
    rw [groupFold_concat, keys_addItem]
    split
    · rename_i here
      refine ⟨nodup, fun want => ?_⟩
      rw [occurs, map_append, mem_append]
      constructor
      · exact .inl
      · rintro (pre | last)
        · exact pre
        · rw [map_singleton, mem_singleton] at last
          rw [last]
          exact (occurs _).mp here
    · rename_i gone
      refine ⟨?_, fun want => ?_⟩
      · rw [nodup_append]
        refine ⟨nodup, nodup_singleton _, ?_⟩
        intro want mem other isLast eq
        rw [mem_singleton] at isLast
        rw [eq, isLast] at mem
        exact gone mem
      · rw [mem_append, occurs, map_append, mem_append, map_singleton]

theorem mem_groupFold (items : List Item) (want : Key) (acc : Acc) :
    (want, acc) ∈ groupFold key start add items ↔ want ∈ items.map key ∧
      acc = (itemsOf key want items).foldl add start := by
  induction items using reverseRecOn generalizing acc with
  | nil => simp [groupFold]
  | append_singleton items x ih =>
    rcases keys_groupFold key start add items with ⟨nodup, occurs⟩
    rw [groupFold_concat]
    by_cases eqKey : want = key x
    · subst eqKey
      have lastItem : itemsOf key (key x) (items ++ [x]) = itemsOf key (key x) items ++ [x] := by
        simp [itemsOf]
      have isKey : key x ∈ (items ++ [x]).map key := by simp
      rw [lastItem, foldl_append]
      simp only [isKey, true_and, foldl_cons, foldl_nil]
      by_cases pre : key x ∈ items.map key
      · exact mem_addItem_self ((ih _).mpr ⟨pre, rfl⟩) nodup acc
      · have noneBefore : itemsOf key (key x) items = [] := by
          rw [itemsOf, filter_eq_nil_iff]
          intro other mem eq
          apply pre
          rw [← of_decide_eq_true eq]
          exact mem_map_of_mem mem
        rw [mem_addItem_new (fun here => pre ((occurs _).mp here)), noneBefore, foldl_nil]
    · have eqItems : itemsOf key want (items ++ [x]) = itemsOf key want items := by
        simp [itemsOf, Ne.symm eqKey]
      rw [mem_addItem_of_ne eqKey, ih, eqItems]
      simp [eqKey]

/-- One entry for every key that occurs, with the fold of its items. -/
theorem groupFold_perm (xs : List Item) : (groupFold key start add xs).Perm
      ((xs.map key).dedup.map fun want =>
      (want, (itemsOf key want xs).foldl add start)) := by
  rw [perm_ext_iff_of_nodup]
  · rintro ⟨want, acc⟩
    rw [mem_groupFold]
    constructor
    · rintro ⟨occurs, rfl⟩
      exact mem_map.mpr ⟨want, mem_dedup.mpr occurs, rfl⟩
    · intro mem
      rcases mem_map.mp mem with ⟨other, occurs, eq⟩
      cases eq
      exact ⟨mem_dedup.mp occurs, rfl⟩
  · exact (keys_groupFold key start add xs).1.of_map _
  · apply (nodup_dedup _).map
    intro left right eq
    exact congrArg Prod.fst eq

end

/-! ## Keys that determine each other -/

section

variable {Other : Type*} [DecidableEq Other]

/-- Translating the keys one to one translates the distinct keys. -/
theorem dedup_map_perm {xs : List Item} {key : Item → Key}
    {other : Item → Other} {translate : Key → Other}
    (translates : ∀ x ∈ xs, other x = translate (key x))
    (ne : ∀ left ∈ xs, ∀ right ∈ xs, other left = other right → key left = key right) :
    (xs.map other).dedup.Perm ((xs.map key).dedup.map translate) := by
  rw [perm_ext_iff_of_nodup (nodup_dedup _)]
  · intro want
    simp only [mem_dedup, mem_map]
    constructor
    · rintro ⟨x, mem, rfl⟩
      exact ⟨key x, ⟨x, mem, rfl⟩, (translates x mem).symm⟩
    · rintro ⟨_, ⟨x, mem, rfl⟩, rfl⟩
      exact ⟨x, mem, translates x mem⟩
  · apply (nodup_dedup _).map_on
    simp only [mem_dedup, mem_map]
    rintro _ ⟨left, leftMember, rfl⟩ _ ⟨right, rightMember, rfl⟩ eq
    apply ne left leftMember right rightMember
    rw [translates left leftMember, translates right rightMember, eq]

end

/-! ## Parts of a list -/

section

/-- A relation of accumulators and read items is kept along the parts. -/
theorem foldl_flatten (rel : Acc → List Item → Prop) (kept : ∀ acc seen part,
      rel acc seen → rel (add acc part) (seen ++ part)) (parts : List (List Item))
    (acc : Acc) (seen : List Item) (h : rel acc seen) :
    rel (parts.foldl add acc) (seen ++ parts.flatten) := by
  induction parts generalizing acc seen with
  | nil =>
    rw [flatten_nil, append_nil]
    exact h
  | cons part parts ih =>
    rw [flatten_cons, ← append_assoc]
    exact ih _ _ (kept acc seen part h)

/-- The group of a key, if there is one, has all the items of the key. -/
theorem flatten_groups (want : Key) (items : List Item) :
    (((items.map key).dedup.filter fun other => other = want).map
      fun other => itemsOf key other items).flatten = itemsOf key want items := by
  rw [filter_eq, count_dedup, map_replicate]
  split
  · rw [replicate_one, flatten_singleton]
  · rename_i gone
    rw [replicate_zero, flatten_nil, eq_comm, itemsOf, filter_eq_nil_iff]
    intro x mem eq
    apply gone
    rw [← of_decide_eq_true eq]
    exact mem_map_of_mem mem

end

end StorageOrchestrator.Lib.Grouping
