import StorageOrchestrator.Lib.FirstPerKey

/-!
# Merging by an optional key

Items that carry a key go through a map that keeps the first item of every
key and gives its items back in some order; items without a key are kept as
they come.  A merge of items that cover a list, possibly with repetitions, is
that list precisely when its keys are distinct and no item without a key is
repeated.
-/

namespace StorageOrchestrator.Lib.KeyedMerge

open Lib.FirstPerKey List

variable {Item Key : Type*} [DecidableEq Key]

/-- An order in which a map gives its items back. -/
structure Arrangement (Item : Type*) where
  arrange : List Item → List Item
  perm : ∀ items, (arrange items).Perm items

variable (key : Item → Option Key)

def keyed (items : List Item) : List Item := items.filter fun item => (key item).isSome

def keyless (items : List Item) : List Item := items.filter fun item => (key item).isNone

/-- The first item of every key, in some order, then the items without one. -/
def merge (arrangement : Arrangement Item) (items : List Item) : List Item :=
  arrangement.arrange (firstPerKey key (keyed key items)) ++ keyless key items

variable {key}

omit [DecidableEq Key] in
theorem keyed_append_keyless (items : List Item) :
    (keyed key items ++ keyless key items).Perm items := by
  have split := filter_append_perm (fun x => (key x).isSome) items
  simpa [keyed, keyless] using split

theorem keyed_merge (order : Arrangement Item) (xs : List Item) :
    keyed key (merge key order xs) = order.arrange (firstPerKey key (keyed key xs)) := by
  have allKeyed : (order.arrange (firstPerKey key
      (keyed key xs))).filter (fun x => (key x).isSome) =
        order.arrange (firstPerKey key (keyed key xs)) := by
    rw [filter_eq_self]
    intro x mem
    have inKeyed := firstPerKey_subset key _ ((order.perm _).subset mem)
    exact (mem_filter.mp inKeyed).2
  have noneKeyed : (keyless key xs).filter (fun x => (key x).isSome) = [] := by
    rw [filter_eq_nil_iff]
    intro x mem isKeyed
    have isKeyless := (mem_filter.mp mem).2
    rw [Option.isNone_iff_eq_none] at isKeyless
    rw [isKeyless] at isKeyed
    cases isKeyed
  rw [keyed, merge, filter_append, allKeyed, noneKeyed, append_nil]

theorem keyless_merge (order : Arrangement Item) (items : List Item) :
    keyless key (merge key order items) = keyless key items := by
  have noneKeyless : (order.arrange (firstPerKey key
      (keyed key items))).filter (fun x => (key x).isNone) = [] := by
    rw [filter_eq_nil_iff]
    intro x mem isKeyless
    have inKeyed := firstPerKey_subset key _ ((order.perm _).subset mem)
    have isKeyed := (mem_filter.mp inKeyed).2
    rw [Option.isNone_iff_eq_none] at isKeyless
    rw [isKeyless] at isKeyed
    cases isKeyed
  rw [keyless, merge, filter_append, noneKeyless, nil_append]
  exact filter_eq_self.mpr fun x mem => (mem_filter.mp mem).2

omit [DecidableEq Key] in
theorem filterMap_eq_map_keyed (xs : List Item) :
    (xs.filterMap key).map some = (keyed key xs).map key := by
  induction xs with
  | nil => rfl
  | cons x xs ih =>
    cases isKey : key x with
    | none | some text =>
      simp [keyed, isKey] at ih ⊢
      exact ih

omit [DecidableEq Key] in
theorem nodup_keys_iff (xs : List Item) :
    ((keyed key xs).map key).Nodup ↔ (xs.filterMap key).Nodup := by
  rw [← filterMap_eq_map_keyed]
  exact nodup_map_iff fun _ _ => Option.some.inj

omit [DecidableEq Key] in
theorem nodup_keys_of_subperm {xs : List Item} (part : xs.Subperm whole)
    (nodup : (whole.filterMap key).Nodup) :
    ((keyed key xs).map key).Nodup := by
  rcases part with ⟨items', eq, sublist⟩
  rw [nodup_keys_iff, ← (eq.filterMap key).nodup_iff]
  exact (sublist.filterMap key).nodup nodup

/-- A merge against the list that its items cover. -/
theorem merge_perm_iff (order : Arrangement Item) (covered : whole ⊆ items)
    (within : items ⊆ whole) :
    (merge key order items).Perm whole ↔ (whole.filterMap key).Nodup ∧
      (keyless key items).Perm (keyless key whole) := by
  constructor
  · intro eq
    have eqKeyed := eq.filter fun x => (key x).isSome
    have eqRest := eq.filter fun x => (key x).isNone
    constructor
    · have arranged : (merge key order items).filter (fun x => (key x).isSome) =
            order.arrange (firstPerKey key (keyed key items)) :=
        keyed_merge order items
      rw [arranged] at eqKeyed
      rw [← nodup_keys_iff]
      apply (((order.perm _).symm.trans eqKeyed).map key).nodup_iff.mp
      exact nodup_map_firstPerKey key _
    · have arranged : (merge key order items).filter
          (fun x => (key x).isNone) = keyless key items :=
        keyless_merge order items
      rw [arranged] at eqRest
      exact eqRest
  · rintro ⟨nodup, eqRest⟩
    have distinctKeyed := (nodup_keys_iff whole).mpr nodup
    have sameMembers : ∀ x, x ∈ keyed key items ↔ x ∈ keyed key whole := by
      intro x
      simp only [keyed, mem_filter]
      exact and_congr_left fun _ => ⟨fun mem => within mem, fun mem => covered mem⟩
    have inj : ∀ left ∈ keyed key items, ∀ right ∈ keyed key items,
        key left = key right → left = right := by
      intro left hl right hr eqKey
      exact inj_on_of_nodup_map distinctKeyed
        ((sameMembers left).mp hl) ((sameMembers right).mp hr) eqKey
    have eqKeyed : (firstPerKey key (keyed key items)).Perm (keyed key whole) := by
      rw [perm_ext_iff_of_nodup (List.Nodup.of_map key (nodup_map_firstPerKey key _))
        (List.Nodup.of_map key distinctKeyed)]
      intro x
      rw [← sameMembers]
      exact ⟨fun mem => firstPerKey_subset key _ mem, mem_firstPerKey_of_injective inj⟩
    exact (((order.perm _).trans eqKeyed).append eqRest).trans (keyed_append_keyless whole)

/-- A merge keeps everything precisely when the keys are distinct. -/
theorem merge_perm_self_iff (order : Arrangement Item) (xs : List Item) :
    (merge key order xs).Perm xs ↔ (xs.filterMap key).Nodup := by
  rw [merge_perm_iff order (List.Subset.refl _) (List.Subset.refl _)]
  exact and_iff_left (.refl _)

/-! ## Merges that do not depend on the arrangement -/

theorem eq_of_perm_of_short {items' : List Item} (eq : items'.Perm items)
    (short : items.length ≤ 1) : items' = items := by
  match items, short with
  | [], _ => exact eq.eq_nil
  | [x], _ => exact perm_singleton.mp eq

theorem firstPerKey_of_short {items : List Item} (short : items.length ≤ 1) :
    firstPerKey key items = items := by
  match items, short with
  | [], _ | [x], _ => rfl

/-- A list without repetitions that reads the same from both ends. -/
theorem length_le_one_of_reverse_eq {xs : List Item} (nodup : xs.Nodup)
    (eq : xs.reverse = xs) : xs.length ≤ 1 := by
  cases xs with
  | nil => exact Nat.zero_le 1
  | cons first rest =>
    rcases eq_nil_or_concat rest with rfl | ⟨mid, last, rfl⟩
    · exact Nat.le_refl 1
    · exfalso
      simp only [concat_eq_append, reverse_cons, reverse_append, reverse_nil, nil_append,
        cons_append, cons.injEq] at eq
      rw [concat_eq_append, nodup_cons, ← eq.1] at nodup
      exact nodup.1 (mem_append_right _ mem_cons_self)

/-- A merge has one outcome only when at most one item carries a key. -/
theorem forall_merge_eq_iff : (∀ order : Arrangement Item, merge key order xs = whole) ↔
      firstPerKey key (keyed key xs) = keyed key whole ∧ (keyed key whole).length ≤ 1 ∧
      keyless key xs = keyless key whole ∧
      keyed key whole ++ keyless key whole = whole := by
  constructor
  · intro exactly
    have straight := exactly ⟨id, fun _ => .refl _⟩
    have backwards := exactly ⟨reverse, reverse_perm⟩
    have eqKeyed : firstPerKey key (keyed key xs) = keyed key whole := by
      rw [← straight, keyed_merge]
      rfl
    have eqRest : keyless key xs = keyless key whole := by rw [← straight, keyless_merge]
    have mirrored : (firstPerKey key (keyed key xs)).reverse = firstPerKey key (keyed key xs) :=
      append_cancel_right (backwards.trans straight.symm)
    refine ⟨eqKeyed, ?_, eqRest, ?_⟩
    · rw [← eqKeyed]
      exact length_le_one_of_reverse_eq
        (List.Nodup.of_map key (nodup_map_firstPerKey key _)) mirrored
    · rw [← eqKeyed, ← eqRest]
      exact straight
  · rintro ⟨eqKeyed, short, eqRest, inOrder⟩ order
    have arranged := eq_of_perm_of_short (order.perm _) short
    rw [merge, eqKeyed, arranged, eqRest]
    exact inOrder

end StorageOrchestrator.Lib.KeyedMerge
