import Mathlib

/-!
# Windows of sorted lists

A window is what remains of a list that is sorted, skipped into and cut off.
An item is in the window when its rank, the number of items strictly before
it, is.  Windows taken of the parts of a list make up the window of the whole
list precisely when every item has a rank within the window in its part
whenever it has one in the whole.
-/

namespace StorageOrchestrator.Lib.Windows

open List

variable {Item : Type*}

section

variable (before : Item → Item → Prop) [DecidableRel before] (offset : Nat) (limit : Option Nat)

/-- The number of items strictly before an item. -/
def rank (items : List Item) (item : Item) : Nat :=
  items.countP fun other => before other item ∧ ¬ before item other

def InWindow (items : List Item) (item : Item) : Prop :=
  offset ≤ rank before items item ∧
    ∀ bound, limit = some bound → rank before items item < offset + bound

/-- Sort, skip and cut. -/
def window (items : List Item) : List Item :=
  match limit with
  | some bound => ((items.insertionSort before).drop offset).take bound
  | none => (items.insertionSort before).drop offset

omit [DecidableRel before] in
/-- The order tells the items apart. -/
structure Ordered (items : List Item) : Prop where
  nodup : items.Nodup
  antisymm : ∀ left ∈ items, ∀ right ∈ items, before left right → before right left → left = right

end

section

variable {before : Item → Item → Prop}

theorem Ordered.perm {items' : List Item} (ord : Ordered before items)
    (eq : items'.Perm items) : Ordered before items' where
  nodup := eq.nodup_iff.mpr ord.nodup
  antisymm left isLeft right isRight :=
    ord.antisymm left (eq.subset isLeft) right (eq.subset isRight)

theorem Ordered.sublist {items' : List Item} (ord : Ordered before items)
    (part : items'.Sublist items) : Ordered before items' where
  nodup := ord.nodup.sublist part
  antisymm left isLeft right isRight :=
    ord.antisymm left (part.subset isLeft) right (part.subset isRight)

variable [DecidableRel before]

/-- In a sorted list the rank of an item is its position. -/
theorem rank_of_split (ord : Ordered before (first ++ x :: last))
    (sorted : (first ++ x :: last).Pairwise before) :
    rank before (first ++ x :: last) x = first.length := by
  have isItem : x ∈ first ++ x :: last := mem_append_right _ mem_cons_self
  have ne := nodup_append.mp ord.nodup
  rw [pairwise_append, pairwise_cons] at sorted
  have sums : first.countP (fun other =>
      before other x ∧ ¬ before x other) = first.length := by
    rw [countP_eq_length]
    intro other oth
    have pre := sorted.2.2 other oth x mem_cons_self
    have notAfter : ¬ before x other := by
      intro post
      have eq := ord.antisymm other (mem_append_left _ oth) x isItem pre post
      exact ne.2.2 other oth x mem_cons_self eq
    exact decide_eq_true ⟨pre, notAfter⟩
  have later : last.countP (fun other =>
      before other x ∧ ¬ before x other) = 0 := by
    rw [countP_eq_zero]
    intro other oth strict
    exact (of_decide_eq_true strict).2 (sorted.2.1.1 other oth)
  have notItself : ¬ (before x x ∧ ¬ before x x) := fun strict => strict.2 strict.1
  rw [rank, countP_append, countP_cons_of_neg, sums, later]
  · rfl
  · exact fun strict => notItself (of_decide_eq_true strict)

theorem rank_getElem (ord : Ordered before items) (sorted : items.Pairwise before)
    (mem : index < items.length) :
    rank before items items[index] = index := by
  have split : items.take index ++ items[index] :: items.drop (index + 1) =
      items := by
    rw [getElem_cons_drop, take_append_drop]
  have pos : rank before (items.take index ++ items[index] :: items.drop (index + 1))
      items[index] = (items.take index).length := by
    apply rank_of_split
    · rw [split]
      exact ord
    · rw [split]
      exact sorted
  rw [split, length_take] at pos
  rw [pos]
  omega

theorem mem_window_iff_getElem {items : List Item} : x ∈ window before offset limit items ↔
      ∃ i, ∃ mem : i < (items.insertionSort before).length,
      (items.insertionSort before)[i] = x ∧ offset ≤ i ∧
      ∀ bound, limit = some bound → i < offset + bound := by
  cases limit with
  | none =>
    rw [window, mem_drop_iff_getElem]
    constructor
    · rintro ⟨i, mem, isItem⟩
      exact ⟨offset + i, by omega, isItem, by omega, nofun⟩
    · rintro ⟨i, mem, isItem, skip, _⟩
      refine ⟨i - offset, by omega, ?_⟩
      simp only [Nat.add_sub_cancel' skip]
      exact isItem
  | some bound =>
    rw [window, mem_take_iff_getElem]
    constructor
    · rintro ⟨i, mem, isItem⟩
      rw [length_drop] at mem
      rw [getElem_drop] at isItem
      refine ⟨offset + i, by omega, isItem, by omega, ?_⟩
      intro _ isBound
      cases isBound
      omega
    · rintro ⟨i, mem, isItem, skip, cut⟩
      have inBound := cut bound rfl
      refine ⟨i - offset, by rw [length_drop]; omega, ?_⟩
      rw [getElem_drop]
      simp only [Nat.add_sub_cancel' skip]
      exact isItem

end

section

variable {before : Item → Item → Prop} [DecidableRel before] [Std.Total before]
  [IsTrans Item before]

theorem mem_window_iff (ord : Ordered before items) {item : Item} :
    item ∈ window before offset limit items ↔
      item ∈ items ∧ InWindow before offset limit items item := by
  have eq := perm_insertionSort before items
  have sorted := pairwise_insertionSort before items
  have ranked : ∀ {index : Nat} (mem : index < (items.insertionSort before).length),
      rank before items (items.insertionSort before)[index] = index := by
    intro index mem
    have pos := rank_getElem (ord.perm eq) sorted mem
    rw [rank, eq.countP_eq] at pos
    exact pos
  rw [mem_window_iff_getElem]
  constructor
  · rintro ⟨index, mem, rfl, skip, cut⟩
    refine ⟨eq.subset (getElem_mem mem), ?_⟩
    rw [InWindow, ranked mem]
    exact ⟨skip, cut⟩
  · rintro ⟨isItem, inWindow⟩
    rcases mem_iff_getElem.mp (eq.symm.subset isItem) with ⟨index, mem, rfl⟩
    rw [InWindow, ranked mem] at inWindow
    exact ⟨index, mem, rfl, inWindow⟩

omit [Std.Total before] [IsTrans Item before] in
theorem window_sublist :
    (window before offset limit items).Sublist (items.insertionSort before) := by
  cases limit with
  | none => exact drop_sublist _ _
  | some bound => exact (take_sublist _ _).trans (drop_sublist _ _)

theorem window_sorted : (window before offset limit items).Pairwise before :=
  (pairwise_insertionSort before items).sublist window_sublist

omit [Std.Total before] [IsTrans Item before] in
theorem window_ordered (ord : Ordered before items) :
    Ordered before (window before offset limit items) :=
  (ord.perm (perm_insertionSort before items)).sublist window_sublist

end

/-! ## Lists with a marked item in front -/

section

variable {before : Item → Item → Prop} {marked : Item → Bool} {items : List Item}

theorem eq_of_length_le_one (short : items.length ≤ 1) (hl : left ∈ items)
    (hr : right ∈ items) : left = right := by
  match items, short with
  | [_], _ => rw [mem_singleton.mp hl, mem_singleton.mp hr]

/-- In front of the unmarked items there is at most one marked item. -/
def MarkedFirst (before : Item → Item → Prop) (marked : Item → Bool) (items : List Item) : Prop :=
  ∀ left ∈ items, ∀ right ∈ items, marked left → left ≠ right →
    marked right = false ∧ before left right

theorem MarkedFirst.length_le_one (first : MarkedFirst before marked items) (nodup : items.Nodup) :
    (items.filter marked).length ≤ 1 := by
  have distinctMarked := nodup.filter marked
  match isMarked : items.filter marked with
  | [] => exact Nat.zero_le 1
  | [_] => exact Nat.le_refl 1
  | left :: right :: _ =>
    exfalso
    rw [isMarked, nodup_cons] at distinctMarked
    have hl : left ∈ items.filter marked := by
      rw [isMarked]
      exact mem_cons_self
    have hr : right ∈ items.filter marked := by
      rw [isMarked]
      exact mem_cons_of_mem _ mem_cons_self
    rw [mem_filter] at hl hr
    have ne : left ≠ right := by
      rintro rfl
      exact distinctMarked.1 mem_cons_self
    have bare := (first left hl.1 right hr.1 hl.2 ne).1
    rw [bare] at hr
    cases hr.2

/-- A sorted list is its marked items and then the others. -/
theorem markedFirst_iff (ord : Ordered before items) (sorted : items.Pairwise before) :
    MarkedFirst before marked items ↔ (items.filter marked).length ≤ 1 ∧
      items.filter marked ++ (items.filter fun x => !marked x) =
      items := by
  have parted : (items.filter marked ++ (items.filter fun x => !marked x)).Perm items :=
    filter_append_perm marked items
  constructor
  · intro first
    refine ⟨first.length_le_one ord.nodup, ?_⟩
    refine List.Perm.eq_of_pairwise ?_ ?_ sorted parted
    · intro left right hl hr
      exact ord.antisymm left (parted.subset hl) right hr
    · rw [pairwise_append]
      refine ⟨sorted.filter _, sorted.filter _, ?_⟩
      intro left hl right hr
      rw [mem_filter] at hl hr
      have ne : left ≠ right := by
        rintro rfl
        rw [hl.2] at hr
        cases hr.2
      exact (first left hl.1 right hr.1 hl.2 ne).2
  · rintro ⟨short, split⟩ left hl right hr leftMarked ne
    have inMarked := mem_filter.mpr ⟨hl, leftMarked⟩
    have rightUnmarked : marked right = false := by
      by_contra rightMarked
      rw [Bool.not_eq_false] at rightMarked
      have alsoMarked := mem_filter.mpr ⟨hr, rightMarked⟩
      exact ne (eq_of_length_le_one short inMarked alsoMarked)
    refine ⟨rightUnmarked, ?_⟩
    rw [← split, pairwise_append] at sorted
    apply sorted.2.2 left inMarked right
    exact mem_filter.mpr ⟨hr, by rw [rightUnmarked]; rfl⟩

end

/-! ## Windows of parts -/

section

variable {before : Item → Item → Prop} [DecidableRel before] [Std.Total before]
  [IsTrans Item before] {Holder : Type*} {keepers : List Holder} {part : Holder → List Item}
  {whole : List Item} (ord : Ordered before whole) (divided : whole.Perm (keepers.flatMap part))
include ord divided

omit [DecidableRel before] [Std.Total before] [IsTrans Item before] in
theorem ordered_part (h : holder ∈ keepers) : Ordered before (part holder) := by
  have ne := (nodup_flatMap.mp (divided.nodup_iff.mp ord.nodup)).1 holder h
  have inWhole : ∀ x ∈ part holder, x ∈ whole := by
    intro x isItem
    exact divided.symm.subset (mem_flatMap.mpr ⟨holder, h, isItem⟩)
  exact
    { nodup := ne
      antisymm := fun left hl right hr =>
        ord.antisymm left (inWhole left hl) right (inWhole right hr) }

omit [DecidableRel before] [Std.Total before] [IsTrans Item before] in
/-- An item lies in one part. -/
theorem part_unique {first second : Holder} (hfst : first ∈ keepers)
    (hsnd : second ∈ keepers) {x : Item} (memL : x ∈ part first) (memR : x ∈ part second) :
    first = second := by
  have ne := (nodup_flatMap.mp (divided.nodup_iff.mp ord.nodup)).2
  by_contra different
  have symmetric : Std.Symm (Function.onFun List.Disjoint part) :=
    ⟨fun _ _ disj x memR memL => disj memL memR⟩
  exact ne.forall hfst hsnd different memL memR

theorem mem_window_part_iff {holder : Holder} (h : holder ∈ keepers) {item : Item} :
    item ∈ window before offset limit (part holder) ↔ item ∈ part holder ∧
      InWindow before offset limit (part holder) item :=
  mem_window_iff (ordered_part ord divided h)

theorem flatMap_window_nodup : (keepers.flatMap fun holder =>
      window before offset limit (part holder)).Nodup := by
  rw [nodup_flatMap]
  constructor
  · intro holder h
    exact (window_ordered (ordered_part ord divided h)).nodup
  · have ne := (nodup_flatMap.mp (divided.nodup_iff.mp ord.nodup)).2
    apply ne.imp_of_mem
    intro first second hfst hsnd disj x memL memR
    exact disj ((mem_window_part_iff ord divided hfst).mp memL).1
      ((mem_window_part_iff ord divided hsnd).mp memR).1

theorem flatMap_window_subset : (keepers.flatMap fun holder =>
      window before offset limit (part holder)) ⊆ whole := by
  intro x isItem
  rcases mem_flatMap.mp isItem with ⟨holder, h, inWindow⟩
  apply divided.symm.subset
  exact mem_flatMap.mpr ⟨holder, h, ((mem_window_part_iff ord divided h).mp inWindow).1⟩

/-- The windows of the parts make up the window of the whole list. -/
theorem flatMap_window_perm_iff : (keepers.flatMap fun holder =>
      window before offset limit (part holder)).Perm
      (window before offset limit whole) ↔
      ∀ holder ∈ keepers, ∀ item ∈ part holder, InWindow before offset limit (part holder) item ↔
      InWindow before offset limit whole item := by
  have memWhole : ∀ {item : Item}, item ∈ window before offset limit whole ↔
        item ∈ whole ∧ InWindow before offset limit whole item :=
    mem_window_iff ord
  have memPart : ∀ {holder : Holder}, holder ∈ keepers → ∀ {item : Item},
      item ∈ window before offset limit (part holder) ↔ item ∈ part holder ∧
          InWindow before offset limit (part holder) item :=
    mem_window_part_iff ord divided
  constructor
  · intro eq holder h item isItem
    constructor
    · intro inPart
      have inWindow := eq.subset (mem_flatMap.mpr ⟨holder, h, (memPart h).mpr ⟨isItem, inPart⟩⟩)
      exact (memWhole.mp inWindow).2
    · intro inWhole
      have isWhole := divided.symm.subset (mem_flatMap.mpr ⟨holder, h, isItem⟩)
      rcases mem_flatMap.mp (eq.symm.subset
        (memWhole.mpr ⟨isWhole, inWhole⟩)) with ⟨other, oth, inOther⟩
      have inWindow := (memPart oth).mp inOther
      rw [part_unique ord divided h oth isItem inWindow.1]
      exact inWindow.2
  · intro agree
    rw [perm_ext_iff_of_nodup (flatMap_window_nodup ord divided) (window_ordered ord).nodup]
    intro item
    rw [memWhole, mem_flatMap]
    constructor
    · rintro ⟨holder, h, inWindow⟩
      rcases (memPart h).mp inWindow with ⟨isItem, inPart⟩
      exact ⟨divided.symm.subset (mem_flatMap.mpr ⟨holder, h, isItem⟩),
          (agree holder h item isItem).mp inPart⟩
    · rintro ⟨isWhole, inWhole⟩
      rcases mem_flatMap.mp (divided.subset isWhole) with ⟨holder, h, isItem⟩
      exact ⟨holder, h, (memPart h).mpr ⟨isItem, (agree holder h item isItem).mpr inWhole⟩⟩

end

end StorageOrchestrator.Lib.Windows
