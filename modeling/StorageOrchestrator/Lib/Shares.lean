import Mathlib

/-!
# Lists in shares

Several holders each have a share of a list.  When every holder drops the
repetitions of its share, the shares together may still repeat an item that
the list without repetitions has once.  `Covers` is what then remains true,
and the lemmas below say when the items of one kind are not repeated.
-/

namespace StorageOrchestrator.Lib.Shares

open List

variable {Item Holder : Type*}

/-- The shares have the items of the list, some of them more often. -/
structure Covers (whole shares : List Item) : Prop where
  subperm : whole.Subperm shares
  subset : shares ⊆ whole

theorem covers_of_perm {whole : List Item} (eq : whole.Perm shares) : Covers whole shares where
  subperm := eq.subperm
  subset := eq.symm.subset

section

variable {shares : List Item}

theorem Covers.append (left : Covers whole shares) (right : Covers whole' shares') :
    Covers (whole ++ whole') (shares ++ shares') where
  subperm := left.subperm.append right.subperm
  subset := append_subset.mpr ⟨List.Subset.trans left.subset (subset_append_left _ _),
      List.Subset.trans right.subset (subset_append_right _ _)⟩

theorem Covers.perm (covered : Covers whole shares) (eq : shares.Perm shares') :
    Covers whole shares' where
  subperm := covered.subperm.trans eq.subperm
  subset := List.Subset.trans eq.symm.subset covered.subset

theorem perm_iff_of_subperm (subperm : whole.Subperm shares) :
    shares.Perm whole ↔ shares.length ≤ whole.length := by
  constructor
  · intro eq
    exact Nat.le_of_eq eq.length_eq
  · intro short
    exact (subperm.perm_of_length_le short).symm

/-- Naming the items differently does not hide a repetition. -/
theorem perm_map_iff_of_subperm
    {Shown : Type*} (subperm : whole.Subperm shares) (shown : Item → Shown) :
    (shares.map shown).Perm (whole.map shown) ↔ shares.Perm whole := by
  constructor
  · intro eq
    rw [perm_iff_of_subperm subperm]
    simpa using Nat.le_of_eq eq.length_eq
  · intro eq
    exact eq.map shown

theorem perm_filter_append_iff (h : Item → Bool)
    (left : Covers whole shares) (right : Covers whole' shares') :
    ((shares ++ shares').filter h).Perm ((whole ++ whole').filter h) ↔
      (shares.filter h).Perm (whole.filter h) ∧ (shares'.filter h).Perm (whole'.filter h) := by
  have leftSubperm := left.subperm.filter h
  have rightSubperm := right.subperm.filter h
  rw [filter_append, filter_append, perm_iff_of_subperm (leftSubperm.append rightSubperm),
    perm_iff_of_subperm leftSubperm, perm_iff_of_subperm rightSubperm,
    length_append, length_append]
  have leftShort := leftSubperm.length_le
  have rightShort := rightSubperm.length_le
  omega

end

section

variable [DecidableEq Item] {keepers : List Holder} {share : Holder → List Item}

/-- Dropping the repetitions of every share and of the whole list. -/
theorem Covers.dedup (covered : Covers whole (keepers.flatMap share)) :
    Covers whole.dedup (keepers.flatMap fun holder => (share holder).dedup) where
  subperm := by
    apply subperm_of_subset (nodup_dedup whole)
    intro x isItem
    have inShares := covered.subperm.subset (mem_dedup.mp isItem)
    rcases mem_flatMap.mp inShares with ⟨holder, h, inShare⟩
    exact mem_flatMap.mpr ⟨holder, h, mem_dedup.mpr inShare⟩
  subset := by
    intro x isItem
    rcases mem_flatMap.mp isItem with ⟨holder, h, inShare⟩
    apply mem_dedup.mpr
    apply covered.subset
    exact mem_flatMap.mpr ⟨holder, h, mem_dedup.mp inShare⟩

/-- Shares without repetitions repeat an item that two holders have. -/
theorem perm_filter_dedup_iff (holds : Item → Bool)
    (covered : Covers whole (keepers.flatMap share)) :
    ((keepers.flatMap fun holder => (share holder).dedup).filter holds).Perm
      (whole.dedup.filter holds) ↔
      keepers.Pairwise fun first second =>
      ∀ x, holds x → x ∈ share first → x ∉ share second := by
  have wholeNodup : (whole.dedup.filter holds).Nodup := (nodup_dedup whole).filter holds
  have eqItems : ∀ x, x ∈ (keepers.flatMap fun holder =>
        (share holder).dedup).filter holds ↔ x ∈ whole.dedup.filter holds := by
    intro x
    rw [mem_filter, mem_filter]
    apply and_congr_left
    intro _
    exact ⟨fun mem => covered.dedup.subset mem, fun mem => covered.dedup.subperm.subset mem⟩
  have onlyNodup : ((keepers.flatMap fun holder =>
      (share holder).dedup).filter holds).Perm (whole.dedup.filter holds) ↔
        ((keepers.flatMap fun holder =>
          (share holder).dedup).filter holds).Nodup := by
    constructor
    · intro eq
      exact eq.nodup_iff.mpr wholeNodup
    · intro sharesNodup
      exact (perm_ext_iff_of_nodup sharesNodup wholeNodup).mpr eqItems
  rw [onlyNodup, filter_flatMap, nodup_flatMap]
  have eachNodup : ∀ holder ∈ keepers, ((share holder).dedup.filter holds).Nodup := by
    intro holder _
    exact (nodup_dedup _).filter holds
  rw [and_iff_right eachNodup]
  apply List.Pairwise.iff
  intro first second
  simp only [Function.onFun, List.Disjoint, mem_filter, mem_dedup]
  constructor
  · intro disj x kind memL memR
    exact disj ⟨memL, kind⟩ ⟨memR, kind⟩
  · intro ne x memL memR
    exact ne x memL.2 memL.1 memR.1

end

end StorageOrchestrator.Lib.Shares
