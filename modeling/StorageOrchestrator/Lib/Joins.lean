import Mathlib

/-!
# Joins of lists

The join of two lists on a condition, with the elements of one or both sides
that match nothing kept alone.  A join of lists that come in parts is the join
of each part when no element of one part matches an element of another.
-/

namespace StorageOrchestrator.Lib.Joins

open List

inductive JoinKind where
  | inner
  | left
  | right
  | full
deriving DecidableEq

/-- Left elements that match nothing are kept. -/
def JoinKind.keepsLeft : JoinKind → Bool
  | .left | .full => true
  | _ => false

/-- Right elements that match nothing are kept. -/
def JoinKind.keepsRight : JoinKind → Bool
  | .right | .full => true
  | _ => false

section

variable {Left Right Out : Type*} (matching : Left → Right → Bool)
  (pair : Option Left → Option Right → Out)

def pairs (lefts : List Left) (rights : List Right) : List Out :=
  lefts.flatMap fun left =>
    (rights.filter (matching left)).map fun right =>
      pair (some left) (some right)

/-- The left elements that match nothing. -/
def lonelyLefts (lefts : List Left) (rights : List Right) : List Out :=
  (lefts.filter fun left => !rights.any (matching left)).map fun left =>
    pair (some left) none

/-- The right elements that match nothing. -/
def lonelyRights (lefts : List Left) (rights : List Right) : List Out :=
  (rights.filter fun right =>
    !lefts.any fun left => matching left right).map fun right =>
      pair none (some right)

def join (kind : JoinKind) (lefts : List Left) (rights : List Right) : List Out :=
  pairs matching pair lefts rights ++
    (if kind.keepsLeft then lonelyLefts matching pair lefts rights else []) ++
    (if kind.keepsRight then lonelyRights matching pair lefts rights else [])

end

section

variable {Left Right Out : Type*} {matching : Left → Right → Bool}

theorem join_perm (kind : JoinKind) (sameLefts : lefts.Perm lefts')
    (sameRights : rights.Perm rights') :
    (join matching pair kind lefts rights).Perm (join matching pair kind lefts' rights') := by
  have samePairs : (pairs matching pair lefts rights).Perm
      (pairs matching pair lefts' rights') := by
    refine (sameLefts.flatMap_right _).trans ?_
    apply List.Perm.flatMap_left
    intro left _
    exact (sameRights.filter _).map _
  have sameLonelyLefts : (lonelyLefts matching pair lefts rights).Perm
      (lonelyLefts matching pair lefts' rights') := by
    simp only [lonelyLefts, sameRights.any_eq]
    exact (sameLefts.filter _).map _
  have eqLonely : (lonelyRights matching pair lefts rights).Perm
      (lonelyRights matching pair lefts' rights') := by
    simp only [lonelyRights, sameLefts.any_eq]
    exact (sameRights.filter _).map _
  refine (samePairs.append ?_).append ?_
  · split
    · exact sameLonelyLefts
    · exact .refl _
  · split
    · exact eqLonely
    · exact .refl _

theorem any_congr_of_mem {Item : Type*} {xs : List Item} {h holds' : Item → Bool}
    (agree : ∀ x ∈ xs, h x = holds' x) :
    xs.any h = xs.any holds' := by
  rw [Bool.eq_iff_iff, any_eq_true, any_eq_true]
  apply exists_congr
  intro x
  apply and_congr_right
  intro mem
  rw [agree x mem]

/-- A join only asks about its own elements. -/
theorem join_congr {matching' : Left → Right → Bool} (kind : JoinKind)
    (agree : ∀ left ∈ lefts, ∀ right ∈ rights, matching left right = matching' left right) :
    join matching pair kind lefts rights = join matching' pair kind lefts rights := by
  have samePairs : pairs matching pair lefts rights = pairs matching' pair lefts rights := by
    apply flatMap_congr
    intro left hl
    rw [filter_congr (agree left hl)]
  have sameLonelyLefts : lonelyLefts matching pair lefts rights =
      lonelyLefts matching' pair lefts rights := by
    apply congrArg (map _)
    apply filter_congr
    intro left hl
    rw [any_congr_of_mem (agree left hl)]
  have eqLonely : lonelyRights matching pair lefts rights =
      lonelyRights matching' pair lefts rights := by
    apply congrArg (map _)
    apply filter_congr
    intro right hr
    rw [any_congr_of_mem fun left hl => agree left hl right hr]
  rw [join, join, samePairs, sameLonelyLefts, eqLonely]

end

/-! ## Joins in parts -/

section

variable {Left Right Out : Type*} {matching : Left → Right → Bool}
  {pair : Option Left → Option Right → Out}

variable (matching) in
/-- No element of one part matches an element of the other. -/
structure Apart (first second : List Left × List Right) : Prop where
  forth : ∀ left ∈ first.1, ∀ right ∈ second.2, matching left right = false
  back : ∀ left ∈ second.1, ∀ right ∈ first.2, matching left right = false

variable {first second : List Left × List Right} (apart : Apart matching first second)
include apart

theorem pairs_append : pairs matching pair (first.1 ++ second.1) (first.2 ++ second.2) =
      pairs matching pair first.1 first.2 ++ pairs matching pair second.1 second.2 := by
  have memL : ∀ left ∈ first.1, (first.2 ++ second.2).filter (matching left) =
        first.2.filter (matching left) := by
    intro left hl
    have noneLater : second.2.filter (matching left) = [] := by
      rw [filter_eq_nil_iff]
      intro right hr
      simp [apart.forth left hl right hr]
    rw [filter_append, noneLater, append_nil]
  have memR : ∀ left ∈ second.1, (first.2 ++ second.2).filter (matching left) =
        second.2.filter (matching left) := by
    intro left hl
    have noneEarlier : first.2.filter (matching left) = [] := by
      rw [filter_eq_nil_iff]
      intro right hr
      simp [apart.back left hl right hr]
    rw [filter_append, noneEarlier, nil_append]
  rw [pairs, flatMap_append]
  congr 1
  · apply flatMap_congr
    intro left hl
    rw [memL left hl]
  · apply flatMap_congr
    intro left hl
    rw [memR left hl]

theorem lonelyLefts_append : lonelyLefts matching pair (first.1 ++ second.1) (first.2 ++ second.2) =
      lonelyLefts matching pair first.1 first.2 ++ lonelyLefts matching pair second.1 second.2 := by
  have noneForth : ∀ left ∈ first.1, second.2.any (matching left) = false := by
    intro left hl
    simpa using apart.forth left hl
  have noneBack : ∀ left ∈ second.1, first.2.any (matching left) = false := by
    intro left hl
    simpa using apart.back left hl
  simp only [lonelyLefts, filter_append, map_append, any_append]
  congr 2
  · apply filter_congr
    intro left hl
    rw [noneForth left hl, Bool.or_false]
  · apply filter_congr
    intro left hl
    rw [noneBack left hl, Bool.false_or]

/-- The same with the sides exchanged. -/
theorem lonelyRights_append :
    lonelyRights matching pair (first.1 ++ second.1) (first.2 ++ second.2) =
      lonelyRights matching pair first.1 first.2 ++
      lonelyRights matching pair second.1 second.2 := by
  have swapped : Apart (fun right left => matching left right) first.swap second.swap :=
    ⟨fun right isRight left isLeft => apart.back left isLeft right isRight,
      fun right isRight left isLeft => apart.forth left isLeft right isRight⟩
  change lonelyLefts (fun right left => matching left right)
    (fun right left => pair left right) _ _ = _
  exact lonelyLefts_append swapped

omit apart in
theorem append_exchange (a b c d : List Out) : (a ++ b ++ (c ++ d)).Perm (a ++ c ++ (b ++ d)) := by
  rw [append_assoc, append_assoc]
  exact (perm_append_comm_assoc b c d).append_left a

theorem join_append (kind : JoinKind) :
    (join matching pair kind (first.1 ++ second.1) (first.2 ++ second.2)).Perm
      (join matching pair kind first.1 first.2 ++ join matching pair kind second.1 second.2) := by
  have kept : ∀ (keep : Bool) (a b : List Out), (if keep then a ++ b else []) =
        (if keep then a else []) ++ (if keep then b else []) := by
    intro keep a b
    cases keep <;> rfl
  rw [join, pairs_append apart, lonelyLefts_append apart, lonelyRights_append apart, kept, kept]
  refine ((append_exchange _ _ _ _).append_right _).trans ?_
  exact append_exchange _ _ _ _

omit apart in
/-- Parts that match nothing of each other are joined one by one. -/
theorem join_flatMap (kind : JoinKind) {parts : List (List Left × List Right)}
    (apart : parts.Pairwise (Apart matching)) :
    (join matching pair kind (parts.flatMap Prod.fst) (parts.flatMap Prod.snd)).Perm
      (parts.flatMap fun part => join matching pair kind part.1 part.2) := by
  induction parts with
  | nil => cases kind <;> exact .refl _
  | cons part parts ih =>
    rw [pairwise_cons] at apart
    have restApart : Apart matching part (parts.flatMap Prod.fst, parts.flatMap Prod.snd) := by
      constructor
      · intro left hl right hr
        rcases mem_flatMap.mp hr with ⟨other, oth, inOther⟩
        exact (apart.1 other oth).forth left hl right inOther
      · intro left hl right hr
        rcases mem_flatMap.mp hl with ⟨other, oth, inOther⟩
        exact (apart.1 other oth).back left inOther right hr
    rw [flatMap_cons, flatMap_cons, flatMap_cons]
    exact (join_append restApart kind).trans ((ih apart.2).append_left _)

end

end StorageOrchestrator.Lib.Joins
