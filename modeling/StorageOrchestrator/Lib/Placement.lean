import Mathlib

/-!
# Deterministic choice from a roster

The 64-bit FNV-1a hash of a text picks one entry of a list of names.  The
names are sorted first, so the pick does not depend on their order.
-/

namespace StorageOrchestrator.Lib.Placement

open List

def fnv1aByte (hash : Nat) (byte : UInt8) : Nat := ((hash ^^^ byte.toNat) * 0x100000001b3) % 2 ^ 64

def utf8Bytes (text : String) : List UInt8 := text.toList.flatMap String.utf8EncodeChar

/-- The 64-bit FNV-1a hash of a text. -/
def fnv1a (text : String) : Nat := (utf8Bytes text).foldl fnv1aByte 0xcbf29ce484222325

/-- The names in the order of their code points; JavaScript's is that of UTF-16. -/
def sortedNames (names : List String) : List String :=
  names.insertionSort fun left right => left ≤ right

def pickName (seed : String) (names : List String) : Option String :=
  (sortedNames names)[fnv1a seed % names.length]?

theorem mem_of_pickName (pick : pickName seed names = some name) : name ∈ names :=
  (mem_insertionSort _).mp (mem_of_getElem? pick)

/-- The pick does not depend on the order of the names. -/
theorem pickName_perm {names : List String} (eq : names.Perm others) (seed : String) :
    pickName seed names = pickName seed others := by
  have sorted : sortedNames names = sortedNames others := by
    refine List.Perm.eq_of_pairwise ?_ (pairwise_insertionSort _ names)
      (pairwise_insertionSort _ others) ?_
    · intro left right _ _ pre post
      exact String.le_antisymm pre post
    · exact (perm_insertionSort _ names).trans (eq.trans (perm_insertionSort _ others).symm)
  rw [pickName, pickName, sorted, eq.length_eq]

/-- A list that is not empty has a pick. -/
theorem pickName_ne_none (here : names ≠ []) (seed : String) : pickName seed names ≠ none := by
  have length : (sortedNames names).length = names.length := length_insertionSort _ names
  simp only [pickName, ne_eq, getElem?_eq_none_iff, length, not_le]
  exact Nat.mod_lt _ (length_pos_iff.mpr here)

end StorageOrchestrator.Lib.Placement
