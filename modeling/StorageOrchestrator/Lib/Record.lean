import Mathlib

/-!
# Records from lists of fields

A record is filled field by field, and a later field of the same name replaces
an earlier one.  `lastNamed` reads such a record.
-/

namespace StorageOrchestrator.Lib.Record

open List

variable {Value Other : Type*}

/-- The value of a name: that of its last field. -/
def lastNamed (fields : List (String × Value)) (name : String) : Option Value :=
  (fields.reverse.find? fun field => field.1 = name).map Prod.snd

theorem mem_of_lastNamed (last : lastNamed fields name = some value) : (name, value) ∈ fields := by
  rcases Option.map_eq_some_iff.mp last with ⟨⟨other, found⟩, got, rfl⟩
  have mem := mem_of_find?_eq_some got
  have eqName : other = name := by simpa using find?_some got
  rw [eqName] at mem
  exact mem_reverse.mp mem

theorem lastNamed_eq_none_iff {fs : List (String × Value)} :
    lastNamed fs name = none ↔ ∀ field ∈ fs, field.1 ≠ name := by
  simp [lastNamed]

theorem exists_lastNamed_of_mem (mem : (name, v) ∈ fs) : ∃ last, lastNamed fs name = some last := by
  cases last : lastNamed fs name with
  | none => exact absurd rfl (lastNamed_eq_none_iff.mp last _ mem)
  | some v => exact ⟨v, rfl⟩

theorem lastNamed_append (init back : List (String × Value)) (name : String) :
    lastNamed (init ++ back) name = (lastNamed back name).or (lastNamed init name) := by
  simp only [lastNamed, reverse_append, find?_append]
  cases find? (fun field => decide (field.1 = name)) back.reverse <;> rfl

theorem lastNamed_map (change : Value → Other) (fs : List (String × Value)) (name : String) :
    lastNamed (fs.map fun field => (field.1, change field.2)) name =
      (lastNamed fs name).map change := by
  simp only [lastNamed, ← map_reverse, find?_map, Option.map_map]
  rfl

end StorageOrchestrator.Lib.Record
