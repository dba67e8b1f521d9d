import Mathlib

/-!
# Sets that forget their old members

A set of keys with the time each one entered.  Remembering a key first drops
the members older than some age.  Keys carry a time of their own (`stamp`),
and a key is presented only near that time: when the age is at least twice the
distance allowed, no key enters twice, whatever is presented in between.
-/

namespace StorageOrchestrator.Lib.ExpiringSet

variable {Key Time : Type*} [AddCommGroup Time] [LinearOrder Time]

/-- The members that are not too old. -/
def unexpired (age now : Time) (seen : List (Key × Time)) : List (Key × Time) :=
  seen.filter fun entry => !decide (now - entry.2 > age)

/-- Whether the key is new, and the set afterwards. -/
def remember [DecidableEq Key] (age : Time) (key : Key) (now : Time)
    (seen : List (Key × Time)) : Bool × List (Key × Time) :=
  let kept := unexpired age now seen
  if kept.any (fun entry => entry.1 == key) then (false, kept)
  else (true, kept ++ [(key, now)])

/-- A key that entered is still a member, unless its time is over. -/
def Covers (stamp : Key → Time) (window now : Time)
    (seen : List (Key × Time)) (keys : List Key) : Prop :=
  ∀ key ∈ keys, stamp key + window < now ∨
    ∃ entered, (key, entered) ∈ seen ∧ stamp key ≤ entered + window

section

variable {seen : List (Key × Time)}

theorem Covers.mono (covered : Covers stamp window now seen keys)
    (pass : now ≤ later) : Covers stamp window later seen keys := by
  intro key mem
  rcases covered key mem with past | held
  · exact .inl (past.trans_le pass)
  · exact .inr held

theorem Covers.append (covered : Covers stamp window now seen keys) (more : List (Key × Time)) :
    Covers stamp window now (seen ++ more) keys := by
  intro key mem
  rcases covered key mem with past | ⟨ent, held, near⟩
  · exact .inl past
  · exact .inr ⟨ent, List.mem_append_left _ held, near⟩

variable [IsOrderedAddMonoid Time]

theorem Covers.unexpired (covered : Covers stamp window now seen keys)
    (long : window + window ≤ age) :
    Covers stamp window now (unexpired age now seen) keys := by
  intro key mem
  rcases covered key mem with past | ⟨ent, held, near⟩
  · exact .inl past
  · by_cases expired : now - ent > age
    · left
      calc stamp key + window ≤ ent + window + window := add_le_add_left near window
        _ = ent + (window + window) := add_assoc _ _ _
        _ ≤ ent + age := add_le_add_right long ent
        _ < now := by
            rw [add_comm]
            exact lt_sub_iff_add_lt.mp expired
    · exact .inr ⟨ent, List.mem_filter.mpr ⟨held, by simpa using expired⟩, near⟩

variable [DecidableEq Key]

/-- What remembering one key does to the members. -/
theorem Covers.remember (covered : Covers stamp window now seen keys)
    (long : window + window ≤ age) :
    Covers stamp window now (remember age key now seen).2 keys := by
  have kept := covered.unexpired long
  rw [ExpiringSet.remember]
  split
  · exact kept
  · exact kept.append _

/-- A key that is new and near its time did not enter before. -/
theorem Covers.not_mem (covered : Covers stamp window now seen keys)
    (long : window + window ≤ age) (near : |now - stamp key| ≤ window)
    (new : (ExpiringSet.remember age key now seen).1 = true) :
    key ∉ keys := by
  intro mem
  rcases covered.unexpired long key mem with past | ⟨ent, held, -⟩
  · have late := le_of_abs_le near
    exact absurd (sub_le_iff_le_add'.mp late) (not_le.mpr past)
  · rw [ExpiringSet.remember] at new
    have found : (ExpiringSet.unexpired age now seen).any (fun entry => entry.1 == key) = true :=
      List.any_eq_true.mpr ⟨(key, ent), held, beq_self_eq_true key⟩
    simp [found] at new

/-- The set covers the key that has just entered, too. -/
theorem Covers.remember_cons (covered : Covers stamp window now seen keys)
    (long : window + window ≤ age) (near : |now - stamp key| ≤ window)
    (new : (ExpiringSet.remember age key now seen).1 = true) :
    Covers stamp window now (ExpiringSet.remember age key now seen).2 (key :: keys) := by
  intro other mem
  rcases List.mem_cons.mp mem with rfl | mem
  · right
    have ent : (other, now) ∈ (ExpiringSet.remember age other now seen).2 := by
      rw [ExpiringSet.remember] at new ⊢
      split at new
      · cases new
      · rename_i gone
        simp [gone]
    have early := neg_le_of_abs_le near
    exact ⟨now, ent, neg_le_sub_iff_le_add.mp early⟩
  · exact covered.remember long other mem

omit [IsOrderedAddMonoid Time] in
/-- A key that never entered is new. -/
theorem remember_new (gone : ∀ entry ∈ seen, entry.1 ≠ key) :
    (ExpiringSet.remember age key now seen).1 = true := by
  have new : (ExpiringSet.unexpired age now seen).any (fun entry => entry.1 == key) = false := by
    rw [List.any_eq_false]
    intro entry mem eq
    exact gone entry (List.mem_filter.mp mem).1 (beq_iff_eq.mp eq)
  simp [ExpiringSet.remember, new]

end

end StorageOrchestrator.Lib.ExpiringSet
