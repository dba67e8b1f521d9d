import StorageOrchestrator.Lifecycle.Purging

/-!
# Monotonicity of the access derivation

With the windows of a plan at representable dates, the permissions of an
account are comparisons of the clock with the ends of the windows.  Time and
usage take permissions away, a longer plan and a larger allowance give them.
The status moves forward only, and a purge falls due when the account closes.
-/

namespace StorageOrchestrator.Lifecycle.Monotone

open Accounts.Entitlement
open StorageOrchestrator.Accounts.Store (User)
open Lifecycle.Access Lifecycle.Purging

/-! ## Orders -/

/-- The end of the plan and of its windows are dates. -/
def Representable (config : LifecycleConfig) (user : User) : Prop :=
  ∀ expiry ∈ user.planExpiresAt, date expiry = some expiry ∧ (closesAt config expiry).isSome

/--
The second account has a plan that ends no earlier (no plan is lowest), an
allowance that is no smaller (no limit is highest), and uses no more.
-/
structure Dominated (user better : User) : Prop where
  plan : ∀ expiry ∈ user.planExpiresAt, ∃ later ∈ better.planExpiresAt, expiry ≤ later
  allowance : ∀ larger ∈ better.storageBytes, ∃ quota ∈ user.storageBytes, quota ≤ larger
  usage : better.usedStorage ≤ user.usedStorage

/-- What the first state permits, the second does. -/
structure Permits (access better : AccessState) : Prop where
  upload : access.canUpload → better.canUpload
  read : access.canRead → better.canRead
  delete : access.canDelete → better.canDelete

/-- The place in ACTIVE, GRACE, WRITE_BLOCKED, READ_BLOCKED, CLOSED. -/
def stage : UserStatus → Option Nat
  | .unpaid => none
  | .active => some 0
  | .grace => some 1
  | .writeBlocked => some 2
  | .readBlocked => some 3
  | .closed => some 4

/-! ## The ends of the windows -/

/-- When uploads stop for good, when reads stop, when the account closes. -/
structure Ends where
  graceUntil : Int
  writeBlockedUntil : Int
  readBlockedUntil : Int

def endsAt (config : LifecycleConfig) (expiry : Int) : Ends where
  graceUntil := expiry + config.graceDays * dayMs
  writeBlockedUntil := expiry + config.graceDays * dayMs + config.writeBlockedDays * dayMs
  readBlockedUntil := expiry + config.graceDays * dayMs + config.writeBlockedDays * dayMs +
      config.readBlockedDays * dayMs

theorem endsAt_ordered (cfg : LifecycleConfig) (due : Int) :
    due ≤ (endsAt cfg due).graceUntil ∧ (endsAt cfg due).graceUntil ≤
      (endsAt cfg due).writeBlockedUntil ∧
      (endsAt cfg due).writeBlockedUntil ≤ (endsAt cfg due).readBlockedUntil := by
  simp only [endsAt, dayMs]
  omega

theorem endsAt_mono (cfg : LifecycleConfig) (pre : expiry ≤ later) :
    (endsAt cfg expiry).writeBlockedUntil ≤ (endsAt cfg later).writeBlockedUntil ∧
      (endsAt cfg expiry).readBlockedUntil ≤ (endsAt cfg later).readBlockedUntil := by
  simp only [endsAt]
  omega

/-- With representable ends, each of them is the date it should be. -/
theorem addDays_of_closesAt (fits : (closesAt cfg due).isSome) :
    addDays (some due) cfg.graceDays = some (endsAt cfg due).graceUntil ∧
      addDays (some (endsAt cfg due).graceUntil) cfg.writeBlockedDays =
      some (endsAt cfg due).writeBlockedUntil ∧
      addDays (some (endsAt cfg due).writeBlockedUntil) cfg.readBlockedDays =
      some (endsAt cfg due).readBlockedUntil := by
  rw [closesAt] at fits
  cases first : addDays (some due) cfg.graceDays with
  | none =>
    rw [first] at fits
    cases fits
  | some grace =>
    have graceEnd : grace = (endsAt cfg due).graceUntil := date_some first
    subst graceEnd
    rw [first] at fits
    cases second : addDays (some (endsAt cfg due).graceUntil) cfg.writeBlockedDays with
    | none =>
      rw [second] at fits
      cases fits
    | some write =>
      have writeEnd : write = (endsAt cfg due).writeBlockedUntil := date_some second
      subst writeEnd
      rw [second] at fits
      obtain ⟨last, third⟩ := Option.isSome_iff_exists.mp fits
      have lastEnd : last = (endsAt cfg due).readBlockedUntil := date_some third
      exact ⟨rfl, rfl, by rw [third, lastEnd]⟩

/-! ## Permissions and status by the clock -/

/-- The account uses more than its allowance. -/
def overQuota (user : User) : Bool :=
  user.storageBytes.any fun allowance => allowance < user.usedStorage

/-- The stage of an account by the clock. -/
def stageAt (config : LifecycleConfig) (expiry now : Int) (past : Bool) : Nat :=
  if (endsAt config expiry).readBlockedUntil ≤ now then 4
  else if (endsAt config expiry).writeBlockedUntil ≤ now then 3
  else if (endsAt config expiry).graceUntil ≤ now then 2
  else if expiry ≤ now ∨ past then 1
  else 0

section

theorem toDate_of_representable (fits : Representable config user)
    (paid : user.planExpiresAt = some due) :
    toDate user.planExpiresAt = some due ∧ (closesAt config due).isSome := by
  obtain ⟨valid, closes⟩ := fits due paid
  rw [paid]
  exact ⟨valid, closes⟩

theorem access_by_clock (now : Int) (paid : toDate u.planExpiresAt = some expiry)
    (fits : (closesAt cfg expiry).isSome) :
    let access := deriveAccess u now cfg
    (access.canUpload ↔ now < expiry ∧ overQuota u = false) ∧
      (access.canRead ↔ now < (endsAt cfg expiry).writeBlockedUntil) ∧
      (access.canDelete ↔ now < (endsAt cfg expiry).readBlockedUntil) ∧
      stage access.status = some (stageAt cfg expiry now (overQuota u)) := by
  obtain ⟨first, second, third⟩ := addDays_of_closesAt fits
  obtain ⟨inGrace, inWrite, inRead⟩ := endsAt_ordered cfg expiry
  simp only [deriveAccess, paid, first, second, third, reached, ahead,
    Option.any_some, decide_eq_true_eq, stageAt]
  rw [← overQuota]
  generalize endsAt cfg expiry = ends at *
  generalize overQuota u = past
  split
  · rename_i shut
    have ended : ¬ now < expiry := by omega
    have unreadable : ¬ now < ends.writeBlockedUntil := by omega
    simp [stage, shut, ended, unreadable]
  · rename_i stillOpen
    have deletable : now < ends.readBlockedUntil := by omega
    split
    · rename_i live
      have reads : now < ends.writeBlockedUntil := by omega
      have beforeGrace : now < ends.graceUntil := by omega
      cases past with
      | true =>
        simp [stage, live, reads, deletable, reads.not_ge, beforeGrace.not_ge]
      | false =>
        simp [stage, live, reads, deletable, live.not_ge, reads.not_ge, beforeGrace.not_ge]
    · rename_i ended
      have begun : expiry ≤ now := by omega
      split
      · rename_i inGrace
        have reads : now < ends.writeBlockedUntil := by omega
        simp [stage, ended, begun, reads, deletable, inGrace.not_ge, reads.not_ge]
      · rename_i graceOver
        split
        · rename_i reads
          simp [stage, ended, graceOver, reads, deletable, reads.not_ge]
        · rename_i unreadable
          have blocked : ends.writeBlockedUntil ≤ now := by omega
          simp [stage, ended, unreadable, blocked, deletable]

/-- The status never moves backwards. -/
theorem stageAt_mono (cfg : LifecycleConfig) (due : Int) (past : Bool) (post : now ≤ later) :
    stageAt cfg due now past ≤ stageAt cfg due later past := by
  obtain ⟨inGrace, inWrite, inRead⟩ := endsAt_ordered cfg due
  simp only [stageAt]
  generalize endsAt cfg due = ends at *
  by_cases shut : ends.readBlockedUntil ≤ later
  · rw [if_pos shut]
    split_ifs <;> omega
  · rw [if_neg shut, if_neg (by omega)]
    by_cases blocked : ends.writeBlockedUntil ≤ later
    · rw [if_pos blocked]
      split_ifs <;> omega
    · rw [if_neg blocked, if_neg (by omega)]
      by_cases graceOver : ends.graceUntil ≤ later
      · rw [if_pos graceOver]
        split_ifs <;> omega
      · rw [if_neg graceOver, if_neg (by omega)]
        by_cases ended : due ≤ later ∨ past
        · rw [if_pos ended]
          split_ifs <;> omega
        · have live : ¬ (due ≤ now ∨ past) :=
            fun early => ended (early.imp_left fun past => past.trans post)
          rw [if_neg ended, if_neg live]

/-- An upload needs the right to read, and a read the right to delete. -/
theorem rights_nested (u : User) (now : Int) (cfg : LifecycleConfig) :
    let access := deriveAccess u now cfg
    (access.canUpload → access.canRead) ∧ (access.canRead → access.canDelete) := by
  simp only [deriveAccess]
  split
  · simp
  · split
    · simp
    · split
      · split <;> simp
      · split
        · simp
        · split <;> simp

end

/-! ## Two accounts, or one account at two times -/

section

theorem Dominated.overQuota (below : Dominated user better)
    (sub : overQuota user = false) : Monotone.overQuota better = false := by
  simp only [Monotone.overQuota, Option.any_eq_false, decide_eq_false_iff_not, not_lt] at sub ⊢
  intro more ok
  obtain ⟨quota, limit, smaller⟩ := below.allowance more ok
  have used := sub quota limit
  have less := below.usage
  omega

/-- A better account, at an earlier time, has every right. -/
theorem permits_of_dominated (fits : Representable cfg u)
    (representable' : Representable cfg better) (below : Dominated u better) (pre : early ≤ now) :
    Permits (deriveAccess u now cfg) (deriveAccess better early cfg) := by
  cases paid : u.planExpiresAt with
  | none =>
    simp only [deriveAccess, paid, toDate, Option.bind_none]
    refine ⟨?_, ?_, ?_⟩ <;>
      exact (absurd · Bool.false_ne_true)
  | some due =>
    obtain ⟨later, paid', long⟩ := below.plan due paid
    obtain ⟨valid, closes⟩ := toDate_of_representable fits paid
    obtain ⟨valid', closes'⟩ := toDate_of_representable representable' paid'
    obtain ⟨upload, read, delete, -⟩ := access_by_clock now valid closes
    obtain ⟨upload', read', delete', -⟩ := access_by_clock early valid' closes'
    obtain ⟨endsWrite, endsRead⟩ := endsAt_mono cfg long
    refine ⟨?_, ?_, ?_⟩
    · rw [upload, upload']
      rintro ⟨live, sub⟩
      exact ⟨by omega, below.overQuota sub⟩
    · rw [read, read']
      omega
    · rw [delete, delete']
      omega

theorem stage_mono (fits : Representable cfg u) (post : now ≤ later)
    (pre : stage (deriveAccess u now cfg).status = some place) :
    ∃ next, stage (deriveAccess u later cfg).status = some next ∧ place ≤ next := by
  cases paid : u.planExpiresAt with
  | none => simp [deriveAccess, paid, toDate, stage] at pre
  | some due =>
    obtain ⟨valid, closes⟩ := toDate_of_representable fits paid
    rw [(access_by_clock now valid closes).2.2.2] at pre
    rw [(access_by_clock later valid closes).2.2.2]
    cases pre
    exact ⟨_, rfl, stageAt_mono cfg due (overQuota u) post⟩

end

/-- Where purges are on, an account with blobs is purged once it is closed. -/
theorem purgeIsDue_iff_closed (setting : Setting) (now : Int) (u : User)
    (enabled : setting.config.purgeEnabled = true)
    (callable : setting.purge = true) (puts : 0 < u.usedStorage) :
    purgeIsDue setting now u = true ↔ (deriveAccess u now setting.config).status = .closed := by
  have due : purgeIsDue setting now u = true ↔
      ((deriveAccess u now setting.config).status = .readBlocked ∨
        (deriveAccess u now setting.config).status = .closed) ∧
      ∃ limit, (deriveAccess u now setting.config).purgeAt = some limit ∧
        reached now limit = true := by
    simp [purgeIsDue, enabled, callable, puts, Option.any_eq_true]
  rw [due]
  constructor
  · rintro ⟨-, limit, scheduled, past⟩
    exact closed_of_purgeAt scheduled past
  · intro shut
    exact ⟨.inr shut, purgeAt_of_closed shut⟩

/--
Rights only go with time and usage and only come with a longer plan or a
larger allowance; uploading needs reading, and reading deleting; the status
never moves backwards; purges fall due for closed accounts.
-/
theorem access_is_monotone (config : LifecycleConfig) :
    (∀ user better now earlier, Representable config user →
      Representable config better → Dominated user better →
      earlier ≤ now → Permits (deriveAccess user now config) (deriveAccess better earlier config)) ∧
    (∀ user now, ((deriveAccess user now config).canUpload →
        (deriveAccess user now config).canRead) ∧
      ((deriveAccess user now config).canRead → (deriveAccess user now config).canDelete)) ∧
    (∀ user now later, Representable config user → now ≤ later →
      ∀ place ∈ stage (deriveAccess user now config).status,
        ∃ next ∈ stage (deriveAccess user later config).status, place ≤ next) ∧
    (∀ setting now user, setting.config = config →
      config.purgeEnabled = true → setting.purge = true →
      0 < user.usedStorage → (purgeIsDue setting now user = true ↔
          (deriveAccess user now config).status = .closed)) := by
  refine ⟨?_, ?_, ?_, ?_⟩
  · intro user better now earlier fits representable' below pre
    exact permits_of_dominated fits representable' below pre
  · intro user now
    exact rights_nested user now config
  · intro user now later fits post place pre
    exact stage_mono fits post pre
  · rintro setting now user rfl enabled callable puts
    exact purgeIsDue_iff_closed setting now user enabled callable puts

/-- The windows of the default configuration. -/
def defaultWindows : LifecycleConfig where
  graceDays := 7
  writeBlockedDays := 30
  readBlockedDays := 30
  purgeEnabled := true

/-- An account over its allowance, and one with more days and more space. -/
def fullAccount : User where
  planExpiresAt := some 1000
  storageBytes := some 10
  usedStorage := 11

def roomyAccount : User where
  planExpiresAt := some 2000
  storageBytes := none
  usedStorage := 11

theorem access_is_monotone_sample : (deriveAccess fullAccount 1500 defaultWindows).canRead = true ∧
      Permits (deriveAccess fullAccount 1500 defaultWindows)
        (deriveAccess roomyAccount 900 defaultWindows) := by
  refine ⟨by decide, ?_⟩
  refine (access_is_monotone defaultWindows).1 fullAccount roomyAccount 1500
    900 ?_ ?_ ⟨?_, nofun, by decide⟩ (by decide)
  · rintro due ⟨⟩
    decide
  · rintro due ⟨⟩
    decide
  · rintro due ⟨⟩
    exact ⟨2000, rfl, by decide⟩

end StorageOrchestrator.Lifecycle.Monotone
