import StorageOrchestrator.Accounts.Entitlement

/-!
# Access states

The access of an account is derived from its plan, its usage and the clock.
After the plan ends there are three windows, in which less and less is allowed;
after the last one the account is closed.
-/

namespace StorageOrchestrator.Lifecycle.Access

open Accounts.Store Accounts.Entitlement

inductive UserStatus where
  | unpaid
  | active
  | grace
  | writeBlocked
  | readBlocked
  | closed
deriving DecidableEq, Repr

inductive Reason where
  | unpaid
  | active
  | graceExpiredPlan
  | graceOverQuota
  | writeBlocked
  | readBlocked
  | closed
deriving DecidableEq, Repr

/-- The windows in days, and whether closed accounts are purged. -/
structure LifecycleConfig where
  graceDays : Nat
  writeBlockedDays : Nat
  readBlockedDays : Nat
  purgeEnabled : Bool
deriving DecidableEq, Repr

/-- A date in milliseconds; an invalid date is `none`. -/
abbrev Date := Option Int

/-- Dates that are not there are `none`. -/
structure AccessState where
  status : UserStatus
  canUpload : Bool
  canRead : Bool
  canDelete : Bool
  graceUntil : Option Date
  writeBlockedUntil : Option Date
  readBlockedUntil : Option Date
  purgeAt : Option Date
  reason : Reason
deriving DecidableEq, Repr

/-- A valid date is the time it was made from. -/
theorem date_some (valid : date time = some result) : result = time := by
  simp only [date] at valid
  split at valid
  · exact (Option.some.inj valid).symm
  · cases valid

/-- `toDate`: an invalid date is taken for no date. -/
def toDate (value : Option Int) : Option Int := value.bind date

/-- `new Date(from.getTime() + days * DAY_MS)`. -/
def addDays (start : Date) (days : Nat) : Date := start.bind fun time => date (time + days * dayMs)

/-- `now.getTime() >= limit.getTime()`; no time is after an invalid date. -/
def reached (now : Int) (limit : Date) : Bool := limit.any fun time => time ≤ now

/-- `now.getTime() < limit.getTime()`; no time is before an invalid date. -/
def ahead (now : Int) (limit : Date) : Bool := limit.any fun time => now < time

/-- The end of the last window of a plan. -/
def closesAt (config : LifecycleConfig) (expiry : Int) : Date :=
  addDays (addDays (addDays (some expiry) config.graceDays)
    config.writeBlockedDays) config.readBlockedDays

def deriveAccess (user : User) (now : Int) (config : LifecycleConfig) : AccessState :=
  match toDate user.planExpiresAt with
  | none =>
    { status := .unpaid
      canUpload := false
      canRead := false
      canDelete := false
      graceUntil := none
      writeBlockedUntil := none
      readBlockedUntil := none
      purgeAt := none
      reason := .unpaid }
  | some expiry =>
    let graceUntil := addDays (some expiry) config.graceDays
    let writeBlockedUntil := addDays graceUntil config.writeBlockedDays
    let readBlockedUntil := addDays writeBlockedUntil config.readBlockedDays
    let overQuota := user.storageBytes.any fun allowance =>
      allowance < user.usedStorage
    if reached now readBlockedUntil then
      { status := .closed
        canUpload := false
        canRead := false
        canDelete := false
        graceUntil := some graceUntil
        writeBlockedUntil := some writeBlockedUntil
        readBlockedUntil := some readBlockedUntil
        purgeAt := some readBlockedUntil
        reason := .closed }
    else if now < expiry then
      if overQuota then
        { status := .grace
          canUpload := false
          canRead := true
          canDelete := true
          graceUntil := some graceUntil
          writeBlockedUntil := some writeBlockedUntil
          readBlockedUntil := some readBlockedUntil
          purgeAt := none
          reason := .graceOverQuota }
      else
        { status := .active
          canUpload := true
          canRead := true
          canDelete := true
          graceUntil := none
          writeBlockedUntil := none
          readBlockedUntil := none
          purgeAt := none
          reason := .active }
    else if ahead now graceUntil then
      { status := .grace
        canUpload := false
        canRead := true
        canDelete := true
        graceUntil := some graceUntil
        writeBlockedUntil := some writeBlockedUntil
        readBlockedUntil := some readBlockedUntil
        purgeAt := none
        reason := if overQuota then .graceOverQuota else .graceExpiredPlan }
    else if ahead now writeBlockedUntil then
      { status := .writeBlocked
        canUpload := false
        canRead := true
        canDelete := true
        graceUntil := some graceUntil
        writeBlockedUntil := some writeBlockedUntil
        readBlockedUntil := some readBlockedUntil
        purgeAt := none
        reason := .writeBlocked }
    else
      { status := .readBlocked
        canUpload := false
        canRead := false
        canDelete := true
        graceUntil := some graceUntil
        writeBlockedUntil := some writeBlockedUntil
        readBlockedUntil := some readBlockedUntil
        purgeAt := some readBlockedUntil
        reason := .readBlocked }

/-! ## Closed accounts -/

/-- The windows of a plan are over. -/
def PlanClosed (config : LifecycleConfig) (now : Int) (plan : Option Int) : Prop :=
  ∃ expiry, toDate plan = some expiry ∧ reached now (closesAt config expiry) = true

/-- An account is closed when the windows of its plan are over. -/
theorem closed_iff (u : User) (now : Int) (cfg : LifecycleConfig) :
    (deriveAccess u now cfg).status = .closed ↔ PlanClosed cfg now u.planExpiresAt := by
  unfold deriveAccess PlanClosed
  split
  · rename_i unpaid
    simp [unpaid]
  · rename_i due paid
    simp only [paid, Option.some.injEq, exists_eq_left']
    split
    · rename_i past
      exact ⟨fun _ => past, fun _ => rfl⟩
    · rename_i stillOpen
      refine ⟨fun shut => ?_, fun past => absurd past stillOpen⟩
      split at shut
      · split at shut <;> cases shut
      · split at shut
        · cases shut
        · split at shut <;> cases shut

/-- A plan stays closed as time passes. -/
theorem PlanClosed.later {cfg : LifecycleConfig} {now later : Int}
    {plan : Option Int} (shut : PlanClosed cfg now plan)
    (post : now ≤ later) : PlanClosed cfg later plan := by
  obtain ⟨due, paid, past⟩ := shut
  refine ⟨due, paid, ?_⟩
  simp only [reached, Option.any_eq_true, decide_eq_true_eq] at past ⊢
  obtain ⟨limit, isLimit, pre⟩ := past
  exact ⟨limit, isLimit, Int.le_trans pre post⟩

/-- An account whose purge is due is closed. -/
theorem closed_of_purgeAt (due : (deriveAccess user now config).purgeAt = some limit)
    (past : reached now limit = true) :
    (deriveAccess user now config).status = .closed := by
  simp only [deriveAccess] at due ⊢
  split at due
  · cases due
  · split at due
    · rename_i isOver
      rw [if_pos isOver]
    · rename_i stillOpen
      split at due
      · split at due <;> cases due
      · split at due
        · cases due
        · split at due
          · cases due
          · cases due
            exact absurd past stillOpen

/-- The purge of a closed account is scheduled, and its time has come. -/
theorem purgeAt_of_closed (shut : (deriveAccess user now config).status = .closed) :
    ∃ limit, (deriveAccess user now config).purgeAt = some limit ∧ reached now limit = true := by
  simp only [deriveAccess] at shut ⊢
  split at shut
  · cases shut
  · split at shut
    · rename_i past
      rw [if_pos past]
      exact ⟨_, rfl, past⟩
    · split at shut
      · split at shut <;> cases shut
      · split at shut
        · cases shut
        · split at shut <;> cases shut

end StorageOrchestrator.Lifecycle.Access
