import StorageOrchestrator.Accounts.Entitlement

/-!
# Sequences of entitlements

Each accepted request moves the end of a plan by its duration, from the end
reached so far or from the time of the request, whichever is later.  Over a
whole sequence the end of the plan is a maximum: the old end with all
durations added, or the time of some request with its own and all later
durations added.

A `Date` ends 100,000,000 days after 1970.  The closed form is reached as
long as it is a date; beyond that some request of the sequence is answered
with an invalid date.
-/

namespace StorageOrchestrator.Accounts.Extension

open Accounts.Entitlement Accounts.Store

/--
A parsed request without an expiry override, and when it is served; the parser
refuses durations that are not positive.
-/
structure Visit where
  now : Int
  request : EntitlementRequest
  plain : request.planExpiresAt = none
  positive : 0 < request.durationDays

/-! ## Serving a sequence -/

/-- The row after an effect; an invalid date cannot be stored. -/
def stored (user : User) (effect : EntitlementEffect) : Option User :=
  effect.planExpiresAt.map fun expiry =>
    { user with
      planExpiresAt := some expiry
      storageBytes := effect.storageBytes }

def entitle (user : User) (visit : Visit) : Except EntitlementError (Option User) :=
  (computeEntitlement user visit.request visit.now).map (stored user)

/-- Every request that is reached is accepted. -/
def Accepted : User → List Visit → Prop
  | _, [] => True
  | user, visit :: rest =>
    ∃ after, entitle user visit = .ok after ∧ ∀ next ∈ after, Accepted next rest

/-- The row after a sequence; nothing if a request fails or has no date. -/
def entitleAll : User → List Visit → Option User
  | user, [] => some user
  | user, visit :: rest =>
    match entitle user visit with
    | .ok (some next) => entitleAll next rest
    | _ => none

/-- The requests of a sequence, each with the row it found. -/
def history : User → List Visit → List (User × Visit)
  | _, [] => []
  | user, visit :: rest =>
    (user, visit) ::
      match entitle user visit with
      | .ok (some next) => history next rest
      | _ => []

/-! ## The closed form -/

def Visit.length (visit : Visit) : Int := visit.request.durationDays * dayMs

/-- The durations of a sequence added up. -/
def total (visits : List Visit) : Int := (visits.map Visit.length).sum

/-- For each request its time with its own and all later durations. -/
def restarts (visits : List Visit) : List Int :=
  visits.tails.filterMap fun rest =>
    rest.head?.map fun first => first.now + total rest

/-- The end of a plan after a sequence. -/
def closedForm (start : Int) (visits : List Visit) : Int :=
  (restarts visits).foldl max (start + total visits)

/-- The request was an upgrade, was forced, or found the plan not live. -/
def applies (found : User × Visit) : Bool :=
  found.2.request.mode = some .upgrade || found.2.request.force || !isLive found.1 found.2.now

/-- What the last request that applies its allowance asked for. -/
def lastAllowance (user : User) (visits : List Visit) : Option Int :=
  match ((history user visits).filter applies).getLast? with
  | some found => some found.2.request.storageBytesBig
  | none => user.storageBytes

theorem total_cons (visit : Visit) (rest : List Visit) :
    total (visit :: rest) = visit.length + total rest := by
  simp [total]

theorem total_nonneg (visits : List Visit) : 0 ≤ total visits := by
  induction visits with
  | nil => exact Int.le_refl 0
  | cons visit rest ih =>
    have pos := visit.positive
    rw [total_cons, Visit.length, dayMs]
    omega

/-- One request moves the start of the rest of the sequence. -/
theorem closedForm_cons (start : Int) (visit : Visit) (rest : List Visit) :
    closedForm start (visit :: rest) = closedForm (max visit.now start + visit.length) rest := by
  have first : max (start + total (visit :: rest)) (visit.now + total (visit :: rest)) =
        max visit.now start + visit.length + total rest := by
    rw [total_cons]
    omega
  have later : restarts (visit :: rest) = (visit.now + total (visit :: rest)) :: restarts rest := by
    simp [restarts]
  rw [closedForm, later, List.foldl_cons, first, closedForm]

/-- The closed form is never before the old end with all durations added. -/
theorem le_closedForm (start : Int) (visits : List Visit) :
    start + total visits ≤ closedForm start visits := by
  induction visits generalizing start with
  | nil => exact Int.le_refl _
  | cons visit rest ih =>
    have later := ih (max visit.now start + visit.length)
    rw [closedForm_cons, total_cons]
    omega

/-! ## One request -/

/-- The last moment that a `Date` can hold. -/
def lastDate : Int := 8640000000000000

theorem date_eq (low : -lastDate ≤ time) :
    date time = if time ≤ lastDate then some time else none := by
  have bound : time.natAbs ≤ 8640000000000000 ↔ time ≤ lastDate := by
    rw [lastDate] at low ⊢
    omega
  simp [date, bound]

def allowance (user : User) (visit : Visit) : Option Int :=
  if applies (user, visit) then some visit.request.storageBytesBig
  else user.storageBytes

/-- The end of the plan that a request computes. -/
def moved (user : User) (visit : Visit) : Int :=
  max visit.now (user.planExpiresAt.getD 0) + visit.length

/-- An accepted request moves the end and perhaps applies its allowance. -/
theorem entitle_ok (ok : entitle u visit = .ok after) :
    after = (date (moved u visit)).map fun due =>
      { u with
        planExpiresAt := some due
        storageBytes := allowance u visit } := by
  have plain := visit.plain
  simp only [entitle, computeEntitlement] at ok
  split at ok
  · cases ok
  · rename_i allowed
    cases ok
    have preserved : (visit.request.mode.getD .extend = .extend &&
        isLive u visit.now && !visit.request.force) = !applies (u, visit) := by
      cases live : isLive u visit.now <;>
        cases force : visit.request.force <;>
        rcases mode : visit.request.mode with _ | ⟨_ | _⟩ <;>
        simp_all [applies]
    rw [plain]
    simp only [stored, preserved, allowance, moved, Visit.length, Bool.not_eq_true']
    cases applies (u, visit) <;> rfl

/-- The end after a request lies within the dates, or beyond the last one. -/
theorem date_moved {u : User} (visit : Visit) (low : -lastDate ≤ u.planExpiresAt.getD 0) :
    date (moved u visit) =
      if moved u visit ≤ lastDate then some (moved u visit)
      else none := by
  apply date_eq
  have pos := visit.positive
  rw [moved, Visit.length, dayMs]
  omega

/-! ## A sequence -/

/-- A later request that applies its allowance has the last word. -/
theorem lastAllowance_cons (ran : entitle u visit = .ok (some next))
    (done : next.storageBytes = allowance u visit) :
    lastAllowance u (visit :: rest) = lastAllowance next rest := by
  have found : history u (visit :: rest) = (u, visit) :: history next rest := by
    simp [history, ran]
  simp only [lastAllowance, found, List.filter_cons]
  cases later : (history next rest).filter applies with
  | nil =>
    rw [allowance] at done
    by_cases own : applies (u, visit) = true
    · simp [own, done]
    · simp [own, done]
  | cons first them =>
    have eq : (if applies (u, visit) = true then
        (u, visit) :: first :: them else first :: them).getLast? = (first :: them).getLast? := by
      split
      · rw [List.getLast?_cons_cons]
      · rfl
    rw [eq, List.getLast?_cons]

/-- A sequence from an end that is a date. -/
theorem entitleAll_of_range (seen : List Visit) (u : User)
    (low : -lastDate ≤ u.planExpiresAt.getD 0) (high : u.planExpiresAt.getD 0 ≤ lastDate)
    (ok : Accepted u seen) :
    if closedForm (u.planExpiresAt.getD 0) seen ≤ lastDate then
      ∃ final, entitleAll u seen = some final ∧ final.planExpiresAt.getD 0 =
      closedForm (u.planExpiresAt.getD 0) seen ∧
      final.storageBytes = lastAllowance u seen
    else entitleAll u seen = none := by
  induction seen generalizing u with
  | nil =>
    rw [if_pos (by simpa [closedForm, restarts, total] using high)]
    exact ⟨u, rfl, by simp [closedForm, restarts, total], rfl⟩
  | cons visit rest ih =>
    obtain ⟨post, ran, later⟩ := ok
    have res := entitle_ok ran
    have pre := closedForm_cons (u.planExpiresAt.getD 0) visit rest
    rw [date_moved visit low] at res
    rw [pre, ← moved]
    by_cases mem : moved u visit ≤ lastDate
    · rw [if_pos mem, Option.map_some] at res
      subst res
      have start : -lastDate ≤ moved u visit := by
        have pos := visit.positive
        rw [moved, Visit.length, dayMs]
        omega
      have continues := later _ rfl
      have next := ih _ (by exact start) (by exact mem) continues
      rw [lastAllowance_cons ran rfl]
      simpa [entitleAll, ran] using next
    · rw [if_neg mem, Option.map_none] at res
      subst res
      have beyond := le_closedForm (moved u visit) rest
      have more := total_nonneg rest
      rw [if_neg (by omega)]
      simp [entitleAll, ran]

/--
The end of the plan after an accepted sequence is the closed form, and the
allowance is that of the last request that applied its own, exactly as long
as the closed form is a date.
-/
theorem entitleAll_closed_form (user : User) (visits : List Visit)
    (isDate : ∀ expiry ∈ user.planExpiresAt, date expiry = some expiry)
    (accepted : Accepted user visits) :
    if closedForm (user.planExpiresAt.getD 0) visits ≤ lastDate then
      ∃ final, entitleAll user visits = some final ∧ final.planExpiresAt.getD 0 =
          closedForm (user.planExpiresAt.getD 0) visits ∧
        final.storageBytes = lastAllowance user visits
    else entitleAll user visits = none := by
  have range : -lastDate ≤ user.planExpiresAt.getD 0 ∧ user.planExpiresAt.getD 0 ≤ lastDate := by
    cases known : user.planExpiresAt with
    | none => simp [lastDate]
    | some expiry =>
      have valid := isDate expiry known
      simp only [date, ite_eq_left_iff, reduceCtorEq, imp_false, not_not] at valid
      simp only [Option.getD_some, lastDate]
      omega
  exact entitleAll_of_range visits user range.1 range.2 accepted

/-- A request for more days on a live plan. -/
def extension (days : Int) (bytes : Int) : EntitlementRequest where
  durationDays := days
  source := .admin
  storageBytesBig := bytes
  mode := some .extend
  force := false
  paymentHash := none
  planExpiresAt := none

/-- An extension, a gap after the end of the plan, and two more of them. -/
def threeVisits : List Visit :=
  [⟨0, extension 30 500, rfl, by decide⟩,
    ⟨3456000000, extension 10 200, rfl, by decide⟩,
    ⟨3456000001, extension 1 900, rfl, by decide⟩]

theorem entitleAll_closed_form_three : ∃ final, entitleAll .fresh threeVisits = some final ∧
      final.planExpiresAt.getD 0 = 4406400000 ∧
      final.storageBytes = some 200 := by
  have ok : Accepted .fresh threeVisits := by
    refine ⟨_, rfl, ?_⟩
    rintro next ⟨⟩
    refine ⟨_, rfl, ?_⟩
    rintro next ⟨⟩
    refine ⟨_, rfl, ?_⟩
    rintro next ⟨⟩
    trivial
  have res := entitleAll_closed_form .fresh threeVisits nofun ok
  have form : closedForm 0 threeVisits = 4406400000 := by decide
  have last : lastAllowance .fresh threeVisits = some 200 := by decide
  rw [show User.fresh.planExpiresAt.getD 0 = 0 from rfl, form, last, if_pos (by decide)] at res
  exact res

/-- The plan ends at the last date there is. -/
def lastingUser : User where
  planExpiresAt := some 8640000000000000
  storageBytes := some 500
  usedStorage := 0

/-- One more day is accepted, and the new end is an invalid date. -/
theorem extension_beyond_last_date : date 8640000000000000 = some 8640000000000000 ∧
      closedForm 8640000000000000 [⟨0, extension 1 500, rfl, by decide⟩] = 8640000086400000 ∧
      computeEntitlement lastingUser (extension 1 500) 0 =
        .ok { planExpiresAt := none, storageBytes := some 500 } := by
  decide

end StorageOrchestrator.Accounts.Extension
