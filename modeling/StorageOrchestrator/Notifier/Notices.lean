import StorageOrchestrator.Notifier.Delivery

/-!
# When notices are due, and under which keys

`dueNotifications` compares the days that are left after rounding them up, so
for a whole day after its end a plan still expires in 0 days.  A notice is
logged under its kind and the expiry of the plan.  The reason of the access
state is not part of that key, although the text of a notice depends on it.
-/

namespace StorageOrchestrator.Notifier.Notices

open Accounts.Entitlement Lib.Transition Lifecycle.Access Notifier.Delivery List
open Lifecycle.Purging (UserRow)

/-- An account as a pass finds it. -/
structure Visit where
  row : UserRow
  now : Int

def Visit.access (visit : Visit) (options : Options) : AccessState :=
  deriveAccess visit.row visit.now options.setting.config

def Visit.due (visit : Visit) (options : Options) : List DueNotification :=
  dueNotifications options.wording visit.row (visit.access options) options.notify visit.now

variable {options : Options} {visit : Visit} {expiry : Int}

/-- The days of a warning before the expiry have come, and the day after it is not over. -/
def Visit.Near (visit : Visit) (expiry : Int) (days : Nat) : Prop :=
  visit.now < expiry + dayMs ∧ expiry - visit.now ≤ days * dayMs

/-- The day count is rounded up, so 0 days last until a day after the expiry. -/
theorem near_iff {days : Nat} : visit.Near expiry days ↔
    0 ≤ daysUntil expiry visit.now ∧ daysUntil expiry visit.now ≤ days := by
  simp only [Visit.Near, daysUntil, dayMs]
  omega

/-! ## Expiry warnings -/

/-- The warning of a threshold is among the notices. -/
def Visit.Warns (visit : Visit) (options : Options) (expiry : Int) (days : Nat) : Prop :=
  ∃ notice ∈ visit.due options, expiryWarning options.wording expiry visit.now days = some notice

/--
A warning is due exactly in its last days before the expiry; so none is due
after the expiry, and with one those of all larger thresholds are due.
-/
def OnTime (options : Options) (visit : Visit) (expiry : Int) : Prop :=
  (∀ days ∈ options.notify.expiryWarningDays, visit.Warns options expiry days ↔
      visit.now < expiry ∧ expiry - visit.now ≤ days * dayMs) ∧
    (expiry ≤ visit.now →
      ∀ days ∈ options.notify.expiryWarningDays, ¬ visit.Warns options expiry days) ∧
    ∀ days ∈ options.notify.expiryWarningDays, ∀ more ∈ options.notify.expiryWarningDays,
      days ≤ more → visit.Warns options expiry days → visit.Warns options expiry more

section

variable (planned : visit.row.planExpiresAt = some expiry)
  (notClosed : (visit.access options).status ≠ .closed)
include planned notClosed

theorem warns_iff {days : Nat} (mem : days ∈ options.notify.expiryWarningDays) :
    visit.Warns options expiry days ↔ visit.Near expiry days := by
  rw [near_iff]
  constructor
  · rintro ⟨notice, -, warn⟩
    by_contra early
    simp [expiryWarning, early] at warn
  · intro late
    have warn : expiryWarning options.wording expiry visit.now days = some _ := if_pos late
    refine ⟨_, ?_, warn⟩
    simp only [Visit.due, dueNotifications, planned, notClosed, if_false, mem_append]
    exact .inl (.inl (mem_filterMap.mpr ⟨days, mem, warn⟩))

/--
Warnings are on time except for the day after the expiry, if there is any
threshold.
-/
theorem warnings_on_time_iff : OnTime options visit expiry ↔
    options.notify.expiryWarningDays = [] ∨ visit.now < expiry ∨ expiry + dayMs ≤ visit.now := by
  constructor
  · rintro ⟨-, silent, -⟩
    by_contra late
    simp only [not_or, not_lt, not_le] at late
    obtain ⟨days, mem⟩ := exists_mem_of_ne_nil _ late.1
    refine silent late.2.1 days mem ((warns_iff planned notClosed mem).mpr ⟨late.2.2, ?_⟩)
    simp only [dayMs]
    omega
  · intro calm
    have due : ∀ days ∈ options.notify.expiryWarningDays, visit.Warns options expiry days ↔
        visit.now < expiry ∧ expiry - visit.now ≤ days * dayMs := by
      intro days mem
      have apart := calm.resolve_left (ne_nil_of_mem mem)
      rw [warns_iff planned notClosed mem]
      simp only [Visit.Near, dayMs] at apart ⊢
      omega
    refine ⟨due, fun past days mem warned => ?_, fun days mem more isMore le warned => ?_⟩
    · exact absurd ((due days mem).mp warned).1 (not_lt.mpr past)
    · rw [warns_iff planned notClosed mem] at warned
      rw [warns_iff planned notClosed isMore]
      simp only [Visit.Near, dayMs] at warned ⊢
      omega

end

/-- An account whose plan ended at time 0. -/
def endedPlan (usedStorage now : Int) : Visit := ⟨⟨some 0, some 10, usedStorage⟩, now⟩

/-- An hour after its end, the plan expires in 0 days. -/
theorem expired_plan_is_announced : ¬ OnTime sampleOptions (endedPlan 0 3600000) 0 := by
  rintro ⟨-, silent, -⟩
  exact silent (by decide) 1 (by decide) ⟨_, by decide, rfl⟩

theorem warnings_on_time_before : OnTime sampleOptions (endedPlan 0 (-1)) 0 :=
  (warnings_on_time_iff rfl (by decide)).mpr (.inr (.inl (by decide)))

/-! ## Keys -/

/-- Notices of different kinds or for different reasons have different keys. -/
def Separated (options : Options) (npub : String) (first later : Visit) : Prop :=
  ∀ task ∈ options.tasks npub (first.due options),
    ∀ other ∈ options.tasks npub (later.due options),
      task.notification.kind ≠ other.notification.kind ∨
          (first.access options).reason ≠ (later.access options).reason →
        task.key ≠ other.key

/-- A percentage of the allowance is used. -/
def Visit.Filled (visit : Visit) (threshold : Nat) : Prop :=
  ∃ allowance, visit.row.storageBytes = some allowance ∧ 0 < allowance ∧
    threshold ≤ (visit.row.usedStorage * 100).tdiv allowance

/-- Over the allowance before the expiry, or in the grace days after it. -/
def Visit.InGrace (visit : Visit) (config : LifecycleConfig) (expiry : Int) : Prop :=
  if visit.now < expiry then
    (visit.row.storageBytes.any fun allowance => allowance < visit.row.usedStorage) = true
  else ahead visit.now (addDays (some expiry) config.graceDays) = true

/--
Two visits of an account with one expiry meet: before the account closes, both
are near the expiry, or have used a percentage that is warned of, or are in the
grace period.
-/
def Meet (options : Options) (first later : Visit) : Prop :=
  ∃ expiry, (∀ visit ∈ [first, later], visit.row.planExpiresAt = some expiry ∧
      ¬ PlanClosed options.setting.config visit.now visit.row.planExpiresAt) ∧
    ((∃ days ∈ options.notify.expiryWarningDays, ∀ visit ∈ [first, later], visit.Near expiry days) ∨
      (∃ threshold ∈ options.notify.quotaWarningPercent,
        ∀ visit ∈ [first, later], visit.Filled threshold) ∨
      ∀ visit ∈ [first, later], visit.InGrace options.setting.config expiry)

theorem mem_tasks {task : Task} : task ∈ options.tasks npub due ↔
    task.npub = npub ∧ task.notification ∈ due ∧ task.channel ∈ options.channels := by
  obtain ⟨_, notice, channel⟩ := task
  simp only [Options.tasks, mem_flatMap, mem_map]
  constructor
  · rintro ⟨_, isDue, _, among, ⟨⟩⟩
    exact ⟨rfl, isDue, among⟩
  · rintro ⟨rfl, isDue, among⟩
    exact ⟨notice, isDue, channel, among, rfl⟩

/-- Why a kind of notice is due. -/
inductive Cause (options : Options) (visit : Visit) (expiry : Int) : String → Prop
  | near {days : Nat} (mem : days ∈ options.notify.expiryWarningDays)
      (near : visit.Near expiry days) :
      Cause options visit expiry ("expiry_warning_" ++ toString days)
  | filled {threshold : Nat} (mem : threshold ∈ options.notify.quotaWarningPercent)
      (filled : visit.Filled threshold) :
      Cause options visit expiry ("quota_warning_" ++ toString threshold)
  | grace (status : (visit.access options).status = .grace) :
      Cause options visit expiry "grace_entered"
  | writeBlocked (status : (visit.access options).status = .writeBlocked) :
      Cause options visit expiry "write_blocked"
  | readBlocked (status : (visit.access options).status = .readBlocked) :
      Cause options visit expiry "read_blocked"

theorem Cause.kind_ne_purged (cause : Cause options visit expiry kind) : kind ≠ "purged" := by
  intro same
  have head := congrArg (fun kind => kind.toList.head?) same
  cases cause <;> simp at head

/-- Every notice has a cause and refers to the expiry of the plan. -/
theorem cause_of_due {notice : DueNotification} (mem : notice ∈ visit.due options) :
    ∃ expiry, visit.row.planExpiresAt = some expiry ∧ (visit.access options).status ≠ .closed ∧
      Cause options visit expiry notice.kind ∧ notice.ref = options.wording.toISOString expiry := by
  simp only [Visit.due, dueNotifications] at mem
  split at mem
  · cases mem
  · rename_i expiry planned
    split at mem
    · cases mem
    · rename_i notClosed
      refine ⟨expiry, planned, notClosed, ?_⟩
      simp only [mem_append, mem_filterMap, Option.mem_toList] at mem
      obtain (⟨days, among, warn⟩ | quota) | stage := mem
      · simp only [expiryWarning] at warn
        split at warn <;> cases warn
        rename_i near
        exact ⟨.near among (near_iff.mpr near), rfl⟩
      · split at quota
        · cases quota
        · rename_i allowance allowed
          split at quota
          · rename_i positive
            obtain ⟨threshold, among, warn⟩ := mem_filterMap.mp quota
            simp only [quotaWarning] at warn
            split at warn <;> cases warn
            rename_i filled
            exact ⟨.filled among ⟨allowance, allowed, positive, filled⟩, rfl⟩
          · cases quota
      · simp only [stageNotification] at stage
        split at stage <;> cases stage
        · rename_i status
          exact ⟨.grace status, rfl⟩
        · rename_i status
          exact ⟨.writeBlocked status, rfl⟩
        · rename_i status
          exact ⟨.readBlocked status, rfl⟩

/-- What has a cause is due. -/
theorem due_of_cause (planned : visit.row.planExpiresAt = some expiry)
    (notClosed : (visit.access options).status ≠ .closed)
    (cause : Cause options visit expiry kind) :
    ∃ notice ∈ visit.due options, notice.kind = kind ∧
      notice.ref = options.wording.toISOString expiry := by
  simp only [Visit.due, dueNotifications, planned, notClosed, if_false, mem_append]
  cases cause with
  | near among near =>
    refine ⟨_, .inl (.inl (mem_filterMap.mpr ⟨_, among, if_pos (near_iff.mp near)⟩)), rfl, rfl⟩
  | filled among filled =>
    obtain ⟨allowance, allowed, positive, percent⟩ := filled
    simp only [allowed, positive, if_true]
    refine ⟨_, .inl (.inr (mem_filterMap.mpr ⟨_, among, if_pos percent⟩)), rfl, rfl⟩
  | grace status | writeBlocked status | readBlocked status =>
    simp only [stageNotification, status, Option.mem_toList]
    exact ⟨_, .inr rfl, rfl, rfl⟩

/-- The windows of an open account in which it is in its grace period. -/
theorem grace_iff (dated : toDate visit.row.planExpiresAt = some expiry)
    (notClosed : (visit.access options).status ≠ .closed) :
    (visit.access options).status = .grace ↔ visit.InGrace options.setting.config expiry := by
  simp only [Visit.access, deriveAccess, dated, Visit.InGrace] at notClosed ⊢
  split at notClosed
  · exact absurd rfl notClosed
  · rename_i stillOpen
    rw [if_neg stillOpen]
    split
    · split <;> simp_all
    · split
      · simp_all
      · split <;> simp_all

/-- In the later windows the status is the reason. -/
theorem reason_of_blocked : ((visit.access options).status = .writeBlocked →
      (visit.access options).reason = .writeBlocked) ∧
    ((visit.access options).status = .readBlocked →
      (visit.access options).reason = .readBlocked) := by
  simp only [Visit.access, deriveAccess]
  split
  · simp
  · split_ifs <;> simp

theorem inGrace_of_status (planned : visit.row.planExpiresAt = some expiry)
    (status : (visit.access options).status = .grace) :
    visit.InGrace options.setting.config expiry := by
  have notClosed : (visit.access options).status ≠ .closed := by simp [status]
  cases dated : toDate visit.row.planExpiresAt with
  | none => simp [Visit.access, deriveAccess, dated] at status
  | some time =>
    rw [grace_iff dated notClosed] at status
    rw [planned] at dated
    rwa [date_some dated] at status

/-- Two visits with causes of one kind meet, unless the reason is the same. -/
theorem meet_of_cause {first later : Visit}
    (planned : ∀ visit ∈ [first, later], visit.row.planExpiresAt = some expiry)
    (notClosed : ∀ visit ∈ [first, later], (visit.access options).status ≠ .closed)
    (reasons : (first.access options).reason ≠ (later.access options).reason)
    (cause : Cause options first expiry kind) (other : Cause options later expiry otherKind)
    (same : kind = otherKind) : Meet options first later := by
  have head := congrArg (fun kind => kind.toList.head?) same
  refine ⟨expiry, fun visit mem => ⟨planned visit mem, ?_⟩, ?_⟩
  · rw [← closed_iff]
    exact notClosed visit mem
  · simp only [forall_mem_cons, not_mem_nil, false_imp_iff, implies_true, and_true] at planned ⊢
    cases cause <;> cases other <;> try simp at head
    · rename_i days among near more _ nearToo
      cases Nat.repr_injective ((String.append_right_inj _).mp same)
      exact .inl ⟨days, among, near, nearToo⟩
    · rename_i threshold among filled more _ filledToo
      cases Nat.repr_injective ((String.append_right_inj _).mp same)
      exact .inr (.inl ⟨threshold, among, filled, filledToo⟩)
    · rename_i status graceToo
      exact .inr (.inr ⟨inGrace_of_status planned.1 status, inGrace_of_status planned.2 graceToo⟩)
    · rename_i status blockedToo
      exact absurd
        ((reason_of_blocked.1 status).trans (reason_of_blocked.1 blockedToo).symm) reasons
    · rename_i status blockedToo
      exact absurd
        ((reason_of_blocked.2 status).trans (reason_of_blocked.2 blockedToo).symm) reasons

/-- Two visits that meet for different reasons have causes of one kind. -/
theorem cause_of_meet {first later : Visit} (meet : Meet options first later)
    (reasons : (first.access options).reason ≠ (later.access options).reason) :
    ∃ expiry kind, ∀ visit ∈ [first, later], visit.row.planExpiresAt = some expiry ∧
      (visit.access options).status ≠ .closed ∧ Cause options visit expiry kind := by
  obtain ⟨expiry, stillOpen, kinds⟩ := meet
  have notClosed : ∀ visit ∈ [first, later], (visit.access options).status ≠ .closed := by
    intro visit mem closed
    exact (stillOpen visit mem).2 ((closed_iff _ _ _).mp closed)
  rcases kinds with ⟨days, among, near⟩ | ⟨threshold, among, filled⟩ | grace
  · exact ⟨expiry, _, fun visit mem =>
      ⟨(stillOpen visit mem).1, notClosed visit mem, .near among (near visit mem)⟩⟩
  · exact ⟨expiry, _, fun visit mem =>
      ⟨(stillOpen visit mem).1, notClosed visit mem, .filled among (filled visit mem)⟩⟩
  · cases dated : toDate (some expiry) with
    | none =>
      simp only [forall_mem_cons] at stillOpen
      simp [Visit.access, deriveAccess, stillOpen.1.1, stillOpen.2.1.1, dated] at reasons
    | some time =>
      cases date_some dated
      refine ⟨expiry, _, fun visit mem => ⟨(stillOpen visit mem).1, notClosed visit mem, .grace ?_⟩⟩
      have planned := (stillOpen visit mem).1
      rw [← planned] at dated
      rw [grace_iff (dated.trans planned) (notClosed visit mem)]
      exact grace visit mem

/-- Two visits share a key for different reasons exactly when they meet. -/
theorem separated_iff_not_meet (readable : options.wording.toISOString.Injective)
    {first later : Visit}
    (reasons : (first.access options).reason ≠ (later.access options).reason) :
    (∀ task ∈ options.tasks npub (first.due options),
      ∀ other ∈ options.tasks npub (later.due options), task.key ≠ other.key) ↔
        ¬ Meet options first later := by
  constructor
  · intro keys meet
    obtain ⟨expiry, kind, causes⟩ := cause_of_meet meet reasons
    simp only [forall_mem_cons, not_mem_nil, false_imp_iff, implies_true, and_true] at causes
    obtain ⟨⟨planned, notClosed, cause⟩, replanned, stillOpen, other⟩ := causes
    obtain ⟨notice, isDue, isKind, ref⟩ := due_of_cause planned notClosed cause
    obtain ⟨again, againDue, sameKind, sameRef⟩ := due_of_cause replanned stillOpen other
    have email : Channel.email ∈ options.channels := by simp [Options.channels]
    refine keys ⟨npub, notice, .email⟩ (mem_tasks.mpr ⟨rfl, isDue, email⟩)
      ⟨npub, again, .email⟩ (mem_tasks.mpr ⟨rfl, againDue, email⟩) ?_
    simp [Task.key, isKind, sameKind, ref, sameRef]
  · intro apart task mem other otherMem same
    obtain ⟨expiry, planned, notClosed, cause, ref⟩ := cause_of_due (mem_tasks.mp mem).2.1
    obtain ⟨renewed, replanned, stillOpen, again, otherRef⟩ :=
      cause_of_due (mem_tasks.mp otherMem).2.1
    cases readable (ref.symm.trans ((congrArg Key.ref same).trans otherRef))
    refine apart (meet_of_cause ?_ ?_ reasons cause again (congrArg Key.kind same))
    · simp [planned, replanned]
    · simp [notClosed, stillOpen]

/-! ## Runs -/

/-- The key that a pass logs at a step for a due notice, and the visit that made it. -/
def logging (world : World) : Event → List (Key × Visit)
  | .pass number (.logged delivery) =>
    match world.passes[number]? with
    | some ⟨now, .delivering .due (task :: _) spot⟩ =>
      if delivery.executed then [(task.key, ⟨spot.item.2, now⟩)] else []
    | _ => []
  | _ => []

/-- The tasks of a pass are notices of the visit it is at, or of a purge. -/
def Faithful (options : Options) (pass : Pass) : Prop :=
  match pass.phase with
  | .delivering stage tasks spot | .sending _ stage tasks spot => told stage tasks spot
  | _ => True
where
  told (stage : Stage) (tasks : List Task) (spot : Spot) : Prop :=
    match stage with
    | .due => tasks ⊆ options.tasks spot.item.1 (Visit.due ⟨spot.item.2, pass.now⟩ options)
    | .purged => ∀ task ∈ tasks, task.key.kind = "purged"

/-- A key that was there, that tells of a purge, or that was logged for a notice due at a visit. -/
def Told (options : Options) (initial : List Key) (seen : List (Key × Visit)) (key : Key) : Prop :=
  key ∈ initial ∨ key.kind = "purged" ∨
    ∃ visit, (key, visit) ∈ seen ∧
      key ∈ (options.tasks key.npub (visit.due options)).map Task.key

/-- All keys are told, and all passes faithful. -/
structure AllTold (options : Options) (initial : List Key) (seen : List (Key × Visit))
    (world : World) : Prop where
  logged : ∀ key ∈ world.log, Told options initial seen key
  faithful : ∀ pass ∈ world.passes, Faithful options pass

section

variable {initial : List Key} {seen : List (Key × Visit)} {world next : World} {pass : Pass}

theorem faithful_of_passStep (faithful : Faithful options pass)
    (replied : passStep options world pass reply = some moved) :
    Faithful options ⟨pass.now, moved.phase⟩ := by
  obtain ⟨now, phase⟩ := pass
  cases reply with
  | listed order sent =>
    simp only [passStep] at replied
    split at replied
    · split at replied <;> cases replied <;> trivial
    · cases replied
  | logged sent =>
    simp only [passStep] at replied
    split at replied
    · rename_i stage task tasks spot
      have rest : Faithful options ⟨now, .delivering stage tasks spot⟩ := by
        cases stage with
        | due => exact (cons_subset.mp faithful).2
        | purged => exact fun task mem => faithful task (mem_cons_of_mem _ mem)
      split at replied <;> cases replied <;> exact rest
    · cases replied
  | send result =>
    simp only [passStep] at replied
    split at replied <;> cases replied
    exact faithful
  | purge purged =>
    simp only [passStep] at replied
    split at replied
    · split at replied <;> cases replied
      · intro task mem
        have isPurged := mem_singleton.mp (mem_tasks.mp mem).2.1
        rw [Task.key, isPurged]
        rfl
      · trivial
    · cases replied
  | proceed =>
    simp only [passStep] at replied
    split at replied <;> cases replied
    · exact fun _ mem => mem
    · dsimp only
      split <;> trivial
    · dsimp only
      split <;> trivial
    · trivial

/-- A new row of the log is the first task of the pass. -/
theorem told_of_passStep (told : AllTold options initial seen world)
    (found : world.passes[number]? = some pass)
    (sees : ∀ view ∈ logging world (.pass number reply), view ∈ seen)
    (replied : passStep options world pass reply = some moved) :
    ∀ key ∈ moved.log, Told options initial seen key := by
  have faithful := told.faithful pass (mem_of_getElem? found)
  obtain ⟨now, phase⟩ := pass
  cases reply with
  | listed order sent | purge purged =>
    simp only [passStep] at replied
    split at replied
    · split at replied <;> cases replied <;> exact told.logged
    · cases replied
  | send result | proceed =>
    simp only [passStep] at replied
    split at replied <;> cases replied <;> exact told.logged
  | logged sent =>
    simp only [passStep] at replied
    split at replied
    · rename_i stage task tasks spot
      have logs : sent.executed = true → ∀ key ∈ logKey world.log task.key,
          Told options initial seen key := by
        intro ran key mem
        rcases mem_logKey mem with old | rfl
        · exact told.logged key old
        · cases stage with
          | purged => exact .inr (.inl (faithful task mem_cons_self))
          | due =>
            have isDue := faithful mem_cons_self
            refine .inr (.inr ⟨⟨spot.item.2, now⟩, sees _ ?_, mem_map_of_mem ?_⟩)
            · simp [logging, found, ran]
            · rw [Task.key, (mem_tasks.mp isDue).1]
              exact isDue
      split at replied <;> cases replied
      · rename_i new
        exact logs (by simp [new.1, Delivery.executed])
      · dsimp only
        split
        · rename_i ran
          exact logs ran
        · exact told.logged
    · cases replied

theorem AllTold.step (told : AllTold options initial seen world)
    (sees : ∀ view ∈ logging world event, view ∈ seen)
    (ran : step options world event = some next) : AllTold options initial seen next := by
  cases event with
  | users items =>
    cases ran
    exact ⟨told.logged, told.faithful⟩
  | start now =>
    cases ran
    refine ⟨told.logged, fun pass mem => ?_⟩
    rcases mem_append.mp mem with old | new
    · exact told.faithful pass old
    · cases mem_singleton.mp new
      trivial
  | pass number reply =>
    simp only [Delivery.step] at ran
    split at ran
    · cases ran
    · rename_i pass found
      obtain ⟨moved, replied, rfl⟩ := Option.map_eq_some_iff.mp ran
      refine ⟨told_of_passStep told found sees replied, fun other mem => ?_⟩
      rcases mem_or_eq_of_mem_set mem with old | rfl
      · exact told.faithful other old
      · exact faithful_of_passStep (told.faithful pass (mem_of_getElem? found)) replied
  | crash number =>
    simp only [Delivery.step] at ran
    split at ran <;> cases ran
    refine ⟨told.logged, fun other mem => ?_⟩
    rcases mem_or_eq_of_mem_set mem with old | rfl
    · exact told.faithful other old
    · trivial

end

/--
Notices of two visits have different keys exactly when the access has the same
reason in both or the visits do not meet.  In a run whose earlier notices were
due at visits of the same reason or at visits that do not meet this one, a
notice of this visit is sent, unless it was logged for the same reason before.
-/
theorem separated_iff (options : Options) (readable : options.wording.toISOString.Injective)
    (npub : String) (later : Visit) :
    (∀ first, Separated options npub first later ↔
      (first.access options).reason = (later.access options).reason ∨
        ¬ Meet options first later) ∧
    ∀ initial events final, replay (step options) initial events = some final →
      initial.passes = [] → (∀ key ∈ initial.log, key.npub ≠ npub) →
      (∀ key first, (key, first) ∈ observed (step options) logging initial events →
        key.npub = npub → (first.access options).reason = (later.access options).reason ∨
          ¬ Meet options first later) →
      ∀ number pass task, final.passes[number]? = some pass → pass.nextTask = some task →
        task ∈ options.tasks npub (later.due options) →
          Attempts options final number task ∨
            ∃ first, (task.key, first) ∈ observed (step options) logging initial events ∧
              (first.access options).reason = (later.access options).reason := by
  constructor
  · intro first
    by_cases reasons : (first.access options).reason = (later.access options).reason
    · refine iff_of_true (fun task _ other _ different same => ?_) (.inl reasons)
      exact different.elim (fun kinds => kinds (congrArg Key.kind same)) (absurd reasons)
    · simp only [Separated, reasons, not_false_eq_true, ne_eq, or_true, forall_true_left, false_or]
      exact separated_iff_not_meet readable reasons
  · intro initial events final ran idle fresh apart number pass task found about mem
    have told : AllTold options initial.log
      (observed (step options) logging initial events) final :=
      (GuardedRun.of_observed logging ran).invariant (fun _ _ _ told sees taken =>
        told.step sees taken) ⟨fun key old => .inl old, by simp [idle]⟩
    have owned := (mem_tasks.mp mem).1
    by_cases logged : task.key ∈ final.log
    · right
      rcases told.logged task.key logged with old | purged | ⟨first, isSeen, isDue⟩
      · exact absurd owned (fresh _ old)
      · obtain ⟨expiry, -, -, cause, -⟩ := cause_of_due (mem_tasks.mp mem).2.1
        exact absurd purged cause.kind_ne_purged
      · refine ⟨first, isSeen, ?_⟩
        by_contra reasons
        have separate := (apart _ first isSeen owned).resolve_left reasons
        obtain ⟨earlier, among, same⟩ := mem_map.mp isDue
        rw [show task.key.npub = npub from owned] at among
        exact (separated_iff_not_meet readable reasons).mpr separate earlier among task mem same
    · exact .inl (attempts_of_unlogged found about logged)

/-- Only the stages of an account are announced, by mail. -/
def stagesOnly : Options where
  setting := sampleOptions.setting
  notify := ⟨[], []⟩
  wording := { sampleOptions.wording with toISOString := toString }
  dm := false

/--
A pass announces that the allowance is exceeded; the plan is renewed and ends,
and another pass is about to announce that.
-/
def renewedEvents : List Event :=
  [.users [("npub1a", (endedPlan 20 (-1)).row)], .start (-1), .pass 0 (.listed .stable .answered),
    .pass 0 .proceed, .pass 0 (.logged .answered), .pass 0 (.send .sent),
    .users [("npub1a", ⟨some 5, some 10, 0⟩)], .start 6, .pass 1 (.listed .stable .answered),
    .pass 1 .proceed]

/-- The notice of the end of the renewed plan. -/
def renewedTask : Task where
  npub := "npub1a"
  notification :=
    { kind := "grace_entered"
      ref := "5"
      title := "Plan expired — grace period started"
      body := "Uploads are blocked. Delete blobs or renew before " ++
        "Thu, 01 Jan 1970 00:00:00 GMT to avoid the next stage." }
  channel := .email

/-- Both are announced. -/
theorem renewed_end_is_announced : ∃ final,
    replay (step stagesOnly) sampleWorld renewedEvents = some final ∧
      final.log = [⟨"npub1a", "grace_entered", "0", .email⟩] ∧
        Attempts stagesOnly final 1 renewedTask := by
  have path : (replay (step stagesOnly) sampleWorld renewedEvents).map (fun world =>
      (world.log, world.passes[1]?.bind Pass.nextTask)) =
        some ([⟨"npub1a", "grace_entered", "0", .email⟩], some renewedTask) := by
    decide +kernel
  have seen : ∀ view ∈ observed (step stagesOnly) logging sampleWorld renewedEvents,
      view.2.row.planExpiresAt = some 0 ∧ (view.2.access stagesOnly).reason = .graceOverQuota := by
    decide +kernel
  obtain ⟨final, ran, shown⟩ := Option.map_eq_some_iff.mp path
  obtain ⟨logged, next⟩ := Prod.mk.injEq .. ▸ shown
  obtain ⟨pass, found, about⟩ := Option.bind_eq_some_iff.mp next
  refine ⟨final, ran, logged, ?_⟩
  refine ((separated_iff stagesOnly (fun _ _ => Lib.Text.toString_int_injective) "npub1a"
    ⟨⟨some 5, some 10, 0⟩, 6⟩).2 sampleWorld renewedEvents final ran rfl (by simp [sampleWorld])
      ?_ 1 pass renewedTask found about (by decide +kernel)).resolve_right ?_
  · rintro key first mem -
    right
    rintro ⟨expiry, planned, -⟩
    have ended := (planned first mem_cons_self).1.symm.trans (seen _ mem).1
    have renewed := (planned _ (mem_cons_of_mem _ mem_cons_self)).1
    cases renewed.trans ended
  · rintro ⟨first, mem, same⟩
    rw [(seen _ mem).2] at same
    revert same
    decide +kernel

/-- Over the allowance before the end of the plan, then within it and expired. -/
theorem grace_reasons_share_a_key :
    ¬ Separated sampleOptions "npub1a" (endedPlan 20 (-1)) (endedPlan 0 1) := by
  unfold Separated
  decide +kernel

end StorageOrchestrator.Notifier.Notices
