import StorageOrchestrator.Lifecycle.Purging

/-!
# Delivering notifications

A pass of the notifier evaluates every account with a plan, computes which
notifications are due and delivers each of them on every channel: it writes a
row into the notification log and, when the row is new, sends.  The log is what
keeps a notification from being sent twice (`never_sent_twice`).

The row is written before the send.  When the send fails, or the pass stops
between the two, the row stays and no later pass sends (`failed_send_is_dropped`).
When neither happens, every row of the log stands for a send that succeeded or
is under way (`careful_run_never_drops`).
-/

namespace StorageOrchestrator.Notifier.Delivery

open Accounts.Entitlement Lib.Transition Lifecycle.Access Lifecycle.Purging List

/-! ## Due notifications -/

/-- `LifecycleNotifyConfig`. -/
structure NotifyConfig where
  expiryWarningDays : List Nat
  quotaWarningPercent : List Nat
deriving DecidableEq, Repr

/-- How JavaScript writes dates and numbers; `number` is the double of an integer. -/
structure Wording where
  toISOString : Int → String
  toUTCString : Date → String
  number : Int → ℚ
  toFixed : ℚ → Nat → String

/-- A date inside a text. -/
def Wording.date (wording : Wording) : Option Date → String
  | none => "undefined"
  | some date => wording.toUTCString date

/-- The loop of `formatBytes`, with the units that are left. -/
def Wording.scale (wording : Wording) (amount : ℚ) (unit : String) : List String → String
  | larger :: units =>
    if 1024 ≤ amount then wording.scale (amount / 1024) larger units
    else wording.toFixed amount (if 10 ≤ amount ∨ unit = "B" then 0 else 1) ++ " " ++ unit
  | [] => wording.toFixed amount (if 10 ≤ amount then 0 else 1) ++ " " ++ unit

def Wording.formatBytes (wording : Wording) (bytes : Int) : String :=
  wording.scale (wording.number bytes) "B" ["KB", "MB", "GB", "TB"]

structure DueNotification where
  kind : String
  ref : String
  title : String
  body : String
deriving DecidableEq, Repr

/-- `daysUntil`: the quotient rounded up. -/
def daysUntil (target now : Int) : Int := -((now - target) / dayMs)

def expiryWarning (wording : Wording) (expiry now : Int) (warningDays : Nat) :
    Option DueNotification :=
  let remaining := daysUntil expiry now
  if 0 ≤ remaining ∧ remaining ≤ warningDays then
    some
      { kind := "expiry_warning_" ++ toString warningDays
        ref := wording.toISOString expiry
        title := "Plan expires in " ++ toString remaining ++ " day" ++
          (if remaining = 1 then "" else "s")
        body := "Your storage plan expires " ++
          wording.toUTCString (some expiry) ++
          ". Renew from the pricing page to add days and keep uploads enabled." }
  else none

def quotaWarning (wording : Wording) (expiry used allowance : Int)
    (threshold : Nat) : Option DueNotification :=
  let percent := (used * 100).tdiv allowance
  if threshold ≤ percent then
    some
      { kind := "quota_warning_" ++ toString threshold
        ref := wording.toISOString expiry
        title :=
          if 100 ≤ threshold then "Storage allowance reached"
          else "Storage " ++ toString threshold ++ "% full"
        body := "You are using " ++ wording.formatBytes used ++ " of your " ++
          wording.formatBytes allowance ++ " allowance (" ++
          toString percent ++
          "%). Delete blobs or upgrade to avoid uploads being blocked." }
  else none

def stageNotification (wording : Wording) (expiry : Int)
    (access : AccessState) : Option DueNotification :=
  match access.status with
  | .grace =>
    some
      { kind := "grace_entered"
        ref := wording.toISOString expiry
        title :=
          if access.reason = .graceOverQuota then
            "Over your storage allowance — grace period started"
          else "Plan expired — grace period started"
        body :=
          if access.reason = .graceOverQuota then
            "You are over your allowance. Uploads are blocked until you " ++
              "delete blobs or upgrade. Grace ends " ++
              wording.date access.graceUntil ++ "."
          else
            "Uploads are blocked. Delete blobs or renew before " ++
              wording.date access.graceUntil ++
              " to avoid the next stage." }
  | .writeBlocked =>
    some
      { kind := "write_blocked"
        ref := wording.toISOString expiry
        title := "Uploads are blocked"
        body := "The grace period has ended and uploads are now blocked. " ++
          "Your data is still readable. Renew or free space before reads " ++
          "are blocked on " ++ wording.date access.readBlockedUntil ++ "." }
  | .readBlocked =>
    some
      { kind := "read_blocked"
        ref := wording.toISOString expiry
        title := "Reads are blocked — data scheduled for purge"
        body := "Reads are blocked and your blobs are scheduled for purge " ++
          "on " ++ wording.date access.purgeAt ++
          ". Renew before then to keep your data." }
  | _ => none

def dueNotifications (wording : Wording) (user : UserRow)
    (access : AccessState) (notify : NotifyConfig) (now : Int) :
    List DueNotification :=
  match user.planExpiresAt with
  | none => []
  | some expiry =>
    if access.status = .closed then []
    else
      notify.expiryWarningDays.filterMap (expiryWarning wording expiry now) ++
        (match user.storageBytes with
        | none => []
        | some allowance =>
          if 0 < allowance then
            notify.quotaWarningPercent.filterMap
              (quotaWarning wording expiry user.usedStorage allowance)
          else []) ++
        (stageNotification wording expiry access).toList

def purgedNotification (wording : Wording) (purgeAt : Int) (purged : Nat) : DueNotification where
  kind := "purged"
  ref := wording.toISOString purgeAt
  title := "Your storage account was purged"
  body := "All " ++ toString purged ++
    " blobs were deleted after the retention window. Purchase a new plan to " ++
    "start storing again."

/-! ## Passes -/

inductive Channel where
  | nostr
  | email
deriving DecidableEq, Repr

/-- `NotifierOptions`; `dm` is whether a sender of messages is configured. -/
structure Options where
  setting : Setting
  notify : NotifyConfig
  wording : Wording
  dm : Bool

/-- The unique key of a row of the notification log. -/
structure Key where
  npub : String
  kind : String
  ref : String
  channel : Channel
deriving DecidableEq, Repr

/-- One notification on one channel. -/
structure Task where
  npub : String
  notification : DueNotification
  channel : Channel
deriving DecidableEq, Repr

def Task.key (task : Task) : Key where
  npub := task.npub
  kind := task.notification.kind
  ref := task.notification.ref
  channel := task.channel

/-- The channels of `deliver`, in order. -/
def Options.channels (options : Options) : List Channel :=
  (if options.dm then [.nostr] else []) ++ [.email]

/-- The deliveries of `deliverAll`, in order. -/
def Options.tasks (options : Options) (npub : String) (due : List DueNotification) : List Task :=
  due.flatMap fun notification =>
    options.channels.map fun channel => ⟨npub, notification, channel⟩

/-- The account a pass is at, and what follows it. -/
structure Spot where
  item : Item
  rest : List Item
  page : Nat
  more : Bool

/-- The deliveries before the purge of an account, or after it. -/
inductive Stage where
  | due
  | purged
deriving DecidableEq, Repr

/-- Where a pass stands. -/
inductive Phase where
  | listing (page : Nat)
  | handling (items : List Item) (page : Nat) (more : Bool)
  /-- About to log the first of the tasks. -/
  | delivering (stage : Stage) (tasks : List Task) (spot : Spot)
  /-- The row is new, the send is under way. -/
  | sending (task : Task) (stage : Stage) (tasks : List Task) (spot : Spot)
  | purging (spot : Spot)
  | ended

/-- A pass with the time at which it started. -/
structure Pass where
  now : Int
  phase : Phase

def Pass.sendingTask (pass : Pass) : Option Task :=
  match pass.phase with
  | .sending task _ _ _ => some task
  | _ => none

/-- The task that the pass is about to log. -/
def Pass.nextTask (pass : Pass) : Option Task :=
  match pass.phase with
  | .delivering _ (task :: _) _ => some task
  | _ => none

/-- How a send comes back. -/
inductive SendResult where
  | sent
  | noAddress
  | failed
deriving DecidableEq, Repr

/-- The send succeeded, or the user has no address. -/
def settles (channel : Channel) (result : SendResult) : Bool :=
  match channel, result with
  | _, .sent | .email, .noAddress => true
  | _, _ => false

/-- The answer to what a pass waits for. -/
inductive Reply where
  | listed (order : Arrangement) (delivery : Delivery)
  | logged (delivery : Delivery)
  | send (result : SendResult)
  /-- The number of purged blobs, unless the purge failed. -/
  | purge (purged : Option Nat)
  /-- The pass goes on by itself. -/
  | proceed

/-- The accounts, the log, and the notifier's passes. -/
structure World where
  users : List Item
  log : List Key
  /-- The keys whose send succeeded or had no address. -/
  settled : List Key
  passes : List Pass

def World.attention (world : World) : List Item :=
  world.users.filter fun item => item.2.planExpiresAt.isSome

/-- `GET /users/attention`. -/
def World.listAttentionUsers (world : World) (order : Arrangement) (page : Nat) : List Item :=
  ((order.arrange world.attention).drop ((page - 1) * pageSize)).take pageSize

/-- `POST /notifications`: one row for each key. -/
def logKey (log : List Key) (key : Key) : List Key :=
  if key ∈ log then log else log ++ [key]

/-- What a step of a pass does. -/
structure Moved where
  phase : Phase
  log : List Key
  settled : List Key

/-- The next step of `runOnce`. -/
def passStep (options : Options) (world : World) (pass : Pass) : Reply → Option Moved
  | .listed order delivery =>
    match pass.phase with
    | .listing page =>
      if delivery = .answered then
        let items := world.listAttentionUsers order page
        let more := !(items.length < pageSize || world.attention.length ≤ page * pageSize)
        some ⟨.handling items page more, world.log, world.settled⟩
      else some ⟨.ended, world.log, world.settled⟩
    | _ => none
  | .logged delivery =>
    match pass.phase with
    | .delivering stage (task :: tasks) spot =>
      if delivery = .answered ∧ task.key ∉ world.log then
        some ⟨.sending task stage tasks spot, logKey world.log task.key, world.settled⟩
      else
        some ⟨.delivering stage tasks spot,
          if delivery.executed then logKey world.log task.key
          else world.log, world.settled⟩
    | _ => none
  | .send result =>
    match pass.phase with
    | .sending task stage tasks spot =>
      some ⟨.delivering stage tasks spot, world.log,
        if settles task.channel result then world.settled ++ [task.key]
        else world.settled⟩
    | _ => none
  | .purge purged =>
    match pass.phase with
    | .purging spot =>
      match purged, (deriveAccess spot.item.2 pass.now options.setting.config).purgeAt
      with
      | some count, some (some purgeAt) =>
        some ⟨.delivering .purged (options.tasks spot.item.1
            [purgedNotification options.wording purgeAt count]) spot,
          world.log, world.settled⟩
      | _, _ =>
        some ⟨.handling spot.rest spot.page spot.more, world.log, world.settled⟩
    | _ => none
  | .proceed =>
    match pass.phase with
    | .handling (item :: rest) page more =>
      let access := deriveAccess item.2 pass.now options.setting.config
      let due := dueNotifications options.wording item.2 access options.notify pass.now
      some ⟨.delivering .due (options.tasks item.1 due)
        ⟨item, rest, page, more⟩, world.log, world.settled⟩
    | .handling [] page more =>
      some ⟨if more then .listing (page + 1) else .ended, world.log, world.settled⟩
    | .delivering .due [] spot =>
      some ⟨if purgeIsDue options.setting pass.now spot.item.2 then
          .purging spot
        else .handling spot.rest spot.page spot.more, world.log,
        world.settled⟩
    | .delivering .purged [] spot =>
      some ⟨.handling spot.rest spot.page spot.more, world.log, world.settled⟩
    | _ => none

/-- What may happen next. -/
inductive Event where
  /-- Accounts, plans and usage change. -/
  | users (items : List Item)
  | start (now : Int)
  | pass (number : Nat) (reply : Reply)
  /-- A pass is cut off. -/
  | crash (number : Nat)

def step (options : Options) (world : World) : Event → Option World
  | .users items => some { world with users := items }
  | .start now =>
    some { world with passes := world.passes ++ [⟨now, .listing 1⟩] }
  | .pass number reply =>
    match world.passes[number]? with
    | none => none
    | some pass =>
      (passStep options world pass reply).map fun moved =>
        { world with
          log := moved.log
          settled := moved.settled
          passes := world.passes.set number ⟨pass.now, moved.phase⟩ }
  | .crash number =>
    match world.passes[number]? with
    | none => none
    | some pass =>
      some { world with passes := world.passes.set number ⟨pass.now, .ended⟩ }

/-! ## The property and the condition -/

/-- A send of the key is under way. -/
def World.Sending (world : World) (key : Key) : Prop :=
  ∃ pass ∈ world.passes, pass.sendingTask.map Task.key = some key

/-- Every logged key was sent, had no address, or is being sent. -/
def Accounted (world : World) : Prop := ∀ key ∈ world.log, key ∈ world.settled ∨ world.Sending key

/-- No send is under way. -/
def AtRest (world : World) : Prop := ∀ pass ∈ world.passes, pass.sendingTask = none

/--
Nothing goes wrong between the row of a notification and its send: the answer
about a new row arrives, the send succeeds or finds no address, and the pass is
not cut off before.
-/
def Careful (world : World) : Event → Prop
  | .pass number (.logged delivery) =>
    delivery = .responseLost → ∀ task ∈ world.passes[number]?.bind Pass.nextTask,
        task.key ∈ world.log
  | .pass number (.send result) =>
    ∀ task ∈ world.passes[number]?.bind Pass.sendingTask, settles task.channel result = true
  | .crash number => world.passes[number]?.bind Pass.sendingTask = none
  | _ => True

/-- The next task of a pass is sent once its row is written. -/
def Attempts (options : Options) (world : World) (number : Nat) (task : Task) : Prop :=
  ∃ next, step options world (.pass number (.logged .answered)) = some next ∧
    next.passes[number]?.bind Pass.sendingTask = some task

/-! ## One step -/

section

variable {world : World} {pass : Pass}

theorem mem_logKey (mem : other ∈ logKey log key) : other ∈ log ∨ other = key := by
  rw [logKey] at mem
  split at mem
  · exact .inl mem
  · rcases mem_append.mp mem with old | new
    · exact .inl old
    · exact .inr (mem_singleton.mp new)

theorem logKey_of_mem (here : key ∈ log) : logKey log key = log := if_pos here

/-- What a reply to a pass changes, when nothing goes wrong. -/
structure Keeps (world : World) (pass : Pass) (moved : Moved) : Prop where
  /-- A new row is one whose send is under way. -/
  rows : ∀ key ∈ moved.log, key ∈ world.log ∨
    (Pass.mk pass.now moved.phase).sendingTask.map Task.key = some key
  grows : ∀ key ∈ world.settled, key ∈ moved.settled
  /-- The send that was under way is settled. -/
  settles : ∀ key, pass.sendingTask.map Task.key = some key → key ∈ moved.settled

theorem keeps_of_unchanged (idle : pass.sendingTask = none) :
    Keeps world pass ⟨phase, world.log, world.settled⟩ where
  rows _ member := .inl member
  grows _ member := member
  settles key under := by
    rw [idle] at under
    cases under

theorem keeps_logged (taken : passStep options world pass (.logged sent) = some moved)
    (wary : sent = .responseLost → ∀ task ∈ pass.nextTask, task.key ∈ world.log) :
    Keeps world pass moved := by
  obtain ⟨now, phase⟩ := pass
  simp only [passStep] at taken
  split at taken
  · rename_i stage task tasks spot
    split at taken
    · cases taken
      exact
        { rows := fun key mem => (mem_logKey mem).imp id fun eq =>
            congrArg some eq.symm
          grows := fun _ mem => mem
          settles := nofun }
    · rename_i notNew
      cases taken
      have rows : (if sent.executed then logKey world.log task.key else world.log) = world.log := by
        split
        · apply logKey_of_mem
          cases sent with
          | answered =>
            by_contra gone
            exact notNew ⟨rfl, gone⟩
          | responseLost => exact wary rfl task rfl
          | notExecuted =>
            rename_i ran
            cases ran
        · rfl
      rw [rows]
      exact keeps_of_unchanged rfl
  · cases taken

theorem keeps_send (ran : passStep options world pass (.send result) = some moved)
    (wary : ∀ task ∈ pass.sendingTask, settles task.channel result = true) :
    Keeps world pass moved := by
  obtain ⟨now, phase⟩ := pass
  simp only [passStep] at ran
  split at ran
  · rename_i task stage tasks spot
    rw [if_pos (wary task rfl)] at ran
    cases ran
    exact
      { rows := fun _ mem => .inl mem
        grows := fun _ mem => mem_append_left _ mem
        settles := fun key under =>
          mem_append_right _ (mem_singleton.mpr (Option.some.inj under).symm) }
  · cases ran

/-- The other replies touch neither the log nor a send. -/
theorem keeps_other (ran : passStep options world pass ans = some moved)
    (notLogged : ∀ sent, ans ≠ .logged sent) (notSend : ∀ res, ans ≠ .send res) :
    Keeps world pass moved := by
  obtain ⟨now, phase⟩ := pass
  cases ans with
  | listed order sent | purge purged =>
    simp only [passStep] at ran
    split at ran
    · split at ran <;> cases ran <;> exact keeps_of_unchanged rfl
    · cases ran
  | logged sent => exact absurd rfl (notLogged sent)
  | send res => exact absurd rfl (notSend res)
  | proceed =>
    simp only [passStep] at ran
    split at ran <;> cases ran <;> exact keeps_of_unchanged rfl

/-- A pass that moves keeps the log accounted for. -/
theorem Accounted.move {n : Nat} {moved : Moved}
    (known : Accounted world) (found : world.passes[n]? = some pass)
    (keeps : Keeps world pass moved) :
    Accounted
      { world with
        log := moved.log
        settled := moved.settled
        passes := world.passes.set n ⟨pass.now, moved.phase⟩ } := by
  obtain ⟨inside, here⟩ := List.getElem?_eq_some_iff.mp found
  intro key mem
  rcases keeps.rows key mem with old | new
  · rcases known key old with done | ⟨other, among, under⟩
    · exact .inl (keeps.grows key done)
    · by_cases eq : other = pass
      · subst eq
        exact .inl (keeps.settles key under)
      · right
        refine ⟨other, ?_, under⟩
        obtain ⟨index, bound, oth⟩ := mem_iff_getElem.mp among
        have ne : n ≠ index := by
          rintro rfl
          exact eq (oth.symm.trans here)
        refine mem_iff_getElem?.mpr ⟨index, ?_⟩
        rw [getElem?_set_ne ne, getElem?_eq_getElem bound, oth]
  · exact .inr ⟨_, mem_set inside _, new⟩

theorem careful_step_accounted {next : World} (known : Accounted world) (wary : Careful world ev)
    (ran : step options world ev = some next) : Accounted next := by
  cases ev with
  | users xs =>
    cases ran
    exact known
  | start now =>
    cases ran
    intro key mem
    exact (known key mem).imp id fun ⟨pass, among, under⟩ =>
      ⟨pass, mem_append_left _ among, under⟩
  | pass n ans =>
    simp only [step] at ran
    split at ran
    · cases ran
    · rename_i pass found
      obtain ⟨moved, replied, rfl⟩ := Option.map_eq_some_iff.mp ran
      apply known.move found
      by_cases logged : ∃ sent, ans = .logged sent
      · obtain ⟨sent, rfl⟩ := logged
        rw [Careful, found] at wary
        exact keeps_logged replied wary
      · by_cases send : ∃ res, ans = .send res
        · obtain ⟨res, rfl⟩ := send
          rw [Careful, found] at wary
          exact keeps_send replied wary
        · exact keeps_other replied (fun sent eq => logged ⟨sent, eq⟩)
            (fun res eq => send ⟨res, eq⟩)
  | crash n =>
    simp only [step] at ran
    split at ran
    · cases ran
    · rename_i pass found
      cases ran
      rw [Careful, found] at wary
      exact known.move found (keeps_of_unchanged wary)

theorem step_pass (found : world.passes[number]? = some pass)
    (replied : passStep options world pass reply = some moved) :
    step options world (.pass number reply) =
      some { world with
        log := moved.log
        settled := moved.settled
        passes := world.passes.set number ⟨pass.now, moved.phase⟩ } := by
  simp [step, found, replied]

/-- A task whose key is not in the log is sent. -/
theorem attempts_of_unlogged (found : world.passes[number]? = some pass)
    (about : pass.nextTask = some task) (gone : task.key ∉ world.log) :
    Attempts options world number task := by
  obtain ⟨mem, -⟩ := List.getElem?_eq_some_iff.mp found
  obtain ⟨now, phase⟩ := pass
  simp only [Pass.nextTask] at about
  split at about
  · rename_i stage first tasks spot
    cases about
    have moved : passStep options world
        ⟨now, .delivering stage (task :: tasks) spot⟩ (.logged .answered) =
          some ⟨.sending task stage tasks spot, logKey world.log task.key,
            world.settled⟩ := if_pos ⟨rfl, gone⟩
    refine ⟨_, step_pass found moved, ?_⟩
    rw [getElem?_set_self mem]
    rfl
  · cases about

end

/-! ## Whole runs -/

/--
In a run in which nothing goes wrong between a row and its send, every logged
key is settled once no send is under way, and a pass that reaches a task not
yet settled sends it.
-/
theorem careful_run_never_drops {options : Options} {initial final : World} {events : List Event}
    (run : GuardedRun (step options) Careful initial events final)
    (accounted : Accounted initial) :
    (AtRest final → ∀ key ∈ final.log, key ∈ final.settled) ∧
      ∀ number pass task, final.passes[number]? = some pass →
        pass.nextTask = some task → task.key ∉ final.settled →
          ¬final.Sending task.key → Attempts options final number task := by
  have kept : Accounted final := run.invariant (fun _ _ _ h wary ran =>
      careful_step_accounted h wary ran) accounted
  constructor
  · intro atRest key mem
    rcases kept key mem with done | ⟨pass, among, under⟩
    · exact done
    · rw [atRest pass among] at under
      cases under
  · intro number pass task found about unsettled notSending
    exact attempts_of_unlogged found about fun mem =>
      (kept task.key mem).elim unsettled notSending

/-! An account in its grace period, with both channels. -/

instance (world : World) (ev : Event) : Decidable (Careful world ev) :=
  match ev with
  | .users _ | .start _ => .isTrue trivial
  | .pass n (.logged sent) =>
    inferInstanceAs (Decidable (sent = .responseLost →
      ∀ task ∈ world.passes[n]?.bind Pass.nextTask, task.key ∈ world.log))
  | .pass n (.send res) =>
    inferInstanceAs (Decidable (∀ task ∈ world.passes[n]?.bind Pass.sendingTask,
        settles task.channel res = true))
  | .pass _ (.listed _ _) | .pass _ (.purge _) | .pass _ .proceed => .isTrue trivial
  | .crash n =>
    inferInstanceAs (Decidable (world.passes[n]?.bind Pass.sendingTask = none))

def sampleOptions : Options where
  setting :=
    { config :=
        { graceDays := 7
          writeBlockedDays := 30
          readBlockedDays := 30
          purgeEnabled := false }
      purge := false
      replicaCount := 2 }
  notify := { expiryWarningDays := [14, 3, 1], quotaWarningPercent := [80, 100] }
  wording :=
    { toISOString := fun _ => "1970-01-01T00:00:00.000Z"
      toUTCString := fun _ => "Thu, 01 Jan 1970 00:00:00 GMT"
      number := fun bytes => bytes
      toFixed := fun amount _ => toString amount.floor }
  dm := true

/-- One account, whose plan ended at time 0. -/
def sampleWorld : World where
  users := [("npub1a",
    { planExpiresAt := some 0, storageBytes := none, usedStorage := 0 })]
  log := []
  settled := []
  passes := []

def sampleKey (channel : Channel) : Key where
  npub := "npub1a"
  kind := "grace_entered"
  ref := "1970-01-01T00:00:00.000Z"
  channel := channel

/-- A pass one day after the end of the plan, with the results of its sends. -/
def samplePass (number : Nat) (dm email : SendResult) : List Event :=
  [.start dayMs, .pass number (.listed .stable .answered),
    .pass number .proceed, .pass number (.logged .answered),
    .pass number (.send dm), .pass number (.logged .answered),
    .pass number (.send email), .pass number .proceed,
    .pass number .proceed]

/-- A pass that finds both keys in the log. -/
def silentPass (number : Nat) : List Event :=
  [.start dayMs, .pass number (.listed .stable .answered),
    .pass number .proceed, .pass number (.logged .answered),
    .pass number (.logged .answered), .pass number .proceed,
    .pass number .proceed]

theorem careful_run_sends : ∃ final, GuardedRun (step sampleOptions) Careful sampleWorld
        (samplePass 0 .sent .noAddress) final ∧
      final.log = [sampleKey .nostr, sampleKey .email] ∧
      ∀ key ∈ final.log, key ∈ final.settled := by
  have ran : (guardedReplay (step sampleOptions) Careful sampleWorld
      (samplePass 0 .sent .noAddress)).map (fun world =>
        (world.log, world.passes.all fun pass => pass.sendingTask.isNone)) =
      some ([sampleKey .nostr, sampleKey .email], true) := by
    decide +kernel
  obtain ⟨final, path, shown⟩ := Option.map_eq_some_iff.mp ran
  have run := GuardedRun.of_guardedReplay path
  have atRest : AtRest final := by
    intro pass among
    have idle := all_eq_true.mp (congrArg Prod.snd shown) pass among
    exact Option.isNone_iff_eq_none.mp idle
  exact ⟨final, run, congrArg Prod.fst shown, (careful_run_never_drops run nofun).1 atRest⟩

/--
The message of the first pass fails.  Both passes end, the key is in the log,
and it was never sent.
-/
theorem failed_send_is_dropped : ∃ final, replay (step sampleOptions) sampleWorld
        (samplePass 0 .failed .sent ++ silentPass 1) = some final ∧
      sampleKey .nostr ∈ final.log ∧ sampleKey .nostr ∉ final.settled ∧
      AtRest final := by
  have ran : (replay (step sampleOptions) sampleWorld
      (samplePass 0 .failed .sent ++ silentPass 1)).map (fun world =>
        (world.log, world.settled, world.passes.all fun pass => pass.sendingTask.isNone)) =
      some ([sampleKey .nostr, sampleKey .email], [sampleKey .email], true) := by
    decide +kernel
  obtain ⟨final, path, shown⟩ := Option.map_eq_some_iff.mp ran
  simp only [Prod.mk.injEq] at shown
  obtain ⟨logged, done, idle⟩ := shown
  refine ⟨final, path, ?_, ?_, ?_⟩
  · rw [logged]
    exact mem_cons_self
  · rw [done]
    decide
  · intro pass among
    exact Option.isNone_iff_eq_none.mp (all_eq_true.mp idle pass among)

/-! ## No notification is sent twice -/

def Pass.sendingKeys (pass : Pass) : List Key := (pass.sendingTask.map Task.key).toList

/-- The keys that were sent, had no address or are being sent. -/
def World.sends (world : World) : List Key := world.settled ++ world.passes.flatMap Pass.sendingKeys

def logs (log : List Key) (key : Key) : Nat := if key ∈ log then 1 else 0

/-- Each new send is of a key that was not in the log and now is. -/
def Sends (world next : World) : Prop :=
  ∀ key,
    next.sends.count key + logs world.log key ≤ world.sends.count key + logs next.log key

section

variable {world : World} {pass : Pass} {moved : Moved}

def Starts (world : World) (pass : Pass) (moved : Moved) : Prop :=
  ∀ key,
    moved.settled.count key + (Pass.mk pass.now moved.phase).sendingKeys.count key +
      logs world.log key ≤
        world.settled.count key + pass.sendingKeys.count key + logs moved.log key

theorem starts_of_passStep (ran : passStep options world pass ans = some moved) :
    Starts world pass moved := by
  intro key
  obtain ⟨now, phase⟩ := pass
  cases ans with
  | logged sent =>
    simp only [passStep] at ran
    split at ran
    · split at ran <;> cases ran <;> grind [Pass.sendingKeys, Pass.sendingTask, logKey, logs]
    · cases ran
  | send res =>
    simp only [passStep] at ran
    split at ran <;> cases ran
    grind [Pass.sendingKeys, Pass.sendingTask]
  | listed order sent | purge purged =>
    simp only [passStep] at ran
    split at ran
    · split at ran <;> cases ran <;> exact Nat.le_refl _
    · cases ran
  | proceed =>
    simp only [passStep] at ran
    split at ran <;> cases ran <;> try split
    all_goals exact Nat.le_refl _

theorem Starts.sends (starts : Starts world pass moved) (found : world.passes[n]? = some pass) :
    Sends world { world with
      log := moved.log
      settled := moved.settled
      passes := world.passes.set n ⟨pass.now, moved.phase⟩ } := by
  obtain ⟨inside, rfl⟩ := List.getElem?_eq_some_iff.mp found
  obtain ⟨pre, post, passes, -, set⟩ :=
    @exists_of_set _ n ⟨world.passes[n].now, moved.phase⟩ _ inside
  intro key
  have changed := starts key
  have before := congrArg (fun all => (all.flatMap Pass.sendingKeys).count key) passes
  simp only [World.sends, set, flatMap_append, flatMap_cons, count_append] at before ⊢
  omega

theorem step_sends {next : World} (ran : step options world ev = some next) : Sends world next := by
  cases ev with
  | users xs =>
    cases ran
    exact fun _ => Nat.le_refl _
  | start now =>
    cases ran
    simp [Sends, World.sends, Pass.sendingKeys, Pass.sendingTask]
  | pass n ans =>
    simp only [step] at ran
    split at ran
    · cases ran
    · rename_i pass found
      obtain ⟨moved, replied, rfl⟩ := Option.map_eq_some_iff.mp ran
      exact (starts_of_passStep replied).sends found
  | crash n =>
    simp only [step] at ran
    split at ran <;> cases ran
    rename_i pass found
    have stops : Starts world pass ⟨.ended, world.log, world.settled⟩ :=
      fun _ => Nat.add_le_add_right (Nat.le_add_right ..) _
    exact stops.sends found

end

/--
Whatever fails, is lost or cut off, and however passes overlap: a key in the
log is not sent again, and no key is sent twice.
-/
theorem never_sent_twice (options : Options) (initial : World) (events : List Event)
    (ran : replay (step options) initial events = some final) :
    (∀ key ∈ initial.log, final.sends.count key ≤ initial.sends.count key) ∧
      (initial.sends.Nodup → initial.sends ⊆ initial.log → final.sends.Nodup) := by
  have run : GuardedRun (step options) (fun _ _ => True) initial events final :=
    .of_replay (fun _ _ => trivial) ran
  have sends : Sends initial final := by
    refine run.invariant (fun _ _ _ before _ taken key => ?_) fun _ => Nat.le_refl _
    have := before key
    have := step_sends taken key
    omega
  constructor
  · intro key mem
    have := sends key
    grind [logs]
  · intro once logged
    rw [nodup_iff_count_le_one] at once ⊢
    intro key
    have := sends key
    have := once key
    have := @logged key
    grind [logs]

theorem samplePass_sends_once : ∃ final, replay (step sampleOptions) sampleWorld
    (samplePass 0 .sent .failed) = some final ∧ final.sends.Nodup :=
  ⟨_, rfl, (never_sent_twice sampleOptions sampleWorld (samplePass 0 .sent .failed) rfl).2
    .nil (nil_subset _)⟩

end StorageOrchestrator.Notifier.Delivery
