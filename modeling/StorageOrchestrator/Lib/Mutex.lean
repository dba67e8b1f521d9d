import StorageOrchestrator.Lib.Transition

/-!
# Tasks that share a store and one mutex

A task is a program whose calls to the store are single steps and which may
take the mutex; it keeps the mutex until it returns or is dropped.  Any number
of tasks run side by side, and an event says which of them moves and how the
environment answers its call.

A `Discipline` is what a family of tasks promises: what a step without the
mutex may change, what a step of the holder may change, and which condition
holds whenever the mutex is free.  Each task is checked alone, and the
discipline then holds in every run of all of them.
-/

namespace StorageOrchestrator.Lib.Mutex

open Lib.Transition

/-- The calls a store answers; the environment chooses the outcome of each. -/
structure Service where
  Store : Type
  Call : Type
  Reply : Call → Type
  Outcome : Type
  perform : Store → (call : Call) → Outcome → Store × Reply call

/-- A program of calls that may take the mutex. -/
inductive Task (S : Service) (Failure Result : Type) where
  | finish (result : Result)
  | fail (failure : Failure)
  | invoke (call : S.Call) (next : S.Reply call → Task S Failure Result)
  | lock (next : Task S Failure Result)

namespace Task

variable {S : Service} {Failure First Second : Type}

def bind (task : Task S Failure First)
    (next : First → Task S Failure Second) : Task S Failure Second :=
  match task with
  | .finish result => next result
  | .fail failure => .fail failure
  | .invoke call rest => .invoke call fun reply => (rest reply).bind next
  | .lock rest => .lock (rest.bind next)

instance : Monad (Task S Failure) where
  pure := .finish
  bind := bind

/-- Make a call and go on with its reply. -/
def call (request : S.Call) : Task S Failure (S.Reply request) := .invoke request .finish

/-- Wait for the mutex. -/
def acquire : Task S Failure Unit := .lock (.finish ())

end Task

/-! ## The system -/

structure Running (S : Service) (Failure Result Request : Type) where
  request : Request
  task : Task S Failure Result

/-- The store, the task that holds the mutex and the requests in progress. -/
structure World (S : Service) (Failure Result Request : Type) where
  store : S.Store
  holder : Option Nat
  tasks : List (Option (Running S Failure Result Request))

inductive Event (Request Outcome : Type) where
  | arrive (request : Request)
  | move (task : Nat) (outcome : Outcome)
  | acquire (task : Nat)
  | leave (task : Nat)
  | cancel (task : Nat)
deriving DecidableEq, Repr

variable {S : Service} {Failure Result Request : Type}

/-- Nothing is in progress. -/
def World.start (store : S.Store) : World S Failure Result Request := ⟨store, none, []⟩

def World.running (world : World S Failure Result Request) (number : Nat) :
    Option (Running S Failure Result Request) :=
  (world.tasks[number]?).join

/-- The call a request is about to make. -/
def World.pending (world : World S Failure Result Request) (number : Nat) : Option S.Call :=
  match world.running number with
  | some ⟨_, .invoke call _⟩ => some call
  | _ => none

def World.advance (world : World S Failure Result Request) (number : Nat)
    (request : Request) (task : Task S Failure Result) :
    World S Failure Result Request :=
  { world with tasks := world.tasks.set number (some ⟨request, task⟩) }

/-- A request ends; the mutex is free again if the request held it. -/
def World.release (world : World S Failure Result Request) (number : Nat) :
    World S Failure Result Request :=
  { world with
    holder := if world.holder = some number then none else world.holder
    tasks := world.tasks.set number none }

/-- One event.  The mutex is not reentrant. -/
def step (handler : Request → Task S Failure Result) (world : World S Failure Result Request) :
    Event Request S.Outcome → Option (World S Failure Result Request)
  | .arrive request =>
    some { world with
      tasks := world.tasks ++ [some ⟨request, handler request⟩] }
  | .move number outcome =>
    match world.running number with
    | some ⟨request, .invoke call next⟩ =>
      let answer := S.perform world.store call outcome
      some ({ world with store := answer.1 }.advance number request
        (next answer.2))
    | _ => none
  | .acquire number =>
    match world.running number, world.holder with
    | some ⟨request, .lock next⟩, none =>
      some ({ world with holder := some number }.advance number request next)
    | _, _ => none
  | .leave number =>
    match world.running number with
    | some ⟨_, .finish _⟩ | some ⟨_, .fail _⟩ => some (world.release number)
    | _ => none
  | .cancel number =>
    match world.running number with
    | some _ => some (world.release number)
    | none => none

/-! ## Disciplines -/

/-- What the tasks of a family promise each other. -/
structure Discipline (S : Service) (Request : Type) where
  /-- What a step without the mutex may change. -/
  outside : S.Store → S.Store → Prop
  /-- What a step of the holder may change. -/
  inside : Request → S.Store → S.Store → Prop
  /-- Holds whenever the mutex is free. -/
  settled : S.Store → Prop
  /-- The runs considered: how a request finds the store when it gets the mutex. -/
  enters : Request → S.Store → Prop
  /-- The runs considered: how calls come back. -/
  admits : S.Call → S.Outcome → Prop
  /-- The runs considered: whether requests are dropped midway. -/
  cancels : Prop
  /-- The calls made without the mutex. -/
  free : S.Call → Prop
  refl (store : S.Store) : outside store store
  trans {first second third : S.Store} :
    outside first second → outside second third → outside first third
  stable {store later : S.Store} : settled store → outside store later → settled later
  unlocked {call : S.Call} {outcome : S.Outcome} (store : S.Store) :
    free call → admits call outcome → outside store (S.perform store call outcome).1

variable (d : Discipline S Request)

/-- The events of the runs a discipline considers. -/
def Discipline.guard (world : World S Failure Result Request) : Event Request S.Outcome → Prop
  | .arrive _ => True
  | .move number outcome =>
    ∀ call, world.pending number = some call → d.admits call outcome
  | .acquire number =>
    ∀ running, world.running number = some running → d.enters running.request world.store
  | .leave _ => True
  | .cancel _ => d.cancels

namespace Task

variable (request : Request)

/-- The holder keeps the discipline and ends in `post`; others may move before
each of its calls. -/
def Ensures : Task S Failure Result → (Result → S.Store → Prop) → S.Store → Prop
  | .finish result, post, store => post result store
  | .fail _, _, store => d.settled store
  | .invoke call next, post, store =>
    (d.cancels → d.settled store) ∧
      ∀ later, d.outside store later → ∀ outcome, d.admits call outcome →
        d.inside request later (S.perform later call outcome).1 ∧
          (next (S.perform later call outcome).2).Ensures post (S.perform later call outcome).1
  | .lock _, _, _ => False

/-- A task of the holder that leaves the store settled. -/
def Orderly (task : Task S Failure Result) (store : S.Store) : Prop :=
  task.Ensures d request (fun _ => d.settled) store

/-- A task that makes only the given calls and does not ask for the mutex. -/
def Makes (calls : S.Call → Prop) : Task S Failure Result → Prop
  | .finish _ | .fail _ => True
  | .invoke call next => calls call ∧ ∀ reply, (next reply).Makes calls
  | .lock _ => False

/-- A task without the mutex that keeps the discipline, also once it has it. -/
def Polite : Task S Failure Result → Prop
  | .finish _ | .fail _ => True
  | .invoke call next =>
    d.free call ∧ ∀ reply, (next reply).Polite
  | .lock next =>
    ∀ store, d.settled store → d.enters request store →
      next.Orderly d request store

variable {d} {request} {First Second : Type}

/-! ### Rules for sequences -/

theorem Ensures.weaken {task : Task S Failure Result} {store : S.Store}
    (ensures : task.Ensures d request post store)
    (implied : ∀ res store, post res store → weaker res store) :
    task.Ensures d request weaker store := by
  induction task generalizing store with
  | finish res => exact implied res store ensures
  | fail err | lock next ih => exact ensures
  | invoke call next ih =>
    refine ⟨ensures.1, fun later moved out ok => ?_⟩
    have got := ensures.2 later moved out ok
    exact ⟨got.1, ih _ got.2⟩

theorem ensures_bind {task : Task S Failure First}
    {next : First → Task S Failure Second} {post : Second → S.Store → Prop} {store : S.Store} :
    (task >>= next).Ensures d request post store ↔ task.Ensures d request
      (fun res => (next res).Ensures d request post) store := by
  show (task.bind next).Ensures d request post store ↔ _
  induction task generalizing store with
  | finish res | fail err | lock rest ih =>
    exact .rfl
  | invoke call rest ih =>
    simp [bind, Ensures, ih]

theorem Makes.bind {task : Task S Failure First}
    {next : First → Task S Failure Second} (makes : task.Makes calls)
    (rest : ∀ res, (next res).Makes calls) :
    (task >>= next).Makes calls := by
  show (task.bind next).Makes calls
  induction task with
  | finish res => exact rest res
  | fail err => trivial
  | invoke call continuation ih =>
    exact ⟨makes.1, fun ans => ih ans (makes.2 ans)⟩
  | lock continuation ih => exact makes.elim

/-- Free calls followed by polite tasks are polite. -/
theorem Makes.polite_bind {task : Task S Failure First}
    {next : First → Task S Failure Second} (makes : task.Makes d.free)
    (rest : ∀ res, (next res).Polite d request) :
    (task >>= next).Polite d request := by
  show (task.bind next).Polite d request
  induction task with
  | finish res => exact rest res
  | fail err => trivial
  | invoke call continuation ih =>
    exact ⟨makes.1, fun ans => ih ans (makes.2 ans)⟩
  | lock continuation ih => exact makes.elim

theorem Makes.polite {task : Task S Failure Result} (makes : task.Makes d.free) :
    task.Polite d request := by
  induction task with
  | finish res | fail err => trivial
  | invoke call rest ih =>
    exact ⟨makes.1, fun ans => ih ans (makes.2 ans)⟩
  | lock rest ih => exact makes.elim

/-- A holder whose calls keep the store settled is orderly. -/
theorem Makes.orderly {task : Task S Failure Result} (makes : task.Makes calls)
    (keeps : ∀ call store out, calls call → d.settled store → d.admits call out →
      d.inside request store (S.perform store call out).1 ∧
      d.settled (S.perform store call out).1)
    {store : S.Store} (done : d.settled store) :
    task.Orderly d request store := by
  induction task generalizing store with
  | finish res | fail err => exact done
  | invoke call rest ih =>
    refine ⟨fun _ => done, fun later moved out ok => ?_⟩
    have kept := keeps call later out makes.1 (d.stable done moved) ok
    exact ⟨kept.1, ih _ (makes.2 _) kept.2⟩
  | lock rest ih => exact makes.elim

/-- What follows the mutex runs as the holder, from a settled store. -/
theorem polite_acquire {next : Unit → Task S Failure Result}
    (fair : ∀ store, d.settled store → d.enters request store → (next ()).Orderly d request store) :
    (acquire >>= next).Polite d request :=
  fair

/-! ### What a waiting holder keeps -/

theorem Orderly.later {task : Task S Failure Result} {s later : S.Store}
    (fair : task.Orderly d request s) (moved : d.outside s later) :
    task.Orderly d request later := by
  cases task with
  | finish res | fail err => exact d.stable fair moved
  | invoke call next =>
    refine ⟨fun drops => d.stable (fair.1 drops) moved, ?_⟩
    intro last further
    exact fair.2 last (d.trans moved further)
  | lock next => exact fair

theorem Orderly.settled {task : Task S Failure Result} (fair : task.Orderly d request store)
    (drops : d.cancels) :
    d.settled store := by
  cases task with
  | finish res | fail err => exact fair
  | invoke call next => exact fair.1 drops
  | lock next => exact fair.elim

end Task

/-! ## Soundness -/

/-- The mutex is free and the store settled, or its holder is orderly; all
others are polite. -/
structure Discipline.Sound (world : World S Failure Result Request) : Prop where
  free : world.holder = none → d.settled world.store
  held {number : Nat} : world.holder = some number →
    ∃ running, world.running number = some running ∧
      running.task.Orderly d running.request world.store
  others {number : Nat} {running : Running S Failure Result Request} :
    world.holder ≠ some number → world.running number = some running →
      running.task.Polite d running.request

variable {d}

theorem World.running_advance (world : World S Failure Result Request) :
    (world.advance number request task).running other =
      if other = number ∧ other < world.tasks.length then some ⟨request, task⟩
      else world.running other := by
  simp only [World.running, World.advance, List.getElem?_set]
  by_cases eq : number = other
  · subst eq
    by_cases lt : number < world.tasks.length
    · simp [lt]
    · simp [lt]
  · simp [eq, Ne.symm eq]

theorem World.lt_of_running {world : World S Failure Result Request}
    {number : Nat} {live : Running S Failure Result Request}
    (found : world.running number = some live) :
    number < world.tasks.length := by
  by_contra outOfRange
  simp [World.running, outOfRange] at found

theorem World.running_release (world : World S Failure Result Request)
    {number other : Nat} {running : Running S Failure Result Request}
    (found : (world.release number).running other = some running) :
    other ≠ number ∧ world.running other = some running := by
  simp only [World.running, World.release, List.getElem?_set] at found
  by_cases eq : number = other
  · subst eq
    by_cases lt : number < world.tasks.length
    · simp [lt] at found
    · simp [lt] at found
  · simp only [eq, if_false] at found
    exact ⟨Ne.symm eq, found⟩

section

variable {world : World S Failure Result Request} (sound : d.Sound world) {number : Nat}
include sound

/-- The holder stays orderly and the others polite when a request ends. -/
theorem Discipline.Sound.release (done : world.holder = some number → d.settled world.store) :
    d.Sound (world.release number) := by
  constructor
  · intro free
    by_cases h : world.holder = some number
    · exact done h
    · simp only [World.release, h, if_false] at free
      exact sound.free free
  · intro holder isHolder
    by_cases h : world.holder = some number
    · simp [World.release, h] at isHolder
    · simp only [World.release, h, if_false] at isHolder
      rcases sound.held isHolder with ⟨live, found, fair⟩
      refine ⟨live, ?_, fair⟩
      have ne : number ≠ holder := fun eq => h (eq ▸ isHolder)
      simpa [World.running, World.release, List.getElem?_set, ne] using found
  · intro other live notHolder found
    rcases world.running_release found with ⟨ne, wasRunning⟩
    apply sound.others _ wasRunning
    intro wasHolder
    apply notHolder
    have h : world.holder ≠ some number := by
      intro num
      rw [wasHolder] at num
      exact ne (Option.some.inj num)
    simpa [World.release, h] using wasHolder

theorem Discipline.Sound.advance_holder {request : Request}
    {task : Task S Failure Result} {store : S.Store} (lt : number < world.tasks.length)
    (free : world.holder = none ∨ world.holder = some number)
    (fair : task.Orderly d request store) :
    d.Sound (World.advance { world with store, holder := some number } number
      request task) := by
  constructor
  · intro isFree
    cases isFree
  · intro holder h
    cases h
    refine ⟨⟨request, task⟩, ?_, fair⟩
    simp [World.running_advance, lt]
  · intro other live notHolder found
    have ne : other ≠ number := fun eq => notHolder (eq ▸ rfl)
    simp only [World.running_advance, ne, false_and, if_false] at found
    apply sound.others _ found
    intro wasHolder
    rcases free with isFree | num
    · rw [wasHolder] at isFree
      cases isFree
    · rw [wasHolder] at num
      exact ne (Option.some.inj num)

/-- A request without the mutex moves. -/
theorem Discipline.Sound.advance_other {request : Request}
    {task : Task S Failure Result} {store : S.Store} (notHolder : world.holder ≠ some number)
    (moved : d.outside world.store store) (polite : task.Polite d request) :
    d.Sound (World.advance { world with store } number request task) := by
  constructor
  · intro free
    exact d.stable (sound.free free) moved
  · intro holder h
    rcases sound.held h with ⟨live, found, fair⟩
    refine ⟨live, ?_, fair.later moved⟩
    have ne : holder ≠ number := fun eq => notHolder (eq ▸ h)
    rw [World.running_advance, if_neg fun both => ne both.1]
    exact found
  · intro other live isOther found
    rw [World.running_advance] at found
    split at found
    · cases found
      exact polite
    · exact sound.others isOther found

end

/-- What a call of a request does to the store. -/
def Discipline.Moves (world : World S Failure Result Request) (number : Nat)
    (store : S.Store) : Prop :=
  ∃ running, world.running number = some running ∧
    (d.outside world.store store ∨ d.inside running.request world.store store)

theorem Discipline.Sound.move {handler : Request → Task S Failure Result}
    {world next : World S Failure Result Request} {number : Nat}
    {out : S.Outcome} (sound : d.Sound world) (ok : d.guard world (.move number out))
    (ran : step handler world (.move number out) = some next) :
    d.Moves world number next.store ∧ d.Sound next := by
  simp only [step] at ran
  split at ran
  · rename_i request call rest found
    cases ran
    have due : world.pending number = some call := by simp [World.pending, found]
    have allowed := ok call due
    have lt := World.lt_of_running found
    by_cases h : world.holder = some number
    · rcases sound.held h with ⟨live, isRunning, fair⟩
      rw [found] at isRunning
      cases isRunning
      have got := fair.2 _ (d.refl _) out allowed
      refine ⟨⟨_, found, .inr got.1⟩, ?_⟩
      have adv := sound.advance_holder lt (.inr h) got.2
      rw [← h] at adv
      exact adv
    · have polite := sound.others h found
      have moved := d.unlocked world.store polite.1 allowed
      exact ⟨⟨_, found, .inl moved⟩, sound.advance_other h moved (polite.2 _)⟩
  · cases ran

theorem Discipline.Sound.step {handler : Request → Task S Failure Result}
    (polite : ∀ request, (handler request).Polite d request)
    {world next : World S Failure Result Request}
    {ev : Event Request S.Outcome} (sound : d.Sound world) (ok : d.guard world ev)
    (ran : step handler world ev = some next) : d.Sound next := by
  cases ev with
  | arrive request =>
    cases ran
    constructor
    · exact sound.free
    · intro holder isHolder
      rcases sound.held isHolder with ⟨live, found, fair⟩
      refine ⟨live, ?_, fair⟩
      have lt := World.lt_of_running found
      simpa [World.running, List.getElem?_append_left lt] using found
    · intro other live notHolder found
      by_cases lt : other < world.tasks.length
      · apply sound.others notHolder
        simpa [World.running, List.getElem?_append_left lt] using found
      · have isNew : some live = some ⟨request, handler request⟩ := by
          rw [← found, World.running, List.getElem?_append_right (Nat.le_of_not_lt lt)]
          cases distance : other - world.tasks.length with
          | zero => simp
          | succ more =>
            simp [World.running, List.getElem?_append_right (Nat.le_of_not_lt lt),
              distance] at found
        cases isNew
        exact polite request
  | move number out => exact (sound.move ok ran).2
  | acquire number =>
    simp only [Mutex.step] at ran
    split at ran
    · rename_i request rest found free
      cases ran
      have ent := ok _ found
      have notHolder : world.holder ≠ some number := by simp [free]
      have fair := sound.others notHolder found world.store (sound.free free) ent
      exact sound.advance_holder (World.lt_of_running found) (.inl free) fair
    · cases ran
  | leave number =>
    simp only [Mutex.step] at ran
    split at ran
    on_goal 3 => cases ran
    all_goals
      rename_i found
      cases ran
      apply sound.release
      intro h
      rcases sound.held h with ⟨live, isRunning, fair⟩
      rw [found] at isRunning
      cases isRunning
      exact fair
  | cancel number =>
    simp only [Mutex.step] at ran
    split at ran
    · cases ran
      apply sound.release
      intro h
      rcases sound.held h with ⟨live, _, fair⟩
      exact fair.settled ok
    · cases ran

theorem Discipline.sound_start (done : d.settled s) :
    d.Sound (World.start s : World S Failure Result Request) :=
  { free := fun _ => done
    held := fun h => by cases h
    others := fun _ found => by simp [World.running, World.start] at found }

/-- Tasks that are polite one by one keep the discipline in every run. -/
theorem Discipline.sound_of_run (polite : ∀ request, (handler request).Polite d request)
    {init final : World S Failure Result Request}
    {evs : List (Event Request S.Outcome)} (sound : d.Sound init)
    (run : GuardedRun (Mutex.step handler) d.guard init evs final) :
    d.Sound final :=
  run.invariant (fun _ _ _ h ok ran => h.step polite ok ran) sound

/-- When requests may be dropped, the store is settled at every moment. -/
theorem Discipline.Sound.settled (sound : d.Sound world) (drops : d.cancels)
    : d.settled world.store := by
  cases h : world.holder with
  | none => exact sound.free h
  | some number =>
    rcases sound.held h with ⟨live, _, fair⟩
    exact fair.settled drops

/-- Only calls change the store. -/
theorem store_of_step (ran : step handler world ev = some next)
    (notMove : ∀ number out, ev ≠ .move number out) :
    next.store = world.store := by
  cases ev with
  | arrive request =>
    cases ran
    rfl
  | move number out => exact absurd rfl (notMove number out)
  | acquire number | cancel number =>
    simp only [step] at ran
    split at ran
    · cases ran
      rfl
    · cases ran
  | leave number =>
    simp only [step] at ran
    split at ran
    · cases ran
      rfl
    · cases ran
      rfl
    · cases ran

/-- What every step of a discipline keeps, a run keeps. -/
theorem Discipline.kept_of_run (polite : ∀ request, (handler request).Polite d request)
    {Kept : S.Store → S.Store → Prop} (refl : ∀ store, Kept store store)
    (trans : ∀ first second third, Kept first second → Kept second third → Kept first third)
    (outside : ∀ store later, d.outside store later → Kept store later)
    (mem : ∀ request store later, d.inside request store later →
      Kept store later) {init last : World S Failure Result Request}
    {evs : List (Event Request S.Outcome)} (sound : d.Sound init)
    (run : GuardedRun (Mutex.step handler) d.guard init evs last) :
    Kept init.store last.store := by
  induction run with
  | done world => exact refl world.store
  | @move world next last ev evs ok ran rest ih =>
    have kept : Kept world.store next.store := by
      by_cases isMove : ∃ number out, ev = .move number out
      · rcases isMove with ⟨number, out, rfl⟩
        rcases (sound.move ok ran).1 with ⟨live, _, free | held⟩
        · exact outside _ _ free
        · exact mem _ _ _ held
      · have eq := store_of_step ran fun number out isEvent =>
          isMove ⟨number, out, isEvent⟩
        rw [eq]
        exact refl world.store
    exact trans _ _ _ kept (ih (sound.step polite ok ran))

end StorageOrchestrator.Lib.Mutex
