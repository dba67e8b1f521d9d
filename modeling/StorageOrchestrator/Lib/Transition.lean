import Mathlib

/-!
# Guarded runs of an event-driven system

A system is a partial step function: an event either leads to the next state
or is not enabled.  All nondeterminism (which request moves next, which
response is lost) is carried by the events, so a run is a list of events.

`GuardedRun step guard` relates the ends of a run each of whose steps meets a
condition on the state before it.  An invariant is established once per step
and then holds in every state a guarded run reaches.
-/

namespace StorageOrchestrator.Lib.Transition

/-- How a request to another party comes back. -/
inductive Delivery where
  | answered
  | responseLost
  | notExecuted
deriving DecidableEq, Repr

/-- The effect of the request took place. -/
def Delivery.executed : Delivery → Bool
  | .answered | .responseLost => true
  | .notExecuted => false

variable {State Event : Type*}

/-- The state a list of events leads to, when all of them are enabled. -/
def replay (step : State → Event → Option State) : State → List Event → Option State
  | state, [] => some state
  | state, event :: events =>
    match step state event with
    | none => none
    | some next => replay step next events

theorem replay_append (step : State → Event → Option State) (s : State)
    (first second : List Event) :
    replay step s (first ++ second) =
      (replay step s first).bind fun next => replay step next second := by
  induction first generalizing s with
  | nil => rfl
  | cons ev first ih =>
    simp only [List.cons_append, replay]
    cases step s ev with
    | none => rfl
    | some next => exact ih next

/-- A run each of whose steps meets `guard` in the state before it. -/
inductive GuardedRun (step : State → Event → Option State) (guard : State → Event → Prop) :
    State → List Event → State → Prop where
  | done (state : State) : GuardedRun step guard state [] state
  | move {state next final : State} {event : Event} {events : List Event}
      (admitted : guard state event)
      (taken : step state event = some next)
      (rest : GuardedRun step guard next events final) :
      GuardedRun step guard state (event :: events) final

section

variable {step : State → Event → Option State} {guard : State → Event → Prop}

/-- A predicate kept by every admitted step holds wherever a run ends. -/
theorem GuardedRun.invariant {Holds : State → Prop}
    (stepKeeps : ∀ s event next, Holds s → guard s event →
      step s event = some next → Holds next) {init final : State}
    {evs : List Event} (run : GuardedRun step guard init evs final)
    (initially : Holds init) :
    Holds final := by
  induction run with
  | done s => exact initially
  | move ok ran rest ih =>
    exact ih (stepKeeps _ _ _ initially ok ran)

theorem GuardedRun.weaken (run : GuardedRun step guard initial events final)
    (implied : ∀ s event, guard s event → weaker s event) :
    GuardedRun step weaker initial events final := by
  induction run with
  | done s => exact .done s
  | move ok ran rest ih =>
    exact .move (implied _ _ ok) ran ih

/-- Every guarded run is a run of the unguarded system. -/
theorem GuardedRun.replay_eq (run : GuardedRun step guard initial events final) :
    replay step initial events = some final := by
  induction run with
  | done s => rfl
  | move ok ran rest ih =>
    simp only [replay, ran]
    exact ih

/-- A run of the system is a guarded run when every step is admitted. -/
theorem GuardedRun.of_replay (ok : ∀ state ev, guard state ev)
    (ran : replay step initial evs = some final) :
    GuardedRun step guard initial evs final := by
  induction evs generalizing initial with
  | nil =>
    cases ran
    exact .done _
  | cons ev evs ih =>
    simp only [replay] at ran
    split at ran
    · cases ran
    · rename_i taken
      exact .move (ok _ _) taken (ih ran)

/-- Replay a list of events, testing the guard before each of them. -/
def guardedReplay (step : State → Event → Option State) (guard : State → Event → Prop)
    [∀ state event, Decidable (guard state event)] :
    State → List Event → Option State
  | state, [] => some state
  | state, event :: events =>
    if guard state event then
      match step state event with
      | none => none
      | some next => guardedReplay step guard next events
    else none

theorem GuardedRun.of_guardedReplay [∀ state ev, Decidable (guard state ev)]
    (ran : guardedReplay step guard init evs = some final) :
    GuardedRun step guard init evs final := by
  induction evs generalizing init with
  | nil =>
    cases ran
    exact .done _
  | cons ev evs ih =>
    simp only [guardedReplay] at ran
    split at ran
    · rename_i ok
      cases taken : step init ev with
      | none => simp [taken] at ran
      | some next =>
        simp only [taken] at ran
        exact .move ok taken (ih ran)
    · cases ran

theorem GuardedRun.exists_of_guardedReplay [∀ state ev, Decidable (guard state ev)]
    (ran : (guardedReplay step guard init evs).isSome) :
    ∃ final, GuardedRun step guard init evs final :=
  (Option.isSome_iff_exists.mp ran).imp fun _ => .of_guardedReplay

end

/-! ## What is seen along a run -/

/-- What the steps of a run show, each in the state before it. -/
def observed {View : Type*} (step : State → Event → Option State)
    (view : State → Event → List View) : State → List Event → List View
  | _, [] => []
  | state, event :: events =>
    view state event ++
      match step state event with
      | none => []
      | some next => observed step view next events

/-- A run shows what each of its steps shows. -/
theorem GuardedRun.of_observed {View : Type*} {step : State → Event → Option State}
    (view : State → Event → List View) (ran : replay step initial events = some final) :
    GuardedRun step (fun state event => ∀ seen ∈ view state event,
      seen ∈ observed step view initial events) initial events final := by
  induction events generalizing initial with
  | nil =>
    cases ran
    exact .done _
  | cons event events ih =>
    simp only [replay] at ran
    split at ran
    · cases ran
    · rename_i next taken
      simp only [observed, taken]
      exact .move (fun seen shown => List.mem_append_left _ shown) taken
        ((ih ran).weaken fun _ _ shows seen shown => List.mem_append_right _ (shows seen shown))

/-! ## The requests of a state, by number -/

/-- After one request moved, a request is the moved one or as before. -/
theorem getElem?_set_cases {Slot : Type*} {slots : List Slot} {moved slot : Slot}
    (found : (slots.set number moved)[i]? = some slot) :
    i = number ∧ slot = moved ∨ i ≠ number ∧ slots[i]? = some slot := by
  rw [List.getElem?_set] at found
  split at found
  · rename_i eq
    split at found
    · cases found
      exact .inl ⟨eq.symm, rfl⟩
    · cases found
  · rename_i ne
    exact .inr ⟨fun eq => ne eq.symm, found⟩

/-- After a request arrived, a request is that one or as before. -/
theorem getElem?_arrived_cases {Slot : Type*} {slots : List Slot} {arrived slot : Slot}
    (found : (slots ++ [arrived])[i]? = some slot) :
    i = slots.length ∧ slot = arrived ∨ slots[i]? = some slot := by
  rw [List.getElem?_append] at found
  split at found
  · exact .inr found
  · rw [List.getElem?_singleton] at found
    split at found
    · cases found
      exact .inl ⟨by omega, rfl⟩
    · cases found

/-- Any two requests are apart. -/
def AllApart {Slot : Type*} (apart : Slot → Slot → Prop) (slots : List Slot) : Prop :=
  ∀ ⦃i j : Nat⦄ ⦃left right : Slot⦄, slots[i]? = some left → slots[j]? = some right → i ≠ j →
    apart left right

section

variable {Slot : Type*} {apart : Slot → Slot → Prop} {slots : List Slot} {moved arrived : Slot}

theorem AllApart.set (all : AllApart apart slots)
    (others : ∀ {i : Nat} {other : Slot}, slots[i]? = some other → i ≠ number →
      apart moved other ∧ apart other moved) :
    AllApart apart (slots.set number moved) := by
  intro i j left right isLeft isRight ne
  rcases getElem?_set_cases isLeft with ⟨rfl, rfl⟩ | ⟨notLeft, wasLeft⟩
  · rcases getElem?_set_cases isRight with ⟨rfl, rfl⟩ | ⟨notRight, wasRight⟩
    · exact absurd rfl ne
    · exact (others wasRight notRight).1
  · rcases getElem?_set_cases isRight with ⟨rfl, rfl⟩ | ⟨-, wasRight⟩
    · exact (others wasLeft notLeft).2
    · exact all wasLeft wasRight ne

theorem AllApart.arrive (all : AllApart apart slots)
    (others : ∀ other, apart arrived other ∧ apart other arrived) :
    AllApart apart (slots ++ [arrived]) := by
  intro i j left right isLeft isRight ne
  rcases getElem?_arrived_cases isLeft with ⟨-, rfl⟩ | wasLeft
  · exact (others right).1
  · rcases getElem?_arrived_cases isRight with ⟨-, rfl⟩ | wasRight
    · exact (others left).2
    · exact all wasLeft wasRight ne

end

end StorageOrchestrator.Lib.Transition
