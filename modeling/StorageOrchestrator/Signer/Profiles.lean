import StorageOrchestrator.Signer.Isolation

/-!
# Concurrent changes of the profile list

Every change of the stored profiles is a `get` of the whole list and, after an
`await`, a `set` of the whole list.  Each of the two is one step here, and the
steps of any number of calls interleave.  What a call writes is what its
handler in `Signer.Custody` makes of the list it has read.
-/

namespace StorageOrchestrator.Signer.Profiles

open Lib.Js Lib.Transition Signer.Custody Signer.Isolation

variable {Number Secret SignedEvent : Type} [DecidableEq Number] [Zero Number]

inductive Call (Number : Type) where
  | importKey (nsec passphrase label : JsValue Number) (moment : Moment)
  | generateKey (passphrase label : JsValue Number) (moment : Moment)
  | removeProfile (npub : String)

/-- The list a call has read, while it is between its `get` and its `set`. -/
inductive Progress (Number : Type) where
  | asked
  | read (profiles : List (StoredProfile Number))
  | returned

structure State (Number : Type) where
  profiles : List (StoredProfile Number)
  calls : List (Call Number × Progress Number)
  /-- The npubs that calls have added (`true`) or removed, the latest first. -/
  log : List (String × Bool)

/-- What a call that read these profiles writes; nothing if it throws. -/
def write (tools : NostrTools Number Secret SignedEvent) (call : Call Number)
    (read : List (StoredProfile Number)) : Option (List (StoredProfile Number) × String × Bool) :=
  let worker : Worker Number Secret := ⟨read, [], none, none⟩
  let added : Handled Number Secret SignedEvent → Option _
    | (next, .ok (.npub npub)) => some (next.profiles, npub, true)
    | _ => none
  match call with
  | .importKey nsec passphrase label moment =>
    added (importKey tools worker nsec passphrase label moment)
  | .generateKey passphrase label moment => added (generateKey tools worker passphrase label moment)
  | .removeProfile npub => some ((removeProfile worker (some (.str npub))).profiles, npub, false)

inductive Event (Number : Type) where
  | call (call : Call Number)
  | get (number : Nat)
  | set (number : Nat)

def step (tools : NostrTools Number Secret SignedEvent) (state : State Number) :
    Event Number → Option (State Number)
  | .call call => some { state with calls := state.calls ++ [(call, .asked)] }
  | .get number =>
    match state.calls[number]? with
    | some (call, .asked) =>
      some { state with calls := state.calls.set number (call, .read state.profiles) }
    | _ => none
  | .set number =>
    match state.calls[number]? with
    | some (call, .read read) =>
      (write tools call read).map fun (profiles, entry) =>
        ⟨profiles, state.calls.set number (call, .returned), entry :: state.log⟩
    | _ => none

def npubs (profiles : List (StoredProfile Number)) : List String := profiles.map (·.npub)

/-- Added keys are stored, once, and removed ones are not. -/
structure Intact (state : State Number) : Prop where
  once : (npubs state.profiles).Nodup
  latest : ∀ npub added, state.log.lookup npub = some added →
    (npub ∈ npubs state.profiles ↔ added = true)

/--
A call sets the list when it is still the one it has read, and it does not
generate a key that is there.
-/
def Undisturbed (tools : NostrTools Number Secret SignedEvent) (state : State Number) :
    Event Number → Prop
  | .set number => ∀ call read, state.calls[number]? = some (call, .read read) →
      read = state.profiles ∧ ∀ profiles npub,
        write tools call read = some (profiles, npub, true) → npub ∉ npubs read
  | _ => True

variable {tools : NostrTools Number Secret SignedEvent} {call : Call Number}
  {read written : List (StoredProfile Number)}

theorem npubs_of_wrote (put : write tools call read = some (written, npub, added)) :
    npubs written = bif added then npubs read ++ [npub] else (npubs read).filter (· ≠ npub) := by
  cases call with
  | importKey nsec pass label moment =>
    simp only [write] at put
    split at put <;> cases put
    rename_i did
    simp only [importKey, storeKey] at did
    repeat' split at did
    all_goals cases did
    simp [npubs]
  | generateKey pass label moment =>
    simp only [write] at put
    split at put <;> cases put
    rename_i did
    simp only [generateKey, storeKey] at did
    split at did <;> cases did
    simp [npubs]
  | removeProfile npub =>
    cases put
    simp only [removeProfile, npubs, List.filter_map]
    split <;> simp [lock, Function.comp_def]

theorem Intact.step {st next : State Number} {ev : Event Number} (ok : Intact st)
    (calm : Undisturbed tools st ev) (ran : step tools st ev = some next) :
    Intact next := by
  cases ev with
  | call call =>
    cases ran
    exact ⟨ok.once, ok.latest⟩
  | get n =>
    simp only [Profiles.step] at ran
    split at ran <;> cases ran
    exact ⟨ok.once, ok.latest⟩
  | set n =>
    simp only [Profiles.step] at ran
    split at ran
    · rename_i call read rd
      obtain ⟨rfl, new⟩ := calm call read rd
      obtain ⟨⟨written, npub, added⟩, put, rfl⟩ := Option.map_eq_some_iff.mp ran
      have now := npubs_of_wrote put
      refine ⟨?_, fun other last entry => ?_⟩
      · rw [now]
        cases added with
        | true =>
          rw [cond_true, (List.perm_append_singleton ..).nodup_iff]
          exact List.nodup_cons.mpr ⟨new _ _ put, ok.once⟩
        | false => exact ok.once.filter _
      · by_cases own : other = npub
        · subst own
          cases added <;> simp_all
        · have before := ok.latest other last
            (by simpa [List.lookup_cons, beq_false_of_ne own] using entry)
          cases added <;> simp [now, own, before]
    · cases ran

/--
As long as no list is written that has changed since it was read, and no
generated key is there already, no key is lost.
-/
theorem undisturbed_run_keeps_keys (profiles : List (StoredProfile Number))
    (once : (npubs profiles).Nodup) {events : List (Event Number)} {final : State Number}
    (run : GuardedRun (step tools) (Undisturbed tools) ⟨profiles, [], []⟩ events final) :
    Intact final :=
  run.invariant (fun _ _ _ ok calm ran => ok.step calm ran) ⟨once, by simp⟩

/-- A key is imported while another one is generated. -/
def bothCalls : List (Event Nat) :=
  [.call (.importKey (some (.str "nsec")) none none ⟨0, 0⟩), .call (.generateKey none none ⟨0, 8⟩)]

/-- Both calls have read the empty list, so the second one drops the key of the first. -/
theorem concurrent_import_is_lost : ∃ final, replay (step transparentTools) ⟨[], [], []⟩
      (bothCalls ++ [.get 0, .get 1, .set 0, .set 1]) = some final ∧ ¬ Intact final := by
  refine ⟨_, rfl, fun ok => ?_⟩
  have kept := (ok.latest "npubpubkey7" true (by decide)).mpr rfl
  revert kept
  decide

theorem serial_run_keeps_keys : ∃ final, GuardedRun (step transparentTools)
    (Undisturbed transparentTools) ⟨[], [], []⟩ (bothCalls ++ [.get 0, .set 0, .get 1, .set 1])
      final ∧ Intact final := by
  suffices run : ∃ final, GuardedRun (step transparentTools) (Undisturbed transparentTools)
      ⟨[], [], []⟩ (bothCalls ++ [.get 0, .set 0, .get 1, .set 1]) final by
    obtain ⟨final, run⟩ := run
    exact ⟨final, run, undisturbed_run_keeps_keys [] .nil run⟩
  refine ⟨_, .move trivial rfl (.move trivial rfl (.move trivial rfl (.move ?_ rfl
    (.move trivial rfl (.move ?_ rfl (.done _))))))⟩ <;>
  · rintro call read ⟨⟩
    refine ⟨rfl, fun profiles npub put => ?_⟩
    cases put
    decide

end StorageOrchestrator.Signer.Profiles
