import StorageOrchestrator.Lib.Transition

/-!
# The access cache

`createAccessCache` keeps the user row that the last lookup of an account
read, with the time at which that lookup started.  A lookup is cut at its
request to db-api: it starts, the row is read, and later the answer arrives
and is stored.  Any number of lookups, writes and invalidations interleave; a
read with `fresh` set is an invalidation, since it stores nothing.

A row carries the number of writes it has seen.
-/

namespace StorageOrchestrator.Blossom.AccessCache

open Lib.Transition

variable {User : Type*}

/-- A user row, `none` if there is none, after so many writes. -/
structure Row (User : Type*) where
  user : Option User
  version : Nat
deriving DecidableEq, Repr

/-- What the cache holds for an account. -/
structure Hit (User : Type*) where
  row : Row User
  since : Int
deriving DecidableEq, Repr

/-- Where a call of `get` stands. -/
inductive Get (User : Type*) where
  | asking (npub : String) (now : Int)
  | reading (npub : String) (now : Int) (row : Row User)
  | returned (npub : String) (row : Row User)
  | failed
deriving DecidableEq, Repr

/-- The clock, the user table, the cache and the calls of `get`. -/
structure State (User : Type*) where
  now : Int
  rows : String → Row User
  cache : String → Option (Hit User)
  gets : List (Get User)

inductive Event (User : Type*) where
  | clock (now : Int)
  | write (npub : String) (user : Option User)
  | invalidate (npub : String)
  | get (npub : String)
  | read (number : Nat)
  | fail (number : Nat)
  | store (number : Nat)

def State.invalidate (state : State User) (npub : String) : State User :=
  { state with cache := Function.update state.cache npub none }

/-- How a call of `get` starts: a hit that is not too old is the answer. -/
def State.startGet (ttlMs : Int) (state : State User) (npub : String) : Get User :=
  match state.cache npub with
  | some hit =>
    if state.now - hit.since < ttlMs then .returned npub hit.row
    else .asking npub state.now
  | none => .asking npub state.now

/-- One step of the proxy, of db-api or of the clock. -/
def step (ttlMs : Int) (state : State User) : Event User → Option (State User)
  | .clock now => if state.now ≤ now then some { state with now := now } else none
  | .write npub user =>
    some { state with
      rows := Function.update state.rows npub ⟨user, (state.rows npub).version + 1⟩ }
  | .invalidate npub => some (state.invalidate npub)
  | .get npub => some { state with gets := state.gets ++ [state.startGet ttlMs npub] }
  | .read number =>
    match state.gets[number]? with
    | some (.asking npub now) =>
      some { state with gets := state.gets.set number (.reading npub now (state.rows npub)) }
    | _ => none
  | .fail number =>
    match state.gets[number]? with
    | some (.asking _ _) => some { state with gets := state.gets.set number .failed }
    | _ => none
  | .store number =>
    match state.gets[number]? with
    | some (.reading npub now row) =>
      some { state with
        cache := Function.update state.cache npub (some ⟨row, now⟩)
        gets := state.gets.set number (.returned npub row) }
    | _ => none

/-! ## What is new enough -/

section

variable {ttlMs : Int} {npub : String} {first version : Nat} {state next : State User}

/--
Every row of the account that a call from number `first` on may answer with has
seen `version` writes; the other rows in reach are too old for the cache.
-/
structure Fresh (ttlMs : Int) (npub : String) (first version : Nat) (state : State User) :
    Prop where
  written : version ≤ (state.rows npub).version
  started : first ≤ state.gets.length
  cached : ∀ hit, state.cache npub = some hit →
    version ≤ hit.row.version ∨ ttlMs ≤ state.now - hit.since
  pending : ∀ index now row, state.gets[index]? = some (.reading npub now row) →
    version ≤ row.version ∨ index < first ∧ ttlMs ≤ state.now - now
  answered : ∀ index row, first ≤ index → state.gets[index]? = some (.returned npub row) →
    version ≤ row.version

theorem Fresh.startGet (fresh : Fresh ttlMs npub first version state) (other : String) :
    (∃ row, state.startGet ttlMs other = .returned other row ∧
      (other = npub → version ≤ row.version)) ∨
      state.startGet ttlMs other = .asking other state.now := by
  rw [State.startGet]
  split
  · rename_i hit held
    split
    · rename_i young
      refine .inl ⟨hit.row, rfl, ?_⟩
      rintro rfl
      exact (fresh.cached hit held).resolve_right (not_le.mpr young)
    · exact .inr rfl
  · exact .inr rfl

/-- A call that moved keeps the account fresh if what it holds now is. -/
theorem Fresh.moved {get : Get User} (fresh : Fresh ttlMs npub first version state)
    (reads : ∀ now row, get = .reading npub now row → version ≤ row.version)
    (returns : ∀ row, get = .returned npub row → first ≤ n → version ≤ row.version) :
    Fresh ttlMs npub first version { state with gets := state.gets.set n get } where
  written := fresh.written
  started := by simpa using fresh.started
  cached := fresh.cached
  pending := by
    intro i now row hit
    rcases getElem?_set_cases hit with ⟨-, eq⟩ | ⟨-, pre⟩
    · exact .inl (reads now row eq.symm)
    · exact fresh.pending i now row pre
  answered := by
    intro i row late hit
    rcases getElem?_set_cases hit with ⟨rfl, eq⟩ | ⟨-, pre⟩
    · exact returns row eq.symm late
    · exact fresh.answered i row late pre

section

variable (fresh : Fresh ttlMs npub first version state)
include fresh

theorem Fresh.arrived (other : String) : Fresh ttlMs npub first version
      { state with gets := state.gets ++ [state.startGet ttlMs other] } where
  written := fresh.written
  started := by
    simp only [List.length_append]
    exact Nat.le_add_right_of_le fresh.started
  cached := fresh.cached
  pending := by
    intro i now row hit
    rcases getElem?_arrived_cases hit with ⟨-, eq⟩ | pre
    · rcases fresh.startGet other with ⟨_, starts, -⟩ | starts
      · cases eq.trans starts
      · cases eq.trans starts
    · exact fresh.pending i now row pre
  answered := by
    intro i row late hit
    rcases getElem?_arrived_cases hit with ⟨-, eq⟩ | pre
    · rcases fresh.startGet other with ⟨_, starts, isNew⟩ | starts
      · cases eq.trans starts
        exact isNew rfl
      · cases eq.trans starts
    · exact fresh.answered i row late pre

/-- An answer that arrives is stored under the time its lookup started. -/
theorem Fresh.stored (found : state.gets[n]? = some (.reading other now row)) :
    Fresh ttlMs npub first version
      { state with
        cache := Function.update state.cache other (some ⟨row, now⟩)
        gets := state.gets.set n (.returned other row) } := by
  have held : ∀ hit, Function.update state.cache other (some ⟨row, now⟩) npub = some hit →
      version ≤ hit.row.version ∨ ttlMs ≤ state.now - hit.since := by
    intro hit held
    by_cases eq : npub = other
    · subst eq
      rw [Function.update_self] at held
      cases held
      exact (fresh.pending n now row found).imp_right And.right
    · rw [Function.update_of_ne eq] at held
      exact fresh.cached hit held
  have returns : ∀ later, Get.returned other row = .returned npub later → first ≤ n →
      version ≤ later.version := by
    intro later eq late
    cases eq
    exact (fresh.pending n now row found).resolve_right fun early => by omega
  exact { fresh.moved (fun _ _ eq => by cases eq) returns with cached := held }

theorem Fresh.taken
    (ran : step ttlMs state ev = some next) : Fresh ttlMs npub first version next := by
  cases ev with
  | clock now =>
    simp only [step] at ran
    split at ran
    · rename_i later
      cases ran
      refine { fresh with cached := fun hit held => ?_, pending := fun i begun row found => ?_ }
      · exact (fresh.cached hit held).imp_right fun old => by simp only; omega
      · exact (fresh.pending i begun row found).imp_right fun old => ⟨old.1, by
          have := old.2
          simp only
          omega⟩
    · cases ran
  | write other u =>
    cases ran
    refine { fresh with written := ?_ }
    by_cases eq : npub = other
    · subst eq
      simpa using Nat.le_succ_of_le fresh.written
    · simpa [Function.update_of_ne eq] using fresh.written
  | invalidate other =>
    cases ran
    refine { fresh with cached := fun hit held => ?_ }
    by_cases eq : npub = other
    · subst eq
      simp [State.invalidate] at held
    · exact fresh.cached hit (by simpa [State.invalidate, Function.update_of_ne eq] using held)
  | get other =>
    cases ran
    exact fresh.arrived other
  | read n =>
    simp only [step] at ran
    split at ran
    · cases ran
      refine fresh.moved (fun now row eq => ?_) nofun
      cases eq
      exact fresh.written
    · cases ran
  | fail n =>
    simp only [step] at ran
    split at ran
    · cases ran
      exact fresh.moved nofun nofun
    · cases ran
  | store n =>
    simp only [step] at ran
    split at ran
    · rename_i found
      cases ran
      exact fresh.stored found
    · cases ran

end

theorem Fresh.run (evs : List (Event User)) (fresh : Fresh ttlMs npub first version state)
    (ran : replay (step ttlMs) state evs = some next) :
    Fresh ttlMs npub first version next := by
  have run : GuardedRun (step ttlMs) (fun _ _ => True) state evs next :=
    .of_replay (fun _ _ => trivial) ran
  exact run.invariant (fun _ _ _ h _ taken => h.taken taken) fresh

end

/-! ## After an invalidation -/

/-- No call of `get` that starts after the invalidation answers with a row older than `version`. -/
def NeverStale (ttlMs : Int) (state : State User) (npub : String) (version : Nat) : Prop :=
  ∀ events final, replay (step ttlMs) (state.invalidate npub) events = some final →
    ∀ index row, state.gets.length ≤ index → final.gets[index]? = some (.returned npub row) →
      version ≤ row.version

/--
After a write and an invalidation, later calls see the write exactly when no
call is under way that read the row before the write and started less than the
lifetime of an entry ago.
-/
theorem neverStale_iff (ttlMs : Int) (state : State User) (npub : String) (version : Nat)
    (written : version ≤ (state.rows npub).version) :
    NeverStale ttlMs state npub version ↔
      ∀ (index : Nat) now row, state.gets[index]? = some (.reading npub now row) →
        row.version < version → ttlMs ≤ state.now - now := by
  constructor
  · intro never index now row hit old
    by_contra young
    have mem := (List.getElem?_eq_some_iff.mp hit).1
    have runs : replay (step ttlMs) (state.invalidate npub) [.store index, .get npub] =
        some { state with
          cache := Function.update (Function.update state.cache npub none) npub (some ⟨row, now⟩)
          gets := state.gets.set index (.returned npub row) ++ [.returned npub row] } := by
      simp [replay, step, State.invalidate, hit, State.startGet, not_le.mp young]
    have again := never _ _ runs state.gets.length row le_rfl (by simp)
    omega
  · intro tooOld evs last ran index row late hit
    have fresh : Fresh ttlMs npub state.gets.length version (state.invalidate npub) :=
      { written := written
        started := le_rfl
        cached := by simp [State.invalidate]
        pending := by
          intro index now row hit
          rcases Nat.lt_or_ge row.version version with old | new
          · have mem := (List.getElem?_eq_some_iff.mp hit).1
            exact .inr ⟨mem, tooOld index now row hit old⟩
          · exact .inl new
        answered := by
          intro index row late hit
          have mem := (List.getElem?_eq_some_iff.mp hit).1
          exact absurd mem (Nat.not_lt.mpr late) }
    exact (fresh.run evs ran).answered index row late hit

/-- A lookup of an account without a row, after the row was written. -/
def overlapping : State Unit where
  now := 0
  rows := Function.update (fun _ => ⟨none, 0⟩) "alice" ⟨some (), 1⟩
  cache := fun _ => none
  gets := [.reading "alice" 0 ⟨none, 0⟩]

/-- Its answer arrives after the invalidation, and the next call returns it. -/
theorem overlapping_stale : replay (step 1000) ⟨0, fun _ => ⟨none, 0⟩, fun _ => none, []⟩
        [.get "alice", .read 0, .write "alice" (some ())] = some overlapping ∧
      ¬ NeverStale 1000 overlapping "alice" 1 := by
  refine ⟨rfl, fun never => ?_⟩
  have runs : replay (step 1000) (overlapping.invalidate "alice") [.store 0, .get "alice"] =
      some { overlapping.invalidate "alice" with
        cache := Function.update (overlapping.invalidate "alice").cache "alice"
          (some ⟨⟨none, 0⟩, 0⟩)
        gets := [.returned "alice" ⟨none, 0⟩, .returned "alice" ⟨none, 0⟩] } := rfl
  exact absurd (never _ _ runs 1 ⟨none, 0⟩ le_rfl rfl) (by decide)

/-- A lookup that is a lifetime old, and one that has read the written row. -/
def harmless : State Unit :=
  { overlapping with
    now := 1000
    gets := [.reading "alice" 0 ⟨none, 0⟩, .reading "alice" 900 ⟨some (), 1⟩] }

/-- With such lookups under way, the write is seen. -/
theorem neverStale_quiet : NeverStale 1000 harmless "alice" 1 := by
  refine (neverStale_iff 1000 harmless "alice" 1 (by decide)).mpr ?_
  rintro (_ | _ | _) now row found old
  · cases found
    decide
  · cases found
    exact absurd old (by decide)
  · cases found

end StorageOrchestrator.Blossom.AccessCache
