import StorageOrchestrator.Lib.Transition
import StorageOrchestrator.Mesh.Agent

/-!
# Concurrent batches on a provider

`POST /pg/apply` runs a batch in one transaction: for each operation it first
inserts the key `op:<id>` into `_mesh_pg_meta`, and executes the operation's
statement only if that insert found no such key.  Any number of batches run at
once, statement by statement, and any of them may be aborted at any point.

A statement sees the committed database with the transaction's own changes on
top (READ COMMITTED).  What it does is a parameter, and it may do anything to
the database, the table of operation ids included; the insert of a key waits
for a running transaction that has inserted the same key.  Locks on other rows
only rule out interleavings and are left out.

`untouched_keys_apply_once` says that operations are executed once while no
statement writes to the keys.
-/

namespace StorageOrchestrator.Mesh.Apply

open Lib.Text Lib.Transition List

variable {number : Nat}

/-! ## The handler -/

/-- A provider's database: the operation ids it has recorded, and the rest. -/
structure Store (Rows : Type) where
  recorded : List String
  rows : Rows

/-- The insert of an operation's key. -/
def Store.record {Rows : Type} (store : Store Rows) (id : String) : Store Rows :=
  { store with recorded := id :: store.recorded }

inductive Kind where
  | insert
  | update
  | delete
  | raw
deriving DecidableEq, Repr

/--
An operation as `OpSchema` takes it.  `sql` is the member of `row` of that
name; the reserved members of an INSERT's row stand beside the row.
-/
structure Op (Value : Type) where
  id : String
  table : String
  kind : Kind
  rowId : String
  sql : Option String
  row : List (String × Value)
  reservedConflict : Option (List String)
  reservedPredicate : Option String
  conflictColumns : List String

/-- `ApplySchema`. -/
def bodyAccepted {Value : Type} (ops : List (Op Value)) : Bool :=
  ops.length ≤ 500 &&
    ops.all fun op => op.id ≠ "" && Mesh.Agent.tableNameValid op.table

/-- A statement that the handler sends. -/
inductive Statement (Value : Type) where
  | verbatim (sql : Option String)
  | deleteById (table rowId : String)
  | insert (table : String) (row : List (String × Value))
      (conflict : List String) (predicate : Option String)

/-- The statement of an operation, or the error that ends the batch. -/
def statement {Value : Type} (op : Op Value) : Except String (Statement Value) :=
  match op.kind with
  | .raw =>
    match op.sql with
    | none | some "" => .error "missing raw sql"
    | some sql => .ok (.verbatim (some sql))
  | .delete => .ok (.deleteById op.table op.rowId)
  | .update => .ok (.verbatim op.sql)
  | .insert =>
    if op.reservedPredicate.any fun predicate =>
        !startsWithWord (lowered "where") (lowered predicate) then
      .error "invalid conflict predicate"
    else if op.row.isEmpty then .error "empty insert row"
    else
      .ok (.insert op.table op.row (op.reservedConflict.getD op.conflictColumns)
        op.reservedPredicate)

/-- Where a batch stands. -/
inductive Stage (Value : Type) where
  | gating (todo : List (Op Value))
  | executing (op : Op Value) (todo : List (Op Value))
  | committed
  | aborted

/-- A batch and its transaction. -/
structure Session (Rows Value : Type) where
  ops : List (Op Value)
  stage : Stage Value
  /-- What the transaction has changed so far. -/
  change : Store Rows → Store Rows
  /-- The operation ids it has inserted. -/
  gates : List String
  /-- The operations whose statements it has executed. -/
  executed : List String

/-- A batch that was committed. -/
structure Commit (Rows Value : Type) where
  number : Nat
  ops : List (Op Value)
  executed : List String
  change : Store Rows → Store Rows

/-- A provider with every batch it has been sent. -/
structure Agent (Rows Value : Type) where
  store : Store Rows
  sessions : List (Session Rows Value)
  commits : List (Commit Rows Value)

inductive Event (Value : Type) where
  | arrive (ops : List (Op Value))
  | advance (number : Nat)
  | abort (number : Nat)

section

variable {Rows Value : Type}
  (postgres : Statement Value → Store Rows → Except String (Store Rows → Store Rows))

/-- What an operation's statement does in a transaction that sees `view`. -/
def execute (op : Op Value) (view : Store Rows) : Except String (Store Rows → Store Rows) := do
  postgres (← statement op) view

/-- The keys a running transaction has inserted. -/
def Session.held (session : Session Rows Value) : List String :=
  match session.stage with
  | .gating _ | .executing _ _ => session.gates
  | _ => []

/-- The batch was answered with success. -/
def Session.isCommitted (session : Session Rows Value) : Bool :=
  match session.stage with
  | .committed => true
  | _ => false

theorem Session.isCommitted_iff (session : Session Rows Value) :
    session.isCommitted = true ↔ session.stage = .committed := by
  rw [Session.isCommitted]
  cases session.stage <;> simp

/-- A batch when it arrives. -/
def Session.start (ops : List (Op Value)) : Session Rows Value where
  ops := ops
  stage := if bodyAccepted ops then .gating ops else .aborted
  change := fun store => store
  gates := []
  executed := []

/-- No other transaction has inserted the key. -/
def Agent.isFree (agent : Agent Rows Value) (number : Nat) (id : String) : Bool :=
  agent.sessions.zipIdx.all fun entry =>
    entry.2 == number || id ∉ entry.1.held

/-- The next statement of a batch; nothing while it has to wait. -/
def Session.advance (session : Session Rows Value) (store : Store Rows)
    (isFree : String → Bool) : Option (Session Rows Value) :=
  match session.stage with
  | .gating (op :: todo) =>
    if op.id ∈ (session.change store).recorded then
      some { session with stage := .gating todo }
    else if isFree op.id then
      some { session with
        stage := .executing op todo
        change := fun store => (session.change store).record op.id
        gates := session.gates ++ [op.id] }
    else none
  | .executing op todo =>
    match execute postgres op (session.change store) with
    | .error _ => some { session with stage := .aborted }
    | .ok change =>
      some { session with
        stage := .gating todo
        change := fun store => change (session.change store)
        executed := session.executed ++ [op.id] }
  | _ => none

/-- A batch that is through is committed. -/
def Agent.commit (agent : Agent Rows Value) (number : Nat)
    (session : Session Rows Value) : Agent Rows Value where
  store := session.change agent.store
  sessions := agent.sessions.set number { session with stage := .committed }
  commits := agent.commits ++ [⟨number, session.ops, session.executed, session.change⟩]

def step (agent : Agent Rows Value) : Event Value → Option (Agent Rows Value)
  | .arrive ops =>
    some { agent with sessions := agent.sessions ++ [.start ops] }
  | .advance number => do
      let session ← agent.sessions[number]?
      match session.stage with
      | .gating [] => return agent.commit number session
      | _ =>
        let session ← session.advance postgres agent.store (agent.isFree number)
        return { agent with sessions := agent.sessions.set number session }
  | .abort number => do
      let session ← agent.sessions[number]?
      match session.stage with
      | .gating _ | .executing _ _ =>
        return { agent with
          sessions := agent.sessions.set number { session with stage := .aborted } }
      | _ => none

/-- A provider before its first batch, with any rows. -/
def Agent.start (rows : Rows) : Agent Rows Value where
  store := ⟨[], rows⟩
  sessions := []
  commits := []

/-- The statement that is executed next leaves the recorded ids alone. -/
def Untouched (agent : Agent Rows Value) : Event Value → Prop
  | .advance number =>
    ∀ session op todo, agent.sessions[number]? = some session → session.stage = .executing op todo →
        ∀ change, execute postgres op (session.change agent.store) = .ok change →
          ∀ store, (change store).recorded = store.recorded
  | _ => True

/-- The operations executed in committed transactions, one by one. -/
def executions (commits : List (Commit Rows Value)) : List String := commits.flatMap Commit.executed

end

/-! ## The invariant -/

section

variable {Rows Value : Type} {agent : Agent Rows Value} {session : Session Rows Value} {rows : Rows}
  {store : Store Rows} {op : Op Value} {todo : List (Op Value)}

/-- A running transaction, with the operations it still has before it. -/
structure Running (store : Store Rows) (session : Session Rows Value)
    (todo : List (Op Value)) : Prop where
  records : ∀ before, (session.change before).recorded = session.gates.reverse ++ before.recorded
  distinct : session.gates.Nodup
  fresh : ∀ id ∈ session.gates, id ∉ store.recorded
  own : ∀ id ∈ session.gates, ∃ op ∈ session.ops, op.id = id
  later : todo ⊆ session.ops
  covered : ∀ op ∈ session.ops, op ∈ todo ∨ op.id ∈ session.gates ∨ op.id ∈ store.recorded

/-- What holds of a batch wherever it stands. -/
def SessionSound (store : Store Rows) (session : Session Rows Value) : Prop :=
  match session.stage with
  | .gating todo =>
    Running store session todo ∧ session.executed = session.gates
  | .executing op todo =>
    Running store session todo ∧ session.gates = session.executed ++ [op.id]
  | _ => True

/-- The invariant of a provider. -/
structure Sound (rows : Rows) (agent : Agent Rows Value) : Prop where
  sessions : ∀ {number : Nat} {session : Session Rows Value},
    agent.sessions[number]? = some session → SessionSound agent.store session
  apart : AllApart (fun left right => left.held.Disjoint right.held) agent.sessions
  recorded : ∀ id, id ∈ agent.store.recorded ↔ id ∈ executions agent.commits
  once : (executions agent.commits).Nodup
  covered : ∀ commit ∈ agent.commits, ∀ op ∈ commit.ops, op.id ∈ executions agent.commits
  own : ∀ commit ∈ agent.commits, ∀ id ∈ commit.executed, ∃ op ∈ commit.ops, op.id = id
  effects : agent.store = agent.commits.foldl (fun store commit => commit.change store) ⟨[], rows⟩
  listed : ∀ commit ∈ agent.commits, ∃ session, agent.sessions[commit.number]? = some session ∧
      session.stage = .committed ∧ session.ops = commit.ops
  answered : ∀ {number : Nat} {session : Session Rows Value},
    agent.sessions[number]? = some session → session.stage = .committed →
      ∃ commit ∈ agent.commits, commit.ops = session.ops

theorem start_sound (rows : Rows) : Sound rows (Agent.start rows : Agent Rows Value) where
  sessions := nofun
  apart _ _ _ _ absent := by cases absent
  recorded := fun _ => .rfl
  once := nodup_nil
  covered := nofun
  own := nofun
  effects := rfl
  listed := nofun
  answered := nofun

theorem isFree_iff {id : String} (free : agent.isFree number id = true)
    {i : Nat} {other : Session Rows Value}
    (found : agent.sessions[i]? = some other) (ne : i ≠ number) :
    id ∉ other.held := by
  rw [Agent.isFree, all_eq_true] at free
  have entry := free (other, i) (mem_zipIdx_iff_getElem?.mpr found)
  simpa [ne] using entry

/-- A batch moves on without a commit. -/
theorem Sound.set {next : Session Rows Value} (ok : Sound rows agent)
    (found : agent.sessions[number]? = some session) (live : session.stage ≠ .committed)
    (isSound : SessionSound agent.store next) (stays : next.stage ≠ .committed)
    (held : ∀ id ∈ next.held, id ∈ session.held ∨ agent.isFree number id = true) :
    Sound rows { agent with sessions := agent.sessions.set number next } := by
  have disj : ∀ {i : Nat} {other : Session Rows Value},
      agent.sessions[i]? = some other → i ≠ number →
        next.held.Disjoint other.held := by
    intro i other oth ne id mem isHeld
    rcases held id mem with pre | free
    · exact ok.apart found oth (fun eq => ne eq.symm) pre isHeld
    · exact isFree_iff free oth ne isHeld
  refine ⟨?_, ?_, ok.recorded, ok.once, ok.covered, ok.own, ok.effects, ?_, ?_⟩
  · intro i other oth
    rcases getElem?_set_cases oth with ⟨rfl, rfl⟩ | ⟨-, oth⟩
    · exact isSound
    · exact ok.sessions oth
  · exact ok.apart.set fun oth ne => ⟨disj oth ne, disjoint_symm (disj oth ne)⟩
  · intro commit mem
    rcases ok.listed commit mem with ⟨other, oth, done⟩
    have ne : number ≠ commit.number := by
      rintro rfl
      rw [found] at oth
      cases oth
      exact live done.1
    exact ⟨other, (getElem?_set_ne ne).trans oth, done⟩
  · intro i other oth done
    rcases getElem?_set_cases oth with ⟨rfl, rfl⟩ | ⟨-, oth⟩
    · exact False.elim (stays done)
    · exact ok.answered oth done

theorem arrive_sound (ok : Sound rows agent) (ops : List (Op Value)) :
    Sound rows { agent with sessions := agent.sessions ++ [.start ops] } := by
  have isEmpty : (Session.start ops : Session Rows Value).held = [] := by
    simp only [Session.held, Session.start]
    split <;> rfl
  have isOpen : (Session.start ops : Session Rows Value).stage ≠
      .committed := by
    simp only [Session.start]
    split <;> nofun
  refine ⟨?_, ?_, ok.recorded, ok.once, ok.covered, ok.own, ok.effects, ?_, ?_⟩
  · intro i session found
    rcases getElem?_arrived_cases found with ⟨-, rfl⟩ | old
    · simp only [SessionSound, Session.start]
      split
      · rename_i isStage
        split at isStage
        · cases isStage
          exact ⟨⟨fun _ => rfl, nodup_nil, nofun, nofun,
            List.Subset.refl ops, fun op mem => .inl mem⟩, trivial⟩
        · cases isStage
      · rename_i isStage
        split at isStage <;> cases isStage
      · trivial
    · exact ok.sessions old
  · refine ok.apart.arrive fun other => ?_
    rw [isEmpty]
    exact ⟨disjoint_nil_left _, disjoint_nil_right _⟩
  · intro commit mem
    rcases ok.listed commit mem with ⟨session, found, done⟩
    refine ⟨session, ?_, done⟩
    rw [getElem?_append_left (List.getElem?_eq_some_iff.mp found).1]
    exact found
  · intro i session found done
    rcases getElem?_arrived_cases found with ⟨-, rfl⟩ | old
    · exact False.elim (isOpen done)
    · exact ok.answered old done

/-- An operation that is recorded is passed over. -/
theorem Running.skip (live : Running store session (op :: todo))
    (known : op.id ∈ (session.change store).recorded) :
    Running store { session with stage := .gating todo } todo := by
  refine ⟨live.records, live.distinct, live.fresh, live.own,
    fun _ mem => live.later (mem_cons_of_mem _ mem), ?_⟩
  intro other mem
  rcases live.covered other mem with todo | done
  · rcases mem_cons.mp todo with rfl | later
    · rw [live.records, mem_append, mem_reverse] at known
      exact .inr known
    · exact .inl later
  · exact .inr done

/-- The key of a new operation is inserted. -/
theorem Running.gate (live : Running store session (op :: todo))
    (isNew : op.id ∉ (session.change store).recorded) :
    Running store
      { session with
        stage := .executing op todo
        change := fun store => (session.change store).record op.id
        gates := session.gates ++ [op.id] } todo := by
  rw [live.records, mem_append, mem_reverse, not_or] at isNew
  refine ⟨?_, ?_, ?_, ?_, fun _ mem => live.later (mem_cons_of_mem _ mem), ?_⟩
  · intro pre
    simp [Store.record, live.records]
  · refine nodup_append.mpr ⟨live.distinct, nodup_singleton _, ?_⟩
    intro left hl right hr
    rw [mem_singleton] at hr
    rintro rfl
    exact isNew.1 (hr ▸ hl)
  · intro id mem
    rcases mem_append.mp mem with old | new
    · exact live.fresh id old
    · rw [mem_singleton] at new
      exact new ▸ isNew.2
  · intro id mem
    rcases mem_append.mp mem with old | new
    · exact live.own id old
    · rw [mem_singleton] at new
      exact ⟨op, live.later mem_cons_self, new.symm⟩
  · intro other mem
    rcases live.covered other mem with todo | gated | done
    · rcases mem_cons.mp todo with rfl | later
      · exact .inr (.inl (mem_append_right _ (mem_singleton_self _)))
      · exact .inl later
    · exact .inr (.inl (mem_append_left _ gated))
    · exact .inr (.inr done)

/-- The statement of an operation is executed. -/
theorem Running.execute (live : Running store session todo) {change : Store Rows → Store Rows}
    (eq : ∀ store, (change store).recorded = store.recorded) :
    Running store
      { session with
        stage := .gating todo
        change := fun store => change (session.change store)
        executed := session.executed ++ [op.id] } todo :=
  ⟨fun pre => (eq _).trans (live.records pre), live.distinct, live.fresh, live.own, live.later,
    live.covered⟩

/-- Another transaction commits ids that this one has not inserted. -/
theorem Running.committed (live : Running store session todo)
    {later : Store Rows} {added : List String} (records : later.recorded = added ++ store.recorded)
    (disj : session.gates.Disjoint added) :
    Running later session todo := by
  refine ⟨live.records, live.distinct, ?_, live.own, live.later, ?_⟩
  · intro id mem noted
    rw [records, mem_append] at noted
    rcases noted with isAdded | old
    · exact disj mem isAdded
    · exact live.fresh id mem old
  · intro op mem
    rcases live.covered op mem with todo | gated | done
    · exact .inl todo
    · exact .inr (.inl gated)
    · rw [records]
      exact .inr (.inr (mem_append_right _ done))

theorem SessionSound.committed (ok : SessionSound store session)
    {later : Store Rows} {added : List String} (records : later.recorded = added ++ store.recorded)
    (disj : session.held.Disjoint added) :
    SessionSound later session := by
  rcases session with ⟨ops, stage, edit, gates, ran⟩
  cases stage with
  | gating todo | executing op todo =>
    exact ⟨ok.1.committed records disj, ok.2⟩
  | committed | aborted => trivial

theorem executions_append (commits : List (Commit Rows Value)) (done : Commit Rows Value) :
    executions (commits ++ [done]) = executions commits ++ done.executed := by
  simp [executions]

theorem commit_sound (ok : Sound rows agent) (found : agent.sessions[number]? = some session)
    (isThrough : session.stage = .gating []) :
    Sound rows (agent.commit number session) := by
  have isSound := ok.sessions found
  rw [SessionSound, isThrough] at isSound
  rcases isSound with ⟨live, ran⟩
  have isHeld : session.held = session.gates := by rw [Session.held, isThrough]
  have records : (session.change agent.store).recorded =
      session.gates.reverse ++ agent.store.recorded :=
    live.records agent.store
  refine ⟨?_, ?_, ?_, ?_, ?_, ?_, ?_, ?_, ?_⟩
  · intro i other oth
    rcases getElem?_set_cases oth with ⟨rfl, rfl⟩ | ⟨ne, oth⟩
    · trivial
    · refine (ok.sessions oth).committed records ?_
      intro id mem isGate
      have apart : other.held.Disjoint session.held := ok.apart oth found ne
      rw [isHeld] at apart
      exact apart mem (mem_reverse.mp isGate)
  · exact ok.apart.set fun _ _ => ⟨disjoint_nil_left _, disjoint_nil_right _⟩
  · intro id
    simp only [Agent.commit, records, executions_append, ran,
      mem_append, mem_reverse, ok.recorded id]
    exact or_comm
  · simp only [Agent.commit, executions_append, ran]
    refine nodup_append.mpr ⟨ok.once, live.distinct, ?_⟩
    rintro id done _ gated rfl
    exact live.fresh id gated ((ok.recorded id).mpr done)
  · intro commit mem op isOp
    simp only [Agent.commit, executions_append, ran]
    rw [mem_append]
    rcases mem_append.mp mem with old | new
    · exact .inl (ok.covered commit old op isOp)
    · rw [mem_singleton] at new
      subst new
      rcases live.covered op isOp with none | gated | done
      · cases none
      · exact .inr gated
      · exact .inl ((ok.recorded op.id).mp done)
  · intro commit mem id isId
    rcases mem_append.mp mem with old | new
    · exact ok.own commit old id isId
    · rw [mem_singleton] at new
      subst new
      exact live.own id (ran ▸ isId)
  · simp [Agent.commit, ← ok.effects]
  · intro commit mem
    rcases mem_append.mp mem with old | new
    · rcases ok.listed commit old with ⟨other, oth, ended⟩
      have ne : number ≠ commit.number := by
        rintro rfl
        rw [found] at oth
        cases oth
        rw [isThrough] at ended
        cases ended.1
      exact ⟨other, (getElem?_set_ne ne).trans oth, ended⟩
    · rw [mem_singleton] at new
      subst new
      exact ⟨_, getElem?_set_self (List.getElem?_eq_some_iff.mp found).1, rfl, rfl⟩
  · intro i other oth ended
    simp only [Agent.commit]
    rcases getElem?_set_cases oth with ⟨rfl, rfl⟩ | ⟨-, oth⟩
    · exact ⟨_, mem_append_right _ (mem_singleton_self _), rfl⟩
    · rcases ok.answered oth ended with ⟨commit, mem, isOps⟩
      exact ⟨commit, mem_append_left _ mem, isOps⟩

variable (postgres :
  Statement Value → Store Rows → Except String (Store Rows → Store Rows))

theorem advance_sound {next : Session Rows Value} (ok : Sound rows agent)
    (found : agent.sessions[number]? = some session)
    (eq : Untouched postgres agent (.advance number))
    (adv : session.advance postgres agent.store (agent.isFree number) = some next) :
    Sound rows { agent with sessions := agent.sessions.set number next } := by
  have isSound := ok.sessions found
  have keeps := fun op todo => eq session op todo found
  rcases session with ⟨ops, stage, edit, gates, ran⟩
  cases stage with
  | gating todo =>
    cases todo with
    | nil => cases adv
    | cons op todo =>
      rcases isSound with ⟨live, isExecuted⟩
      simp only [Session.advance] at adv
      split at adv
      · rename_i known
        cases adv
        exact ok.set found nofun ⟨live.skip known, isExecuted⟩ nofun fun id mem => .inl mem
      · rename_i isNew
        split at adv
        · rename_i free
          cases adv
          refine ok.set found nofun ⟨live.gate isNew, congrArg (· ++ [op.id]) isExecuted.symm⟩
            nofun ?_
          intro id mem
          rcases mem_append.mp mem with old | new
          · exact .inl old
          · rw [mem_singleton] at new
            exact .inr (new ▸ free)
        · cases adv
  | executing op todo =>
    rcases isSound with ⟨live, isGates⟩
    simp only [Session.advance] at adv
    split at adv
    · cases adv
      exact ok.set found nofun trivial nofun nofun
    · rename_i edit runs
      cases adv
      exact ok.set found nofun ⟨live.execute (keeps op todo rfl edit runs), isGates.symm⟩
        nofun fun id mem => .inl mem
  | committed | aborted => cases adv

theorem step_sound {next : Agent Rows Value} {ev : Event Value}
    (ok : Sound rows agent) (eq : Untouched postgres agent ev)
    (ran : step postgres agent ev = some next) :
    Sound rows next := by
  cases ev with
  | arrive ops =>
    cases ran
    exact arrive_sound ok ops
  | advance number =>
    simp only [step, Option.bind_eq_bind, Option.bind_eq_some_iff] at ran
    rcases ran with ⟨session, found, ran⟩
    split at ran
    · rename_i isThrough
      cases ran
      exact commit_sound ok found isThrough
    · rcases Option.bind_eq_some_iff.mp ran with ⟨moved, adv, nxt⟩
      cases nxt
      exact advance_sound postgres ok found eq adv
  | abort number =>
    simp only [step, Option.bind_eq_bind, Option.bind_eq_some_iff] at ran
    rcases ran with ⟨session, found, ran⟩
    split at ran
    · rename_i isGating
      cases ran
      exact ok.set found (isGating ▸ nofun) trivial nofun nofun
    · rename_i isExecuting
      cases ran
      exact ok.set found (isExecuting ▸ nofun) trivial nofun nofun
    · cases ran

/-! ## Effectively once -/

theorem step_of_advance {next : Session Rows Value} (found : agent.sessions[number]? = some session)
    (wait : session.stage ≠ .gating [])
    (adv : session.advance postgres agent.store (agent.isFree number) = some next) :
    step postgres agent (.advance number) =
      some { agent with sessions := agent.sessions.set number next } := by
  simp only [step, found, Option.bind_eq_bind, Option.bind_some, adv]
  rfl

/-- An operation that is not recorded is executed when it is sent again. -/
theorem retry_executes (ok : bodyAccepted [op] = true) (quiet : op.id ∉ agent.store.recorded)
    (free : ∀ session ∈ agent.sessions, op.id ∉ session.held) {change : Store Rows → Store Rows}
    (does : execute postgres op (agent.store.record op.id) = .ok change) :
    ∃ final, replay (step postgres) agent [.arrive [op], .advance agent.sessions.length,
      .advance agent.sessions.length, .advance agent.sessions.length] =
      some final ∧
      final.store = change (agent.store.record op.id) ∧
      executions final.commits = executions agent.commits ++ [op.id] := by
  let number := agent.sessions.length
  let first : Session Rows Value :=
    { ops := [op], stage := .gating [op], change := fun store => store,
      gates := [], executed := [] }
  let second : Session Rows Value :=
    { ops := [op], stage := .executing op [],
      change := fun store => store.record op.id,
      gates := [op.id], executed := [] }
  let third : Session Rows Value :=
    { ops := [op], stage := .gating [],
      change := fun store => change (store.record op.id),
      gates := [op.id], executed := [op.id] }
  let put := fun session => { agent with
    sessions := agent.sessions ++ [session] }
  have found : ∀ session, (put session).sessions[number]? = some session := by simp [put, number]
  have moves : ∀ pre after : Session Rows Value,
      { put pre with sessions := (put pre).sessions.set number after } =
        put after := by
    simp [put, number]
  have comes : step postgres agent (.arrive [op]) = some (put first) := by
    simp [step, Session.start, ok, put, first]
  have isFree : (put first).isFree number op.id = true := by
    simp only [Agent.isFree, all_eq_true, Bool.or_eq_true, beq_iff_eq, decide_eq_true_eq]
    rintro ⟨session, i⟩ mem
    have entry := mem_zipIdx_iff_getElem?.mp mem
    simp only [put] at entry
    rw [getElem?_append] at entry
    split at entry
    · exact .inr (free session (mem_of_getElem? entry))
    · rename_i last
      obtain ⟨lt, -⟩ := List.getElem?_eq_some_iff.mp entry
      simp only [length_singleton] at lt
      exact .inl (by omega)
  have gates : step postgres (put first) (.advance number) = some (put second) := by
    rw [← moves first second]
    refine step_of_advance postgres (found first) nofun ?_
    simp [Session.advance, first, second, quiet, isFree, put]
  have runs : step postgres (put second) (.advance number) = some (put third) := by
    rw [← moves second third]
    refine step_of_advance postgres (found second) nofun ?_
    simp [Session.advance, second, third, does, put]
  have ends : step postgres (put third) (.advance number) =
      some ((put third).commit number third) := by
    simp [step, found third, third]
  refine ⟨(put third).commit number third, ?_, rfl, executions_append agent.commits _⟩
  simp [replay, comes, gates, runs, ends, number]

/--
In a run whose statements leave the keys alone, the operations of committed
batches are executed once over all committed transactions.  An id in no
committed batch has not been executed and is not recorded, and it is executed
when it is sent again.  The database is what the committed transactions made
of it, and those are the committed batches.
-/
theorem untouched_keys_apply_once
    (rows : Rows) (events : List (Event Value)) (agent : Agent Rows Value)
    (run : GuardedRun (step postgres) (Untouched postgres) (.start rows) events agent) :
    (∀ session ∈ agent.sessions, session.stage = .committed →
      ∀ op ∈ session.ops, (executions agent.commits).count op.id = 1) ∧
    (∀ op : Op Value, (∀ session ∈ agent.sessions, session.stage = .committed →
        ∀ other ∈ session.ops, other.id ≠ op.id) →
      op.id ∉ executions agent.commits ∧ op.id ∉ agent.store.recorded ∧
      (bodyAccepted [op] = true → (∀ session ∈ agent.sessions, op.id ∉ session.held) → ∀ change,
          execute postgres op (agent.store.record op.id) = .ok change →
        ∃ final, replay (step postgres) agent [.arrive [op], .advance agent.sessions.length,
              .advance agent.sessions.length,
              .advance agent.sessions.length] = some final ∧
          final.store = change (agent.store.record op.id) ∧
          executions final.commits = executions agent.commits ++ [op.id])) ∧
    agent.store = agent.commits.foldl (fun store commit => commit.change store) ⟨[], rows⟩ ∧
    (∀ commit ∈ agent.commits, ∃ session, agent.sessions[commit.number]? = some session ∧
        session.stage = .committed ∧ session.ops = commit.ops) := by
  have sound : Sound rows agent := run.invariant (fun _ _ _ sound eq taken =>
      step_sound postgres sound eq taken) (start_sound rows)
  refine ⟨?_, ?_, sound.effects, sound.listed⟩
  · intro session mem done op isOp
    obtain ⟨number, found⟩ := mem_iff_getElem?.mp mem
    obtain ⟨commit, isCommit, isOps⟩ := sound.answered found done
    exact count_eq_one_of_mem sound.once (sound.covered commit isCommit op (isOps ▸ isOp))
  · intro op isAbsent
    have unexecuted : op.id ∉ executions agent.commits := by
      intro ran
      obtain ⟨commit, isCommit, isId⟩ := mem_flatMap.mp ran
      obtain ⟨other, oth, same⟩ := sound.own commit isCommit op.id isId
      obtain ⟨session, found, done, isOps⟩ := sound.listed commit isCommit
      exact isAbsent session (mem_of_getElem? found) done other (isOps ▸ oth) same
    have quiet : op.id ∉ agent.store.recorded := fun noted =>
      unexecuted ((sound.recorded op.id).mp noted)
    exact ⟨unexecuted, quiet, fun ok free change runs =>
      retry_executes postgres ok quiet free runs⟩

end

/-- A Postgres that logs the texts it is sent. -/
def logging : Statement Unit → Store (List String) →
    Except String (Store (List String) → Store (List String))
  | .verbatim (some sql), _ =>
    .ok fun store => { store with rows := store.rows ++ [sql] }
  | _, _ => .error "syntax error"

/-- An operation that carries its text. -/
def raw (id sql : String) : Op Unit where
  id := id
  table := ""
  kind := .raw
  rowId := ""
  sql := some sql
  row := []
  reservedConflict := none
  reservedPredicate := none
  conflictColumns := []

/--
A batch that names an operation twice, its retry while it runs, and a batch
that is aborted between its two operations.
-/
def retriedBatches : List (Event Unit) :=
  [.arrive [raw "one" "UPDATE notes SET n = n + 1",
      raw "one" "UPDATE notes SET n = n + 1"],
    .arrive [raw "one" "UPDATE notes SET n = n + 1"],
    .arrive [raw "two" "DELETE FROM notes", raw "three" "DELETE FROM tags"],
    .advance 0, .advance 2, .advance 2, .advance 0, .advance 0, .abort 2,
    .advance 0, .advance 1, .advance 1]

theorem logging_untouched (agent : Agent (List String) Unit)
    (event : Event Unit) : Untouched logging agent event := by
  cases event with
  | arrive ops | abort number => trivial
  | advance number =>
    intro session op todo _ _ edit runs store
    simp only [execute, bind, Except.bind] at runs
    split at runs
    · cases runs
    · simp only [logging] at runs
      split at runs
      · cases runs
        rfl
      · cases runs

/-- The batches as they stand: committed or not, and the ids they name. -/
def standing (agent : Agent (List String) Unit) : List (Bool × List String) :=
  agent.sessions.map fun session =>
    (session.isCommitted, session.ops.map Op.id)

/-- The duplicate is executed once, and the aborted batch has no effect. -/
theorem duplicate_applies_once :
    ∃ agent, replay (step logging) (.start []) retriedBatches = some agent ∧
      (executions agent.commits).count "one" = 1 ∧
      "two" ∉ agent.store.recorded := by
  have stands : (replay (step logging) (.start []) retriedBatches).map
      standing = some [(true, ["one", "one"]), (true, ["one"]),
        (false, ["two", "three"])] := by
    decide +kernel
  obtain ⟨agent, ran, stands⟩ := Option.map_eq_some_iff.mp stands
  have run : GuardedRun (step logging) (Untouched logging) (.start [])
      retriedBatches agent := .of_replay logging_untouched ran
  obtain ⟨done, gone, -, -⟩ := untouched_keys_apply_once logging [] retriedBatches agent run
  refine ⟨agent, ran, ?_, ?_⟩
  · have retried : (true, ["one"]) ∈ standing agent := by
      rw [stands]
      decide
    obtain ⟨session, mem, isRetried⟩ := mem_map.mp retried
    obtain ⟨ended, isIds⟩ := Prod.mk.inj isRetried
    obtain ⟨op, isOp, isOne⟩ := mem_map.mp
      (isIds ▸ mem_singleton_self "one")
    exact isOne ▸ done session mem (session.isCommitted_iff.mp ended) op isOp
  · refine (gone (raw "two" "DELETE FROM notes") ?_).2.1
    intro session mem ended other oth isTwo
    have listed : (session.isCommitted, session.ops.map Op.id) ∈
        standing agent := mem_map_of_mem mem
    have named : "two" ∈ session.ops.map Op.id := mem_map.mpr ⟨other, oth, isTwo⟩
    rw [stands, session.isCommitted_iff.mpr ended] at listed
    generalize session.ops.map Op.id = ids at listed named
    simp only [mem_cons, Prod.mk.injEq, true_and, not_mem_nil,
      or_false, Bool.true_eq_false, false_and] at listed
    rcases listed with rfl | rfl
    · exact absurd named (by decide)
    · exact absurd named (by decide)

/-- A Postgres in which the agent's statements may empty the keys. -/
def purging : Statement Unit → Store Unit → Except String (Store Unit → Store Unit)
  | .verbatim (some "DELETE FROM _mesh_pg_meta"), _ =>
    .ok fun store => { store with recorded := [] }
  | _, _ => .ok fun store => store

/-- A statement that empties the table of keys is executed by its retry. -/
theorem purged_keys_apply_twice : (replay (step purging) (.start ())
      [.arrive [raw "one" "DELETE FROM _mesh_pg_meta"],
        .advance 0, .advance 0, .advance 0,
        .arrive [raw "one" "DELETE FROM _mesh_pg_meta"],
        .advance 1, .advance 1, .advance 1]).map
      (fun agent => agent.commits.map fun commit =>
        (commit.ops.map Op.id, commit.executed)) =
      some [(["one"], ["one"]), (["one"], ["one"])] := by
  decide +kernel

end StorageOrchestrator.Mesh.Apply
