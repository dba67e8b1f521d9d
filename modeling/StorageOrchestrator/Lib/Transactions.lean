import StorageOrchestrator.Lib.Transition

/-!
# Transactions over locked rows

A database has rows, queries that read them and commands that lock rows and
change them.  A transaction is a program of queries and commands; each of them
sees the rows committed so far with the transaction's own changes on top, and
the rows that were locked stay locked until the transaction ends.  A process
runs transactions one after the other, with queries between them, and replies
at the end.  A machine runs any number of processes and interleaves them
statement by statement.

`Program.Safe` and `Process.Safe` are preconditions under interference: before
every statement the other transactions may have committed anything that keeps
the invariant and the rows this one has locked.  `Discipline.inv_of_run` says
that processes that are safe one by one keep the invariant in every run.

A command reads no row that it does not lock.  So the commands of a transaction
that commits could have run one after the other at that moment; only the
replies to its queries may be older.  `Program.safe_of_runs` turns this into a
rule: to show a program safe it is enough to look at such serial runs.
-/

namespace StorageOrchestrator.Lib.Transactions

open Lib.Transition List

/-! ## Databases and programs -/

/-- Rows, with the queries that read them and the commands that change them. -/
structure Database where
  State : Type
  Key : Type
  keyEq : DecidableEq Key
  Row : Type
  row : State → Key → Row
  Query : Type
  Reply : Query → Type
  answer : (query : Query) → State → Reply query
  Command : Type
  Answer : Command → Type
  Failure : Type
  /-- The failure of a transaction that is ended from outside. -/
  interrupted : Failure
  /-- The rows a command locks, from what its transaction sees. -/
  locks : Command → State → List Key
  /-- The answer of a command and the change it makes. -/
  exec : (command : Command) → State → Except Failure (Answer command × (State → State))
  /-- Rows that are not locked stay as they are. -/
  frame : ∀ {command view answer change}, exec command view = .ok (answer, change) →
      ∀ key ∉ locks command view, ∀ state, row (change state) key = row state key
  /-- A changed row depends on the row before alone. -/
  rowwise : ∀ {command view answer change}, exec command view = .ok (answer, change) →
      ∀ key state state', row state key = row state' key →
        row (change state) key = row (change state') key
  /-- A command reads the rows it locks alone. -/
  settled : ∀ {command view answer change},
    exec command view = .ok (answer, change) → locks command view ≠ [] →
      ∀ view', (∀ key ∈ locks command view, row view' key = row view key) →
        exec command view' = .ok (answer, change)
  /-- A command that locks nothing changes nothing. -/
  idle : ∀ {command view answer change},
    exec command view = .ok (answer, change) → locks command view = [] →
      ∀ state, change state = state

instance (D : Database) : DecidableEq D.Key := D.keyEq

/-- What a transaction does, statement by statement. -/
inductive Program (D : Database) (Result : Type) where
  | done (result : Result)
  | fail (failure : D.Failure)
  | ask (query : D.Query) (next : D.Reply query → Program D Result)
  | call (command : D.Command) (next : D.Answer command → Program D Result)

namespace Program

variable {D : Database} {First Second : Type}

def bind (next : First → Program D Second) : Program D First → Program D Second
  | .done result => next result
  | .fail failure => .fail failure
  | .ask query rest => .ask query fun reply => (rest reply).bind next
  | .call command rest => .call command fun answer => (rest answer).bind next

instance : Monad (Program D) where
  pure := .done
  bind program next := program.bind next

/-- The program run on its own: its result and the state it leaves. -/
def alone : Program D First → D.State → Except D.Failure (First × D.State)
  | .done result, state => .ok (result, state)
  | .fail failure, _ => .error failure
  | .ask query next, state => (next (D.answer query state)).alone state
  | .call command next, state =>
    match D.exec command state with
    | .error failure => .error failure
    | .ok (answer, change) => (next answer).alone (change state)

theorem alone_call (cmd : D.Command) {s : D.State} {ans : D.Answer cmd} {edit : D.State → D.State}
    (success : D.exec cmd s = .ok (ans, edit)) (next : D.Answer cmd → Program D First) :
    (Program.call cmd next).alone s = (next ans).alone (edit s) := by
  rw [alone, success]

theorem alone_fail (cmd : D.Command) {s : D.State}
    {failure : D.Failure} (fail : D.exec cmd s = .error failure)
    (next : D.Answer cmd → Program D First) :
    (Program.call cmd next).alone s = .error failure := by
  rw [alone, fail]

end Program

/-- What a request does: transactions, queries between them, a reply. -/
inductive Process (D : Database) (Response : Type) : Type 1 where
  | reply (response : Response)
  | ask (query : D.Query) (next : D.Reply query → Process D Response)
  | transaction {Result : Type} (body : Program D Result)
      (next : Except D.Failure Result → Process D Response)

/-- The process run on its own: its reply and the state it leaves. -/
def Process.alone {D : Database} {Response : Type} :
    Process D Response → D.State → Response × D.State
  | .reply response, state => (response, state)
  | .ask query next, state => (next (D.answer query state)).alone state
  | .transaction body next, state =>
    match body.alone state with
    | .error failure => (next (.error failure)).alone state
    | .ok (result, after) => (next (.ok result)).alone after

/-! ## The machine -/

/-- A statement that was executed, with what came back. -/
inductive Event (D : Database) where
  | asked (query : D.Query) (reply : D.Reply query)
  | did (command : D.Command) (answer : D.Answer command)

/--
The program runs on its own, with these statements and this result.  Queries
may have any reply, and a command that locked no row may have been executed in
another state.
-/
def Program.Runs {D : Database} {Result : Type} :
    Program D Result → D.State → List (Event D) → Result → D.State → Prop
  | .done result, state, history, final, after =>
    history = [] ∧ final = result ∧ after = state
  | .fail _, _, _, _, _ => False
  | .ask query next, state, history, final, after =>
    ∃ reply rest, history = .asked query reply :: rest ∧ (next reply).Runs state rest final after
  | .call command next, state, history, final, after =>
    ∃ answer rest, history = .did command answer :: rest ∧
      ((∃ change, D.exec command state = .ok (answer, change) ∧
          (next answer).Runs (change state) rest final after) ∨
        ∃ view change, D.exec command view = .ok (answer, change) ∧ D.locks command view = [] ∧
            (next answer).Runs state rest final after)

/-- The failures that can end a program. -/
def Program.MayFail {D : Database} {Result : Type} : Program D Result → D.Failure → Prop
  | .done _, _ => False
  | .fail failure, given => given = failure
  | .ask _ next, given => ∃ reply, (next reply).MayFail given
  | .call command next, given =>
    (∃ view, D.exec command view = .error given) ∨ ∃ answer, (next answer).MayFail given

theorem Program.MayFail.of_bind {D : Database} {First Second : Type}
    {program : Program D First} {next : First → Program D Second}
    {failure : D.Failure} (may : (program >>= next).MayFail failure) :
    program.MayFail failure ∨ ∃ res, (next res).MayFail failure := by
  induction program with
  | done res => exact .inr ⟨res, may⟩
  | fail given => exact .inl may
  | ask q rest ih =>
    rcases may with ⟨reply, may⟩
    rcases ih reply may with early | late
    · exact .inl ⟨reply, early⟩
    · exact .inr late
  | call cmd rest ih =>
    rcases may with err | ⟨ans, may⟩
    · exact .inl (.inl err)
    · rcases ih ans may with early | late
      · exact .inl (.inr ⟨ans, early⟩)
      · exact .inr late

/-- Where a transaction is. -/
structure Point (D : Database) where
  history : List (Event D)
  /-- Its changes, which nobody else sees yet. -/
  pending : D.State → D.State
  held : List D.Key

namespace Point

variable {D : Database}

def start : Point D :=
  { history := []
    pending := fun state => state
    held := [] }

def asked (point : Point D) (query : D.Query) (reply : D.Reply query) : Point D :=
  { point with history := point.history ++ [.asked query reply] }

def did (point : Point D) (command : D.Command) (view : D.State)
    (answer : D.Answer command) (change : D.State → D.State) : Point D :=
  { history := point.history ++ [.did command answer]
    pending := fun state => change (point.pending state)
    held := point.held ++ D.locks command view }

end Point

/-- What everybody sees: the committed rows, and who committed and replied. -/
structure World (D : Database) (Request Response : Type) where
  db : D.State
  commits : List (Request × List (Event D))
  replies : List (Request × Response)

section

variable {D : Database} {Request Response : Type}

def World.start (db : D.State) : World D Request Response :=
  { db := db
    commits := []
    replies := [] }

def World.commit (world : World D Request Response) (request : Request)
    (point : Point D) : World D Request Response :=
  { world with
    db := point.pending world.db
    commits := world.commits ++ [(request, point.history)] }

def World.reply (world : World D Request Response) (request : Request)
    (response : Response) : World D Request Response :=
  { world with replies := world.replies ++ [(request, response)] }

inductive Stage (D : Database) (Response : Type) : Type 1 where
  | outside (process : Process D Response)
  | inside {Result : Type} (program : Program D Result)
      (next : Except D.Failure Result → Process D Response) (point : Point D)
  | answered

/-- The rows that a request has locked. -/
def Stage.held : Stage D Response → List D.Key
  | .inside _ _ point => point.held
  | _ => []

/--
The next statement of a request.  It waits while a row it has to lock is not
free.
-/
def Stage.advance (request : Request) (isFree : List D.Key → Bool)
    (world : World D Request Response) :
    Stage D Response → Option (World D Request Response × Stage D Response)
  | .outside (.reply response) => some (world.reply request response, .answered)
  | .outside (.ask query next) =>
    some (world, .outside (next (D.answer query world.db)))
  | .outside (.transaction body next) => some (world, .inside body next .start)
  | .inside (.done result) next point =>
    some (world.commit request point, .outside (next (.ok result)))
  | .inside (.fail failure) next _ =>
    some (world, .outside (next (.error failure)))
  | .inside (.ask query rest) next point =>
    let reply := D.answer query (point.pending world.db)
    some (world, .inside (rest reply) next (point.asked query reply))
  | .inside (.call command rest) next point =>
    let view := point.pending world.db
    if isFree (D.locks command view) then
      match D.exec command view with
      | .error failure => some (world, .outside (next (.error failure)))
      | .ok (answer, change) =>
        some (world, .inside (rest answer) next (point.did command view answer change))
    else none
  | .answered => none

/-- A transaction is ended from outside: a deadlock, a timeout. -/
def Stage.interrupt : Stage D Response → Option (Stage D Response)
  | .inside _ next _ => some (.outside (next (.error D.interrupted)))
  | _ => none

structure Client (D : Database) (Request Response : Type) : Type 1 where
  request : Request
  stage : Stage D Response

structure Machine (D : Database) (Request Response : Type) : Type 1 where
  world : World D Request Response
  clients : List (Client D Request Response)

def Machine.start (db : D.State) : Machine D Request Response :=
  { world := .start db
    clients := [] }

/-- No other client holds one of the rows. -/
def Machine.isFree (machine : Machine D Request Response) (number : Nat)
    (keys : List D.Key) : Bool :=
  machine.clients.zipIdx.all fun entry =>
    entry.2 == number || keys.all fun key => key ∉ entry.1.stage.held

inductive Move (Request : Type) where
  | arrive (request : Request)
  | advance (number : Nat)
  | interrupt (number : Nat)

def step (handler : Request → Process D Response) (machine : Machine D Request Response) :
    Move Request → Option (Machine D Request Response)
  | .arrive request =>
    some { machine with
      clients := machine.clients ++ [{ request := request, stage := .outside (handler request) }] }
  | .advance number => do
      let client ← machine.clients[number]?
      let (world, stage) ← client.stage.advance client.request (machine.isFree number) machine.world
      return {
        world := world
        clients := machine.clients.set number { client with stage := stage } }
  | .interrupt number => do
      let client ← machine.clients[number]?
      let stage ← client.stage.interrupt
      return { machine with
        clients := machine.clients.set number { client with stage := stage } }

/-! ## Runs under conditions -/

/-- What a request is about to do. -/
inductive Act (D : Database) where
  | ask (query : D.Query)
  | call (command : D.Command)
  | commit

/-- Conditions on the requests of a run and on its steps. -/
structure Terms (D : Database) (Request Response : Type) where
  arrives : Request → Bool
  admits : Request → Act D → Point D → World D Request Response → Bool

def Stage.admitted (terms : Terms D Request Response) (request : Request)
    (world : World D Request Response) : Stage D Response → Bool
  | .outside (.ask query _) => terms.admits request (.ask query) .start world
  | .inside (.ask query _) _ point =>
    terms.admits request (.ask query) point world
  | .inside (.call command _) _ point =>
    terms.admits request (.call command) point world
  | .inside (.done _) _ point => terms.admits request .commit point world
  | _ => true

def Terms.guard (terms : Terms D Request Response)
    (machine : Machine D Request Response) : Move Request → Bool
  | .arrive request => terms.arrives request
  | .advance number =>
    match machine.clients[number]? with
    | some client => client.stage.admitted terms client.request machine.world
    | none => true
  | .interrupt _ => true

/-- The runs whose requests and steps all meet the conditions. -/
abbrev Terms.Run (terms : Terms D Request Response) (handler : Request → Process D Response) :=
  GuardedRun (step handler) fun machine move => terms.guard machine move = true

/-- An invariant, and what others keep while some rows are held. -/
structure Discipline (D : Database) (Request Response : Type) extends Terms D Request Response where
  Inv : World D Request Response → Prop
  Rely : List D.Key → World D Request Response → World D Request Response → Prop
  rely_refl : ∀ held world, Rely held world world
  rely_trans : ∀ {held first second third},
    Rely held first second → Rely held second third → Rely held first third
  rely_mono : ∀ {held more first second},
    held ⊆ more → Rely more first second → Rely held first second

end

section

variable {D : Database} {Request Response : Type} (S : Discipline D Request Response)

/-- What may happen between two statements of a transaction. -/
structure Discipline.Interferes (held : List D.Key)
    (world later : World D Request Response) : Prop where
  inv : S.Inv later
  rows : ∀ key ∈ held, D.row later.db key = D.row world.db key
  rely : S.Rely held world later

/-- What one transaction may do to the others. -/
structure Discipline.Accepts (held : List D.Key)
    (world later : World D Request Response) : Prop where
  inv : S.Inv later
  rely : ∀ other, other.Disjoint held → S.Rely other world later

/-- The changes of a transaction are to the rows it holds, row by row. -/
structure Point.Lawful (point : Point D) : Prop where
  frame : ∀ key ∉ point.held, ∀ state, D.row (point.pending state) key = D.row state key
  rowwise : ∀ key state state', D.row state key = D.row state' key →
    D.row (point.pending state) key = D.row (point.pending state') key

/-- The precondition of a program under interference. -/
def Program.Safe (request : Request) {Result : Type}
    (onDone : Result → World D Request Response → Prop)
    (onFail : D.Failure → World D Request Response → Prop) :
    Program D Result → Point D → World D Request Response → Prop
  | .done result, point, world =>
    ∀ later, S.Interferes point.held world later → point.Lawful →
      S.admits request .commit point later = true →
        S.Accepts point.held later (later.commit request point) ∧
          onDone result (later.commit request point)
  | .fail failure, point, world =>
    ∀ later, S.Interferes point.held world later → onFail failure later
  | .ask query next, point, world =>
    ∀ later, S.Interferes point.held world later → point.Lawful →
      S.admits request (.ask query) point later = true →
        let reply := D.answer query (point.pending later.db)
        (next reply).Safe request onDone onFail (point.asked query reply) later
  | .call command next, point, world =>
    ∀ later, S.Interferes point.held world later → point.Lawful →
      S.admits request (.call command) point later = true →
        let view := point.pending later.db
        (∀ failure, D.exec command view = .error failure → onFail failure later) ∧
          ∀ answer change, D.exec command view = .ok (answer, change) →
            (next answer).Safe request onDone onFail (point.did command view answer change) later

/-- The precondition of a process under interference. -/
def Process.Safe (request : Request) : Process D Response → World D Request Response → Prop
  | .reply response, world =>
    ∀ later, S.Interferes [] world later → S.Accepts [] later (later.reply request response)
  | .ask query next, world =>
    ∀ later, S.Interferes [] world later → S.admits request (.ask query) .start later = true →
        (next (D.answer query later.db)).Safe request later
  | .transaction body next, world =>
    body.Safe S request (fun result later => (next (.ok result)).Safe request later)
        (fun failure later => (next (.error failure)).Safe request later)
        .start world ∧
      ∀ later, S.Interferes [] world later → (next (.error D.interrupted)).Safe request later

/-- The precondition of a program and of what comes after it. -/
abbrev Program.SafeWith {Result : Type} (request : Request)
    (next : Except D.Failure Result → Process D Response)
    (program : Program D Result) (point : Point D) (world : World D Request Response) : Prop :=
  program.Safe S request (fun result later => (next (.ok result)).Safe S request later)
    (fun failure later => (next (.error failure)).Safe S request later)
    point world

def Stage.Safe (request : Request) : Stage D Response → World D Request Response → Prop
  | .outside process, world => process.Safe S request world
  | .inside program next point, world =>
    point.Lawful ∧ program.SafeWith S request next point world ∧
      ∀ later, S.Interferes [] world later → (next (.error D.interrupted)).Safe S request later
  | .answered, _ => True

/-- What holds in every state that a run reaches. -/
structure Discipline.Sound (machine : Machine D Request Response) : Prop where
  inv : S.Inv machine.world
  apart : AllApart (fun left right => left.stage.held.Disjoint right.stage.held) machine.clients
  safe : ∀ {i : Nat} {client}, machine.clients[i]? = some client →
    client.stage.Safe S client.request machine.world

/-! ## Interference -/

section

variable {S} {point : Point D}

theorem Discipline.Interferes.refl (inv : S.Inv first) : S.Interferes held first first :=
  { inv := inv
    rows := fun _ _ => rfl
    rely := S.rely_refl held first }

theorem Discipline.Interferes.trans (pre : S.Interferes held first second)
    (post : S.Interferes held second third) :
    S.Interferes held first third :=
  { inv := post.inv
    rows := fun key mem =>
      (post.rows key mem).trans (pre.rows key mem)
    rely := S.rely_trans pre.rely post.rely }

theorem Discipline.Interferes.mono (meets : S.Interferes more first second)
    (subset : held ⊆ more) : S.Interferes held first second :=
  { inv := meets.inv
    rows := fun key mem => meets.rows key (subset mem)
    rely := S.rely_mono subset meets.rely }

theorem Point.lawful_start : (Point.start : Point D).Lawful :=
  { frame := fun _ _ _ => rfl
    rowwise := fun _ _ _ eq => eq }

theorem Point.Lawful.asked (ok : point.Lawful) (q : D.Query) (ans : D.Reply q) :
    (point.asked q ans).Lawful :=
  { frame := ok.frame
    rowwise := ok.rowwise }

theorem Point.Lawful.did (ok : point.Lawful) {cmd : D.Command}
    {view : D.State} {ans : D.Answer cmd} {edit : D.State → D.State}
    (ran : D.exec cmd view = .ok (ans, edit)) :
    (point.did cmd view ans edit).Lawful := by
  constructor
  · intro key isFree s
    rw [Point.did, mem_append, not_or] at isFree
    exact (D.frame ran key isFree.2 _).trans (ok.frame key isFree.1 s)
  · intro key s state' eq
    exact D.rowwise ran key _ _ (ok.rowwise key s state' eq)

theorem Program.Safe.later {Result : Type} {program : Program D Result}
    {onDone : Result → World D Request Response → Prop}
    {onFail : D.Failure → World D Request Response → Prop}
    (safe : program.Safe S request onDone onFail point first)
    (meets : S.Interferes point.held first second) :
    program.Safe S request onDone onFail point second := by
  cases program with
  | done res | fail err | ask q next | call cmd next =>
    exact fun later post => safe later (meets.trans post)

theorem Process.Safe.later {proc : Process D Response} (safe : proc.Safe S request first)
    (meets : S.Interferes [] first second) :
    proc.Safe S request second := by
  cases proc with
  | reply res | ask q next =>
    exact fun later post => safe later (meets.trans post)
  | transaction body next =>
    exact ⟨safe.1.later meets, fun later post => safe.2 later (meets.trans post)⟩

theorem Stage.Safe.later {stage : Stage D Response} (safe : stage.Safe S request first)
    (meets : S.Interferes stage.held first second) :
    stage.Safe S request second := by
  cases stage with
  | outside proc => exact Process.Safe.later safe meets
  | inside program next point =>
    have outside := meets.mono (nil_subset point.held)
    exact ⟨safe.1, safe.2.1.later meets, fun later post => safe.2.2 later (outside.trans post)⟩
  | answered => trivial

end

/-! ## Serial runs -/

section

variable {S} {Result : Type}

/--
A program is safe when each of its serial runs, from the rows as they are when
it commits, may be committed.
-/
theorem Program.safe_of_runs {program : Program D Result} {point : Point D}
    (fails : ∀ err later, program.MayFail err → S.Inv later →
      onFail err later) (ends : ∀ res rest later (fin : Point D),
      S.Interferes point.held world later → fin.history = point.history ++ rest →
      program.Runs (point.pending later.db) rest res (fin.pending later.db) →
      S.admits request .commit fin later = true →
      S.Accepts fin.held later (later.commit request fin) ∧
      onDone res (later.commit request fin)) :
    program.Safe S request onDone onFail point world := by
  induction program generalizing point world with
  | done res =>
    intro later meets lawful ok
    exact ends res [] later point meets (append_nil _).symm ⟨rfl, rfl, rfl⟩ ok
  | fail err =>
    intro later meets
    exact fails err later rfl meets.inv
  | ask q next ih =>
    intro later meets lawful ok
    apply ih
    · intro err last may
      exact fails err last ⟨_, may⟩
    intro res rest last fin post past runs ok
    refine ends res (_ :: rest) last fin (meets.trans post) ?_ ⟨_, rest, rfl, runs⟩ ok
    rw [past, Point.asked, append_assoc, singleton_append]
  | call cmd next ih =>
    intro later meets lawful ok
    refine ⟨fun err failed =>
      fails err later (.inl ⟨_, failed⟩) meets.inv, ?_⟩
    intro ans edit ran
    apply ih
    · intro err last may
      exact fails err last (.inr ⟨ans, may⟩)
    intro res rest last fin post past runs ok
    refine ends res (_ :: rest) last fin (meets.trans (post.mono (subset_append_left _ _))) ?_
      ⟨ans, rest, rfl, ?_⟩ ok
    · rw [past, Point.did, append_assoc, singleton_append]
    · by_cases idle : D.locks cmd (point.pending later.db) = []
      · have still : ∀ state, edit state = state := D.idle ran idle
        simp only [Point.did, still] at runs
        exact .inr ⟨_, edit, ran, idle, runs⟩
      · have again := D.settled ran idle (point.pending last.db)
          fun key mem => lawful.rowwise key _ _ (post.rows key (mem_append_right _ mem))
        exact .inl ⟨edit, again, runs⟩

end

/-! ## Steps -/

section

variable {S} {request : Request} {stage stage' : Stage D Response}
  {world world' : World D Request Response} {isFree : List D.Key → Bool}
  {machine : Machine D Request Response}

/-- What one step of a request does to its stage and to the world. -/
structure Stage.Moved (S : Discipline D Request Response) (request : Request)
    (isFree : List D.Key → Bool) (world world' : World D Request Response)
    (stage stage' : Stage D Response) : Prop where
  safe : stage'.Safe S request world'
  accepts : S.Accepts stage.held world world'
  frame : ∀ key ∉ stage.held, D.row world'.db key = D.row world.db key
  locked : ∀ key ∈ stage'.held, key ∈ stage.held ∨ ∃ keys, isFree keys = true ∧ key ∈ keys

theorem Discipline.Accepts.refl (inv : S.Inv world) (held : List D.Key) :
    S.Accepts held world world :=
  { inv := inv
    rely := fun other _ => S.rely_refl other world }

/-- A step that leaves the world as it is. -/
theorem Stage.Moved.still (inv : S.Inv world)
    (safe : stage'.Safe S request world) (locked : ∀ key ∈ stage'.held,
      key ∈ stage.held ∨ ∃ keys, isFree keys = true ∧ key ∈ keys) :
    Stage.Moved S request isFree world world stage stage' :=
  { safe := safe
    accepts := .refl inv stage.held
    frame := fun _ _ => rfl
    locked := locked }

theorem Stage.moved_of_outside {proc : Process D Response}
    (safe : proc.Safe S request world) (inv : S.Inv world)
    (ok : (Stage.outside proc).admitted S.toTerms request world = true)
    (ran : (Stage.outside proc).advance request isFree world = some (world', stage')) :
    Stage.Moved S request isFree world world' (.outside proc) stage' := by
  cases proc with
  | reply res =>
    cases ran
    exact
      { safe := trivial
        accepts := safe world (.refl inv)
        frame := fun _ _ => rfl
        locked := fun _ mem => False.elim (not_mem_nil mem) }
  | ask q next =>
    cases ran
    exact .still inv (safe world (.refl inv) ok) fun _ mem => False.elim (not_mem_nil mem)
  | transaction body next =>
    cases ran
    exact .still inv ⟨Point.lawful_start, safe.1, safe.2⟩ fun _ mem => False.elim (not_mem_nil mem)

theorem Stage.moved_of_inside {Result : Type} {program : Program D Result}
    {next : Except D.Failure Result → Process D Response} {point : Point D}
    (safe : (Stage.inside program next point).Safe S request world) (inv : S.Inv world)
    (fits : (Stage.inside program next point).admitted S.toTerms request world = true)
    (taken : (Stage.inside program next point).advance request isFree world =
      some (world', stage')) :
    Stage.Moved S request isFree world world' (.inside program next point)
      stage' := by
  rcases safe with ⟨lawful, safe, cut⟩
  cases program with
  | done res =>
    cases taken
    rcases safe world (.refl inv) lawful fits with ⟨accepts, post⟩
    exact
      { safe := post
        accepts := accepts
        frame := fun key isFree => lawful.frame key isFree world.db
        locked := fun _ mem => False.elim (not_mem_nil mem) }
  | fail err =>
    cases taken
    exact .still inv (safe world (.refl inv)) fun _ mem => False.elim (not_mem_nil mem)
  | ask q rest =>
    cases taken
    exact .still inv ⟨lawful.asked q _, safe world (.refl inv) lawful fits, cut⟩
      fun _ mem => .inl mem
  | call cmd rest =>
    rcases safe world (.refl inv) lawful fits with ⟨failed, ran⟩
    simp only [Stage.advance] at taken
    split at taken
    · rename_i free
      cases out : D.exec cmd (point.pending world.db) with
      | error err =>
        rw [out] at taken
        cases taken
        exact .still inv (failed err out) fun _ mem => False.elim (not_mem_nil mem)
      | ok success =>
        rcases success with ⟨ans, edit⟩
        rw [out] at taken
        cases taken
        refine .still inv ⟨lawful.did out, ran ans edit out, cut⟩ ?_
        intro key mem
        rcases mem_append.mp mem with pre | locked
        · exact .inl pre
        · exact .inr ⟨_, free, locked⟩
    · cases taken

theorem Stage.moved_of_advance (safe : stage.Safe S request world) (inv : S.Inv world)
    (ok : stage.admitted S.toTerms request world = true)
    (ran : stage.advance request isFree world = some (world', stage')) :
    Stage.Moved S request isFree world world' stage stage' := by
  cases stage with
  | outside proc => exact Stage.moved_of_outside safe inv ok ran
  | inside program next point =>
    exact Stage.moved_of_inside safe inv ok ran
  | answered => cases ran

theorem Machine.disjoint_of_isFree {keys : List D.Key} (free : machine.isFree number keys = true)
    (found : machine.clients[i]? = some client) (ne : i ≠ number) :
    ∀ key ∈ keys, key ∉ client.stage.held := by
  rw [Machine.isFree, all_eq_true] at free
  have entry := free (client, i) (mem_zipIdx_iff_getElem?.mpr found)
  simpa [ne] using entry

/-- Others stay safe when a client moves. -/
theorem Discipline.Sound.set (ok : S.Sound machine) (found : machine.clients[n]? = some client)
    (moved : Stage.Moved S client.request (machine.isFree n) machine.world
      world' client.stage stage') :
    S.Sound
      { world := world'
        clients := machine.clients.set n { client with stage := stage' } } := by
  have disj : ∀ {i : Nat} {other : Client D Request Response},
      machine.clients[i]? = some other → i ≠ n → stage'.held.Disjoint other.stage.held := by
    intro i other oth ne key mem isHeld
    rcases moved.locked key mem with pre | ⟨keys, free, isKey⟩
    · exact ok.apart found oth (fun eq => ne eq.symm) pre isHeld
    · exact Machine.disjoint_of_isFree free oth ne key isKey isHeld
  constructor
  · exact moved.accepts.inv
  · exact ok.apart.set fun oth ne => ⟨disj oth ne, disjoint_symm (disj oth ne)⟩
  · intro i other oth
    rcases getElem?_set_cases oth with ⟨rfl, rfl⟩ | ⟨ne, oth⟩
    · exact moved.safe
    · have apart := ok.apart oth found ne
      exact (ok.safe oth).later
        { inv := moved.accepts.inv
          rows := fun key mem => moved.frame key (apart mem)
          rely := moved.accepts.rely _ apart }

theorem Discipline.Sound.step {next : Machine D Request Response}
    (handlers : ∀ request world, S.arrives request = true → S.Inv world →
      (handler request).Safe S request world) (sound : S.Sound machine)
    (ok : S.toTerms.guard machine move = true)
    (ran : step handler machine move = some next) : S.Sound next := by
  cases move with
  | arrive request =>
    cases ran
    constructor
    · exact sound.inv
    · exact sound.apart.arrive fun _ => ⟨disjoint_nil_left _, disjoint_nil_right _⟩
    · intro i client found
      rcases getElem?_arrived_cases found with ⟨-, rfl⟩ | found
      · exact handlers request machine.world ok sound.inv
      · exact sound.safe found
  | advance n =>
    simp only [Transactions.step, Option.bind_eq_bind, Option.bind_eq_some_iff] at ran
    rcases ran with ⟨client, found, ⟨world', stage'⟩, adv, nxt⟩
    cases nxt
    simp only [Terms.guard, found] at ok
    exact sound.set found (Stage.moved_of_advance (sound.safe found) sound.inv ok adv)
  | interrupt n =>
    simp only [Transactions.step, Option.bind_eq_bind, Option.bind_eq_some_iff] at ran
    rcases ran with ⟨client, found, stage', cut, nxt⟩
    cases nxt
    apply sound.set found
    have safe := sound.safe found
    cases isStage : client.stage with
    | outside proc | answered =>
      rw [isStage] at cut
      cases cut
    | inside program next point =>
      rw [isStage] at cut safe
      cases cut
      exact .still sound.inv (safe.2.2 _ (.refl sound.inv))
        fun _ mem => False.elim (not_mem_nil mem)

/-- Requests that are safe one by one keep the invariant in every run. -/
theorem Discipline.inv_of_run (handlers : ∀ request world, S.arrives request = true → S.Inv world →
      (handler request).Safe S request world) (init : S.Inv (.start db))
    (run : S.toTerms.Run handler (.start db) moves final) :
    S.Inv final.world := by
  have sound : S.Sound (.start db : Machine D Request Response) :=
    { inv := init
      apart := nofun
      safe := fun found => by cases found }
  exact (run.invariant (fun _ _ _ sound ok ran => sound.step handlers ok ran) sound).inv

end

end

/-! ## Invariants of the rows -/

section

variable {D : Database} {Request Response : Type}

/-- To keep an invariant of what is committed, with nothing else asked. -/
def Terms.keeping (terms : Terms D Request Response)
    (Inv : D.State → List (Request × List (Event D)) → Prop) :
    Discipline D Request Response where
  toTerms := terms
  Inv world := Inv world.db world.commits
  Rely _ _ _ := True
  rely_refl _ _ := trivial
  rely_trans _ _ := trivial
  rely_mono _ _ := trivial

/-- A process without transactions. -/
def Process.Quiet : Process D Response → Prop
  | .reply _ => True
  | .ask _ next => ∀ reply, (next reply).Quiet
  | .transaction _ _ => False

variable {terms : Terms D Request Response} {Inv : D.State → List (Request × List (Event D)) → Prop}

theorem Process.safe_of_quiet {proc : Process D Response} (quiet : proc.Quiet) :
    proc.Safe (terms.keeping Inv) request world := by
  induction proc generalizing world with
  | reply res =>
    intro later meets
    exact
      { inv := meets.inv
        rely := fun _ _ => trivial }
  | ask q next ih =>
    intro later meets ok
    exact ih _ (quiet _)
  | transaction body next => exact False.elim quiet

variable {Result : Type} {program : Program D Result}

/-- The rest of a transaction keeps the invariant when its serial runs do. -/
theorem Program.safe_of_keeps {next : Except D.Failure Result → Process D Response}
    {point : Point D} (quiet : ∀ outcome, (next outcome).Quiet)
    (ends : ∀ res rest later (last : Point D),
      Inv later.db later.commits → last.history = point.history ++ rest →
      program.Runs (point.pending later.db) rest res (last.pending later.db) →
      terms.admits request .commit last later = true → Inv (last.pending later.db)
      (later.commits ++ [(request, last.history)])) :
    program.SafeWith (terms.keeping Inv) request next point world := by
  apply Program.safe_of_runs
  · intro fail later _ inv
    exact Process.safe_of_quiet (quiet _)
  · intro res rest later last meets past runs ok
    refine ⟨⟨?_, fun _ _ => trivial⟩, Process.safe_of_quiet (quiet _)⟩
    exact ends res rest later last meets.inv past runs ok

/-- A query in a transaction, by its reply. -/
theorem Program.safe_of_asks {next : Except D.Failure Result → Process D Response} {q : D.Query}
    {rest : D.Reply q → Program D Result} {point : Point D}
    (safe : ∀ later : World D Request Response, Inv later.db later.commits →
      (rest (D.answer q (point.pending later.db))).SafeWith (terms.keeping Inv) request next
      (point.asked q (D.answer q (point.pending later.db))) later) :
    (Program.ask q rest).SafeWith (terms.keeping Inv) request next point
      world := by
  intro later meets lawful ok
  exact safe later meets.inv

section

variable {next : Except D.Failure Result → Process D Response}
  (quiet : ∀ outcome, (next outcome).Quiet)
include quiet

theorem Process.safe_transaction
    (safe : program.SafeWith (terms.keeping Inv) request next .start world) :
    (Process.transaction program next).Safe (terms.keeping Inv) request
      world :=
  ⟨safe, fun _ _ => Process.safe_of_quiet (quiet _)⟩

/-- A transaction keeps the invariant when its serial runs do. -/
theorem Process.safe_of_keeps (ends : ∀ res later (last : Point D), Inv later.db later.commits →
      program.Runs later.db last.history res (last.pending later.db) →
      terms.admits request .commit last later = true → Inv (last.pending later.db)
      (later.commits ++ [(request, last.history)])) :
    (Process.transaction program next).Safe (terms.keeping Inv) request
      world := by
  refine Process.safe_transaction quiet (Program.safe_of_keeps quiet ?_)
  intro res rest later last inv past runs ok
  rw [Point.start, nil_append] at past
  rw [← past] at runs
  exact ends res later last inv runs ok

end

end

end StorageOrchestrator.Lib.Transactions
