import StorageOrchestrator.Lib.Placement
import StorageOrchestrator.Lib.Transition
import StorageOrchestrator.Mesh.Agent

/-!
# The write path of the mesh

A point write runs under the gateway's write lock: an INSERT executes on the
central Postgres and its resolved row is captured, an UPDATE or DELETE does
not execute there; then an owner is chosen, the operation is put into the
write buffer and the row's placement is recorded.  The dispatcher takes the
oldest operations in batches and applies each of them on the owner of its row.

One step is one access to the central store, to the roster or to a provider.
The roster changes and the dispatcher moves between any two steps of a
statement.

Beside what the code stores, the state keeps the ids issued so far, the
content that serial execution of the accepted statements gives (`serial`), and
the effects that operations had on providers.
-/

namespace StorageOrchestrator.Mesh.Gateway

open Lib.Placement Lib.Transition Mesh.Value Mesh.Table Mesh.Agent

/-- What a run of the mesh takes as given. -/
structure Setting extends Host where
  schema : String → Option TableDef
  batchSize : Nat

/--
A mesh with one table and no triggers, where a text parameter equals its own
text and rows are stored as they are sent.
-/
def notesSetting : Setting where
  schema := fun name => if name = "notes" then some notesTable else none
  denotes := fun parameter value => value.captureText == some parameter
  receive := fun _ row => row
  trigger := fun _ _ written => written
  batchSize := 100

inductive PlacementState where
  | pending
  | active
deriving DecidableEq, Repr

inductive GatewayError where
  | unknownTable (name : String)
  | central (message : String)
  | unsupportedSql (message : String)
  | noProviders
deriving DecidableEq, Repr

/-- `select_owner`: a recorded owner that is on the roster, else by hash. -/
def selectOwner (rowId : String) (roster existing : List String) : Option String :=
  match existing.find? fun npub => npub ∈ roster with
  | some owner => some owner
  | none => pickName rowId roster

/-- A roster that is not empty gives every row an owner. -/
theorem selectOwner_ne_none (crew : roster ≠ []) (rowId : String) (old : List String) :
    selectOwner rowId roster old ≠ none := by
  simp only [selectOwner]
  split
  · exact nofun
  · exact pickName_ne_none crew rowId

theorem mem_of_selectOwner (sel : selectOwner rowId roster existing = some owner) :
    owner ∈ roster := by
  rw [selectOwner] at sel
  split at sel
  · rename_i found
    cases sel
    simpa using List.find?_some found
  · exact mem_of_pickName sel

theorem selectOwner_singleton (here : owner ∈ roster) :
    selectOwner rowId roster [owner] = some owner := by
  simp [selectOwner, here]

/--
A roster has an owner for every row exactly when it is not empty.  The owner is
the first recorded one on the roster if there is one, does not depend on the
order of the roster, and once recorded stays while it is on the roster.
-/
theorem owner_is_stable (rowId : String) (roster existing : List String) :
    ((∃ owner ∈ roster, selectOwner rowId roster existing = some owner) ↔ roster ≠ []) ∧
      (∀ before owner rest, existing = before ++ owner :: rest → (∀ npub ∈ before, npub ∉ roster) →
        owner ∈ roster → selectOwner rowId roster existing = some owner) ∧
      (∀ reordered, roster.Perm reordered →
        selectOwner rowId reordered existing = selectOwner rowId roster existing) ∧
      ∀ owner, (∀ npub ∈ existing, npub ∉ roster) → selectOwner rowId roster existing = some owner →
          ∀ later, owner ∈ later → selectOwner rowId later [owner] = some owner := by
  refine ⟨⟨?_, fun crew => ?_⟩, ?_, fun reordered perm => ?_, ?_⟩
  · rintro ⟨owner, mem, -⟩
    exact List.ne_nil_of_mem mem
  · obtain ⟨owner, sel⟩ := Option.ne_none_iff_exists'.mp (selectOwner_ne_none crew rowId existing)
    exact ⟨owner, mem_of_selectOwner sel, sel⟩
  · rintro before owner rest rfl gone here
    have skip : before.find? (fun npub => npub ∈ roster) = none := by simpa using gone
    simp [selectOwner, skip, here]
  · simp only [selectOwner, ← perm.mem_iff, pickName_perm perm]
  · intro owner _ _ later here
    exact selectOwner_singleton here

/-- A statement whose row id and payload are known. -/
structure Write where
  table : String
  rowId : String
  statement : Statement
  payload : Payload

/-- Where the statement under the write lock stands. -/
inductive Writer where
  | idle
  | captured (write : Write)
  | routing (write : Write) (roster : List String)
  | routed (write : Write) (owner : String)
  | enqueued (write : Write) (owner : String)

/-- Where the dispatcher's tick stands. -/
inductive Tick where
  | idle
  | started (roster : List String)
  | ready (roster : List String) (rest : List WriteOp)
  | targeted (roster : List String) (op : WriteOp) (owner : String)
      (rest : List WriteOp)
  | acked (roster : List String) (op : WriteOp) (owner : String)
      (rest : List WriteOp)
  | placed (roster : List String) (op : WriteOp) (rest : List WriteOp)

/--
An operation that took effect on a provider, with the operations accepted
earlier on the same row that were still in the buffer then.
-/
structure Effect where
  op : WriteOp
  provider : String
  overtaken : List WriteOp

/-- The mesh. -/
structure MeshState where
  central : String → Content
  buffer : List WriteOp
  placement : String → String → Option (List String × PlacementState)
  roster : List String
  providers : String → Provider
  writer : Writer
  tick : Tick
  issued : List String
  serial : String → Content
  effects : List Effect

/-- A mesh before its first statement. -/
def MeshState.empty (roster : List String) : MeshState where
  central := fun _ => []
  buffer := []
  placement := fun _ _ => none
  roster := roster
  providers := fun _ => { tables := fun _ => [], applied := [] }
  writer := .idle
  tick := .idle
  issued := []
  serial := fun _ => []
  effects := []

/-- The replicas that the placement index records for a row. -/
def MeshState.recorded (mesh : MeshState) (table rowId : String) : List String :=
  match mesh.placement table rowId with
  | some (replicas, _) => replicas
  | none => []

def MeshState.upsertPlacement (mesh : MeshState) (table rowId : String)
    (replicas : List String) (state : PlacementState) : MeshState :=
  { mesh with
    placement := fun name id =>
      if name = table ∧ id = rowId then some (replicas, state)
      else mesh.placement name id }

def MeshState.deleteWriteOps (mesh : MeshState) (ids : List String) : MeshState :=
  { mesh with buffer := mesh.buffer.filter fun op => op.id ∉ ids }

/-- Serial execution of an accepted statement. -/
def Setting.execSerial (setting : Setting) (serial : String → Content)
    (name : String) (statement : Statement) : String → Content :=
  match setting.schema name with
  | none => serial
  | some table =>
    Function.update serial name (statement.exec table (serial name))

/-! ## Statements -/

/-- The conflict target that goes with a row image. -/
def conflictTarget (pk : String) (onConflict : Option OnConflict) : List String :=
  match onConflict with
  | some clause => if clause.columns.isEmpty then [pk] else clause.columns
  | none => [pk]

/-- What becomes of a statement before its owner is chosen. -/
inductive Verdict where
  | refused (error : GatewayError)
  | nothing
  | unkeyed (central : Content) (error : GatewayError)
  | going (central : Content) (write : Write)

def captured (table : TableDef) (name : String) (statement : Statement)
    (onConflict : Option OnConflict) (central : Content) (image : Row) :
    Verdict :=
  match table.rowId image with
  | none =>
    .unkeyed central (.unsupportedSql
      ("table has no primary-key column; expected \"" ++ table.pk ++ "\""))
  | some rowId =>
    .going central
      { table := name
        rowId := rowId
        statement := statement
        payload := .image image (conflictTarget table.pk onConflict)
          (onConflict.bind OnConflict.predicate) }

/-- `execute_sql_bound` on a point write, up to the choice of an owner. -/
def executeSqlBound (setting : Setting) (mesh : MeshState) (name : String)
    (statement : Statement) : Verdict :=
  match setting.schema name with
  | none => .refused (.unknownTable name)
  | some table =>
    match statement with
    | .insert row onConflict =>
      match insertRow table (mesh.central name) row onConflict with
      | .rejected message =>
        .refused (.central ("central execute: " ++ message))
      | .skipped => .nothing
      | .added =>
        captured table name statement onConflict (mesh.central name ++ [row]) row
      | .merged content image =>
        captured table name statement onConflict content image
    | .update rowId change =>
      .going (mesh.central name)
        { table := name
          rowId := rowId
          statement := statement
          payload := .update change [table.pk] }
    | .delete rowId removal =>
      .going (mesh.central name)
        { table := name
          rowId := rowId
          statement := statement
          payload := .delete removal [table.pk] }

/-- Every way in which a statement passes the central Postgres. -/
inductive Admitted (setting : Setting) (mesh : MeshState) (name : String) :
    Statement → Verdict → Prop where
  | refused (statement : Statement) (error : GatewayError) :
      Admitted setting mesh name statement (.refused error)
  | nothing {table : TableDef} {row : Row} {onConflict : Option OnConflict}
      (registered : setting.schema name = some table)
      (outcome : insertRow table (mesh.central name) row onConflict = .skipped) :
      Admitted setting mesh name (.insert row onConflict) .nothing
  | added {table : TableDef} {row : Row} {onConflict : Option OnConflict}
      {rowId : String}
      (registered : setting.schema name = some table)
      (outcome : insertRow table (mesh.central name) row onConflict = .added)
      (keyed : table.rowId row = some rowId) :
      Admitted setting mesh name (.insert row onConflict) (.going (mesh.central name ++ [row])
          { table := name
            rowId := rowId
            statement := .insert row onConflict
            payload := .image row (conflictTarget table.pk onConflict)
              (onConflict.bind OnConflict.predicate) })
  | merged {table : TableDef} {row image : Row}
      {onConflict : Option OnConflict} {content : Content} {rowId : String}
      (registered : setting.schema name = some table)
      (outcome : insertRow table (mesh.central name) row onConflict = .merged content image)
      (keyed : table.rowId image = some rowId) :
      Admitted setting mesh name (.insert row onConflict) (.going content
          { table := name
            rowId := rowId
            statement := .insert row onConflict
            payload := .image image (conflictTarget table.pk onConflict)
              (onConflict.bind OnConflict.predicate) })
  | update {table : TableDef} {rowId : String} {change : PointUpdate}
      (registered : setting.schema name = some table) :
      Admitted setting mesh name (.update rowId change) (.going (mesh.central name)
          { table := name
            rowId := rowId
            statement := .update rowId change
            payload := .update change [table.pk] })
  | delete {table : TableDef} {rowId : String} {removal : PointDelete}
      (registered : setting.schema name = some table) :
      Admitted setting mesh name (.delete rowId removal) (.going (mesh.central name)
          { table := name
            rowId := rowId
            statement := .delete rowId removal
            payload := .delete removal [table.pk] })

theorem admitted_executeSqlBound (setting : Setting) (mesh : MeshState)
    (name : String) (stmt : Statement) :
    Admitted setting mesh name stmt (executeSqlBound setting mesh name stmt) := by
  simp only [executeSqlBound]
  split
  · exact .refused _ _
  · rename_i table known
    split
    · rename_i row clash
      split
      · exact .refused _ _
      · rename_i out
        exact .nothing known out
      · rename_i out
        rcases exists_rowId_of_added out with ⟨rowId, keyed⟩
        simp only [captured, keyed]
        exact .added known out keyed
      · rename_i out
        rcases exists_rowId_of_merged out with ⟨rowId, keyed⟩
        simp only [captured, keyed]
        exact .merged known out keyed
    · exact .update known
    · exact .delete known

variable {setting : Setting} {mesh : MeshState}

/-- A captured row always has a key. -/
theorem executeSqlBound_ne_unkeyed (hub : Content) (error : GatewayError) :
    executeSqlBound setting mesh name stmt ≠ .unkeyed hub error := by
  intro res
  have ok := admitted_executeSqlBound setting mesh name stmt
  rw [res] at ok
  cases ok

/-- The gateway takes the statement and answers with success. -/
def Accepts (setting : Setting) (mesh : MeshState) (name : String) (statement : Statement) : Prop :=
  match executeSqlBound setting mesh name statement with
  | .nothing => True
  | .going _ write =>
    selectOwner write.rowId mesh.roster (mesh.recorded write.table write.rowId) ≠ none
  | _ => False

/-- A statement takes the write lock. -/
def acceptStep (setting : Setting) (mesh : MeshState) (name : String)
    (statement : Statement) : Option MeshState :=
  match mesh.writer with
  | .idle =>
    match executeSqlBound setting mesh name statement with
    | .refused _ => some mesh
    | .nothing =>
      some { mesh with
        serial := setting.execSerial mesh.serial name statement }
    | .unkeyed central _ =>
      some { mesh with
        central := Function.update mesh.central name central }
    | .going central write =>
      some { mesh with
        central := Function.update mesh.central name central
        writer := .captured write }
  | _ => none

/-- The buffered operation of a statement. -/
def MeshState.opOf (mesh : MeshState) (write : Write) (opId : String) (createdAt : Nat) : WriteOp :=
  { id := opId
    table := write.table
    rowId := write.rowId
    payload := write.payload
    createdAt := createdAt
    seq := mesh.issued.length }

/-- `enqueue_write_op`, after which the statement counts as accepted. -/
def MeshState.enqueue (setting : Setting) (mesh : MeshState) (write : Write)
    (owner opId : String) (createdAt : Nat) : MeshState :=
  { mesh with
    buffer := mesh.buffer ++ [mesh.opOf write opId createdAt]
    issued := mesh.issued ++ [opId]
    serial := setting.execSerial mesh.serial write.table write.statement
    writer := .enqueued write owner }

/-- The statement under the write lock moves on. -/
def writeStep (setting : Setting) (mesh : MeshState) (opId : String)
    (createdAt : Nat) : Option MeshState :=
  match mesh.writer with
  | .idle => none
  | .captured write =>
    some { mesh with writer := .routing write mesh.roster }
  | .routing write roster =>
    match selectOwner write.rowId roster (mesh.recorded write.table write.rowId) with
    | some owner => some { mesh with writer := .routed write owner }
    | none => some { mesh with writer := .idle }
  | .routed write owner =>
    if opId ∈ mesh.issued then none
    else some (mesh.enqueue setting write owner opId createdAt)
  | .enqueued write owner =>
    some { mesh.upsertPlacement write.table write.rowId [owner] .pending with
      writer := .idle }

/-! ## The dispatcher -/

def takeWriteOps (buffer : List WriteOp) (limit : Nat) : List WriteOp :=
  (buffer.insertionSort fun left right =>
    left.notAfter right).take limit

/-- The tick takes its batch; operations on unknown tables are dropped. -/
def loadBatch (setting : Setting) (mesh : MeshState) (roster : List String) : MeshState :=
  let batch := takeWriteOps mesh.buffer setting.batchSize
  let orphaned := batch.filter fun op => (setting.schema op.table).isNone
  let known := batch.filter fun op => (setting.schema op.table).isSome
  { mesh.deleteWriteOps (orphaned.map WriteOp.id) with
    tick := .ready roster known }

/-- The answer of the owner to an operation; `none` is an error. -/
def applyOn (setting : Setting) (mesh : MeshState) (op : WriteOp)
    (owner : String) : Option Provider :=
  match setting.schema op.table with
  | none => none
  | some table => (mesh.providers owner).apply setting.toHost table op

/-- The earlier operations on the row of `op` that are still buffered. -/
def MeshState.overtakenBy (mesh : MeshState) (op : WriteOp) : List WriteOp :=
  mesh.buffer.filter fun earlier => earlier.sameRow op ∧ earlier.seq < op.seq

/-- The mesh after a provider executed an operation. -/
def MeshState.executed (mesh : MeshState) (op : WriteOp) (owner : String)
    (provider : Provider) : MeshState :=
  { mesh with
    providers := Function.update mesh.providers owner provider
    effects :=
      if op.id ∈ (mesh.providers owner).applied then mesh.effects
      else mesh.effects ++
        [{ op := op
           provider := owner
           overtaken := mesh.overtakenBy op }] }

def tickStep (setting : Setting) (mesh : MeshState) (delivery : Delivery) : Option MeshState :=
  match mesh.tick with
  | .idle =>
    if mesh.roster.isEmpty then some mesh
    else some { mesh with tick := .started mesh.roster }
  | .started roster => some (loadBatch setting mesh roster)
  | .ready _ [] => some { mesh with tick := .idle }
  | .ready roster (op :: rest) =>
    match selectOwner op.rowId roster (mesh.recorded op.table op.rowId) with
    | some owner =>
      some { mesh with tick := .targeted roster op owner rest }
    | none => some { mesh with tick := .ready roster rest }
  | .targeted roster op owner rest =>
    match delivery, applyOn setting mesh op owner with
    | .answered, some provider =>
      some { mesh.executed op owner provider with
        tick := .acked roster op owner rest }
    | .responseLost, some provider =>
      some { mesh.executed op owner provider with
        tick := .ready roster rest }
    | _, _ => some { mesh with tick := .ready roster rest }
  | .acked roster op owner rest =>
    some { mesh.upsertPlacement op.table op.rowId [owner] .active with
      tick := .placed roster op rest }
  | .placed roster op rest =>
    some { mesh.deleteWriteOps [op.id] with tick := .ready roster rest }

/-! ## The mesh as a system -/

inductive Event where
  | accept (table : String) (statement : Statement)
  | write (opId : String) (createdAt : Nat)
  | refresh (roster : List String)
  | tick (delivery : Delivery)

def step (setting : Setting) (mesh : MeshState) : Event → Option MeshState
  | .accept table statement => acceptStep setting mesh table statement
  | .write opId createdAt => writeStep setting mesh opId createdAt
  | .refresh roster => some { mesh with roster := roster }
  | .tick delivery => tickStep setting mesh delivery

/-- A statement on the notes that nothing disturbs. -/
def noteEvents (statement : Statement) (opId : String) (createdAt : Nat) : List Event :=
  [.accept "notes" statement, .write opId createdAt, .write opId createdAt,
    .write opId createdAt, .write opId createdAt]

/-- Every way in which a step moves the mesh. -/
inductive Moves (setting : Setting) (mesh : MeshState) : Event → MeshState → Prop where
  | refused {name : String} {statement : Statement} {error : GatewayError}
      (lock : mesh.writer = .idle)
      (verdict : executeSqlBound setting mesh name statement = .refused error) :
      Moves setting mesh (.accept name statement) mesh
  | nothing {name : String} {statement : Statement}
      (lock : mesh.writer = .idle)
      (verdict : executeSqlBound setting mesh name statement = .nothing) :
      Moves setting mesh (.accept name statement)
        { mesh with serial := setting.execSerial mesh.serial name statement }
  | unkeyed {name : String} {statement : Statement} {central : Content}
      {error : GatewayError}
      (lock : mesh.writer = .idle)
      (verdict : executeSqlBound setting mesh name statement = .unkeyed central error) :
      Moves setting mesh (.accept name statement)
        { mesh with central := Function.update mesh.central name central }
  | going {name : String} {statement : Statement} {central : Content}
      {write : Write}
      (lock : mesh.writer = .idle)
      (verdict : executeSqlBound setting mesh name statement = .going central write) :
      Moves setting mesh (.accept name statement)
        { mesh with
          central := Function.update mesh.central name central
          writer := .captured write }
  | routing {opId : String} {createdAt : Nat} {write : Write}
      (lock : mesh.writer = .captured write) :
      Moves setting mesh (.write opId createdAt) { mesh with writer := .routing write mesh.roster }
  | routed {opId : String} {createdAt : Nat} {write : Write}
      {roster : List String} {owner : String}
      (lock : mesh.writer = .routing write roster)
      (selected : selectOwner write.rowId roster
        (mesh.recorded write.table write.rowId) = some owner) :
      Moves setting mesh (.write opId createdAt) { mesh with writer := .routed write owner }
  | abandoned {opId : String} {createdAt : Nat} {write : Write}
      {roster : List String}
      (lock : mesh.writer = .routing write roster)
      (selected : selectOwner write.rowId roster (mesh.recorded write.table write.rowId) = none) :
      Moves setting mesh (.write opId createdAt) { mesh with writer := .idle }
  | enqueued {opId : String} {createdAt : Nat} {write : Write}
      {owner : String}
      (lock : mesh.writer = .routed write owner)
      (fresh : opId ∉ mesh.issued) :
      Moves setting mesh (.write opId createdAt) (mesh.enqueue setting write owner opId createdAt)
  | recorded {opId : String} {createdAt : Nat} {write : Write}
      {owner : String}
      (lock : mesh.writer = .enqueued write owner) :
      Moves setting mesh (.write opId createdAt)
        { mesh.upsertPlacement write.table write.rowId [owner] .pending with
          writer := .idle }
  | refreshed {roster : List String} :
      Moves setting mesh (.refresh roster) { mesh with roster := roster }
  | resting {delivery : Delivery}
      (phase : mesh.tick = .idle) :
      Moves setting mesh (.tick delivery) mesh
  | started {delivery : Delivery}
      (phase : mesh.tick = .idle)
      (manned : mesh.roster ≠ []) :
      Moves setting mesh (.tick delivery) { mesh with tick := .started mesh.roster }
  | loaded {delivery : Delivery} {roster : List String}
      (phase : mesh.tick = .started roster) :
      Moves setting mesh (.tick delivery) (loadBatch setting mesh roster)
  | finished {delivery : Delivery} {roster : List String}
      (phase : mesh.tick = .ready roster []) :
      Moves setting mesh (.tick delivery) { mesh with tick := .idle }
  | targeted {delivery : Delivery} {roster : List String} {op : WriteOp}
      {rest : List WriteOp} {owner : String}
      (phase : mesh.tick = .ready roster (op :: rest))
      (selected : selectOwner op.rowId roster (mesh.recorded op.table op.rowId) = some owner) :
      Moves setting mesh (.tick delivery) { mesh with tick := .targeted roster op owner rest }
  | unrouted {delivery : Delivery} {roster : List String} {op : WriteOp}
      {rest : List WriteOp}
      (phase : mesh.tick = .ready roster (op :: rest))
      (selected : selectOwner op.rowId roster (mesh.recorded op.table op.rowId) = none) :
      Moves setting mesh (.tick delivery) { mesh with tick := .ready roster rest }
  | acknowledged {roster : List String} {op : WriteOp} {owner : String}
      {rest : List WriteOp} {provider : Provider}
      (phase : mesh.tick = .targeted roster op owner rest)
      (applied : applyOn setting mesh op owner = some provider) :
      Moves setting mesh (.tick .answered)
        { mesh.executed op owner provider with
          tick := .acked roster op owner rest }
  | unheard {roster : List String} {op : WriteOp} {owner : String}
      {rest : List WriteOp} {provider : Provider}
      (phase : mesh.tick = .targeted roster op owner rest)
      (applied : applyOn setting mesh op owner = some provider) :
      Moves setting mesh (.tick .responseLost)
        { mesh.executed op owner provider with
          tick := .ready roster rest }
  | failed {delivery : Delivery} {roster : List String} {op : WriteOp}
      {owner : String} {rest : List WriteOp}
      (phase : mesh.tick = .targeted roster op owner rest)
      (failure : delivery = .notExecuted ∨ applyOn setting mesh op owner = none) :
      Moves setting mesh (.tick delivery) { mesh with tick := .ready roster rest }
  | placed {delivery : Delivery} {roster : List String} {op : WriteOp}
      {owner : String} {rest : List WriteOp}
      (phase : mesh.tick = .acked roster op owner rest) :
      Moves setting mesh (.tick delivery)
        { mesh.upsertPlacement op.table op.rowId [owner] .active with
          tick := .placed roster op rest }
  | flushed {delivery : Delivery} {roster : List String} {op : WriteOp}
      {rest : List WriteOp}
      (phase : mesh.tick = .placed roster op rest) :
      Moves setting mesh (.tick delivery)
        { mesh.deleteWriteOps [op.id] with tick := .ready roster rest }

private theorem moves_of_acceptStep (ran : acceptStep setting mesh name statement = some next) :
    Moves setting mesh (.accept name statement) next := by
  simp only [acceptStep] at ran
  split at ran
  · rename_i lock
    split at ran
    · rename_i res
      cases ran
      exact .refused lock res
    · rename_i res
      cases ran
      exact .nothing lock res
    · rename_i res
      cases ran
      exact .unkeyed lock res
    · rename_i res
      cases ran
      exact .going lock res
  · cases ran

private theorem moves_of_writeStep (ran : writeStep setting mesh opId createdAt = some next) :
    Moves setting mesh (.write opId createdAt) next := by
  cases lock : mesh.writer with
  | idle => simp [writeStep, lock] at ran
  | captured write =>
    simp only [writeStep, lock] at ran
    cases ran
    exact .routing lock
  | routing write roster =>
    simp only [writeStep, lock] at ran
    split at ran
    · rename_i sel
      cases ran
      exact .routed lock sel
    · rename_i sel
      cases ran
      exact .abandoned lock sel
  | routed write own =>
    simp only [writeStep, lock] at ran
    split at ran
    · cases ran
    · rename_i new
      cases ran
      exact .enqueued lock new
  | enqueued write own =>
    simp only [writeStep, lock] at ran
    cases ran
    exact .recorded lock

private theorem moves_of_tickStep (ran : tickStep setting mesh sent = some next) :
    Moves setting mesh (.tick sent) next := by
  cases phase : mesh.tick with
  | idle =>
    simp only [tickStep, phase] at ran
    split at ran
    · cases ran
      exact .resting phase
    · rename_i crew
      cases ran
      exact .started phase (by simpa using crew)
  | started roster =>
    simp only [tickStep, phase] at ran
    cases ran
    exact .loaded phase
  | ready roster rest =>
    cases rest with
    | nil =>
      simp only [tickStep, phase] at ran
      cases ran
      exact .finished phase
    | cons op rest =>
      simp only [tickStep, phase] at ran
      split at ran
      · rename_i sel
        cases ran
        exact .targeted phase sel
      · rename_i sel
        cases ran
        exact .unrouted phase sel
  | targeted roster op own rest =>
    cases done : applyOn setting mesh op own with
    | none =>
      simp only [tickStep, phase, done] at ran
      cases ran
      exact .failed phase (.inr done)
    | some host =>
      simp only [tickStep, phase, done] at ran
      cases sent with
      | answered =>
        cases ran
        exact .acknowledged phase done
      | responseLost =>
        cases ran
        exact .unheard phase done
      | notExecuted =>
        cases ran
        exact .failed phase (.inl rfl)
  | acked roster op own rest =>
    simp only [tickStep, phase] at ran
    cases ran
    exact .placed phase
  | placed roster op rest =>
    simp only [tickStep, phase] at ran
    cases ran
    exact .flushed phase

theorem moves_of_step (ran : step setting mesh ev = some next) : Moves setting mesh ev next := by
  cases ev with
  | accept name stmt => exact moves_of_acceptStep ran
  | write opId born => exact moves_of_writeStep ran
  | refresh roster =>
    cases ran
    exact .refreshed
  | tick sent => exact moves_of_tickStep ran

end StorageOrchestrator.Mesh.Gateway
