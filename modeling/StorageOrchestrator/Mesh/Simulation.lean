import StorageOrchestrator.Mesh.Locality
import StorageOrchestrator.Mesh.Routing

/-!
# The mesh as a delayed serial execution

With a fixed roster and no provider failures, a table of the mesh lags behind
serial execution by the operations in the write buffer: the providers together
hold a content from which the buffered operations, in order, lead to the
serial content, and each provider holds the share of it that its row ids pick
(`Synced`).

This needs statements whose replay does what they do (`Faithful`): an INSERT
that central and serial execution treat alike, that merges nothing and whose
row arrives as it is, an UPDATE that keeps to its row and that serial execution
accepts, a DELETE that the agent's `id = rowId` stands for; a table whose name
the agents accept and which no trigger writes (`Plain`); and a buffer that
orders the operations of the table as they were accepted.
-/

namespace StorageOrchestrator.Mesh.Simulation

open Lib.Placement Mesh.Table Mesh.Agent Mesh.Gateway Mesh.Buffer Mesh.Locality Mesh.Routing
open List hiding next tail

variable {name owner opId : String} {op : WriteOp} {rest : List WriteOp} {write : Write}
  {createdAt : Nat} {provider : Provider} {snapshot roster : List String} {setting : Setting}
  {table : TableDef} {mesh : MeshState} {content : Content}

/-! ## Statements that the mesh can replay -/

def ofTable (name : String) (ops : List WriteOp) : List WriteOp :=
  ops.filter fun op => op.table = name

/-- The replay of the statement does what serial execution does. -/
def FaithfulStatement (setting : Setting) (table : TableDef)
    (mesh : MeshState) (name : String) : Statement → Prop
  | .insert row onConflict =>
    match insertRow table (mesh.central name) row onConflict with
    | .added =>
      insertRow table (mesh.serial name) row onConflict = .added ∧ setting.receive name row = row
    | .skipped =>
      insertRow table (mesh.serial name) row onConflict = .skipped
    | .merged _ _ => False
    | .rejected _ => True
  | .update rowId change =>
    updateRows table (mesh.serial name) change ≠ none ∧
      ∀ row ∈ mesh.serial name, change.selects row → table.rowId row = some rowId ∧
          table.rowId (change.assign row) = some rowId
  | .delete rowId removal =>
    "id" ∈ table.columns ∧
      ∀ row ∈ mesh.serial name,
        removal.selects row = setting.denotes rowId (cell row "id") ∧
          (removal.selects row → table.rowId row = some rowId)

/-- The agents accept the name of the table, and no trigger writes it. -/
structure Plain (setting : Setting) (name : String) : Prop where
  named : tableNameValid name = true
  untriggered : ∀ target before written, setting.trigger target before written name = written name

/-- A new operation on the table comes last in the buffer. -/
def Newest (name : String) (mesh : MeshState) : Event → Prop
  | .write opId createdAt =>
    ∀ write owner, mesh.writer = .routed write owner →
      write.table = name → ∀ op ∈ ofTable name mesh.buffer,
        ¬ (mesh.opOf write opId createdAt).notAfter op
  | _ => True

/-- Statements on the table are faithful, and the buffer is in order. -/
def Faithful (setting : Setting) (name : String) (table : TableDef)
    (mesh : MeshState) : Event → Prop
  | .accept target statement =>
    target = name → FaithfulStatement setting table mesh name statement
  | event => Newest name mesh event

/-! ## The relation to serial execution -/

/-- The operation that its owner has applied and the buffer still has. -/
def current : Tick → Option WriteOp
  | .acked _ op _ _ | .placed _ op _ => some op
  | _ => none

/-- The row ids that a provider of the roster is picked for. -/
def ownedBy (roster : List String) (provider : String) (id : Option String) : Bool :=
  decide (id.bind (fun rowId => pickName rowId roster) = some provider)

/-- What the providers together hold, against buffer and serial content. -/
inductive Stage (setting : Setting) (name : String) (table : TableDef)
    (mesh : MeshState) : Content → Prop where
  | even {content : Content}
      (elsewhere : ∀ op, current mesh.tick = some op → op.table ≠ name)
      (flushes : Flushes setting.denotes (setting.receive name) table content
        (ofTable name mesh.buffer) (mesh.serial name)) :
      Stage setting name table mesh content
  | ahead {before content : Content} {op : WriteOp} {rest : List WriteOp}
      (isCurrent : current mesh.tick = some op)
      (queue : ofTable name mesh.buffer = op :: rest)
      (confined : Confined setting.denotes (setting.receive name) table op.rowId op.payload before
        content)
      (flushes : Flushes setting.denotes (setting.receive name) table content rest
        (mesh.serial name)) :
      Stage setting name table mesh content

/-- The statement under the write lock can be replayed. -/
def Replayable (setting : Setting) (name : String) (table : TableDef)
    (serial : Content) (write : Write) : Prop :=
  write.table = name →
    Confined setting.denotes (setting.receive write.table) table write.rowId write.payload serial
      (write.statement.exec table serial)

def WriterSynced (setting : Setting) (name : String) (table : TableDef)
    (serial : Content) : Writer → Prop
  | .captured write | .routing write _ | .routed write _ =>
    Replayable setting name table serial write
  | _ => True

/--
The buffer holds the table's operations in the order of acceptance, the batch
is the first of them, and what a provider has applied has left the buffer or
is about to.
-/
structure Queued (name : String) (roster : List String) (mesh : MeshState) : Prop where
  wellFormed : WellFormed mesh
  routed : Routed roster mesh
  keyed : (ofTable name mesh.buffer).Pairwise fun earlier later =>
    ¬ later.notAfter earlier
  batch : ofTable name (pending mesh.tick) <+: ofTable name mesh.buffer
  applied : ∀ provider id, id ∈ (mesh.providers provider).applied → id ∈ mesh.issued ∧
      ∀ op ∈ mesh.buffer, op.id = id → current mesh.tick = some op

/-- The providers lag behind serial execution by the buffer. -/
structure Synced (setting : Setting) (name : String) (table : TableDef)
    (roster : List String) (mesh : MeshState) : Prop extends Queued name roster mesh where
  held : ∃ content, Stage setting name table mesh content ∧
    ∀ provider, (mesh.providers provider).tables name = part table (ownedBy roster provider) content
  lawful : table.Admits (mesh.serial name)
  writing : WriterSynced setting name table (mesh.serial name) mesh.writer

/-! ## Batches of one table -/

theorem ofTable_cons_self (here : op.table = name) (rest : List WriteOp) :
    ofTable name (op :: rest) = op :: ofTable name rest := by
  simp [ofTable, here]

theorem ofTable_cons_other (away : op.table ≠ name) (rest : List WriteOp) :
    ofTable name (op :: rest) = ofTable name rest := by
  simp [ofTable, away]

/-- Deleting operations of other tables keeps those of the table. -/
theorem ofTable_delete {ids : List String} (kept : ∀ op ∈ buffer, op.table = name → op.id ∉ ids) :
    ofTable name (buffer.filter fun op => op.id ∉ ids) = ofTable name buffer := by
  rw [ofTable, ofTable, filter_filter]
  apply filter_congr
  intro op mem
  by_cases here : op.table = name
  · simp [here, kept op mem here]
  · simp [here]

/-- Deleting the first operation of the table leaves the others. -/
theorem ofTable_delete_head (nodup : (buffer.map WriteOp.id).Nodup)
    (queue : ofTable name buffer = op :: tail) :
    ofTable name (buffer.filter fun other => other.id ∉ [op.id]) = tail := by
  have queueDistinct : ((op :: tail).map WriteOp.id).Nodup := by
    rw [← queue]
    exact nodup.sublist (filter_sublist.map WriteOp.id)
  have them : ∀ other ∈ tail, other.id ≠ op.id := by
    intro other mem eqId
    simp only [map_cons, nodup_cons] at queueDistinct
    exact queueDistinct.1 (eqId ▸ mem_map_of_mem mem)
  calc
    ofTable name (buffer.filter fun other => other.id ∉ [op.id]) =
        (ofTable name buffer).filter fun other => other.id ∉ [op.id] := by
      simp [ofTable, filter_filter, Bool.and_comm]
    _ = tail.filter fun other => other.id ∉ [op.id] := by
      rw [queue]
      simp
    _ = tail := by
      rw [filter_eq_self]
      intro other mem
      simpa using them other mem

/-- A batch holds the oldest operations of the table in order. -/
theorem ofTable_takeWriteOps (keyed : (ofTable name buffer).Pairwise fun early later =>
      ¬ later.notAfter early) (limit : Nat) :
    ofTable name (takeWriteOps buffer limit) <+: ofTable name buffer := by
  have inOrder : ofTable name (buffer.insertionSort fun left right =>
      left.notAfter right) = ofTable name buffer := by
    have ascending : (ofTable name buffer).Pairwise fun left right =>
        left.notAfter right := by
      apply keyed.imp
      intro early later strictly
      rcases notAfter_total early later with order | order
      · exact order
      · exact absurd order strictly
    apply List.Perm.eq_of_pairwise _ ((sorted_buffer buffer).sublist filter_sublist) ascending
    · exact (perm_insertionSort _ buffer).filter _
    · intro left right leftIn rightIn order reverse
      by_contra different
      have ne : (ofTable name buffer).Pairwise fun left right =>
          ¬ (left.notAfter right ∧ right.notAfter left) :=
        keyed.imp fun strictly both => strictly both.2
      have symmetric : Std.Symm fun left right : WriteOp =>
          ¬ (left.notAfter right ∧ right.notAfter left) :=
        ⟨fun _ _ notBoth both => notBoth both.symm⟩
      have sorted := (perm_insertionSort (fun left right : WriteOp =>
        left.notAfter right) buffer).filter fun op => op.table = name
      exact ne.forall (sorted.mem_iff.mp leftIn) rightIn different ⟨order, reverse⟩
  rw [← inOrder]
  exact ( take_prefix _ _).filter _

/-! ## The queue of one table -/

/-- The tick's operation on the table succeeds. -/
def Succeeds (setting : Setting) (name : String) (mesh : MeshState) : Prop :=
  ∀ snapshot op owner rest, mesh.tick = .targeted snapshot op owner rest →
    op.table = name → applyOn setting mesh op owner ≠ none

section

theorem ofTable_enqueue_self : ofTable write.table
      (mesh.enqueue setting write owner opId createdAt).buffer =
      ofTable write.table mesh.buffer ++ [mesh.opOf write opId createdAt] := by
  simp [ofTable, MeshState.enqueue, MeshState.opOf]

theorem ofTable_enqueue_other (away : write.table ≠ name) :
    ofTable name (mesh.enqueue setting write owner opId createdAt).buffer =
      ofTable name mesh.buffer := by
  simp [ofTable, MeshState.enqueue, MeshState.opOf, away]

/-- Dropping the operations of unknown tables keeps those of the table. -/
theorem ofTable_loadBatch (wf : WellFormed mesh)
    (registered : setting.schema name = some table) (snapshot : List String) :
    ofTable name (loadBatch setting mesh snapshot).buffer = ofTable name mesh.buffer := by
  apply ofTable_delete
  intro op mem here drop
  rcases mem_map.mp drop with ⟨orphan, orphaned, eqId⟩
  rcases mem_filter.mp orphaned with ⟨ran, new⟩
  have eq := eq_of_id_eq wf.distinct (takeWriteOps_subset _ _ ran) mem eqId
  rw [eq, here, registered] at new
  cases new

/-- Deleting an operation of another table keeps those of the table. -/
theorem ofTable_flush_other (wf : WellFormed mesh)
    (mem : op ∈ mesh.buffer) (away : op.table ≠ name) :
    ofTable name (mesh.deleteWriteOps [op.id]).buffer = ofTable name mesh.buffer := by
  apply ofTable_delete
  intro other oin here drop
  have eq := eq_of_id_eq wf.distinct oin mem (mem_singleton.mp drop)
  rw [eq] at here
  exact away here

theorem applied_of_applyOn (done : applyOn setting mesh op owner = some provider) :
    provider.applied ⊆ op.id :: (mesh.providers owner).applied := by
  simp only [applyOn] at done
  split at done
  · cases done
  · rcases Provider.apply_cases done with ⟨_, rfl⟩ | ⟨_, content, _, rfl⟩
    · exact subset_cons_self _ _
    · exact List.Subset.refl _

section

variable (queued : Queued name roster mesh)
include queued

theorem Queued.mem_buffer (wait : pending mesh.tick = op :: rest) : op ∈ mesh.buffer := by
  apply queued.wellFormed.inBuffer
  rw [wait]
  exact mem_cons_self

/-- The tick's operation on the table is the first in the queue. -/
theorem Queued.queue (wait : pending mesh.tick = op :: rest) (here : op.table = name) :
    ∃ tail, ofTable name mesh.buffer = op :: tail ∧ ofTable name rest <+: tail := by
  have batch := queued.batch
  rw [wait, ofTable_cons_self here] at batch
  rcases batch with ⟨more, queue⟩
  exact ⟨ofTable name rest ++ more, queue.symm, prefix_append _ _⟩

/-- An operation that is not yet current has not been applied. -/
theorem Queued.not_applied (npub : String)
    (mem : op ∈ mesh.buffer) (notCurrent : current mesh.tick ≠ some op) :
    op.id ∉ (mesh.providers npub).applied :=
  fun done =>
    notCurrent ((queued.applied npub op.id done).2 op mem rfl)

/-- A step that leaves buffer and providers alone. -/
theorem Queued.keep (wf : WellFormed next) (sent : Routed roster next)
    (buf : next.buffer = mesh.buffer) (issued : next.issued = mesh.issued)
    (hosts : next.providers = mesh.providers) (eqCur : current next.tick = current mesh.tick)
    (batch : ofTable name (pending next.tick) <+: ofTable name mesh.buffer) :
    Queued name roster next := by
  constructor
  · exact wf
  · exact sent
  · rw [buf]
    exact queued.keyed
  · rw [buf]
    exact batch
  · rw [hosts, issued, buf, eqCur]
    exact queued.applied

theorem Queued.enqueue (fresh : opId ∉ mesh.issued)
    (last : write.table = name → ∀ op ∈ ofTable name mesh.buffer,
      ¬ (mesh.opOf write opId createdAt).notAfter op)
    (sent : Routed roster (mesh.enqueue setting write owner opId createdAt)) :
    Queued name roster (mesh.enqueue setting write owner opId createdAt) := by
  constructor
  · exact queued.wellFormed.enqueue fresh
  · exact sent
  · by_cases here : write.table = name
    · subst here
      rw [ofTable_enqueue_self, pairwise_append]
      refine ⟨queued.keyed, pairwise_singleton _ _, ?_⟩
      intro early mem later isNew
      rw [mem_singleton.mp isNew]
      exact last rfl early mem
    · rw [ofTable_enqueue_other here]
      exact queued.keyed
  · by_cases here : write.table = name
    · subst here
      rw [ofTable_enqueue_self]
      exact queued.batch.trans (prefix_append _ _)
    · rw [ofTable_enqueue_other here]
      exact queued.batch
  · intro provider id mem
    rcases queued.applied provider id mem with ⟨known, wait⟩
    refine ⟨mem_append_left _ known, ?_⟩
    intro op inBuf eqId
    rcases mem_append.mp inBuf with old | new
    · exact wait op old eqId
    · cases mem_singleton.mp new
      have isFresh : opId = id := eqId
      rw [isFresh] at fresh
      exact absurd known fresh

theorem Queued.load (registered : setting.schema name = some table)
    (phase : mesh.tick = .started snapshot) (wf : WellFormed (loadBatch setting mesh snapshot))
    (sent : Routed roster (loadBatch setting mesh snapshot)) :
    Queued name roster (loadBatch setting mesh snapshot) := by
  have buffer := ofTable_loadBatch queued.wellFormed registered snapshot
  constructor
  · exact wf
  · exact sent
  · rw [buffer]
    exact queued.keyed
  · rw [buffer]
    have known : ofTable name (pending (loadBatch setting mesh snapshot).tick) =
          ofTable name (takeWriteOps mesh.buffer setting.batchSize) := by
      simp only [loadBatch, pending, ofTable, filter_filter]
      apply filter_congr
      intro op mem
      by_cases eqTable : op.table = name
      · simp [eqTable, registered]
      · simp [eqTable]
    rw [known]
    exact ofTable_takeWriteOps queued.keyed _
  · intro provider id mem
    rcases queued.applied provider id mem with ⟨isKnown, wait⟩
    refine ⟨isKnown, ?_⟩
    intro op inBuffer sameId
    have isCurrent := wait op (mem_filter.mp inBuffer).1 sameId
    rw [phase] at isCurrent
    cases isCurrent

theorem Queued.acknowledge (phase : mesh.tick = .targeted snapshot op owner rest)
    (done : applyOn setting mesh op owner = some provider)
    (nxt : next = { mesh.executed op owner provider with
      tick := .acked snapshot op owner rest }) (wf : WellFormed next)
    (sent : Routed roster next) :
    Queued name roster next := by
  have inBuf : op ∈ mesh.buffer := queued.mem_buffer (by rw [phase]; rfl)
  subst nxt
  constructor
  · exact wf
  · exact sent
  · exact queued.keyed
  · have batch := queued.batch
    rw [phase] at batch
    exact batch
  · intro holder id mem
    have old : id = op.id ∨ id ∈ (mesh.providers holder).applied := by
      by_cases owns : holder = owner
      · subst owns
        simp only [MeshState.executed, Function.update_self] at mem
        exact mem_cons.mp (applied_of_applyOn done mem)
      · simp only [MeshState.executed, Function.update_of_ne owns] at mem
        exact .inr mem
    rcases old with rfl | old
    · refine ⟨queued.wellFormed.known op inBuf, ?_⟩
      intro other oin eqId
      rw [eq_of_id_eq queued.wellFormed.distinct oin inBuf eqId]
      rfl
    · rcases queued.applied holder id old with ⟨known, wait⟩
      refine ⟨known, ?_⟩
      intro other oin eqId
      have cur := wait other oin eqId
      rw [phase] at cur
      cases cur

/-- The applied operation leaves the buffer. -/
theorem Queued.flush (phase : mesh.tick = .placed snapshot op rest)
    (nxt : next = { mesh.deleteWriteOps [op.id] with
      tick := .ready snapshot rest }) (wf : WellFormed next)
    (sent : Routed roster next) :
    Queued name roster next := by
  have wait : pending mesh.tick = op :: rest := by
    rw [phase]
    rfl
  subst nxt
  have done : ∀ provider id, id ∈ (mesh.providers provider).applied →
      id ∈ mesh.issued ∧ ∀ other ∈ (mesh.deleteWriteOps [op.id]).buffer,
        other.id = id → none = some other := by
    intro provider id mem
    rcases queued.applied provider id mem with ⟨known, current⟩
    refine ⟨known, ?_⟩
    intro other oin sameId
    rcases mem_filter.mp oin with ⟨old, ne⟩
    have isCurrent := current other old sameId
    rw [phase] at isCurrent
    cases isCurrent
    simp at ne
  have keyed := queued.keyed
  by_cases eqTable : op.table = name
  · rcases queued.queue wait eqTable with ⟨tail, queue, shorter⟩
    have buffer : ofTable name (mesh.deleteWriteOps [op.id]).buffer = tail :=
      ofTable_delete_head queued.wellFormed.distinct queue
    rw [queue] at keyed
    refine ⟨wf, sent, ?_, ?_, done⟩
    · rw [buffer]
      exact (pairwise_cons.mp keyed).2
    · rw [buffer]
      exact shorter
  · have buffer := ofTable_flush_other queued.wellFormed (queued.mem_buffer wait) eqTable
    have batch := queued.batch
    rw [wait, ofTable_cons_other eqTable] at batch
    refine ⟨wf, sent, ?_, ?_, done⟩
    · rw [buffer]
      exact keyed
    · rw [buffer]
      exact batch

/--
A calm step keeps the queue when a new operation comes last in it and the
tick's operation on the table succeeds.
-/
theorem Queued.step (registered : setting.schema name = some table) (calm : Calm mesh event)
    (last : Newest name mesh event) (wins : Succeeds setting name mesh)
    (ran : step setting mesh event = some next) :
    Queued name roster next := by
  have wf := queued.wellFormed.step ran
  have sent := queued.routed.step calm ran
  have batch := queued.batch
  cases moves_of_step ran with
  | refused lock res | resting phase => exact queued
  | enqueued lock new =>
    exact queued.enqueue new (last _ _ lock) sent
  | started phase crew | finished phase =>
    exact queued.keep wf sent rfl rfl rfl (by rw [phase]; rfl) nil_prefix
  | loaded phase => exact queued.load registered phase wf sent
  | targeted phase sel | placed phase =>
    rw [phase] at batch
    exact queued.keep wf sent rfl rfl rfl (by rw [phase]; rfl) batch
  | unrouted phase sel =>
    exact absurd sel (queued.wellFormed.ownerSelected phase _ _)
  | acknowledged phase done =>
    exact queued.acknowledge phase done rfl wf sent
  | unheard phase done => cases calm
  | @failed _ _ op owner rest phase fail =>
    cases calm
    have todo : applyOn setting mesh op owner = none := by
      rcases fail with no | todo
      · cases no
      · exact todo
    have away : op.table ≠ name := fun here =>
      wins _ _ _ _ phase here todo
    rw [phase] at batch
    simp only [pending] at batch
    rw [ofTable_cons_other away] at batch
    exact queued.keep wf sent rfl rfl rfl (by rw [phase]; rfl) batch
  | flushed phase => exact queued.flush phase rfl wf sent
  | _ => exact queued.keep wf sent rfl rfl rfl rfl batch

end

end

/-! ## Statements -/

theorem execSerial_apply (registered : setting.schema name = some table)
    (serial : String → Content) (target : String) (statement : Statement) :
    setting.execSerial serial target statement name =
      if target = name then statement.exec table (serial name)
      else serial name := by
  by_cases here : target = name
  · subst here
    simp [Setting.execSerial, registered]
  · simp only [Setting.execSerial, here, if_false]
    cases setting.schema target with
    | none => rfl
    | some other => exact Function.update_of_ne (Ne.symm here) _ _

section

variable (registered : setting.schema name = some table)
  (faithful : target = name → FaithfulStatement setting table mesh name statement)
include registered faithful

/-- A faithful statement can be replayed once it is captured. -/
theorem replayable_of_executeSqlBound
    (res : executeSqlBound setting mesh target statement = .going central write) :
    Replayable setting name table (mesh.serial name) write := by
  have ok := admitted_executeSqlBound setting mesh target statement
  rw [res] at ok
  cases ok with
  | added here out keyed =>
    rintro rfl
    rw [registered] at here
    cases here
    have same := faithful rfl
    simp only [FaithfulStatement, out] at same
    obtain ⟨alike, arrives⟩ := same
    simp only [Statement.exec, Statement.run, alike, InsertOutcome.content, Option.getD_some]
    exact confined_image alike arrives keyed
  | merged here out keyed =>
    rintro rfl
    rw [registered] at here
    cases here
    have alike := faithful rfl
    simp only [FaithfulStatement, out] at alike
  | @update _ rowId edit here =>
    rintro rfl
    rcases faithful rfl with ⟨fits, onRow⟩
    rcases Option.ne_none_iff_exists'.mp fits with ⟨next, updated⟩
    simp only [Statement.exec, Statement.run, updated, Option.getD_some]
    exact confined_update onRow updated
  | @delete _ rowId removal here =>
    rintro rfl
    rcases faithful rfl with ⟨hasId, onRow⟩
    have eqRows : deleteRows (mesh.serial target) removal.selects =
        deleteRows (mesh.serial target) fun row =>
          setting.denotes rowId (cell row "id") := by
      apply filter_congr
      intro row mem
      rw [(onRow row mem).1]
    simp only [Statement.exec, Statement.run, Option.getD_some, eqRows]
    apply confined_delete hasId
    intro row mem denoted
    exact (onRow row mem).2 ((onRow row mem).1.trans denoted)

/-- A faithful INSERT that wrote nothing changes nothing serially. -/
theorem execSerial_of_nothing (res : executeSqlBound setting mesh target statement = .nothing) :
    setting.execSerial mesh.serial target statement name = mesh.serial name := by
  rw [execSerial_apply registered]
  split
  · rename_i here
    subst here
    have alike := faithful rfl
    have ok := admitted_executeSqlBound setting mesh target statement
    rw [res] at ok
    cases ok with
    | nothing tab out =>
      rw [registered] at tab
      cases tab
      simp only [FaithfulStatement, out] at alike
      simp [Statement.exec, Statement.run, alike, InsertOutcome.content]
  · rfl

end

/-! ## Steps -/

theorem Stage.congr {next : MeshState} (stage : Stage setting name table mesh content)
    (buf : ofTable name next.buffer = ofTable name mesh.buffer)
    (serial : next.serial name = mesh.serial name) (eqCur : current next.tick = current mesh.tick) :
    Stage setting name table next content := by
  cases stage with
  | even away flush =>
    apply Stage.even
    · rw [eqCur]
      exact away
    · rw [buf, serial]
      exact flush
  | ahead cur queue near flush =>
    apply Stage.ahead (eqCur.trans cur) (buf.trans queue) near
    rw [serial]
    exact flush

/-- The buffered operations lead from some content to the serial one. -/
theorem Stage.flushes (stage : Stage setting name table mesh content) :
    ∃ before, Flushes setting.denotes (setting.receive name) table before
      (ofTable name mesh.buffer) (mesh.serial name) := by
  cases stage with
  | even away flush => exact ⟨content, flush⟩
  | ahead cur queue near flush =>
    rw [queue]
    exact ⟨_, .apply near flush⟩

/-- A row without buffered operations is stored as serial execution has it. -/
theorem Stage.untouched (stage : Stage setting name table mesh content)
    (them : ∀ op ∈ ofTable name mesh.buffer, op.rowId ≠ rowId) :
    part table (onlyRow rowId) (mesh.serial name) = part table (onlyRow rowId) content := by
  cases stage with
  | even away flush => exact flush.otherRows them
  | ahead cur queue near flush =>
    apply flush.otherRows
    intro op mem
    apply them op
    rw [queue]
    exact mem_cons_of_mem _ mem

/-- A step that leaves buffer, providers and serial content alone. -/
theorem Synced.keep (sync : Synced setting name table roster mesh)
    (queued : Queued name roster next) (buf : ofTable name next.buffer = ofTable name mesh.buffer)
    (hosts : next.providers = mesh.providers) (serial : next.serial name = mesh.serial name)
    (eqCur : current next.tick = current mesh.tick)
    (busy : WriterSynced setting name table (mesh.serial name) next.writer) :
    Synced setting name table roster next := by
  refine ⟨queued, ?_, ?_, ?_⟩
  · rcases sync.held with ⟨content, stage, shares⟩
    refine ⟨content, stage.congr buf serial eqCur, ?_⟩
    rw [hosts]
    exact shares
  · rw [serial]
    exact sync.lawful
  · rw [serial]
    exact busy

theorem Stage.enqueue (registered : setting.schema write.table = some table)
    (stage : Stage setting write.table table mesh content)
    (near : Confined setting.denotes (setting.receive write.table) table write.rowId write.payload
      (mesh.serial write.table) (write.statement.exec table (mesh.serial write.table))) :
    Stage setting write.table table (mesh.enqueue setting write owner opId createdAt) content := by
  have serial : (mesh.enqueue setting write owner opId createdAt).serial
      write.table = write.statement.exec table (mesh.serial write.table) := by
    simp [MeshState.enqueue, execSerial_apply registered]
  cases stage with
  | even away flush =>
    refine .even away ?_
    rw [ofTable_enqueue_self, serial]
    exact flush.snoc near
  | @ahead _ _ op rest cur queue done flush =>
    have long : ofTable write.table (mesh.enqueue setting write owner opId createdAt).buffer =
          op :: (rest ++ [mesh.opOf write opId createdAt]) := by
      rw [ofTable_enqueue_self, queue]
      rfl
    refine .ahead cur long done ?_
    rw [serial]
    exact flush.snoc near

section

theorem Synced.enqueue (sync : Synced setting name table roster mesh)
    (registered : setting.schema name = some table)
    (lock : mesh.writer = .routed write owner) (queued : Queued name roster
      (mesh.enqueue setting write owner opId createdAt)) :
    Synced setting name table roster (mesh.enqueue setting write owner opId createdAt) := by
  have busy := sync.writing
  rw [lock] at busy
  have serial : (mesh.enqueue setting write owner opId createdAt).serial
      name = if write.table = name then
        write.statement.exec table (mesh.serial name)
      else mesh.serial name :=
    execSerial_apply registered _ _ _
  refine ⟨queued, ?_, ?_, ?_⟩
  · rcases sync.held with ⟨content, stage, shares⟩
    refine ⟨content, ?_, shares⟩
    by_cases here : write.table = name
    · subst here
      exact stage.enqueue registered (busy rfl)
    · apply stage.congr (ofTable_enqueue_other here) _ rfl
      rw [serial, if_neg here]
  · rw [serial]
    split
    · exact write.statement.exec_admits sync.lawful
    · exact sync.lawful
  · trivial

/-- The row id of an operation picks its target and no other provider. -/
theorem ownedBy_iff (pick : pickName rowId roster = some owner) (provider : String) :
    ownedBy roster provider (some rowId) = decide (provider = owner) := by
  simp [ownedBy, pick, eq_comm]

/-- The next operation of the table has its effect on the picked provider. -/
theorem Synced.next (synced : Synced setting name table roster mesh)
    (plain : Plain setting name) (registered : setting.schema name = some table)
    (phase : mesh.tick = .targeted snapshot op owner rest) (eqTable : op.table = name) :
    ∃ content after tail, (∀ provider, (mesh.providers provider).tables name =
      part table (ownedBy roster provider) content) ∧
      ofTable name mesh.buffer = op :: tail ∧
      Confined setting.denotes (setting.receive name) table op.rowId op.payload content after ∧
      Flushes setting.denotes (setting.receive name) table after tail (mesh.serial name) ∧
      ∃ provider, applyOn setting mesh op owner = some provider ∧
        provider.tables name = part table (ownedBy roster owner) after := by
  subst eqTable
  have wait : pending mesh.tick = op :: rest := by
    rw [phase]
    rfl
  rcases synced.toQueued.queue wait rfl with ⟨tail, queue, _⟩
  rcases synced.held with ⟨content, stage, shares⟩
  have picked := synced.routed.ticking
  rw [phase] at picked
  have notApplied : op.id ∉ (mesh.providers owner).applied := by
    apply synced.toQueued.not_applied owner (synced.toQueued.mem_buffer wait)
    rw [phase]
    exact nofun
  cases stage with
  | ahead isCurrent =>
    rw [phase] at isCurrent
    cases isCurrent
  | even away flushes =>
    rw [queue] at flushes
    cases flushes with
    | @apply _ after _ _ _ confined later =>
      refine ⟨content, after, tail, shares, queue, confined, later, ?_⟩
      have effect := confined.within (ownedBy roster owner) (by simp [ownedBy_iff picked])
      rw [← shares owner] at effect
      rw [← confined.arrives] at effect
      have applies := Provider.apply_of_new plain.named notApplied effect
      refine ⟨_, by simpa only [applyOn, registered] using applies, ?_⟩
      exact (plain.untriggered ..).trans (Function.update_self ..)

/-- An operation of another table leaves the table's content alone. -/
theorem tables_of_applyOn (plain : Plain setting name) (away : op.table ≠ name)
    (done : applyOn setting mesh op owner = some provider) :
    provider.tables name = (mesh.providers owner).tables name := by
  simp only [applyOn] at done
  split at done
  · cases done
  · rcases Provider.apply_cases done with ⟨_, rfl⟩ | ⟨_, written, effect, rfl⟩
    · rfl
    · obtain ⟨content, -, rfl⟩ := Option.map_eq_some_iff.mp effect
      exact (plain.untriggered ..).trans (Function.update_of_ne (Ne.symm away) _ _)

theorem Synced.acknowledge (sync : Synced setting name table roster mesh)
    (plain : Plain setting name) (registered : setting.schema name = some table) {next : MeshState}
    (phase : mesh.tick = .targeted snapshot op owner rest)
    (done : applyOn setting mesh op owner = some provider)
    (nxt : next = { mesh.executed op owner provider with
      tick := .acked snapshot op owner rest })
    (queued : Queued name roster next) :
    Synced setting name table roster next := by
  subst nxt
  refine ⟨queued, ?_, ?_, ?_⟩
  · by_cases here : op.table = name
    · rcases sync.next plain registered phase here with
        ⟨content, post, tail, shares, queue, near, flush, answer, applies, holds⟩
      cases applies.symm.trans done
      refine ⟨post, .ahead rfl queue near flush, ?_⟩
      have pick := sync.routed.ticking
      rw [phase] at pick
      intro holder
      by_cases owns : holder = owner
      · subst owns
        simpa [MeshState.executed] using holds
      · simp only [MeshState.executed, Function.update_of_ne owns]
        rw [shares holder]
        symm
        apply near.outside
        simp [ownedBy_iff pick, owns]
    · rcases sync.held with ⟨content, stage, shares⟩
      refine ⟨content, ?_, ?_⟩
      · cases stage with
        | ahead cur =>
          rw [phase] at cur
          cases cur
        | even away flush =>
          refine .even ?_ flush
          intro other cur
          cases cur
          exact here
      · intro holder
        by_cases owns : holder = owner
        · subst owns
          simp only [MeshState.executed, Function.update_self]
          rw [tables_of_applyOn plain here done]
          exact shares holder
        · simp only [MeshState.executed, Function.update_of_ne owns]
          exact shares holder
  · exact sync.lawful
  · exact sync.writing

/-- The applied operation leaves the buffer. -/
theorem Synced.flush (sync : Synced setting name table roster mesh)
    {next : MeshState} (phase : mesh.tick = .placed snapshot op rest)
    (nxt : next = { mesh.deleteWriteOps [op.id] with
      tick := .ready snapshot rest }) (queued : Queued name roster next) :
    Synced setting name table roster next := by
  have inBuf : op ∈ mesh.buffer := sync.toQueued.mem_buffer (by rw [phase]; rfl)
  subst nxt
  refine ⟨queued, ?_, ?_, ?_⟩
  · rcases sync.held with ⟨content, stage, shares⟩
    refine ⟨content, ?_, shares⟩
    cases stage with
    | even away flush =>
      have buf := ofTable_flush_other sync.wellFormed inBuf (away op (by rw [phase]; rfl))
      refine .even nofun ?_
      rw [buf]
      exact flush
    | @ahead _ _ first tail cur queue near flush =>
      rw [phase] at cur
      cases cur
      have buf : ofTable name (mesh.deleteWriteOps [op.id]).buffer = tail :=
        ofTable_delete_head sync.wellFormed.distinct queue
      refine .even nofun ?_
      rw [buf]
      exact flush
  · exact sync.lawful
  · exact sync.writing

/-- A calm and faithful step keeps the mesh in step with serial execution. -/
theorem Synced.step {next : MeshState} {event : Event}
    (sync : Synced setting name table roster mesh) (plain : Plain setting name)
    (registered : setting.schema name = some table) (calm : Calm mesh event)
    (faithful : Faithful setting name table mesh event)
    (ran : step setting mesh event = some next) :
    Synced setting name table roster next := by
  have last : Newest name mesh event := by
    cases event with
    | write => exact faithful
    | _ => trivial
  have wins : Succeeds setting name mesh := by
    intro snapshot op owner rest phase here todo
    rcases sync.next plain registered phase here with ⟨_, _, _, _, _, _, _, _, applies, _⟩
    rw [todo] at applies
    cases applies
  have queued := sync.toQueued.step registered calm last wins ran
  have busy := sync.writing
  cases moves_of_step ran with
  | refused lock res | resting phase => exact sync
  | nothing lock res =>
    exact sync.keep queued rfl rfl (execSerial_of_nothing registered faithful res) rfl busy
  | going lock res =>
    exact sync.keep queued rfl rfl rfl rfl (replayable_of_executeSqlBound registered faithful res)
  | routing lock | routed lock sel =>
    rw [lock] at busy
    exact sync.keep queued rfl rfl rfl rfl busy
  | abandoned lock sel | recorded lock =>
    exact sync.keep queued rfl rfl rfl rfl trivial
  | enqueued lock new => exact sync.enqueue registered lock queued
  | started phase manned | finished phase | targeted phase sel
  | unrouted phase sel | failed phase fail | placed phase =>
    exact sync.keep queued rfl rfl rfl (by rw [phase]; rfl) busy
  | loaded phase =>
    exact sync.keep queued (ofTable_loadBatch sync.wellFormed registered _) rfl rfl
      (by rw [phase]; rfl) busy
  | acknowledged phase done =>
    exact sync.acknowledge plain registered phase done rfl queued
  | unheard phase done => cases calm
  | flushed phase => exact sync.flush phase rfl queued
  | _ => exact sync.keep queued rfl rfl rfl rfl busy

end

/-! ## Where runs begin -/

/-- Nothing is under way, and the placements are those of the roster. -/
structure Resting (mesh : MeshState) : Prop where
  quiet : Quiet mesh
  unlocked : mesh.writer = .idle
  placed : ∀ name rowId replicas state, mesh.placement name rowId = some (replicas, state) →
      ∃ owner, replicas = [owner] ∧ pickName rowId mesh.roster = some owner
  applied : ∀ provider id, id ∈ (mesh.providers provider).applied → id ∈ mesh.issued

/-- Besides, every provider holds its share of the table. -/
structure Aligned (name : String) (table : TableDef) (mesh : MeshState) : Prop
    extends Resting mesh where
  shares : ∀ provider, (mesh.providers provider).tables name =
    part table (ownedBy mesh.roster provider) (mesh.serial name)
  lawful : table.Admits (mesh.serial name)

theorem Resting.queued (resting : Resting mesh) (name : String) : Queued name mesh.roster mesh := by
  have done := resting.quiet.flushed
  have idle := resting.quiet.resting
  refine ⟨resting.quiet.wellFormed, ⟨rfl, ?_, resting.placed, ?_, ?_⟩, ?_, ?_, ?_⟩
  · simp [idle, snapshot]
  · rw [resting.unlocked]
    trivial
  · rw [idle]
    trivial
  · simp [done, ofTable]
  · simp [idle, pending, ofTable]
  · intro provider id mem
    exact ⟨resting.applied provider id mem, by simp [done]⟩

theorem Aligned.synced (even : Aligned name table mesh) :
    Synced setting name table mesh.roster mesh := by
  refine ⟨even.queued name, ⟨mesh.serial name, .even ?_ ?_, even.shares⟩, even.lawful, ?_⟩
  · simp [even.quiet.resting, current]
  · rw [even.quiet.flushed]
    exact .done _
  · rw [even.unlocked]
    trivial

theorem resting_empty (roster : List String) : Resting (.empty roster) :=
  ⟨⟨rfl, rfl⟩, rfl, nofun, nofun⟩

theorem aligned_empty (name : String) (table : TableDef) (roster : List String) :
    Aligned name table (.empty roster) :=
  ⟨resting_empty roster, fun _ => rfl, List.Pairwise.nil, nofun⟩

end StorageOrchestrator.Mesh.Simulation
