import StorageOrchestrator.Mesh.Simulation
import StorageOrchestrator.Mesh.Traffic

/-!
# Broad writes and the order of acceptance

Each provider should end up with what executing the statements that concern it
gives, in the order in which they were accepted.  A point write waits in the
buffer and a broad write does not, so a broad write overtakes every point
write that is still buffered (`broad_delete_is_overtaken`).

The order holds in a run where a broad write is accepted only while no point
write on its table is buffered and no other broad write on it is under way,
where no point write on the table is accepted while one is, where the buffer
keeps the order of acceptance, and where the agent's replay of a point write,
as it arrives, does on its slice what the statement does; no trigger writes the
table (`orderly_run_replays_slices`).
-/

namespace StorageOrchestrator.Mesh.BroadOrder

open Lib.Placement Lib.Transition Mesh.Table Mesh.Agent Mesh.Gateway Mesh.Buffer
  Mesh.Routing Mesh.Simulation Mesh.Broad Mesh.Traffic List

variable {next : World} {op : WriteOp} {mesh : MeshState} {npub owner target opId : String}
  {write : BroadWrite} {snapshot : List String} {number : Nat} {flight : Flight}

/-! ## The condition -/

/-- No broad write on the table is being sent, apart from one. -/
def NoneSending (name : String) (world : World) (apart : Option Nat) : Prop :=
  ∀ number flight todo, world.flights[number]? = some flight →
    some number ≠ apart → flight.name = name → flight.phase = .sending todo → todo = []

/-- The roster stays fixed and every delivery is answered. -/
def Undisturbed (world : World) : Traffic.Event → Prop
  | .mesh event => Calm world.mesh event
  | .broad _ _ => True
  | .advance _ _ delivery => delivery = .answered

/-- A point write on the table keeps to the order of acceptance. -/
def OrderlyPoint (setting : Setting) (name : String) (table : TableDef)
    (world : World) : Gateway.Event → Prop
  | .accept target statement =>
    target = name → ∀ entry ∈ accepted setting world.mesh (.accept target statement),
        ∀ npub, entry.exec setting npub (inOrder setting npub (world.base npub) world.log) name =
            world.expected setting npub name
  | .write opId createdAt =>
    ∀ write owner, world.mesh.writer = .routed write owner → write.table = name →
        NoneSending name world none ∧
        (∀ op ∈ ofTable name world.mesh.buffer,
          ¬ (world.mesh.opOf write opId createdAt).notAfter op) ∧
        applyPayload setting.denotes table
            (world.expected setting owner name) write.rowId
            (write.payload.received (setting.receive name)) =
          some (write.statement.exec table (world.expected setting owner name))
  | _ => True

/-- A step on the table keeps to the order of acceptance. -/
def Orderly (setting : Setting) (name : String) (table : TableDef)
    (world : World) : Traffic.Event → Prop
  | .mesh event => OrderlyPoint setting name table world event
  | .broad _ _ => True
  | .advance number _ _ =>
    ∀ flight roster, world.flights[number]? = some flight →
      flight.name = name → flight.phase = .reading roster →
        flight.write.run (keyedSchema setting) flight.name world.mesh.central ≠ none →
        ofTable name world.mesh.buffer = [] ∧
        NoneSending name world none ∧
        ∃ statement, flight.write = .change statement ∧ ∀ npub ∈ roster,
            statement.run (keyed table) (world.expected setting npub name) ≠ none

/-! ## The invariant -/

/-- The effects of operations on a table, one after the other, as they arrive. -/
def replays (host : Host) (name : String) (table : TableDef) (content : Content)
    (ops : List WriteOp) : Option Content :=
  ops.foldlM (fun content op => applyPayload host.denotes table content op.rowId
    (op.payload.received (host.receive name))) content

/-- The operations on the table that no provider has applied yet. -/
def outstanding (name : String) (mesh : MeshState) : List WriteOp :=
  ofTable name (mesh.buffer.filter fun op =>
    (current mesh.tick).all fun applied => op.id ≠ applied.id)

/-- Those of them that go to a provider. -/
def queueOf (name : String) (roster : List String) (mesh : MeshState)
    (npub : String) : List WriteOp :=
  (outstanding name mesh).filter fun op =>
    pickName op.rowId roster = some npub

/-- The tables of the providers, against what is still to come. -/
inductive Held (setting : Setting) (name : String) (table : TableDef)
    (roster : List String) (world : World) : Prop where
  | buffered
      (none : NoneSending name world none)
      (replayed : ∀ npub, replays setting.toHost name table
        ((world.mesh.providers npub).tables name)
        (queueOf name roster world.mesh npub) = some (world.expected setting npub name))
  | sending {number : Nat} {statement : Change} {todo : List String}
      (found : world.flights[number]? = some ⟨name, .change statement, .sending todo⟩)
      (only : NoneSending name world (some number))
      (drained : ofTable name world.mesh.buffer = [])
      (distinct : todo.Nodup)
      (waiting : ∀ npub ∈ todo, statement.run (keyed table)
        ((world.mesh.providers npub).tables name) = some (world.expected setting npub name))
      (done : ∀ npub, npub ∉ todo → (world.mesh.providers npub).tables name =
          world.expected setting npub name)

/-- The providers lag behind the accepted statements by what is to come. -/
structure Behind (setting : Setting) (name : String) (table : TableDef)
    (roster : List String) (world : World) : Prop where
  queued : Queued name roster world.mesh
  snapshots : ∀ flight ∈ world.flights, ∀ snapshot,
    flight.phase = .reading snapshot → snapshot = roster
  held : Held setting name table roster world

theorem replays_append (pre : replays host name table content ops = some middle) :
    replays host name table content (ops ++ [op]) =
      applyPayload host.denotes table middle op.rowId
        (op.payload.received (host.receive name)) := by
  rw [replays] at pre
  simp [replays, pre]

theorem replays_cons (ran : replays host name table content (op :: ops) = some final) :
    ∃ middle, applyPayload host.denotes table content op.rowId
        (op.payload.received (host.receive name)) = some middle ∧
      replays host name table middle ops = some final := by
  exact Option.bind_eq_some_iff.mp ran

/-- Without operations on the table, the queues are empty. -/
theorem queueOf_of_drained (empty : ofTable name mesh.buffer = []) (roster : List String)
    (npub : String) : queueOf name roster mesh npub = [] := by
  have none : outstanding name mesh = [] := by
    simp only [outstanding, ofTable, filter_eq_nil_iff] at empty ⊢
    intro op mem
    exact empty op (mem_filter.mp mem).1
  simp [queueOf, none]

/-- Between broad writes the tables are a matter of the buffer. -/
theorem Held.replayed (held : Held setting name table roster world)
    (idle : NoneSending name world none) (npub : String) :
    replays setting.toHost name table ((world.mesh.providers npub).tables name)
      (queueOf name roster world.mesh npub) = some (world.expected setting npub name) := by
  cases held with
  | buffered none ran => exact ran npub
  | @sending number stmt todo found only empty nodup wait done =>
    have ended := idle number _ todo found nofun rfl rfl
    subst ended
    rw [queueOf_of_drained empty, replays, foldlM_nil, done npub not_mem_nil]
    rfl

/-! ## Statements and expectations -/

section

variable {name : String} {world : World}

/-- A statement on another table leaves the table's expectation alone. -/
theorem exec_point_elsewhere (registered : setting.schema name = some table)
    (away : target ≠ name) :
    Entry.exec setting npub tables (.point owner target statement) name = tables name := by
  simp only [Entry.exec]
  split
  · rw [execSerial_apply registered, if_neg away]
  · rfl

theorem exec_point_self (registered : setting.schema name = some table) :
    Entry.exec setting npub tables (.point owner name statement) name =
      if owner = npub then statement.exec table (tables name)
      else tables name := by
  simp only [Entry.exec]
  split
  · rw [execSerial_apply registered, if_pos rfl]
  · rfl

/-- A step accepts a routed write, an INSERT that skips its row, or nothing. -/
theorem accepted_cases (setting : Setting) (mesh : MeshState) (ev : Gateway.Event) :
    accepted setting mesh ev = [] ∨ (∃ opId born write owner, ev = .write opId born ∧
      mesh.writer = .routed write owner ∧
      accepted setting mesh ev = [.point owner write.table write.statement]) ∨
      ∃ target stmt owner, ev = .accept target stmt ∧
      accepted setting mesh ev = [.point owner target stmt] := by
  cases ev with
  | refresh snapshot | tick sent => exact .inl rfl
  | write opId born =>
    simp only [accepted]
    split
    · rename_i write owner lock
      exact .inr (.inl ⟨opId, born, write, owner, rfl, lock, rfl⟩)
    · exact .inl rfl
  | accept target stmt =>
    cases stmt with
    | insert row clash =>
      simp only [accepted]
      split
      · split
        · rename_i owner sel
          exact .inr (.inr ⟨target, _, owner, rfl, rfl⟩)
        · exact .inl rfl
      · exact .inl rfl
    | update rowId edit | delete rowId removal => exact .inl rfl

/-- The event does not enqueue a write on the table. -/
def Unrouted (name : String) (world : World) (event : Gateway.Event) : Prop :=
  ∀ write owner, world.mesh.writer = .routed write owner →
    write.table = name → ∀ opId createdAt, event ≠ .write opId createdAt

/-- Only an enqueued write on the table changes what is expected. -/
theorem expected_of_unrouted (registered : setting.schema name = some table)
    (fair : OrderlyPoint setting name table world ev) (unrouted : Unrouted name world ev)
    (npub : String) :
    World.expected setting { world with
      mesh := mesh
      log := world.log ++ accepted setting world.mesh ev } npub name =
        world.expected setting npub name := by
  rcases accepted_cases setting world.mesh ev with
    none | ⟨opId, born, write, owner, rfl, lock, single⟩ | ⟨target, stmt, owner, rfl, single⟩
  · simp [World.expected, none]
  · have away : write.table ≠ name := fun eq =>
      unrouted write owner lock eq opId born rfl
    rw [World.expected, single, inOrder_append, exec_point_elsewhere registered away]
    rfl
  · rw [World.expected, single, inOrder_append]
    by_cases eq : target = name
    · exact fair eq _ (single ▸ mem_singleton_self _) npub
    · rw [exec_point_elsewhere registered eq]
      rfl

/-! ## Steps of the mesh -/

/-- The tables stand as before when nothing on the table has changed. -/
theorem Held.congr (held : Held setting name table roster world)
    (flights : next.flights = world.flights)
    (drains : ofTable name world.mesh.buffer = [] → ofTable name next.mesh.buffer = [])
    (queues : outstanding name next.mesh = outstanding name world.mesh)
    (tabs : ∀ npub, (next.mesh.providers npub).tables name =
      (world.mesh.providers npub).tables name)
    (want : ∀ npub, next.expected setting npub name = world.expected setting npub name) :
    Held setting name table roster next := by
  cases held with
  | buffered none ran =>
    refine .buffered (by simpa [NoneSending, flights] using none) ?_
    intro npub
    simpa [tabs, want, queueOf, queues] using ran npub
  | @sending number stmt todo found only empty nodup wait done =>
    refine .sending (flights ▸ found) (by simpa [NoneSending, flights] using only)
      (drains empty) nodup ?_ ?_
    · intro npub mem
      rw [tabs, want]
      exact wait npub mem
    · intro npub gone
      rw [tabs, want]
      exact done npub gone

/-- A step of the mesh that leaves buffer and providers alone. -/
theorem Behind.keep (tail : Behind setting name table roster world)
    (queued : Queued name roster next.mesh) (flights : next.flights = world.flights)
    (buf : next.mesh.buffer = world.mesh.buffer)
    (hosts : next.mesh.providers = world.mesh.providers)
    (cur : current next.mesh.tick = current world.mesh.tick)
    (want : ∀ npub, next.expected setting npub name = world.expected setting npub name) :
    Behind setting name table roster next := by
  refine ⟨queued, flights ▸ tail.snapshots, ?_⟩
  refine tail.held.congr flights (by rw [buf]; exact id) ?_ ?_ want
  · rw [outstanding, outstanding, buf, cur]
  · intro npub
    rw [hosts]

/-- Between the effect of an operation and its removal nothing changes. -/
theorem outstanding_of_none (notCurrent : current mesh.tick = none) :
    outstanding name mesh = ofTable name mesh.buffer := by
  rw [outstanding, notCurrent]
  congr 1
  exact filter_eq_self.mpr fun _ _ => rfl

theorem outstanding_of_some (cur : current mesh.tick = some op) :
    outstanding name mesh = ofTable name (mesh.deleteWriteOps [op.id]).buffer := by
  simp [outstanding, cur, MeshState.deleteWriteOps]

theorem pending_of_current (cur : current tick = some op) : ∃ rest, pending tick = op :: rest := by
  cases tick with
  | acked snapshot done owner rest | placed snapshot done rest =>
    cases cur
    exact ⟨rest, rfl⟩
  | _ => cases cur

/-- A new operation is outstanding. -/
theorem outstanding_enqueue (queued : Queued name roster world.mesh) {write : Write}
    (new : opId ∉ world.mesh.issued) :
    outstanding write.table (world.mesh.enqueue setting write owner opId born) =
      outstanding write.table world.mesh ++ [world.mesh.opOf write opId born] := by
  have isNew : ((current world.mesh.tick).all fun done =>
      opId ≠ done.id) = true := by
    cases cur : current world.mesh.tick with
    | none => rfl
    | some done =>
      obtain ⟨rest, wait⟩ := pending_of_current cur
      have known := queued.wellFormed.known done (queued.mem_buffer wait)
      simp only [Option.all_some, decide_eq_true_eq]
      rintro rfl
      exact new known
  simp only [outstanding, ofTable, MeshState.enqueue, filter_append]
  congr 1
  simpa [MeshState.opOf] using isNew

theorem outstanding_enqueue_other {write : Write} (away : write.table ≠ name) :
    outstanding name (world.mesh.enqueue setting write owner opId createdAt) =
      outstanding name world.mesh := by
  simp [outstanding, ofTable, MeshState.enqueue, filter_append, filter_filter, MeshState.opOf, away]

/-- A point write on the table joins the queue of its owner. -/
theorem Held.enqueue (held : Held setting name table roster world)
    (queued : Queued name roster world.mesh)
    (registered : setting.schema name = some table) {write : Write}
    {born : Nat} (lock : world.mesh.writer = .routed write owner)
    (new : opId ∉ world.mesh.issued) (here : write.table = name)
    (idle : NoneSending name world none) (effect : applyPayload setting.denotes table
      (world.expected setting owner name) write.rowId
      (write.payload.received (setting.receive name)) =
      some (write.statement.exec table (world.expected setting owner name))) :
    Held setting name table roster { world with
      mesh := world.mesh.enqueue setting write owner opId born
      log := world.log ++ [.point owner write.table write.statement] } := by
  subst here
  have pick : pickName write.rowId roster = some owner := by
    have busy := queued.routed.writing
    rw [lock] at busy
    exact busy
  refine .buffered idle ?_
  intro npub
  have pre := held.replayed idle npub
  rw [World.expected, inOrder_append, exec_point_self registered]
  by_cases owns : owner = npub
  · subst owns
    rw [if_pos rfl]
    have queue : queueOf write.table roster
        (world.mesh.enqueue setting write owner opId born) owner =
          queueOf write.table roster world.mesh owner ++ [world.mesh.opOf write opId born] := by
      rw [queueOf, outstanding_enqueue queued new, filter_append]
      congr 1
      exact filter_cons_of_pos (decide_eq_true pick)
    rw [queue]
    exact (replays_append pre).trans effect
  · rw [if_neg owns]
    have queue : queueOf write.table roster
        (world.mesh.enqueue setting write owner opId born) npub =
          queueOf write.table roster world.mesh npub := by
      have away : pickName write.rowId roster ≠ some npub := by
        rw [pick]
        simpa using owns
      rw [queueOf, outstanding_enqueue queued new, filter_append]
      simp [MeshState.opOf, away, queueOf]
    rw [queue]
    exact pre

theorem picked_of_queued (queued : Queued name roster mesh)
    (phase : mesh.tick = .targeted snapshot op owner rest) :
    pickName op.rowId roster = some owner := by
  have tick := queued.routed.ticking
  rw [phase] at tick
  exact tick

section

variable (held : Held setting name table roster world)
  (queued : Queued name roster world.mesh) (plain : Plain setting name)
  (registered : setting.schema name = some table)
include held queued plain registered

/-- The first operation of the queue goes to its owner. -/
theorem Held.first {rest : List WriteOp}
    (phase : world.mesh.tick = .targeted snapshot op owner rest) (eqTable : op.table = name) :
    ∃ tail content, NoneSending name world none ∧ outstanding name world.mesh = op :: tail ∧
      (∃ provider, applyOn setting world.mesh op owner = some provider ∧
        provider.tables name = content) ∧
      replays setting.toHost name table content
        (tail.filter fun op => pickName op.rowId roster = some owner) =
          some (world.expected setting owner name) := by
  have wait : pending world.mesh.tick = op :: rest := by
    rw [phase]
    rfl
  obtain ⟨tail, queue, -⟩ := queued.queue wait eqTable
  have picked := picked_of_queued queued phase
  have notApplied : op.id ∉ (world.mesh.providers owner).applied := by
    apply queued.not_applied owner (queued.mem_buffer wait)
    rw [phase]
    exact nofun
  have whole : outstanding name world.mesh = op :: tail := by
    rw [outstanding_of_none (by rw [phase]; rfl), queue]
  cases held with
  | sending found only empty =>
    rw [empty] at queue
    cases queue
  | buffered idle ran =>
    have first := ran owner
    rw [queueOf, whole, filter_cons_of_pos (by simpa using picked)] at first
    obtain ⟨content, effect, later⟩ := replays_cons first
    refine ⟨tail, content, idle, whole, ?_, later⟩
    subst eqTable
    have applies := Provider.apply_of_new plain.named notApplied effect
    refine ⟨_, by simpa only [applyOn, registered] using applies, ?_⟩
    exact (plain.untriggered ..).trans (Function.update_self ..)

/-- An operation on the table takes effect. -/
theorem Held.acknowledge (phase : world.mesh.tick = .targeted snapshot op owner rest)
    (done : applyOn setting world.mesh op owner = some host) (nxt : next = { world with
      mesh := { world.mesh.executed op owner host with
        tick := .acked snapshot op owner rest } }) :
    Held setting name table roster next := by
  have wait : pending world.mesh.tick = op :: rest := by
    rw [phase]
    rfl
  have inBuffer := queued.mem_buffer wait
  have isCurrent : current next.mesh.tick = some op := by
    rw [nxt]
    rfl
  have shrunk : outstanding name next.mesh =
      ofTable name (world.mesh.deleteWriteOps [op.id]).buffer := by
    rw [outstanding_of_some isCurrent, nxt]
    rfl
  by_cases eqTable : op.table = name
  · obtain ⟨tail, content, idle, whole, ⟨answer, applies, holds⟩, later⟩ :=
      held.first queued plain registered phase eqTable
    have shorter : outstanding name next.mesh = tail := by
      rw [shrunk]
      apply ofTable_delete_head queued.wellFormed.distinct
      rw [← whole, outstanding_of_none (by rw [phase]; rfl)]
    have picked := picked_of_queued queued phase
    cases applies.symm.trans done
    subst nxt
    refine .buffered idle ?_
    intro npub
    rw [queueOf, shorter]
    by_cases owns : npub = owner
    · subst owns
      simpa [MeshState.executed, World.expected, holds] using later
    · have pre := held.replayed idle npub
      have away : pickName op.rowId roster ≠ some npub := by
        rw [picked]
        simpa using Ne.symm owns
      rw [queueOf, whole, filter_cons_of_neg (by simpa using away)] at pre
      simpa [MeshState.executed, World.expected, owns] using pre
  · subst nxt
    refine held.congr rfl id ?_ ?_ fun _ => rfl
    · rw [shrunk, ofTable_flush_other queued.wellFormed inBuffer eqTable,
        outstanding_of_none (by rw [phase]; rfl)]
    · intro npub
      by_cases owns : npub = owner
      · subst owns
        simpa [MeshState.executed] using tables_of_applyOn plain eqTable done
      · simp [MeshState.executed, owns]

end

/-- A step of the mesh keeps the providers behind in order. -/
theorem Behind.meshStep (tail : Behind setting name table roster world)
    (plain : Plain setting name) (registered : setting.schema name = some table)
    (calm : Calm world.mesh event) (fair : OrderlyPoint setting name table world event)
    (ran : Gateway.step setting world.mesh event = some mesh) :
    Behind setting name table roster { world with
      mesh := mesh
      log := world.log ++ accepted setting world.mesh event } := by
  have last : Newest name world.mesh event := by
    cases event with
    | write opId born =>
      exact fun write owner lock here =>
        (fair write owner lock here).2.1
    | _ => trivial
  have wins : Succeeds setting name world.mesh := by
    intro snapshot op owner rest phase here todo
    obtain ⟨_, _, _, _, ⟨_, applies, _⟩, _⟩ :=
      tail.held.first tail.queued plain registered phase here
    cases todo.symm.trans applies
  have queued := tail.queued.step registered calm last wins ran
  have want : Unrouted name world event → ∀ npub, World.expected setting { world with
        mesh := mesh
        log := world.log ++ accepted setting world.mesh event } npub name =
          world.expected setting npub name :=
    fun unrouted npub => expected_of_unrouted registered fair unrouted npub
  have keep : mesh.buffer = world.mesh.buffer → mesh.providers = world.mesh.providers →
      current mesh.tick = current world.mesh.tick →
      Unrouted name world event → Behind setting name table roster { world with
        mesh := mesh
        log := world.log ++ accepted setting world.mesh event } :=
    fun buf hosts cur unrouted =>
      tail.keep queued rfl buf hosts cur (want unrouted)
  have moves := moves_of_step ran
  cases moves with
  | @enqueued opId born write owner lock new =>
    have single : accepted setting world.mesh (.write opId born) =
        [.point owner write.table write.statement] := by
      simp [accepted, lock]
    by_cases here : write.table = name
    · obtain ⟨idle, -, effect⟩ := fair write owner lock here
      refine ⟨queued, tail.snapshots, ?_⟩
      rw [single]
      exact tail.held.enqueue tail.queued registered lock new here idle effect
    · refine ⟨queued, tail.snapshots, ?_⟩
      refine tail.held.congr rfl (ofTable_enqueue_other here).trans
        (outstanding_enqueue_other here) (fun _ => rfl) ?_
      intro npub
      rw [World.expected, single, inOrder_append, exec_point_elsewhere registered here]
      rfl
  | loaded phase =>
    refine ⟨queued, tail.snapshots, ?_⟩
    have buf := ofTable_loadBatch tail.queued.wellFormed registered
    refine tail.held.congr rfl (buf _).trans ?_ (fun _ => rfl)
      (want fun _ _ _ _ _ _ eq => by cases eq)
    rw [outstanding_of_none (by rfl), outstanding_of_none (by rw [phase]; rfl)]
    exact buf _
  | acknowledged phase applied =>
    refine ⟨queued, tail.snapshots, ?_⟩
    simp only [accepted, append_nil]
    exact tail.held.acknowledge tail.queued plain registered phase applied rfl
  | @flushed _ snapshot op rest phase =>
    refine ⟨queued, tail.snapshots, ?_⟩
    refine tail.held.congr rfl ?_ ?_ (fun _ => rfl) (want fun _ _ _ _ _ _ eq => by cases eq)
    · intro empty
      simp only [ofTable, filter_eq_nil_iff] at empty ⊢
      intro other member
      exact empty other (mem_filter.mp member).1
    · rw [outstanding_of_none (by rfl), outstanding_of_some (by rw [phase]; rfl)]
  | unheard phase applied => cases calm
  | routing lock | routed lock selected | abandoned lock selected
  | recorded lock =>
    exact keep rfl rfl rfl fun _ _ isRouted => by
      cases lock.symm.trans isRouted
  | started phase manned | finished phase | targeted phase selected
  | unrouted phase selected | failed phase fail | placed phase =>
    exact keep rfl rfl (by rw [phase]; rfl) fun _ _ _ _ _ _ eq => by cases eq
  | _ => exact keep rfl rfl rfl fun _ _ _ _ _ _ eq => by cases eq

/-! ## Steps of broad writes -/

/-- A flight on the table that stops sending disturbs no other. -/
theorem NoneSending.move {pre after : Option Nat}
    (none : NoneSending name world pre) {phase : Phase}
    (apart : ∀ other, other ≠ number → some other ≠ after → some other ≠ pre)
    (quiet : some number ≠ after → flight.name = name → ∀ todo, phase = .sending todo → todo = []) :
    NoneSending name (world.put number flight phase) after := by
  intro other found todo got ne here busy
  rcases getElem?_set_cases got with ⟨rfl, rfl⟩ | ⟨eq, oth⟩
  · exact quiet ne here todo busy
  · exact none other found todo oth (apart other eq ne) here busy

theorem NoneSending.put (none : NoneSending name world apart)
    (quiet : some number ≠ apart → flight.name = name → ∀ todo, phase = .sending todo → todo = []) :
    NoneSending name (world.put number flight phase) apart :=
  none.move (fun _ _ ne => ne) quiet

/-- A flight that is not sending on the table moves to another phase. -/
theorem Held.put (held : Held setting name table roster world)
    (found : world.flights[number]? = some flight)
    (pre : flight.name = name → ∀ todo, flight.phase ≠ .sending todo)
    (post : flight.name = name → ∀ todo, phase = .sending todo → todo = []) :
    Held setting name table roster (world.put number flight phase) := by
  cases held with
  | buffered none ran => exact .buffered (none.put fun _ => post) ran
  | @sending other stmt todo oth only empty nodup wait done =>
    have ne : number ≠ other := by
      rintro rfl
      rw [oth] at found
      cases found
      exact pre rfl todo rfl
    have stays : (world.put number flight phase).flights[other]? =
        some ⟨name, .change stmt, .sending todo⟩ := by
      simpa [World.put, getElem?_set_ne ne] using oth
    exact .sending stays (only.put fun _ => post) empty nodup wait done

theorem snapshots_put (tail : Behind setting name table roster world)
    {phase : Phase} (moved : ∀ snapshot, phase ≠ .reading snapshot) :
    ∀ other ∈ (world.put number flight phase).flights, ∀ snapshot,
      other.phase = .reading snapshot → snapshot = roster := by
  intro other mem snapshot isReading
  rcases mem_or_eq_of_mem_set mem with old | rfl
  · exact tail.snapshots other old snapshot isReading
  · exact absurd isReading (moved snapshot)

/-- The central Postgres is no part of the queue. -/
theorem queued_accept (queued : Queued name roster mesh) (central serial : String → Content) :
    Queued name roster { mesh with central := central, serial := serial } :=
  queued.keep (queued.wellFormed.frame rfl rfl (List.Sublist.refl _) queued.wellFormed.manned)
    (queued.routed.keep rfl rfl queued.routed.ticks queued.routed.writing queued.routed.ticking)
    rfl rfl rfl rfl queued.batch

theorem applied_of_applyRaw {next : Provider}
    (done : applyRaw schema trigger target write opId provider = some next) :
    next.applied ⊆ opId :: provider.applied := by
  simp only [applyRaw] at done
  split at done
  · cases done
    exact subset_cons_self _ _
  · obtain ⟨rows, -, rfl⟩ := Option.map_eq_some_iff.mp done
    exact List.Subset.refl _

theorem tables_of_applyRaw {next : Provider}
    (unwritten : ∀ before written, trigger target before written name = written name)
    (away : target ≠ name) (done : applyRaw schema trigger target write opId provider = some next) :
    next.tables name = provider.tables name := by
  simp only [applyRaw] at done
  split at done
  · cases done
    rfl
  · obtain ⟨rows, -, rfl⟩ := Option.map_eq_some_iff.mp done
    exact (unwritten ..).trans (Function.update_of_ne (Ne.symm away) _ _)

/-- The operation of a broad write is in no queue. -/
theorem queued_sent (queued : Queued name roster mesh) (new : opId ∉ mesh.issued)
    (done : applyRaw schema trigger target write opId (mesh.providers npub) = some provider) :
    Queued name roster { mesh with
      providers := Function.update mesh.providers npub provider
      issued := mesh.issued ++ [opId] } := by
  have sent := queued.routed
  refine ⟨wellFormed_sent queued.wellFormed _ _, ⟨sent.fixed, sent.ticks,
    sent.placed, sent.writing, sent.ticking⟩, queued.keyed,
    queued.batch, ?_⟩
  intro holder id mem
  have old : id = opId ∨ id ∈ (mesh.providers holder).applied := by
    by_cases h : holder = npub
    · subst h
      simp only [Function.update_self] at mem
      exact mem_cons.mp (applied_of_applyRaw done mem)
    · simp only [Function.update_of_ne h] at mem
      exact .inr mem
  rcases old with rfl | old
  · refine ⟨mem_append_right _ (mem_singleton_self _), ?_⟩
    rintro op inBuf rfl
    exact absurd (queued.wellFormed.known op inBuf) new
  · obtain ⟨known, wait⟩ := queued.applied holder id old
    exact ⟨mem_append_left _ known, wait⟩

/-- What a broad write on the table makes of an expectation. -/
theorem exec_broad_self (registered : setting.schema name = some table) :
    Entry.exec setting npub tables (.broad snapshot name (.change statement)) name =
      if npub ∈ snapshot then
      (statement.run (keyed table) (tables name)).getD (tables name)
      else tables name := by
  simp only [Entry.exec]
  split
  · simp [executeOnce, BroadWrite.run, keyedSchema, registered]
  · rfl

theorem exec_broad_elsewhere (away : target ≠ name) :
    Entry.exec setting npub tables (.broad snapshot target write) name = tables name := by
  simp only [Entry.exec]
  split
  · exact Function.update_of_ne (Ne.symm away) _ _
  · rfl

/-- A broad write on the table is accepted. -/
theorem Behind.accept (tail : Behind setting name table roster world)
    (registered : setting.schema name = some table) (nodup : roster.Nodup)
    (found : world.flights[number]? = some flight) (here : flight.name = name)
    (empty : ofTable name world.mesh.buffer = []) (idle : NoneSending name world none)
    (chg : flight.write = .change stmt) (wins : ∀ npub ∈ roster,
      stmt.run (keyed table) (world.expected setting npub name) ≠ none) :
    Behind setting name table roster (world.accept setting number flight roster rows) := by
  have tabs : ∀ npub, (world.mesh.providers npub).tables name =
      world.expected setting npub name := by
    intro npub
    have did := tail.held.replayed idle npub
    rw [queueOf_of_drained empty] at did
    exact Option.some.inj did
  refine ⟨queued_accept tail.queued _ _, snapshots_put tail (by simp), ?_⟩
  have isFlight : (world.accept setting number flight roster rows).flights[number]? =
        some ⟨name, .change stmt, .sending roster⟩ := by
    rw [← here, ← chg]
    exact getElem?_set_self (List.getElem?_eq_some_iff.mp found).1
  have want : ∀ npub, (world.accept setting number flight roster
      rows).expected setting npub name = if npub ∈ roster then
          (stmt.run (keyed table) (world.expected setting npub name)).getD
              (world.expected setting npub name)
        else world.expected setting npub name := by
    intro npub
    simp only [World.expected, World.accept, World.put, inOrder_append, here, chg]
    exact exec_broad_self registered
  have only : NoneSending name (world.accept setting number flight roster rows) (some number) :=
    idle.move (fun _ _ _ => Option.some_ne_none _) fun ne => absurd rfl ne
  refine .sending isFlight only empty nodup ?_ ?_
  · intro npub mem
    rw [want, if_pos mem]
    simp only [World.accept, World.put, tabs]
    obtain ⟨res, ran⟩ := Option.ne_none_iff_exists'.mp (wins npub mem)
    rw [ran, Option.getD_some]
  · intro npub gone
    rw [want, if_neg gone]
    exact tabs npub

/-- A flight that sends on the table is the one that the tables wait for. -/
theorem Held.current (held : Held setting name table roster world)
    {rest : List String} (found : world.flights[number]? = some flight) (here : flight.name = name)
    (phase : flight.phase = .sending (npub :: rest)) :
    ∃ stmt, flight.write = .change stmt ∧ NoneSending name world (some number) ∧
      ofTable name world.mesh.buffer = [] ∧ (npub :: rest).Nodup ∧
      (∀ other ∈ npub :: rest, stmt.run (keyed table)
      ((world.mesh.providers other).tables name) = some (world.expected setting other name)) ∧
      ∀ other, other ∉ npub :: rest → (world.mesh.providers other).tables name =
      world.expected setting other name := by
  cases held with
  | buffered none ran =>
    have ended := none number flight _ found nofun here phase
    cases ended
  | @sending other stmt todo oth only empty nodup wait done =>
    by_cases eq : number = other
    · subst eq
      rw [oth] at found
      cases found
      cases phase
      exact ⟨stmt, rfl, only, empty, nodup, wait, done⟩
    · have ended := only number flight _ found (fun equal => eq (Option.some.inj equal)) here phase
      cases ended

/-- A provider executes the broad write on the table. -/
theorem Behind.sent (tail : Behind setting name table roster world)
    (plain : Plain setting name) (registered : setting.schema name = some table)
    {rest : List String} (found : world.flights[number]? = some flight) (here : flight.name = name)
    (phase : flight.phase = .sending (npub :: rest)) (new : opId ∉ world.mesh.issued)
    (applied : applyRaw (keyedSchema setting) setting.trigger flight.name flight.write opId
      (world.mesh.providers npub) = some host) :
    Behind setting name table roster (world.sent number flight npub opId host (.sending rest)) := by
  obtain ⟨stmt, chg, only, empty, nodup, wait, done⟩ := tail.held.current found here phase
  rw [nodup_cons] at nodup
  have todo : opId ∉ (world.mesh.providers npub).applied :=
    fun known => new (tail.queued.applied npub opId known).1
  have isExpected : host.tables name = world.expected setting npub name := by
    obtain ⟨rows, ran, isTables⟩ := applyRaw_tables applied todo
    have runs := wait npub mem_cons_self
    simp only [chg, BroadWrite.run, here, keyedSchema, registered, Option.map_some] at ran
    rw [isTables, here, plain.untriggered, Function.update_self]
    exact Option.some.inj (ran.symm.trans runs)
  have isFlight : (world.sent number flight npub opId host (.sending rest)).flights[number]? =
        some ⟨name, .change stmt, .sending rest⟩ := by
    rw [← here, ← chg]
    exact getElem?_set_self (List.getElem?_eq_some_iff.mp found).1
  refine ⟨queued_sent tail.queued new applied, snapshots_put tail (by simp), ?_⟩
  refine .sending isFlight (only.put fun ne => absurd rfl ne) empty nodup.2 ?_ ?_
  · intro other mem
    have ne : other ≠ npub := by
      rintro rfl
      exact nodup.1 mem
    simp only [World.sent, Function.update_of_ne ne]
    exact wait other (mem_cons_of_mem _ mem)
  · intro other gone
    by_cases isNpub : other = npub
    · subst isNpub
      simp only [World.sent, Function.update_self]
      exact isExpected
    · simp only [World.sent, Function.update_of_ne isNpub]
      exact done other (by simp [isNpub, gone])

/-- The answer of a broad write that has been sent everywhere. -/
theorem Held.finished (held : Held setting name table roster world)
    (found : world.flights[number]? = some flight) (phase : flight.phase = .sending []) :
    Held setting name table roster (world.put number flight .answered) := by
  cases held with
  | buffered none ran =>
    exact .buffered (none.put fun _ _ => nofun) ran
  | @sending other stmt todo oth only empty nodup wait done =>
    by_cases eq : number = other
    · subst eq
      rw [oth] at found
      cases found
      cases phase
      have idle : NoneSending name (world.put number
          ⟨name, .change stmt, .sending []⟩ .answered) none :=
        only.move (fun _ ne _ eq => ne (Option.some.inj eq)) fun _ _ => nofun
      refine .buffered idle ?_
      intro npub
      have tabs := done npub not_mem_nil
      simp only [World.put, queueOf_of_drained empty, replays, foldlM_nil, tabs]
      rfl
    · have stays : (world.put number flight .answered).flights[other]? =
          some ⟨name, .change stmt, .sending todo⟩ := by
        simpa [World.put, getElem?_set_ne eq] using oth
      exact .sending stays (only.put fun _ _ => nofun) empty nodup wait done

section

variable (tail : Behind setting name table roster world)
include tail

/-- A step of a broad write keeps the providers behind in order. -/
theorem Behind.advance (plain : Plain setting name) (registered : setting.schema name = some table)
    (nodup : roster.Nodup) (found : world.flights[number]? = some flight)
    (fair : Orderly setting name table world (.advance number opId .answered))
    (advances : Advances setting world number opId .answered flight next) :
    Behind setting name table roster next := by
  cases advances with
  | refused phase =>
    refine ⟨tail.queued, snapshots_put tail nofun, ?_⟩
    refine tail.held.put found ?_ fun _ => nofun
    intro _ todo
    rw [phase]
    exact nofun
  | @accepted snapshot rows phase ran =>
    have isRoster := tail.snapshots flight (mem_of_getElem? found) snapshot phase
    subst isRoster
    by_cases here : flight.name = name
    · obtain ⟨empty, idle, stmt, chg, wins⟩ := fair flight snapshot found here phase (by simp [ran])
      exact tail.accept registered nodup found here empty idle chg wins
    · refine ⟨queued_accept tail.queued _ _, snapshots_put tail nofun, ?_⟩
      have moved : Held setting name table snapshot (world.put number flight (.sending snapshot)) :=
        tail.held.put found (fun eq => absurd eq here) fun eq => absurd eq here
      refine moved.congr rfl id rfl (fun _ => rfl) ?_
      intro npub
      simp only [World.expected, World.accept, World.put, inOrder_append]
      exact exec_broad_elsewhere here
  | finished phase =>
    exact ⟨tail.queued, snapshots_put tail nofun, tail.held.finished found phase⟩
  | @sent npub rest host phase new done =>
    by_cases here : flight.name = name
    · exact tail.sent plain registered found here phase new done
    · refine ⟨queued_sent tail.queued new done, snapshots_put tail nofun, ?_⟩
      have moved : Held setting name table roster (world.put number flight (.sending rest)) :=
        tail.held.put found (fun eq => absurd eq here) fun eq => absurd eq here
      refine moved.congr rfl id rfl ?_ (fun _ => rfl)
      intro other
      by_cases isNpub : other = npub
      · subst isNpub
        simp only [World.sent, Function.update_self]
        exact tables_of_applyRaw (plain.untriggered _) here done
      · simp only [World.sent, Function.update_of_ne isNpub]
        rfl
  | unheard phase new lost done => cases lost
  | @failed npub rest phase new fail =>
    have deny : applyRaw (keyedSchema setting) setting.trigger flight.name flight.write
        opId (world.mesh.providers npub) = none := by
      rcases fail with no | deny
      · cases no
      · exact deny
    have onOther : flight.name ≠ name := by
      intro here
      obtain ⟨stmt, chg, -, -, -, wait, -⟩ := tail.held.current found here phase
      have unapplied : opId ∉ (world.mesh.providers npub).applied :=
        fun known => new (tail.queued.applied npub opId known).1
      have runs := wait npub mem_cons_self
      simp [applyRaw, unapplied, chg, BroadWrite.run, here, keyedSchema, registered, runs] at deny
    exact ⟨tail.queued, snapshots_put tail nofun,
      tail.held.put found (fun eq => absurd eq onOther) fun eq => absurd eq onOther⟩

theorem Behind.begin (target : String) (write : BroadWrite) :
    Behind setting name table roster { world with
      flights := world.flights ++ [⟨target, write, .reading world.mesh.roster⟩] } := by
  have old : ∀ {number : Nat} {flight : Flight} {todo : List String}, (world.flights ++
        [⟨target, write, .reading world.mesh.roster⟩])[number]? =
          some flight → flight.phase = .sending todo → world.flights[number]? = some flight := by
    intro number flight todo found busy
    rcases getElem?_arrived_cases found with ⟨-, rfl⟩ | old
    · cases busy
    · exact old
  have noneSending : ∀ {apart : Option Nat}, NoneSending name world apart →
      NoneSending name { world with
        flights := world.flights ++ [⟨target, write, .reading world.mesh.roster⟩] } apart :=
    fun none number flight todo found ne here busy =>
      none number flight todo (old found busy) ne here busy
  refine ⟨tail.queued, ?_, ?_⟩
  · intro flight mem snapshot isReading
    rcases mem_append.mp mem with pre | isNew
    · exact tail.snapshots flight pre snapshot isReading
    · rw [mem_singleton] at isNew
      subst isNew
      cases isReading
      exact tail.queued.routed.fixed
  · cases tail.held with
    | buffered none ran => exact .buffered (noneSending none) ran
    | sending found only empty nodup wait done =>
      have stays := found
      rw [← getElem?_append_left (List.getElem?_eq_some_iff.mp found).1] at stays
      exact .sending stays (noneSending only) empty nodup wait done

/-- An undisturbed and orderly step keeps the providers behind in order. -/
theorem Behind.step (plain : Plain setting name) (registered : setting.schema name = some table)
    (nodup : roster.Nodup)
    (undisturbed : Undisturbed world ev) (fair : Orderly setting name table world ev)
    (ran : Traffic.step setting world ev = some next) :
    Behind setting name table roster next := by
  cases ev with
  | mesh ev =>
    obtain ⟨mesh, moved, rfl⟩ := Option.map_eq_some_iff.mp ran
    exact tail.meshStep plain registered undisturbed fair moved
  | broad target write =>
    simp only [Traffic.step] at ran
    split at ran
    · cases ran
      exact tail
    · cases ran
      exact tail.begin target write
  | advance number opId sent =>
    cases undisturbed
    simp only [Traffic.step] at ran
    split at ran
    · cases ran
    · rename_i flight found
      exact tail.advance plain registered nodup found fair (advances_of_advance ran)

end

theorem base_of_step (ran : Traffic.step setting world ev = some next) :
    next.base = world.base := by
  cases ev with
  | mesh ev =>
    obtain ⟨mesh, -, rfl⟩ := Option.map_eq_some_iff.mp ran
    rfl
  | broad target write =>
    simp only [Traffic.step] at ran
    split at ran
    · cases ran
      rfl
    · cases ran
      rfl
  | advance number opId sent =>
    simp only [Traffic.step] at ran
    split at ran
    · cases ran
    · cases advances_of_advance ran <;> rfl

end

/-! ## Runs -/

theorem behind_start (resting : Resting mesh) (setting : Setting)
    (name : String) (table : TableDef) :
    Behind setting name table mesh.roster (.start mesh) := by
  refine ⟨resting.queued name, List.forall_mem_nil _, ?_⟩
  refine .buffered (fun _ _ _ found => by cases found) ?_
  intro npub
  rw [queueOf_of_drained (by simp [World.start, resting.quiet.flushed, ofTable])]
  rfl

/--
In an undisturbed run that keeps to the order of acceptance, whenever no
operation on the table is buffered and no broad write on it is being sent,
every provider has what executing the accepted statements that concern it
gives, in that order.
-/
theorem orderly_run_replays_slices (setting : Setting) (name : String) (table : TableDef)
    (initial : MeshState) (final : World) (events : List Traffic.Event)
    (registered : setting.schema name = some table)
    (plain : Plain setting name)
    (distinct : initial.roster.Nodup)
    (resting : Resting initial)
    (run : GuardedRun (Traffic.step setting) (fun world event => Undisturbed world event ∧
        Orderly setting name table world event)
      (.start initial) events final)
    (drained : ∀ op ∈ final.mesh.buffer, op.table ≠ name)
    (answered : ∀ flight ∈ final.flights, flight.name = name →
      ∀ npub rest, flight.phase ≠ .sending (npub :: rest))
    (npub : String) :
    (final.mesh.providers npub).tables name =
      inOrder setting npub (initial.providers npub).tables final.log name := by
  have tail : Behind setting name table initial.roster final := run.invariant
      (fun world event next tail ok taken =>
        tail.step plain registered distinct ok.1 ok.2 taken)
      (behind_start resting setting name table)
  have base : final.base = (World.start initial).base := run.invariant
      (fun world event next eq _ taken => (base_of_step taken).trans eq)
      rfl
  have idle : NoneSending name final none := by
    intro number flight todo found _ here busy
    cases todo with
    | nil => rfl
    | cons first rest =>
      exact absurd busy (answered flight (mem_of_getElem? found) here first rest)
  have empty : ofTable name final.mesh.buffer = [] := by
    simp only [ofTable, filter_eq_nil_iff, decide_eq_true_eq]
    exact drained
  have ran := tail.held.replayed idle npub
  rw [queueOf_of_drained empty, World.expected, base] at ran
  exact Option.some.inj ran

/-- An INSERT and a tick that delivers what is buffered. -/
def insertNote : List Traffic.Event :=
  (noteEvents (.insert (note "a" "old") none) "01" 1).map .mesh

def delivery : List Traffic.Event := (List.replicate 6 (.tick .answered)).map .mesh

def broadly (write : BroadWrite) : List Traffic.Event :=
  [.broad "notes" write, .advance 0 "" .answered, .advance 0 "02" .answered,
    .advance 0 "" .answered]

/-- `DELETE FROM notes`. -/
def deleteNotes : BroadWrite :=
  .change (.delete { sql := "DELETE FROM notes", selects := fun _ => true })

/-- A note that is delivered before the broad DELETE is gone. -/
theorem delivered_note_is_deleted : ∃ final, replay (Traffic.step notesSetting)
        (.start (.empty ["p1"]))
        (insertNote ++ delivery ++ broadly deleteNotes) = some final ∧
      (final.mesh.providers "p1").tables "notes" =
        inOrder notesSetting "p1" (fun _ => []) final.log "notes" := by
  refine ⟨_, rfl, ?_⟩
  have run : GuardedRun (Traffic.step notesSetting) (fun world ev => Undisturbed world ev ∧
        Orderly notesSetting "notes" notesTable world ev)
      (.start (.empty ["p1"]))
      (insertNote ++ delivery ++ broadly deleteNotes) _ :=
    .move ⟨trivial, fun _ _ => nofun⟩ rfl <|
    .move ⟨trivial, fun _ _ => nofun⟩ rfl <|
    .move ⟨trivial, fun _ _ => nofun⟩ rfl <|
    .move ⟨trivial, by
      rintro _ _ ⟨⟩ _
      exact ⟨nofun, nofun, rfl⟩⟩ rfl <|
    .move ⟨trivial, fun _ _ => nofun⟩ rfl <|
    .move ⟨rfl, trivial⟩ rfl <|
    .move ⟨rfl, trivial⟩ rfl <|
    .move ⟨rfl, trivial⟩ rfl <|
    .move ⟨rfl, trivial⟩ rfl <|
    .move ⟨rfl, trivial⟩ rfl <|
    .move ⟨rfl, trivial⟩ rfl <|
    .move ⟨trivial, trivial⟩ rfl <|
    .move ⟨rfl, by
      rintro _ _ ⟨⟩ _ ⟨⟩ _
      refine ⟨rfl, ?_, _, rfl, fun _ _ => nofun⟩
      rintro (_ | number) flight todo ⟨⟩ _ _ ⟨⟩⟩ rfl <|
    .move ⟨rfl, by
      rintro _ _ ⟨⟩ _ ⟨⟩⟩ rfl <|
    .move ⟨rfl, by
      rintro _ _ ⟨⟩ _ ⟨⟩⟩ rfl (.done _)
  refine orderly_run_replays_slices notesSetting "notes" notesTable
    (.empty ["p1"]) _ _ rfl ⟨rfl, fun _ _ _ => rfl⟩ (by decide) (resting_empty ["p1"]) run nofun
    ?_ "p1"
  intro flight mem _ npub rest busy
  cases mem_singleton.mp mem
  cases busy

/-- A note that is still buffered outlives the broad DELETE. -/
theorem broad_delete_is_overtaken : ∃ final, replay (Traffic.step notesSetting)
        (.start (.empty ["p1"]))
        (insertNote ++ broadly deleteNotes ++ delivery) = some final ∧
      final.mesh.buffer = [] ∧
      (final.mesh.providers "p1").tables "notes" = [note "a" "old"] ∧
      inOrder notesSetting "p1" (fun _ => []) final.log "notes" = [] :=
  ⟨_, rfl, rfl, rfl, rfl⟩

end StorageOrchestrator.Mesh.BroadOrder
