import StorageOrchestrator.Mesh.Buffer

/-!
# One provider per row

Reads that fan out rely on every row being stored on one provider only.  The
owner of a row is chosen twice, when its statement is enqueued and when its
operation is dispatched, each time from the roster of the moment; a recorded
owner that has left the roster is replaced, and its copy stays
(`departed_owner_keeps_copy`).

While the recorded owner is on the roster whenever an owner is chosen, while a
first write and the dispatcher choose alike, while UPDATEs and the providers'
drivers leave the key alone, and while triggers add a row only where it belongs
or where nobody else has it, no row is stored twice (`stable_run_stores_once`).
-/

namespace StorageOrchestrator.Mesh.Ownership

open Lib.Placement Lib.Transition Mesh.Table Mesh.Agent Mesh.Gateway Mesh.Buffer List

variable {Free : MeshState → String → String → String → Prop} {next : MeshState} {mesh : MeshState}
  {name rowId owner : String} {roster : List String} {setting : Setting} {write : Write}

/-! ## The owner of a row -/

/-- The owner that an enqueued statement is about to record. -/
def announced (writer : Writer) (name rowId : String) : Option String :=
  match writer with
  | .enqueued write owner =>
    if write.table = name ∧ write.rowId = rowId then some owner else none
  | _ => none

/-- The recorded owner of a row, else the announced one. -/
def ownerOf (mesh : MeshState) (name rowId : String) : Option String :=
  match mesh.placement name rowId with
  | some (replicas, _) => replicas.head?
  | none => announced mesh.writer name rowId

/-! ## Exclusive placement and its condition -/

/-- The tables have a row with the row id. -/
def Holds (setting : Setting) (tables : String → Content) (name rowId : String) : Prop :=
  ∃ table row, setting.schema name = some table ∧ row ∈ tables name ∧ table.rowId row = some rowId

/-- The provider has a row with the row id, on the roster or not. -/
def Stores (setting : Setting) (mesh : MeshState) (provider name rowId : String) : Prop :=
  Holds setting (mesh.providers provider).tables name rowId

/-- Every row is stored on at most one provider. -/
def StoredOnce (setting : Setting) (mesh : MeshState) : Prop :=
  ∀ name rowId first second,
    Stores setting mesh first name rowId → Stores setting mesh second name rowId → first = second

/-- A recorded owner of the row is on the roster. -/
def OwnerPresent (mesh : MeshState) (name rowId : String) (roster : List String) : Prop :=
  ∀ replicas state, mesh.placement name rowId = some (replicas, state) →
    ∃ replica ∈ replicas, replica ∈ roster

/-- The UPDATE does not change the key of the rows it selects. -/
def KeepsKey (table : TableDef) (change : PointUpdate) : Prop :=
  ∀ row, change.selects row →
    table.rowId (change.assign row) = table.rowId row

/-- No other provider has the row. -/
def Alone (setting : Setting) (mesh : MeshState) (npub name rowId : String) : Prop :=
  ∀ other, Stores setting mesh other name rowId → other = npub

/--
The provider owns the row, or nobody does, the row may stay there (`Free`), and
no statement on it has been routed elsewhere.
-/
def Belongs (Free : MeshState → String → String → String → Prop) (mesh : MeshState)
    (npub name rowId : String) : Prop :=
  ownerOf mesh name rowId = some npub ∨
    (ownerOf mesh name rowId = none ∧ Free mesh npub name rowId ∧
      ∀ write owner, mesh.writer = .routed write owner →
        write.table = name → write.rowId = rowId → npub = owner)

/-- The triggers of a statement on `target` add a row to what it has written. -/
def Fires (setting : Setting) (target : String) (before written : String → Content)
    (name rowId : String) : Prop :=
  ¬ Holds setting written name rowId ∧
    Holds setting (setting.trigger target before written) name rowId

/--
The operation arrives with the key of its row, and its triggers add rows only
where they belong.
-/
def Arrives (Free : MeshState → String → String → String → Prop) (setting : Setting)
    (mesh : MeshState) (op : WriteOp) (owner : String) : Prop :=
  (∀ table row conflict predicate, setting.schema op.table = some table →
      op.payload = .image row conflict predicate →
        table.rowId (setting.receive op.table row) = table.rowId row) ∧
    ∀ table written name rowId, setting.schema op.table = some table →
      op.id ∉ (mesh.providers owner).applied →
      (mesh.providers owner).written setting.toHost table op = some written →
      Fires setting op.table (mesh.providers owner).tables written name rowId →
        Belongs Free mesh owner name rowId

/-- The step chooses no second owner for a row. -/
def KeepsOwner (Free : MeshState → String → String → String → Prop) (setting : Setting)
    (mesh : MeshState) : Event → Prop
  | .accept name statement =>
    ∀ table rowId change, setting.schema name = some table →
      statement = .update rowId change → KeepsKey table change
  | .write _ _ =>
    ∀ write roster, mesh.writer = .routing write roster →
      OwnerPresent mesh write.table write.rowId roster ∧
        (mesh.placement write.table write.rowId = none →
          ∀ npub, Stores setting mesh npub write.table write.rowId →
            pickName write.rowId roster = some npub)
  | .tick _ =>
    (∀ roster op rest, mesh.tick = .ready roster (op :: rest) →
      OwnerPresent mesh op.table op.rowId roster ∧
        ∀ write owner, mesh.writer = .enqueued write owner →
          write.table = op.table → write.rowId = op.rowId → pickName op.rowId roster = some owner ∨
              mesh.placement op.table op.rowId ≠ none) ∧
    ∀ roster op owner rest, mesh.tick = .targeted roster op owner rest →
      Arrives Free setting mesh op owner
  | .refresh _ => True

theorem ownerOf_congr (home : next.placement = mesh.placement) (writer : ∀ name rowId,
      announced next.writer name rowId = announced mesh.writer name rowId)
    (name rowId : String) :
    ownerOf next name rowId = ownerOf mesh name rowId := by
  simp [ownerOf, home, writer]

/-- Recording the owner that a row has changes no owner. -/
theorem ownerOf_recorded (owns : ownerOf mesh name rowId = some owner)
    (home : next.placement = (mesh.upsertPlacement name rowId [owner] state).placement)
    (writer : ∀ other otherId, ¬ (other = name ∧ otherId = rowId) →
      announced next.writer other otherId =
      announced mesh.writer other otherId) (other otherId : String) :
    ownerOf next other otherId = ownerOf mesh other otherId := by
  by_cases row : other = name ∧ otherId = rowId
  · rcases row with ⟨rfl, rfl⟩
    rw [owns]
    simp [ownerOf, home, MeshState.upsertPlacement]
  · simp [ownerOf, home, MeshState.upsertPlacement, row, writer]

theorem selectOwner_nil (rowId : String) (roster : List String) :
    selectOwner rowId roster [] = pickName rowId roster :=
  rfl

/-! ## Payloads that stay on their row -/

/-- The effect of the payload stays on the row id. -/
def OnRow (setting : Setting) (name rowId : String) : Payload → Prop
  | .image row _ _ =>
    ∀ table, setting.schema name = some table → table.rowId row = some rowId
  | .update change _ =>
    ∀ table, setting.schema name = some table → KeepsKey table change
  | .delete _ _ => True

/-- What arrives with its key stays on the row id. -/
theorem OnRow.received (onRow : OnRow setting name rowId payload)
    (keyed : ∀ table row conflict predicate, setting.schema name = some table →
      payload = .image row conflict predicate →
        table.rowId (setting.receive name row) = table.rowId row) :
    OnRow setting name rowId (payload.received (setting.receive name)) := by
  cases payload with
  | image row conflict predicate =>
    intro table known
    rw [keyed table row conflict predicate known rfl]
    exact onRow table known
  | update | delete => exact onRow

/-- The agent's conflict clause keeps an old row or takes the image. -/
theorem imageClause_action (table : TableDef) (clash : List String) (pred : Option IndexPredicate) :
    (imageClause table clash pred).action = .doNothing ∨
      (imageClause table clash pred).action = .doUpdate fun _ image => image := by
  simp only [imageClause]
  split
  · exact .inr rfl
  · split
    · exact .inr rfl
    · exact .inl rfl

theorem mem_of_applyImage {table : TableDef} {rows next : Content} {image row : Row}
    {clash : List String} {pred : Option IndexPredicate}
    (done : applyImage table rows image clash pred = some next) (mem : row ∈ next) :
    row ∈ rows ∨ row = image := by
  simp only [applyImage] at done
  split at done
  · cases done
  · split at done
    · cases done
    · cases out : insertRow table rows image (some (imageClause table clash pred)) with
      | added =>
        rw [out] at done
        cases done
        simpa using mem
      | skipped =>
        rw [out] at done
        cases done
        exact .inl mem
      | merged merged ran =>
        rw [out] at done
        cases done
        rcases insertRow_eq_merged out with ⟨part, merge, old, given, act, _, img, rfl, _⟩
        cases given
        rcases imageClause_action table clash pred with keeps | takes
        · rw [keeps] at act
          cases act
        · rw [takes] at act
          cases act
          subst img
          exact mem_replaceRow mem
      | rejected msg =>
        rw [out] at done
        cases done

/-- An operation brings no row id but its own to a provider. -/
theorem rowId_of_applyPayload {table : TableDef} {id : String}
    {rows next : Content} {payload : Payload} {row : Row} (known : setting.schema name = some table)
    (onRow : OnRow setting name rowId payload)
    (done : applyPayload setting.denotes table rows rowId payload =
      some next) (mem : row ∈ next) (keyed : table.rowId row = some id) :
    id = rowId ∨ ∃ old ∈ rows, table.rowId old = some id := by
  cases payload with
  | image image clash pred =>
    rcases mem_of_applyImage done mem with old | rfl
    · exact .inr ⟨row, old, keyed⟩
    · have imageId := onRow table known
      rw [keyed] at imageId
      exact .inl (Option.some.inj imageId)
  | update edit clash =>
    right
    simp only [applyPayload, updateRows] at done
    split at done
    · cases done
      rcases mem_map.mp mem with ⟨old, inBody, rfl⟩
      refine ⟨old, inBody, ?_⟩
      split at keyed
      · rename_i sel
        rw [← keyed]
        exact (onRow table known old sel).symm
      · exact keyed
    · cases done
  | delete removal clash =>
    right
    simp only [applyPayload] at done
    split at done
    · cases done
      exact ⟨row, (mem_filter.mp mem).1, keyed⟩
    · cases done

/-! ## The invariant -/

/-- The statement under the write lock agrees with the owner of its row. -/
def WriterOwned (setting : Setting) (mesh : MeshState) : Writer → Prop
  | .idle => True
  | .captured write | .routing write _ => OnRow setting write.table write.rowId write.payload
  | .routed write owner =>
    OnRow setting write.table write.rowId write.payload ∧
      ∀ other, ownerOf mesh write.table write.rowId = some other → other = owner
  | .enqueued write owner =>
    ownerOf mesh write.table write.rowId = some owner

/-- The tick sends its operation to the owner of the row. -/
def TickOwned (mesh : MeshState) : Tick → Prop
  | .targeted _ op owner _ | .acked _ op owner _ => ownerOf mesh op.table op.rowId = some owner
  | _ => True

/-- What is in flight belongs to the owner of its row, whatever is stored. -/
structure Homed (setting : Setting) (mesh : MeshState) : Prop where
  wellFormed : WellFormed mesh
  single : ∀ name rowId replicas state, mesh.placement name rowId = some (replicas, state) →
      ∃ owner, replicas = [owner]
  buffered : ∀ op ∈ mesh.buffer, ownerOf mesh op.table op.rowId ≠ none
  onRow : ∀ op ∈ mesh.buffer, OnRow setting op.table op.rowId op.payload
  writing : WriterOwned setting mesh mesh.writer
  ticking : TickOwned mesh mesh.tick

/-- A stored row is with its owner, or free where it is and not routed elsewhere. -/
structure Owned (Free : MeshState → String → String → String → Prop) (setting : Setting)
    (mesh : MeshState) : Prop where
  homed : Homed setting mesh
  stored : ∀ npub name rowId, Stores setting mesh npub name rowId →
    ownerOf mesh name rowId = some npub ∨
      (ownerOf mesh name rowId = none ∧ Free mesh npub name rowId)
  routed : ∀ write owner, mesh.writer = .routed write owner →
    ∀ npub, Stores setting mesh npub write.table write.rowId → npub = owner

theorem Owned.storedOnce (owned : Owned (Alone setting) setting mesh) :
    StoredOnce setting mesh := by
  intro name rowId first second firstStores secondStores
  rcases owned.stored first name rowId firstStores with firstOwns | ⟨free, alone⟩
  · rcases owned.stored second name rowId secondStores with secondOwns | ⟨free, -⟩
    · exact Option.some.inj (firstOwns.symm.trans secondOwns)
    · cases firstOwns.symm.trans free
  · exact (alone second secondStores).symm

section

variable (homed : Homed setting mesh)
include homed

/-- The owner that is selected while a recorded one is present. -/
theorem Homed.selected_of_placed (here : OwnerPresent mesh name rowId roster)
    (isPlaced : mesh.placement name rowId ≠ none) (owns : ownerOf mesh name rowId = some owner)
    (sel : selectOwner rowId roster (mesh.recorded name rowId) = some selected) :
    selected = owner := by
  cases home : mesh.placement name rowId with
  | none => exact absurd home isPlaced
  | some entry =>
    rcases entry with ⟨copies, s⟩
    rcases homed.single _ _ _ _ home with ⟨single, rfl⟩
    rcases here _ _ home with ⟨copy, mem, onRoster⟩
    cases mem_singleton.mp mem
    simp only [ownerOf, home, head?_cons, Option.some.injEq] at owns
    simp only [MeshState.recorded, home, selectOwner_singleton onRoster, Option.some.injEq] at sel
    exact sel.symm.trans owns

/-- A step that changes no owner. -/
theorem Homed.frame (wf : WellFormed next)
    (owners : ∀ name rowId, ownerOf next name rowId = ownerOf mesh name rowId)
    (single : ∀ name rowId replicas state, next.placement name rowId = some (replicas, state) →
      ∃ owner, replicas = [owner]) (buf : next.buffer ⊆ mesh.buffer)
    (busy : WriterOwned setting next next.writer)
    (tick : TickOwned next next.tick) :
    Homed setting next := by
  constructor
  · exact wf
  · exact single
  · intro op mem
    rw [owners]
    exact homed.buffered op (buf mem)
  · intro op mem
    exact homed.onRow op (buf mem)
  · exact busy
  · exact tick

end

theorem WriterOwned.congr (owned : WriterOwned setting mesh writer)
    (owners : ∀ name rowId, ownerOf next name rowId = ownerOf mesh name rowId) :
    WriterOwned setting next writer := by
  cases writer with
  | routed write owner | enqueued write owner =>
    simpa [WriterOwned, owners] using owned
  | _ => exact owned

theorem TickOwned.congr (owned : TickOwned mesh tick)
    (owners : ∀ name rowId, ownerOf next name rowId = ownerOf mesh name rowId) :
    TickOwned next tick := by
  cases tick with
  | targeted roster op owner rest | acked roster op owner rest =>
    simpa [TickOwned, owners] using owned
  | _ => exact owned

/-- An admitted statement stays on its row. -/
theorem onRow_of_executeSqlBound
    (keepsKey : ∀ table rowId change, setting.schema name = some table →
      stmt = .update rowId change → KeepsKey table change)
    (res : executeSqlBound setting mesh name stmt = .going central write) :
    OnRow setting write.table write.rowId write.payload := by
  have ok := admitted_executeSqlBound setting mesh name stmt
  rw [res] at ok
  cases ok with
  | added known out keyed | merged known out keyed =>
    intro table here
    rw [known] at here
    cases here
    exact keyed
  | update known =>
    intro table here
    exact keepsKey table _ _ here rfl
  | delete known => trivial

/-- Whoever owns a row still owns it when a statement is enqueued. -/
theorem ownerOf_enqueue (lock : mesh.writer = .routed write owner)
    (owns : ownerOf mesh name rowId = some provider) :
    ownerOf (mesh.enqueue setting write owner opId createdAt) name rowId = some provider := by
  cases home : mesh.placement name rowId with
  | none => simp [ownerOf, home, lock, announced] at owns
  | some entry =>
    simp only [ownerOf, home] at owns
    simpa [ownerOf, MeshState.enqueue, home] using owns

section

variable (homed : Homed setting mesh)
include homed

/-- The enqueued statement announces the owner of its row. -/
theorem Homed.enqueue (lock : mesh.writer = .routed write owner) (fresh : opId ∉ mesh.issued) :
    Homed setting (mesh.enqueue setting write owner opId born) := by
  have busy := homed.writing
  rw [lock] at busy
  rcases busy with ⟨onRow, same⟩
  have announces : ownerOf (mesh.enqueue setting write owner opId born)
      write.table write.rowId = some owner := by
    cases home : mesh.placement write.table write.rowId with
    | none => simp [ownerOf, MeshState.enqueue, home, announced]
    | some entry =>
      rcases entry with ⟨copies, s⟩
      rcases homed.single _ _ _ _ home with ⟨single, rfl⟩
      have eq := same single (by simp [ownerOf, home])
      simp [ownerOf, MeshState.enqueue, home, eq]
  have keeps : ∀ {name rowId provider : String}, ownerOf mesh name rowId = some provider →
        ownerOf (mesh.enqueue setting write owner opId born) name rowId = some provider :=
    fun owns => ownerOf_enqueue lock owns
  constructor
  · exact homed.wellFormed.enqueue fresh
  · exact homed.single
  · intro op mem
    rcases mem_append.mp mem with old | new
    · rcases Option.ne_none_iff_exists'.mp (homed.buffered op old) with ⟨provider, owns⟩
      rw [keeps owns]
      exact Option.some_ne_none _
    · cases mem_singleton.mp new
      simp only [MeshState.opOf, announces]
      exact Option.some_ne_none _
  · intro op mem
    rcases mem_append.mp mem with old | new
    · exact homed.onRow op old
    · cases mem_singleton.mp new
      exact onRow
  · exact announces
  · have tick := homed.ticking
    cases phase : mesh.tick with
    | targeted roster op target rest | acked roster op target rest =>
      rw [phase] at tick
      simp only [MeshState.enqueue, phase]
      exact keeps tick
    | _ =>
      simp only [MeshState.enqueue, phase]
      trivial

/-- The dispatcher selects the owner of the row. -/
theorem Homed.target (ok : KeepsOwner Free setting mesh (.tick delivery))
    (phase : mesh.tick = .ready roster (op :: rest))
    (sel : selectOwner op.rowId roster (mesh.recorded op.table op.rowId) = some selected) :
    ownerOf mesh op.table op.rowId = some selected := by
  rcases ok.1 _ _ _ phase with ⟨here, firstWrite⟩
  have inBuf : op ∈ mesh.buffer := by
    apply homed.wellFormed.inBuffer
    rw [phase]
    exact mem_cons_self
  rcases Option.ne_none_iff_exists'.mp (homed.buffered op inBuf) with ⟨owner, owns⟩
  rw [owns]
  by_cases isPlaced : mesh.placement op.table op.rowId = none
  · simp only [ownerOf, isPlaced, announced] at owns
    split at owns
    · rename_i write target lock
      split at owns
      · rename_i eqRow
        cases owns
        rcases firstWrite write owner lock eqRow.1 eqRow.2 with picked | placed
        · simp only [MeshState.recorded, isPlaced, selectOwner_nil, picked] at sel
          exact sel
        · exact absurd isPlaced placed
      · cases owns
    · cases owns
  · rw [homed.selected_of_placed here isPlaced owns sel]

/-- A step that leaves placements alone. -/
theorem Homed.keep (wf : WellFormed next)
    (home : next.placement = mesh.placement) (announces : ∀ name rowId,
      announced next.writer name rowId = announced mesh.writer name rowId)
    (buf : next.buffer ⊆ mesh.buffer)
    (busy : WriterOwned setting mesh next.writer)
    (tick : TickOwned mesh next.tick) :
    Homed setting next := by
  have owners := ownerOf_congr home announces
  apply homed.frame wf owners
  · rw [home]
    exact homed.single
  · exact buf
  · exact busy.congr owners
  · exact tick.congr owners

/-- A step that records the owner of a row. -/
theorem Homed.record (owns : ownerOf mesh name rowId = some owner)
    (wf : WellFormed next) (home : next.placement =
      (mesh.upsertPlacement name rowId [owner] state).placement)
    (announces : ∀ other oid, ¬ (other = name ∧ oid = rowId) →
      announced next.writer other oid = announced mesh.writer other oid)
    (buf : next.buffer = mesh.buffer) (busy : WriterOwned setting mesh next.writer)
    (tick : TickOwned mesh next.tick) :
    Homed setting next := by
  have owners := ownerOf_recorded owns home announces
  apply homed.frame wf owners
  · intro other oid copies entry noted
    simp only [home, MeshState.upsertPlacement] at noted
    split at noted
    · cases noted
      exact ⟨owner, rfl⟩
    · exact homed.single _ _ _ _ noted
  · rw [buf]
    exact List.Subset.refl _
  · exact busy.congr owners
  · exact tick.congr owners

/-- The owner that a statement is routed to is the owner of its row. -/
theorem Homed.route (lock : mesh.writer = .routing write roster)
    (here : OwnerPresent mesh write.table write.rowId roster)
    (sel : selectOwner write.rowId roster (mesh.recorded write.table write.rowId) = some selected) :
    WriterOwned setting mesh (.routed write selected) := by
  have busy := homed.writing
  rw [lock] at busy
  refine ⟨busy, ?_⟩
  intro other owns
  have isPlaced : mesh.placement write.table write.rowId ≠ none := by
    intro unplaced
    simp [ownerOf, unplaced, lock, announced] at owns
  exact (homed.selected_of_placed here isPlaced owns sel).symm

end

/-- The announced owner of a row is recorded. -/
theorem announced_recorded (lock : mesh.writer = .enqueued write owner) (name rowId : String)
    (away : ¬ (name = write.table ∧ rowId = write.rowId)) :
    announced .idle name rowId = announced mesh.writer name rowId := by
  simp only [announced, lock]
  rw [if_neg]
  rintro ⟨rfl, rfl⟩
  exact away ⟨rfl, rfl⟩

section

variable (homed : Homed setting mesh)
include homed

/-- An admitted step keeps what is in flight with its owner. -/
theorem Homed.step (ok : KeepsOwner Free setting mesh event)
    (ran : step setting mesh event = some next) :
    Homed setting next := by
  have wf := homed.wellFormed.step ran
  have busy := homed.writing
  have tick := homed.ticking
  have eq := List.Subset.refl mesh.buffer
  cases moves_of_step ran with
  | refused lock res | resting phase => exact homed
  | going lock res =>
    exact homed.keep wf rfl (by simp [announced, lock]) eq (onRow_of_executeSqlBound ok res) tick
  | routing lock =>
    rw [lock] at busy
    exact homed.keep wf rfl (by simp [announced, lock]) eq busy tick
  | routed lock sel =>
    exact homed.keep wf rfl (by simp [announced, lock]) eq
      (homed.route lock (ok _ _ lock).1 sel) tick
  | abandoned lock sel =>
    exact homed.keep wf rfl (by simp [announced, lock]) eq
      trivial tick
  | enqueued lock new => exact homed.enqueue lock new
  | recorded lock =>
    rw [lock] at busy
    exact homed.record busy wf rfl (announced_recorded lock) rfl
      trivial tick
  | loaded phase | flushed phase =>
    exact homed.keep wf rfl (fun _ _ => rfl) (filter_subset_self _) busy trivial
  | targeted phase sel =>
    exact homed.keep wf rfl (fun _ _ => rfl) eq busy (homed.target ok phase sel)
  | acknowledged phase done =>
    rw [phase] at tick
    exact homed.keep wf rfl (fun _ _ => rfl) eq busy tick
  | unheard phase done | started phase manned | finished phase
  | unrouted phase sel | failed phase fail =>
    exact homed.keep wf rfl (fun _ _ => rfl) eq busy trivial
  | placed phase =>
    rw [phase] at tick
    exact homed.record tick wf rfl (fun _ _ _ => rfl) rfl busy
      trivial
  | _ => exact homed.keep wf rfl (fun _ _ => rfl) eq busy tick

/-! ## What steps do to owners and stored rows -/

/-- The owner of a row stays its owner; only an enqueued write adds one. -/
theorem ownerOf_step (ran : step setting mesh event = some next) (name rowId : String) :
    ownerOf next name rowId = ownerOf mesh name rowId ∨
      (ownerOf mesh name rowId = none ∧ ∃ write owner,
      mesh.writer = .routed write owner ∧ write.table = name ∧
      write.rowId = rowId ∧ ownerOf next name rowId = some owner) := by
  have busy := homed.writing
  have tick := homed.ticking
  cases moves_of_step ran with
  | @enqueued opId born write owner lock new =>
    cases pre : ownerOf mesh name rowId with
    | some host => exact .inl (ownerOf_enqueue lock pre)
    | none =>
      by_cases row : write.table = name ∧ write.rowId = rowId
      · rcases row with ⟨rfl, rfl⟩
        exact .inr ⟨rfl, write, owner, lock, rfl, rfl, (homed.enqueue lock new).writing⟩
      · left
        cases home : mesh.placement name rowId with
        | none =>
          simp [ownerOf, MeshState.enqueue, home, announced, row]
        | some entry =>
          simp only [ownerOf, home] at pre
          simpa [ownerOf, MeshState.enqueue, home] using pre
  | @recorded _ _ write owner lock =>
    left
    rw [lock] at busy
    have recorded : ∀ next : MeshState,
        next.placement = (mesh.upsertPlacement write.table write.rowId
          [owner] .pending).placement → next.writer = .idle →
        ownerOf next name rowId = ownerOf mesh name rowId := by
      intro next home unlocked
      refine ownerOf_recorded busy home ?_ name rowId
      rw [unlocked]
      exact announced_recorded lock
    exact recorded _ rfl rfl
  | @placed _ roster op owner rest phase =>
    left
    rw [phase] at tick
    have recorded : ∀ next : MeshState,
        next.placement = (mesh.upsertPlacement op.table op.rowId
          [owner] .active).placement → next.writer = mesh.writer →
        ownerOf next name rowId = ownerOf mesh name rowId := by
      intro next home sameWriter
      refine ownerOf_recorded tick home ?_ name rowId
      rw [sameWriter]
      exact fun _ _ _ => rfl
    exact recorded _ rfl rfl
  | going lock verdict | routing lock | routed lock sel
  | abandoned lock sel =>
    left
    simp [ownerOf, announced, lock]
  | _ => exact .inl rfl

/-- A provider that executes an operation stores only new rows that belong there. -/
theorem stores_of_executed (phase : mesh.tick = .targeted roster op owner rest)
    (arrives : Arrives Free setting mesh op owner)
    (done : applyOn setting mesh op owner = some provider)
    (hosts : next.providers = (mesh.executed op owner provider).providers)
    (puts : Stores setting next holder name rowId) :
    Stores setting mesh holder name rowId ∨
      (holder = owner ∧ Belongs Free mesh holder name rowId) := by
  have inBuf : op ∈ mesh.buffer := by
    apply homed.wellFormed.inBuffer
    rw [phase]
    exact mem_cons_self
  have owns := homed.ticking
  rw [phase] at owns
  rw [Stores, hosts] at puts
  by_cases away : holder = owner
  · subst away
    simp only [MeshState.executed, Function.update_self] at puts
    simp only [applyOn] at done
    split at done
    · cases done
    · rename_i table registered
      rcases Provider.apply_cases done with ⟨_, rfl⟩ | ⟨new, written, effect, rfl⟩
      · exact .inl puts
      · by_cases before : Holds setting written name rowId
        · obtain ⟨rows, applies, rfl⟩ := Option.map_eq_some_iff.mp effect
          obtain ⟨rowTable, row, known, mem, keyed⟩ := before
          by_cases here : name = op.table
          · subst here
            cases registered.symm.trans known
            rw [Function.update_self] at mem
            rcases rowId_of_applyPayload known ((homed.onRow op inBuf).received arrives.1)
              applies mem keyed with rfl | ⟨old, oldIn, oldKeyed⟩
            · exact .inr ⟨rfl, .inl owns⟩
            · exact .inl ⟨table, old, known, oldIn, oldKeyed⟩
          · rw [Function.update_of_ne here] at mem
            exact .inl ⟨rowTable, row, known, mem, keyed⟩
        · exact .inr ⟨rfl, arrives.2 table written name rowId registered new effect ⟨before, puts⟩⟩
  · simp only [MeshState.executed, Function.update_of_ne away] at puts
    exact .inl puts

/-- A step stores only new rows that belong where they are, all on one provider. -/
theorem stores_of_step (ok : KeepsOwner Free setting mesh event)
    (ran : step setting mesh event = some next) :
    ∃ owner, ∀ holder name rowId, Stores setting next holder name rowId →
      Stores setting mesh holder name rowId ∨
        (holder = owner ∧ Belongs Free mesh holder name rowId) := by
  cases moves_of_step ran with
  | @acknowledged _ _ owner _ _ phase done | @unheard _ _ owner _ _ phase done =>
    exact ⟨owner, fun holder name rowId puts =>
      stores_of_executed homed phase (ok.2 _ _ _ _ phase) done rfl puts⟩
  | _ => exact ⟨"", fun _ _ _ puts => .inl puts⟩

end

theorem placement_of_unowned (homed : Homed setting mesh) (free : ownerOf mesh name rowId = none) :
    mesh.placement name rowId = none := by
  cases home : mesh.placement name rowId with
  | none => rfl
  | some entry =>
    rcases entry with ⟨copies, state⟩
    obtain ⟨owner, rfl⟩ := homed.single _ _ _ _ home
    simp [ownerOf, home] at free

/-- The row that a statement is routed for is on the chosen provider only. -/
theorem routed_of_routing (owned : Owned Free setting mesh)
    (lock : mesh.writer = .routing write roster)
    (here : OwnerPresent mesh write.table write.rowId roster)
    (picks : mesh.placement write.table write.rowId = none →
      ∀ npub, Stores setting mesh npub write.table write.rowId →
      pickName write.rowId roster = some npub) (sel : selectOwner write.rowId roster
      (mesh.recorded write.table write.rowId) = some owner) {npub : String}
    (puts : Stores setting mesh npub write.table write.rowId) :
    npub = owner := by
  have route := (owned.homed.route lock here sel).2
  rcases owned.stored npub _ _ puts with owns | ⟨free, -⟩
  · exact route npub owns
  · have unplaced := placement_of_unowned owned.homed free
    have pick := picks unplaced npub puts
    simp only [MeshState.recorded, unplaced, selectOwner_nil, pick] at sel
    exact Option.some.inj sel

/-- A statement is routed in this step or was routed before. -/
theorem writer_of_step (ran : step setting mesh event = some next)
    (lock : next.writer = .routed write owner) :
    mesh.writer = .routed write owner ∨ ∃ opId born roster, event = .write opId born ∧
      mesh.writer = .routing write roster ∧
      selectOwner write.rowId roster (mesh.recorded write.table write.rowId) = some owner ∧
      next.providers = mesh.providers := by
  cases moves_of_step ran with
  | @routed opId born routedWrite roster routedOwner pre sel =>
    cases lock
    exact .inr ⟨opId, born, roster, rfl, pre, sel, rfl⟩
  | refused | nothing | unkeyed | resting | refreshed | started | loaded
  | finished | targeted | unrouted | acknowledged | unheard | failed | placed
  | flushed => exact .inl lock
  | _ => cases lock

/-- An admitted step keeps every row with its owner, if free rows stay free. -/
theorem Owned.step (owned : Owned Free setting mesh) (ok : KeepsOwner Free setting mesh event)
    (stays : ∀ npub name rowId, Stores setting next npub name rowId →
      ownerOf mesh name rowId = none → Free mesh npub name rowId → Free next npub name rowId)
    (ran : step setting mesh event = some next) :
    Owned Free setting next := by
  obtain ⟨target, new⟩ := stores_of_step owned.homed ok ran
  refine ⟨owned.homed.step ok ran, fun npub name rowId puts => ?_,
    fun write owner lock npub puts => ?_⟩
  · have belongs : ownerOf mesh name rowId = some npub ∨ (ownerOf mesh name rowId = none ∧
        Free mesh npub name rowId ∧ ∀ write owner, mesh.writer = .routed write owner →
          write.table = name → write.rowId = rowId → npub = owner) := by
      rcases new npub name rowId puts with old | ⟨-, belongs⟩
      · refine (owned.stored npub name rowId old).imp id fun ⟨free, may⟩ => ⟨free, may, ?_⟩
        rintro write owner lock rfl rfl
        exact owned.routed write owner lock npub old
      · exact belongs
    rcases belongs with owns | ⟨free, may, way⟩
    · rcases ownerOf_step owned.homed ran name rowId with same | ⟨unowned, -⟩
      · exact .inl (same.trans owns)
      · cases owns.symm.trans unowned
    · rcases ownerOf_step owned.homed ran name rowId with
        same | ⟨-, write, owner, lock, rfl, rfl, owns⟩
      · exact .inr ⟨same.trans free, stays npub name rowId puts free may⟩
      · rw [way write owner lock rfl rfl]
        exact .inl owns
  · rcases writer_of_step ran lock with before | ⟨opId, born, roster, rfl, routing, sel, same⟩
    · rcases new npub write.table write.rowId puts with old | ⟨-, owns | ⟨-, -, way⟩⟩
      · exact owned.routed write owner before npub old
      · have busy := owned.homed.writing
        rw [before] at busy
        exact busy.2 npub owns
      · exact way write owner before rfl rfl
    · have old : Stores setting mesh npub write.table write.rowId := by
        simpa [Stores, same] using puts
      obtain ⟨here, picks⟩ := ok write roster routing
      exact routed_of_routing owned routing here picks sel old

/-- A row that no other provider has stays alone. -/
theorem Owned.stays_alone (owned : Owned (Alone setting) setting mesh)
    (ok : KeepsOwner (Alone setting) setting mesh event)
    (ran : Gateway.step setting mesh event = some next) {npub : String}
    (puts : Stores setting next npub name rowId) (free : ownerOf mesh name rowId = none)
    (alone : Alone setting mesh npub name rowId) : Alone setting next npub name rowId := by
  obtain ⟨target, new⟩ := stores_of_step owned.homed ok ran
  intro other otherPuts
  rcases new other name rowId otherPuts with old | ⟨isTarget, owns | ⟨-, otherAlone, -⟩⟩
  · exact alone other old
  · cases free.symm.trans owns
  · rcases new npub name rowId puts with old | ⟨same, -⟩
    · exact (otherAlone npub old).symm
    · exact isTarget.trans same.symm

/-! ## Runs -/

/-- Nothing is under way, and what is stored is recorded where it is. -/
structure Settled (setting : Setting) (mesh : MeshState) : Prop where
  quiet : Quiet mesh
  unlocked : mesh.writer = .idle
  recorded : ∀ provider name rowId, Stores setting mesh provider name rowId →
      ∃ state, mesh.placement name rowId = some ([provider], state)
  single : ∀ name rowId replicas state, mesh.placement name rowId = some (replicas, state) →
      ∃ owner, replicas = [owner]

theorem Settled.owned (done : Settled setting mesh) : Owned Free setting mesh := by
  refine ⟨⟨done.quiet.wellFormed, done.single, ?_, ?_, ?_, ?_⟩, ?_, ?_⟩
  · simp [done.quiet.flushed]
  · simp [done.quiet.flushed]
  · rw [done.unlocked]
    trivial
  · rw [done.quiet.resting]
    trivial
  · intro npub name rowId puts
    rcases done.recorded npub name rowId puts with ⟨state, put⟩
    exact .inl (by simp [ownerOf, put])
  · intro write owner lock
    cases done.unlocked.symm.trans lock

/--
In a run whose steps choose no second owner, no row is stored on two
providers, those off the roster included.
-/
theorem stable_run_stores_once {setting : Setting} {initial final : MeshState} {events : List Event}
    (settled : Settled setting initial)
    (run : GuardedRun (step setting) (KeepsOwner (Alone setting) setting) initial events final) :
    StoredOnce setting final := by
  have path : Owned (Alone setting) setting final := run.invariant
    (fun _ _ _ owned ok ran => owned.step ok (fun _ _ _ puts free alone =>
      owned.stays_alone ok ran puts free alone) ran) settled.owned
  exact path.storedOnce

theorem settled_empty (setting : Setting) (roster : List String) :
    Settled setting (.empty roster) := by
  constructor
  · exact ⟨rfl, rfl⟩
  · rfl
  · rintro host name rowId ⟨table, row, known, mem, keyed⟩
    cases mem
  · intro name rowId copies s put
    cases put

/-- An INSERT whose first delivery is not heard of, a new roster, a retry. -/
def retriedNote (roster : List String) : List Event :=
  noteEvents (.insert (note "a" "text") none) "01" 1 ++
    [.tick .answered, .tick .answered, .tick .answered, .tick .responseLost,
      .tick .answered, .refresh roster,
      .tick .answered, .tick .answered, .tick .answered, .tick .answered]

/-- Among the notes, operations arrive as they are sent and fire nothing. -/
theorem notes_arrive : Arrives Free notesSetting mesh op owner :=
  ⟨fun _ _ _ _ _ _ => rfl, fun _ _ _ _ _ _ _ fires => absurd fires.2 fires.1⟩

theorem keepsOwner_tick (ready : ∀ roster op rest, mesh.tick = .ready roster (op :: rest) →
      OwnerPresent mesh op.table op.rowId roster ∧
        ∀ write owner, mesh.writer = .enqueued write owner →
          write.table = op.table → write.rowId = op.rowId → pickName op.rowId roster = some owner ∨
              mesh.placement op.table op.rowId ≠ none) :
    KeepsOwner Free notesSetting mesh (.tick delivery) :=
  ⟨ready, fun _ _ _ _ _ => notes_arrive⟩

/-- Another provider joins between the two deliveries. -/
theorem stable_run_stores_once_joined :
    ∃ final, replay (step notesSetting) (.empty ["p1"])
      (retriedNote ["p1", "p2"]) = some final ∧
      final.roster = ["p1", "p2"] ∧
      Stores notesSetting final "p1" "notes" "a" ∧
      StoredOnce notesSetting final := by
  refine ⟨_, rfl, rfl, ⟨notesTable, note "a" "text", rfl, mem_singleton_self _, rfl⟩, ?_⟩
  have run : GuardedRun (step notesSetting) (KeepsOwner (Alone notesSetting) notesSetting)
      (.empty ["p1"]) (retriedNote ["p1", "p2"]) _ :=
    .move (fun _ _ _ _ => nofun) rfl <|
    .move (fun _ _ => nofun) rfl <|
    .move (by
        rintro _ _ ⟨⟩
        refine ⟨nofun, ?_⟩
        rintro - npub ⟨table, row, known, mem, keyed⟩
        cases mem) rfl <|
    .move (fun _ _ => nofun) rfl <|
    .move (fun _ _ => nofun) rfl <|
    .move (keepsOwner_tick fun _ _ _ => nofun) rfl <|
    .move (keepsOwner_tick fun _ _ _ => nofun) rfl <|
    .move (by
        refine keepsOwner_tick ?_
        rintro _ _ _ ⟨⟩
        refine ⟨?_, fun _ _ => nofun⟩
        rintro _ _ ⟨⟩
        exact ⟨"p1", by decide, by decide⟩) rfl <|
    .move (keepsOwner_tick fun _ _ _ => nofun) rfl <|
    .move (keepsOwner_tick fun _ _ _ => nofun) rfl <|
    .move trivial rfl <|
    .move (keepsOwner_tick fun _ _ _ => nofun) rfl <|
    .move (keepsOwner_tick fun _ _ _ => nofun) rfl <|
    .move (by
        refine keepsOwner_tick ?_
        rintro _ _ _ ⟨⟩
        refine ⟨?_, fun _ _ => nofun⟩
        rintro _ _ ⟨⟩
        exact ⟨"p1", by decide, by decide⟩) rfl <|
    .move (keepsOwner_tick fun _ _ _ => nofun) rfl (.done _)
  exact stable_run_stores_once (settled_empty _ _) run

/--
The owner takes the row, its answer is lost and it leaves the roster; the
retry stores the row on another provider.
-/
theorem departed_owner_keeps_copy :
    ∃ final, replay (step notesSetting) (.empty ["p1"])
      (retriedNote ["p2"]) = some final ∧
      ¬ StoredOnce notesSetting final := by
  refine ⟨_, rfl, ?_⟩
  intro once
  have eq : "p1" = "p2" := once "notes" "a" "p1" "p2"
    ⟨notesTable, note "a" "text", rfl, mem_singleton_self _, rfl⟩
    ⟨notesTable, note "a" "text", rfl, mem_singleton_self _, rfl⟩
  revert eq
  decide

end StorageOrchestrator.Mesh.Ownership
