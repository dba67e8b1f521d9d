import StorageOrchestrator.Mesh.Reads

/-!
# Reads against serial execution

A read should show for a row what serial execution of the accepted statements
gives it, wherever the dispatcher stands.  A row whose latest operation is a
buffered DELETE is still served from its provider
(`pending_delete_is_not_seen`), and one with a buffered UPDATE is served as
the text of the statement.

A row without buffered operations, or with a buffered INSERT as the latest
one, is shown as serial execution has it (`faithful_run_reads_serial`).
-/

namespace StorageOrchestrator.Mesh.ReadSerial

open Lib.FirstPerKey Lib.Placement Lib.Transition Mesh.Value Mesh.Table Mesh.Agent Mesh.Gateway
  Mesh.Buffer Mesh.Locality Mesh.Routing Mesh.Simulation Mesh.Reads List

variable {due : String × WireRow} {row : Row} {rowId : String} {table : TableDef}
  {selects : Row → Bool}

/-! ## Pending rows -/

section

theorem latestOps_eq (keyed : (ofTable name mesh.buffer).Pairwise fun early later =>
      ¬ later.notAfter early) :
    latestOps mesh name = firstPerKey WriteOp.rowId (ofTable name mesh.buffer).reverse := by
  have ascending : (ofTable name mesh.buffer).Pairwise fun left right =>
      left.notAfter right :=
    keyed.imp fun {early later} strictly =>
      (notAfter_total early later).resolve_right strictly
  rw [latestOps, ascending.insertionSort_eq]

/-- The pending entries of a row are the JSON of its latest operation. -/
theorem filter_pendingRows (keyed : (ofTable name mesh.buffer).Pairwise fun early later =>
      ¬ later.notAfter early) :
    (pendingRows mesh name).filter (fun due => due.1 = rowId) =
      (latestOn mesh name rowId).toList.filterMap fun op =>
      (pendingRow op.payload).map fun row => (op.rowId, row) := by
  rw [latestOn, ← filter_firstPerKey, ← latestOps_eq keyed, pendingRows,
    filter_filterMap, filterMap_filter]
  apply filterMap_congr
  intro op member
  by_cases eqRow : op.rowId = rowId <;> cases pendingRow op.payload <;> simp [eqRow]

theorem mem_pendingRows (member : due ∈ pendingRows mesh name) :
    ∃ op ∈ ofTable name mesh.buffer, op.rowId = due.1 ∧ pendingRow op.payload = some due.2 := by
  rcases mem_filterMap.mp member with ⟨op, last, entry⟩
  rcases Option.map_eq_some_iff.mp entry with ⟨row, isRow, rfl⟩
  refine ⟨op, ?_, rfl, isRow⟩
  have has := firstPerKey_subset _ _ last
  exact (mem_insertionSort _).mp (mem_reverse.mp has)

/-- Without an operation on the row there is no pending entry for it. -/
theorem pendingRows_of_latestOn_none (same : latestOn mesh name rowId = none)
    (member : due ∈ pendingRows mesh name) :
    due.1 ≠ rowId := by
  rcases mem_pendingRows member with ⟨op, inBuf, eqRow, _⟩
  intro isRow
  have notFound := find?_eq_none.mp same op (mem_reverse.mpr inBuf)
  simp [eqRow, isRow] at notFound

/-- The latest operation on a row, with none on the row after it. -/
theorem exists_split_of_latestOn (last : latestOn mesh name rowId = some op) :
    op.rowId = rowId ∧ ∃ front back, ofTable name mesh.buffer = front ++ op :: back ∧
      ∀ later ∈ back, later.rowId ≠ rowId := by
  rcases find?_eq_some_iff_append.mp last with ⟨isRow, post, pre, split, rest⟩
  refine ⟨by simpa using isRow, pre.reverse, post.reverse, ?_, ?_⟩
  · have reversed := congrArg reverse split
    simpa using reversed
  · intro later member
    simpa using rest later (mem_reverse.mp member)

/-- The latest operation, a row image, is the one pending entry of its row. -/
theorem split_pendingRows (keyed : (ofTable name mesh.buffer).Pairwise fun early later =>
      ¬ later.notAfter early) {op : WriteOp} {row : WireRow}
    (last : latestOn mesh name rowId = some op)
    (isRow : pendingRow op.payload = some row) :
    ∃ init back, pendingRows mesh name = init ++ (rowId, row) :: back ∧
      (∀ due ∈ init, due.1 ≠ rowId) ∧
      ∀ due ∈ back, due.1 ≠ rowId := by
  have entries : (pendingRows mesh name).filter (fun due => due.1 = rowId) = _ :=
    filter_pendingRows keyed
  have eqRow := (exists_split_of_latestOn last).1
  simp only [last, Option.toList_some, filterMap_cons, isRow,
    Option.map_some, filterMap_nil, eqRow] at entries
  rcases filter_eq_cons_iff.mp entries with ⟨init, back, split, noneBefore, _, noneAfter⟩
  refine ⟨init, back, split, ?_, ?_⟩
  · intro due member
    simpa using noneBefore due member
  · intro due member
    simpa using filter_eq_nil_iff.mp noneAfter due member

end

/-! ## Merging and laying over -/

theorem withKey_mergeRows (pk rowId : String) (rows : List WireRow) :
    withKey pk rowId (mergeRows pk rows) =
      (rows.find? fun row => keyText pk row = some rowId).toList := by
  have keyless : (rows.filter fun row => (keyText pk row).isNone).filter
      (fun row => keyText pk row = some rowId) = [] := by
    rw [filter_eq_nil_iff]
    intro row member eqKey
    have isNone := (mem_filter.mp member).2
    simp only [decide_eq_true_eq] at eqKey
    simp [eqKey] at isNone
  rw [withKey, mergeRows, filter_append, keyless, append_nil, filter_firstPerKey, find?_filter]
  congr 2
  funext row
  by_cases eqKey : keyText pk row = some rowId
  · simp [eqKey]
  · simp [eqKey]

/-- Entries of other rows leave the row alone. -/
theorem overlay_others {pk : String} {due : List (String × WireRow)}
    (rest : ∀ entry ∈ due, entry.1 ≠ rowId) (keys : ∀ entry ∈ due, keyText pk entry.2 ≠ some rowId)
    (rows : List WireRow) :
    withKey pk rowId (due.foldl (overlayRow pk) rows) = withKey pk rowId rows := by
  induction due generalizing rows with
  | nil => rfl
  | cons entry due ih =>
    have other := rest entry mem_cons_self
    have key := keys entry mem_cons_self
    rw [foldl_cons, ih (fun later member => rest later (mem_cons_of_mem _ member))
      (fun later member => keys later (mem_cons_of_mem _ member))]
    rw [withKey, overlayRow, filter_append, filter_filter]
    have drop : [entry.2].filter (fun row => keyText pk row = some rowId) = [] := by simpa using key
    rw [drop, append_nil, withKey]
    apply filter_congr
    intro row member
    by_cases eqKey : keyText pk row = some rowId
    · simp [eqKey, Ne.symm other]
    · simp [eqKey]

/-- The entry of the row takes the place of whatever had its key. -/
theorem overlay_self {pk : String} {init back : List (String × WireRow)}
    {row : WireRow} (rest : ∀ entry ∈ back, entry.1 ≠ rowId)
    (keys : ∀ entry ∈ back, keyText pk entry.2 ≠ some rowId)
    (key : keyText pk row = some rowId) (rows : List WireRow) :
    withKey pk rowId ((init ++ (rowId, row) :: back).foldl (overlayRow pk) rows) = [row] := by
  rw [foldl_append, foldl_cons, overlay_others rest keys,
    withKey, overlayRow, filter_append, filter_filter]
  simp [key]

theorem mem_overlay {pk : String} {due : List (String × WireRow)}
    {rows : List WireRow} {row : WireRow} (member : row ∈ due.foldl (overlayRow pk) rows) :
    row ∈ rows ∨ ∃ entry ∈ due, row = entry.2 := by
  induction due generalizing rows with
  | nil => exact .inl member
  | cons entry due ih =>
    rcases ih member with inRows | ⟨later, has, rfl⟩
    · rcases mem_append.mp inRows with old | new
      · exact .inl (mem_filter.mp old).1
      · exact .inr ⟨entry, mem_cons_self, mem_singleton.mp new⟩
    · exact .inr ⟨later, mem_cons_of_mem _ has, rfl⟩

/-! ## Pending rows on the wire -/

section

variable (unreserved : Unreserved table) (member : column ∈ table.columns)
include unreserved member

theorem ne_conflictColumns : column ≠ "_conflictColumns" := by
  rintro rfl
  exact unreserved.conflictColumns member

theorem ne_conflictPredicate : column ≠ "_conflictPredicate" := by
  rintro rfl
  exact unreserved.conflictPredicate member

/-- A buffered image shows the client the captured texts. -/
theorem wireText_image (row : Row) (clash : List String) (pred : Option IndexPredicate) :
    wireText column (imageRow row clash pred) = (cell row column).captureText := by
  rw [wireText, imageRow, lookup_withTarget (ne_conflictColumns unreserved member)
    (ne_conflictPredicate unreserved member), lookup_mapValues]
  simp only [cell]
  cases row.lookup column with
  | none => rfl
  | some v => exact wireText_capturedJson v

end

theorem keyText_image (unreserved : Unreserved table) (keyed : table.rowId row = some rowId)
    (bare : stripHexMark rowId = rowId) (clash : List String) (pred : Option IndexPredicate) :
    keyText table.pk (imageRow row clash pred) = some rowId := by
  rw [keyText, imageRow, lookup_withTarget (ne_conflictColumns unreserved table.pkListed)
    (ne_conflictPredicate unreserved table.pkListed), lookup_mapValues]
  simp only [TableDef.rowId, cell] at keyed
  cases found : row.lookup table.pk with
  | none =>
    rw [found] at keyed
    cases keyed
  | some v =>
    rw [found] at keyed
    have keyed : v.captureText = some rowId := keyed
    simp [SqlValue.capturedJson, keyed, valueAsString, bare]

/-- A buffered UPDATE is served without a key. -/
theorem lookup_update (unreserved : Unreserved table) (sql : String) (clash : List String) :
    lookup table.pk (withTarget [("sql", .str sql)] clash none) = none := by
  rw [lookup_withTarget (ne_conflictColumns unreserved table.pkListed)
    (ne_conflictPredicate unreserved table.pkListed), lookup_cons]
  have ne : (table.pk == "sql") = false := beq_false_of_ne unreserved.sqlKey
  simp [ne]

section

variable {name : String} {mesh : MeshState}

section

variable (synced : Synced setting name table roster mesh) (unreserved : Unreserved table)
  (legible : Legible table mesh name) (member : due ∈ pendingRows mesh name)
include synced unreserved legible member

/-- The key of a pending row is its row id, or it has none. -/
theorem key_of_pending : wireText table.pk due.2 = keyText table.pk due.2 ∧
      (keyText table.pk due.2 = some due.1 ∨ keyText table.pk due.2 = none) := by
  rcases mem_pendingRows member with ⟨op, inBuf, eqRow, isRow⟩
  rcases synced.held with ⟨rows, stage, _⟩
  rcases stage.flushes with ⟨pre, flush⟩
  have bare := legible.unmarked op inBuf
  rcases due with ⟨rowId, row⟩
  simp only at eqRow isRow ⊢
  subst eqRow
  cases payload : op.payload with
  | image image clash pred =>
    rw [payload] at isRow
    cases isRow
    have keyed := flush.imageKeyed inBuf payload
    rw [keyText_image unreserved keyed bare, wireText_image unreserved table.pkListed]
    exact ⟨keyed, .inl rfl⟩
  | update edit clash =>
    rw [payload] at isRow
    cases isRow
    simp [wireText, keyText, lookup_update unreserved]
  | delete removal clash =>
    rw [payload] at isRow
    cases isRow

/-- Entries of other rows do not carry the key of the row. -/
theorem keyText_ne_of_pending (other : due.1 ≠ rowId) : keyText table.pk due.2 ≠ some rowId := by
  rcases (key_of_pending synced unreserved legible member).2 with own | keyless
  · rw [own]
    simpa using other
  · rw [keyless]
    exact nofun

end

/-- What the client sees of a stored row. -/
theorem shown_agentRow (legible : Legible table mesh name)
    (kept : row ∈ (mesh.providers provider).tables name) :
    shown table (agentRow row) = texts table row := by
  apply map_congr_left
  intro column member
  exact wireText_agentRow (legible.plain provider row kept column member)

theorem others_of_latestOn_none (same : latestOn mesh name rowId = none) :
    ∀ op ∈ ofTable name mesh.buffer, op.rowId ≠ rowId := by
  intro op member
  simpa using find?_eq_none.mp same op (mem_reverse.mpr member)

/-- A stored row with the row id is on the picked provider. -/
theorem stored_iff (synced : Synced setting name table roster mesh)
    (picked : pickName rowId roster = some owner) (same : latestOn mesh name rowId = none)
    (keyed : table.rowId row = some rowId) :
    row ∈ (mesh.providers provider).tables name ↔ provider = owner ∧ row ∈ mesh.serial name := by
  rcases synced.held with ⟨content, stage, shares⟩
  have eqRow := stage.untouched (others_of_latestOn_none same)
  have inBody : row ∈ content ↔ row ∈ mesh.serial name := by
    have both : row ∈ part table (onlyRow rowId) (mesh.serial name) ↔
        row ∈ part table (onlyRow rowId) content := by rw [eqRow]
    simpa [mem_part, onlyRow, keyed] using both.symm
  rw [shares provider, mem_part, keyed, ownedBy_iff picked, inBody, decide_eq_true_eq]
  exact and_comm

/-- The provider rows with the key are those of the serial content. -/
theorem mem_providerRows_iff (synced : Synced setting name table roster mesh)
    (legible : Legible table mesh name) (picked : pickName rowId roster = some owner)
    (same : latestOn mesh name rowId = none) (selected : ∀ provider row,
      row ∈ (mesh.providers provider).tables name →
      table.rowId row = some rowId → selects row) {wireRow : WireRow} :
    (∃ provider ∈ roster, wireRow ∈ providerRows mesh name selects provider) ∧
      keyText table.pk wireRow = some rowId ↔
      wireRow ∈ (part table (onlyRow rowId) (mesh.serial name)).map
      agentRow := by
  constructor
  · rintro ⟨⟨provider, onRoster, member⟩, key⟩
    rcases mem_map.mp member with ⟨row, chosen, rfl⟩
    have kept := (mem_filter.mp chosen).1
    rw [keyText_agentRow (legible.recognised provider row kept)] at key
    have inSerial := ((stored_iff synced picked same key).mp kept).2
    exact mem_map.mpr ⟨row, mem_part.mpr ⟨inSerial, by simp [onlyRow, key]⟩, rfl⟩
  · intro member
    rcases mem_map.mp member with ⟨row, shared, rfl⟩
    rcases mem_part.mp shared with ⟨inSerial, isRow⟩
    have key : table.rowId row = some rowId := by simpa [onlyRow] using isRow
    have kept : row ∈ (mesh.providers owner).tables name :=
      (stored_iff synced picked same key).mpr ⟨rfl, inSerial⟩
    constructor
    · exact ⟨owner, mem_of_pickName picked, mem_map.mpr
        ⟨row, mem_filter.mpr ⟨kept, selected owner row kept key⟩, rfl⟩⟩
    · rw [keyText_agentRow (legible.recognised owner row kept), key]

/-- Rows with one key, all equal to the first of at most one row. -/
theorem find_toList_eq {rows expected : List WireRow} {want : WireRow → Bool}
    (short : expected = [] ∨ ∃ row, expected = [row])
    (eq : ∀ row, row ∈ rows ∧ want row ↔ row ∈ expected) :
    (rows.find? want).toList = expected := by
  rcases short with rfl | ⟨row, rfl⟩
  · have none : rows.find? want = none := by
      rw [find?_eq_none]
      intro row member isMatch
      exact not_mem_nil ((eq row).mp ⟨member, isMatch⟩)
    rw [none]
    rfl
  · have here := (eq row).mpr (mem_singleton_self row)
    cases found : rows.find? want with
    | none => exact absurd here.2 (find?_eq_none.mp found row here.1)
    | some first =>
      have isRow := (eq first).mp ⟨mem_of_find?_eq_some found, find?_some found⟩
      rw [mem_singleton.mp isRow]
      rfl

section

variable (synced : Synced setting name table roster mesh) (legible : Legible table mesh name)
  (picked : pickName rowId roster = some owner) (same : latestOn mesh name rowId = none)
include synced legible picked same

section

variable (selected : ∀ provider row, row ∈ (mesh.providers provider).tables name →
  table.rowId row = some rowId → selects row)
include selected

theorem withKey_fannedRows : withKey table.pk rowId (fannedRows mesh table name selects) =
      (part table (onlyRow rowId) (mesh.serial name)).map agentRow := by
  rw [fannedRows, withKey_mergeRows, synced.routed.fixed]
  apply find_toList_eq
  · rcases part_onlyRow_cases synced.lawful rowId with none | ⟨row, single⟩
    · exact .inl (by rw [none]; rfl)
    · exact .inr ⟨agentRow row, by rw [single]; rfl⟩
  · intro row
    rw [mem_flatMap, decide_eq_true_eq]
    exact mem_providerRows_iff synced legible picked same selected

/-- The picked provider answers with the rows of the serial content. -/
theorem withKey_providerRows : withKey table.pk rowId (providerRows mesh name selects owner) =
      (part table (onlyRow rowId) (mesh.serial name)).map agentRow := by
  rcases synced.held with ⟨rows, stage, shares⟩
  rw [stage.untouched (others_of_latestOn_none same), withKey,
    providerRows, filter_map, filter_filter]
  congr 1
  have owned : ∀ row, table.rowId row = some rowId → row ∈ rows →
      row ∈ (mesh.providers owner).tables name := by
    intro row key inBody
    rw [shares owner, mem_part, key]
    exact ⟨inBody, by simp [ownedBy_iff picked]⟩
  rw [shares owner, part, filter_filter, part]
  apply filter_congr
  intro row inBody
  by_cases key : table.rowId row = some rowId
  · have kept := owned row key inBody
    have recognised := legible.recognised owner row kept
    simp [keyText_agentRow recognised, key, onlyRow, ownedBy_iff picked,
      selected owner row kept key]
  · have unrecognised : ownedBy roster owner (table.rowId row) = true →
        keyText table.pk (agentRow row) ≠ some rowId := by
      intro isOwned
      have kept : row ∈ (mesh.providers owner).tables name := by
        rw [shares owner, mem_part]
        exact ⟨inBody, isOwned⟩
      rw [keyText_agentRow (legible.recognised owner row kept)]
      exact key
    cases isOwned : ownedBy roster owner (table.rowId row) with
    | false => simp [onlyRow, key]
    | true => simp [onlyRow, key, unrecognised isOwned]

end

/-- Stored rows show what serial execution has. -/
theorem readsSerial_stored : ReadsSerial table mesh name rowId
      ((part table (onlyRow rowId) (mesh.serial name)).map agentRow) := by
  refine ⟨?_, fun _ => rfl⟩
  rw [map_map]
  apply map_congr_left
  intro row shared
  rcases mem_part.mp shared with ⟨inSerial, isRow⟩
  have key : table.rowId row = some rowId := by simpa [onlyRow] using isRow
  exact shown_agentRow legible ((stored_iff synced picked same key).mpr ⟨rfl, inSerial⟩)

end

section

variable (synced : Synced setting name table roster mesh) (unreserved : Unreserved table)
include synced unreserved

/-- A buffered image as the latest operation shows the serial row. -/
theorem readsSerial_image {op : WriteOp} {clash : List String} {pred : Option IndexPredicate}
    (last : latestOn mesh name rowId = some op) (img : op.payload = .image row clash pred) :
    ReadsSerial table mesh name rowId [imageRow row clash pred] := by
  rcases synced.held with ⟨rows, stage, _⟩
  rcases stage.flushes with ⟨pre, flush⟩
  rcases exists_split_of_latestOn last with ⟨eqRow, init, back, split, rest⟩
  subst eqRow
  rw [split] at flush
  constructor
  · rw [flush.latestImage img rest, map_singleton, map_singleton]
    congr 1
    apply map_congr_left
    intro column member
    exact wireText_image unreserved member row clash pred
  · intro same
    rw [last] at same
    cases same

theorem keyText_latestImage (legible : Legible table mesh name)
    {op : WriteOp} {clash : List String} {pred : Option IndexPredicate}
    (last : latestOn mesh name rowId = some op) (img : op.payload = .image row clash pred) :
    keyText table.pk (imageRow row clash pred) = some rowId := by
  rcases synced.held with ⟨rows, stage, _⟩
  rcases stage.flushes with ⟨pre, flush⟩
  rcases exists_split_of_latestOn last with ⟨rfl, init, back, split, _⟩
  have inBuf : op ∈ ofTable name mesh.buffer := by
    rw [split]
    simp
  exact keyText_image unreserved (flush.imageKeyed inBuf img) (legible.unmarked op inBuf) clash pred

end

/-- The latest buffered operation on the row, if any, is an INSERT. -/
def InsertPending (mesh : MeshState) (name rowId : String) : Prop :=
  ∀ op, latestOn mesh name rowId = some op →
    ∃ row conflict predicate, op.payload = .image row conflict predicate

section

variable (synced : Synced setting name table roster mesh) (unreserved : Unreserved table)
  (legible : Legible table mesh name)
include synced unreserved legible

theorem pointRead_serial (crew : roster ≠ []) (insertPending : InsertPending mesh name rowId)
    (selected : ∀ provider row, row ∈ (mesh.providers provider).tables name →
      table.rowId row = some rowId → selects row) :
    ∃ rows, pointRead mesh table name rowId selects = .ok rows ∧
      ReadsSerial table mesh name rowId rows := by
  rcases Option.ne_none_iff_exists'.mp (pickName_ne_none crew rowId) with ⟨owner, picked⟩
  have ran : mesh.roster.isEmpty = false := by
    rw [synced.routed.fixed]
    simpa using crew
  cases last : latestOn mesh name rowId with
  | none =>
    have noEntry : (pendingRows mesh name).find? (fun due => due.1 = rowId) = none := by
      rw [find?_eq_none]
      intro due member
      simpa using pendingRows_of_latestOn_none last member
    refine ⟨_, ?_, readsSerial_stored synced legible picked last⟩
    simp only [pointRead, noEntry]
    cases home : mesh.placement name rowId with
    | none =>
      simp only [fanoutFiltered, ran, Bool.false_eq_true, if_false, Except.map,
        withKey_fannedRows synced legible picked last selected]
    | some entry =>
      rcases entry with ⟨copies, s⟩
      rcases synced.routed.placed _ _ _ _ home with ⟨noted, rfl, isPicked⟩
      rw [picked] at isPicked
      cases isPicked
      have onRoster : owner ∈ mesh.roster := by
        rw [synced.routed.fixed]
        exact mem_of_pickName picked
      simp [onRoster, withKey_providerRows synced legible picked last selected]
  | some op =>
    rcases insertPending op last with ⟨row, clash, pred, img⟩
    refine ⟨_, ?_, readsSerial_image synced unreserved last img⟩
    have isRow : pendingRow op.payload = some (imageRow row clash pred) := by
      rw [img]
      rfl
    rcases split_pendingRows synced.keyed last isRow with ⟨init, back, split, pre, _⟩
    have found : (pendingRows mesh name).find? (fun due => due.1 = rowId) =
          some (rowId, imageRow row clash pred) := by
      have notBefore : init.find? (fun due => due.1 = rowId) =
          none := by
        rw [find?_eq_none]
        intro due member
        simpa using pre due member
      rw [split, find?_append, notBefore]
      simp
    simp [pointRead, found]

/-- For the client, the key of a row of the answer is its row id. -/
theorem wireText_of_fanout {row : WireRow}
    (member : row ∈ (pendingRows mesh name).foldl (overlayRow table.pk)
      (fannedRows mesh table name fun _ => true)) :
    wireText table.pk row = keyText table.pk row := by
  rcases mem_overlay member with fanned | ⟨due, has, rfl⟩
  · have gathered : row ∈ mesh.roster.flatMap (providerRows mesh name fun _ => true) := by
      rcases mem_append.mp fanned with keyed | keyless
      · exact (mem_filter.mp (firstPerKey_subset _ _ keyed)).1
      · exact (mem_filter.mp keyless).1
    rcases mem_flatMap.mp gathered with ⟨provider, _, got⟩
    rcases mem_map.mp got with ⟨kept, chosen, rfl⟩
    have mem := (mem_filter.mp chosen).1
    rw [keyText_agentRow (legible.recognised provider kept mem),
      wireText_agentRow (legible.plain provider kept mem table.pk table.pkListed)]
    rfl
  · exact (key_of_pending synced unreserved legible has).1

theorem fanoutRead_serial (crew : roster ≠ []) (insertPending : InsertPending mesh name rowId) :
    ∃ rows, fanoutRead mesh table name = .ok rows ∧ ReadsSerial table mesh name rowId
      (rows.filter fun row => wireText table.pk row = some rowId) := by
  rcases Option.ne_none_iff_exists'.mp (pickName_ne_none crew rowId) with ⟨owner, picked⟩
  have ran : mesh.roster.isEmpty = false := by
    rw [synced.routed.fixed]
    simpa using crew
  have ans : fanoutRead mesh table name = .ok ((pendingRows mesh name).foldl (overlayRow table.pk)
        (fannedRows mesh table name fun _ => true)) := by
    simp [fanoutRead, ran]
  refine ⟨_, ans, ?_⟩
  have byKey : ((pendingRows mesh name).foldl (overlayRow table.pk)
      (fannedRows mesh table name fun _ => true)).filter
        (fun row => wireText table.pk row = some rowId) =
      withKey table.pk rowId ((pendingRows mesh name).foldl
        (overlayRow table.pk) (fannedRows mesh table name fun _ => true)) := by
    apply filter_congr
    intro row member
    rw [wireText_of_fanout synced unreserved legible member]
  rw [byKey]
  cases last : latestOn mesh name rowId with
  | none =>
    have rest : ∀ due ∈ pendingRows mesh name, due.1 ≠ rowId :=
      fun _ member => pendingRows_of_latestOn_none last member
    rw [overlay_others rest fun due member =>
        keyText_ne_of_pending synced unreserved legible member (rest due member),
      withKey_fannedRows synced legible picked last fun _ _ _ _ => rfl]
    exact readsSerial_stored synced legible picked last
  | some op =>
    rcases insertPending op last with ⟨row, clash, pred, img⟩
    have isRow : pendingRow op.payload = some (imageRow row clash pred) := by
      rw [img]
      rfl
    rcases split_pendingRows synced.keyed last isRow with ⟨init, back, split, _, post⟩
    have has : ∀ due ∈ (rowId, imageRow row clash pred) :: back, due ∈ pendingRows mesh name := by
      intro due member
      rw [split]
      exact mem_append_right _ member
    have key := keyText_latestImage synced unreserved legible last img
    rw [split, overlay_self post (fun due member =>
      keyText_ne_of_pending synced unreserved legible (has due (mem_cons_of_mem _ member))
        (post due member)) key]
    exact readsSerial_image synced unreserved last img

end

end

/-! ## Runs -/

/-- A delivered INSERT and one that is still in the buffer. -/
def insertWaiting : List Event :=
  noteEvents (.insert (note "a" "old") none) "01" 1 ++
    List.replicate 6 (.tick .answered) ++
    noteEvents (.insert (note "b" "new") none) "02" 2

theorem unreserved_notes : Unreserved notesTable := by
  constructor <;> decide

/-- A delivered INSERT and a DELETE that is still in the buffer. -/
def deleteWaiting : List Event :=
  noteEvents (.insert (note "a" "old") none) "01" 1 ++
    List.replicate 6 (.tick .answered) ++
    noteEvents (.delete "a" (removeNote "a")) "02" 2

end StorageOrchestrator.Mesh.ReadSerial
