import StorageOrchestrator.Mesh.Gateway

/-!
# Operations that concern one row

The rows of a table are divided among providers by their row ids.  An
operation on one row id can be replayed on the share that holds the row when
it acts on the whole table as it acts on any share with the row id, and leaves
every other share alone.  This module says when the three kinds of operation
do so.
-/

namespace StorageOrchestrator.Mesh.Locality

open Mesh.Value Mesh.Table Mesh.Agent Mesh.Gateway List

variable {table : TableDef} {content before final : Content} {row : Row} {next : Content}
  {denotes : String → SqlValue → Bool} {receive : Row → Row} {rowId : String}
  {conflict : List String}

/-- The rows whose row ids are in a share. -/
def part (table : TableDef) (share : Option String → Bool) (content : Content) : Content :=
  content.filter fun row => share (table.rowId row)

def onlyRow (rowId : String) (id : Option String) : Bool := id == some rowId

/--
The payload arrives as it was sent; it takes the whole table from one content
to another, and a share with its row id likewise; other shares it does not
concern.
-/
structure Confined (denotes : String → SqlValue → Bool) (receive : Row → Row) (table : TableDef)
    (rowId : String) (payload : Payload) (before after : Content) : Prop where
  arrives : payload.received receive = payload
  whole : applyPayload denotes table before rowId payload = some after
  within : ∀ share, share (some rowId) →
    applyPayload denotes table (part table share before) rowId payload =
      some (part table share after)
  outside : ∀ share, share (some rowId) = false → part table share after = part table share before
  image : ∀ row conflict predicate, payload = .image row conflict predicate →
      part table (onlyRow rowId) after = [row]

theorem part_sublist (table : TableDef) (share : Option String → Bool)
    (content : Content) : (part table share content).Sublist content :=
  filter_sublist

theorem mem_part : row ∈ part table share content ↔ row ∈ content ∧ share (table.rowId row) :=
  mem_filter

/-- A lawful content has at most one row of a row id. -/
theorem part_onlyRow_cases (ok : table.Admits content) (rowId : String) :
    part table (onlyRow rowId) content = [] ∨
      ∃ row, part table (onlyRow rowId) content = [row] := by
  have ne := ok.1.sublist (part_sublist table (onlyRow rowId) content)
  cases rows : part table (onlyRow rowId) content with
  | nil => exact .inl rfl
  | cons first rest =>
    cases rest with
    | nil => exact .inr ⟨first, rfl⟩
    | cons second more =>
      rw [rows] at ne
      have keyed : ∀ row ∈ [first, second], table.rowId row = some rowId := by
        intro row has
        have mem : row ∈ part table (onlyRow rowId) content := by
          rw [rows]
          simp only [mem_cons, not_mem_nil, or_false] at has
          rcases has with rfl | rfl
          · simp
          · simp
        simpa [onlyRow] using (mem_part.mp mem).2
      have clashing := table.clash_of_rowId (keyed first (by simp)) (keyed second (by simp))
      rw [(pairwise_cons.mp ne).1 second (by simp)] at clashing
      cases clashing

/-! ## Row images -/

theorem conflictTarget_ne_nil (pk : String) (clash : Option OnConflict) :
    conflictTarget pk clash ≠ [] := by
  simp only [conflictTarget]
  split
  · split
    · simp
    · rename_i given
      simpa using given
  · simp

/-- A target with an arbiter among the indexes. -/
theorem arbiters_of_infers {part : OnConflict} (mem : i ∈ table.indexes) (infers : part.infers i) :
    ∃ arbiters, table.arbiters (some part) = some arbiters := by
  simp only [TableDef.arbiters]
  split
  · exact ⟨_, rfl⟩
  · split
    · rename_i none
      have types : i ∈ table.indexes.filter part.infers := mem_filter.mpr ⟨mem, infers⟩
      rw [isEmpty_iff.mp none] at types
      cases types
    · exact ⟨_, rfl⟩

/-- The target that goes with an image infers what the statement's did. -/
theorem arbiters_conflictTarget (action : ConflictAction)
    (types : table.arbiters clash = some arbiters) :
    ∃ others, table.arbiters (some
      { columns := conflictTarget table.pk clash
        predicate := clash.bind OnConflict.predicate
        action := action }) = some others := by
  have onKey : ∀ predicate, ∃ others, table.arbiters (some
      { columns := [table.pk], predicate := predicate, action := action }) =
        some others := by
    intro predicate
    apply arbiters_of_infers table.pkIndexed
    simp [OnConflict.infers, isPerm_iff]
  cases clash with
  | none => exact onKey none
  | some part =>
    simp only [conflictTarget]
    split
    · exact onKey _
    · rename_i given
      have columns : part.columns ≠ [] := by simpa using given
      simp only [TableDef.arbiters, columns, if_false] at types
      split at types
      · cases types
      · rename_i full
        have inferring : ∃ index ∈ table.indexes, part.infers index := by simpa using full
        rcases inferring with ⟨index, mem, infers⟩
        exact arbiters_of_infers mem infers

/-- So does the clause with which the agent inserts the image. -/
theorem arbiters_imageClause (types : table.arbiters clash = some arbiters) :
    ∃ others, table.arbiters (some (imageClause table (conflictTarget table.pk clash)
      (clash.bind OnConflict.predicate))) = some others := by
  simp only [imageClause]
  split
  · exact arbiters_conflictTarget _ types
  · rename_i unpredicated
    split
    · have noPredicate : clash.bind OnConflict.predicate = none := by
        simpa [conflictTarget_ne_nil] using unpredicated
      rw [← noPredicate]
      exact arbiters_conflictTarget _ types
    · exact ⟨_, rfl⟩

/-- The agent adds an image that clashes with nothing. -/
theorem applyImage_added (ok : table.check row) (types : table.arbiters clash = some arbiters)
    (ne : ∀ old ∈ content, table.clash old row = false) :
    applyImage table content row (conflictTarget table.pk clash)
      (clash.bind OnConflict.predicate) = some (content ++ [row]) := by
  rcases arbiters_imageClause types with ⟨them, agentInferred⟩
  have valid : (clash.bind OnConflict.predicate).all predicateValid := by
    cases clash.bind OnConflict.predicate with
    | none => rfl
    | some pred => exact pred.fromWhere
  have ran : row.isEmpty = false := by
    rcases table.exists_rowId ok with ⟨rowId, keyed⟩
    cases row with
    | nil => cases keyed
    | cons field rest => rfl
  simp [applyImage, valid, ran, InsertOutcome.content, insertRow_added_of_apart ok agentInferred ne]

theorem confined_image (added : insertRow table content row onConflict = .added)
    (arrives : receive row = row) (keyed : table.rowId row = some rowId) :
    Confined denotes receive table rowId (.image row (conflictTarget table.pk onConflict)
      (onConflict.bind OnConflict.predicate))
      content (content ++ [row]) := by
  rcases insertRow_eq_added added with ⟨ok, ⟨arbiters, types⟩, ne⟩
  constructor
  · simp only [Payload.received, arrives]
  · exact applyImage_added ok types ne
  · intro share shared
    have app : part table share (content ++ [row]) = part table share content ++ [row] := by
      simp [part, keyed, shared]
    rw [app]
    apply applyImage_added ok types
    intro old mem
    exact ne old (mem_part.mp mem).1
  · intro share unshared
    simp [part, keyed, unshared]
  · intro image conflict pred given
    cases given
    have noOther : part table (onlyRow rowId) content = [] := by
      rw [part, filter_eq_nil_iff]
      intro old mem eqRow
      have oldKeyed : table.rowId old = some rowId := by simpa [onlyRow] using eqRow
      have clashing := table.clash_of_rowId oldKeyed keyed
      rw [ne old mem] at clashing
      cases clashing
    have app : part table (onlyRow rowId) (content ++ [row]) =
        part table (onlyRow rowId) content ++ [row] := by
      simp [part, onlyRow, keyed]
    rw [app, noOther]
    rfl

/-! ## UPDATE and DELETE -/

theorem confined_update {edit : PointUpdate} (onRow : ∀ row ∈ content, edit.selects row →
      table.rowId row = some rowId ∧ table.rowId (edit.assign row) = some rowId)
    (updated : updateRows table content edit = some next) :
    Confined denotes receive table rowId (.update edit conflict) content next := by
  simp only [updateRows] at updated
  split at updated
  · rename_i admits
    cases updated
    have keepsId : ∀ row ∈ content,
        table.rowId (if edit.selects row then edit.assign row else row) =
          table.rowId row := by
      intro row mem
      split
      · rename_i sel
        rw [(onRow row mem sel).1, (onRow row mem sel).2]
      · rfl
    have partMap : ∀ share, part table share (content.map fun row =>
          if edit.selects row then edit.assign row else row) =
        (part table share content).map fun row =>
          if edit.selects row then edit.assign row else row := by
      intro share
      rw [part, part, filter_map]
      congr 1
      apply filter_congr
      intro row mem
      simp [keepsId row mem]
    constructor
    · rfl
    · simp [applyPayload, updateRows, admits]
    · intro share shared
      have less : table.Admits ((part table share content).map fun row =>
          if edit.selects row then edit.assign row else row) := by
        rw [← partMap]
        exact admits.sublist (part_sublist _ _ _)
      simp [applyPayload, updateRows, less, partMap]
    · intro share unshared
      rw [partMap]
      calc
        (part table share content).map (fun row =>
            if edit.selects row then edit.assign row else row) =
            (part table share content).map id := by
          apply map_congr_left
          intro row mem
          rcases mem_part.mp mem with ⟨inBody, inShare⟩
          split
          · rename_i sel
            rw [(onRow row inBody sel).1, unshared] at inShare
            cases inShare
          · rfl
        _ = part table share content := map_id _
    · intro row conflict pred given
      cases given
  · cases updated

theorem confined_delete (hasId : "id" ∈ table.columns)
    (onRow : ∀ row ∈ content, denotes rowId (cell row "id") → table.rowId row = some rowId) :
    Confined denotes receive table rowId (.delete removal conflict) content
      (deleteRows content fun row => denotes rowId (cell row "id")) := by
  constructor
  · rfl
  · simp [applyPayload, hasId]
  · intro share shared
    simp only [applyPayload, hasId, if_true, deleteRows, part, filter_filter, Bool.and_comm]
  · intro share unshared
    simp only [deleteRows, part, filter_filter]
    apply filter_congr
    intro row mem
    cases inShare : share (table.rowId row) with
    | false => rfl
    | true =>
      cases cut : denotes rowId (cell row "id") with
      | false => rfl
      | true =>
        rw [onRow row mem cut, unshared] at inShare
        cases inShare
  · intro row conflict pred given
    cases given

/-! ## Sequences of operations -/

/-- The operations, each confined to its row, lead from content to content. -/
inductive Flushes (denotes : String → SqlValue → Bool) (receive : Row → Row) (table : TableDef) :
    Content → List WriteOp → Content → Prop where
  | done (content : Content) : Flushes denotes receive table content [] content
  | apply {before after final : Content} {op : WriteOp}
      {rest : List WriteOp}
      (confined : Confined denotes receive table op.rowId op.payload before after)
      (later : Flushes denotes receive table after rest final) :
      Flushes denotes receive table before (op :: rest) final

section

theorem Flushes.snoc {op : WriteOp} (flush : Flushes denotes receive table before ops final)
    (near : Confined denotes receive table op.rowId op.payload final next) :
    Flushes denotes receive table before (ops ++ [op]) next := by
  induction flush with
  | done content => exact .apply near (.done next)
  | apply first later ih =>
    exact .apply first (ih near)

/-- Operations on other rows leave a row as it is. -/
theorem Flushes.otherRows {ops : List WriteOp}
    (flush : Flushes denotes receive table before ops final) (rest : ∀ op ∈ ops, op.rowId ≠ rowId) :
    part table (onlyRow rowId) final = part table (onlyRow rowId) before := by
  induction flush with
  | done content => rfl
  | @apply _ _ _ op _ near later ih =>
    have away : op.rowId ≠ rowId := rest op mem_cons_self
    rw [ih fun other mem =>
      rest other (mem_cons_of_mem _ mem)]
    apply near.outside
    simpa [onlyRow] using away

/-- After its latest operation, a row image, the row is the image. -/
theorem Flushes.latestImage {back : List WriteOp}
    (flush : Flushes denotes receive table before (init ++ op :: back) final)
    (img : op.payload = .image row conflict predicate)
    (last : ∀ later ∈ back, later.rowId ≠ op.rowId) :
    part table (onlyRow op.rowId) final = [row] := by
  induction init generalizing before with
  | nil =>
    cases flush with
    | apply near later =>
      rw [later.otherRows last]
      exact near.image row conflict predicate img
  | cons first init ih =>
    cases flush with
    | apply near later => exact ih later

/-- A row image carries the row id of its operation. -/
theorem Flushes.imageKeyed (flush : Flushes denotes receive table before ops final) (mem : op ∈ ops)
    (img : op.payload = .image row conflict pred) :
    table.rowId row = some op.rowId := by
  induction flush with
  | done content => cases mem
  | @apply _ after _ _ _ near later ih =>
    rcases mem_cons.mp mem with rfl | inRest
    · have onlyImage := near.image row conflict pred img
      have shared : row ∈ part table (onlyRow op.rowId) after := by
        rw [onlyImage]
        exact mem_singleton_self row
      simpa [onlyRow] using (mem_part.mp shared).2
    · exact ih inRest

end

end StorageOrchestrator.Mesh.Locality
