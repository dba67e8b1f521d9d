import StorageOrchestrator.Mesh.Gateway

/-!
# Broad writes

An UPDATE or DELETE without a key predicate and an `INSERT ... SELECT` go
neither through the write buffer nor to one owner: `apply_broad_write`
executes the text on the central Postgres and then on every provider of the
roster, each on its own slice of the tables.

Their predicates and expressions read the row they act on.  An `INSERT ...
SELECT` reads one table or, without FROM, none, and may skip conflicting rows;
`ON CONFLICT DO UPDATE` acts on rows it did not select and is left out.

`broad_write_exact_iff` says when the slices together come out as the whole
table would: when no row that is left on one provider clashes with a row that
is left on another.  A SELECT without FROM puts its row on every provider
(`constant_row_is_inserted_twice`).
-/

namespace StorageOrchestrator.Mesh.Broad

open Mesh.Value Mesh.Table Mesh.Agent Mesh.Gateway
open List hiding next after

variable {row : Row} {content : Content} {npub : String}

/-! ## Tables and statements -/

/-- A table with its primary key, of any number of columns. -/
structure KeyedTable where
  key : List String
  indexes : List UniqueIndex
  check : Row → Bool
  keyIndexed : { columns := key, predicate := none } ∈ indexes
  keyPresent : ∀ row, check row → ∀ column ∈ key, ((cell row column).captureText).isSome

/-- Two rows that the table does not admit together. -/
def KeyedTable.clash (table : KeyedTable) (left right : Row) : Bool :=
  table.indexes.any fun index => index.clash left right

/-- Two rows with the same primary key. -/
def KeyedTable.sameKey (table : KeyedTable) (left right : Row) : Bool :=
  table.key.all fun column => sameValue (cell left column) (cell right column)

/-- No two rows of the content clash, and every row passes the check. -/
def KeyedTable.Admits (table : KeyedTable) (content : Content) : Prop :=
  content.Pairwise (fun left right => table.clash left right = false) ∧
    ∀ row ∈ content, table.check row

instance (table : KeyedTable) (content : Content) : Decidable (table.Admits content) :=
  inferInstanceAs (Decidable (_ ∧ _))

/-- An UPDATE or DELETE of any rows. -/
inductive Change where
  | update (change : PointUpdate)
  | delete (removal : PointDelete)

def image (change : PointUpdate) (row : Row) : Row :=
  if change.selects row then change.assign row else row

/-- Executing the change; `none` where a constraint is violated at its end. -/
def Change.run (table : KeyedTable) (content : Content) : Change → Option Content
  | .update change =>
    if table.Admits (content.map (image change)) then
      some (content.map (image change))
    else none
  | .delete removal => some (deleteRows content removal.selects)

/-- The target of an `ON CONFLICT DO NOTHING`; no columns means any index. -/
structure ConflictTarget where
  columns : List String
  predicate : Option IndexPredicate

/-- The indexes whose conflicts are skipped. -/
def ConflictTarget.arbiters (target : ConflictTarget) (table : KeyedTable) : List UniqueIndex :=
  if target.columns = [] then table.indexes
  else table.indexes.filter fun index =>
    OnConflict.infers ⟨target.columns, target.predicate, .doNothing⟩ index

/-- `INSERT INTO ... SELECT`. -/
structure InsertSelect where
  source : Option String
  selects : Row → Bool
  project : Row → Row
  onConflict : Option ConflictTarget

/-- The rows to insert; a SELECT without FROM reads one empty row. -/
def InsertSelect.rows (select : InsertSelect) (tables : String → Content) : List Row :=
  let read := match select.source with
    | none => [[]]
    | some source => tables source
  (read.filter select.selects).map select.project

/-- The row is skipped because of the old one. -/
def skips (table : KeyedTable) (onConflict : Option ConflictTarget) (old row : Row) : Bool :=
  match onConflict with
  | none => false
  | some target =>
    (target.arbiters table).any fun index => index.clash old row

/-- Insert one row; `none` where a constraint is violated. -/
def insertOne (table : KeyedTable) (onConflict : Option ConflictTarget)
    (content : Content) (row : Row) : Option Content :=
  if !table.check row then none
  else if content.any fun old => skips table onConflict old row then
    some content
  else if content.any fun old => table.clash old row then none
  else some (content ++ [row])

/-- The target infers an index. -/
def targetKnown (table : KeyedTable) (onConflict : Option ConflictTarget) : Bool :=
  onConflict.all fun target => !(target.arbiters table).isEmpty

inductive BroadWrite where
  | change (statement : Change)
  | insertSelect (select : InsertSelect)

/-- Executing a broad write on the tables; `none` where it raises an error. -/
def BroadWrite.run (schema : String → Option KeyedTable) (name : String)
    (tables : String → Content) (write : BroadWrite) : Option Content :=
  match schema name with
  | none => none
  | some table =>
    match write with
    | .change statement => statement.run table (tables name)
    | .insertSelect select =>
      if targetKnown table select.onConflict &&
          select.source.all fun source => (schema source).isSome then
        (select.rows tables).foldlM (insertOne table select.onConflict) (tables name)
      else none

/-- A table of the mesh, whose key is one column. -/
def keyed (table : TableDef) : KeyedTable where
  key := [table.pk]
  indexes := table.indexes
  check := table.check
  keyIndexed := table.pkIndexed
  keyPresent := by
    intro row checked column isKey
    rw [mem_singleton.mp isKey]
    exact table.pkPresent row checked

/-! ## `apply_broad_write` -/

inductive BroadError where
  | writeRequiresPk (message : String)
  | noProviders
  | central
  | provider
deriving DecidableEq, Repr

section

variable (schema : String → Option KeyedTable)
  (trigger : String → (before written : String → Content) → String → Content)

/-- `POST /pg/apply` with a RAW operation; `none` is an error answer. -/
def applyRaw (name : String) (write : BroadWrite) (opId : String)
    (provider : Provider) : Option Provider :=
  if opId ∈ provider.applied then some provider
  else
    (write.run schema name provider.tables).map fun content =>
      { tables := trigger name provider.tables (Function.update provider.tables name content)
        applied := opId :: provider.applied }

/-- The RAW operations, one provider after the other. -/
def sendAll (name : String) (write : BroadWrite) (opIds : String → String) :
    List String → (String → Provider) → (String → Provider) × Option BroadError
  | [], providers => (providers, none)
  | npub :: rest, providers =>
    match applyRaw schema trigger name write (opIds npub) (providers npub) with
    | none => (providers, some .provider)
    | some provider =>
      sendAll name write opIds rest (Function.update providers npub provider)

/-- `apply_broad_write`; `opIds` are the ids it makes for the operations. -/
def applyBroadWrite (broadWritesEnabled : Bool) (mesh : MeshState)
    (name : String) (write : BroadWrite) (opIds : String → String) :
    MeshState × Option BroadError :=
  if !broadWritesEnabled then
    (mesh, some (.writeRequiresPk
      ("bulk UPDATE/DELETE without a pk predicate is not supported by " ++
        "mesh-PG")))
  else if mesh.roster.isEmpty then (mesh, some .noProviders)
  else
    match write.run schema name mesh.central with
    | none => (mesh, some .central)
    | some content =>
      let sent := sendAll schema trigger name write opIds mesh.roster mesh.providers
      ({ mesh with
          central := Function.update mesh.central name content
          providers := sent.1 }, sent.2)

end

/-- The providers' tables together. -/
def union (mesh : MeshState) (name : String) : Content :=
  mesh.roster.flatMap fun npub => (mesh.providers npub).tables name

/-- Executing a broad write once on whole tables. -/
def executeOnce (schema : String → Option KeyedTable) (name : String)
    (write : BroadWrite) (tables : String → Content) : String → Content :=
  Function.update tables name ((write.run schema name tables).getD (tables name))

/-! ## Rows that clash -/

theorem sameValue_comm (left right : SqlValue) : sameValue left right = sameValue right left := by
  simp only [sameValue]
  by_cases eq : left.captureText = right.captureText
  · rw [eq]
  · simp [eq, Ne.symm eq]

theorem index_clash_comm (i : UniqueIndex) (left right : Row) :
    i.clash left right = i.clash right left := by
  simp [UniqueIndex.clash, sameValue_comm, Bool.and_comm]

namespace KeyedTable

variable (table : KeyedTable)

theorem clash_comm (left right : Row) : table.clash left right = table.clash right left := by
  simp [clash, index_clash_comm]

theorem clash_of_sameKey (same : table.sameKey left right = true) :
    table.clash left right = true := by
  simp only [clash, any_eq_true]
  exact ⟨_, table.keyIndexed, by simpa [UniqueIndex.clash, sameKey] using same⟩

variable {table}

theorem clash_self (ok : table.check row = true) : table.clash row row = true := by
  apply table.clash_of_sameKey
  simp only [sameKey, all_eq_true]
  intro col isKey
  simp [sameValue, table.keyPresent row ok col isKey]

theorem Admits.perm (admits : table.Admits content) (perm : content.Perm other)
    : table.Admits other := by
  constructor
  · refine (perm.pairwise_iff ?_).mp admits.1
    intro left right ne
    rw [table.clash_comm]
    exact ne
  · intro row mem
    exact admits.2 row (perm.mem_iff.mpr mem)

theorem Admits.sublist {smaller : Content} (admits : table.Admits content)
    (sublist : smaller.Sublist content) :
    table.Admits smaller :=
  ⟨admits.1.sublist sublist, fun row mem =>
    admits.2 row (sublist.subset mem)⟩

/-- Slices can be put together when rows of different slices do not clash. -/
theorem admits_flatMap_iff {roster : List String} (nodup : roster.Nodup) {slice : String → Content}
    (slices : ∀ npub ∈ roster, table.Admits (slice npub)) :
    table.Admits (roster.flatMap slice) ↔ ∀ first ∈ roster, ∀ second ∈ roster, first ≠ second →
      ∀ left ∈ slice first, ∀ right ∈ slice second, table.clash left right = false := by
  simp only [Admits, pairwise_flatMap, mem_flatMap]
  constructor
  · rintro ⟨⟨-, apart⟩, -⟩ first hfst second hsnd ne
    have symmetric : Std.Symm fun first second =>
        ∀ left ∈ slice first, ∀ right ∈ slice second, table.clash left right = false := by
      constructor
      intro first second apart left hl right hr
      rw [table.clash_comm]
      exact apart right hr left hl
    exact apart.forall hfst hsnd ne
  · intro apart
    refine ⟨⟨fun npub mem => (slices npub mem).1, ?_⟩, ?_⟩
    · exact List.Nodup.pairwise_of_forall_ne nodup apart
    · rintro row ⟨npub, mem, isRow⟩
      exact (slices npub mem).2 row isRow

end KeyedTable

/-! ## Inserting rows one by one -/

section

variable {table : KeyedTable} {onConflict : Option ConflictTarget}

def taken (table : KeyedTable) (onConflict : Option ConflictTarget) : Content → List Row → List Row
  | _, [] => []
  | content, row :: rows =>
    if content.any fun old => skips table onConflict old row then
      taken table onConflict content rows
    else row :: taken table onConflict (content ++ [row]) rows

theorem clash_of_skips (skip : skips table onConflict old row = true) :
    table.clash old row = true := by
  cases onConflict with
  | none => cases skip
  | some target =>
    simp only [skips, any_eq_true] at skip
    obtain ⟨i, isArbiter, clashes⟩ := skip
    simp only [KeyedTable.clash, any_eq_true]
    refine ⟨i, ?_, clashes⟩
    simp only [ConflictTarget.arbiters] at isArbiter
    split at isArbiter
    · exact isArbiter
    · exact (mem_filter.mp isArbiter).1

/-- Every way in which one row is inserted. -/
theorem insertOne_cases (put : insertOne table onConflict content row = some next) :
    table.check row = true ∧ (((∃ old ∈ content, skips table onConflict old row = true) ∧
      next = content) ∨
      ((∀ old ∈ content, table.clash old row = false) ∧ next = content ++ [row])) := by
  simp only [insertOne] at put
  split at put
  · cases put
  · rename_i ok
    refine ⟨by simpa using ok, ?_⟩
    split at put
    · rename_i skip
      cases put
      exact .inl ⟨by simpa using skip, rfl⟩
    · split at put
      · cases put
      · rename_i ne
        cases put
        exact .inr ⟨by simpa using ne, rfl⟩

theorem not_skips_of_apart (ne : ∀ old ∈ content, table.clash old row = false) :
    (content.any fun old => skips table onConflict old row) = false := by
  rw [any_eq_false]
  intro old mem skip
  have clashes := clash_of_skips skip
  rw [ne old mem] at clashes
  cases clashes

theorem insertOne_admits (put : insertOne table onConflict content row = some next)
    (admits : table.Admits content) : table.Admits next := by
  rcases insertOne_cases put with ⟨ok, ⟨-, rfl⟩ | ⟨ne, rfl⟩⟩
  · exact admits
  · constructor
    · rw [pairwise_append]
      refine ⟨admits.1, pairwise_singleton _ _, ?_⟩
      intro old mem new isNew
      rw [mem_singleton.mp isNew]
      exact ne old mem
    · intro other mem
      rcases mem_append.mp mem with old | new
      · exact admits.2 other old
      · rw [mem_singleton.mp new]
        exact ok

section

variable {rows : List Row} (put : rows.foldlM (insertOne table onConflict) content = some next)
include put

theorem foldlM_insertOne_admits (admits : table.Admits content) : table.Admits next := by
  induction rows generalizing content with
  | nil =>
    cases put
    exact admits
  | cons row rows ih =>
    obtain ⟨mid, first, rest⟩ := Option.bind_eq_some_iff.mp put
    exact ih rest (insertOne_admits first admits)

/-- The content afterwards is the old one and the rows that are taken. -/
theorem foldlM_insertOne_eq : next = content ++ taken table onConflict content rows := by
  induction rows generalizing content with
  | nil =>
    cases put
    simp [taken]
  | cons row rows ih =>
    obtain ⟨mid, first, rest⟩ := Option.bind_eq_some_iff.mp put
    rw [ih rest]
    rcases insertOne_cases first with ⟨-, ⟨⟨old, mem, skip⟩, eq⟩ | ⟨ne, rfl⟩⟩
    · have isSkipped : (content.any fun old =>
          skips table onConflict old row) = true :=
        any_eq_true.mpr ⟨old, mem, skip⟩
      simp [taken, isSkipped, eq]
    · simp [taken, not_skips_of_apart ne]

end

/--
A larger content takes the same rows, when its further rows do not clash with
any of them.
-/
theorem foldlM_insertOne_larger {larger : Content} {rows : List Row}
    (put : rows.foldlM (insertOne table onConflict) content = some next)
    (sub : content ⊆ larger) (ne : ∀ old ∈ larger, old ∈ content ∨
      ∀ row ∈ taken table onConflict content rows, table.clash old row = false) :
    rows.foldlM (insertOne table onConflict) larger =
      some (larger ++ taken table onConflict content rows) := by
  induction rows generalizing content larger with
  | nil => simp [taken]
  | cons row rows ih =>
    obtain ⟨mid, first, rest⟩ := Option.bind_eq_some_iff.mp put
    rw [foldlM_cons]
    rcases insertOne_cases first with ⟨ok, ⟨⟨old, mem, skip⟩, eq⟩ | ⟨free, rfl⟩⟩
    · rw [eq] at rest
      have isSkipped : (content.any fun old =>
          skips table onConflict old row) = true :=
        any_eq_true.mpr ⟨old, mem, skip⟩
      have isSkippedThere : (larger.any fun old =>
          skips table onConflict old row) = true :=
        any_eq_true.mpr ⟨old, sub mem, skip⟩
      have takes : taken table onConflict content (row :: rows) =
          taken table onConflict content rows := by
        simp [taken, isSkipped]
      rw [takes] at ne ⊢
      have stays : insertOne table onConflict larger row = some larger := by
        simp [insertOne, ok, isSkippedThere]
      rw [stays]
      exact ih rest sub ne
    · have takes : taken table onConflict content (row :: rows) =
          row :: taken table onConflict (content ++ [row]) rows := by
        simp [taken, not_skips_of_apart free]
      rw [takes] at ne ⊢
      have freeThere : ∀ old ∈ larger, table.clash old row = false := by
        intro old mem
        rcases ne old mem with inside | out
        · exact free old inside
        · exact out row mem_cons_self
      have isFree : (larger.any fun old => table.clash old row) = false := by simpa using freeThere
      have added : insertOne table onConflict larger row = some (larger ++ [row]) := by
        simp [insertOne, ok, not_skips_of_apart freeThere, isFree]
      have withinNext : content ++ [row] ⊆ larger ++ [row] := by
        intro old mem
        rcases mem_append.mp mem with inside | isRow
        · exact mem_append_left _ (sub inside)
        · exact mem_append_right _ isRow
      rw [added]
      refine (ih rest withinNext ?_).trans (by simp)
      intro old mem
      rcases mem_append.mp mem with inside | isRow
      · rcases ne old inside with isOld | out
        · exact .inl (mem_append_left _ isOld)
        · exact .inr fun other isTaken =>
            out other (mem_cons_of_mem _ isTaken)
      · exact .inl (mem_append_right _ isRow)

end

/-! ## Slices and the whole table -/

/-- The slices of a table together. -/
def whole (roster : List String) (slices : String → String → Content) (name : String) : Content :=
  roster.flatMap fun npub => slices npub name

/-- The rows that an `INSERT ... SELECT` adds to a provider's slice. -/
def takenOn (table : KeyedTable) (name : String)
    (slices : String → String → Content) (select : InsertSelect) (npub : String) : List Row :=
  taken table select.onConflict (slices npub name) (select.rows (slices npub))

/--
No row that an UPDATE leaves on one provider clashes with one that it leaves
on another, and no row that an `INSERT ... SELECT` adds to one provider
clashes with a row that another has or that it adds there.
-/
def Unmixed (table : KeyedTable) (name : String) (roster : List String)
    (slices : String → String → Content) : BroadWrite → Prop
  | .change (.update change) =>
    ∀ first ∈ roster, ∀ second ∈ roster, first ≠ second →
      ∀ left ∈ slices first name, ∀ right ∈ slices second name,
        table.clash (image change left) (image change right) = false
  | .change (.delete _) => True
  | .insertSelect select =>
    ∀ first ∈ roster, ∀ second ∈ roster, first ≠ second →
      ∀ left ∈ takenOn table name slices select first, ∀ right ∈ slices second name ++
            takenOn table name slices select second,
          table.clash left right = false

/-- The write succeeded on every slice of a lawful table. -/
structure Distributed (schema : String → Option KeyedTable) (name : String)
    (table : KeyedTable) (write : BroadWrite) (roster : List String)
    (slices : String → String → Content) (after : String → Content) :
    Prop where
  registered : schema name = some table
  manned : roster ≠ []
  distinct : roster.Nodup
  lawful : table.Admits (whole roster slices name)
  ran : ∀ npub ∈ roster, write.run schema name (slices npub) = some (after npub)

section

variable {schema : String → Option KeyedTable} {name : String} {table : KeyedTable}
  {write : BroadWrite} {roster : List String} {slices : String → String → Content}
  {after : String → Content}

theorem run_admits (known : schema name = some table)
    (ran : write.run schema name tables = some content) (admits : table.Admits (tables name))
    : table.Admits content := by
  simp only [BroadWrite.run, known] at ran
  cases write with
  | change stmt =>
    cases stmt with
    | update change =>
      simp only [Change.run] at ran
      split at ran
      · rename_i ok
        cases ran
        exact ok
      · cases ran
    | delete removal =>
      cases ran
      exact admits.sublist filter_sublist
  | insertSelect select =>
    simp only at ran
    split at ran
    · exact foldlM_insertOne_admits ran admits
    · cases ran

namespace Distributed

variable (distributed :
  Distributed schema name table write roster slices after)
include distributed

theorem slice_admits (mem : npub ∈ roster) : table.Admits (slices npub name) := by
  constructor
  · exact (pairwise_flatMap.mp distributed.lawful.1).1 npub mem
  · intro row isRow
    exact distributed.lawful.2 row (mem_flatMap.mpr ⟨npub, mem, isRow⟩)

theorem after_admits (mem : npub ∈ roster) : table.Admits (after npub) :=
  run_admits distributed.registered (distributed.ran npub mem) (distributed.slice_admits mem)

theorem slices_apart (hfst : first ∈ roster) (hsnd : second ∈ roster)
    (ne : first ≠ second) (hl : left ∈ slices first name) (hr : right ∈ slices second name) :
    table.clash left right = false :=
  (KeyedTable.admits_flatMap_iff distributed.distinct
    fun _ mem => distributed.slice_admits mem).mp distributed.lawful
    first hfst second hsnd ne left hl right hr

end Distributed

theorem after_update (distributed : Distributed schema name table (.change (.update change))
      roster slices after) (mem : npub ∈ roster) :
    after npub = (slices npub name).map (image change) := by
  have ran := distributed.ran npub mem
  simp only [BroadWrite.run, distributed.registered, Change.run] at ran
  split at ran
  · exact (Option.some.inj ran).symm
  · cases ran

theorem after_delete (distributed : Distributed schema name table (.change (.delete removal))
      roster slices after) (mem : npub ∈ roster) :
    after npub = deleteRows (slices npub name) removal.selects := by
  have ran := distributed.ran npub mem
  simp only [BroadWrite.run, distributed.registered, Change.run] at ran
  exact (Option.some.inj ran).symm

variable {select : InsertSelect}

section

variable (distributed : Distributed schema name table (.insertSelect select) roster slices after)
  (mem : npub ∈ roster)
include distributed mem

theorem inserts_of_distributed : (targetKnown table select.onConflict &&
      select.source.all fun source => (schema source).isSome) = true ∧
      (select.rows (slices npub)).foldlM (insertOne table select.onConflict)
      (slices npub name) = some (after npub) := by
  have ran := distributed.ran npub mem
  simp only [BroadWrite.run, distributed.registered] at ran
  split at ran
  · rename_i isKnown
    exact ⟨isKnown, ran⟩
  · cases ran

theorem after_insert : after npub = slices npub name ++ takenOn table name slices select npub :=
  foldlM_insertOne_eq (inserts_of_distributed distributed mem).2

end

/-- The slices fit together afterwards when the write is unmixed. -/
theorem Distributed.admits_iff
    (distributed : Distributed schema name table write roster slices after) :
    table.Admits (roster.flatMap after) ↔ Unmixed table name roster slices write := by
  rw [KeyedTable.admits_flatMap_iff distributed.distinct fun _ mem => distributed.after_admits mem]
  cases write with
  | change stmt =>
    cases stmt with
    | update change =>
      refine forall₄_congr fun first hfst second hsnd => ?_
      rw [after_update distributed hfst, after_update distributed hsnd]
      simp
    | delete removal =>
      simp only [Unmixed, iff_true]
      intro first hfst second hsnd ne left hl right hr
      rw [after_delete distributed hfst] at hl
      rw [after_delete distributed hsnd] at hr
      exact distributed.slices_apart hfst hsnd ne
        (mem_filter.mp hl).1 (mem_filter.mp hr).1
  | insertSelect select =>
    constructor
    · intro apart first hfst second hsnd ne left hl right hr
      apply apart first hfst second hsnd ne
      · rw [after_insert distributed hfst]
        exact mem_append_right _ hl
      · rw [after_insert distributed hsnd]
        exact hr
    · intro apart first hfst second hsnd ne left hl right hr
      rw [after_insert distributed hfst] at hl
      rw [after_insert distributed hsnd] at hr
      rcases mem_append.mp hl with old | new
      · rcases mem_append.mp hr with otherOld | otherNew
        · exact distributed.slices_apart hfst hsnd ne old otherOld
        · rw [table.clash_comm]
          exact apart second hsnd first hfst ne.symm right otherNew left
            (mem_append_left _ old)
      · exact apart first hfst second hsnd ne left new right hr

section

variable (distributed : Distributed schema name table (.insertSelect select) roster slices after)
include distributed

/-- One slice after the other, the whole table takes what the slices took. -/
theorem foldlM_rows_whole (unmixed : Unmixed table name roster slices (.insertSelect select))
    (rest : List String) (split : roster = done ++ rest) :
    (rest.flatMap fun npub => select.rows (slices npub)).foldlM (insertOne table select.onConflict)
      (whole roster slices name ++ done.flatMap (takenOn table name slices select)) =
      some (whole roster slices name ++ roster.flatMap (takenOn table name slices select)) := by
  induction rest generalizing done with
  | nil => simp [split]
  | cons npub rest ih =>
    have mem : npub ∈ roster := by simp [split]
    have nodup := distributed.distinct
    rw [split] at nodup
    rw [flatMap_cons, foldlM_append]
    have put := (inserts_of_distributed distributed mem).2
    have sub : slices npub name ⊆ whole roster slices name ++
        done.flatMap (takenOn table name slices select) := by
      intro row isRow
      exact mem_append_left _ (mem_flatMap.mpr ⟨npub, mem, isRow⟩)
    have more := foldlM_insertOne_larger put sub ?_
    · rw [more]
      have next : roster = (done ++ [npub]) ++ rest := by simp [split]
      refine Eq.trans ?_ (ih next)
      simp [takenOn]
    · intro old isOld
      rcases mem_append.mp isOld with pre | added
      · obtain ⟨other, isOther, isRow⟩ := mem_flatMap.mp pre
        by_cases eq : other = npub
        · exact .inl (eq ▸ isRow)
        · refine .inr fun row isTaken => ?_
          rw [table.clash_comm]
          exact unmixed npub mem other isOther (Ne.symm eq) row isTaken
            old (mem_append_left _ isRow)
      · obtain ⟨other, isOther, isRow⟩ := mem_flatMap.mp added
        refine .inr fun row isTaken => ?_
        have ne : npub ≠ other := by
          rintro rfl
          exact (nodup_append.mp nodup).2.2 npub isOther npub mem_cons_self rfl
        rw [table.clash_comm]
        exact unmixed npub mem other (by simp [split, isOther]) ne
          row isTaken old (mem_append_right _ isRow)

/-- What each provider has and adds, put together in another order. -/
theorem after_insert_perm : (roster.flatMap after).Perm (whole roster slices name ++
      roster.flatMap (takenOn table name slices select)) := by
  rw [flatMap_congr fun npub mem => after_insert distributed mem]
  exact (flatMap_append_perm roster (fun npub => slices npub name)
    (takenOn table name slices select)).symm

end

theorem rows_of_none (fromNone : select.source = none) (tabs : String → Content) :
    select.rows tabs =
      if select.selects [] then [select.project []] else [] := by
  simp only [InsertSelect.rows, fromNone]
  by_cases sel : select.selects []
  · simp [sel]
  · simp [sel]

section

variable (distributed : Distributed schema name table (.insertSelect select) roster slices after)
include distributed

/-- Of a row that is selected from no table: it is added, or skipped. -/
theorem constant_cases (fromNone : select.source = none)
    (sel : select.selects [] = true) (mem : npub ∈ roster) :
    table.check (select.project []) = true ∧
      ((takenOn table name slices select npub = [select.project []]) ∨
      (takenOn table name slices select npub = [] ∧ ∃ old ∈ slices npub name,
      skips table select.onConflict old (select.project []) = true)) := by
  have put := (inserts_of_distributed distributed mem).2
  have post := after_insert distributed mem
  rw [rows_of_none fromNone, if_pos sel, foldlM_cons] at put
  obtain ⟨mid, first, rest⟩ := Option.bind_eq_some_iff.mp put
  cases rest
  rcases insertOne_cases first with ⟨ok, ⟨skip, eq⟩ | ⟨-, eq⟩⟩
  · refine ⟨ok, .inr ⟨?_, skip⟩⟩
    rw [eq] at post
    simpa using post
  · refine ⟨ok, .inl ?_⟩
    rw [eq] at post
    exact (append_cancel_left post).symm

section

variable (unmixed : Unmixed table name roster slices (.insertSelect select))
  (fromNone : select.source = none)
include unmixed fromNone

/-- A row selected from no table is added by the only provider or nowhere. -/
theorem constant_taken (sel : select.selects [] = true) (mem : npub ∈ roster)
    (takes : takenOn table name slices select npub = [select.project []]) :
    roster = [npub] := by
  have alone : ∀ other ∈ roster, other = npub := by
    intro other oth
    by_contra ne
    have apart := unmixed npub mem other oth (Ne.symm ne)
      (select.project []) (takes ▸ mem_singleton_self _)
    rcases constant_cases distributed fromNone sel oth with ⟨ok, ran | ⟨-, old, isOld, skip⟩⟩
    · have clashes := KeyedTable.clash_self ok
      rw [apart _ (mem_append_right _ (ran ▸ mem_singleton_self _))] at clashes
      cases clashes
    · have clashes := clash_of_skips skip
      rw [table.clash_comm, apart old (mem_append_left _ isOld)] at clashes
      cases clashes
  have nodup := distributed.distinct
  cases roster with
  | nil => cases mem
  | cons first rest =>
    have hfst := alone first mem_cons_self
    cases rest with
    | nil => rw [hfst]
    | cons second rest =>
      have hsnd := alone second (by simp)
      rw [hfst, hsnd] at nodup
      simp at nodup

/-- The whole table treats a row from no table as the slices do. -/
theorem constant_whole : (select.rows (whole roster slices)).foldlM
      (insertOne table select.onConflict) (whole roster slices name) =
      some (whole roster slices name ++ roster.flatMap (takenOn table name slices select)) := by
  rw [rows_of_none fromNone]
  split
  · rename_i sel
    by_cases takes : ∃ npub ∈ roster, takenOn table name slices select npub = [select.project []]
    · obtain ⟨npub, mem, takes⟩ := takes
      have single := constant_taken distributed unmixed fromNone sel mem takes
      have put := (inserts_of_distributed distributed mem).2
      rw [after_insert distributed mem, rows_of_none fromNone, if_pos sel] at put
      simpa [single, whole] using put
    · have skippedAll : ∀ npub ∈ roster, takenOn table name slices select npub = [] := by
        intro npub mem
        rcases constant_cases distributed fromNone sel mem with ⟨-, taken | ⟨none, -⟩⟩
        · exact absurd ⟨npub, mem, taken⟩ takes
        · exact none
      obtain ⟨npub, mem⟩ := exists_mem_of_ne_nil _ distributed.manned
      rcases constant_cases distributed fromNone sel mem with ⟨ok, taken | ⟨-, old, isOld, skip⟩⟩
      · exact absurd ⟨npub, mem, taken⟩ takes
      · have isSkipped : ((whole roster slices name).any fun old =>
            skips table select.onConflict old (select.project [])) = true :=
          any_eq_true.mpr ⟨old, mem_flatMap.mpr ⟨npub, mem, isOld⟩, skip⟩
        rw [flatMap_eq_nil_iff.mpr skippedAll]
        simp [insertOne, ok, isSkipped]
  · rename_i off
    have none : ∀ npub ∈ roster, takenOn table name slices select npub = [] := by
      intro npub _
      simp [takenOn, rows_of_none fromNone, off, taken]
    rw [flatMap_eq_nil_iff.mpr none]
    simp

end

end

section

variable (distributed : Distributed schema name table write roster slices after)
include distributed

/-- An unmixed write is accepted on the whole table, with the same rows. -/
theorem Distributed.whole_run (unmixed : Unmixed table name roster slices write) :
    ∃ content, write.run schema name (whole roster slices) = some content ∧
      (roster.flatMap after).Perm content := by
  have admits := distributed.admits_iff.mpr unmixed
  cases write with
  | change stmt =>
    cases stmt with
    | update change =>
      have together : roster.flatMap after = (whole roster slices name).map (image change) := by
        rw [flatMap_congr fun npub mem =>
          after_update distributed mem, whole, map_flatMap]
      rw [together] at admits ⊢
      refine ⟨_, ?_, .refl _⟩
      simp [BroadWrite.run, distributed.registered, Change.run, admits]
    | delete removal =>
      refine ⟨deleteRows (whole roster slices name) removal.selects, ?_, ?_⟩
      · simp [BroadWrite.run, distributed.registered, Change.run]
      · rw [flatMap_congr fun npub mem =>
          after_delete distributed mem]
        simp only [deleteRows, whole, filter_flatMap]
        exact .refl _
  | insertSelect select =>
    refine ⟨_, ?_, after_insert_perm distributed⟩
    obtain ⟨npub, mem⟩ := exists_mem_of_ne_nil _ distributed.manned
    have isKnown := (inserts_of_distributed distributed mem).1
    simp only [BroadWrite.run, distributed.registered, isKnown, if_true]
    cases source : select.source with
    | none => exact constant_whole distributed unmixed source
    | some read =>
      have rows : select.rows (whole roster slices) =
          roster.flatMap fun npub => select.rows (slices npub) := by
        simp [InsertSelect.rows, source, whole, filter_flatMap, map_flatMap]
      have put := foldlM_rows_whole distributed unmixed roster (nil_append roster).symm
      rw [rows]
      simpa using put

/-- The slices come out as the whole table does when the write is unmixed. -/
theorem Distributed.exact_iff :
    ((roster.flatMap after).Perm ((write.run schema name (whole roster slices)).getD
      (whole roster slices name)) ∧
      ∀ first ∈ roster, ∀ second ∈ roster, first ≠ second →
      ∀ left ∈ after first, ∀ right ∈ after second, table.sameKey left right = false) ↔
      Unmixed table name roster slices write := by
  rw [← distributed.admits_iff]
  constructor
  · rintro ⟨perm, -⟩
    refine KeyedTable.Admits.perm ?_ perm.symm
    cases ran : write.run schema name (whole roster slices) with
    | none => exact distributed.lawful
    | some content =>
      exact run_admits distributed.registered ran distributed.lawful
  · intro admits
    obtain ⟨content, ran, perm⟩ := distributed.whole_run (distributed.admits_iff.mp admits)
    refine ⟨by simpa [ran] using perm, ?_⟩
    intro first hfst second hsnd ne left hl right hr
    have apart := (KeyedTable.admits_flatMap_iff distributed.distinct
      fun _ mem => distributed.after_admits mem).mp admits
      first hfst second hsnd ne left hl right hr
    by_contra same
    rw [Bool.not_eq_false] at same
    rw [table.clash_of_sameKey same] at apart
    cases apart

end

end

/-! ## The handler and the slices -/

section

variable {schema : String → Option KeyedTable} {name : String}
  {trigger : String → (before written : String → Content) → String → Content} {write : BroadWrite}
  {opIds : String → String}

theorem applyRaw_tables {opId : String} {host next : Provider}
    (done : applyRaw schema trigger name write opId host = some next) (new : opId ∉ host.applied) :
    ∃ content, write.run schema name host.tables = some content ∧
      next.tables = trigger name host.tables (Function.update host.tables name content) := by
  simp only [applyRaw, new, if_false] at done
  obtain ⟨content, ran, rfl⟩ := Option.map_eq_some_iff.mp done
  exact ⟨content, ran, rfl⟩

/-- After the last answer every provider of the roster has the write. -/
theorem sendAll_tables {roster : List String} (nodup : roster.Nodup)
    (new : ∀ npub ∈ roster, opIds npub ∉ (providers npub).applied)
    (sent : sendAll schema trigger name write opIds roster providers = (after, none)) :
    (∀ npub ∈ roster, ∃ content, write.run schema name (providers npub).tables = some content ∧
      (after npub).tables = trigger name (providers npub).tables
        (Function.update (providers npub).tables name content)) ∧
    ∀ npub, npub ∉ roster → after npub = providers npub := by
  induction roster generalizing providers with
  | nil =>
    cases sent
    exact ⟨nofun, fun _ _ => rfl⟩
  | cons npub rest ih =>
    rw [nodup_cons] at nodup
    simp only [sendAll] at sent
    split at sent
    · cases sent
    · rename_i host done
      have them : ∀ other ∈ rest,
          Function.update providers npub host other = providers other := by
        intro other mem
        apply Function.update_of_ne
        rintro rfl
        exact nodup.1 mem
      obtain ⟨onRest, away⟩ := ih nodup.2 (fun other mem => by
          rw [them other mem]
          exact new other (mem_cons_of_mem _ mem)) sent
      refine ⟨?_, ?_⟩
      · intro other mem
        rcases mem_cons.mp mem with rfl | later
        · rw [away other nodup.1, Function.update_self]
          exact applyRaw_tables done (new other mem_cons_self)
        · have res := onRest other later
          rw [them other later] at res
          exact res
      · intro other gone
        rw [mem_cons, not_or] at gone
        rw [away other gone.2, Function.update_of_ne gone.1]

/-- What `apply_broad_write` has done when it returns without an error. -/
theorem applyBroadWrite_returned {mesh : MeshState} (nodup : mesh.roster.Nodup)
    (new : ∀ npub ∈ mesh.roster, opIds npub ∉ (mesh.providers npub).applied)
    (back : applyBroadWrite schema trigger broadWritesEnabled mesh name write opIds =
      (after, none)) :
    mesh.roster ≠ [] ∧ after.roster = mesh.roster ∧ ∀ npub ∈ mesh.roster, ∃ content,
      write.run schema name (mesh.providers npub).tables = some content ∧
      (after.providers npub).tables = trigger name (mesh.providers npub).tables
        (Function.update (mesh.providers npub).tables name content) := by
  simp only [applyBroadWrite] at back
  split at back
  · cases back
  · split at back
    · cases back
    · rename_i crew
      split at back
      · cases back
      · obtain ⟨rfl, got⟩ := Prod.mk.inj back
        have sent := sendAll_tables nodup new (Prod.ext rfl got)
        exact ⟨by simpa using crew, rfl, sent.1⟩

/--
After `apply_broad_write` has returned without an error (a provider that
refuses the write makes it fail) and without firing triggers, the providers'
tables together are what executing the write once on the whole tables gives,
with no key on two providers, exactly if the write is unmixed.
-/
theorem broad_write_exact_iff (schema : String → Option KeyedTable)
    (trigger : String → (before written : String → Content) → String → Content)
    (broadWritesEnabled : Bool) (mesh after : MeshState) (name : String) (table : KeyedTable)
    (write : BroadWrite) (opIds : String → String)
    (registered : schema name = some table)
    (distinct : mesh.roster.Nodup)
    (lawful : table.Admits (union mesh name))
    (fresh : ∀ npub ∈ mesh.roster, opIds npub ∉ (mesh.providers npub).applied)
    (unfired : ∀ before written, trigger name before written = written)
    (returned : applyBroadWrite schema trigger broadWritesEnabled mesh name write opIds =
      (after, none)) :
    ((∀ other, (union after other).Perm (executeOnce schema name write (union mesh) other)) ∧
      ∀ first ∈ mesh.roster, ∀ second ∈ mesh.roster, first ≠ second →
        ∀ left ∈ (after.providers first).tables name,
          ∀ right ∈ (after.providers second).tables name, table.sameKey left right = false) ↔
      Unmixed table name mesh.roster (fun npub => (mesh.providers npub).tables) write := by
  obtain ⟨crew, eqRoster, sent⟩ := applyBroadWrite_returned distinct fresh returned
  simp only [unfired] at sent
  have distributed : Distributed schema name table write mesh.roster
      (fun npub => (mesh.providers npub).tables)
      (fun npub => (after.providers npub).tables name) := by
    refine ⟨registered, crew, distinct, lawful, ?_⟩
    intro npub mem
    obtain ⟨content, ran, tabs⟩ := sent npub mem
    simp [ran, tabs]
  have untouched : ∀ other, other ≠ name →
      union after other = executeOnce schema name write (union mesh) other := by
    intro other ne
    rw [executeOnce, Function.update_of_ne ne, union, union, eqRoster]
    refine flatMap_congr fun npub mem => ?_
    obtain ⟨content, -, tabs⟩ := sent npub mem
    rw [tabs, Function.update_of_ne ne]
  have here : (∀ other, (union after other).Perm
      (executeOnce schema name write (union mesh) other)) ↔ (union after name).Perm
          (executeOnce schema name write (union mesh) name) := by
    refine ⟨fun all => all name, fun onName other => ?_⟩
    by_cases eq : other = name
    · exact eq ▸ onName
    · rw [untouched other eq]
  rw [here, executeOnce, Function.update_self, union, eqRoster]
  exact distributed.exact_iff

end

/-! ## Notes on two providers -/

/-- The mesh has the notes only. -/
def notesSchema (name : String) : Option KeyedTable :=
  if name = "notes" then some (keyed notesTable) else none

/-- Two providers with a note each. -/
def twoNotes : MeshState :=
  { MeshState.empty ["p1", "p2"] with
    central := fun _ => [note "a" "first", note "b" "second"]
    providers := fun npub =>
      { tables := fun _ =>
          if npub = "p1" then [note "a" "first"] else [note "b" "second"]
        applied := [] } }

/-- `UPDATE notes SET body = ''`. -/
def clearNotes : BroadWrite :=
  .change (.update
    { sql := "UPDATE notes SET body = ''"
      selects := fun _ => true
      assign := fun row => [("id", cell row "id"), ("body", .text "")] })

/-- `INSERT INTO notes SELECT 'c', 'third'`. -/
def constantNote : BroadWrite :=
  .insertSelect
    { source := none
      selects := fun _ => true
      project := fun _ => note "c" "third"
      onConflict := none }

/-- Clearing the notes of both providers clears the table. -/
theorem cleared_on_both_providers :
    (union (applyBroadWrite notesSchema notesSetting.trigger true twoNotes "notes" clearNotes
      (fun npub => npub)).1 "notes").Perm
      (executeOnce notesSchema "notes" clearNotes (union twoNotes) "notes") :=
  ((broad_write_exact_iff notesSchema notesSetting.trigger true twoNotes _ "notes"
    (keyed notesTable) clearNotes (fun npub => npub) rfl (by decide)
    (by decide +kernel) (by decide) (fun _ _ => rfl) (Prod.ext rfl (by decide +kernel))).mpr (by
        simp only [clearNotes, Unmixed]
        decide +kernel)).1 "notes"

/-- A row without a source is added on both providers. -/
theorem constant_row_is_inserted_twice :
    (applyBroadWrite notesSchema notesSetting.trigger true twoNotes "notes" constantNote
      (fun npub => npub)).2 = none ∧
    (union (applyBroadWrite notesSchema notesSetting.trigger true twoNotes "notes" constantNote
      (fun npub => npub)).1 "notes").length = 4 ∧
    (executeOnce notesSchema "notes" constantNote (union twoNotes)
      "notes").length = 3 := by
  decide +kernel

end StorageOrchestrator.Mesh.Broad
