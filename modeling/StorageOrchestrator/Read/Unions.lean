import StorageOrchestrator.Lib.Shares
import StorageOrchestrator.Read.Pushdown

/-!
# Pushed-down unions

A UNION is evaluated by every provider, which drops the repetitions among its
own rows only, and the gateway merges the answers by the primary key of the
first table.  Two things can go wrong.  A row that does not show the key is
repeated when two providers have it, since nothing at the gateway compares
rows; and of the rows that show one key, the merge keeps the first, also where
UNION ALL or different branches mean several.  A pushed-down union is exact
precisely when neither happens.
-/

namespace StorageOrchestrator.Read.Unions

open Lib.KeyedMerge Lib.Shares Mesh.Reads Read.Sql Read.Fanout Read.Pushdown
open List hiding all

/-! ## Conditions -/

/-- No operand has an ORDER BY, LIMIT or OFFSET of its own. -/
def Unbounded : SetExpr → Prop
  | .select _ | .summary _ _ => True
  | .query inner bounds => bounds = Bounds.absent ∧ Unbounded inner
  | .setOperation _ _ left right => Unbounded left ∧ Unbounded right
  | .values _ => True

/-- No branch has an aggregate that the analyzer does not see. -/
def Rowwise : SetExpr → Prop
  | .summary _ _ => False
  | .query inner _ => Rowwise inner
  | .setOperation _ _ left right => Rowwise left ∧ Rowwise right
  | .select _ | .values _ => True

section

variable (whole : Database) (providers : List Database) (schema : Schema)

/--
The rows of a branch are those of the providers, up to the repetitions that
DISTINCT drops.  A branch that reads one table splits under every partition
(`splits_of_table`).
-/
def Splits (branch : Select) : Prop :=
  match branch.distinct with
  | .on _ =>
    (branch.rows schema whole).Perm (providers.flatMap fun database => branch.rows schema database)
  | _ => AddsUp whole providers schema branch

/-- LIMIT and OFFSET of the whole query cut nothing. -/
structure Uncut (query : Query) : Prop where
  offset : query.bounds.offset = 0
  limit : ∀ limit, query.bounds.limit = some limit → ∀ database ∈ whole :: providers,
      (query.body.rows schema database).length ≤ limit

/-- No row of a kind is answered by two providers. -/
def AnsweredOnce (kind : Tuple → Bool) (rows : Database → List Tuple) : Prop :=
  providers.Pairwise fun first second =>
    ∀ row, kind row → row ∈ rows first → row ∉ rows second

/--
Wherever repetitions are dropped, no row of a kind is answered by two
providers.  Inside a UNION its operands may repeat rows.
-/
def RepeatsNone (kind : Tuple → Bool) : SetExpr → Prop
  | .select branch => branch.distinct = .distinct →
      AnsweredOnce providers kind fun database => branch.rows schema database
  | .query inner _ => RepeatsNone kind inner
  | .setOperation _ true left right =>
    RepeatsNone kind left ∧ RepeatsNone kind right
  | .setOperation operator false left right =>
    AnsweredOnce providers kind fun database =>
      (SetExpr.setOperation operator false left right).rows schema database
  | .summary _ _ | .values _ => True

end

/-! ## Branches -/

section

/-- Without subqueries, a branch that reads one table splits. -/
theorem splits_of_table (parts : Partition whole providers) {branch : Select}
    (single : branch.sources = [⟨.table name, []⟩]) (plain : ∀ key, branch.distinct ≠ .on key)
    (same : Agrees whole providers schema branch) :
    Splits whole providers schema branch := by
  have addsUp : AddsUp whole providers schema branch := by
    apply addsUp_of_coLocated single trivial (parts name) _ same
    intro join isJoined
    cases isJoined
  rw [Splits]
  split
  · rename_i key isOn
    exact absurd isOn (plain key)
  · exact addsUp

theorem covers_branch (cut : Splits whole providers schema arm) :
    Covers (arm.rows schema whole) (providers.flatMap fun db => arm.rows schema db) := by
  cases isDistinct : arm.distinct with
  | absent =>
    simp only [Splits, isDistinct] at cut
    simp only [Select.rows, isDistinct, DistinctClause.apply]
    exact covers_of_perm cut
  | distinct =>
    simp only [Splits, isDistinct] at cut
    simp only [Select.rows, isDistinct, DistinctClause.apply]
    exact (covers_of_perm cut).dedup
  | on key =>
    simp only [Splits, isDistinct] at cut
    exact covers_of_perm cut

theorem perm_filter_branch_iff (kind : Tuple → Bool) (cut : Splits whole providers schema arm) :
    ((providers.flatMap fun db =>
      arm.rows schema db).filter kind).Perm ((arm.rows schema whole).filter kind) ↔
      RepeatsNone providers schema kind (.select arm) := by
  cases isDistinct : arm.distinct with
  | absent =>
    simp only [Splits, isDistinct] at cut
    simp only [RepeatsNone, isDistinct, reduceCtorEq, false_imp_iff,
      iff_true, Select.rows, DistinctClause.apply]
    exact cut.symm.filter kind
  | distinct =>
    simp only [Splits, isDistinct] at cut
    simp only [RepeatsNone, isDistinct, true_imp_iff, AnsweredOnce,
      Select.rows, DistinctClause.apply, mem_dedup]
    exact perm_filter_dedup_iff kind (covers_of_perm cut)
  | on key =>
    simp only [Splits, isDistinct] at cut
    simp only [RepeatsNone, isDistinct, reduceCtorEq, false_imp_iff, iff_true]
    exact cut.symm.filter kind

end

/-! ## Union trees -/

section

/-- What the analyzer accepts as operands of a set operation. -/
theorem union_of_collected
    (got : collectUnionSelects (.setOperation operator all left right) = .ok branches) :
    operator = .union ∧ ∃ lefts rights, collectUnionSelects left = .ok lefts ∧
      collectUnionSelects right = .ok rights ∧ branches = lefts ++ rights := by
  simp only [collectUnionSelects] at got
  split at got
  · rename_i isUnion
    split at got
    · rename_i lefts rights isLefts isRights
      cases got
      exact ⟨isUnion, lefts, rights, isLefts, isRights, rfl⟩
    · cases got
    · cases got
  · cases got

/-- The rows of a union over the whole database against those of providers. -/
theorem covers_rows {arms : List Select} (got : collectUnionSelects body = .ok arms)
    (free : Unbounded body) (rowwise : Rowwise body)
    (cut : ∀ arm ∈ arms, Splits whole providers schema arm) :
    Covers (body.rows schema whole) (providers.flatMap fun db => body.rows schema db) := by
  induction body generalizing arms with
  | select arm =>
    cases got
    exact covers_branch (cut arm (mem_singleton_self _))
  | summary => exact rowwise.elim
  | query inner limit ih =>
    rcases free with ⟨rfl, free⟩
    exact ih got free rowwise cut
  | setOperation op all left right ihl ihr =>
    rcases union_of_collected got with ⟨rfl, lefts, rights, isLefts, isRights, rfl⟩
    have leftCovers := ihl isLefts free.1 rowwise.1 fun arm isBranch =>
      cut arm (mem_append_left _ isBranch)
    have rightCovers := ihr isRights free.2 rowwise.2
      fun arm isBranch => cut arm (mem_append_right _ isBranch)
    have covered := (leftCovers.append rightCovers).perm (flatMap_append_perm providers _ _)
    cases all with
    | true => exact covered
    | false => exact covered.dedup
  | values rows => cases got

/-- When the providers repeat no row of a kind. -/
theorem perm_filter_rows_iff (kind : Tuple → Bool) {arms : List Select}
    (got : collectUnionSelects body = .ok arms) (free : Unbounded body)
    (rowwise : Rowwise body) (cut : ∀ arm ∈ arms, Splits whole providers schema arm) :
    ((providers.flatMap fun db =>
      body.rows schema db).filter kind).Perm ((body.rows schema whole).filter kind) ↔
      RepeatsNone providers schema kind body := by
  induction body generalizing arms with
  | select arm =>
    cases got
    exact perm_filter_branch_iff kind (cut arm (mem_singleton_self _))
  | summary => exact rowwise.elim
  | query inner limit ih =>
    rcases free with ⟨rfl, free⟩
    exact ih got free rowwise cut
  | setOperation op all left right ihl ihr =>
    rcases union_of_collected got with ⟨rfl, lefts, rights, isLefts, isRights, rfl⟩
    have leftSplits := fun arm isBranch =>
      cut arm (mem_append_left rights isBranch)
    have rightSplits := fun arm isBranch =>
      cut arm (mem_append_right lefts isBranch)
    have leftCovers := covers_rows isLefts free.1 rowwise.1 leftSplits
    have rightCovers := covers_rows isRights free.2 rowwise.2 rightSplits
    have exchanged := flatMap_append_perm providers (fun db => left.rows schema db)
      (fun db => right.rows schema db)
    cases all with
    | true =>
      simp only [RepeatsNone, SetExpr.rows, SetOperator.apply]
      rw [← ihl isLefts free.1 rowwise.1 leftSplits,
        ← ihr isRights free.2 rowwise.2 rightSplits,
        ← perm_filter_append_iff kind leftCovers rightCovers]
      exact ((exchanged.filter kind).congr_left _).symm
    | false =>
      simp only [RepeatsNone, AnsweredOnce, SetExpr.rows, SetOperator.apply, mem_dedup]
      exact perm_filter_dedup_iff kind ((leftCovers.append rightCovers).perm exchanged)
  | values rows => cases got

end

/-! ## Reads of unions -/

section

variable {whole : Database} {providers : List Database} {schema : Schema} {query : Query}

/-- Bounds that cut nothing only order the rows. -/
theorem apply_perm_of_uncut {bounds : Bounds} (offset : bounds.offset = 0) {rows : List Tuple}
    (short : ∀ limit, bounds.limit = some limit → rows.length ≤ limit) :
    (bounds.apply rows).Perm rows := by
  rcases bounds with ⟨order, limit, start⟩
  cases offset
  have uncut : ∀ sorted : List Tuple, sorted.Perm rows →
      (Bounds.apply ⟨none, limit, 0⟩ sorted).Perm rows := by
    intro sorted eq
    cases limit with
    | none => exact eq
    | some limit =>
      have all : sorted.take limit = sorted := by
        apply take_of_length_le
        rw [eq.length_eq]
        exact short limit rfl
      simp only [Bounds.apply, drop_zero, all]
      exact eq
  cases order with
  | none => exact uncut rows (.refl rows)
  | some order => exact uncut _ (perm_insertionSort _ rows)

theorem answer_perm_of_uncut (uncut : Uncut whole providers schema query)
    (isDatabase : database ∈ whole :: providers) :
    (query.answer schema database).Perm ((query.body.rows schema database).map
      (wireRow (query.body.names schema))) :=
  (apply_perm_of_uncut uncut.offset fun limit isLimit =>
    uncut.limit limit isLimit database isDatabase).map _

theorem overlayIsSafe_of_setOperation
    (isUnion : query.body = .setOperation operator all left right) :
    overlayIsSafe query = false := by
  rw [overlayIsSafe, isUnion]

/--
A read of a union is exact precisely when no two rows of its answer show the
same key and, wherever the union drops repetitions, no row without the key is
answered by two providers.
-/
theorem union_read_exact_iff {operator : SetOperator} {all : Bool} {left right : SetExpr}
    (isUnion : query.body = .setOperation operator all left right)
    (accepted : analyzeSelect query = .ok .read)
    (unbounded : Unbounded query.body) (rowwise : Rowwise query.body)
    (splits : ∀ branches, collectUnionSelects query.body = .ok branches →
      ∀ branch ∈ branches, Splits whole providers schema branch)
    (uncut : Uncut whole providers schema query)
    (inhabited : providers ≠ [])
    (hashes : Arrangement WireRow) (pk : String)
    (pending : List (String × WireRow)) :
    ReadsExactly hashes schema pk query whole providers pending ↔ KeysOnce schema pk query whole ∧
        RepeatsNone providers schema (withoutKey schema pk query)
          query.body := by
  have got : ∃ branches, collectUnionSelects query.body = .ok branches := by
    simp only [analyzeSelect, isUnion] at accepted
    split at accepted
    · cases accepted
    · split at accepted
      · rename_i branches isBranches
        exact ⟨branches, by rw [isUnion]; exact isBranches⟩
      · cases accepted
  rcases got with ⟨branches, got⟩
  have covers := covers_rows got unbounded rowwise (splits branches got)
  have wholeAnswer := answer_perm_of_uncut uncut mem_cons_self
  have ans : (providers.flatMap (query.answer schema)).Perm
      ((providers.flatMap fun db => query.body.rows schema db).map
        (wireRow (query.body.names schema))) := by
    rw [map_flatMap]
    apply List.Perm.flatMap_left
    intro db host
    exact answer_perm_of_uncut uncut (mem_cons_of_mem _ host)
  have covered : query.answer schema whole ⊆ providers.flatMap (query.answer schema) :=
    List.Subset.trans wholeAnswer.subset
      (List.Subset.trans (map_subset _ covers.subperm.subset) ans.symm.subset)
  have coversAnswer : providers.flatMap (query.answer schema) ⊆ query.answer schema whole :=
    List.Subset.trans ans.subset (List.Subset.trans (map_subset _ covers.subset)
        wholeAnswer.symm.subset)
  have notSafe : overlayIsSafe query = true → pending = [] := by
    rw [overlayIsSafe_of_setOperation isUnion]
    exact fun safe => absurd safe Bool.false_ne_true
  rw [readsExactly_iff inhabited notSafe, merge_perm_iff hashes covered coversAnswer, KeysOnce]
  apply and_congr_right
  intro _
  have sameShares : (keyless (keyText pk) (providers.flatMap (query.answer schema))).Perm _ :=
    ans.filter fun row => (keyText pk row).isNone
  have sameWhole : (keyless (keyText pk) (query.answer schema whole)).Perm _ :=
    wholeAnswer.filter fun row => (keyText pk row).isNone
  rw [sameShares.congr_left, sameWhole.congr_right, ← keyless, ← keyless, keyless_map, keyless_map,
    perm_map_iff_of_subperm (covers.subperm.filter _),
    perm_filter_rows_iff _ got unbounded rowwise (splits branches got)]

end

/-! ## Unions of events -/

def eventColumn (column : String) : Select :=
  { sources := [{ relation := .table "events", joins := [] }]
    selection := none
    grouped := false
    having := false
    distinct := .absent
    projection := [.unnamed (columnExpr column) column] }

/-- `(SELECT … FROM events) UNION [ALL] (SELECT … FROM events)`. -/
def eventsUnion (all : Bool) (column : String) : Query :=
  { hasWith := false
    hasFetch := false
    hasLocks := false
    body := .setOperation .union all (.select (eventColumn column)) (.select (eventColumn column))
    bounds := Bounds.absent }

theorem partition_two_events :
    Partition (eventsOnly [storedEvent "ab" 1, storedEvent "cd" 1])
      [eventsOnly [storedEvent "ab" 1], eventsOnly [storedEvent "cd" 1]] := by
  intro name
  simp only [eventsOnly, flatMap_cons, flatMap_nil]
  split
  · exact .refl _
  · exact .refl _

/-- The keys of two events on two providers. -/
theorem events_union_exact :
    ReadsExactly reversed eventsSchema "event_id"
      (eventsUnion false "event_id")
      (eventsOnly [storedEvent "ab" 1, storedEvent "cd" 1])
      [eventsOnly [storedEvent "ab" 1], eventsOnly [storedEvent "cd" 1]]
      [] := by
  have cut : Splits (eventsOnly [storedEvent "ab" 1, storedEvent "cd" 1])
      [eventsOnly [storedEvent "ab" 1], eventsOnly [storedEvent "cd" 1]]
      eventsSchema (eventColumn "event_id") := by
    refine splits_of_table partition_two_events rfl nofun ?_
    constructor
    · intro h sel
      cases sel
    · intro output out db _ comb _
      rw [mem_singleton.mp out]
      rfl
  have free : Unbounded (eventsUnion false "event_id").body := ⟨trivial, trivial⟩
  have uncut : Uncut (eventsOnly [storedEvent "ab" 1, storedEvent "cd" 1])
      [eventsOnly [storedEvent "ab" 1], eventsOnly [storedEvent "cd" 1]]
      eventsSchema (eventsUnion false "event_id") := by
    constructor
    · rfl
    · intro limit isLimit
      cases isLimit
  refine (union_read_exact_iff rfl rfl free ⟨trivial, trivial⟩ ?_ uncut
    (cons_ne_nil _ _) reversed "event_id" []).mpr ⟨?_, ?_⟩
  · intro arms got arm isBranch
    cases got
    rcases mem_pair.mp isBranch with rfl | rfl
    · exact cut
    · exact cut
  · rw [KeysOnce]
    decide
  · refine pairwise_pair.mpr ?_
    intro row keyed memL
    have isRow := mem_singleton.mp memL
    rw [isRow] at keyed
    cases keyed

/--
A kind that two providers have comes twice out of UNION, and UNION ALL gives
every key once.
-/
theorem events_union_repeats :
    analyzeSelect (eventsUnion false "event_kind") = .ok .read ∧
      analyzeSelect (eventsUnion true "event_id") = .ok .read ∧
      Partition (eventsOnly [storedEvent "ab" 1, storedEvent "cd" 1])
        [eventsOnly [storedEvent "ab" 1], eventsOnly [storedEvent "cd" 1]] ∧
      ¬ ReadsExactly reversed eventsSchema "event_id"
        (eventsUnion false "event_kind")
        (eventsOnly [storedEvent "ab" 1, storedEvent "cd" 1])
        [eventsOnly [storedEvent "ab" 1], eventsOnly [storedEvent "cd" 1]]
        [] ∧
      ¬ ReadsExactly reversed eventsSchema "event_id"
        (eventsUnion true "event_id")
        (eventsOnly [storedEvent "ab" 1, storedEvent "cd" 1])
        [eventsOnly [storedEvent "ab" 1], eventsOnly [storedEvent "cd" 1]]
        [] := by
  refine ⟨rfl, rfl, partition_two_events, ?_, ?_⟩
  · rintro ⟨rows, read, eq⟩
    have twice : fanoutRead reversed eventsSchema "event_id"
        (eventsUnion false "event_kind")
        [eventsOnly [storedEvent "ab" 1], eventsOnly [storedEvent "cd" 1]] [] =
        .ok [[("event_kind", .number "1")], [("event_kind", .number "1")]] := by
      rfl
    rw [twice] at read
    cases read
    exact absurd eq.length_eq (by decide)
  · rintro ⟨rows, read, eq⟩
    have once : fanoutRead reversed eventsSchema "event_id"
        (eventsUnion true "event_id")
        [eventsOnly [storedEvent "ab" 1], eventsOnly [storedEvent "cd" 1]] [] =
        .ok [[("event_id", .str "\\xcd")], [("event_id", .str "\\xab")]] := by
      rfl
    rw [once] at read
    cases read
    exact absurd eq.length_eq (by decide)

end StorageOrchestrator.Read.Unions
