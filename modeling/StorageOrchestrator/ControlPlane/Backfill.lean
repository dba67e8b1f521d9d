import StorageOrchestrator.Blossom.Proxy
import StorageOrchestrator.ControlPlane.Service
import StorageOrchestrator.Lib.FirstPerKey

/-!
# Replacing replica URLs by provider ids

`POST /storages/backfill-replicas` builds a table of the URLs of the storages,
leaving out those that two storages share, and rewrites the replica lists of
the blobs with it.  It reads one row of every hash, in an order the database
chooses, and writes the rewritten list to all rows of that hash.
-/

namespace StorageOrchestrator.ControlPlane.Backfill

open Blossom.BlobStore Blossom.Proxy ControlPlane Lib.FirstPerKey Lib.Text List

/-- A storage registered under the id of an account. -/
abbrev Provider := { storage : Storage // "npub1".toList <+: storage.npub.toList }

/-- The URLs a storage is reached at; there is none without a tunnel address. -/
def urls (storage : Storage) : List String :=
  match storage.tunnelIp, storage.blossomPort with
  | some tunnelIp, some port =>
    if tunnelIp = "" then []
    else ["http://" ++ tunnelIp ++ ":" ++ toString port,
      "https://" ++ tunnelIp ++ ":" ++ toString port]
  | _, _ => []

def normalizeUrl (value : String) : String :=
  String.ofList (trimEndMatches (· == '/') value.toList)

/-- The URLs with one storage, and those found with two. -/
structure Aliases where
  npubOf : String → Option String
  ambiguous : String → Bool

/-- `addAlias`. -/
def Aliases.add (aliases : Aliases) (entry : String × String) : Aliases :=
  match (aliases.npubOf entry.1).filter fun existing => existing ≠ "" ∧ existing ≠ entry.2 with
  | some _ =>
    { npubOf := Function.update aliases.npubOf entry.1 none
      ambiguous := Function.update aliases.ambiguous entry.1 true }
  | none =>
    if aliases.ambiguous entry.1 then aliases
    else { aliases with npubOf := Function.update aliases.npubOf entry.1 (some entry.2) }

def entries (storages : List Provider) : List (String × String) :=
  storages.flatMap fun storage => (urls storage.1).map fun url => (url, storage.1.npub)

def aliasesOf (storages : List Provider) : Aliases :=
  (entries storages).foldl Aliases.add ⟨fun _ => none, fun _ => false⟩

/-- The id that replaces an entry of a replica list. -/
def replacement (storages : List Provider) (replica : String) : Option String :=
  if rawUrl replica then
    ((aliasesOf storages).npubOf (normalizeUrl replica)).filter fun npub => npub ≠ ""
  else none

/-- `rewrite`. -/
def rewrite (storages : List Provider) (replicas : List String) : List String :=
  replicas.map fun replica => (replacement storages replica).getD replica

/-- The rows read: one of every hash, as `distinct` picks it. -/
def distinctHashes : List BlobRow → List BlobRow := firstPerKey BlobRow.hash

structure Report where
  changedRows : Nat
  replacedValues : Nat
  unmatchedValues : Nat
deriving DecidableEq, Repr

/-- `updateMany` on the rows of a hash. -/
def updateMany (rows : List BlobRow) (hash : String) (replicas : List String) : List BlobRow :=
  rows.map fun row => if row.hash = hash then { row with replicas := replicas } else row

/-- What is written for one of the rows read. -/
def updateRows (storages : List Provider) (rows : List BlobRow) (blob : BlobRow) : List BlobRow :=
  if rewrite storages blob.replicas = blob.replicas then rows
  else updateMany rows blob.hash (rewrite storages blob.replicas)

/-- The route; `listed` are the rows in the order in which they are read. -/
def backfillReplicas (storages : List Provider) (dryRun : Bool) (listed rows : List BlobRow) :
    List BlobRow × Report :=
  let read := (distinctHashes listed).flatMap BlobRow.replicas
  (if dryRun then rows else (distinctHashes listed).foldl (updateRows storages) rows,
    { changedRows := (distinctHashes listed).countP fun blob =>
        rewrite storages blob.replicas ≠ blob.replicas
      replacedValues := read.countP fun replica => (replacement storages replica).isSome
      unmatchedValues := read.countP fun replica =>
        rawUrl replica && (replacement storages replica).isNone })

/-! ## The alias table -/

/-- The URL is one of the storage with this id. -/
def Belongs (storages : List Provider) (url npub : String) : Prop := (url, npub) ∈ entries storages

/-- What the alias table holds after some entries. -/
structure Recorded (done : List (String × String)) (aliases : Aliases) : Prop where
  single : ∀ url npub, aliases.npubOf url = some npub ↔
    (url, npub) ∈ done ∧ ∀ other, (url, other) ∈ done → other = npub
  shared : ∀ url, aliases.ambiguous url = true ↔
    ∃ npub other, (url, npub) ∈ done ∧ (url, other) ∈ done ∧ npub ≠ other

/-- A URL with one id is in the table unless another id comes. -/
theorem Recorded.add {aliases : Aliases} (noted : Recorded done aliases)
    (named : ∀ entry ∈ done, entry.2 ≠ "") (entry : String × String) :
    Recorded (done ++ [entry]) (aliases.add entry) := by
  obtain ⟨url, npub⟩ := entry
  have single := noted.single
  have shared := noted.shared
  have new : aliases.npubOf url = none → aliases.ambiguous url = false →
      ∀ other, (url, other) ∉ done := by
    intro lacks alone other mem
    have other' : ∃ another, (url, another) ∈ done ∧ another ≠ other := by
      by_contra all
      push Not at all
      exact absurd ((single url other).mpr ⟨mem, all⟩) (by simp [lacks])
    obtain ⟨another, ended, differs⟩ := other'
    simp [(shared url).mpr ⟨_, _, ended, mem, differs⟩] at alone
  rw [Aliases.add]
  split
  · rename_i old found
    rw [Option.filter_eq_some_iff] at found
    constructor
    · intro other id
      by_cases eq : other = url <;> grind
    · intro other
      by_cases eq : other = url
      · subst eq
        have pre := ((single other old).mp found.1).1
        simp only [Function.update_self, true_iff]
        refine ⟨old, npub, by simp [pre], by simp, ?_⟩
        simpa using (of_decide_eq_true found.2).2
      · grind
  · rename_i found
    rw [Option.filter_eq_none_iff] at found
    split
    · constructor <;> grind
    · constructor
      · intro other id
        by_cases eq : other = url <;> grind
      · intro other
        by_cases eq : other = url <;> grind

theorem Recorded.foldl {aliases : Aliases} (rest : List (String × String))
    (noted : Recorded done aliases) (named : ∀ entry ∈ done ++ rest, entry.2 ≠ "") :
    Recorded (done ++ rest) (rest.foldl Aliases.add aliases) := by
  induction rest generalizing done aliases with
  | nil => simpa using noted
  | cons entry rest ih =>
    rw [append_cons] at named ⊢
    exact ih (noted.add (fun other mem => named other (by simp [mem])) entry) named

variable {storages : List Provider}

/-- An id is neither empty nor a URL. -/
theorem named_of_belongs (belongs : Belongs storages url npub) :
    npub ≠ "" ∧ rawUrl npub = false := by
  obtain ⟨disk, -, entry⟩ := mem_flatMap.mp belongs
  obtain ⟨_, -, eq⟩ := mem_map.mp entry
  obtain ⟨rest, isNpub⟩ := disk.2
  cases eq
  constructor
  · intro empty
    simp [empty] at isNpub
  · simp [rawUrl, lowered, ← isNpub, isPrefixOf]

theorem recorded_aliasesOf (storages : List Provider) :
    Recorded (entries storages) (aliasesOf storages) := by
  have start : Recorded [] ⟨fun _ => none, fun _ => false⟩ := ⟨by simp, by simp⟩
  have done := start.foldl (entries storages) fun entry mem => (named_of_belongs mem).1
  exact done

theorem replacement_eq_some : replacement storages replica = some npub ↔ rawUrl replica = true ∧
    Belongs storages (normalizeUrl replica) npub ∧
      ∀ other, Belongs storages (normalizeUrl replica) other → other = npub := by
  rw [replacement]
  split
  · rename_i isUrl
    rw [Option.filter_eq_some_iff, (recorded_aliasesOf storages).single]
    constructor
    · rintro ⟨alone, -⟩
      exact ⟨isUrl, alone⟩
    · rintro ⟨-, alone⟩
      exact ⟨alone, by simpa using (named_of_belongs alone.1).1⟩
  · simp_all

/-! ## What each row should become -/

open Classical in
/-- An entry that is a URL of exactly one storage becomes its id; others stay. -/
noncomputable def attributed (storages : List Provider) (replica : String) : String :=
  if unique : rawUrl replica = true ∧ ∃ npub, Belongs storages (normalizeUrl replica) npub ∧
      ∀ other, Belongs storages (normalizeUrl replica) other → other = npub then
    unique.2.choose
  else replica

theorem attributed_eq (storages : List Provider) (replica : String) :
    attributed storages replica = (replacement storages replica).getD replica := by
  rw [attributed]
  split
  · rename_i unique
    rw [replacement_eq_some.mpr ⟨unique.1, unique.2.choose_spec⟩, Option.getD_some]
  · rename_i shared
    cases found : replacement storages replica with
    | none => rfl
    | some npub =>
      have alone := replacement_eq_some.mp found
      exact absurd ⟨alone.1, npub, alone.2⟩ shared

/-- The row with every entry of its own list attributed. -/
noncomputable def attributedRow (storages : List Provider) (row : BlobRow) : BlobRow :=
  { row with replicas := row.replicas.map (attributed storages) }

theorem attributedRow_eq (storages : List Provider) (row : BlobRow) :
    attributedRow storages row = { row with replicas := rewrite storages row.replicas } := by
  rw [attributedRow, funext (attributed_eq storages)]
  rfl

/-- A rewritten list has no entry left to replace. -/
theorem rewrite_rewrite (storages : List Provider) (replicas : List String) :
    rewrite storages (rewrite storages replicas) = rewrite storages replicas := by
  refine (map_congr_left fun copy mem => ?_).trans (map_id _)
  obtain ⟨old, -, rfl⟩ := mem_map.mp mem
  cases found : replacement storages old with
  | none => simp [found]
  | some npub =>
    have isNpub := (named_of_belongs (replacement_eq_some.mp found).2.1).2
    simp [replacement, isNpub]

/-! ## What the route writes -/

theorem find?_distinctHashes (hash : String) (has : List BlobRow) :
    (distinctHashes has).find? (fun blob => blob.hash = hash) =
      has.find? fun blob => blob.hash = hash := by
  rw [← head?_filter, distinctHashes, filter_firstPerKey, Option.head?_toList]

/-- The replicas of a row after the update, by the row read of its hash. -/
def written (storages : List Provider) (listed : List BlobRow) (row : BlobRow) : List String :=
  match listed.find? fun blob => blob.hash = row.hash with
  | some blob =>
    if rewrite storages blob.replicas = blob.replicas then row.replicas
    else rewrite storages blob.replicas
  | none => row.replicas

theorem foldl_updateRows (storages : List Provider) (blobs rows : List BlobRow)
    (nodup : (blobs.map BlobRow.hash).Nodup) :
    blobs.foldl (updateRows storages) rows =
      rows.map fun row => { row with replicas := written storages blobs row } := by
  induction blobs generalizing rows with
  | nil => simp [written]
  | cons blob blobs ih =>
    obtain ⟨rest, nodup⟩ := nodup_cons.mp nodup
    rw [foldl_cons, ih _ nodup, updateRows]
    split
    · rename_i eq
      refine map_congr_left fun row mem => ?_
      by_cases own : blob.hash = row.hash
      · have lacks : blobs.find? (fun other => other.hash = row.hash) = none := by
          simpa [← own] using rest
        simp [written, own, eq, lacks]
      · simp [written, own]
    · rename_i new
      rw [updateMany, map_map]
      refine map_congr_left fun row mem => ?_
      by_cases own : row.hash = blob.hash
      · have lacks : blobs.find? (fun other => other.hash = blob.hash) = none := by
          simpa using rest
        simp [written, own, new, lacks]
      · simp [written, own, Ne.symm own]

theorem rows_backfillReplicas (storages : List Provider) (has rows : List BlobRow) :
    (backfillReplicas storages false has rows).1 =
      rows.map fun row => { row with replicas := written storages has row } := by
  rw [backfillReplicas, if_neg (by simp), foldl_updateRows _ (distinctHashes has) _
    (nodup_map_firstPerKey _ has)]
  simp [written, find?_distinctHashes]

/--
Every row keeps its own list with exactly the attributable entries replaced, a
second run in any order changes nothing, and a dry run changes nothing and
reports the same.
-/
def KeepsPointers (storages : List Provider) (listed rows : List BlobRow) : Prop :=
  let after := (backfillReplicas storages false listed rows).1
  after = rows.map (attributedRow storages) ∧
    (∀ again, again.Perm after → (backfillReplicas storages false again after).1 = after) ∧
    backfillReplicas storages true listed rows =
      (rows, (backfillReplicas storages false listed rows).2)

/--
The backfill keeps every pointer exactly when each row that is not read has the
list that its own entries give: that of the row read of its hash if that one
changes, and its old one if not.
-/
theorem keepsPointers_iff (storages : List Provider) (listed rows : List BlobRow)
    (order : listed.Perm rows) :
    KeepsPointers storages listed rows ↔ ∀ row ∈ rows, ∀ blob,
      listed.find? (fun blob => blob.hash = row.hash) = some blob → rewrite storages row.replicas =
          if rewrite storages blob.replicas = blob.replicas then row.replicas
          else rewrite storages blob.replicas := by
  have written_iff : (backfillReplicas storages false listed rows).1 =
      rows.map (attributedRow storages) ↔
        ∀ row ∈ rows, written storages listed row = rewrite storages row.replicas := by
    rw [rows_backfillReplicas, map_inj_left]
    refine forall₂_congr fun row mem => ?_
    rw [attributedRow_eq, BlobRow.mk.injEq]
    simp
  have same : (∀ row ∈ rows, written storages listed row = rewrite storages row.replicas) ↔
      ∀ row ∈ rows, ∀ blob, listed.find? (fun blob => blob.hash = row.hash) = some blob →
        rewrite storages row.replicas =
          if rewrite storages blob.replicas = blob.replicas then row.replicas
          else rewrite storages blob.replicas := by
    refine forall₂_congr fun row mem => ?_
    have isListed : (listed.find? fun blob => blob.hash = row.hash).isSome :=
      find?_isSome.mpr ⟨row, order.symm.subset mem, by simp⟩
    obtain ⟨blob, found⟩ := Option.isSome_iff_exists.mp isListed
    simp only [written, found, Option.some.injEq, forall_eq']
    exact eq_comm
  rw [← same, ← written_iff]
  refine ⟨And.left, fun kept => ⟨kept, fun again eq => ?_, rfl⟩⟩
  have done : ∀ blob ∈ again, rewrite storages blob.replicas = blob.replicas := by
    intro blob mem
    rw [eq.mem_iff, kept] at mem
    obtain ⟨row, -, rfl⟩ := mem_map.mp mem
    rw [attributedRow_eq]
    exact rewrite_rewrite storages row.replicas
  rw [rows_backfillReplicas]
  refine (map_congr_left fun row _ => ?_).trans (map_id _)
  rw [written]
  split
  · rename_i blob found
    rw [if_pos (done blob (mem_of_find?_eq_some found))]
    rfl
  · rfl

/-- A storage behind a tunnel address. -/
def tunnel : Provider :=
  ⟨{ npub := "npub1a", ownerNpub := "npub1o", tunnelIp := some "10.0.0.1", blossomPort := some 3000
     declaredCapacityBytes := none, reportedTotalBytes := none, reportedFreeBytes := none
     lifecycle := .linked, lastPingAt := none, createdAt := 0 }, by decide⟩

def aliceRow : BlobRow := ⟨"h", "alice", 1, ["http://10.0.0.1:3000/"], 0⟩

/-- Another account owns the same blob, on another provider. -/
def bobRow : BlobRow := ⟨"h", "bob", 1, ["npub1b"], 1⟩

/-- Bob's pointer is overwritten with Alice's. -/
theorem backfill_overwrites : ¬ KeepsPointers [tunnel] [aliceRow, bobRow] [aliceRow, bobRow] := by
  rintro ⟨kept, -⟩
  rw [funext (attributedRow_eq [tunnel])] at kept
  revert kept
  decide +kernel

/-- A third account has the blob where Alice has it, by the name of the storage. -/
def carolRow : BlobRow := ⟨"h", "carol", 1, ["npub1a"], 2⟩

theorem keepsPointers_alice : KeepsPointers [tunnel] [aliceRow, carolRow] [aliceRow, carolRow] :=
  (keepsPointers_iff [tunnel] [aliceRow, carolRow] [aliceRow, carolRow] .rfl).mpr (by
    intro row mem blob found
    rcases mem_pair.mp mem with rfl | rfl
    · cases found
      decide +kernel
    · cases found
      decide +kernel)

end StorageOrchestrator.ControlPlane.Backfill
