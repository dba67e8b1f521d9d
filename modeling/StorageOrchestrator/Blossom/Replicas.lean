import StorageOrchestrator.Blossom.Bytes

/-!
# Replica lists and orphan bytes

All rows of one hash should carry one replica list, and a provider should
hold the bytes of a hash only while some row of the hash names it.

An upload that finds no row stores the bytes on providers of its own choice.
Two such uploads of one hash, both past their lookup before either row
exists, write rows with different lists, and the delete of the last owner
then goes to one of the two lists only (`first_uploads_leave_orphans`).

A request that has looked a hash up counts on what it saw: a first upload on
there being no row, every other request on the replica list it has read.  If
an upload finds a hash free only while no other request counts on it, and the
answer to the delete of a last row is not lost, both properties hold whenever
no request is in flight (`serialised_run_keeps_replicas`).
-/

namespace StorageOrchestrator.Blossom.Replicas

open Blossom.BlobStore Blossom.Bytes Blossom.Proxy Lib.Placement Lib.Transition List

variable {next : Task} {task : Task} {db : Database} {roster replicas : List String} {row : BlobRow}
  {delivery : Delivery}

/-! ## What should hold at rest -/

/-- Rows of one hash carry one replica list. -/
abbrev SameReplicas (db : Database) : Prop :=
  ∀ row ∈ db.blobs, ∀ other ∈ db.blobs, row.hash = other.hash → row.replicas = other.replicas

/-- Some row of the hash names the provider of the copy. -/
abbrev Named (db : Database) (copy : String × String) : Prop :=
  ∃ row ∈ db.blobs, row.hash = copy.2 ∧ copy.1 ∈ row.replicas

/-- Every copy on a provider is named by a row. -/
abbrev NoOrphans (cluster : Cluster) : Prop := ∀ copy ∈ cluster.held, Named cluster.db copy

/-- The proxy can reach every provider that a row names. -/
abbrev RowsResolve (cluster : Cluster) : Prop :=
  ∀ row ∈ cluster.db.blobs, ∀ provider ∈ row.replicas, resolves cluster.roster provider

/-! ## What a request in flight counts on -/

/-- The hash of an upload that found no row of it. -/
def firstHash : Task → Option String
  | .upload upload .placing | .upload upload (.storing _ _) | .upload upload (.creating true _) =>
    some upload.hash
  | _ => none

def listEntry (row : BlobRow) : String × List String := (row.hash, row.replicas)

/-- The replica lists that a request has read and will still use. -/
def readLists : Task → List (String × List String)
  | .upload upload (.creating false replicas) | .upload upload (.claiming replicas) =>
    [(upload.hash, replicas)]
  | .delete _ hash (.deletingRow replicas) | .moderate hash (.deletingRow replicas) =>
    [(hash, replicas)]
  | .purge _ (.deletingRow hash replicas rest) =>
    (hash, replicas) :: rest.map listEntry
  | .purge _ (.removing _ _ rest) => rest.map listEntry
  | _ => []

def copiesOn (hash : String) (providers : List String) : List (String × String) :=
  providers.map fun provider => (provider, hash)

/-- The copies that a request still has to give a row or to remove. -/
def pendingBytes : Task → List (String × String)
  | .upload upload (.storing _ stored) => copiesOn upload.hash stored
  | .upload upload (.creating true replicas) | .upload upload (.claiming replicas)
  | .upload upload (.removing replicas) => copiesOn upload.hash replicas
  | .delete _ hash (.removing replicas) | .moderate hash (.removing replicas)
  | .purge _ (.removing hash replicas _) => copiesOn hash replicas
  | _ => []

/-- The providers that an upload may still choose from. -/
def candidates : Task → List String
  | .upload _ (.storing remaining _) => remaining
  | _ => []

/-- The row that a request may write next: its hash and its replicas. -/
def written : Task → Option (String × List String)
  | .upload upload (.creating _ replicas) => some (upload.hash, replicas)
  | _ => none

/-- The request counts on what it saw of the hash. -/
abbrev uses (hash : String) (task : Task) : Prop :=
  firstHash task = some hash ∨ ∃ replicas, (hash, replicas) ∈ readLists task

/-- Every row of the hash carries the list. -/
abbrev Listed (db : Database) (entry : String × List String) : Prop :=
  ∀ row ∈ db.blobs, row.hash = entry.1 → row.replicas = entry.2

instance (hash : String) (task : Task) : Decidable (uses hash task) :=
  decidable_of_iff
    (firstHash task = some hash ∨ hash ∈ (readLists task).map Prod.fst) (by
      simp [uses])

/-! ## The invariant -/

/-- What a request counts on is so, and it can reach what it mentions. -/
structure Fits (db : Database) (roster : List String) (task : Task) : Prop where
  first : ∀ hash, firstHash task = some hash → NoRow db hash
  listed : ∀ entry ∈ readLists task, Listed db entry
  agree : ∀ entry ∈ readLists task, ∀ other ∈ readLists task, entry.1 = other.1 → entry.2 = other.2
  lists : ∀ entry ∈ readLists task, ∀ provider ∈ entry.2, resolves roster provider
  pending : ∀ copy ∈ pendingBytes task, resolves roster copy.1
  choices : ∀ provider ∈ candidates task, resolves roster provider

/-- A first upload is alone with its hash; lists read by two agree. -/
structure Apart (task other : Task) : Prop where
  first : ∀ hash, firstHash task = some hash → ¬ uses hash other
  agree : ∀ entry ∈ readLists task, ∀ entry' ∈ readLists other,
    entry.1 = entry'.1 → entry.2 = entry'.2

/-- Rows agree, and every copy is named or some request answers for it. -/
structure Consistent (cluster : Cluster) : Prop where
  same : SameReplicas cluster.db
  resolved : RowsResolve cluster
  covered : ∀ copy ∈ cluster.held, Named cluster.db copy ∨
    ∃ task ∈ cluster.tasks, copy ∈ pendingBytes task
  fits : ∀ task ∈ cluster.tasks, Fits cluster.db cluster.roster task
  apart : AllApart Apart cluster.tasks

/-- What one request of a task may do to rows, bytes and its own phase. -/
structure Keeps (cluster : Cluster) (task : Task) (db : Database)
    (held : List (String × String)) (next : Task) : Prop where
  rows : ∀ row ∈ db.blobs, row ∈ cluster.db.blobs ∨ written task = some (listEntry row)
  named : ∀ row ∈ cluster.db.blobs, ∀ provider ∈ row.replicas,
    Named db (provider, row.hash) ∨ (provider, row.hash) ∈ pendingBytes next
  stored : ∀ copy ∈ held, copy ∈ cluster.held ∨ copy ∈ pendingBytes next
  pending : ∀ copy ∈ pendingBytes task, copy ∈ held → Named db copy ∨ copy ∈ pendingBytes next
  fits : Fits db cluster.roster next
  first : ∀ hash, firstHash next = some hash → firstHash task = some hash ∨
    ∀ other ∈ cluster.tasks, ¬ uses hash other
  read : ∀ entry ∈ readLists next, entry ∈ readLists task ∨ firstHash task = some entry.1 ∨
      ∃ row ∈ cluster.db.blobs, listEntry row = entry

/-- A row is written from a list read before or by a first upload. -/
theorem written_source {entry : String × List String} (busy : written task = some entry) :
    entry ∈ readLists task ∨ firstHash task = some entry.1 ∧
      ∀ host ∈ entry.2, (host, entry.1) ∈ pendingBytes task := by
  rcases task with ⟨upload, phase⟩ | _ | _ | _
  · cases phase with
    | creating kept replicas =>
      cases busy
      cases kept with
      | false => exact .inl (mem_singleton.mpr rfl)
      | true =>
        refine .inr ⟨rfl, ?_⟩
        intro host has
        exact mem_map.mpr ⟨host, has, rfl⟩
    | _ => cases busy
  all_goals cases busy

section

variable {cluster : Cluster}

/-- A row written by a fitting task carries the list of every other row. -/
theorem Fits.written (fits : Fits cluster.db cluster.roster task)
    {entry : String × List String} (busy : written task = some entry) :
    Listed cluster.db entry ∧ ∀ provider ∈ entry.2, resolves cluster.roster provider := by
  rcases written_source busy with read | ⟨first, due⟩
  · exact ⟨fits.listed entry read, fits.lists entry read⟩
  · refine ⟨?_, ?_⟩
    · intro row mem eq
      exact absurd eq (fits.first _ first row mem)
    · intro provider has
      exact fits.pending (provider, entry.1) (due provider has)

/-- Rows written by another task break nothing that a task counts on. -/
theorem Fits.others (fits : Fits cluster.db cluster.roster other) (ne : Apart task other)
    (apart' : Apart other task) (rows : ∀ row ∈ db.blobs, row ∈ cluster.db.blobs ∨
      Replicas.written task = some (listEntry row)) :
    Fits db cluster.roster other := by
  refine ⟨?_, ?_, fits.agree, fits.lists, fits.pending, fits.choices⟩
  · intro hash first row mem eq
    subst eq
    rcases rows row mem with old | busy
    · exact fits.first _ first row old rfl
    · rcases written_source busy with read | ⟨writerFirst, _⟩
      · exact apart'.first _ first (.inr ⟨row.replicas, read⟩)
      · exact apart'.first _ first (.inl writerFirst)
  · intro entry read row mem eq
    rcases rows row mem with old | busy
    · exact fits.listed entry read row old eq
    · rcases written_source busy with own | ⟨writerFirst, _⟩
      · exact ne.agree _ own entry read eq
      · rw [show (listEntry row).1 = entry.1 from eq] at writerFirst
        exact absurd (.inr ⟨entry.2, read⟩) (ne.first _ writerFirst)

section

variable (agree : Consistent cluster) (keeps : Keeps cluster task db held next)
  (mem : other ∈ cluster.tasks)
include agree keeps mem

theorem Keeps.apart (ne : Apart task other) : Apart next other := by
  refine ⟨?_, ?_⟩
  · intro hash first
    rcases keeps.first hash first with early | free
    · exact ne.first hash early
    · exact free other mem
  · intro entry read entry' read' eq
    rcases keeps.read entry read with early | first | ⟨row, has, rfl⟩
    · exact ne.agree entry early entry' read' eq
    · rw [eq] at first
      exact absurd (.inr ⟨entry'.2, read'⟩) (ne.first _ first)
    · exact (agree.fits other mem).listed entry' read' row has eq

theorem Keeps.apart_symm (ne : Apart other task) (apart' : Apart next other) :
    Apart other next := by
  refine ⟨?_, ?_⟩
  · intro hash first using'
    rcases using' with nextFirst | ⟨replicas, read⟩
    · rcases keeps.first hash nextFirst with early | free
      · exact ne.first hash first (.inl early)
      · exact free other mem (.inl first)
    · rcases keeps.read _ read with early | early | ⟨row, has, eq⟩
      · exact ne.first hash first (.inr ⟨replicas, early⟩)
      · exact ne.first hash first (.inl early)
      · exact (agree.fits other mem).first hash first row has (congrArg Prod.fst eq)
  · intro entry read entry' read' eq
    exact (apart'.agree entry' read' entry read eq.symm).symm

end

/-- A request that keeps what the others count on keeps the cluster. -/
theorem Consistent.settle (agree : Consistent cluster)
    (found : cluster.tasks[i]? = some task) (keeps : Keeps cluster task db held next) :
    Consistent { cluster with
        db := db
        held := held
        tasks := cluster.tasks.set i next } := by
  have mem := mem_of_getElem? found
  have fits := agree.fits task mem
  have inside : i < cluster.tasks.length := (List.getElem?_eq_some_iff.mp found).choose
  have put : next ∈ cluster.tasks.set i next := mem_set inside next
  have has : ∀ row ∈ db.blobs, ∀ other ∈ cluster.db.blobs,
      row.hash = other.hash → row.replicas = other.replicas := by
    intro row rowMem other omem eq
    rcases keeps.rows row rowMem with old | busy
    · exact agree.same row old other omem eq
    · exact ((fits.written busy).1 other omem eq.symm).symm
  refine ⟨?_, ?_, ?_, ?_, ?_⟩
  · intro row rowMem other omem eq
    rcases keeps.rows other omem with old | busy
    · exact has row rowMem other old eq
    · rcases keeps.rows row rowMem with old' | writing'
      · exact (has other omem row old' eq.symm).symm
      · exact congrArg Prod.snd (Option.some.inj (writing'.symm.trans busy))
  · intro row rowMem
    rcases keeps.rows row rowMem with old | busy
    · exact agree.resolved row old
    · exact (fits.written busy).2
  · intro copy dup
    rcases keeps.stored copy dup with old | pending
    · rcases agree.covered copy old with ⟨row, rowMem, eq, named⟩ | ⟨other, omem, pending⟩
      · have kept := keeps.named row rowMem copy.1 named
        rw [eq] at kept
        exact kept.imp_right fun pending => ⟨next, put, pending⟩
      · obtain ⟨index', found'⟩ := mem_iff_getElem?.mp omem
        by_cases own : i = index'
        · subst own
          cases found.symm.trans found'
          exact (keeps.pending copy pending dup).imp_right fun pending => ⟨next, put, pending⟩
        · refine .inr ⟨other, mem_iff_getElem?.mpr ⟨index', ?_⟩, pending⟩
          rw [getElem?_set_ne own]
          exact found'
    · exact .inr ⟨next, put, pending⟩
  · intro other omem
    obtain ⟨index', found'⟩ := mem_iff_getElem?.mp omem
    rcases getElem?_set_cases found' with ⟨-, rfl⟩ | ⟨own, found'⟩
    · exact keeps.fits
    · exact (agree.fits other (mem_of_getElem? found')).others
        (agree.apart found found' (Ne.symm own)) (agree.apart found' found own) keeps.rows
  · apply agree.apart.set
    intro index' other found' own
    have omem := mem_of_getElem? found'
    have ne := keeps.apart agree omem (agree.apart found found' (Ne.symm own))
    exact ⟨ne, keeps.apart_symm agree omem (agree.apart found' found own) ne⟩

end

/-! ## The condition on a step -/

/--
The next request of a task: an upload finds its hash free only while no
request counts on it, providers are reached, and the answer to the delete of
a last row arrives.
-/
def TaskSerialised (cluster : Cluster) (delivery : Delivery) : Task → Prop
  | .upload upload .lookingUp =>
    NoRow cluster.db upload.hash → ∀ other ∈ cluster.tasks, ¬ uses upload.hash other
  | .upload _ (.storing _ _) => delivery ≠ .responseLost
  | .upload _ (.removing _) => delivery ≠ .notExecuted
  | .delete npub hash (.deletingRow _) =>
    OnlyOwner cluster.db npub hash → delivery ≠ .responseLost
  | .delete _ _ (.removing _) => delivery ≠ .notExecuted
  | .moderate _ (.deletingRow _) => delivery ≠ .responseLost
  | .moderate _ (.removing _) => delivery ≠ .notExecuted
  | .purge npub (.deletingRow hash _ _) =>
    OnlyOwner cluster.db npub hash → delivery ≠ .responseLost
  | .purge _ (.removing _ _ _) => delivery ≠ .notExecuted
  | _ => True

/-- Providers stay on the roster; no request is dropped with bytes at hand. -/
def Serialised (cluster : Cluster) : Event → Prop
  | .advance index delivery _ =>
    ∀ task ∈ cluster.tasks[index]?, TaskSerialised cluster delivery task
  | .drop index => ∀ task ∈ cluster.tasks[index]?, pendingBytes task = []
  | .refresh roster => cluster.roster ⊆ roster
  | _ => True

/-! ## Requests that write no row -/

/-- A request goes on with lists it has read already, or with fewer. -/
structure Follows (task next : Task) : Prop where
  first : firstHash next = none
  lists : readLists next ⊆ readLists task
  candidates : candidates next = []

/-- A request that counts on nothing and has no bytes at hand. -/
structure Quiet (task : Task) : Prop where
  first : firstHash task = none
  lists : readLists task = []
  pending : pendingBytes task = []
  candidates : candidates task = []

theorem Quiet.follows (quiet : Quiet next) (task : Task) : Follows task next := by
  refine ⟨quiet.first, ?_, quiet.candidates⟩
  rw [quiet.lists]
  exact nil_subset _

/-- A request that has read no list fits if the rest does. -/
theorem Fits.unread (unread : readLists task = [])
    (first : ∀ hash, firstHash task = some hash → NoRow db hash)
    (due : ∀ copy ∈ pendingBytes task, resolves roster copy.1)
    (choices : ∀ provider ∈ candidates task, resolves roster provider) :
    Fits db roster task := by
  have none : ∀ entry, entry ∉ readLists task := by
    rw [unread]
    exact fun _ => not_mem_nil
  exact ⟨first, fun entry read => absurd read (none entry),
    fun entry read => absurd read (none entry),
    fun entry read => absurd read (none entry), due, choices⟩

theorem Quiet.fits (quiet : Quiet task) (db : Database) (roster : List String) :
    Fits db roster task := by
  refine Fits.unread quiet.lists ?_ ?_ ?_
  · intro hash first
    rw [quiet.first] at first
    cases first
  · rw [quiet.pending]
    exact nofun
  · rw [quiet.candidates]
    exact nofun

/-- Fewer rows and a larger roster break nothing. -/
theorem Fits.later {db' : Database} (fits : Fits db roster task) (fewer : db'.blobs ⊆ db.blobs)
    (more : ∀ host, resolves roster host → resolves roster' host) :
    Fits db' roster' task := by
  refine ⟨?_, ?_, fits.agree, ?_, ?_, ?_⟩
  · intro hash first row mem
    exact fits.first hash first row (fewer mem)
  · intro entry read row mem
    exact fits.listed entry read row (fewer mem)
  · intro entry read host has
    exact more host (fits.lists entry read host has)
  · intro copy due
    exact more copy.1 (fits.pending copy due)
  · intro host candidate
    exact more host (fits.choices host candidate)

section

theorem Fits.follows (fits : Fits db roster task) (follows : Follows task next)
    (path : ∀ copy ∈ pendingBytes next, resolves roster copy.1) :
    Fits db roster next := by
  refine ⟨?_, ?_, ?_, ?_, path, ?_⟩
  · intro hash first
    rw [follows.first] at first
    cases first
  · intro entry read
    exact fits.listed entry (follows.lists read)
  · intro entry read other read'
    exact fits.agree entry (follows.lists read) other (follows.lists read')
  · intro entry read
    exact fits.lists entry (follows.lists read)
  · rw [follows.candidates]
    exact nofun

/-- A request that goes on and leaves fewer rows. -/
theorem Keeps.follows (fits : Fits cluster.db cluster.roster task)
    (follows : Follows task next) (fewer : db.blobs ⊆ cluster.db.blobs)
    (named : ∀ row ∈ cluster.db.blobs, ∀ provider ∈ row.replicas, Named db (provider, row.hash) ∨
      (provider, row.hash) ∈ pendingBytes next) (stored : held ⊆ cluster.held)
    (due : ∀ copy ∈ pendingBytes task, copy ∈ held → Named db copy ∨ copy ∈ pendingBytes next)
    (path : ∀ copy ∈ pendingBytes next, resolves cluster.roster copy.1) :
    Keeps cluster task db held next := by
  refine ⟨fun _ mem => .inl (fewer mem), named, fun _ mem => .inl (stored mem), due,
    (fits.later fewer fun _ => id).follows follows path, ?_, ?_⟩
  · intro hash first
    rw [follows.first] at first
    cases first
  · intro entry read
    exact .inl (follows.lists read)

theorem named_of_mem (mem : row ∈ db.blobs) {host : String} (has : host ∈ row.replicas) :
    Named db (host, row.hash) :=
  ⟨row, mem, rfl, has⟩

/-- A request that goes on and changes neither rows nor bytes. -/
theorem Keeps.goes_on (fits : Fits cluster.db cluster.roster task)
    (follows : Follows task next) (due : ∀ copy ∈ pendingBytes task,
      Named cluster.db copy ∨ copy ∈ pendingBytes next)
    (path : ∀ copy ∈ pendingBytes next, resolves cluster.roster copy.1) :
    Keeps cluster task cluster.db cluster.held next :=
  Keeps.follows fits follows (List.Subset.refl _) (fun _ mem _ has => .inl (named_of_mem mem has))
    (List.Subset.refl _) (fun copy mem _ => due copy mem) path

/-- A request without bytes at hand may end. -/
theorem Keeps.quiet (fits : Fits cluster.db cluster.roster task) (quiet : Quiet next)
    (due : ∀ copy ∈ pendingBytes task, Named cluster.db copy) :
    Keeps cluster task cluster.db cluster.held next := by
  refine Keeps.goes_on fits (quiet.follows task) (fun copy mem => .inl (due copy mem)) ?_
  rw [quiet.pending]
  exact nofun

/-- A lookup that leaves rows and bytes alone and learns something. -/
theorem Keeps.learns (empty : pendingBytes task = []) (fits : Fits cluster.db cluster.roster next)
    (first : ∀ hash, firstHash next = some hash → ∀ other ∈ cluster.tasks, ¬ uses hash other)
    (read : ∀ entry ∈ readLists next, ∃ row ∈ cluster.db.blobs, listEntry row = entry) :
    Keeps cluster task cluster.db cluster.held next := by
  refine ⟨fun _ mem => .inl mem, fun _ mem _ has => .inl (named_of_mem mem has),
    fun _ mem => .inl mem, ?_, fits,
    fun hash found => .inr (first hash found),
    fun entry found => .inr (.inr (read entry found))⟩
  rw [empty]
  exact nofun

/-- A lookup that has read lists of rows counts on them. -/
theorem Keeps.reads (agree : Consistent cluster) (empty : pendingBytes task = [])
    (first : firstHash next = none) (due : pendingBytes next = []) (choices : candidates next = [])
    (rows : ∀ entry ∈ readLists next, ∃ row ∈ cluster.db.blobs, listEntry row = entry) :
    Keeps cluster task cluster.db cluster.held next := by
  refine Keeps.learns empty ⟨?_, ?_, ?_, ?_, ?_, ?_⟩ ?_ rows
  · rw [first]
    exact fun _ => nofun
  · intro entry read other mem eq
    obtain ⟨row, rowMem, rfl⟩ := rows entry read
    exact agree.same other mem row rowMem eq
  · intro entry read entry' read' eq
    obtain ⟨row, rowMem, rfl⟩ := rows entry read
    obtain ⟨row', rowMember', rfl⟩ := rows entry' read'
    exact agree.same row rowMem row' rowMember' eq
  · intro entry read
    obtain ⟨row, rowMem, rfl⟩ := rows entry read
    exact agree.resolved row rowMem
  · rw [due]
    exact nofun
  · rw [choices]
    exact nofun
  · rw [first]
    exact fun _ => nofun

/-- The byte delete on one provider. -/
theorem Keeps.removeStep {hash replica : String} {rest : List String}
    (fits : Fits cluster.db cluster.roster task) (follows : Follows task next)
    (pre : pendingBytes task = copiesOn hash (replica :: rest))
    (post : pendingBytes next = copiesOn hash rest) (ran : delivery ≠ .notExecuted) :
    Keeps cluster task cluster.db (removeStep cluster hash replica delivery) next := by
  have path : ∀ copy ∈ copiesOn hash (replica :: rest), resolves cluster.roster copy.1 := by
    intro copy mem
    exact fits.pending copy (pre ▸ mem)
  have cut : Proxy.removeStep cluster hash replica delivery =
      cluster.held.filter fun copy => copy ≠ (replica, hash) := by
    have found : resolves cluster.roster replica := path (replica, hash) mem_cons_self
    simp only [Proxy.removeStep, removeBytes, found, if_true]
    cases delivery with
    | answered | responseLost => rfl
    | notExecuted => exact absurd rfl ran
  rw [cut]
  refine Keeps.follows fits follows (List.Subset.refl _)
    (fun _ mem _ has => .inl (named_of_mem mem has))
    filter_sublist.subset ?_ ?_
  · intro copy due kept
    rw [pre, copiesOn, map_cons, mem_cons] at due
    rcases due with rfl | due
    · simp at kept
    · rw [post]
      exact .inr due
  · rw [post]
    exact fun copy mem => path copy (mem_cons_of_mem _ mem)

/-- The row delete of a request, when the bytes go or a row stays. -/
theorem Keeps.rowStep {hash : String}
    (fits : Fits cluster.db cluster.roster task) (follows : Follows task next)
    (read : (hash, replicas) ∈ readLists task) (eq : SameReplicas cluster.db)
    (empty : pendingBytes task = [])
    (post : pendingBytes next = copiesOn hash replicas ∨ pendingBytes next = [] ∧
      ∀ row ∈ cluster.db.blobs, row.hash = hash →
      ∃ kept ∈ (rowStep cluster hash scope delivery).1.blobs, kept.hash = hash)
    (rest : ∀ row ∈ cluster.db.blobs, row.hash ≠ hash →
      row ∈ (rowStep cluster hash scope delivery).1.blobs) :
    Keeps cluster task (rowStep cluster hash scope delivery).1 cluster.held
      next := by
  have fewer := rowStep_subset cluster hash scope delivery
  refine Keeps.follows fits follows fewer ?_ (List.Subset.refl _) ?_ ?_
  · intro row mem host has
    by_cases target : row.hash = hash
    · rcases post with due | ⟨-, stays⟩
      · rw [fits.listed _ read row mem target] at has
        rw [target, due]
        exact .inr (mem_map.mpr ⟨host, has, rfl⟩)
      · obtain ⟨kept, keptMember, keptHash⟩ := stays row mem target
        have equal := eq row mem kept (fewer keptMember) (target.trans keptHash.symm)
        exact .inl ⟨kept, keptMember, keptHash.trans target.symm, equal ▸ has⟩
    · exact .inl (named_of_mem (rest row mem target) has)
  · rw [empty]
    exact nofun
  · rcases post with due | ⟨due, -⟩
    · rw [due]
      intro copy mem
      obtain ⟨host, has, rfl⟩ := mem_map.mp mem
      exact fits.lists _ read host has
    · rw [due]
      exact nofun

end

/-! ## Uploads -/

theorem quiet_upload_ended (upload : Upload) : Quiet (.upload upload .ended) := ⟨rfl, rfl, rfl, rfl⟩

section

variable (replicaCount : Nat) (upload : Upload) (remaining stored : List String)

theorem firstHash_storingNext {hash : String} (first : firstHash (.upload upload
      (storingNext replicaCount remaining stored)) = some hash) :
    upload.hash = hash := by
  simp only [storingNext] at first
  split at first
  · exact Option.some.inj first
  · split at first
    · cases first
    · exact Option.some.inj first

theorem readLists_storingNext : readLists (.upload upload
      (storingNext replicaCount remaining stored)) = [] := by
  simp only [storingNext]
  split
  · rfl
  · split <;> rfl

theorem pendingBytes_storingNext : pendingBytes (.upload upload
      (storingNext replicaCount remaining stored)) = copiesOn upload.hash stored := by
  simp only [storingNext]
  split
  · rfl
  · split
    · rename_i empty
      rw [empty]
      rfl
    · rfl

theorem candidates_storingNext : candidates (.upload upload
      (storingNext replicaCount remaining stored)) ⊆ remaining := by
  simp only [storingNext]
  split
  · exact List.Subset.refl _
  · split <;> exact nil_subset _

end

section

variable {upload : Upload} {next : Task}

/-- A first upload goes on storing. -/
theorem Keeps.storingNext {remaining stored : List String}
    {held : List (String × String)} (replicaCount : Nat)
    (fits : Fits cluster.db cluster.roster task) (first : firstHash task = some upload.hash)
    (choices : ∀ host ∈ remaining, resolves cluster.roster host)
    (path : ∀ host ∈ stored, resolves cluster.roster host)
    (copies : ∀ copy ∈ held, copy ∈ cluster.held ∨ copy ∈ copiesOn upload.hash stored)
    (due : pendingBytes task ⊆ copiesOn upload.hash stored) :
    Keeps cluster task cluster.db held
      (.upload upload (storingNext replicaCount remaining stored)) := by
  have lists := readLists_storingNext replicaCount upload remaining stored
  have post := pendingBytes_storingNext replicaCount upload remaining stored
  refine ⟨fun _ mem => .inl mem, fun _ mem _ has => .inl (named_of_mem mem has), ?_, ?_, ?_, ?_, ?_⟩
  · rw [post]
    exact copies
  · rw [post]
    exact fun copy mem _ => .inr (due mem)
  · refine Fits.unread lists ?_ ?_ ?_
    · intro hash found
      rw [← firstHash_storingNext _ _ _ _ found]
      exact fits.first _ first
    · rw [post]
      intro copy mem
      obtain ⟨host, has, rfl⟩ := mem_map.mp mem
      exact path host has
    · intro host mem
      exact choices host (candidates_storingNext _ _ _ _ mem)
  · intro hash found
    rw [← firstHash_storingNext _ _ _ _ found]
    exact .inl first
  · rw [lists]
    exact nofun

theorem storeStep_keeps (fits : Fits cluster.db cluster.roster
      (.upload upload (.storing remaining stored))) (heard : delivery ≠ .responseLost)
    (ran : storeStep replicaCount cluster upload remaining stored delivery = some moved) :
    Keeps cluster (.upload upload (.storing remaining stored)) moved.db
      moved.held (.upload upload moved.phase) := by
  simp only [storeStep, Option.map_eq_some_iff] at ran
  obtain ⟨server, pick, rfl⟩ := ran
  have choices : ∀ provider ∈ remaining.erase server, resolves cluster.roster provider :=
    fun provider mem => fits.choices provider (mem_of_mem_erase mem)
  have path : ∀ provider ∈ stored, resolves cluster.roster provider := by
    intro provider mem
    exact fits.pending (provider, upload.hash) (mem_map.mpr ⟨provider, mem, rfl⟩)
  cases delivery with
  | answered =>
    refine Keeps.storingNext replicaCount fits rfl choices ?_ ?_ ?_
    · intro provider mem
      simp only [if_true, mem_append, mem_singleton] at mem
      rcases mem with old | rfl
      · exact path provider old
      · exact fits.choices _ (mem_of_pickName pick)
    · intro copy mem
      simp only [Delivery.executed, if_true, mem_append, mem_singleton] at mem
      refine mem.imp_right ?_
      rintro rfl
      simp [copiesOn]
    · simp [copiesOn, pendingBytes]
  | responseLost => exact absurd rfl heard
  | notExecuted =>
    exact Keeps.storingNext replicaCount fits rfl choices path
      (fun copy mem => .inl mem) (List.Subset.refl _)

/-- What an upload goes on with after it has tried to write its row. -/
structure Claims (upload : Upload) (replicas : List String) (next : Task) : Prop where
  first : firstHash next = none
  lists : readLists next ⊆ [(upload.hash, replicas)]
  pending : pendingBytes next ⊆ copiesOn upload.hash replicas
  candidates : candidates next = []

theorem claims_ended (upload : Upload) (replicas : List String) :
    Claims upload replicas (.upload upload .ended) :=
  ⟨rfl, nil_subset _, nil_subset _, rfl⟩

theorem claims_createFailed (upload : Upload) (kept : Bool) (replicas : List String) :
    Claims upload replicas (.upload upload (createFailed kept replicas)) := by
  cases kept with
  | false => exact claims_ended upload replicas
  | true => exact ⟨rfl, List.Subset.refl _, List.Subset.refl _, rfl⟩

theorem Claims.fits (claims : Claims upload replicas next) (has : Listed db (upload.hash, replicas))
    (path : ∀ host ∈ replicas, resolves roster host) :
    Fits db roster next := by
  have only : ∀ entry ∈ readLists next, entry = (upload.hash, replicas) :=
    fun entry read => mem_singleton.mp (claims.lists read)
  refine ⟨?_, ?_, ?_, ?_, ?_, ?_⟩
  · intro hash first
    rw [claims.first] at first
    cases first
  · intro entry read
    rw [only entry read]
    exact has
  · intro entry read other read' _
    rw [only entry read, only other read']
  · intro entry read
    rw [only entry read]
    exact path
  · intro copy due
    obtain ⟨host, mem, rfl⟩ := mem_map.mp (claims.pending due)
    exact path host mem
  · rw [claims.candidates]
    exact nofun

/-- The list of a row about to be written, as its task read or chose it. -/
theorem readLists_creating (upload : Upload) (kept : Bool) (replicas : List String) :
    (upload.hash, replicas) ∈ readLists (.upload upload (.creating kept replicas)) ∨
      firstHash (.upload upload (.creating kept replicas)) = some upload.hash := by
  cases kept with
  | false => exact .inl (mem_singleton.mpr rfl)
  | true => exact .inr rfl

theorem pendingBytes_creating (upload : Upload) (kept : Bool) (replicas : List String) :
    pendingBytes (.upload upload (.creating kept replicas)) ⊆ copiesOn upload.hash replicas := by
  cases kept with
  | false => exact nil_subset _
  | true => exact List.Subset.refl _

/-- A row is written, or nothing changes, and the upload goes on. -/
theorem Keeps.claims {storedNow : Bool} (fits : Fits cluster.db cluster.roster
      (.upload upload (.creating storedNow replicas)))
    (claims : Claims upload replicas next)
    (rows : ∀ row ∈ db.blobs, row ∈ cluster.db.blobs ∨ listEntry row = (upload.hash, replicas))
    (kept : cluster.db.blobs ⊆ db.blobs) (due : ∀ copy ∈ pendingBytes
      (.upload upload (.creating storedNow replicas)), Named db copy ∨ copy ∈ pendingBytes next) :
    Keeps cluster (.upload upload (.creating storedNow replicas)) db cluster.held next := by
  have busy : written (.upload upload (.creating storedNow replicas)) =
      some (upload.hash, replicas) := rfl
  obtain ⟨has, path⟩ := fits.written busy
  have listedAfter : Listed db (upload.hash, replicas) := by
    intro row mem eq
    rcases rows row mem with old | new
    · exact has row old eq
    · exact congrArg Prod.snd new
  refine ⟨?_, ?_, fun _ mem => .inl mem, fun copy mem _ => due copy mem,
    claims.fits listedAfter path, ?_, ?_⟩
  · intro row mem
    refine (rows row mem).imp_right ?_
    intro new
    rw [new]
    exact busy
  · intro row mem host inList
    exact .inl (named_of_mem (kept mem) inList)
  · intro hash first
    rw [claims.first] at first
    cases first
  · intro entry read
    rw [mem_singleton.mp (claims.lists read)]
    exact (readLists_creating upload storedNow replicas).imp_right .inl

/-- A row that is there already is not missed by a first upload. -/
theorem createBlob_alreadyExists (deny : createBlob db row = .error .alreadyExists) :
    ¬ NoRow db row.hash := by
  intro noRow
  simp only [createBlob] at deny
  split at deny
  · cases deny
  · split at deny
    · rename_i here
      obtain ⟨other, mem, eq⟩ := any_eq_true.mp here
      simp only [Bool.and_eq_true, decide_eq_true_eq] at eq
      exact noRow other mem eq.1
    · split at deny <;> cases deny

theorem createStep_keeps (delivery : Delivery) (now : Nat)
    (fits : Fits cluster.db cluster.roster (.upload upload (.creating kept replicas))) :
    Keeps cluster (.upload upload (.creating kept replicas))
      (createStep cluster upload kept replicas delivery now).db
      (createStep cluster upload kept replicas delivery now).held
      (.upload upload (createStep cluster upload kept replicas delivery now).phase)
      := by
  have fail := claims_createFailed upload kept replicas
  have deny : Keeps cluster (.upload upload (.creating kept replicas)) cluster.db cluster.held
      (.upload upload (createFailed kept replicas)) := by
    refine Keeps.claims fits fail (fun _ mem => .inl mem) (List.Subset.refl _) ?_
    cases kept with
    | false => exact nofun
    | true => exact fun copy due => .inr due
  have ok : ∀ db next, Claims upload replicas next → createBlob cluster.db
        { hash := upload.hash
          npub := upload.npub
          size := upload.size
          replicas := replicas
          createdAt := now } = .ok db →
      Keeps cluster (.upload upload (.creating kept replicas)) db cluster.held next := by
    intro db next claims made
    have blobs := createBlob_blobs made
    refine Keeps.claims fits claims ?_ ?_ ?_
    · intro row mem
      rw [blobs, mem_append, mem_singleton] at mem
      refine mem.imp_right ?_
      rintro rfl
      rfl
    · rw [blobs]
      exact subset_append_left _ _
    · intro copy due
      obtain ⟨host, has, rfl⟩ := mem_map.mp (pendingBytes_creating _ _ _ due)
      simp only [Named, blobs, mem_append, mem_singleton]
      exact .inl ⟨_, .inr rfl, rfl, has⟩
  simp only [createStep]
  split
  · rename_i made
    exact ok _ _ (claims_ended upload replicas) made
  · rename_i here
    cases kept with
    | false => exact Keeps.quiet fits ⟨rfl, rfl, rfl, rfl⟩ nofun
    | true => exact absurd (fits.first _ rfl) (createBlob_alreadyExists here)
  · rename_i made
    exact ok _ _ fail made
  · exact deny

theorem uploadStep_keeps {phase : UploadPhase} {replicaCount now : Nat}
    {moved : Moved UploadPhase} (agree : Consistent cluster)
    (mem : .upload upload phase ∈ cluster.tasks)
    (text : TaskSerialised cluster delivery (.upload upload phase))
    (ran : uploadStep replicaCount cluster upload delivery now phase = some moved) :
    Keeps cluster (.upload upload phase) moved.db moved.held (.upload upload moved.phase) := by
  have fits := agree.fits _ mem
  have ends : (∀ copy ∈ pendingBytes (.upload upload phase), Named cluster.db copy) →
      Keeps cluster (.upload upload phase) cluster.db cluster.held (.upload upload .ended) :=
    Keeps.quiet fits (quiet_upload_ended upload)
  cases phase with
  | lookingUp =>
    cases ran
    dsimp only
    split
    · cases found : getBlob cluster.db upload.hash with
      | none =>
        have noRow := getBlob_eq_none found
        refine Keeps.learns rfl (Fits.unread rfl ?_ nofun nofun) ?_
          nofun
        · rintro hash ⟨⟩
          exact noRow
        · rintro hash ⟨⟩
          exact text noRow
      | some info =>
        dsimp only
        split
        · exact ends nofun
        · obtain ⟨row, eq⟩ := getBlob_row_mem found
          refine Keeps.reads agree rfl rfl rfl rfl ?_
          intro entry read
          rw [mem_singleton.mp read, ← eq]
          exact ⟨info.row, row, rfl⟩
    · exact ends nofun
  | placing =>
    cases ran
    refine Keeps.storingNext replicaCount fits rfl ?_ nofun
      (fun copy dup => .inl dup) (List.Subset.refl _)
    intro host has
    simp [resolves, has]
  | storing remaining stored => exact storeStep_keeps fits text ran
  | creating kept replicas =>
    cases ran
    exact createStep_keeps delivery now fits
  | refetching =>
    cases ran
    exact ends nofun
  | claiming replicas =>
    cases ran
    dsimp only
    split
    · rename_i own
      refine ends ?_
      intro copy due
      obtain ⟨host, has, rfl⟩ := mem_map.mp due
      simp only [Bool.and_eq_true, Option.isSome_iff_exists] at own
      obtain ⟨-, info, found⟩ := own
      obtain ⟨row, eq⟩ := getBlob_row_mem found
      have equal := fits.listed _ (mem_singleton.mpr rfl) info.row row eq
      exact ⟨info.row, row, eq, equal ▸ has⟩
    · exact Keeps.goes_on fits ⟨rfl, nil_subset _, rfl⟩ (fun copy due => .inr due) fits.pending
  | removing replicas =>
    cases replicas with
    | nil =>
      cases ran
      exact ends nofun
    | cons rep rest =>
      cases ran
      exact Keeps.removeStep fits ⟨rfl, nil_subset _, rfl⟩ rfl rfl text
  | ended => cases ran

end

/-! ## Row deletes -/

section

variable {hash : String}

/-- A row outside the scope of a delete stays. -/
theorem mem_rowStep (mem : row ∈ cluster.db.blobs) (out : scope.selects hash row = false) :
    row ∈ (rowStep cluster hash scope delivery).1.blobs := by
  have kept : ∀ db left, deleteBlob cluster.db hash scope = some (db, left) → row ∈ db.blobs := by
    intro db left gone
    rw [(deleteBlob_eq_some gone).1]
    exact mem_filter.mpr ⟨mem, by simp [out]⟩
  simp only [rowStep]
  split
  · rename_i gone
    exact kept _ _ gone
  · rename_i gone
    exact kept _ _ gone
  · exact mem

theorem mem_rowStep_of_ne (mem : row ∈ cluster.db.blobs) (other : row.hash ≠ hash) :
    row ∈ (rowStep cluster hash scope delivery).1.blobs := by
  refine mem_rowStep mem ?_
  cases scope with
  | owner npub | all => simp [Scope.selects, other]

/-- An answered or failed delete that reports nothing left tables alone. -/
theorem rowStep_none (heard : delivery ≠ .responseLost)
    (empty : (rowStep cluster hash scope delivery).2 = none) :
    (rowStep cluster hash scope delivery).1 = cluster.db := by
  simp only [rowStep] at empty ⊢
  split at empty
  · cases empty
  · exact absurd rfl heard
  · rfl

/-- Unless the last row went and was reported, some row of the hash stays. -/
theorem rowStep_owner_left (heard : OnlyOwner cluster.db npub hash → delivery ≠ .responseLost)
    (left : (rowStep cluster hash (.owner npub) delivery).2 ≠ some 0) :
    ∀ row ∈ cluster.db.blobs, row.hash = hash →
      ∃ kept ∈ (rowStep cluster hash (.owner npub) delivery).1.blobs, kept.hash = hash := by
  intro row mem eq
  by_cases only : OnlyOwner cluster.db npub hash
  · cases res : (rowStep cluster hash (.owner npub) delivery).2 with
    | none =>
      rw [rowStep_none (heard only) res]
      exact ⟨row, mem, eq⟩
    | some count =>
      have sums := (deleteBlob_eq_some (rowStep_eq_some res)).2
      have pos : 0 < count := by
        refine Nat.pos_of_ne_zero ?_
        rintro rfl
        exact left res
      rw [sums] at pos
      obtain ⟨kept, has⟩ := exists_mem_of_length_pos pos
      simp only [mem_filter, decide_eq_true_eq] at has
      exact ⟨kept, has.1, has.2⟩
  · simp only [OnlyOwner, not_forall] at only
    obtain ⟨kept, keptMember, keptHash, another⟩ := only
    refine ⟨kept, mem_rowStep keptMember ?_, keptHash⟩
    simp [Scope.selects, another]

theorem rowStep_all_left (heard : delivery ≠ .responseLost)
    (left : ¬ (rowStep cluster hash .all delivery).2.isSome) :
    ∀ row ∈ cluster.db.blobs, row.hash = hash →
      ∃ kept ∈ (rowStep cluster hash .all delivery).1.blobs, kept.hash = hash := by
  intro row mem eq
  rw [rowStep_none heard (by simpa using left)]
  exact ⟨row, mem, eq⟩

/-! ### Deletes of one blob -/

theorem quiet_deleteTask (hash : String) (scope : Scope)
    (idle : phase = .lookingUp ∨ phase = .ended) :
    Quiet (deleteTask hash scope phase) := by
  cases scope with
  | owner npub | all =>
    rcases idle with rfl | rfl <;> exact ⟨rfl, rfl, rfl, rfl⟩

theorem readLists_deletingRow (hash : String) (scope : Scope) (replicas : List String) :
    readLists (deleteTask hash scope (.deletingRow replicas)) = [(hash, replicas)] := by
  cases scope <;> rfl

theorem pendingBytes_deletingRow (hash : String) (scope : Scope) (replicas : List String) :
    pendingBytes (deleteTask hash scope (.deletingRow replicas)) = [] := by
  cases scope <;> rfl

theorem pendingBytes_removing (hash : String) (scope : Scope) (replicas : List String) :
    pendingBytes (deleteTask hash scope (.removing replicas)) = copiesOn hash replicas := by
  cases scope <;> rfl

theorem follows_removing (hash : String) (scope : Scope) (replicas : List String) (task : Task) :
    Follows task (deleteTask hash scope (.removing replicas)) := by
  cases scope <;> exact ⟨rfl, nil_subset _, rfl⟩

section

variable (agree : Consistent cluster)
include agree

/-- A delete that has found the blob counts on its replica list. -/
theorem Keeps.finds (found : getBlob cluster.db hash = some info) :
    Keeps cluster (deleteTask hash scope .lookingUp) cluster.db cluster.held
      (deleteTask hash scope (.deletingRow info.row.replicas)) := by
  obtain ⟨row, eq⟩ := getBlob_row_mem found
  have empty := (quiet_deleteTask hash scope (.inl rfl)).pending
  cases scope with
  | owner npub | all =>
    refine Keeps.reads agree empty rfl rfl rfl ?_
    intro entry read
    rw [mem_singleton.mp read, ← eq]
    exact ⟨info.row, row, rfl⟩

/-- The row delete of a request for one blob. -/
theorem Keeps.deletes (mem : deleteTask hash scope (.deletingRow replicas) ∈ cluster.tasks)
    (post : phase = .removing replicas ∨ phase = .ended ∧
      ∀ row ∈ cluster.db.blobs, row.hash = hash →
      ∃ kept ∈ (Proxy.rowStep cluster hash scope delivery).1.blobs, kept.hash = hash) :
    Keeps cluster (deleteTask hash scope (.deletingRow replicas))
      (Proxy.rowStep cluster hash scope delivery).1 cluster.held
      (deleteTask hash scope phase) := by
  have fits := agree.fits _ mem
  have read : (hash, replicas) ∈ readLists (deleteTask hash scope (.deletingRow replicas)) := by
    rw [readLists_deletingRow]
    exact mem_singleton.mpr rfl
  have empty := pendingBytes_deletingRow hash scope replicas
  rcases post with rfl | ⟨rfl, stays⟩
  · exact Keeps.rowStep fits (follows_removing hash scope replicas _) read
      agree.same empty (.inl (pendingBytes_removing _ _ _))
      (fun _ => mem_rowStep_of_ne)
  · have quiet := quiet_deleteTask hash scope
      (show DeletePhase.ended = .lookingUp ∨ _ from .inr rfl)
    exact Keeps.rowStep fits (quiet.follows _) read agree.same empty
      (.inr ⟨quiet.pending, stays⟩) (fun _ => mem_rowStep_of_ne)

theorem deleteStep_keeps (mem : deleteTask hash scope phase ∈ cluster.tasks)
    (text : TaskSerialised cluster delivery (deleteTask hash scope phase))
    (taken : deleteStep cluster hash scope delivery phase = some moved) :
    Keeps cluster (deleteTask hash scope phase) moved.db moved.held
      (deleteTask hash scope moved.phase) := by
  have fits := agree.fits _ mem
  have ends : pendingBytes (deleteTask hash scope phase) = [] →
      Keeps cluster (deleteTask hash scope phase) cluster.db cluster.held
        (deleteTask hash scope .ended) := by
    intro empty
    refine Keeps.quiet fits (quiet_deleteTask hash scope (.inr rfl)) ?_
    rw [empty]
    exact nofun
  cases phase with
  | lookingUp =>
    have empty := (quiet_deleteTask hash scope (.inl rfl)).pending
    cases taken
    dsimp only
    split
    · split
      · exact ends empty
      · rename_i info found
        exact Keeps.finds agree found
      · rename_i info npub found
        split
        · exact Keeps.finds agree found
        · exact ends empty
    · exact ends empty
  | deletingRow replicas =>
    cases taken
    refine Keeps.deletes agree mem ?_
    cases scope with
    | owner npub =>
      dsimp only
      split
      · exact .inl rfl
      · rename_i left
        exact .inr ⟨rfl, rowStep_owner_left text (by simpa using left)⟩
    | all =>
      dsimp only
      split
      · exact .inl rfl
      · rename_i left
        exact .inr ⟨rfl, rowStep_all_left text left⟩
  | removing replicas =>
    cases replicas with
    | nil =>
      cases taken
      exact ends (pendingBytes_removing hash scope [])
    | cons copy rest =>
      cases taken
      have ran : delivery ≠ .notExecuted := by
        cases scope <;> exact text
      exact Keeps.removeStep fits (follows_removing hash scope rest _)
        (pendingBytes_removing _ _ _) (pendingBytes_removing _ _ _)
        ran
  | ended => cases taken

end

/-! ### Purges -/

theorem follows_purgeNext (npub : String) (rest : List BlobRow)
    (sub : rest.map listEntry ⊆ readLists task) :
    Follows task (.purge npub (purgeNext rest)) := by
  cases rest with
  | nil => exact ⟨rfl, nil_subset _, rfl⟩
  | cons row rest => exact ⟨rfl, sub, rfl⟩

theorem pendingBytes_purgeNext (npub : String) (rest : List BlobRow) :
    pendingBytes (.purge npub (purgeNext rest)) = [] := by
  cases rest <;> rfl

theorem mem_listUserBlobs (has : row ∈ listUserBlobs db npub) : row ∈ db.blobs := by
  have sorted := (mem_insertionSort _).mp (mem_of_mem_take has)
  exact (mem_filter.mp sorted).1

/-- A purge that has listed blobs counts on their replica lists. -/
theorem Keeps.lists {first : BlobRow} {rest : List BlobRow} (agree : Consistent cluster)
    (has : listUserBlobs cluster.db npub = first :: rest) :
    Keeps cluster (.purge npub .listing) cluster.db cluster.held
      (.purge npub (.deletingRow first.hash first.replicas rest)) := by
  have rows : ∀ entry ∈ readLists (.purge npub (.deletingRow first.hash first.replicas rest)),
      ∃ row ∈ cluster.db.blobs, listEntry row = entry := by
    intro entry read
    have mapped : entry ∈ (first :: rest).map listEntry := read
    obtain ⟨row, mem, equal⟩ := mem_map.mp mapped
    rw [← has] at mem
    exact ⟨row, mem_listUserBlobs mem, equal⟩
  exact Keeps.reads agree rfl rfl rfl rfl rows

theorem purgeStep_keeps {phase : PurgePhase} {moved : Moved PurgePhase} (agree : Consistent cluster)
    (mem : .purge npub phase ∈ cluster.tasks)
    (text : TaskSerialised cluster delivery (.purge npub phase))
    (ran : purgeStep cluster npub delivery phase = some moved) :
    Keeps cluster (.purge npub phase) moved.db moved.held (.purge npub moved.phase) := by
  have fits := agree.fits _ mem
  cases phase with
  | listing =>
    have ends : Keeps cluster (.purge npub .listing) cluster.db cluster.held (.purge npub .ended) :=
      Keeps.quiet fits ⟨rfl, rfl, rfl, rfl⟩ nofun
    cases ran
    dsimp only
    split
    · split
      · exact ends
      · rename_i has
        exact Keeps.lists agree has
    · exact ends
  | deletingRow hash replicas rest =>
    have read : (hash, replicas) ∈ readLists (.purge npub (.deletingRow hash replicas rest)) :=
      mem_cons_self
    have sub : rest.map listEntry ⊆ readLists (.purge npub (.deletingRow hash replicas rest)) :=
      subset_cons_self _ _
    have stays := rowStep_owner_left text
    cases ran
    dsimp only
    split
    · rename_i empty
      exact Keeps.rowStep fits ⟨rfl, nil_subset _, rfl⟩ read
        agree.same rfl (.inr ⟨rfl, stays (by simp [empty])⟩)
        (fun _ => mem_rowStep_of_ne)
    · exact Keeps.rowStep fits ⟨rfl, sub, rfl⟩ read agree.same rfl
        (.inl rfl) (fun _ => mem_rowStep_of_ne)
    · rename_i left
      exact Keeps.rowStep fits (follows_purgeNext npub rest sub) read agree.same rfl
        (.inr ⟨pendingBytes_purgeNext npub rest, stays (by simp [left])⟩)
        (fun _ => mem_rowStep_of_ne)
  | removing hash replicas rest =>
    cases replicas with
    | nil =>
      cases ran
      refine Keeps.goes_on fits (follows_purgeNext npub rest (List.Subset.refl _)) nofun ?_
      rw [pendingBytes_purgeNext]
      exact nofun
    | cons copy replicas =>
      cases ran
      exact Keeps.removeStep fits ⟨rfl, List.Subset.refl _, rfl⟩ rfl rfl text
  | ended => cases ran

end

/-! ## One step, and a run -/

section

variable {replicaCount : Nat}

theorem taskStep_consistent {next : Cluster} (agree : Consistent cluster)
    (found : cluster.tasks[index]? = some task) (text : TaskSerialised cluster delivery task)
    (ran : taskStep replicaCount cluster index delivery now task = some next) :
    Consistent next := by
  have mem := mem_of_getElem? found
  cases task with
  | upload upload phase =>
    obtain ⟨moved, moves, rfl⟩ := Option.map_eq_some_iff.mp ran
    exact agree.settle found (uploadStep_keeps agree mem text moves)
  | delete npub hash phase =>
    obtain ⟨moved, moves, rfl⟩ := Option.map_eq_some_iff.mp ran
    have task : deleteTask hash (.owner npub) phase ∈ cluster.tasks := mem
    exact agree.settle found (deleteStep_keeps agree task text moves)
  | moderate hash phase =>
    obtain ⟨moved, moves, rfl⟩ := Option.map_eq_some_iff.mp ran
    have task : deleteTask hash .all phase ∈ cluster.tasks := mem
    exact agree.settle found (deleteStep_keeps agree task text moves)
  | purge npub phase =>
    obtain ⟨moved, moves, rfl⟩ := Option.map_eq_some_iff.mp ran
    exact agree.settle found (purgeStep_keeps agree mem text moves)

theorem Quiet.apart (quiet : Quiet task) (other : Task) : Apart task other ∧ Apart other task := by
  refine ⟨⟨?_, ?_⟩, ⟨?_, ?_⟩⟩
  · intro hash first
    rw [quiet.first] at first
    cases first
  · intro entry read
    rw [quiet.lists] at read
    cases read
  · rintro hash - (first | ⟨replicas, read⟩)
    · rw [quiet.first] at first
      cases first
    · rw [quiet.lists] at read
      cases read
  · intro entry read entry' read'
    rw [quiet.lists] at read'
    cases read'

/-- A request that has just arrived counts on nothing. -/
theorem Consistent.start (agree : Consistent cluster) (quiet : Quiet task) :
    Consistent (cluster.start task) := by
  refine ⟨agree.same, agree.resolved, ?_, ?_, ?_⟩
  · intro copy dup
    refine (agree.covered copy dup).imp_right ?_
    rintro ⟨other, mem, due⟩
    exact ⟨other, mem_append_left _ mem, due⟩
  · intro other mem
    rcases mem_append.mp mem with old | new
    · exact agree.fits other old
    · rw [mem_singleton.mp new]
      exact quiet.fits _ _
  · exact agree.apart.arrive quiet.apart

theorem resolves_mono (more : roster ⊆ roster') (found : resolves roster provider) :
    resolves roster' provider := by
  simp only [resolves, Bool.or_eq_true, decide_eq_true_eq] at found ⊢
  exact found.imp_right fun mem => more mem

theorem quiet_dropped (task : Task) : Quiet task.dropped := by
  cases task <;> exact ⟨rfl, rfl, rfl, rfl⟩

theorem step_consistent {next : Cluster} (agree : Consistent cluster) (text : Serialised cluster ev)
    (ran : step replicaCount cluster ev = some next) :
    Consistent next := by
  cases ev with
  | startUpload upload | startDelete npub hash | startModeration hash
  | startPurge npub =>
    cases ran
    exact agree.start ⟨rfl, rfl, rfl, rfl⟩
  | advance i delivery now =>
    simp only [step] at ran
    cases found : cluster.tasks[i]? with
    | none => simp [found] at ran
    | some task =>
      simp only [found] at ran
      exact taskStep_consistent agree found (text task found) ran
  | drop i =>
    simp only [step] at ran
    cases found : cluster.tasks[i]? with
    | none => simp [found] at ran
    | some task =>
      simp only [found, Option.some.injEq] at ran
      subst ran
      have keeps : Keeps cluster task cluster.db cluster.held
          task.dropped := by
        refine Keeps.quiet (agree.fits task (mem_of_getElem? found)) (quiet_dropped task) ?_
        rw [text task found]
        exact List.forall_mem_nil _
      exact agree.settle found keeps
  | refresh roster =>
    cases ran
    have more : ∀ provider, resolves cluster.roster provider →
        resolves roster provider := fun _ => resolves_mono text
    refine ⟨agree.same, ?_, agree.covered, ?_, agree.apart⟩
    · intro row mem provider has
      exact more provider (agree.resolved row mem provider has)
    · intro task mem
      exact (agree.fits task mem).later (List.Subset.refl _) more
  | writeUsers users =>
    cases ran
    refine ⟨agree.same, agree.resolved, agree.covered, ?_, agree.apart⟩
    intro task mem
    exact (agree.fits task mem).later (List.Subset.refl _) fun _ => id

theorem quiet_of_ended (ended : task.ended) : Quiet task := by
  cases task with
  | upload upload phase | delete npub hash phase | moderate hash phase
  | purge npub phase =>
    obtain rfl : phase = .ended := by simpa [Task.ended] using ended
    exact ⟨rfl, rfl, rfl, rfl⟩

end

/-! ## Two first uploads of one content -/

/-- Two accounts without blobs and three providers. -/
def freshNodes : Cluster where
  db :=
    { users :=
        [{ npub := "alice", usedStorage := 0, storageBytes := none },
          { npub := "bob", usedStorage := 0, storageBytes := none }]
      blobs := [] }
  roster := ["p1", "p2", "p3"]
  held := []
  tasks := []

/-- Alice's upload of the content that Bob uploads too. -/
def alicesUpload : Upload where
  npub := "alice"
  hash := "h"
  size := 3
  startedAt := 0

/-- Bob reuses the bytes of Alice's upload while Alice deletes them. -/
def uploadReuseDelete : List Event :=
  [.startUpload alicesUpload, .advance 0 .answered 1,
    .advance 0 .answered 1, .advance 0 .answered 1, .advance 0 .answered 1,
    .advance 0 .answered 1, .startUpload bobsUpload, .advance 1 .answered 2,
    .startDelete "alice" "h", .advance 2 .answered 2,
    .advance 1 .answered 3, .advance 2 .answered 4]

/-- Both accounts look the content up before either has written its row. -/
def bothUpload : List Event :=
  [.startUpload alicesUpload, .startUpload bobsUpload,
    .advance 0 .answered 1, .advance 1 .answered 1,
    .advance 0 .answered 1, .advance 0 .answered 1, .advance 0 .answered 1,
    .advance 1 .answered 1, .advance 1 .answered 1, .advance 1 .answered 1,
    .advance 0 .answered 1, .advance 1 .answered 2]

/-- Both accounts delete the content, one after the other. -/
def bothDelete : List Event :=
  [.startDelete "alice" "h", .advance 2 .answered 3, .advance 2 .answered 3,
    .startDelete "bob" "h", .advance 3 .answered 4, .advance 3 .answered 4,
    .advance 3 .answered 4, .advance 3 .answered 4, .advance 3 .answered 4]

end StorageOrchestrator.Blossom.Replicas
