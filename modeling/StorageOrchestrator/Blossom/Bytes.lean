import StorageOrchestrator.Blossom.Proxy

/-!
# Blob bytes under interleaved requests

Every blob row should have its bytes on each provider the row names.  The
proxy deletes the row first and the bytes later, and between the two another
account may upload the same hash: it finds no row, stores the bytes again (or
still finds the old ones listed), writes its row, and then loses the bytes to
the delete under way (`deleting_races_upload`).

Excluded per hash, the two kinds of request are safe: when an upload looks a
hash up only while nobody removes its bytes, and the last row of a hash goes
only while no upload of it is past its lookup, every row keeps its bytes
(`exclusive_run_keeps_bytes`).
-/

namespace StorageOrchestrator.Blossom.Bytes

open Blossom.BlobStore Blossom.Proxy Lib.Transition List

variable {task next : Task} {hash : String} {cluster : Cluster}
  {delivery : Delivery} {replicaCount : Nat} {upload : Upload}

/-! ## What a request in flight holds on to -/

/-- The hash of an upload past its lookup that may still write a row. -/
def writtenHash : Task → Option String
  | .upload upload .placing | .upload upload (.storing _ _) | .upload upload (.creating _ _) =>
    some upload.hash
  | _ => none

/-- The hash whose bytes a request is deleting on its providers. -/
def removedHash : Task → Option String
  | .upload upload (.removing _) => some upload.hash
  | .delete _ hash (.removing _) | .moderate hash (.removing _) | .purge _ (.removing hash _ _) =>
    some hash
  | _ => none

/-- The task may still write a row of the hash. -/
abbrev writes (hash : String) (task : Task) : Prop := writtenHash task = some hash

/-- The task is deleting bytes of the hash. -/
abbrev removes (hash : String) (task : Task) : Prop := removedHash task = some hash

/-- The copies that the row of an upload will name. -/
def countedOn : Task → List (String × String)
  | .upload upload (.storing _ stored) =>
    stored.map fun provider => (provider, upload.hash)
  | .upload upload (.creating _ replicas) =>
    replicas.map fun provider => (provider, upload.hash)
  | _ => []

theorem writes_of_countedOn (sums : copy ∈ countedOn task) : writes copy.2 task := by
  rcases task with ⟨upload, phase⟩ | _ | _ | _
  · cases phase with
    | storing left kept | creating storedNow copies =>
      rcases mem_map.mp sums with ⟨host, _, rfl⟩
      rfl
    | _ => cases sums
  all_goals cases sums

/-- No upload of the hash is between its lookup and its row. -/
abbrev NoWriter (cluster : Cluster) (hash : String) : Prop :=
  ∀ task ∈ cluster.tasks, ¬ writes hash task

/-- No account owns the hash. -/
abbrev NoRow (db : Database) (hash : String) : Prop := ∀ row ∈ db.blobs, row.hash ≠ hash

/-- Every row has its bytes on every provider it names. -/
abbrev BytesHeld (cluster : Cluster) : Prop :=
  ∀ row ∈ cluster.db.blobs, ∀ provider ∈ row.replicas,
    (provider, row.hash) ∈ cluster.held

/-! ## The invariant -/

/-- Rows and uploads under way have their bytes; removal meets neither. -/
structure ClusterSound (cluster : Cluster) : Prop where
  rows : BytesHeld cluster
  counted : ∀ task ∈ cluster.tasks, countedOn task ⊆ cluster.held
  removing : ∀ task ∈ cluster.tasks, ∀ hash, removes hash task →
    NoRow cluster.db hash ∧ NoWriter cluster hash

/-- What one request of a task may do without losing bytes. -/
structure Safe (cluster : Cluster) (task : Task) (db : Database)
    (held : List (String × String)) (next : Task) : Prop where
  created : ∀ row ∈ db.blobs, row ∈ cluster.db.blobs ∨
    writes row.hash task ∧ ∀ provider ∈ row.replicas, (provider, row.hash) ∈ cluster.held
  kept : ∀ copy ∈ cluster.held, copy ∈ held ∨ removes copy.2 task
  counted : countedOn next ⊆ held
  writing : ∀ hash, writes hash next → writes hash task ∨
    ∀ other ∈ cluster.tasks, ¬ removes hash other
  removing : ∀ hash, removes hash next → removes hash task ∨ NoRow db hash ∧ NoWriter cluster hash

/-- No task writes and removes at once. -/
theorem not_writes_of_removes (removing : removes hash task) : ¬ writes hash task := by
  intro busy
  rcases task with ⟨upload, phase⟩ | _ | _ | _
  · cases phase with
    | removing copies => exact nomatch busy
    | _ => exact nomatch removing
  all_goals exact nomatch busy

/-- A safe request keeps the cluster sound. -/
theorem ClusterSound.settle (ok : ClusterSound cluster) (mem : task ∈ cluster.tasks)
    (safe : Safe cluster task db held next) :
    ClusterSound { cluster with
        db := db
        held := held
        tasks := cluster.tasks.set index next } := by
  have noNewRow : ∀ hash, NoRow cluster.db hash → ¬ writes hash task → NoRow db hash := by
    intro hash noRow notWriting row rowMem eq
    subst eq
    rcases safe.created row rowMem with old | ⟨busy, _⟩
    · exact noRow row old rfl
    · exact notWriting busy
  have noNewWriter : ∀ hash, NoWriter cluster hash → ¬ writes hash next →
      ∀ other ∈ cluster.tasks.set index next, ¬ writes hash other := by
    intro hash idle notNext other omem
    rcases mem_or_eq_of_mem_set omem with old | rfl
    · exact idle other old
    · exact notNext
  have done : ∀ other ∈ cluster.tasks, ∀ hash, removes hash other → NoRow db hash ∧
        ∀ other ∈ cluster.tasks.set index next, ¬ writes hash other := by
    intro other omem hash drops
    rcases ok.removing other omem hash drops with ⟨noRow, idle⟩
    refine ⟨noNewRow hash noRow (idle task mem), noNewWriter hash idle ?_⟩
    intro busy
    rcases safe.writing hash busy with early | nobody
    · exact idle task mem early
    · exact nobody other omem drops
  refine ⟨?_, ?_, ?_⟩
  · intro row rowMem host has
    have stored : (host, row.hash) ∈ cluster.held := by
      rcases safe.created row rowMem with old | ⟨_, sums⟩
      · exact ok.rows row old host has
      · exact sums host has
    rcases safe.kept _ stored with kept | drops
    · exact kept
    · exact absurd rfl ((done task mem row.hash drops).1 row rowMem)
  · intro other omem
    rcases mem_or_eq_of_mem_set omem with old | rfl
    · intro copy sums
      rcases safe.kept copy (ok.counted other old sums) with kept | drops
      · exact kept
      · have idle := (ok.removing task mem copy.2 drops).2
        exact absurd (writes_of_countedOn sums) (idle other old)
    · exact safe.counted
  · intro other omem hash drops
    rcases mem_or_eq_of_mem_set omem with old | rfl
    · exact done other old hash drops
    · rcases safe.removing hash drops with early | ⟨noRow, idle⟩
      · exact done task mem hash early
      · exact ⟨noRow, noNewWriter hash idle (not_writes_of_removes drops)⟩

/-! ## The condition on a step -/

/-- The account is the only owner of the hash. -/
abbrev OnlyOwner (db : Database) (npub hash : String) : Prop :=
  ∀ row ∈ db.blobs, row.hash = hash → row.npub = npub

/-- The next request of a task respects the exclusion of its hash. -/
def TaskExclusive (cluster : Cluster) (delivery : Delivery) : Task → Prop
  | .upload upload .lookingUp =>
    ∀ other ∈ cluster.tasks, ¬ removes upload.hash other
  | .upload upload (.claiming _) =>
    (delivery ≠ .answered → NoRow cluster.db upload.hash) ∧
      (NoRow cluster.db upload.hash → NoWriter cluster upload.hash)
  | .delete npub hash (.deletingRow _) =>
    OnlyOwner cluster.db npub hash → NoWriter cluster hash
  | .moderate hash (.deletingRow _) => NoWriter cluster hash
  | .purge npub (.deletingRow hash _ _) =>
    OnlyOwner cluster.db npub hash → NoWriter cluster hash
  | _ => True

/--
An upload looks its hash up only while no request removes bytes of it, and
the last row or unclaimed bytes of a hash go only while no upload of it is
past its lookup.
-/
def Exclusive (cluster : Cluster) : Event → Prop
  | .advance index delivery _ =>
    ∀ task ∈ cluster.tasks[index]?, TaskExclusive cluster delivery task
  | _ => True

/-! ## One request -/

/-- A request that changes neither tables nor bytes. -/
theorem Safe.unchanged (sums : countedOn next ⊆ cluster.held)
    (busy : ∀ hash, writes hash next → writes hash task ∨
      ∀ other ∈ cluster.tasks, ¬ removes hash other)
    (drops : ∀ hash, removes hash next → removes hash task ∨
      NoRow cluster.db hash ∧ NoWriter cluster hash) :
    Safe cluster task cluster.db cluster.held next :=
  ⟨fun _ mem => .inl mem, fun _ mem => .inl mem, sums, busy, drops⟩

/-- A task that neither writes nor removes nor counts on a copy. -/
structure Idle (task : Task) : Prop where
  counted : countedOn task = []
  writing : ∀ hash, ¬ writes hash task
  removing : ∀ hash, ¬ removes hash task

/-- Going idle, with some rows gone at most, is safe. -/
theorem Safe.idle {db : Database} (fewer : db.blobs ⊆ cluster.db.blobs) (idle : Idle next) :
    Safe cluster task db cluster.held next := by
  refine ⟨fun _ mem => .inl (fewer mem), fun _ mem => .inl mem, ?_, ?_, ?_⟩
  · rw [idle.counted]
    exact nil_subset _
  · intro hash busy
    exact absurd busy (idle.writing hash)
  · intro hash drops
    exact absurd drops (idle.removing hash)

theorem idle_upload_ended (upload : Upload) : Idle (.upload upload .ended) :=
  ⟨rfl, fun _ => nofun, fun _ => nofun⟩

theorem idle_upload_refetching (upload : Upload) : Idle (.upload upload .refetching) :=
  ⟨rfl, fun _ => nofun, fun _ => nofun⟩

/-- A task goes on removing bytes of the same hash. -/
theorem Safe.removeStep (drops : removes hash task) (sums : countedOn next = [])
    (busy : ∀ hash, ¬ writes hash next) (eq : ∀ other, removes other next → other = hash) :
    Safe cluster task cluster.db (removeStep cluster hash replica delivery) next := by
  refine ⟨fun _ mem => .inl mem, ?_, ?_, ?_, ?_⟩
  · intro copy mem
    by_cases target : copy.2 = hash
    · rw [target]
      exact .inr drops
    · refine .inl ?_
      simp only [Proxy.removeStep, removeBytes]
      split
      · split
        · refine mem_filter.mpr ⟨mem, ?_⟩
          refine decide_eq_true ?_
          rintro rfl
          exact target rfl
        · exact mem
      · exact mem
  · rw [sums]
    exact nil_subset _
  · intro other written
    exact absurd written (busy other)
  · intro other cut
    rw [eq other cut]
    exact .inl drops

/-- The loop of `uploadBlob` counts on what it has stored. -/
theorem countedOn_storingNext (replicaCount : Nat) (upload : Upload) (left kept : List String) :
    countedOn (.upload upload (storingNext replicaCount left kept)) ⊆
      kept.map fun host => (host, upload.hash) := by
  simp only [storingNext]
  split
  · exact fun _ mem => mem
  · split
    · exact nil_subset _
    · exact fun _ mem => mem

theorem writes_storingNext (busy : writes hash
      (.upload upload (storingNext replicaCount remaining stored))) :
    upload.hash = hash := by
  simp only [storingNext] at busy
  split at busy
  · exact Option.some.inj busy
  · split at busy
    · exact nomatch busy
    · exact Option.some.inj busy

theorem not_removes_storingNext (replicaCount : Nat) (upload : Upload)
    (left kept : List String) (hash : String) :
    ¬ removes hash (.upload upload (storingNext replicaCount left kept)) := by
  simp only [storingNext]
  split
  · exact nofun
  · split
    · exact nofun
    · exact nofun

theorem storeStep_safe
    (sums : countedOn (.upload upload (.storing remaining stored)) ⊆ cluster.held)
    (ran : storeStep replicaCount cluster upload remaining stored delivery = some moved) :
    Safe cluster (.upload upload (.storing remaining stored)) moved.db
      moved.held (.upload upload moved.phase) := by
  simp only [storeStep, Option.map_eq_some_iff] at ran
  rcases ran with ⟨server, _, rfl⟩
  have long : cluster.held ⊆ (if delivery.executed then cluster.held ++ [(server, upload.hash)]
        else cluster.held) := by
    split
    · exact subset_append_left _ _
    · exact fun _ mem => mem
  refine ⟨fun _ mem => .inl mem, fun _ mem => .inl (long mem), ?_, ?_, ?_⟩
  · intro copy mem
    have has := countedOn_storingNext _ _ _ _ mem
    rcases mem_map.mp has with ⟨host, inStored, rfl⟩
    by_cases got : delivery = .answered
    · simp only [got, if_true, mem_append, mem_singleton] at inStored
      rcases inStored with old | rfl
      · exact long (sums (mem_map.mpr ⟨host, old, rfl⟩))
      · simp [got, Delivery.executed]
    · simp only [got, if_false] at inStored
      exact long (sums (mem_map.mpr ⟨host, inStored, rfl⟩))
  · intro hash busy
    exact .inl (congrArg some (writes_storingNext busy))
  · intro hash drops
    exact absurd drops (not_removes_storingNext _ _ _ _ hash)

theorem idle_createFailed (upload : Upload) (kept : Bool) (copies : List String) :
    Idle (.upload upload (createFailed kept copies)) := by
  cases kept with
  | false => exact idle_upload_ended upload
  | true => exact ⟨rfl, fun _ => nofun, fun _ => nofun⟩

/-- The row an upload writes names copies that it has counted on. -/
theorem Safe.created_row (sums : countedOn (.upload upload (.creating stored replicas)) ⊆
      cluster.held) (created : createBlob cluster.db
      { hash := upload.hash
        npub := upload.npub
        size := upload.size
        replicas := replicas
        createdAt := now } = .ok db) (idle : Idle next) :
    Safe cluster (.upload upload (.creating stored replicas)) db cluster.held next := by
  have quiet : Safe cluster (.upload upload (.creating stored replicas))
      cluster.db cluster.held next := Safe.idle (fun _ mem => mem) idle
  refine ⟨?_, quiet.kept, quiet.counted, quiet.writing, ?_⟩
  · intro row mem
    rw [createBlob_blobs created, mem_append, mem_singleton] at mem
    rcases mem with old | rfl
    · exact .inl old
    · refine .inr ⟨rfl, ?_⟩
      intro host has
      exact sums (mem_map.mpr ⟨host, has, rfl⟩)
  · intro hash drops
    exact absurd drops (idle.removing hash)

theorem createStep_safe (delivery : Delivery) (now : Nat)
    (sums : countedOn (.upload upload (.creating stored copies)) ⊆ cluster.held) :
    Safe cluster (.upload upload (.creating stored copies))
      (createStep cluster upload stored copies delivery now).db
      (createStep cluster upload stored copies delivery now).held
      (.upload upload (createStep cluster upload stored copies delivery now).phase)
      := by
  have err := idle_createFailed upload stored copies
  simp only [createStep]
  split
  · rename_i created
    exact Safe.created_row sums created (idle_upload_ended upload)
  · exact Safe.idle (fun _ mem => mem) (idle_upload_refetching upload)
  · rename_i created
    exact Safe.created_row sums created err
  · exact Safe.idle (fun _ mem => mem) err

theorem uploadStep_safe (ok : ClusterSound cluster) (mem : .upload upload phase ∈ cluster.tasks)
    (sole : TaskExclusive cluster delivery (.upload upload phase))
    (ran : uploadStep replicaCount cluster upload delivery now phase = some moved) :
    Safe cluster (.upload upload phase) moved.db moved.held (.upload upload moved.phase) := by
  have sums := ok.counted _ mem
  have ended : Safe cluster (.upload upload phase) cluster.db cluster.held
      (.upload upload .ended) :=
    Safe.idle (fun _ mem => mem) (idle_upload_ended upload)
  cases phase with
  | lookingUp =>
    cases ran
    dsimp only
    split
    · cases found : getBlob cluster.db upload.hash with
      | none =>
        refine Safe.unchanged (nil_subset _) ?_ (fun _ => nofun)
        rintro hash ⟨⟩
        exact .inr sole
      | some info =>
        dsimp only
        split
        · exact ended
        · have row := getBlob_row_mem found
          refine Safe.unchanged ?_ ?_ (fun _ => nofun)
          · intro copy dup
            rcases mem_map.mp dup with ⟨host, has, rfl⟩
            rw [← row.2]
            exact ok.rows info.row row.1 host has
          · rintro hash ⟨⟩
            exact .inr sole
    · exact ended
  | placing =>
    cases ran
    refine Safe.unchanged ?_ ?_ ?_
    · intro copy dup
      cases countedOn_storingNext _ _ _ _ dup
    · intro hash busy
      exact .inl (congrArg some (writes_storingNext busy))
    · intro hash removing
      exact absurd removing (not_removes_storingNext _ _ _ _ hash)
  | storing left kept => exact storeStep_safe sums ran
  | creating storedNow copies =>
    cases ran
    exact createStep_safe delivery now sums
  | refetching =>
    cases ran
    exact ended
  | claiming copies =>
    cases ran
    dsimp only
    split
    · exact ended
    · rename_i unclaimed
      have noRow : NoRow cluster.db upload.hash := by
        by_cases got : delivery = .answered
        · simp only [got, decide_true, Bool.true_and, Bool.not_eq_true, Option.isSome_eq_false_iff,
            Option.isNone_iff_eq_none] at unclaimed
          exact getBlob_eq_none unclaimed
        · exact sole.1 got
      refine Safe.unchanged (nil_subset _) (fun _ => nofun) ?_
      rintro hash ⟨⟩
      exact .inr ⟨noRow, sole.2 noRow⟩
  | removing copies =>
    cases copies with
    | nil =>
      cases ran
      exact ended
    | cons rep rest =>
      cases ran
      exact Safe.removeStep rfl rfl (fun _ => nofun) (fun _ eq => (Option.some.inj eq).symm)
  | ended => cases ran

theorem rowStep_subset (cluster : Cluster) (hash : String) (scope : Scope) (delivery : Delivery) :
    (rowStep cluster hash scope delivery).1.blobs ⊆ cluster.db.blobs := by
  simp only [rowStep]
  split
  · rename_i gone
    exact deleteBlob_subset gone
  · rename_i gone
    exact deleteBlob_subset gone
  · exact fun _ mem => mem

theorem rowStep_eq_some (cut : (rowStep cluster hash scope delivery).2 = some left) :
    deleteBlob cluster.db hash scope = some ((rowStep cluster hash scope delivery).1, left) := by
  simp only [rowStep] at cut ⊢
  split at cut
  · rename_i gone
    cases cut
    simpa using gone
  · cases cut
  · cases cut

/-- Deleting the last owner row of a hash leaves no row of it. -/
theorem rowStep_owner_zero (cut : (rowStep cluster hash (.owner npub) delivery).2 = some 0) :
    NoRow (rowStep cluster hash (.owner npub) delivery).1 hash ∧
      OnlyOwner cluster.db npub hash := by
  have gone := rowStep_eq_some cut
  have noRow := deleteBlob_zero gone
  refine ⟨noRow, ?_⟩
  intro row mem eq
  by_contra other
  refine noRow row ?_ eq
  rw [(deleteBlob_eq_some gone).1]
  refine mem_filter.mpr ⟨mem, ?_⟩
  simp [Scope.selects, other]

/-- Deleting every owner row of a hash leaves no row of it. -/
theorem rowStep_all (cut : (rowStep cluster hash .all delivery).2 = some left) :
    NoRow (rowStep cluster hash .all delivery).1 hash := by
  have gone := rowStep_eq_some cut
  intro row mem eq
  rw [(deleteBlob_eq_some gone).1] at mem
  have kept := (mem_filter.mp mem).2
  simp [Scope.selects, eq] at kept

/-- A row delete after which the task removes the bytes of the hash. -/
theorem Safe.rowStep (sums : countedOn next = []) (busy : ∀ hash, ¬ writes hash next)
    (drops : ∀ other, removes other next → other = hash ∧
      NoRow (rowStep cluster hash scope delivery).1 hash ∧ NoWriter cluster hash) :
    Safe cluster task (rowStep cluster hash scope delivery).1 cluster.held
      next := by
  refine ⟨fun _ mem => .inl (rowStep_subset _ _ _ _ mem), fun _ mem => .inl mem, ?_, ?_, ?_⟩
  · rw [sums]
    exact nil_subset _
  · intro other written
    exact absurd written (busy other)
  · intro other cut
    rcases drops other cut with ⟨rfl, noRow, idle⟩
    exact .inr ⟨noRow, idle⟩

/-- How a delete request of either kind appears among the tasks. -/
def deleteTask (hash : String) : Scope → DeletePhase → Task
  | .owner npub => .delete npub hash
  | .all => .moderate hash

theorem idle_deleteTask (hash : String) (scope : Scope)
    (quiet : ∀ copies, phase ≠ .removing copies) :
    Idle (deleteTask hash scope phase) := by
  cases scope with
  | owner npub | all =>
    refine ⟨rfl, fun _ => nofun, ?_⟩
    intro other removing
    cases phase with
    | removing copies => exact quiet copies rfl
    | _ => exact nomatch removing

theorem deleteStep_safe (sole : TaskExclusive cluster delivery (deleteTask hash scope phase))
    (ran : deleteStep cluster hash scope delivery phase = some moved) :
    Safe cluster (deleteTask hash scope phase) moved.db moved.held
      (deleteTask hash scope moved.phase) := by
  have quiet : ∀ next : DeletePhase, (∀ copies, next ≠ .removing copies) →
      Safe cluster (deleteTask hash scope phase) cluster.db cluster.held
        (deleteTask hash scope next) :=
    fun next notRemoving =>
      Safe.idle (fun _ mem => mem) (idle_deleteTask hash scope notRemoving)
  cases phase with
  | lookingUp =>
    cases ran
    refine quiet _ ?_
    intro copies
    dsimp only
    split
    · split
      · exact DeletePhase.noConfusion
      · exact DeletePhase.noConfusion
      · split <;> exact DeletePhase.noConfusion
    · exact DeletePhase.noConfusion
  | deletingRow copies =>
    cases ran
    cases scope with
    | owner npub =>
      refine Safe.rowStep rfl (fun _ => nofun) ?_
      intro other removing
      dsimp only [deleteTask] at removing
      split at removing
      · rename_i last
        have cut := rowStep_owner_zero (of_decide_eq_true last)
        exact ⟨(Option.some.inj removing).symm, cut.1, sole cut.2⟩
      · exact nomatch removing
    | all =>
      refine Safe.rowStep rfl (fun _ => nofun) ?_
      intro other removing
      dsimp only [deleteTask] at removing
      split at removing
      · rename_i last
        rcases Option.isSome_iff_exists.mp last with ⟨left, cut⟩
        exact ⟨(Option.some.inj removing).symm, rowStep_all cut, sole⟩
      · exact nomatch removing
  | removing copies =>
    cases copies with
    | nil =>
      cases ran
      exact quiet _ (fun _ => DeletePhase.noConfusion)
    | cons copy rest =>
      cases ran
      cases scope with
      | owner npub | all =>
        exact Safe.removeStep rfl rfl (fun _ => nofun) (fun _ eq => (Option.some.inj eq).symm)
  | ended => cases ran

theorem idle_purgeNext (npub : String) (rest : List BlobRow) :
    Idle (.purge npub (purgeNext rest)) := by
  cases rest with
  | nil | cons row rest => exact ⟨rfl, fun _ => nofun, fun _ => nofun⟩

theorem purgeStep_safe (sole : TaskExclusive cluster delivery (.purge npub phase))
    (ran : purgeStep cluster npub delivery phase = some moved) :
    Safe cluster (.purge npub phase) moved.db moved.held (.purge npub moved.phase) := by
  cases phase with
  | listing =>
    cases ran
    refine Safe.idle (fun _ mem => mem) ?_
    dsimp only
    split
    · split <;> exact ⟨rfl, fun _ => nofun, fun _ => nofun⟩
    · exact ⟨rfl, fun _ => nofun, fun _ => nofun⟩
  | deletingRow hash copies rest =>
    cases ran
    dsimp only
    split
    · exact Safe.rowStep rfl (fun _ => nofun) (fun _ => nofun)
    · rename_i last
      have cut := rowStep_owner_zero last
      refine Safe.rowStep rfl (fun _ => nofun) ?_
      rintro other ⟨⟩
      exact ⟨rfl, cut.1, sole cut.2⟩
    · have idle := idle_purgeNext npub rest
      exact Safe.rowStep idle.counted idle.writing
        (fun other removing => absurd removing (idle.removing other))
  | removing hash copies rest =>
    cases copies with
    | nil =>
      cases ran
      exact Safe.idle (fun _ mem => mem) (idle_purgeNext npub rest)
    | cons copy copies =>
      cases ran
      exact Safe.removeStep rfl rfl (fun _ => nofun) (fun _ eq => (Option.some.inj eq).symm)
  | ended => cases ran

/-! ## One step, and a run -/

theorem taskStep_sound {next : Cluster} (ok : ClusterSound cluster)
    {i now : Nat} (mem : task ∈ cluster.tasks) (sole : TaskExclusive cluster delivery task)
    (ran : taskStep replicaCount cluster i delivery now task = some next) :
    ClusterSound next := by
  cases task with
  | upload upload phase =>
    simp only [taskStep, Option.map_eq_some_iff] at ran
    rcases ran with ⟨moved, moves, rfl⟩
    exact ok.settle mem (uploadStep_safe ok mem sole moves)
  | delete npub hash phase =>
    simp only [taskStep, Option.map_eq_some_iff] at ran
    rcases ran with ⟨moved, moves, rfl⟩
    exact ok.settle mem (deleteStep_safe (show TaskExclusive cluster delivery
        (deleteTask hash (.owner npub) phase) from sole) moves)
  | moderate hash phase =>
    simp only [taskStep, Option.map_eq_some_iff] at ran
    rcases ran with ⟨moved, moves, rfl⟩
    exact ok.settle mem (deleteStep_safe (show TaskExclusive cluster delivery
        (deleteTask hash .all phase) from sole) moves)
  | purge npub phase =>
    simp only [taskStep, Option.map_eq_some_iff] at ran
    rcases ran with ⟨moved, moves, rfl⟩
    exact ok.settle mem (purgeStep_safe sole moves)

theorem idle_dropped (task : Task) : Idle task.dropped := by
  cases task <;> exact ⟨rfl, fun _ => nofun, fun _ => nofun⟩

/-- A request that has just arrived touches no bytes. -/
theorem ClusterSound.start (ok : ClusterSound cluster) (idle : Idle task) :
    ClusterSound (cluster.start task) := by
  have split : ∀ other ∈ (cluster.start task).tasks, other ∈ cluster.tasks ∨ other = task := by
    intro other mem
    simpa [Cluster.start] using mem
  have noWriter : ∀ hash, NoWriter cluster hash → NoWriter (cluster.start task) hash := by
    intro hash none other mem
    rcases split other mem with old | rfl
    · exact none other old
    · exact idle.writing hash
  refine ⟨ok.rows, ?_, ?_⟩
  · intro other mem
    rcases split other mem with old | rfl
    · exact ok.counted other old
    · rw [idle.counted]
      exact nil_subset _
  · intro other mem hash drops
    rcases split other mem with old | rfl
    · have held := ok.removing other old hash drops
      exact ⟨held.1, noWriter hash held.2⟩
    · exact absurd drops (idle.removing hash)

theorem step_sound {next : Cluster} {ev : Event}
    (ok : ClusterSound cluster) (sole : Exclusive cluster ev)
    (ran : step replicaCount cluster ev = some next) :
    ClusterSound next := by
  cases ev with
  | startUpload upload | startDelete npub hash | startModeration hash
  | startPurge npub =>
    cases ran
    exact ok.start ⟨rfl, fun _ => nofun, fun _ => nofun⟩
  | advance i delivery now =>
    simp only [step] at ran
    cases found : cluster.tasks[i]? with
    | none => simp [found] at ran
    | some task =>
      simp only [found] at ran
      exact taskStep_sound ok (mem_of_getElem? found) (sole task found) ran
  | drop i =>
    simp only [step] at ran
    cases found : cluster.tasks[i]? with
    | none => simp [found] at ran
    | some task =>
      simp only [found, Option.some.injEq] at ran
      subst ran
      have safe : Safe cluster task cluster.db cluster.held
          task.dropped :=
        Safe.idle (fun _ mem => mem) (idle_dropped task)
      exact ok.settle (mem_of_getElem? found) safe
  | refresh roster | writeUsers users =>
    cases ran
    exact ⟨ok.rows, ok.counted, ok.removing⟩

/--
From a state in which every row has its bytes and no request is in flight,
every run that respects the exclusion of uploads and removals of one hash
keeps the bytes of every row on every provider the row names.
-/
theorem exclusive_run_keeps_bytes
    {replicaCount : Nat} {initial final : Cluster} {events : List Event}
    (consistent : BytesHeld initial) (quiescent : initial.tasks = [])
    (run : GuardedRun (step replicaCount) Exclusive initial events final) :
    BytesHeld final := by
  have init : ClusterSound initial := by
    refine ⟨consistent, ?_, ?_⟩
    all_goals
      intro task mem
      rw [quiescent] at mem
      cases mem
  have sound : ClusterSound final := run.invariant (fun _ _ _ h ok ran => step_sound h ok ran) init
  exact sound.rows

/-! ## The race of a delete with an upload -/

/-- One account owns a blob on the only provider; another owns nothing. -/
def sharedNode : Cluster where
  db :=
    { users :=
        [{ npub := "alice", usedStorage := 3, storageBytes := none },
          { npub := "bob", usedStorage := 0, storageBytes := none }]
      blobs :=
        [{ hash := "h", npub := "alice", size := 3, replicas := ["p1"]
           createdAt := 0 }] }
  roster := ["p1"]
  held := [("p1", "h")]
  tasks := []

/-- Bob's upload of the bytes that Alice owns. -/
def bobsUpload : Upload where
  npub := "bob"
  hash := "h"
  size := 3
  startedAt := 0

/-- Bob uploads the shared bytes, then Alice deletes her row. -/
def uploadThenDelete : List Event :=
  [.startUpload bobsUpload, .advance 0 .answered 1, .advance 0 .answered 2,
    .startDelete "alice" "h", .advance 1 .answered 3,
    .advance 1 .answered 4]

theorem exclusive_run_keeps_bytes_shared :
    ∃ final, replay (step 2) sharedNode uploadThenDelete = some final ∧
      final.Quiescent ∧ BytesHeld final := by
  refine ⟨_, rfl, by decide, ?_⟩
  have run : GuardedRun (step 2) Exclusive sharedNode uploadThenDelete _ := .move trivial rfl <|
    .move (by
        rintro task ⟨⟩
        show ∀ other ∈ _, ¬ removes _ other
        decide) rfl <|
    .move (by rintro task ⟨⟩; trivial) rfl <|
    .move trivial rfl <|
    .move (by rintro task ⟨⟩; trivial) rfl <|
    .move (by
        rintro task ⟨⟩
        show OnlyOwner _ _ _ → NoWriter _ _
        decide) rfl (.done _)
  exact exclusive_run_keeps_bytes (by decide) rfl run

/-- Alice deletes; before her byte delete, Bob uploads the same bytes. -/
def deleteDuringUpload : List Event :=
  [.startDelete "alice" "h", .advance 0 .answered 1, .advance 0 .answered 2,
    .startUpload bobsUpload, .advance 1 .answered 3, .advance 1 .answered 4,
    .advance 1 .answered 5, .advance 1 .answered 6,
    .advance 0 .answered 7, .advance 0 .answered 8]

/--
All requests have been answered with success, and Bob's row names a provider
that no longer has the bytes.
-/
theorem deleting_races_upload : BytesHeld sharedNode ∧
      ∃ final, replay (step 2) sharedNode deleteDuringUpload = some final ∧ final.Quiescent ∧
        ∃ row ∈ final.db.blobs, row.npub = "bob" ∧
          row.replicas = ["p1"] ∧ ("p1", row.hash) ∉ final.held := by
  refine ⟨by decide, _, rfl, by decide, ?_⟩
  decide

end StorageOrchestrator.Blossom.Bytes
