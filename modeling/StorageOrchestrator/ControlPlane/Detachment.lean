import StorageOrchestrator.ControlPlane.Administrators

/-!
# Revocation detaches storages

While database calls succeed and requests run to their end, every linked
storage belongs to an active member whenever the lock is free, and no storage
ever changes its owner.  Revocation breaks the first for as long as it holds
the lock: it revokes the member, lists the member's storages and removes them
one by one, and steps without the lock neither create nor link a storage
meanwhile.
-/

namespace StorageOrchestrator.ControlPlane.Detachment

open Lib Lib.Mutex Lib.Transition ControlPlane ControlPlane.Administrators

variable {store : Store} {npub target : String} {storage : Storage}

/-- The test of `auth::active_member`. -/
def isActive (members : Members) (npub : String) : Bool :=
  (members.find npub).any (·.status == .active)

/-- Every linked storage belongs to an active member. -/
def Attached (store : Store) : Prop :=
  ∀ storage ∈ store.storages.rows, storage.lifecycle = .linked →
    isActive store.members storage.ownerNpub = true

/-- Storages stay, with their owners. -/
def OwnersKept (store later : Store) : Prop :=
  ∀ storage ∈ store.storages.rows, ∃ after ∈ later.storages.rows,
    after.npub = storage.npub ∧ after.ownerNpub = storage.ownerNpub

/-- What happens without the lock: members stay, storages stay with their
owners, and none is created or linked. -/
structure Loosened (store later : Store) : Prop where
  members : later.members = store.members
  kept : OwnersKept store later
  linked : ∀ storage ∈ later.storages.rows, ∃ before ∈ store.storages.rows,
    before.npub = storage.npub ∧ before.ownerNpub = storage.ownerNpub ∧
      (storage.lifecycle = .linked → before.lifecycle = .linked)

theorem OwnersKept.refl (store : Store) : OwnersKept store store :=
  fun storage isRow => ⟨storage, isRow, rfl, rfl⟩

theorem OwnersKept.trans {first second third : Store}
    (pre : OwnersKept first second) (post : OwnersKept second third) :
    OwnersKept first third := by
  intro storage isRow
  rcases pre storage isRow with ⟨mid, isMiddle, eqNpub, eqOwner⟩
  rcases post mid isMiddle with ⟨last, isLast, lastNpub, lastOwner⟩
  exact ⟨last, isLast, lastNpub.trans eqNpub, lastOwner.trans eqOwner⟩

theorem Loosened.refl (store : Store) : Loosened store store :=
  ⟨rfl, .refl store, fun storage isRow => ⟨storage, isRow, rfl, rfl, id⟩⟩

theorem Loosened.trans {first second third : Store}
    (pre : Loosened first second) (post : Loosened second third) :
    Loosened first third := by
  refine ⟨post.members.trans pre.members, pre.kept.trans post.kept, ?_⟩
  intro storage isRow
  rcases post.linked storage isRow with ⟨mid, isMiddle, eqNpub, eqOwner, wasLinked⟩
  rcases pre.linked mid isMiddle with ⟨old, isOld, oldNpub, oldOwner, oldLinked⟩
  exact ⟨old, isOld, oldNpub.trans eqNpub, oldOwner.trans eqOwner,
    fun link => oldLinked (wasLinked link)⟩

theorem Attached.later {later : Store} (bound : Attached store)
    (loose : Loosened store later) : Attached later := by
  intro storage isRow link
  rcases loose.linked storage isRow with ⟨pre, bef, _, eqOwner, wasLinked⟩
  rw [loose.members, ← eqOwner]
  exact bound pre bef (wasLinked link)

theorem isActive_iff {mems : Members} : isActive mems npub = true ↔
      ∃ mem ∈ mems.rows, mem.npub = npub ∧ mem.status = .active := by
  rw [isActive]
  constructor
  · intro live
    cases found : mems.find npub with
    | none => simp [found] at live
    | some mem =>
      have isMember := UniqueRows.mem_of_find found
      exact ⟨mem, isMember.1, isMember.2, by simpa [found] using live⟩
  · rintro ⟨mem, isMember, rfl, live⟩
    simp [UniqueRows.find_of_mem isMember, live]

/-- No upsert deactivates a member. -/
theorem isActive_putMember (live : isActive store.members npub = true) :
    isActive (putMember store target role adder).members npub = true := by
  rcases isActive_iff.mp live with ⟨mem, isMember, rfl, isActive⟩
  by_cases isTarget : mem.npub = target
  · have isPut : ∃ put ∈ (putMember store target role adder).members.rows,
        put.npub = target ∧ (put = ⟨target, role, .active, adder⟩ ∨
          ∃ old, put = (Member.grant role).apply old) :=
      UniqueRows.exists_mem_put _
    rcases isPut with ⟨put, isPlaced, eqNpub, isNew | ⟨old, isOld⟩⟩
    · exact isActive_iff.mpr ⟨put, isPlaced, eqNpub.trans isTarget.symm, by rw [isNew]⟩
    · exact isActive_iff.mpr ⟨put, isPlaced, eqNpub.trans isTarget.symm, by rw [isOld]; rfl⟩
  · exact isActive_iff.mpr ⟨mem, others_putMember store target role adder mem isMember isTarget,
      rfl, isActive⟩

/-- A revocation leaves other members as they are. -/
theorem isActive_revokeMember (live : isActive store.members npub = true) (ne : npub ≠ target) :
    isActive (revokeMember store target).members npub = true := by
  rcases isActive_iff.mp live with ⟨mem, isMember, rfl, isActive⟩
  exact isActive_iff.mpr ⟨mem, others_revokeMember store target mem isMember ne, rfl, isActive⟩

/-! ## Patches -/

theorem mem_patchStorage (isRow : storage ∈ (patchStorage store npub patch).storages.rows) :
    ∃ pre ∈ store.storages.rows, pre.npub = storage.npub ∧ pre.ownerNpub = storage.ownerNpub ∧
      storage.lifecycle = if pre.npub = npub then
      patch.lifecycle.getD pre.lifecycle else pre.lifecycle := by
  rcases UniqueRows.mem_update.mp isRow with ⟨pre, bef, rfl⟩
  refine ⟨pre, bef, ?_⟩
  by_cases isTarget : pre.npub = npub
  · simp [isTarget, StoragePatch.change, StoragePatch.apply]
  · simp [isTarget]

theorem ownersKept_patchStorage (store : Store) (npub : String)
    (patch : StoragePatch) : OwnersKept store (patchStorage store npub patch) := by
  intro storage isRow
  refine ⟨_, UniqueRows.mem_update.mpr ⟨storage, isRow, rfl⟩, ?_⟩
  by_cases isTarget : storage.npub = npub
  · simp [isTarget, StoragePatch.change, StoragePatch.apply]
  · simp [isTarget]

theorem loosened_patchStorage (store : Store) (npub : String)
    (notLinks : patch.lifecycle ≠ some .linked) :
    Loosened store (patchStorage store npub patch) := by
  refine ⟨rfl, ownersKept_patchStorage store npub patch, ?_⟩
  intro storage isRow
  rcases mem_patchStorage isRow with ⟨pre, bef, eqNpub, eqOwner, life⟩
  refine ⟨pre, bef, eqNpub, eqOwner, fun link => ?_⟩
  rw [link] at life
  split at life
  · cases given : patch.lifecycle with
    | none =>
      rw [given] at life
      exact life.symm
    | some lifecycle =>
      rw [given, Option.getD_some] at life
      rw [given, ← life] at notLinks
      exact absurd rfl notLinks
  · exact life.symm

/-! ## The discipline -/

theorem answer_of_free {call : Call} (free : call.isFree = true) :
    Loosened store (answer store outcome call).1 := by
  cases call with
  | putMember | revokeMember | insertStorage | relinkStorage => cases free
  | patchStorage npub patch =>
    simp only [answer]
    split
    · apply loosened_patchStorage
      simp only [Call.isFree, Option.isNone_iff_eq_none] at free
      simp [free]
    · exact .refl store
  | removeStorage npub => exact loosened_patchStorage store npub (by simp)
  | _ => exact .refl store

def detaching : Discipline service Request where
  outside := Loosened
  inside := fun _ => OwnersKept
  settled := Attached
  enters := fun _ _ => True
  admits := fun call outcome => call.isDatabase = true → outcome.fault = none
  cancels := False
  free := fun call => call.isFree = true
  refl := .refl
  trans := .trans
  stable := .later
  unlocked := by
    intro call outcome store free _
    show Loosened store (perform store call outcome).1
    rcases perform_cases store call outcome with answers | ⟨_, _, same | same⟩
    · rw [answers]
      exact answer_of_free free
    · rw [same]
      exact answer_of_free free
    · rw [same]
      exact .refl store

theorem perform_of_admits {call : Call} {out : Outcome} (db : call.isDatabase = true)
    (ok : detaching.admits call out) :
    perform store call out = answer store out call := by
  rw [perform, ok db]

section

variable {store : Store}

theorem ensures_database {call : Call} {post : call.Value → Store → Prop}
    (db : call.isDatabase = true)
    (ans : ∀ later out, Loosened store later → OwnersKept later (answer later out call).1 ∧
      (∀ value, (answer later out call).2 = .ok value → post value (answer later out call).1) ∧
      ∀ error, (answer later out call).2 = .error error → Attached (answer later out call).1) :
    (ask call).Ensures detaching request post store := by
  refine ensures_ask (fun drops => drops.elim) ?_
  intro later loose out ok
  rw [perform_of_admits db ok]
  exact ans later out loose

def isMemberUpdate : Call → Bool
  | .getMember _ | .listMembers | .putMember _ _ _ => true
  | _ => false

theorem orderly_upsertLocked {caller : String} {role : MemberRole} (bound : Attached store) :
    (upsertLocked caller target role).Orderly detaching request store := by
  have makes : (upsertLocked caller target role).Makes fun call =>
      isMemberUpdate call = true := by
    refine Task.Makes.bind (makes_ask rfl) fun old => ?_
    split
    · refine Task.Makes.bind ?_ fun _ => ?_
      · refine Task.Makes.bind (makes_ask rfl) fun mems => ?_
        split <;> trivial
      · exact Task.Makes.bind (makes_ask rfl) fun _ => trivial
    · exact Task.Makes.bind (makes_ask rfl) fun _ => trivial
  refine makes.orderly (fun call store out isUpdate bound ok => ?_) bound
  show OwnersKept store (perform store call out).1 ∧ Attached (perform store call out).1
  have db : call.isDatabase = true := by
    cases call <;> first | rfl | cases isUpdate
  rw [perform_of_admits db ok]
  cases call with
  | getMember | listMembers => exact ⟨.refl store, bound⟩
  | putMember =>
    refine ⟨.refl store, fun storage isRow link => ?_⟩
    exact isActive_putMember (bound storage isRow link)
  | _ => cases isUpdate

/-! ### Linking -/

/-- The row under a key keeps its owner. -/
theorem owner_later {later : Store} {owner : String}
    (found : store.storages.find npub = some storage)
    (owned : storage.ownerNpub = owner) (kept : OwnersKept store later) :
    ∀ post ∈ later.storages.rows, post.npub = npub → post.ownerNpub = owner := by
  intro post isAfter isNpub
  have isRow := UniqueRows.mem_of_find found
  rcases kept storage isRow.1 with ⟨same, isSame, eqNpub, eqOwner⟩
  have isOne : post = same := List.inj_on_of_nodup_map later.storages.distinct
    isAfter isSame (by rw [isNpub, eqNpub, isRow.2])
  rw [isOne, eqOwner, owned]

theorem attached_link {caller : String} (bound : Attached store)
    (live : isActive store.members caller = true)
    (owned : ∀ storage ∈ store.storages.rows, storage.npub = npub → storage.ownerNpub = caller) :
    Attached (patchStorage store npub patch) := by
  intro storage isRow link
  rcases mem_patchStorage isRow with ⟨pre, bef, eqNpub, eqOwner, life⟩
  rw [← eqOwner]
  by_cases isTarget : pre.npub = npub
  · rw [owned pre bef isTarget]
    exact live
  · rw [if_neg isTarget, link] at life
    exact bound pre bef life.symm

variable {caller : String}

/-- The storage is attached and the caller active. -/
def Ready (caller : String) (store : Store) : Prop :=
  Attached store ∧ isActive store.members caller = true

theorem Ready.later {later : Store} (ready : Ready caller store)
    (loose : Loosened store later) : Ready caller later :=
  ⟨ready.1.later loose, by rw [loose.members]; exact ready.2⟩

/-- A database call after which the store is still ready. -/
theorem ensures_ready {call : Call} {post : call.Value → Store → Prop}
    (db : call.isDatabase = true) (ready : Ready caller store)
    (ans : ∀ later out, Loosened store later → Ready caller later →
      OwnersKept later (answer later out call).1 ∧ Ready caller (answer later out call).1 ∧
      ∀ value, (answer later out call).2 = .ok value → post value (answer later out call).1) :
    (ask call).Ensures detaching request post store := by
  refine ensures_database db fun later out loose => ?_
  have got := ans later out loose (ready.later loose)
  exact ⟨got.1, got.2.2, fun _ _ => got.2.1.1⟩

theorem ensures_reactivate {old : Storage} (ready : Ready caller store) :
    (reactivate npub caller old).Ensures detaching request (fun _ => Ready caller) store := by
  by_cases owned : old.ownerNpub = caller
  · rw [reactivate, if_pos owned]
    refine ensures_ready rfl ready fun later out _ still => ?_
    simp only [answer]
    split
    · rename_i storage found
      split
      · rename_i isOwned
        have post : Ready caller (patchStorage later npub { lifecycle := some .linked }) :=
          ⟨attached_link still.1 still.2 (owner_later found isOwned (.refl later)), still.2⟩
        exact ⟨ownersKept_patchStorage _ _ _, post, fun _ _ => post⟩
      · exact ⟨.refl later, still, fun _ _ => still⟩
    · exact ⟨.refl later, still, fun _ _ => still⟩
  · rw [reactivate, if_neg owned]
    exact ready.1

theorem insert_ready (npub : String) (out : Outcome) (ready : Ready caller store) :
    OwnersKept store (answer store out (.insertStorage npub caller)).1 ∧
      Ready caller (answer store out (.insertStorage npub caller)).1 := by
  simp only [answer]
  split
  · exact ⟨.refl store, ready⟩
  · rename_i disks put
    split
    · refine ⟨fun storage isRow => ⟨storage, ?_, rfl, rfl⟩, ?_, ready.2⟩
      · exact (UniqueRows.mem_insert put).mpr (.inr isRow)
      · intro storage isRow link
        rcases (UniqueRows.mem_insert put).mp isRow with rfl | isOld
        · exact ready.2
        · exact ready.1 storage isOld link
    · exact ⟨.refl store, ready⟩

theorem ensures_createStorage (ready : Ready caller store) :
    (createStorage npub caller).Ensures detaching request (fun _ => Ready caller) store := by
  refine Task.ensures_bind.mpr (ensures_ready rfl ready
    fun later out _ ready => ⟨.refl later, ready, fun found _ => ?_⟩)
  split
  · exact ensures_reactivate ready
  · refine Task.ensures_bind.mpr (ensures_ready rfl ready fun later out _ ready => ?_)
    have put := insert_ready npub out ready
    refine ⟨put.1, put.2, fun kept _ => ?_⟩
    split
    · exact put.2
    · refine Task.ensures_bind.mpr (ensures_ready rfl put.2
        fun later out _ ready => ⟨.refl later, ready, fun found _ => ?_⟩)
      split
      · exact ensures_reactivate ready
      · exact ready.1

theorem ensures_linkRecord (ready : Ready caller store) :
    (linkRecord caller npub).Ensures detaching request (fun _ => Ready caller) store := by
  refine Task.ensures_bind.mpr (ensures_ready rfl ready
    fun found out _ ready => ⟨.refl found, ready, fun ans isOk => ?_⟩)
  cases isOk
  split
  · rename_i storage got
    split
    · exact ready.1
    · rename_i isOwned
      refine Task.ensures_bind.mpr ?_
      refine ensures_ask (fun drops => drops.elim) ?_
      intro read loose out _
      have eq : (perform read .now out).1 = read := by
        rw [perform]
        split <;> rfl
      rw [eq]
      refine ⟨.refl read, fun time _ => ?_, fun _ _ => (ready.later loose).1⟩
      refine ensures_ready rfl (ready.later loose) fun later out further still => ?_
      have owned := owner_later got (Decidable.not_not.mp isOwned) (loose.trans further).kept
      have post : ∀ patch, Ready caller (patchStorage later npub patch) :=
        fun _ => ⟨attached_link still.1 still.2 owned, still.2⟩
      exact ⟨ownersKept_patchStorage _ _ _, post _, fun _ _ => post _⟩
  · exact ensures_createStorage ready

theorem orderly_enroll (bound : Attached store) :
    (enroll npub storage).Orderly detaching request store := by
  have makes : (enroll npub storage).Makes detaching.free := by
    refine Task.Makes.bind (makes_call rfl) fun ans => ?_
    split
    · exact Task.Makes.bind (makes_call rfl) fun _ => trivial
    · trivial
  refine makes.orderly (fun call store out free bound ok => ?_) bound
  have loose := detaching.unlocked store free ok
  exact ⟨loose.kept, bound.later loose⟩

theorem orderly_linkLocked (bound : Attached store) :
    (linkLocked caller npub).Orderly detaching request store := by
  refine Task.ensures_bind.mpr (Task.ensures_bind.mpr (ensures_database rfl
    fun later out loose => ⟨.refl later, fun ans isOk => ?_, fun _ _ => bound.later loose⟩))
  have still := bound.later loose
  cases isOk
  split
  · rename_i member found
    split
    · rename_i live
      have isFound : later.members.find caller = some member := found
      have ready : Ready caller later := ⟨still, by simp [isActive, isFound, live]⟩
      refine Task.ensures_bind.mpr ((ensures_linkRecord ready).weaken ?_)
      intro storage link ready
      exact orderly_enroll ready.1
    · exact still
  · exact still

/-! ### Revoking -/

/-- Linked storages of inactive members are in the list. -/
def Remaining (storages : List Storage) (store : Store) : Prop :=
  ∀ storage ∈ store.storages.rows, storage.lifecycle = .linked →
    isActive store.members storage.ownerNpub = true ∨ storage.npub ∈ storages.map Storage.npub

theorem Remaining.later {disks : List Storage} {later : Store}
    (left : Remaining disks store) (loose : Loosened store later) :
    Remaining disks later := by
  intro storage isRow link
  rcases loose.linked storage isRow with ⟨pre, bef, eqNpub, eqOwner, wasLinked⟩
  rw [loose.members, ← eqOwner, ← eqNpub]
  exact left pre bef (wasLinked link)

/-- Removing the first of the list leaves the rest of it. -/
theorem Remaining.remove (left : Remaining (storage :: rest) store) :
    Remaining rest (patchStorage store storage.npub { lifecycle := some .removed }) := by
  intro row isRow link
  rcases mem_patchStorage isRow with ⟨pre, bef, eqNpub, eqOwner, life⟩
  rw [link] at life
  split at life
  · cases life
  · rename_i notTarget
    rw [← eqOwner, ← eqNpub]
    rcases left pre bef life.symm with live | has
    · exact .inl live
    · rcases List.mem_cons.mp has with isHead | isRest
      · exact absurd isHead notTarget
      · exact .inr isRest

theorem ensures_detach {disks : List Storage} {cut : Nat}
    {failures : List String} (left : Remaining disks store) :
    (detach disks cut failures).Ensures detaching request (fun _ => Attached) store := by
  induction disks generalizing store cut failures with
  | nil =>
    intro storage isRow link
    rcases left storage isRow link with live | has
    · exact live
    · cases has
  | cons storage rest ih =>
    refine Task.ensures_bind.mpr (ensures_call (fun drops => drops.elim)
      fun later loose out ok => ?_)
    rw [perform_of_admits rfl ok]
    have post := (left.later loose).remove
    refine ⟨ownersKept_patchStorage _ _ _, ?_⟩
    split
    · exact ih post
    · refine Task.ensures_bind.mpr (ensures_call (fun drops => drops.elim)
        fun last further out ok => ?_)
      have freed : Loosened last (perform last _ out).1 :=
        detaching.unlocked last (rfl : Call.isFree (.removeDeviceAndReload _) = true) ok
      have stillRemaining := (post.later further).later freed
      refine ⟨freed.kept, ?_⟩
      split
      · exact ih stillRemaining
      · exact ih stillRemaining

/-- Between the revocation and the listing, only the target's storages are
without an active owner. -/
def Pending (target : String) (store : Store) : Prop :=
  ∀ storage ∈ store.storages.rows, storage.lifecycle = .linked →
    isActive store.members storage.ownerNpub = true ∨ storage.ownerNpub = target

theorem Pending.later {later : Store} (due : Pending target store) (loose : Loosened store later) :
    Pending target later := by
  intro storage isRow link
  rcases loose.linked storage isRow with ⟨pre, bef, _, eqOwner, wasLinked⟩
  rw [loose.members, ← eqOwner]
  exact due pre bef (wasLinked link)

/-- The listing finds them. -/
theorem Pending.listed (due : Pending target store) :
    Remaining ((store.storages.rows.filter fun storage =>
      (some target).all (storage.ownerNpub == ·)).filter (·.lifecycle == .linked)) store := by
  intro storage isRow link
  rcases due storage isRow link with live | isTarget
  · exact .inl live
  · refine .inr (List.mem_map_of_mem ?_)
    simp [isRow, link, isTarget]

theorem orderly_cleanUp (due : Pending target store) :
    (cleanUp target).Orderly detaching request store := by
  refine Task.ensures_bind.mpr (ensures_database rfl
    fun later out loose => ⟨.refl later, fun disks isOk => ?_,
      fun error isError => by cases isError⟩)
  cases isOk
  refine Task.ensures_bind.mpr ((ensures_detach (due.later loose).listed).weaken ?_)
  intro sums last bound
  split
  split
  · exact bound
  · exact bound

theorem orderly_removeMemberLocked (bound : Attached store) :
    (removeMemberLocked target).Orderly detaching request store := by
  have revokes : ∀ later : Store, Attached later → (do
        let _ ← ask (.revokeMember target)
        cleanUp target : Handler Response).Orderly detaching request later := by
    intro later bound
    refine Task.ensures_bind.mpr (ensures_database rfl
      fun last out loose => ⟨.refl last, fun mem _ => ?_, ?_⟩)
    · refine orderly_cleanUp fun storage isRow isLinked => ?_
      by_cases isTarget : storage.ownerNpub = target
      · exact .inr isTarget
      · have active := bound.later loose storage isRow isLinked
        exact .inl (isActive_revokeMember active isTarget)
    · intro error isError storage isRow isLinked
      have active := bound.later loose storage isRow isLinked
      by_cases isTarget : storage.ownerNpub = target
      · have gone : (revokeMember last target).members.find target = none := by
          cases found : (revokeMember last target).members.find target with
          | none => rfl
          | some mem => simp [answer, found, fetched] at isError
        have wasAbsent : last.members.find target = none := UniqueRows.find_of_update_none gone
        simp [isActive, isTarget, wasAbsent] at active
      · exact isActive_revokeMember active isTarget
  refine Task.ensures_bind.mpr (ensures_database rfl
    fun later out loose => ⟨.refl later, fun found isOk => ?_, fun _ _ => bound.later loose⟩)
  have stillAttached := bound.later loose
  split
  · exact stillAttached
  · split
    · refine Task.ensures_bind.mpr (Task.ensures_bind.mpr (ensures_database rfl
        fun last out loose => ⟨.refl last, fun mems _ => ?_, fun _ _ => stillAttached.later loose⟩))
      split
      · exact stillAttached.later loose
      · exact revokes last (stillAttached.later loose)
    · exact revokes later stillAttached

end

/-! ## Runs -/

/-- Database calls succeed and no request is dropped; mesh calls may fail. -/
def databaseAnswers (world : System) : Happening → Bool
  | .move number outcome =>
    (world.pending number).all fun call =>
      !Call.isDatabase call || outcome.fault.isNone
  | .cancel _ => false
  | _ => true

theorem guard_of_databaseAnswers {w : System} {event : Happening}
    (ans : databaseAnswers w event = true) :
    detaching.guard w event := by
  cases event with
  | arrive | leave => trivial
  | move n out =>
    intro call due db
    have isDatabase : Call.isDatabase call = true := db
    simpa [databaseAnswers, due, isDatabase] using ans
  | acquire n => exact fun _ _ => trivial
  | cancel n => cases ans

theorem polite (setting : Setting) (request : Request) :
    (handler setting request).Polite detaching request :=
  polite_handler setting (fun _ free => free) (fun _ _ _ _ _ bound _ => orderly_upsertLocked bound)
    (fun _ _ _ _ _ bound _ => orderly_removeMemberLocked bound)
    (fun _ _ _ _ bound _ => orderly_linkLocked bound) request

/-- Whenever the lock is free, linked storages belong to active members; and a
storage keeps its owner from any moment on. -/
theorem revocation_detaches (setting : Setting) {initial : Store}
    (attached : Attached initial) {before after : List Happening}
    {middle final : System}
    (first : GuardedRun (step setting) (fun world event => databaseAnswers world event = true)
      (start initial) before middle)
    (second : GuardedRun (step setting) (fun world event => databaseAnswers world event = true)
      middle after final) :
    (middle.holder = none → Attached middle.store) ∧ OwnersKept middle.store final.store := by
  have ok := detaching.sound_of_run (polite setting) (Discipline.sound_start attached)
    (first.weaken fun _ _ => guard_of_databaseAnswers)
  refine ⟨ok.free, ?_⟩
  exact detaching.kept_of_run (polite setting) OwnersKept.refl
    (fun _ _ _ => OwnersKept.trans) (fun _ _ loose => loose.kept)
    (fun _ _ _ kept => kept) ok
    (second.weaken fun _ _ => guard_of_databaseAnswers)

/-- Two administrators, one with a linked storage. -/
def oneStorage : Store :=
  { twoAdministrators with
    storages := ⟨[newStorage "disk" "bob" 0], by decide⟩ }

/-- Bob is revoked while the storage is linked; then a link of Alice's fails in
the mesh and is rolled back. -/
theorem revocation_detaches_bob : ∃ middle final : System,
      replay (step anySetting) (start oneStorage)
        ([.arrive (.removeMember "alice" (some "bob")), .move 0 fine] ++
          critical 0 6) = some middle ∧
      replay (step anySetting) middle
        ([.arrive (.link "alice" (some "spare")), .acquire 1, .move 1 fine,
          .move 1 fine, .move 1 fine, .move 1 fine,
          .move 1 ⟨0, [], some ⟨false, .badGateway "nvpn failed"⟩⟩,
          .move 1 fine, .leave 1]) = some final ∧
      (middle.holder = none → Attached middle.store) ∧
      OwnersKept middle.store final.store := by
  have ran : ((guardedReplay (step anySetting)
      (fun w ev => databaseAnswers w ev = true) (start oneStorage)
      ([.arrive (.removeMember "alice" (some "bob")), .move 0 fine] ++
        critical 0 6)).bind fun middle =>
      (guardedReplay (step anySetting) (fun w ev => databaseAnswers w ev = true) middle
        ([.arrive (.link "alice" (some "spare")), .acquire 1, .move 1 fine,
          .move 1 fine, .move 1 fine, .move 1 fine,
          .move 1 ⟨0, [], some ⟨false, .badGateway "nvpn failed"⟩⟩,
          .move 1 fine, .leave 1])).map fun final =>
        final.store.storages.rows.map (·.lifecycle)) =
      some [.removed, .removed] := by
    decide +kernel
  obtain ⟨middle, path, rest⟩ := Option.bind_eq_some_iff.mp ran
  obtain ⟨final, continued, _⟩ := Option.map_eq_some_iff.mp rest
  have first := GuardedRun.of_guardedReplay path
  have second := GuardedRun.of_guardedReplay continued
  have bound : Attached oneStorage := by
    intro storage isRow _
    cases List.mem_singleton.mp isRow
    rfl
  exact ⟨middle, final, first.replay_eq, second.replay_eq,
    revocation_detaches anySetting bound first second⟩

end StorageOrchestrator.ControlPlane.Detachment
