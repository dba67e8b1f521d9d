import StorageOrchestrator.Blossom.BlobStore
import StorageOrchestrator.Lib.Placement
import StorageOrchestrator.Lib.Text
import StorageOrchestrator.Lib.Transition

/-!
# Requests of the Blossom proxy

`PUT /upload`, the owner's `DELETE /:hash`, the moderation delete and the
account purge, each cut at its requests: one step is one request to db-api or
one request to a storage provider.  Any number of requests of any accounts
interleave.

A provider is named by its id in the roster; a replica that is a raw URL
resolves to itself.  Requests to db-api and to providers may fail before or
after they took effect.
-/

namespace StorageOrchestrator.Blossom.Proxy

open Blossom.BlobStore Lib.Placement Lib.Text Lib.Transition

/-! ## Placement -/

/-- Milliseconds in a placement time slot. -/
def timeSlotMs : Nat := 3600000

/-- The provider that a pubkey and a time select from a roster. -/
def selectOwner (npub : String) (candidates : List String) (now : Nat) : Option String :=
  pickName (npub ++ ":" ++ toString (now / timeSlotMs)) candidates

def rawUrl (id : String) : Bool :=
  ["http://", "https://", "ws://", "wss://"].any fun scheme =>
    (lowered scheme).isPrefixOf (lowered id)

/-- `resolve`: a replica that a request can be sent to. -/
def resolves (roster : List String) (id : String) : Bool := rawUrl id || id ∈ roster

/-! ## Requests and their phases -/

/-- An upload that passed the gate and the access check. -/
structure Upload where
  npub : String
  hash : String
  size : Nat
  startedAt : Nat
deriving DecidableEq, Repr

/-- Where `PUT /upload` stands. -/
inductive UploadPhase where
  | lookingUp
  | placing
  | storing (remaining stored : List String)
  | creating (storedNow : Bool) (replicas : List String)
  | refetching
  | claiming (replicas : List String)
  | removing (replicas : List String)
  | ended
deriving DecidableEq, Repr

/-- Where the owner's or the moderator's delete of a hash stands. -/
inductive DeletePhase where
  | lookingUp
  | deletingRow (replicas : List String)
  | removing (replicas : List String)
  | ended
deriving DecidableEq, Repr

/-- Where an account purge stands; `rest` is what the page still lists. -/
inductive PurgePhase where
  | listing
  | deletingRow (hash : String) (replicas : List String)
      (rest : List BlobRow)
  | removing (hash : String) (replicas : List String) (rest : List BlobRow)
  | ended
deriving DecidableEq, Repr

/-- A request in flight or ended. -/
inductive Task where
  | upload (upload : Upload) (phase : UploadPhase)
  | delete (npub hash : String) (phase : DeletePhase)
  | moderate (hash : String) (phase : DeletePhase)
  | purge (npub : String) (phase : PurgePhase)
deriving DecidableEq, Repr

/-- The request has been answered. -/
def Task.ended : Task → Bool
  | .upload _ phase | .delete _ _ phase | .moderate _ phase | .purge _ phase => phase = .ended

/-- db-api, the proxy's roster, the bytes on providers, the requests. -/
structure Cluster where
  db : Database
  roster : List String
  held : List (String × String)
  tasks : List Task
deriving DecidableEq, Repr

/-- No request is in flight. -/
abbrev Cluster.Quiescent (cluster : Cluster) : Prop := ∀ task ∈ cluster.tasks, task.ended

/-! ## Steps -/

/-- What one step of a request leaves: tables, bytes and its new phase. -/
structure Moved (Phase : Type) where
  db : Database
  held : List (String × String)
  phase : Phase

/-- The loop of `uploadBlob` after one more provider has been tried. -/
def storingNext (replicaCount : Nat) (remaining stored : List String) : UploadPhase :=
  if remaining ≠ [] ∧ stored.length < replicaCount then
    .storing remaining stored
  else if stored = [] then .ended
  else .creating true stored

/-- One provider of the loop of `uploadBlob`. -/
def storeStep (replicaCount : Nat) (cluster : Cluster) (upload : Upload)
    (remaining stored : List String) (delivery : Delivery) :
    Option (Moved UploadPhase) :=
  (selectOwner upload.npub remaining upload.startedAt).map fun server =>
    { db := cluster.db
      held :=
        if delivery.executed then cluster.held ++ [(server, upload.hash)]
        else cluster.held
      phase := storingNext replicaCount (remaining.erase server)
          (if delivery = .answered then stored ++ [server] else stored) }

/-- The bytes of a hash after a `DELETE` on one provider. -/
def removeBytes (held : List (String × String)) (provider hash : String)
    (delivery : Delivery) : List (String × String) :=
  if delivery.executed then
    held.filter fun copy => copy ≠ (provider, hash)
  else held

/-- One replica of `deleteBlob` on the providers. -/
def removeStep (cluster : Cluster) (hash replica : String)
    (delivery : Delivery) : List (String × String) :=
  if resolves cluster.roster replica then
    removeBytes cluster.held replica hash delivery
  else cluster.held

/-- The phase after `POST /blobs` failed without `already_exists`. -/
def createFailed (storedNow : Bool) (replicas : List String) : UploadPhase :=
  if storedNow then .claiming replicas else .ended

/-- `db.createBlob` in `PUT /upload`. -/
def createStep (cluster : Cluster) (upload : Upload) (storedNow : Bool)
    (replicas : List String) (delivery : Delivery) (now : Nat) :
    Moved UploadPhase :=
  let row : BlobRow :=
    { hash := upload.hash
      npub := upload.npub
      size := upload.size
      replicas := replicas
      createdAt := now }
  match delivery, createBlob cluster.db row with
  | .answered, .ok db =>
    { db := db, held := cluster.held, phase := .ended }
  | .answered, .error .alreadyExists =>
    { db := cluster.db, held := cluster.held, phase := .refetching }
  | .responseLost, .ok db =>
    { db := db
      held := cluster.held
      phase := createFailed storedNow replicas }
  | _, _ =>
    { db := cluster.db
      held := cluster.held
      phase := createFailed storedNow replicas }

/-- The next request of `PUT /upload`. -/
def uploadStep (replicaCount : Nat) (cluster : Cluster) (upload : Upload)
    (delivery : Delivery) (now : Nat) :
    UploadPhase → Option (Moved UploadPhase)
  | .lookingUp =>
    let phase :=
      if delivery = .answered then
        match getBlob cluster.db upload.hash with
        | none => .placing
        | some info =>
          if upload.npub ∈ info.owners then .ended
          else .creating false info.row.replicas
      else .ended
    some { db := cluster.db, held := cluster.held, phase := phase }
  | .placing =>
    some
      { db := cluster.db
        held := cluster.held
        phase := storingNext replicaCount cluster.roster [] }
  | .storing remaining stored =>
    storeStep replicaCount cluster upload remaining stored delivery
  | .creating storedNow replicas =>
    some (createStep cluster upload storedNow replicas delivery now)
  | .refetching =>
    some { db := cluster.db, held := cluster.held, phase := .ended }
  | .claiming replicas =>
    let claimed := delivery = .answered && (getBlob cluster.db upload.hash).isSome
    some
      { db := cluster.db
        held := cluster.held
        phase := if claimed then .ended else .removing replicas }
  | .removing (replica :: rest) =>
    some
      { db := cluster.db
        held := removeStep cluster upload.hash replica delivery
        phase := .removing rest }
  | .removing [] =>
    some { db := cluster.db, held := cluster.held, phase := .ended }
  | .ended => none

/-- The row delete of a request: tables, and whether the bytes go too. -/
def rowStep (cluster : Cluster) (hash : String) (scope : Scope)
    (delivery : Delivery) : Database × Option Nat :=
  match delivery, deleteBlob cluster.db hash scope with
  | .answered, some (db, left) => (db, some left)
  | .responseLost, some (db, _) => (db, none)
  | _, _ => (cluster.db, none)

/-- The next request of an owner's or a moderator's delete. -/
def deleteStep (cluster : Cluster) (hash : String) (scope : Scope)
    (delivery : Delivery) : DeletePhase → Option (Moved DeletePhase)
  | .lookingUp =>
    let phase :=
      if delivery = .answered then
        match getBlob cluster.db hash, scope with
        | none, _ => .ended
        | some info, .all => .deletingRow info.row.replicas
        | some info, .owner npub =>
          if npub ∈ info.owners then .deletingRow info.row.replicas
          else .ended
      else .ended
    some { db := cluster.db, held := cluster.held, phase := phase }
  | .deletingRow replicas =>
    let row := rowStep cluster hash scope delivery
    let removes : Bool :=
      match scope with
      | .owner _ => row.2 = some 0
      | .all => row.2.isSome
    some
      { db := row.1
        held := cluster.held
        phase := if removes then .removing replicas else .ended }
  | .removing (replica :: rest) =>
    some
      { db := cluster.db
        held := removeStep cluster hash replica delivery
        phase := .removing rest }
  | .removing [] =>
    some { db := cluster.db, held := cluster.held, phase := .ended }
  | .ended => none

/-- The purge goes to the next listed blob, or lists again. -/
def purgeNext : List BlobRow → PurgePhase
  | [] => .listing
  | row :: rest => .deletingRow row.hash row.replicas rest

/-- The next request of an account purge. -/
def purgeStep (cluster : Cluster) (npub : String) (delivery : Delivery) :
    PurgePhase → Option (Moved PurgePhase)
  | .listing =>
    let phase :=
      if delivery = .answered then
        match listUserBlobs cluster.db npub with
        | [] => .ended
        | row :: rest => .deletingRow row.hash row.replicas rest
      else .ended
    some { db := cluster.db, held := cluster.held, phase := phase }
  | .deletingRow hash replicas rest =>
    let row := rowStep cluster hash (.owner npub) delivery
    some
      { db := row.1
        held := cluster.held
        phase :=
          match row.2 with
          | none => .ended
          | some 0 => .removing hash replicas rest
          | some (_ + 1) => purgeNext rest }
  | .removing hash (replica :: replicas) rest =>
    some
      { db := cluster.db
        held := removeStep cluster hash replica delivery
        phase := .removing hash replicas rest }
  | .removing _ [] rest =>
    some
      { db := cluster.db
        held := cluster.held
        phase := purgeNext rest }
  | .ended => none

/-- What may happen next. -/
inductive Event where
  | startUpload (upload : Upload)
  | startDelete (npub hash : String)
  | startModeration (hash : String)
  | startPurge (npub : String)
  /-- A request in flight does its next db-api or provider request. -/
  | advance (index : Nat) (delivery : Delivery) (now : Nat)
  /-- A request in flight is dropped, as when the proxy stops. -/
  | drop (index : Nat)
  /-- The proxy reads a new roster. -/
  | refresh (roster : List String)
  /-- Another service rewrites the user rows (entitlements). -/
  | writeUsers (users : List User)
deriving DecidableEq, Repr

/-- The task after its request was dropped. -/
def Task.dropped : Task → Task
  | .upload request _ => .upload request .ended
  | .delete npub hash _ => .delete npub hash .ended
  | .moderate hash _ => .moderate hash .ended
  | .purge npub _ => .purge npub .ended

/-- Put the outcome of a task's request into the cluster. -/
def Cluster.settle {Phase : Type} (cluster : Cluster) (index : Nat)
    (task : Phase → Task) (moved : Moved Phase) : Cluster :=
  { cluster with
    db := moved.db
    held := moved.held
    tasks := cluster.tasks.set index (task moved.phase) }

/-- The next request of a task. -/
def taskStep (replicaCount : Nat) (cluster : Cluster) (index : Nat)
    (delivery : Delivery) (now : Nat) : Task → Option Cluster
  | .upload upload phase =>
    (uploadStep replicaCount cluster upload delivery now phase).map
      (cluster.settle index (.upload upload))
  | .delete npub hash phase =>
    (deleteStep cluster hash (.owner npub) delivery phase).map
      (cluster.settle index (.delete npub hash))
  | .moderate hash phase =>
    (deleteStep cluster hash .all delivery phase).map (cluster.settle index (.moderate hash))
  | .purge npub phase =>
    (purgeStep cluster npub delivery phase).map (cluster.settle index (.purge npub))

/-- Accept one more request. -/
def Cluster.start (cluster : Cluster) (task : Task) : Cluster :=
  { cluster with tasks := cluster.tasks ++ [task] }

/-- One step of the proxy; `replicaCount` is its configured target. -/
def step (replicaCount : Nat) (cluster : Cluster) : Event → Option Cluster
  | .startUpload upload => some (cluster.start (.upload upload .lookingUp))
  | .startDelete npub hash =>
    some (cluster.start (.delete npub hash .lookingUp))
  | .startModeration hash => some (cluster.start (.moderate hash .lookingUp))
  | .startPurge npub => some (cluster.start (.purge npub .listing))
  | .advance index delivery now =>
    match cluster.tasks[index]? with
    | none => none
    | some task => taskStep replicaCount cluster index delivery now task
  | .drop index =>
    match cluster.tasks[index]? with
    | none => none
    | some task =>
      some { cluster with tasks := cluster.tasks.set index task.dropped }
  | .refresh roster => some { cluster with roster := roster }
  | .writeUsers users =>
    some { cluster with db := { cluster.db with users := users } }

/-! ## What a step leaves alone -/

section

theorem npubs_createStep : (createStep cluster upload storedNow replicas delivery now).db.npubs =
      cluster.db.npubs := by
  simp only [createStep]
  split
  · rename_i made
    exact npubs_createBlob made
  · rfl
  · rename_i made
    exact npubs_createBlob made
  · rfl

theorem npubs_uploadStep
    (ran : uploadStep replicaCount cluster upload delivery now phase = some moved) :
    moved.db.npubs = cluster.db.npubs := by
  cases phase with
  | creating storedNow copies =>
    cases ran
    exact npubs_createStep
  | storing left kept =>
    obtain ⟨server, -, rfl⟩ := Option.map_eq_some_iff.mp ran
    rfl
  | removing copies => cases copies <;> cases ran <;> rfl
  | ended => cases ran
  | _ =>
    cases ran
    rfl

theorem npubs_rowStep (hash : String) (scope : Scope) :
    (rowStep cluster hash scope delivery).1.npubs = cluster.db.npubs := by
  simp only [rowStep]
  split
  · rename_i gone
    exact npubs_deleteBlob gone
  · rename_i gone
    exact npubs_deleteBlob gone
  · rfl

theorem npubs_deleteStep {hash : String} {scope : Scope}
    {phase : DeletePhase} {moved : Moved DeletePhase}
    (ran : deleteStep cluster hash scope delivery phase = some moved) :
    moved.db.npubs = cluster.db.npubs := by
  cases phase with
  | lookingUp =>
    cases ran
    rfl
  | deletingRow copies =>
    cases ran
    exact npubs_rowStep hash scope
  | removing copies => cases copies <;> cases ran <;> rfl
  | ended => cases ran

theorem npubs_purgeStep (ran : purgeStep cluster npub delivery phase = some moved) :
    moved.db.npubs = cluster.db.npubs := by
  cases phase with
  | listing =>
    cases ran
    rfl
  | deletingRow hash copies rest =>
    cases ran
    exact npubs_rowStep hash (.owner npub)
  | removing hash copies rest => cases copies <;> cases ran <;> rfl
  | ended => cases ran

/-- A request creates no account, and a purge stays one of its account. -/
theorem settled_of_taskStep
    (ran : taskStep replicaCount cluster index delivery now task = some next) :
    next.db.npubs = cluster.db.npubs ∧ ∃ post, next.tasks = cluster.tasks.set index post ∧
      ∀ npub phase, post = .purge npub phase →
      ∃ before, before ≠ .ended ∧ task = .purge npub before := by
  cases task with
  | upload upload phase =>
    obtain ⟨moved, moving, rfl⟩ := Option.map_eq_some_iff.mp ran
    exact ⟨npubs_uploadStep moving, _, rfl, fun _ _ => nofun⟩
  | delete npub hash phase | moderate hash phase =>
    obtain ⟨moved, moving, rfl⟩ := Option.map_eq_some_iff.mp ran
    exact ⟨npubs_deleteStep moving, _, rfl, fun _ _ => nofun⟩
  | purge npub phase =>
    obtain ⟨moved, moving, rfl⟩ := Option.map_eq_some_iff.mp ran
    refine ⟨npubs_purgeStep moving, _, rfl, ?_⟩
    intro own post eq
    cases eq
    refine ⟨phase, ?_, rfl⟩
    rintro rfl
    cases moving

end

end StorageOrchestrator.Blossom.Proxy
