import StorageOrchestrator.Migration.Handler

/-!
# The schema manager and the migration registry

The gateway registers every accepted DDL statement with the next version,
pushes the pending ones to the roster at once (`propagate_now`), and runs a
catch-up loop over the roster (`catch_up_sweep`).  Both send batches to
`/pg/schema` and record the version a provider answers with.

One event is one request to the central database, one request to a provider
or one statement on a provider.  Any number of pushes run beside the single
catch-up loop; a provider may fail or leave at any time, a response may be
lost, and a task may die between two of its steps.
-/

namespace StorageOrchestrator.Migration.Manager

open Migration.Handler

/-! ## The registry in the central database -/

/-- A row of `pg_migration`. -/
structure MigrationRow where
  migration : PendingMigration
  pending : Bool
deriving DecidableEq

/-- `pg_migration` and `pg_migration_state`. -/
structure CentralStore where
  rows : List MigrationRow
  migrationState : List (String × Nat)

def CentralStore.registered (store : CentralStore) : List PendingMigration :=
  store.rows.map MigrationRow.migration

/-- `MAX(version)`, 0 for no row. -/
def maxVersion (migrations : List PendingMigration) : Nat :=
  (migrations.map PendingMigration.version).foldr max 0

/-- `ORDER BY version`, rows of one version in insertion order. -/
def orderByVersion (migrations : List PendingMigration) : List PendingMigration :=
  migrations.insertionSort fun left right => left.version ≤ right.version

/-- `append_migration` and the migration part of `create_table`. -/
def appendMigration (store : CentralStore) (ddl id : String) : Option CentralStore :=
  if store.rows.any fun row => row.migration.id = id then none
  else
    let migration : PendingMigration :=
      { id := id
        ddl := ddl
        version := maxVersion store.registered + 1 }
    some { store with
      rows := store.rows ++ [{ migration := migration, pending := true }] }

def pendingMigrations (store : CentralStore) : List PendingMigration :=
  orderByVersion
    ((store.rows.filter MigrationRow.pending).map MigrationRow.migration)

def migrationsSince (store : CentralStore) (version : Nat) : List PendingMigration :=
  orderByVersion (store.registered.filter fun migration => version < migration.version)

def markMigrationApplied (store : CentralStore) (id : String) : CentralStore :=
  { store with
    rows := store.rows.map fun row =>
      if row.migration.id = id then { row with pending := false } else row }

def recordMigrationState (store : CentralStore) (storageNpub : String)
    (version : Nat) : CentralStore :=
  if (storageNpub, version) ∈ store.migrationState then store
  else
    { store with
      migrationState := store.migrationState ++ [(storageNpub, version)] }

def providerSchemaVersion (store : CentralStore) (storageNpub : String) : Nat :=
  ((store.migrationState.filter fun entry =>
    entry.1 = storageNpub).map Prod.snd).foldr max 0

/-! ## Tasks of the gateway -/

/-- Where a `propagate_now` call stands. -/
inductive PushPhase where
  | starting
  | loaded (batch : List PendingMigration)
  | pushing (batch : List PendingMigration) (providers : List String)
  | awaiting (batch : List PendingMigration) (provider : String)
      (request : Nat) (providers : List String)
  | recording (batch : List PendingMigration) (provider : String)
      (version : Nat) (providers : List String)
  | finished
deriving DecidableEq

/-- A `propagate_now` call for one registered migration. -/
structure Push where
  migrationId : String
  phase : PushPhase
deriving DecidableEq

/-- Where the catch-up loop stands. -/
inductive SweepPhase where
  | sleeping
  | sweeping (providers : List String)
  | loading (provider : String) (current : Nat) (providers : List String)
  | sending (provider : String) (batch : List PendingMigration)
      (providers : List String)
  | awaiting (provider : String) (request : Nat) (providers : List String)
  | recording (provider : String) (version : Nat) (providers : List String)
deriving DecidableEq

/-- A request to `/pg/schema`, running or ended. -/
structure Request where
  provider : String
  progress : Progress
deriving DecidableEq

/-- Gateway, central database and all providers, on the roster or not. -/
structure Mesh (Catalog : Type) where
  store : CentralStore
  roster : List String
  pushes : List Push
  sweep : SweepPhase
  requests : List Request
  agents : String → Agent Catalog

/-- What may happen next. -/
inductive Event where
  /-- A DDL statement is accepted and registered under a fresh id. -/
  | ddl (ddl id : String)
  /-- The registry refresh sets a new roster. -/
  | refresh (roster : List String)
  /-- A push does its next step. -/
  | push (index : Nat)
  /-- A push sees its provider request fail. -/
  | pushRejected (index : Nat)
  /-- A push ends early: a central error, or the gateway stops. -/
  | pushDies (index : Nat)
  /-- The catch-up loop does its next step. -/
  | sweep
  /-- The catch-up of the current provider ends with an error. -/
  | sweepRejected
  /-- The gateway stops and starts again. -/
  | restart
  /-- A provider does the next statement of a request. -/
  | serve (request : Nat)
  /-- A provider fails in the middle of a request. -/
  | breakdown (request : Nat)
  /-- A provider executes a statement that reached it as a RAW operation. -/
  | rawApply (provider ddl : String)
deriving DecidableEq

section

variable {Catalog : Type} (engine : ProviderEngine Catalog)

/-- Put a push in a new phase. -/
def Mesh.setPush (mesh : Mesh Catalog) (index : Nat) (push : Push)
    (phase : PushPhase) : Mesh Catalog :=
  { mesh with pushes := mesh.pushes.set index { push with phase := phase } }

/-- Send a batch to a provider; the request gets the next number. -/
def Mesh.send (mesh : Mesh Catalog) (provider : String)
    (batch : List PendingMigration) : Mesh Catalog :=
  { mesh with
    requests := mesh.requests ++ [{ provider := provider, progress := .received batch }] }

/-- The version a request was answered with. -/
def Mesh.answer (mesh : Mesh Catalog) (request : Nat) : Option Nat :=
  match mesh.requests[request]? with
  | some { progress := .answered version, .. } => some version
  | _ => none

/-- The next step of a `propagate_now` call. -/
def pushStep (mesh : Mesh Catalog) (index : Nat) (push : Push) : Option (Mesh Catalog) :=
  match push.phase with
  | .starting =>
    let batch := pendingMigrations mesh.store
    if batch.isEmpty then some (mesh.setPush index push .finished)
    else some (mesh.setPush index push (.loaded batch))
  | .loaded batch =>
    some (mesh.setPush index push (.pushing batch mesh.roster))
  | .pushing batch (provider :: providers) =>
    some ((mesh.send provider batch).setPush index push
      (.awaiting batch provider mesh.requests.length providers))
  | .pushing _ [] =>
    some
      { mesh.setPush index push .finished with
        store := markMigrationApplied mesh.store push.migrationId }
  | .awaiting batch provider request providers =>
    (mesh.answer request).map fun version =>
      mesh.setPush index push (.recording batch provider version providers)
  | .recording batch provider version providers =>
    some
      { mesh.setPush index push (.pushing batch providers) with
        store := recordMigrationState mesh.store provider version }
  | .finished => none

/-- A rejected or unanswered provider request; the push goes on. -/
def pushRejectedStep (mesh : Mesh Catalog) (index : Nat) (push : Push) : Option (Mesh Catalog) :=
  match push.phase with
  | .awaiting batch _ _ providers =>
    some (mesh.setPush index push (.pushing batch providers))
  | _ => none

/-- The next step of the catch-up loop. -/
def sweepStep (mesh : Mesh Catalog) : Option (Mesh Catalog) :=
  match mesh.sweep with
  | .sleeping => some { mesh with sweep := .sweeping mesh.roster }
  | .sweeping [] => some { mesh with sweep := .sleeping }
  | .sweeping (provider :: providers) =>
    some { mesh with
      sweep := .loading provider (providerSchemaVersion mesh.store provider) providers }
  | .loading provider current providers =>
    let batch := migrationsSince mesh.store current
    if batch.isEmpty then
      some { mesh with sweep := .sweeping providers }
    else some { mesh with sweep := .sending provider batch providers }
  | .sending provider batch providers =>
    some { mesh.send provider batch with
      sweep := .awaiting provider mesh.requests.length providers }
  | .awaiting provider request providers =>
    (mesh.answer request).map fun version =>
      { mesh with sweep := .recording provider version providers }
  | .recording provider version providers =>
    some { mesh with
      store := recordMigrationState mesh.store provider version
      sweep := .sweeping providers }

/-- What is left of a sweep when the current provider's catch-up fails. -/
def SweepPhase.remaining : SweepPhase → Option (List String)
  | .sleeping | .sweeping [] => none
  | .sweeping (_ :: providers) | .loading _ _ providers | .sending _ _ providers
  | .awaiting _ _ providers | .recording _ _ providers => some providers

/-- The next statement of a provider's request. -/
def serveStep (mesh : Mesh Catalog) (index : Nat) (request : Request) : Mesh Catalog :=
  let served := advance engine (mesh.agents request.provider) request.progress
  { mesh with
    agents := Function.update mesh.agents request.provider served.1
    requests := mesh.requests.set index { request with progress := served.2 } }

/-- One step of gateway, central database or provider. -/
def step (mesh : Mesh Catalog) : Event → Option (Mesh Catalog)
  | .ddl ddl id =>
    (appendMigration mesh.store ddl id).map fun store =>
      { mesh with
        store := store
        pushes := mesh.pushes ++ [{ migrationId := id, phase := .starting }] }
  | .refresh roster => some { mesh with roster := roster }
  | .push index =>
    match mesh.pushes[index]? with
    | none => none
    | some push => pushStep mesh index push
  | .pushRejected index =>
    match mesh.pushes[index]? with
    | none => none
    | some push => pushRejectedStep mesh index push
  | .pushDies index =>
    match mesh.pushes[index]? with
    | none => none
    | some push => some (mesh.setPush index push .finished)
  | .sweep => sweepStep mesh
  | .sweepRejected =>
    mesh.sweep.remaining.map fun providers =>
      { mesh with sweep := .sweeping providers }
  | .restart =>
    some { mesh with
      sweep := .sleeping
      pushes := mesh.pushes.map fun push =>
        { push with phase := .finished } }
  | .serve index =>
    match mesh.requests[index]? with
    | none => none
    | some request => some (serveStep engine mesh index request)
  | .breakdown index =>
    match mesh.requests[index]? with
    | none => none
    | some request =>
      some { mesh with
        requests := mesh.requests.set index { request with progress := .failed } }
  | .rawApply provider ddl =>
    match engine.execute (mesh.agents provider).catalog ddl with
    | .error _ => none
    | .ok catalog =>
      some { mesh with
        agents := Function.update mesh.agents provider
          { mesh.agents provider with catalog := catalog } }

/-- An empty registry, no task, and providers with any schema. -/
def Mesh.initial (catalogs : String → Catalog) : Mesh Catalog where
  store := { rows := [], migrationState := [] }
  roster := []
  pushes := []
  sweep := .sleeping
  requests := []
  agents := fun provider => .empty (catalogs provider)

end

end StorageOrchestrator.Migration.Manager
