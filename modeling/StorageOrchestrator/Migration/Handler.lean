import StorageOrchestrator.Lib.Text

/-!
# The `/pg/schema` handler of a provider's agent

The agent keeps two bookkeeping tables, `_mesh_pg_migrations` and the
`schema_version` entry of `_mesh_pg_meta`, beside the provider's own schema.
A request walks through its migrations one SQL statement or transaction at a
time, so that two requests on one provider may interleave.

The provider's Postgres is a parameter: what executing a DDL statement does
to the schema, or the message of the error it raises.  `applied` is history:
it lists the migrations whose statement ran here, or whose error was
swallowed while the end state the statement asks for held.
-/

namespace StorageOrchestrator.Migration.Handler

open Lib.Text

/-- A registered DDL statement, as it is sent to a provider. -/
structure PendingMigration where
  id : String
  ddl : String
  version : Nat
deriving DecidableEq, Repr

/-- A provider's Postgres, and the agent's rewriting of DDL texts. -/
structure ProviderEngine (Catalog : Type) where
  /-- Executing a statement: the new schema or the error message. -/
  execute : Catalog → String → Except String Catalog
  /-- The state a statement is meant to bring about holds. -/
  endState : String → Catalog → Bool
  /-- `stripServerGenerators`. -/
  stripServerGenerators : String → String

/-- A provider's database as the schema handler sees it. -/
structure Agent (Catalog : Type) where
  catalog : Catalog
  /-- `_mesh_pg_migrations`, keyed by id. -/
  migrations : List (String × Nat)
  /-- `schema_version` in `_mesh_pg_meta`, 0 when absent. -/
  schemaVersion : Nat
  applied : List String

/-- A provider that has never been sent a migration. -/
def Agent.empty {Catalog : Type} (catalog : Catalog) : Agent Catalog where
  catalog := catalog
  migrations := []
  schemaVersion := 0
  applied := []

/-- `MigrationSchema` and `BodySchema`. -/
def bodyAccepted (migrations : List PendingMigration) : Bool :=
  migrations.length ≤ 200 &&
    migrations.all fun migration =>
      migration.id ≠ "" && 0 < migration.version && migration.ddl ≠ ""

def alreadyExists (message : String) : Bool :=
  ["42P07", "42710", "42723", "42701", "42P06", "42P04",
    "already exists"].any fun needle => containsIgnoringCase needle message

def doesNotExist (message : String) : Bool :=
  ["42P01", "42703", "42P02", "42704", "42602", "42883",
    "does not exist"].any fun needle => containsIgnoringCase needle message

/-- The errors the handler takes for an end state already reached. -/
def swallowed (message : String) : Bool := alreadyExists message || doesNotExist message

/-- The statement cannot run inside a transaction block. -/
def runsOutsideTransaction (ddl : String) : Bool :=
  containsWordIgnoringCase "CONCURRENTLY" ddl ||
    startsWithWord (lowered "VACUUM")
      ((lowered ddl).dropWhile Char.isWhitespace)

/-- Where a request stands between two statements of the handler. -/
inductive Progress where
  | received (migrations : List PendingMigration)
  | looping (version : Nat) (todo : List PendingMigration)
  | unknown (version : Nat) (migration : PendingMigration)
      (todo : List PendingMigration)
  | executed (version : Nat) (migration : PendingMigration)
      (todo : List PendingMigration)
  | caught (version : Nat) (migration : PendingMigration)
      (todo : List PendingMigration)
  | answered (version : Nat)
  | failed
deriving DecidableEq

section

variable {Catalog : Type} (engine : ProviderEngine Catalog)

/-- Insert into `_mesh_pg_migrations`; a known id violates its key. -/
def recordMigration (agent : Agent Catalog) (version : Nat)
    (migration : PendingMigration) (todo : List PendingMigration) :
    Agent Catalog × Progress :=
  if agent.migrations.any fun known => known.1 = migration.id then
    (agent, .failed)
  else
    ({ agent with
        migrations := agent.migrations ++ [(migration.id, migration.version)] },
      .looping (max version migration.version) todo)

/-- The statement ran: the schema it leaves, with the history of it. -/
def ran (agent : Agent Catalog) (migration : PendingMigration)
    (catalog : Catalog) : Agent Catalog :=
  { agent with
    catalog := catalog
    applied := agent.applied ++ [migration.id] }

/-- The `catch` of the handler: swallow the error or let it out. -/
def catchError (agent : Agent Catalog) (version : Nat)
    (migration : PendingMigration) (todo : List PendingMigration)
    (message : String) : Agent Catalog × Progress :=
  if swallowed message then
    let ddl := engine.stripServerGenerators migration.ddl
    if engine.endState ddl agent.catalog then
      ({ agent with applied := agent.applied ++ [migration.id] },
        .caught version migration todo)
    else (agent, .caught version migration todo)
  else (agent, .failed)

/-- Execute the next migration, in a transaction where that is possible. -/
def executeMigration (agent : Agent Catalog) (version : Nat)
    (migration : PendingMigration) (todo : List PendingMigration) :
    Agent Catalog × Progress :=
  let ddl := engine.stripServerGenerators migration.ddl
  match engine.execute agent.catalog ddl with
  | .error message => catchError engine agent version migration todo message
  | .ok catalog =>
    if runsOutsideTransaction ddl then
      (ran agent migration catalog, .executed version migration todo)
    else
      match recordMigration (ran agent migration catalog) version migration todo with
      | (_, .failed) => (agent, .failed)
      | recorded => recorded

/-- One statement or transaction of a request. -/
def advance (agent : Agent Catalog) : Progress → Agent Catalog × Progress
  | .received migrations =>
    if bodyAccepted migrations then
      (agent, .looping agent.schemaVersion migrations)
    else (agent, .failed)
  | .looping version [] =>
    ({ agent with schemaVersion := version }, .answered version)
  | .looping version (migration :: todo) =>
    if agent.migrations.any fun known => known.1 = migration.id then
      (agent, .looping version todo)
    else (agent, .unknown version migration todo)
  | .unknown version migration todo =>
    executeMigration engine agent version migration todo
  | .executed version migration todo =>
    recordMigration agent version migration todo
  | .caught version migration todo =>
    recordMigration agent version migration todo
  | .answered version => (agent, .answered version)
  | .failed => (agent, .failed)

end

end StorageOrchestrator.Migration.Handler
