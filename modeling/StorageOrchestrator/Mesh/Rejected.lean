import StorageOrchestrator.Mesh.Gateway

/-!
# Rejected point INSERTs

`execute_sql_bound` on a point INSERT with every way it can fail.  The row is
committed on the central Postgres before its id is read from the captured
image, its placement looked up, an owner chosen, the operation enqueued and
the placement recorded; nothing is undone when one of these fails.
-/

namespace StorageOrchestrator.Mesh.Rejected

open Mesh.Table Mesh.Gateway

/-- What the database calls of one statement meet, and the id and time its
operation gets. -/
structure Circumstances where
  centralReachable : Bool
  placementReadable : Bool
  enqueues : Bool
  placementWritable : Bool
  opId : String
  createdAt : Nat

section

variable (setting : Setting) (declaredPk : String) (met : Circumstances) (mesh : MeshState)
  (name : String) (row : Row) (onConflict : Option OnConflict)

/-- The central content after the INSERT and the captured row, if one is
written. -/
def capture (table : TableDef) : Option (Content × Row) :=
  match insertRow table (mesh.central name) row onConflict with
  | .added => some (mesh.central name ++ [row], row)
  | .merged content image => some (content, image)
  | _ => none

/-- The id and the owner of a captured row, or why there is none. -/
def place (image : Row) : Except GatewayError (String × String) :=
  match (cell image declaredPk).captureText with
  | none =>
    .error (.unsupportedSql
      ("table has no primary-key column; expected \"" ++ declaredPk ++ "\""))
  | some rowId =>
    if !met.placementReadable then .error (.central "get_placement")
    else
      match selectOwner rowId mesh.roster (mesh.recorded name rowId) with
      | none => .error .noProviders
      | some owner => .ok (rowId, owner)

/-- The rest of the statement after its row was captured; the primary key
`pk_column_of` names is that of the registry. -/
def finish (content : Content) (image : Row) : MeshState × Option GatewayError :=
  let stored := { mesh with central := Function.update mesh.central name content }
  match place declaredPk met mesh name image with
  | .error error => (stored, some error)
  | .ok (rowId, owner) =>
    if !met.enqueues then (stored, some (.central "enqueue_write_op"))
    else
      let write : Write :=
        { table := name
          rowId := rowId
          statement := .insert row onConflict
          payload := .image image (conflictTarget declaredPk onConflict)
            (onConflict.bind OnConflict.predicate) }
      let logged := { stored with
        buffer := stored.buffer ++ [stored.opOf write met.opId met.createdAt] }
      if !met.placementWritable then (logged, some (.central "upsert_placement"))
      else (logged.upsertPlacement name rowId [owner] .pending, none)

/-- `execute_sql_bound` on a point INSERT. -/
def insert : MeshState × Option GatewayError :=
  match setting.schema name with
  | none => (mesh, some (.unknownTable name))
  | some table =>
    if !met.centralReachable then (mesh, some (.central "central execute"))
    else
      match insertRow table (mesh.central name) row onConflict with
      | .rejected message => (mesh, some (.central ("central execute: " ++ message)))
      | .skipped => (mesh, none)
      | .added => finish declaredPk met mesh name row onConflict (mesh.central name ++ [row]) row
      | .merged content image => finish declaredPk met mesh name row onConflict content image

/-- An error leaves the central table, the buffer and the placements as they
were. -/
def NoTrace (outcome : MeshState × Option GatewayError) : Prop :=
  outcome.2 ≠ none → outcome.1.central = mesh.central ∧ outcome.1.buffer = mesh.buffer ∧
    outcome.1.placement = mesh.placement

end

variable {declaredPk name : String} {met : Circumstances} {mesh : MeshState} {row : Row}
  {onConflict : Option OnConflict}

/-- Once a row is written, the central content is as before, or the row has
an id and an owner and is enqueued with its placement recorded. -/
def Settles (declaredPk : String) (met : Circumstances) (mesh : MeshState) (name : String)
    (content : Content) (image : Row) : Prop :=
  match place declaredPk met mesh name image with
  | .error _ => content = mesh.central name
  | .ok _ => if met.enqueues then met.placementWritable = true else content = mesh.central name

theorem noTrace_finish_iff (rows : Content) (image : Row) :
    NoTrace mesh (finish declaredPk met mesh name row onConflict rows image) ↔
      Settles declaredPk met mesh name rows image := by
  simp only [NoTrace, finish, Settles]
  cases place declaredPk met mesh name image with
  | error error => simp
  | ok put =>
    cases met.enqueues with
    | false => simp
    | true => cases met.placementWritable <;> simp [MeshState.upsertPlacement]

/--
An INSERT that is answered with an error leaves no trace precisely when a row
that the central Postgres writes for it settles.
-/
theorem rejected_insert_traceless_iff (setting : Setting) (declaredPk : String)
    (met : Circumstances) (mesh : MeshState) (name : String) (row : Row)
    (onConflict : Option OnConflict) :
    NoTrace mesh (insert setting declaredPk met mesh name row onConflict) ↔
      ∀ table, setting.schema name = some table → met.centralReachable = true →
        ∀ content image, capture mesh name row onConflict table = some (content, image) →
          Settles declaredPk met mesh name content image := by
  simp only [insert]
  cases known : setting.schema name with
  | none => simp [NoTrace]
  | some table =>
    cases path : met.centralReachable with
    | false => simp [NoTrace]
    | true =>
      simp only [capture, Option.some.injEq, forall_eq', Bool.not_true, Bool.false_eq_true,
        if_false, forall_const]
      cases out : insertRow table (mesh.central name) row onConflict with
      | rejected msg | skipped => simp [NoTrace]
      | added | merged content image => simp [noTrace_finish_iff]

/-- With no provider on the roster the client gets an error and the note
stays in the central table. -/
theorem rejected_note_is_stored :
    let met : Circumstances := ⟨true, true, true, true, "op", 0⟩
    let out := insert notesSetting "id" met (MeshState.empty []) "notes" (note "a" "first") none
    out.2 = some .noProviders ∧
      (out.1.central "notes").map (fun row => (cell row "id").captureText) = [some "a"] := by
  decide +kernel

end StorageOrchestrator.Mesh.Rejected
