import Lumogis.FileSharing

/-!
# SharingRoutes

The synchronous ways to publish and unpublish: the owner's `/publish` routes for documents and
entities, and the administrator's unshare of another member's item.
-/

namespace Lumogis

open Prog

/-! ## Owner routes -/

def notFound : PyErr := .http 404 "not_found"

/-- `_publish_one`: fetch the caller's own personal row, check it, project it. -/
def publishOne {α β : Type} (fetch : M (Option α)) (prePublish : α → Option PyErr)
    (project : α → M β) : M β := do
  match ← fetch with
  | none => .raise notFound
  | some src =>
    match prePublish src with
    | some e => .raise e
    | none => (project src).tryCatch fun _ => .raise (.http 502 "projection_failed")

/-- `_unpublish_one`: 204 also when no row was deleted. -/
def unpublishOne {α : Type} (fetch : M (Option α)) (unproject : M Nat) : M Unit := do
  match ← fetch with
  | none => .raise notFound
  | some _ =>
    (do let _ ← unproject; pure () : M Unit).tryCatch fun _ => .raise (.http 502 "unprojection_failed")

def EntityRow.isSource (userId entityId : String) (r : EntityRow) : Bool :=
  r.entityId == entityId && r.userId == userId && r.scope == .personal

def fetchPersonalEntity (userId entityId : String) : M (Option EntityRow) :=
  select fun db => db.entities.find? (EntityRow.isSource userId entityId)

/-- Refuses a staged entity. -/
def entityPublishGuard (src : EntityRow) : Option PyErr :=
  if src.isStaged then some (.http 409 "entity_is_staged") else none

/-- The inline path of `POST /files/{id}/publish`, for a document of few chunks. -/
def publishFile (env : Env) (actor : String) (documentId : Nat) : M FileRow :=
  publishOne (fetchPersonalSource actor documentId) (fun _ => none)
    fun src => projectFile env src .shared actor

def unpublishFile (env : Env) (actor : String) (documentId : Nat) : M Unit :=
  unpublishOne (fetchPersonalSource actor documentId) (unprojectFile env documentId .shared)

def publishEntity (env : Env) (actor entityId : String) : M EntityRow :=
  publishOne (fetchPersonalEntity actor entityId) entityPublishGuard
    fun src => projectEntity env src .shared actor .user

def unpublishEntity (env : Env) (actor entityId : String) : M Unit :=
  unpublishOne (fetchPersonalEntity actor entityId) (unprojectEntity env entityId .shared)

/-! ## Admin unshare -/

/-- Inserts an audit row; replies whether it landed. Never raises. -/
def writeAudit (entry : AuditRow) : M Bool := do
  match ← (execute fun db => { db with auditLog := db.auditLog ++ [entry] }).attempt with
  | .ok _ => pure true
  | .error _ => pure false

/-- What the registry entry of a resource gives the teardown, at one primary key. -/
structure SharedItem where
  resource : String
  pk : String
  /-- The `user_id` of the shared projection row, if there is one. -/
  sharedOwner : Db → Option String
  /-- Counts the shared points of the source. -/
  remaining : M Nat
  unproject : M Nat

def filesItem (env : Env) (documentId : Nat) : SharedItem :=
  { resource := "files"
    pk := toString documentId
    sharedOwner := fun db =>
      (db.fileIndex.find? (FileRow.projects documentId .shared)).map FileRow.userId
    remaining := countDocuments (DocPoint.sharedOf documentId)
    unproject := unprojectFile env documentId .shared }

def entitiesItem (env : Env) (entityId : String) : SharedItem :=
  { resource := "entities"
    pk := entityId
    sharedOwner := fun db =>
      (db.entities.find? (EntityRow.projects entityId .shared)).map EntityRow.userId
    remaining := query .vectorStore fun s => s.entityPoints.countP fun pt =>
      pt.publishedFrom == some entityId && pt.scope == some .shared
    unproject := unprojectEntity env entityId .shared }

structure AdminUnshareResult where
  resourceType : String
  resourceId : String
  sourceOwnerId : Option String
  unshared : Bool

def auditEntry (actor : String) (item : SharedItem) (owner : Option String) : AuditRow :=
  { actionName := "admin_unshare"
    connector := "admin"
    mode := "DO"
    inputSummary := "admin_unshare " ++ item.resource ++ "/" ++ item.pk
    resultSummary := [("resource_type", some item.resource), ("resource_id", some item.pk),
      ("source_owner_id", owner)]
    userId := actor }

/-- The part after the write-ahead audit row: tear down, then count what is left. -/
def adminTeardown (item : SharedItem) (owner : Option String) : M AdminUnshareResult := do
  let _ ← item.unproject.tryCatch fun _ =>
    .raise (.teardownIncomplete item.resource item.pk "unproject_failed")
  let remaining ← item.remaining.tryCatch fun _ =>
    .raise (.teardownIncomplete item.resource item.pk "verification_failed")
  if 0 < remaining then
    .raise (.teardownIncomplete item.resource item.pk (toString remaining))
  else
    pure { resourceType := item.resource, resourceId := item.pk, sourceOwnerId := owner,
           unshared := true }

/-- Whether there is anything to retract: the shared row, or points an earlier retract left. -/
def adminShareLeft (item : SharedItem) (owner : Option String) : M Bool :=
  match owner with
  | some _ => pure true
  | none => do
    let orphaned ← item.remaining.tryCatch fun _ =>
      .raise (.teardownIncomplete item.resource item.pk "verification_failed")
    pure (orphaned != 0)

def adminUnshare (actor : String) (item : SharedItem) : M AdminUnshareResult := do
  let owner ← select item.sharedOwner
  let left ← adminShareLeft item owner
  if left then do
    let audited ← writeAudit (auditEntry actor item owner)
    if audited then
      adminTeardown item owner
    else
      .raise (.auditWriteFailed item.resource item.pk)
  else
    .raise (.sharedItemNotFound item.resource item.pk)

end Lumogis
