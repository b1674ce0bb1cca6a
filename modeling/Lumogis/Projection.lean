import Lumogis.Tables

/-!
# Projection

Publishing a personal row to the household: `project_file`, `project_entity` and their inverses,
with the chunk mirror of a shared document.

Every shared chunk of document `d` lives at the point id `projection_point_id("documents",
"d:i", "shared")`, and every shared entity at `projection_point_id("entities", e, "shared")`;
`unproject_*` finds an entity's point again by that id, a document's chunks by their payload.
-/

namespace Lumogis

open Prog

def Scope.name : Scope → String
  | .personal => "personal"
  | .shared => "shared"
  | .system => "system"

/-- Deterministic UUID for a projection row. -/
def projectionPk (env : Env) (table srcPk : String) (targetScope : Scope) : String :=
  env.uuid5 (table ++ "::" ++ srcPk ++ "::" ++ targetScope.name)

/-- Deterministic point id for a projection mirror. -/
def projectionPointId (env : Env) (collection srcPk : String) (targetScope : Scope) : String :=
  env.uuid5 (collection ++ "::" ++ srcPk ++ "::" ++ targetScope.name)

def validateTargetScope (targetScope : Scope) : M Unit :=
  if targetScope = .personal then
    .raise (.value "projection target_scope must be 'shared' or 'system'; got 'personal'")
  else
    pure ()

/-- `None` when the embedder fails. -/
def embedForProjection (env : Env) (text : String) : M (Option Embedding) := do
  match ← (embedText env text).attempt with
  | .ok v => pure (some v)
  | .error _ => pure none

/-- Skips the upsert when there is no vector. -/
def qdrantUpsertSafe (upsert : Embedding → M Unit) (vector : Option Embedding) : M Unit :=
  match vector with
  | none => pure ()
  | some v => upsert v

/-- Best-effort delete. -/
def qdrantDeleteSafe (delete : M Unit) : M Unit := do
  let _ ← delete.attempt
  pure ()

/-- The Postgres `INSERT` of a single-point projection; when it fails the point that was just
upserted is deleted again and the failure is raised. -/
def insertProjectionOrRollbackQdrant {α : Type} (delete : M Unit) (insert : M α) : M α :=
  insert.tryCatch fun e => do
    qdrantDeleteSafe delete
    .raise e

/-! ## Documents -/

/-- A chunk of the personal document, as the projection scroll finds it. -/
def DocPoint.ofSource (owner filePath : String) (pt : DocPoint) : Bool :=
  pt.userId == owner && pt.filePath == filePath

/-- The filter of `_unproject_file_chunks`. -/
def DocPoint.projects (src : Nat) (owner : String) (scope : Scope) (pt : DocPoint) : Bool :=
  pt.publishedFrom == some src && pt.userId == owner && pt.scope == some scope

/-- A shared chunk of the document, whoever its owner is. -/
def DocPoint.sharedOf (src : Nat) (pt : DocPoint) : Bool :=
  pt.publishedFrom == some src && pt.scope == some .shared

def chunkProjectionId (env : Env) (src : Nat) (ix : Int) (targetScope : Scope) : String :=
  projectionPointId env "documents" (toString src ++ ":" ++ toString ix) targetScope

def chunkProjection (env : Env) (src : FileRow) (targetScope : Scope) (ix : Int)
    (vector : Embedding) (pt : DocPoint) : DocPoint :=
  { id := chunkProjectionId env src.id ix targetScope
    vector := some vector
    filePath := src.filePath
    chunkIndex := some ix
    text := pt.text
    fileType := none
    userId := src.userId
    scope := some targetScope
    publishedFrom := some src.id
    sectionHeader := if pt.sectionHeader = some "" then none else pt.sectionHeader }

/-- The chunk's stored vector, or a new one when it has none. -/
def chunkVector (env : Env) (pt : DocPoint) : M (Option Embedding) :=
  match pt.vector with
  | some v => pure (some v)
  | none => embedForProjection env (pt.text.getD "")

/-- One pass of the loop in `_project_file_chunks`; counts `(projected, failed)`. -/
def projectFileChunk (env : Env) (src : FileRow) (targetScope : Scope) (n : Nat × Nat)
    (pt : DocPoint) : M (Nat × Nat) :=
  if pt.scope ≠ some .personal then
    pure n
  else do
    let vector ← chunkVector env pt
    match vector, pt.chunkIndex with
    | some v, some ix => do
      match ← (upsertDocument (chunkProjection env src targetScope ix v pt)).attempt with
      | .ok _ => pure (n.1 + 1, n.2)
      | .error _ => pure (n.1, n.2 + 1)
    | _, _ => pure (n.1, n.2 + 1)

/-- Mirrors the document's chunks into `targetScope`, reusing their vectors. -/
def projectFileChunks (env : Env) (src : FileRow) (targetScope : Scope) : M (Nat × Nat) :=
  if targetScope ≠ .shared ∨ src.userId = "" ∨ src.filePath = "" then
    pure (0, 0)
  else do
    let chunks ← scroll (DocPoint.ofSource src.userId src.filePath)
    foldM (projectFileChunk env src targetScope) (0, 0) chunks

def unprojectFileChunks (srcPk : Nat) (owner : String) (targetScope : Scope) : M Unit :=
  if owner = "" then pure () else deleteDocuments (DocPoint.projects srcPk owner targetScope)

def projectFileRow (src : FileRow) (targetScope : Scope) (actor : String) : M FileRow :=
  statementE fun db =>
    db.upsertFileProjection
      { id := db.fileIndexSeq
        filePath := src.filePath
        fileHash := src.fileHash
        fileType := src.fileType
        chunkCount := src.chunkCount
        ocrUsed := src.ocrUsed
        userId := actor
        scope := targetScope
        publishedFrom := some src.id } src.id

def ownerMismatch (owner actor : String) : PyErr :=
  .value ("project_file: source owner does not match actor ('" ++ owner ++ "' != '" ++ actor ++
    "')")

/-- Row first, then the chunks: the shared set is cleared and mirrored anew, so that it is
exactly the current source chunks. -/
def projectFileWithStatus (env : Env) (src : FileRow) (targetScope : Scope) (actor : String) :
    M (FileRow × Nat × Nat) := do
  validateTargetScope targetScope
  if src.userId ≠ actor then
    .raise (ownerMismatch src.userId actor)
  else do
    let row ← projectFileRow src targetScope actor
    (if targetScope = .shared then unprojectFileChunks src.id src.userId targetScope else pure ())
    let n ← projectFileChunks env src targetScope
    pure (row, n.1, n.2)

def projectFile (env : Env) (src : FileRow) (targetScope : Scope) (actor : String) : M FileRow := do
  validateTargetScope targetScope
  let r ← projectFileWithStatus env src targetScope actor
  pure r.1

/-! ## Entities -/

def entityPoint (env : Env) (src : EntityRow) (targetScope : Scope) (actor : String)
    (vector : Embedding) : EntPoint :=
  { id := projectionPointId env "entities" src.entityId targetScope
    vector := vector
    entityId := projectionPk env "entities" src.entityId targetScope
    name := src.name
    entityType := some src.entityType
    aliases := none
    contextTags := none
    userId := actor
    scope := some targetScope
    publishedFrom := some src.entityId }

def entityProjection (env : Env) (src : EntityRow) (targetScope : Scope) (actor : String)
    (shareOrigin : ShareOrigin) : EntityRow :=
  { entityId := projectionPk env "entities" src.entityId targetScope
    name := src.name
    entityType := src.entityType
    aliases := src.aliases
    contextTags := src.contextTags
    mentionCount := if src.mentionCount = 0 then 1 else src.mentionCount
    userId := actor
    extractionQuality := src.extractionQuality
    isStaged := false
    scope := targetScope
    publishedFrom := some src.entityId
    shareOrigin := some shareOrigin
    graphProjectedAt := none }

def EntPoint.hasId (id : String) (pt : EntPoint) : Bool := pt.id == id

/-- Point first, then the row. -/
def projectEntity (env : Env) (src : EntityRow) (targetScope : Scope) (actor : String)
    (shareOrigin : ShareOrigin) : M EntityRow := do
  validateTargetScope targetScope
  if shareOrigin = .multiple then
    .raise (.value "share_origin must be 'document' or 'user'; got 'multiple'")
  else do
    let vector ← embedForProjection env (src.name ++ " " ++ src.entityType)
    qdrantUpsertSafe (fun v => upsertEntityPoint (entityPoint env src targetScope actor v)) vector
    insertProjectionOrRollbackQdrant
      (deleteEntityPoints (EntPoint.hasId (projectionPointId env "entities" src.entityId targetScope)))
      (statementE fun db =>
        db.upsertEntityProjection (entityProjection env src targetScope actor shareOrigin)
          src.entityId)

/-- Deletes a projection row by `delete ... returning` and then, best effort, its mirror. -/
def unprojectUuidPk (deleteRow : Db → Bool × Db) (deletePoint : M Unit) : M Nat := do
  let deleted ← statement deleteRow
  qdrantDeleteSafe deletePoint
  pure (if deleted then 1 else 0)

def unprojectEntity (env : Env) (srcPk : String) (targetScope : Scope) : M Nat :=
  unprojectUuidPk
    (fun db => (db.entities.any (EntityRow.projects srcPk targetScope),
      db.deleteEntities (EntityRow.projects srcPk targetScope)))
    (deleteEntityPoints (EntPoint.hasId (projectionPointId env "entities" srcPk targetScope)))

end Lumogis
