import Lumogis.Ingest

/-!
# DocumentPurge

Hard-deleting a document: its rows, its relations, the entities nothing else mentions and the
shared projections nothing else justifies in one transaction, which also leaves a tombstone; then
its points, store by store. A purge of a document whose row is gone retries the stores that the
tombstone says have failed.
-/

namespace Lumogis

open Prog

structure PurgeResult where
  postgresDeleted : Bool
  qdrantDeleted : Bool
  graphDeleted : Bool
  qdrantEntitiesDeleted : Bool
  orphanEntityIds : List String
  errors : List String

def PurgeResult.empty : PurgeResult :=
  { postgresDeleted := false, qdrantDeleted := false, graphDeleted := false,
    qdrantEntitiesDeleted := false, orphanEntityIds := [], errors := [] }

/-- `partial`. -/
def PurgeResult.incomplete (r : PurgeResult) : Bool :=
  r.postgresDeleted && !(r.qdrantDeleted && r.graphDeleted && r.qdrantEntitiesDeleted)

/-! ## Tombstones -/

def TombstoneRow.isOf (userId : String) (documentId : Nat) (t : TombstoneRow) : Bool :=
  t.userId == userId && t.documentId == documentId

/-- `ON CONFLICT (user_id, document_id) DO NOTHING`. -/
def Db.insertTombstone (row : TombstoneRow) (db : Db) : Db :=
  if db.purgedDocuments.any (TombstoneRow.isOf row.userId row.documentId) then
    db
  else
    { db with purgedDocuments := db.purgedDocuments ++ [row] }

def tombstoneInsert (userId : String) (documentId : Nat) (filePath : String) (chunkCount : Nat)
    (orphanEntityIds : List String) : M Unit :=
  execute (Db.insertTombstone
    { userId := userId
      documentId := documentId
      filePath := filePath
      chunkCount := chunkCount
      qdrantDeleted := false
      graphDeleted := false
      qdrantEntitiesDeleted := false
      orphanEntityIds := orphanEntityIds
      errors := []
      resolved := false })

def tombstoneUpdate (userId : String) (documentId : Nat) (result : PurgeResult) : M Unit :=
  execute fun db => { db with
    purgedDocuments := Table.updateWhere (TombstoneRow.isOf userId documentId)
      (fun t => { t with
        qdrantDeleted := result.qdrantDeleted
        graphDeleted := result.graphDeleted
        qdrantEntitiesDeleted := result.qdrantEntitiesDeleted
        errors := result.errors
        resolved := t.resolved || !result.incomplete })
      db.purgedDocuments }

/-! ## Store arms -/

/-- Up to `attempts` tries; each failed one leaves an error. -/
def retryStoreArm (env : Env) (label : String) (arm : M Unit) : Nat → M (Bool × List String)
  | 0 => pure (false, [])
  | attempts + 1 => do
    match ← arm.attempt with
    | .ok _ => pure (true, [])
    | .error e => do
      let r ← retryStoreArm env label arm attempts
      pure (r.1, (label ++ ": " ++ env.strError e) :: r.2)

def retryAttempts : Nat := 3

/-- Another personal row of the owner has the path: it was ingested again after the purge. -/
def pathReclaimedByOtherDocument (userId : String) (documentId : Nat) (filePath : String) : M Bool :=
  select fun db =>
    match db.fileIndex.find? (FileRow.isPersonalAt userId filePath) with
    | some r => r.id != documentId
    | none => false

/-- Everything under the path, whatever its scope, and the ids of the chunks that were counted. -/
def clearPurgedPath (env : Env) (userId filePath : String) (chunkCount : Nat) : M Unit := do
  deleteDocuments (DocPoint.ofSource userId filePath)
  forEach (fun i => deleteDocuments (DocPoint.hasId (documentChunkPointId env userId filePath i)))
    (List.range chunkCount)

def qdrantArm (env : Env) (userId filePath : String) (chunkCount documentId : Nat)
    (skipPathScoped : Bool) : M Unit := do
  (if skipPathScoped then pure () else clearPurgedPath env userId filePath chunkCount)
  deleteDocuments (DocPoint.projects documentId userId .shared)

def runQdrantArm (env : Env) (userId filePath : String) (chunkCount documentId : Nat)
    (skipPathScoped : Bool) : M (Bool × List String) :=
  retryStoreArm env "qdrant" (qdrantArm env userId filePath chunkCount documentId skipPathScoped)
    retryAttempts

def runGraphArm (env : Env) (skipPathScoped : Bool) : M (Bool × List String) :=
  if skipPathScoped || !env.hasGraphStore then
    pure (true, [])
  else
    retryStoreArm env "graph" (query .graphStore fun _ => ()) retryAttempts

def EntPoint.isAny (userId : String) (entityIds : List String) (pt : EntPoint) : Bool :=
  pt.userId == userId && entityIds.contains pt.entityId

def EntPoint.publishedFromAny (userId : String) (entityIds : List String) (pt : EntPoint) : Bool :=
  pt.userId == userId && entityIds.any fun i => pt.publishedFrom == some i

def runQdrantEntityArm (env : Env) (userId : String) (entityIds : List String) :
    M (Bool × List String) :=
  if entityIds = [] then
    pure (true, [])
  else
    retryStoreArm env "qdrant_entities" (do
      deleteEntityPoints (EntPoint.isAny userId entityIds)
      deleteEntityPoints (EntPoint.publishedFromAny userId entityIds)) retryAttempts

/-- An arm that has succeeded before is not run again. -/
def unlessDone (done : Bool) (arm : M (Bool × List String)) : M (Bool × List String) :=
  if done then pure (true, []) else arm

def runStoreArms (env : Env) (userId : String) (documentId : Nat) (filePath : String)
    (chunkCount : Nat) (result : PurgeResult) : M PurgeResult := do
  let skip ← pathReclaimedByOtherDocument userId documentId filePath
  let qdrant ← unlessDone result.qdrantDeleted
    (runQdrantArm env userId filePath chunkCount documentId skip)
  let graph ← unlessDone result.graphDeleted (runGraphArm env skip)
  let entities ← unlessDone result.qdrantEntitiesDeleted
    (runQdrantEntityArm env userId result.orphanEntityIds)
  let result := { result with
    qdrantDeleted := qdrant.1
    graphDeleted := graph.1
    qdrantEntitiesDeleted := entities.1
    errors := result.errors ++ qdrant.2 ++ graph.2 ++ entities.2 }
  tombstoneUpdate userId documentId result
  pure result

/-! ## The Postgres arm -/

/-- The owner's personal entities that the document mentions, that no other evidence does, and
whose shared row, if any, is not a direct share's. -/
def Db.orphanEntities (filePath owner : String) (db : Db) : List String :=
  (db.entities.filter fun e =>
    e.userId == owner && e.scope == .personal && db.mentions filePath owner e.entityId &&
      !(db.entityRelations.any fun er => er.sourceId == e.entityId && er.userId == owner &&
        !(er.evidenceId == filePath && er.evidenceType == .document)) &&
      !(db.entities.any fun sh => sh.projects e.entityId .shared &&
        (sh.shareOrigin == some .user || sh.shareOrigin == some .multiple))).map EntityRow.entityId

/-- `DELETE FROM entities WHERE scope = 'shared' AND published_from = ANY(ids)`. -/
def Db.deleteProjections (ids : List String) (db : Db) : Db :=
  db.deleteEntities fun r => r.scope == .shared && ids.any fun i => r.publishedFrom == some i

/-- Replies with the entities it deleted and with the ones whose projection it retracted. -/
def purgeRows (userId : String) (documentId : Nat) (filePath : String) (chunkCount : Nat) :
    M (List String × List String) := do
  execute (Db.deleteFiles fun r => r.publishedFrom == some documentId)
  let plan ← planDocumentEntityRetraction filePath userId
  let orphans ← select (Db.orphanEntities filePath userId)
  execute fun db => { db with
    entityRelations := Table.deleteWhere (RelationRow.ofDocument filePath userId)
      db.entityRelations }
  (if orphans = [] then
    pure ()
  else
    execute (Db.deleteEntities fun r =>
      orphans.contains r.entityId && r.userId == userId && r.scope == .personal))
  (if plan.retractIds = [] then pure () else execute (Db.deleteProjections plan.retractIds))
  (if plan.downgradeIds = [] then pure () else execute (Db.downgradeEntities plan.downgradeIds))
  execute (Db.deleteFiles (FileRow.isSource userId documentId))
  tombstoneInsert userId documentId filePath chunkCount orphans
  pure (orphans, plan.retractIds)

/-- Best effort: the rows are gone already. -/
def deleteSharedEntityPoints (userId : String) (srcEntityIds : List String) : M Unit :=
  if srcEntityIds = [] then
    pure ()
  else
    qdrantDeleteSafe (deleteEntityPoints fun pt =>
      pt.publishedFromAny userId srcEntityIds && pt.scope == some .shared)

/-- Runs under the lock in `purge_document`. -/
def purgeDocumentLocked (env : Env) (userId : String) (documentId : Nat) (filePath : String)
    (chunkCount : Nat) : M PurgeResult := do
  match ← (transaction (purgeRows userId documentId filePath chunkCount)).attempt with
  | .error e => pure { PurgeResult.empty with errors := ["postgres: " ++ env.strError e] }
  | .ok gone => do
    deleteSharedEntityPoints userId gone.2
    runStoreArms env userId documentId filePath chunkCount
      { PurgeResult.empty with postgresDeleted := true, orphanEntityIds := gone.1 }

/-- The row is gone: what the tombstone says is still to do. -/
def handleMissingRow (env : Env) (sess : Nat) (userId : String) (documentId : Nat) :
    M PurgeResult := do
  match ← select fun db => db.purgedDocuments.find? (TombstoneRow.isOf userId documentId) with
  | none => .raise (.documentNotFound documentId)
  | some t =>
    if t.qdrantDeleted && t.graphDeleted && t.qdrantEntitiesDeleted then
      pure { PurgeResult.empty with
        postgresDeleted := true, qdrantDeleted := true, graphDeleted := true,
        qdrantEntitiesDeleted := true }
    else
      shareDocumentLock sess documentId
        (runStoreArms env userId documentId t.filePath t.chunkCount
          { postgresDeleted := true
            qdrantDeleted := t.qdrantDeleted
            graphDeleted := t.graphDeleted
            qdrantEntitiesDeleted := t.qdrantEntitiesDeleted
            orphanEntityIds := t.orphanEntityIds
            errors := [] })

def purgeDocument (env : Env) (sess : Nat) (userId : String) (documentId : Nat) : M PurgeResult := do
  match ← fetchPersonalSource userId documentId with
  | none => handleMissingRow env sess userId documentId
  | some row =>
    shareDocumentLock sess documentId
      (purgeDocumentLocked env userId documentId row.filePath row.chunkCount)

end Lumogis
