import Lumogis.Projection

/-!
# EntityCascade

Sharing a document also shares the entities extracted from it; unsharing retracts those that no
other shared document of the owner justifies.

Both planners read, for each candidate entity with a shared projection, the projection's
`share_origin` and whether another currently shared document mentions the entity
(`otherJustification`), and `splitRetractAndDowngrade` turns that into what to delete and what to
downgrade to `user`.
-/

namespace Lumogis

open Prog

def graphFeatureEnabled (env : Env) : Bool := env.graphMode != .disabled

/-- The document's `DOCUMENT` relations of the owner. -/
def RelationRow.ofDocument (filePath owner : String) (er : RelationRow) : Bool :=
  er.evidenceType == .document && er.evidenceId == filePath && er.userId == owner

/-- The owner's document at `filePath` has a `DOCUMENT` relation to the entity. -/
def Db.mentions (db : Db) (filePath owner entityId : String) : Bool :=
  db.entityRelations.any fun er => er.ofDocument filePath owner && er.sourceId == entityId

def extractedPersonalEntities (filePath owner : String) : M (List EntityRow) :=
  select fun db => db.entities.filter fun e =>
    e.scope == .personal && !e.isStaged && e.userId == owner &&
      db.mentions filePath owner e.entityId

/-- One pass of the cascade loop; counts `(projected, failed)`. -/
def shareEntity (env : Env) (targetScope : Scope) (actor : String) (n : Nat × Nat) (e : EntityRow) :
    M (Nat × Nat) := do
  match ← (projectEntity env e targetScope actor .document).attempt with
  | .ok _ => pure (n.1 + 1, n.2)
  | .error _ => pure (n.1, n.2 + 1)

/-- `str(src_file.get("user_id") or actor.user_id)`. -/
def cascadeOwner (srcFile : FileRow) (actor : String) : String :=
  if srcFile.userId = "" then actor else srcFile.userId

def cascadeOwnerMismatch (owner actor : String) : PyErr :=
  .value ("cascade_share_document_entities: source owner does not match actor ('" ++ owner ++
    "' != '" ++ actor ++ "')")

def cascadeShareDocumentEntities (env : Env) (srcFile : FileRow) (actor : String)
    (targetScope : Scope) : M (Nat × Nat) :=
  if !graphFeatureEnabled env || srcFile.filePath == "" then
    pure (0, 0)
  else if cascadeOwner srcFile actor ≠ actor then
    .raise (cascadeOwnerMismatch (cascadeOwner srcFile actor) actor)
  else do
    let rows ← extractedPersonalEntities srcFile.filePath (cascadeOwner srcFile actor)
    foldM (shareEntity env targetScope actor) (0, 0) rows

/-! ## Retraction -/

structure PlanRow where
  srcEntityId : String
  shareOrigin : Option ShareOrigin
  otherJustification : Bool

structure Plan where
  retractIds : List String
  downgradeIds : List String

def splitRetractAndDowngrade (rows : List PlanRow) : Plan :=
  { retractIds := (rows.filter fun r => !r.otherJustification && r.shareOrigin == some .document).map
      PlanRow.srcEntityId
    downgradeIds := (rows.filter fun r => !r.otherJustification && r.shareOrigin == some .multiple).map
      PlanRow.srcEntityId }

/-- The owner has another currently shared document that mentions the entity. -/
def Db.otherJustification (db : Db) (filePath owner entityId : String) : Bool :=
  db.fileIndex.any fun sf =>
    sf.scope == .shared && sf.userId == owner && sf.filePath != filePath &&
      db.mentions sf.filePath owner entityId

/-- The join of personal entities, as far as `candidate` holds of them, with their shared
projections. -/
def Db.planRows (db : Db) (filePath owner : String) (candidate : EntityRow → Bool) : List PlanRow :=
  (db.entities.filter fun pe => pe.scope == .personal && pe.userId == owner && candidate pe).flatMap
    fun pe => (db.entities.filter (EntityRow.projects pe.entityId .shared)).map fun sh =>
      { srcEntityId := pe.entityId
        shareOrigin := sh.shareOrigin
        otherJustification := db.otherJustification filePath owner pe.entityId }

def planDocumentEntityRetraction (filePath owner : String) : M Plan :=
  select fun db => splitRetractAndDowngrade
    (db.planRows filePath owner fun pe => db.mentions filePath owner pe.entityId)

def planReingestRemovedEntityRetraction (filePath owner : String) (removed : List String) : M Plan :=
  if removed = [] then
    pure ⟨[], []⟩
  else
    select fun db => splitRetractAndDowngrade
      (db.planRows filePath owner fun pe => removed.contains pe.entityId)

/-- `UPDATE entities SET share_origin = 'user' WHERE scope = 'shared' AND published_from = ANY`. -/
def Db.downgradeEntities (ids : List String) (db : Db) : Db :=
  { db with
    entities := Table.updateWhere
      (fun r => r.scope == .shared && ids.any fun i => r.publishedFrom == some i)
      (fun r => { r with shareOrigin := some .user }) db.entities }

def retractEntity (env : Env) (n : Nat) (srcEntityId : String) : M Nat := do
  match ← (unprojectEntity env srcEntityId .shared).attempt with
  | .ok k => pure (n + k)
  | .error _ => pure n

def applyEntityRetractionPlan (env : Env) (plan : Plan) : M Nat := do
  let retracted ← foldM (retractEntity env) 0 plan.retractIds
  if plan.downgradeIds = [] then
    pure retracted
  else do
    let _ ← (execute (Db.downgradeEntities plan.downgradeIds)).attempt
    pure retracted

def retractDocumentEntities (env : Env) (filePath owner : String) : M Nat :=
  if !graphFeatureEnabled env || filePath == "" || owner == "" then
    pure 0
  else do
    let plan ← planDocumentEntityRetraction filePath owner
    applyEntityRetractionPlan env plan

def retractRemovedEntitiesOnReingest (env : Env) (filePath owner : String)
    (removed : List String) : M Nat :=
  if !graphFeatureEnabled env || filePath == "" || owner == "" || removed == [] then
    pure 0
  else do
    let plan ← planReingestRemovedEntityRetraction filePath owner removed
    applyEntityRetractionPlan env plan

/-- Drops the document's `DOCUMENT` relations to entities outside the current extraction and
replies with the dropped ids. -/
def pruneStaleDocumentEntityRelations (filePath owner : String) (keep : List String) :
    M (List String) :=
  if filePath = "" ∨ owner = "" then
    pure []
  else do
    let removed ← select fun db =>
      (db.entityRelations.filter fun er =>
        er.ofDocument filePath owner && !keep.contains er.sourceId).map RelationRow.sourceId
    if removed = [] then
      pure []
    else do
      execute fun db => { db with
        entityRelations := Table.deleteWhere
          (fun er => er.ofDocument filePath owner && removed.contains er.sourceId)
          db.entityRelations }
      pure removed

end Lumogis
