import Lumogis.EntityCascade

/-!
# Entities

What extraction finds in a text is resolved against the owner's personal entities and stored
(`store_entities`): merged into an entity it shares two context tags with, queued for review and
stored apart when it shares one, stored apart otherwise. Every stored entity gets its relation to
the evidence and a point in `entities`.
-/

namespace Lumogis

open Prog

structure ExtractedEntity where
  name : String
  entityType : String
  aliases : List String
  contextTags : List String
  extractionQuality : Option Rat
  isStaged : Option Bool

inductive Resolution where
  | new | merge | ambiguous
  deriving DecidableEq

/-- By the number of context tags in common. -/
def resolveEntity (entity : ExtractedEntity) (existing : Option EntityRow) : Resolution :=
  match existing with
  | none => .new
  | some row =>
    match (row.contextTags.eraseDups.filter fun t => entity.contextTags.contains t).length with
    | 0 => .new
    | 1 => .ambiguous
    | _ => .merge

/-- The quality gate: below the lower threshold an entity is dropped, below the upper one staged. -/
def scoreAndFilterEntities (env : Env) (entities : List ExtractedEntity) : List ExtractedEntity :=
  (entities.filter fun e => !decide (env.quality e.name < env.qualityLower)).map fun e =>
    { e with
      extractionQuality := some (env.quality e.name)
      isStaged := some (decide (env.quality e.name < env.qualityUpper)) }

def insertNewEntity (env : Env) (entity : ExtractedEntity) (userId : String) : M String := do
  let entityId ← freshUuid env
  statementE fun db =>
    if db.entities.any fun r => r.entityId == entityId then
      .error .database
    else
      .ok ((), { db with entities := db.entities ++ [
        { entityId := entityId
          name := entity.name
          entityType := entity.entityType
          aliases := entity.aliases.filter fun a => env.lower a != env.lower entity.name
          contextTags := entity.contextTags
          mentionCount := 1
          userId := userId
          extractionQuality := entity.extractionQuality
          isStaged := entity.isStaged.getD false
          scope := .personal
          publishedFrom := none
          shareOrigin := none
          graphProjectedAt := none }] })
  pure entityId

/-- The personal entity of the owner that goes by the name, as its own or as an alias. -/
def EntityRow.answersTo (env : Env) (userId name : String) (r : EntityRow) : Bool :=
  r.userId == userId && r.scope == .personal && r.publishedFrom == none &&
    (env.lower r.name == env.lower name || (r.aliases.map env.lower).contains (env.lower name))

/-- The columns that a merge into `existing` sets. -/
def mergeExtracted (env : Env) (entity : ExtractedEntity) (existing r : EntityRow) : EntityRow :=
  let aliases := (((existing.aliases ++ entity.aliases).eraseDups.filter
    fun a => a != env.lower entity.name).filter fun a => env.lower a != env.lower existing.name)
  let promote := existing.isStaged &&
    ((match entity.extractionQuality with
      | some q => decide (env.qualityUpper < q)
      | none => false) || decide (env.promoteOnMentionCount ≤ existing.mentionCount + 1))
  { r with
    mentionCount := r.mentionCount + 1
    aliases := aliases
    contextTags := (existing.contextTags ++ entity.contextTags).eraseDups
    isStaged := if promote then false else r.isStaged
    graphProjectedAt := if promote then none else r.graphProjectedAt }

def ambiguousReason (existing entity : String) : String :=
  "Name match with only 1 context_tag overlap: '" ++ existing ++ "' vs '" ++ entity ++ "'"

/-- The entity's row: an existing one that it is merged into, or a new one. -/
def placeEntity (env : Env) (entity : ExtractedEntity) (userId : String)
    (existing : Option EntityRow) : M String :=
  match resolveEntity entity existing, existing with
  | .merge, some old => do
    execute fun db => { db with
      entities := Table.updateWhere (fun r => r.entityId == old.entityId)
        (mergeExtracted env entity old) db.entities }
    pure old.entityId
  | .ambiguous, some old => do
    let entityId ← insertNewEntity env entity userId
    statementE fun db =>
      if db.entities.any (fun r => r.entityId == old.entityId) &&
          db.entities.any (fun r => r.entityId == entityId) then
        .ok ((), { db with reviewQueue := db.reviewQueue ++ [
          { candidateAId := old.entityId
            candidateBId := entityId
            reason := ambiguousReason old.name entity.name
            userId := userId
            scope := .personal }] })
      else
        .error .database
    pure entityId
  | _, _ => insertNewEntity env entity userId

def EvidenceType.relationType : EvidenceType → String
  | .session => "MENTIONED_IN_SESSION"
  | .memory => "MENTIONED_IN_MEMORY"
  | .document => "MENTIONED_IN_DOCUMENT"

/-- `INSERT INTO entity_relations ... ON CONFLICT (source_id, evidence_id, relation_type, user_id)
DO NOTHING`. -/
def Db.insertRelation (er : RelationRow) (db : Db) : Except PyErr (Unit × Db) :=
  if db.entityRelations.any fun r => r.sourceId == er.sourceId && r.evidenceId == er.evidenceId &&
      r.relationType == er.relationType && r.userId == er.userId then
    .ok ((), db)
  else if db.entities.any fun r => r.entityId == er.sourceId then
    .ok ((), { db with entityRelations := db.entityRelations ++ [er] })
  else
    .error .database

def entityEmbedText (entity : ExtractedEntity) : String :=
  entity.name ++ " (" ++ entity.entityType ++ ")" ++
    if entity.contextTags = [] then "" else ": " ++ String.intercalate ", " entity.contextTags

def personalEntityPoint (env : Env) (entity : ExtractedEntity) (entityId userId : String)
    (vector : Embedding) : EntPoint :=
  { id := env.uuid5 ("entity::" ++ userId ++ "::" ++ env.lower entity.name)
    vector := vector
    entityId := entityId
    name := entity.name
    entityType := some entity.entityType
    aliases := some entity.aliases
    contextTags := some entity.contextTags
    userId := userId
    scope := some .personal
    publishedFrom := none }

def upsertEntity (env : Env) (entity : ExtractedEntity) (evidenceId : String)
    (evidenceType : EvidenceType) (userId : String) : M String := do
  let existing ← select fun db => db.entities.find? (EntityRow.answersTo env userId entity.name)
  let entityId ← placeEntity env entity userId existing
  statementE (Db.insertRelation
    { sourceId := entityId
      relationType := evidenceType.relationType
      evidenceType := evidenceType
      evidenceId := evidenceId
      userId := userId })
  let vector ← embedText env (entityEmbedText entity)
  upsertEntityPoint (personalEntityPoint env entity entityId userId vector)
  pure entityId

/-- One pass of the loop in `store_entities`; an entity that fails is skipped. -/
def storeEntity (env : Env) (evidenceId : String) (evidenceType : EvidenceType) (userId : String)
    (ids : List String) (entity : ExtractedEntity) : M (List String) := do
  match ← (upsertEntity env entity evidenceId evidenceType userId).attempt with
  | .ok entityId => pure (ids ++ [entityId])
  | .error _ => pure ids

def storeEntities (env : Env) (entities : List ExtractedEntity) (evidenceId : String)
    (evidenceType : EvidenceType) (userId : String) : M (List String) :=
  foldM (storeEntity env evidenceId evidenceType userId) []
    (scoreAndFilterEntities env entities)

end Lumogis
