import Lumogis.Store

/-!
# Tables

Row deletion with the schema's `ON DELETE CASCADE`, and the writes that go through a unique
index.

`published_from` of a table references the table's own key. What is published is always a
personal row, so a cascade from a deleted row reaches its projections and stops there.
-/

namespace Lumogis

/-- The projection of `src` in `scope`: at most one row, by the unique index on
`(published_from, scope)`. -/
def FileRow.projects (src : Nat) (scope : Scope) (r : FileRow) : Bool :=
  r.publishedFrom == some src && r.scope == scope

def EntityRow.projects (src : String) (scope : Scope) (r : EntityRow) : Bool :=
  r.publishedFrom == some src && r.scope == scope

namespace Db

/-- `DELETE FROM file_index WHERE p`. -/
def deleteFiles (p : FileRow → Bool) (db : Db) : Db :=
  let gone := db.fileIndex.filter p
  { db with
    fileIndex := Table.deleteWhere
      (fun r => p r || gone.any fun g => r.publishedFrom == some g.id) db.fileIndex }

/-- The rows that `DELETE FROM entities WHERE p` removes, projections of removed rows included. -/
def entityGone (p : EntityRow → Bool) (db : Db) (r : EntityRow) : Bool :=
  p r || (db.entities.filter p).any fun g => r.publishedFrom == some g.entityId

/-- `DELETE FROM entities WHERE p`. Relations and review candidates of a removed row go too. -/
def deleteEntities (p : EntityRow → Bool) (db : Db) : Db :=
  let gone := db.entities.filter (entityGone p db)
  { db with
    entities := Table.deleteWhere (entityGone p db) db.entities
    entityRelations := Table.deleteWhere
      (fun er => gone.any fun g => er.sourceId == g.entityId) db.entityRelations
    reviewQueue := Table.deleteWhere
      (fun q => gone.any fun g => q.candidateAId == g.entityId || q.candidateBId == g.entityId)
      db.reviewQueue }

/-- `INSERT INTO file_index ... ON CONFLICT (published_from, scope) DO UPDATE SET file_hash,
chunk_count`. The sequence moves on also when the row exists. -/
def upsertFileProjection (row : FileRow) (src : Nat) (db : Db) : Except PyErr (FileRow × Db) :=
  let adopt (r : FileRow) : FileRow :=
    { r with fileHash := row.fileHash, chunkCount := row.chunkCount }
  match db.fileIndex.find? (FileRow.projects src row.scope) with
  | some old =>
    .ok (adopt old, { db with
      fileIndex := Table.updateWhere (FileRow.projects src row.scope) adopt db.fileIndex
      fileIndexSeq := db.fileIndexSeq + 1 })
  | none =>
    if db.fileIndex.any (fun r => r.id == src) && !db.fileIndex.any (fun r => r.id == row.id) then
      .ok (row, { db with
        fileIndex := db.fileIndex ++ [row]
        fileIndexSeq := db.fileIndexSeq + 1 })
    else
      .error .database

/-- `share_origin` after `ON CONFLICT`: a `NULL` adopts the incoming origin, equal origins stay,
different ones become `multiple`. -/
def promoteOrigin (old new : Option ShareOrigin) : Option ShareOrigin :=
  match old with
  | none => new
  | some o => if new = some o then some o else some .multiple

/-- `INSERT INTO entities ... ON CONFLICT (published_from, scope) DO UPDATE`. -/
def upsertEntityProjection (row : EntityRow) (src : String) (db : Db) :
    Except PyErr (EntityRow × Db) :=
  let adopt (r : EntityRow) : EntityRow :=
    { r with
      name := row.name
      entityType := row.entityType
      aliases := row.aliases
      contextTags := row.contextTags
      mentionCount := row.mentionCount
      shareOrigin := promoteOrigin r.shareOrigin row.shareOrigin }
  match db.entities.find? (EntityRow.projects src row.scope) with
  | some old =>
    .ok (adopt old, { db with
      entities := Table.updateWhere (EntityRow.projects src row.scope) adopt db.entities })
  | none =>
    if db.entities.any (fun r => r.entityId == src) &&
        !db.entities.any (fun r => r.entityId == row.entityId) then
      .ok (row, { db with entities := db.entities ++ [row] })
    else
      .error .database

end Db

end Lumogis
