import Lumogis.SharingRoutes

/-!
# EntityMerge

`merge_entities`: the loser's relations, session entries and projections go over to the winner and
the loser is deleted, in one transaction; afterwards, best effort, its point.

`remap_published_from` sweeps six tables with the same two statements. Both send the ids as text
literals, which Postgres reads at the type of the column they are compared with: `published_from`
is a UUID everywhere but in `file_index`, where it is an INTEGER, and `sessions.entity_ids` is a
TEXT[], which the session statement searches for a UUID. `PgTypes` says what Postgres makes of
these two.
-/

namespace Lumogis

open Prog

structure PgTypes where
  /-- A text literal read as an INTEGER; `none` is an error. -/
  integer : String → Option Int
  /-- Whether `array_replace` and `= ANY` take a UUID for an element of a TEXT[]. -/
  uuidInTextArray : Bool

/-! ## The sweep -/

/-- The columns of a projection-capable table that the sweep reads and writes. -/
structure Projecting (α κ : Type) where
  pk : α → κ
  publishedFrom : α → Option κ
  scope : α → Scope
  repoint : κ → α → α

namespace Projecting

variable {α κ : Type} [BEq κ]

/-- A projection of the loser where the winner has one of the same scope. -/
def collides (t : Projecting α κ) (loser winner : κ) (rows : List α) (r : α) : Bool :=
  t.publishedFrom r == some loser &&
    rows.any fun sib => t.publishedFrom sib == some winner && t.scope sib == t.scope r

/-- The rows that deleting the colliding ones removes, by `ON DELETE CASCADE` those that were
published from them too. -/
def gone (t : Projecting α κ) (loser winner : κ) (rows : List α) (r : α) : Bool :=
  t.collides loser winner rows r ||
    (rows.filter (t.collides loser winner rows)).any fun g => t.publishedFrom r == some (t.pk g)

/-- `UPDATE ... SET published_from = winner WHERE published_from = loser`, which the foreign key
refuses when the table has no row of the winner's key. -/
def remap (t : Projecting α κ) (loser winner : κ) (rows : List α) : Except PyErr (List α) :=
  if (rows.any fun r => t.publishedFrom r == some loser) &&
      !(rows.any fun r => t.pk r == winner) then
    .error .database
  else
    .ok (Table.updateWhere (fun r => t.publishedFrom r == some loser) (t.repoint winner) rows)

end Projecting

def ProjectionRow.projecting : Projecting ProjectionRow String :=
  { pk := pk, publishedFrom := publishedFrom, scope := scope
    repoint := fun k r => { r with publishedFrom := some k } }

def SessionRow.projecting : Projecting SessionRow String :=
  { pk := sessionId, publishedFrom := publishedFrom, scope := scope
    repoint := fun k r => { r with publishedFrom := some k } }

def EntityRow.projecting : Projecting EntityRow String :=
  { pk := entityId, publishedFrom := publishedFrom, scope := scope
    repoint := fun k r => { r with publishedFrom := some k } }

def FileRow.projecting : Projecting FileRow Int :=
  { pk := fun r => r.id, publishedFrom := fun r => r.publishedFrom.map Int.ofNat, scope := scope
    repoint := fun k r => { r with publishedFrom := some k.toNat } }

/-- The two statements of the sweep for one table, given by how the table is read and replaced. -/
def sweepTable {α : Type} (t : Projecting α String) (rows : Db → List α)
    (put : List α → Db → Db) (loser winner : String) : M Unit := do
  execute fun db => put (Table.deleteWhere (t.gone loser winner (rows db)) (rows db)) db
  statementE fun db =>
    match t.remap loser winner (rows db) with
    | .ok rs => .ok ((), put rs db)
    | .error e => .error e

def sweepFileIndex (pg : PgTypes) (loser winner : String) : M Unit := do
  statementE fun db =>
    match pg.integer loser, pg.integer winner with
    | some l, some w =>
      .ok ((), db.deleteFiles (FileRow.projecting.collides l w db.fileIndex))
    | _, _ => .error .database
  statementE fun db =>
    match pg.integer loser, pg.integer winner with
    | some l, some w =>
      match FileRow.projecting.remap l w db.fileIndex with
      | .ok rs => .ok ((), { db with fileIndex := rs })
      | .error e => .error e
    | _, _ => .error .database

def sweepEntities (loser winner : String) : M Unit := do
  execute fun db => db.deleteEntities (EntityRow.projecting.collides loser winner db.entities)
  statementE fun db =>
    match EntityRow.projecting.remap loser winner db.entities with
    | .ok rs => .ok ((), { db with entities := rs })
    | .error e => .error e

/-- Repoint every projection row from `loser` to `winner`, table by table. -/
def remapPublishedFrom (pg : PgTypes) (loser winner : String) : M Unit := do
  sweepTable ProjectionRow.projecting Db.notes (fun rs db => { db with notes := rs }) loser winner
  sweepTable ProjectionRow.projecting Db.audioMemos (fun rs db => { db with audioMemos := rs }) loser
    winner
  sweepTable SessionRow.projecting Db.sessions (fun rs db => { db with sessions := rs }) loser winner
  sweepFileIndex pg loser winner
  sweepEntities loser winner
  sweepTable ProjectionRow.projecting Db.signals (fun rs db => { db with signals := rs }) loser winner

/-! ## Phase A -/

structure PhaseA where
  relationsMoved : Nat
  sessionsUpdated : Nat
  aliasesMerged : Nat
  relationsDroppedAsDuplicate : Nat
  projectionsRemapped : Bool

def EntityRow.belongsTo (userId entityId : String) (r : EntityRow) : Bool :=
  r.entityId == entityId && r.userId == userId

def fetchMergeEntity (userId entityId : String) : M (Option EntityRow) :=
  select fun db => db.entities.find? (EntityRow.belongsTo userId entityId)

def notFoundForUser (role entityId userId : String) : PyErr :=
  .value (role ++ " entity '" ++ entityId ++ "' not found for user_id='" ++ userId ++ "'")

def requireRow {α : Type} (e : PyErr) (r : Option α) : M α :=
  match r with
  | none => .raise e
  | some a => pure a

def RelationRow.belongsTo (userId sourceId : String) (er : RelationRow) : Bool :=
  er.sourceId == sourceId && er.userId == userId

/-- A relation of the loser that the winner does not have. -/
def RelationRow.movable (winner loser userId : String) (rows : List RelationRow)
    (er : RelationRow) : Bool :=
  er.belongsTo userId loser &&
    !(rows.any fun er2 => er2.sourceId == winner && er2.evidenceId == er.evidenceId &&
      er2.relationType == er.relationType && er2.userId == er.userId)

def moveRelations (winner loser userId : String) : M Nat :=
  statement fun db =>
    let movable := RelationRow.movable winner loser userId db.entityRelations
    (db.entityRelations.countP movable,
      { db with
        entityRelations := Table.updateWhere movable (fun er => { er with sourceId := winner })
          db.entityRelations })

def dropRelations (loser userId : String) : M Nat :=
  statement fun db =>
    (db.entityRelations.countP (RelationRow.belongsTo userId loser),
      { db with
        entityRelations := Table.deleteWhere (RelationRow.belongsTo userId loser)
          db.entityRelations })

def SessionRow.lists (userId entityId : String) (r : SessionRow) : Bool :=
  r.userId == userId && r.entityIds.contains entityId

/-- `array_replace(entity_ids, loser, winner)`. -/
def SessionRow.replaceEntity (loser winner : String) (r : SessionRow) : SessionRow :=
  { r with entityIds := r.entityIds.map fun i => if i = loser then winner else i }

def updateSessions (pg : PgTypes) (winner loser userId : String) : M Nat :=
  statementE fun db =>
    if pg.uuidInTextArray then
      .ok (db.sessions.countP (SessionRow.lists userId loser),
        { db with
          sessions := Table.updateWhere (SessionRow.lists userId loser)
            (SessionRow.replaceEntity loser winner) db.sessions })
    else
      .error .database

/-- `list(dict.fromkeys(xs + ys))`. -/
def mergedList (xs ys : List String) : List String := (xs ++ ys).eraseDups

def updateWinner (winner userId : String) (w l : EntityRow) : M Unit :=
  execute fun db => { db with
    entities := Table.updateWhere (EntityRow.belongsTo userId winner)
      (fun r => { r with
        aliases := mergedList w.aliases l.aliases
        contextTags := mergedList w.contextTags l.contextTags
        mentionCount := w.mentionCount + l.mentionCount
        graphProjectedAt := none }) db.entities }

def runPhaseA (pg : PgTypes) (winner loser userId : String) : M PhaseA := do
  let w ← (do requireRow (notFoundForUser "winner" winner userId)
                (← fetchMergeEntity userId winner) : M EntityRow)
  let l ← (do requireRow (notFoundForUser "loser" loser userId)
                (← fetchMergeEntity userId loser) : M EntityRow)
  let moved ← moveRelations winner loser userId
  let dropped ← dropRelations loser userId
  let updated ← updateSessions pg winner loser userId
  updateWinner winner userId w l
  remapPublishedFrom pg loser winner
  execute fun db => db.deleteEntities (EntityRow.belongsTo userId loser)
  pure { relationsMoved := moved
         sessionsUpdated := updated
         aliasesMerged := (mergedList w.aliases l.aliases).length - w.aliases.length
         relationsDroppedAsDuplicate := dropped
         projectionsRemapped := true }

/-! ## Phase B -/

def mergeEmbedText (name : String) (aliases : List String) : String :=
  if aliases = [] then name else name ++ ": " ++ ", ".intercalate (aliases.take 5)

def entityPointId (env : Env) (userId name : String) : String :=
  env.uuid5 ("entity::" ++ userId ++ "::" ++ env.lower name)

def winnerPoint (env : Env) (winner userId name : String) (aliases : List String)
    (vector : Embedding) : EntPoint :=
  { id := entityPointId env userId name
    vector := vector
    entityId := winner
    name := name
    entityType := none
    aliases := some aliases
    contextTags := none
    userId := userId
    scope := none
    publishedFrom := none }

def EntPoint.ofEntity (entityId : String) (pt : EntPoint) : Bool := pt.entityId == entityId

def runPhaseB (env : Env) (winner loser userId name : String) (aliases : List String) : M Bool := do
  let r ← (do
    deleteEntityPoints (EntPoint.ofEntity loser)
    let v ← embedText env (mergeEmbedText name aliases)
    upsertEntityPoint (winnerPoint env winner userId name aliases v) : M Unit).attempt
  pure (match r with
    | .ok _ => true
    | .error _ => false)

/-! ## merge_entities -/

structure MergeResult where
  winnerId : String
  loserId : String
  aliasesMerged : Nat
  relationsMoved : Nat
  sessionsUpdated : Nat
  qdrantCleaned : Bool
  deriving DecidableEq

def beginFailed : PyErr := .runtime "entity_merge: failed to begin transaction"

def phaseAFailed (winner loser : String) : PyErr :=
  .runtime ("entity_merge: Phase A failed for winner=" ++ winner ++ " loser=" ++ loser)

/-- What a failed phase A raises: a `ValueError` as it is, anything else wrapped. -/
def mergeError (winner loser : String) : PyErr → PyErr
  | .value m => .value m
  | _ => phaseAFailed winner loser

/-- The block with autocommit off; replies with the counts and the winner's row after it. -/
def mergeTransaction (pg : PgTypes) (winner loser userId : String) :
    M (PhaseA × Option EntityRow) := do
  beginTxn.tryCatch fun _ => .raise beginFailed
  (do
    let pre ← fetchMergeEntity userId winner
    let a ← runPhaseA pg winner loser userId
    let post ← fetchMergeEntity userId winner
    commitTxn
    pure (a, post.or pre) : M (PhaseA × Option EntityRow)).tryCatch fun e => do
      rollbackTxn
      .raise (mergeError winner loser e)

def mergeEntities (pg : PgTypes) (env : Env) (winner loser userId : String) : M MergeResult :=
  if winner = loser then
    .raise (.value ("winner_id and loser_id must differ (got '" ++ winner ++ "')"))
  else do
    let r ← mergeTransaction pg winner loser userId
    let cleaned ← runPhaseB env winner loser userId ((r.2.map EntityRow.name).getD "")
      ((r.2.map EntityRow.aliases).getD [])
    pure { winnerId := winner
           loserId := loser
           aliasesMerged := r.1.aliasesMerged
           relationsMoved := r.1.relationsMoved
           sessionsUpdated := r.1.sessionsUpdated
           qdrantCleaned := cleaned }

end Lumogis
