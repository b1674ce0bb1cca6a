import Lumogis.Lib.Prog
import Lumogis.Lib.Table

/-!
# Store

The state that the services work on: the Postgres tables, the `documents` and `entities`
collections of the vector store, the session-level advisory locks, and the transaction that is
open on the process-wide connection, if any.

Rows keep the columns that a modelled function reads or writes. A timestamp column is kept only
where it is compared or reset. `M` is the type of the service functions: programs whose calls
are single statements on `Store`.
-/

namespace Lumogis

inductive Scope where
  | personal | shared | system
  deriving DecidableEq

/-- `entities.share_origin`; SQL `NULL` is `none`. -/
inductive ShareOrigin where
  | user | document | multiple
  deriving DecidableEq

inductive EvidenceType where
  | session | document | memory
  deriving DecidableEq

inductive GraphMode where
  | inprocess | service | disabled
  deriving DecidableEq

inductive PyErr where
  | database
  | vectorStore
  | graphStore
  | embedder
  | extractor
  | value (message : String)
  | type (message : String)
  | lookup (message : String)
  | runtime (message : String)
  | documentNotFound (documentId : Nat)
  | documentNotShared (documentId : Nat)
  | sharedItemNotFound (resource pk : String)
  | teardownIncomplete (resource pk : String) (detail : String)
  | auditWriteFailed (resource pk : String)
  | http (status : Nat) (error : String)
  deriving DecidableEq

/-- A dense vector, as the bit patterns of its components. -/
abbrev Embedding := List UInt64

/-! ## Postgres -/

structure FileRow where
  id : Nat
  filePath : String
  fileHash : String
  fileType : String
  chunkCount : Nat
  ocrUsed : Bool
  userId : String
  scope : Scope
  publishedFrom : Option Nat
  deriving DecidableEq

structure EntityRow where
  entityId : String
  name : String
  entityType : String
  aliases : List String
  contextTags : List String
  mentionCount : Nat
  userId : String
  extractionQuality : Option Rat
  isStaged : Bool
  scope : Scope
  publishedFrom : Option String
  shareOrigin : Option ShareOrigin
  graphProjectedAt : Option Nat
  deriving DecidableEq

structure RelationRow where
  sourceId : String
  relationType : String
  evidenceType : EvidenceType
  evidenceId : String
  userId : String
  deriving DecidableEq

structure EdgeRow where
  id : String
  userId : String
  bank : String
  srcEntityId : String
  dstEntityId : String
  relationType : String
  deriving DecidableEq

structure SessionRow where
  sessionId : String
  entityIds : List String
  userId : String
  scope : Scope
  publishedFrom : Option String
  deriving DecidableEq

/-- A row of `notes`, `audio_memos` or `signals`, as far as projections go. -/
structure ProjectionRow where
  pk : String
  userId : String
  scope : Scope
  publishedFrom : Option String
  deriving DecidableEq

structure ReviewRow where
  candidateAId : String
  candidateBId : String
  reason : String
  userId : String
  scope : Scope
  deriving DecidableEq

structure TombstoneRow where
  userId : String
  documentId : Nat
  filePath : String
  chunkCount : Nat
  qdrantDeleted : Bool
  graphDeleted : Bool
  qdrantEntitiesDeleted : Bool
  orphanEntityIds : List String
  errors : List String
  resolved : Bool
  deriving DecidableEq

structure AuditRow where
  actionName : String
  connector : String
  mode : String
  inputSummary : String
  /-- The fields of the JSON object. -/
  resultSummary : List (String × Option String)
  userId : String
  deriving DecidableEq

inductive JobPayload where
  | shareDocument (documentId : Nat)
  | unshareDocument (documentId : Nat)
  | ingestUpload (storedPath : String) (force : Bool)
  | ingestWatchFile (path : String) (force : Bool)
  | ingestFolder (path : String)
  deriving DecidableEq

inductive JobStatus where
  | pending | running | done | dead
  deriving DecidableEq

inductive Stage where
  | queued | extracting | chunking | embedding | graph | projecting | partial_ | done | failed
  deriving DecidableEq

structure JobRow where
  id : Nat
  userId : String
  payload : JobPayload
  status : JobStatus
  runAfter : Nat
  attempt : Nat
  error : Option String
  startedAt : Option Nat
  finishedAt : Option Nat
  workerId : Option String
  progressStage : Option Stage
  progressPct : Option Nat
  progressMessage : Option String
  deriving DecidableEq

structure Db where
  fileIndex : List FileRow
  fileIndexSeq : Nat
  entities : List EntityRow
  entityRelations : List RelationRow
  entityEdges : List EdgeRow
  sessions : List SessionRow
  notes : List ProjectionRow
  audioMemos : List ProjectionRow
  signals : List ProjectionRow
  reviewQueue : List ReviewRow
  purgedDocuments : List TombstoneRow
  auditLog : List AuditRow
  userBatchJobs : List JobRow
  userBatchJobsSeq : Nat
  deriving DecidableEq

def Db.empty : Db :=
  { fileIndex := [], fileIndexSeq := 1, entities := [], entityRelations := [], entityEdges := [],
    sessions := [], notes := [], audioMemos := [], signals := [], reviewQueue := [],
    purgedDocuments := [], auditLog := [], userBatchJobs := [], userBatchJobsSeq := 1 }

/-! ## The vector store -/

/-- A point of the `documents` collection; absent payload keys are `none`. -/
structure DocPoint where
  id : String
  vector : Option Embedding
  filePath : String
  chunkIndex : Option Int
  text : Option String
  fileType : Option String
  userId : String
  scope : Option Scope
  publishedFrom : Option Nat
  sectionHeader : Option String
  deriving DecidableEq

/-- A point of the `entities` collection; absent payload keys are `none`. -/
structure EntPoint where
  id : String
  vector : Embedding
  entityId : String
  name : String
  entityType : Option String
  aliases : Option (List String)
  contextTags : Option (List String)
  userId : String
  scope : Option Scope
  publishedFrom : Option String
  deriving DecidableEq

structure Store where
  db : Db
  /-- What a rollback restores: the tables as they were when the transaction began. -/
  openTxn : Option Db
  documents : List DocPoint
  entityPoints : List EntPoint
  /-- Held advisory locks: key and the session that holds it. -/
  locks : List (Nat × Nat)
  now : Nat
  uuidsDrawn : Nat
  deriving DecidableEq

def Store.empty : Store :=
  { db := .empty, openTxn := none, documents := [], entityPoints := [], locks := [], now := 0,
    uuidsDrawn := 0 }

/-- What the services take from outside this repository: hashing and random ids, the embedder,
the tokenizer-driven chunker, the injection scanner, and configuration. -/
structure Env where
  uuid5 : String → String
  uuid4 : Nat → String
  embed : String → Embedding
  graphMode : GraphMode
  lower : String → String
  /-- The extensions that have an extractor. -/
  extractors : List String
  chunkText : String → List String
  sectionHeaders : String → List String → List (Option String)
  /-- `none` when the chunk is blocked for a high-severity hit. -/
  sanitise : String → Option String
  /-- The heuristic score of an entity name. -/
  quality : String → Rat
  qualityLower : Rat
  qualityUpper : Rat
  promoteOnMentionCount : Nat
  /-- An error text without paths; `none` when nothing is left of it. -/
  sanitizeError : String → Option String
  /-- `repr(exc)`. -/
  reprError : PyErr → String
  /-- `str(exc)`. -/
  strError : PyErr → String
  /-- A graph store is configured. -/
  hasGraphStore : Bool
  perUserMaxConcurrent : Nat
  maxAttempts : Nat

/-- Identities and constants, for runs on fixed inputs. -/
def Env.plain (graphMode : GraphMode) : Env :=
  { uuid5 := id, uuid4 := fun n => toString n, embed := fun _ => [], graphMode := graphMode,
    lower := id, extractors := [".txt"], chunkText := fun s => [s], sectionHeaders := fun _ _ => [], sanitise := some,
    quality := fun _ => 1, qualityLower := 0, qualityUpper := 0, promoteOnMentionCount := 3,
    sanitizeError := some, reprError := fun _ => "error", strError := fun _ => "error", hasGraphStore := false,
    perUserMaxConcurrent := 2, maxAttempts := 3 }

abbrev M (α : Type) := Prog Store PyErr α

/-! ## Statements -/

/-- A `SELECT`. -/
def select {α : Type} (f : Db → α) : M α := Prog.query .database fun s => f s.db

/-- A statement that changes tables and replies, like `DELETE ... RETURNING`. -/
def statement {α : Type} (f : Db → α × Db) : M α :=
  Prog.act .database fun s => ((f s.db).1, { s with db := (f s.db).2 })

/-- A statement whose constraints may refuse it; a refused statement changes nothing. -/
def statementE {α : Type} (f : Db → Except PyErr (α × Db)) : M α :=
  Prog.actE .database fun s =>
    match f s.db with
    | .ok (a, db) => (.ok a, { s with db := db })
    | .error e => (.error e, s)

def execute (f : Db → Db) : M Unit := statement fun db => ((), f db)

def scroll (p : DocPoint → Bool) : M (List DocPoint) :=
  Prog.query .vectorStore fun s => s.documents.filter p

def countDocuments (p : DocPoint → Bool) : M Nat :=
  Prog.query .vectorStore fun s => s.documents.countP p

def upsertDocument (pt : DocPoint) : M Unit :=
  Prog.act .vectorStore fun s => ((), { s with documents := Table.upsert DocPoint.id pt s.documents })

def deleteDocuments (p : DocPoint → Bool) : M Unit :=
  Prog.act .vectorStore fun s => ((), { s with documents := Table.deleteWhere p s.documents })

def upsertEntityPoint (pt : EntPoint) : M Unit :=
  Prog.act .vectorStore fun s =>
    ((), { s with entityPoints := Table.upsert EntPoint.id pt s.entityPoints })

def deleteEntityPoints (p : EntPoint → Bool) : M Unit :=
  Prog.act .vectorStore fun s => ((), { s with entityPoints := Table.deleteWhere p s.entityPoints })

/-- `embedder.embed(text)`. -/
def embedText (env : Env) (text : String) : M Embedding :=
  Prog.query .embedder fun _ => env.embed text

/-- `str(uuid.uuid4())`. -/
def freshUuid (env : Env) : M String :=
  Prog.act .database fun s => (env.uuid4 s.uuidsDrawn, { s with uuidsDrawn := s.uuidsDrawn + 1 })

/-! ## Transactions on the process-wide connection -/

def nestedTransaction : PyErr :=
  .runtime "PostgresStore.transaction(): nested transactions not supported"

def beginTxn : M Unit :=
  Prog.actE .database fun s =>
    match s.openTxn with
    | some _ => (.error nestedTransaction, s)
    | none => (.ok (), { s with openTxn := some s.db })

def commitTxn : M Unit := Prog.act .database fun s => ((), { s with openTxn := none })

def rollbackTxn : M Unit :=
  Prog.act .database fun s => ((), { s with db := s.openTxn.getD s.db, openTxn := none })

/-- `with ms.transaction(): body`. -/
def transaction {α : Type} (body : M α) : M α := do
  beginTxn
  match ← (do let a ← body; commitTxn; pure a : M α).attempt with
  | .ok a => pure a
  | .error e => do
    let _ ← rollbackTxn.attempt
    .raise e

end Lumogis
