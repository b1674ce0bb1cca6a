import Lumogis.Entities
import Lumogis.FileSharing

/-!
# Ingest

The ingest pipeline of a file: clear the path's chunks, extract, chunk, sanitise, embed and write
them again, update the `file_index` row, and store the entities found in the text.

The batch handlers `ingest_upload` and `ingest_watch_file` then mirror the chunks anew if the
document is shared (`reproject_shared_on_reingest`). The folder walk and the inbox go through
`_ingest_file_safe`, which does not.
-/

namespace Lumogis

open Prog

/-- What is on disk under a path when it is ingested. -/
structure SourceFile where
  path : String
  ext : String
  hash : String
  /-- What the extractor of the extension makes of the file. -/
  text : Except PyErr String
  /-- What the model extracts from the text. -/
  entities : List ExtractedEntity

structure IngestResult where
  filePath : String
  chunkCount : Nat
  skipped : Bool
  removedDocumentEntityIds : List String

def documentChunkPointId (env : Env) (userId filePath : String) (chunkIndex : Nat) : String :=
  env.uuid5 (userId ++ "::" ++ filePath ++ "::chunk-" ++ toString chunkIndex)

def DocPoint.hasId (id : String) (pt : DocPoint) : Bool := pt.id == id

/-- A point deleted by its id; a failure is logged only. -/
def deleteChunkPoint (env : Env) (userId filePath : String) (i : Nat) : M Unit := do
  let _ ← (deleteDocuments (DocPoint.hasId (documentChunkPointId env userId filePath i))).attempt
  pure ()

/-- Clears the path: every point with the owner and the path, whatever its scope, and then the
ids of the chunks the row counts, for points without a path. -/
def deleteDocumentVectorsForPath (env : Env) (userId filePath : String) (chunkCount : Nat) :
    M Unit := do
  deleteDocuments (DocPoint.ofSource userId filePath)
  forEach (deleteChunkPoint env userId filePath) (List.range chunkCount)

/-! ## Chunks -/

/-- One pass of the sanitising loop; carries the accepted chunks and the number of blocked ones. -/
def sanitiseChunk (env : Env) (userId filePath : String) (n : List (Nat × String) × Nat)
    (chunk : String × Nat) : M (List (Nat × String) × Nat) :=
  match env.sanitise chunk.1 with
  | none => do
    deleteChunkPoint env userId filePath chunk.2
    pure (n.1, n.2 + 1)
  | some text => pure (n.1 ++ [(chunk.2, text)], n.2)

def embedBatch (env : Env) (texts : List String) : M (List Embedding) :=
  query .embedder fun _ => texts.map env.embed

def chunkPoint (env : Env) (userId filePath fileType : String) (headers : List (Option String))
    (ix : Nat) (text : String) (vector : Embedding) : DocPoint :=
  { id := documentChunkPointId env userId filePath ix
    vector := some vector
    filePath := filePath
    chunkIndex := some ix
    text := some text
    fileType := some fileType
    userId := userId
    scope := some .personal
    publishedFrom := none
    sectionHeader := if headers[ix]? = some (some "") then none else (headers[ix]?).join }

/-- Counts the chunks written and the chunks blocked. -/
def ingestChunkedText (env : Env) (userId filePath fileType text : String)
    (chunks : List String) : M (Nat × Nat) := do
  let headers := env.sectionHeaders text chunks
  let rows ← foldM (sanitiseChunk env userId filePath) ([], 0) chunks.zipIdx
  let vectors ← (if rows.1 = [] then pure [] else embedBatch env (rows.1.map Prod.snd))
  forEach (fun r => upsertDocument (chunkPoint env userId filePath fileType headers r.1.1 r.1.2 r.2))
    (rows.1.zip vectors)
  pure ((rows.1.zip vectors).length, rows.2)

/-! ## The `file_index` row -/

/-- `INSERT INTO file_index ... ON CONFLICT (user_id, file_path) WHERE published_from IS NULL DO
UPDATE SET file_hash, chunk_count`. The sequence moves on also when the row exists. -/
def Db.upsertFile (filePath fileHash fileType : String) (chunkCount : Nat) (userId : String)
    (db : Db) : Except PyErr (Unit × Db) :=
  let source (r : FileRow) : Bool :=
    r.userId == userId && r.filePath == filePath && r.publishedFrom == none
  if db.fileIndex.any source then
    .ok ((), { db with
      fileIndex := Table.updateWhere source
        (fun r => { r with fileHash := fileHash, chunkCount := chunkCount }) db.fileIndex
      fileIndexSeq := db.fileIndexSeq + 1 })
  else if db.fileIndex.any fun r => r.id == db.fileIndexSeq then
    .error .database
  else
    .ok ((), { db with
      fileIndex := db.fileIndex ++ [
        { id := db.fileIndexSeq
          filePath := filePath
          fileHash := fileHash
          fileType := fileType
          chunkCount := chunkCount
          ocrUsed := false
          userId := userId
          scope := .personal
          publishedFrom := none }]
      fileIndexSeq := db.fileIndexSeq + 1 })

def updateFileRow (userId filePath : String) (f : FileRow → FileRow) : M Unit :=
  execute fun db => { db with
    fileIndex := Table.updateWhere (FileRow.isPersonalAt userId filePath) f db.fileIndex }

/-! ## Entities -/

/-- Never raises: a failed extraction finds nothing. -/
def extractEntities (file : SourceFile) : M (List ExtractedEntity) := do
  match ← (query .extractor fun _ => file.entities : M (List ExtractedEntity)).attempt with
  | .ok entities => pure entities
  | .error _ => pure []

/-- Stores what the text mentions and drops the relations to what it no longer mentions; replies
with the entities that were dropped. -/
def emitDocumentEntities (env : Env) (file : SourceFile) (userId : String) : M (List String) :=
  tryCatch (do
    let entities ← extractEntities file
    let ids ← storeEntities env entities file.path .document userId
    pruneStaleDocumentEntityRelations file.path userId ids) fun _ => pure []

/-! ## The pipeline -/

/-- `on_progress`, when the caller passed one. -/
def reportProgress (onProgress : Option (Stage → M Unit)) (stage : Stage) : M Unit :=
  match onProgress with
  | none => pure ()
  | some report => report stage

/-- What follows the chunks: the row, unless a chunk was blocked and there is none yet, and then
the entities. A blocked chunk keeps the old hash, so that the file is ingested again. -/
def finishIngest (env : Env) (file : SourceFile) (userId : String) (existing : Option FileRow)
    (onProgress : Option (Stage → M Unit)) (n : Nat × Nat) : M IngestResult := do
  (if 0 < n.2 then
    (if existing.isSome then
      updateFileRow userId file.path fun r => { r with chunkCount := n.1, fileType := file.ext }
    else
      pure ())
  else
    statementE (Db.upsertFile file.path file.hash file.ext n.1 userId))
  (if graphFeatureEnabled env then reportProgress onProgress .graph else pure ())
  let removed ← emitDocumentEntities env file userId
  pure { filePath := file.path, chunkCount := n.1, skipped := false,
         removedDocumentEntityIds := removed }

def ingestSkipped (file : SourceFile) : IngestResult :=
  { filePath := file.path, chunkCount := 0, skipped := true, removedDocumentEntityIds := [] }

def emptyIngest (file : SourceFile) : IngestResult :=
  { filePath := file.path, chunkCount := 0, skipped := false, removedDocumentEntityIds := [] }

/-- The part of `ingest_file` after the checks: clear the path, then build it up again. -/
def ingestChanged (env : Env) (file : SourceFile) (userId : String) (existing : Option FileRow)
    (onProgress : Option (Stage → M Unit)) : M IngestResult := do
  deleteDocumentVectorsForPath env userId file.path ((existing.map FileRow.chunkCount).getD 0)
  reportProgress onProgress .extracting
  match file.text with
  | .error e => .raise e
  | .ok text => do
    reportProgress onProgress .chunking
    if env.chunkText text = [] then
      match existing with
      | some _ => do
        updateFileRow userId file.path fun r =>
          { r with chunkCount := 0, fileHash := file.hash, fileType := file.ext }
        pure (emptyIngest file)
      | none => pure (ingestSkipped file)
    else do
      reportProgress onProgress .embedding
      let n ← ingestChunkedText env userId file.path file.ext text (env.chunkText text)
      finishIngest env file userId existing onProgress n

/-- The row that the hash is compared with. -/
def ingestUnchanged (file : SourceFile) (force : Bool) (existing : Option FileRow) : Bool :=
  !force && existing.any fun r => r.fileHash == file.hash

def ingestFile (env : Env) (file : SourceFile) (userId : String) (force : Bool)
    (onProgress : Option (Stage → M Unit)) : M IngestResult :=
  if userId = "" then
    .raise (.type "ingest_file: user_id (keyword-only) is required")
  else if env.extractors.contains file.ext then do
    let existing ← select fun db => db.fileIndex.find? (FileRow.isPersonalAt userId file.path)
    if ingestUnchanged file force existing then
      pure (ingestSkipped file)
    else
      ingestChanged env file userId existing onProgress
  else
    pure (ingestSkipped file)

/-! ## Entry points -/

/-- The body of the batch handlers `ingest_upload` and `ingest_watch_file`. -/
def ingestAndReproject (env : Env) (sess : Nat) (file : SourceFile) (userId : String)
    (force : Bool) (jobId : Nat) : M Unit := do
  let result ← ingestFile env file userId force
    (some fun stage => updateIngestJobProgress jobId userId stage none)
  if result.skipped then
    pure ()
  else
    reprojectSharedOnReingest env sess userId result.filePath result.removedDocumentEntityIds

def handleIngestUpload := ingestAndReproject

def handleIngestWatchFile := ingestAndReproject

/-- The watcher, the poller and the folder walk. `admitted`: the path is there, inside the root, of
an allowed size and no longer growing. A file that fails is left in place or quarantined. -/
def ingestFileSafe (env : Env) (file : SourceFile) (admitted : Bool) (userId : String) :
    M (Option IngestResult) :=
  if admitted then do
    match ← (ingestFile env file userId false none).attempt with
    | .ok result => pure (some result)
    | .error _ => pure none
  else
    pure none

structure IngestStats where
  totalFiles : Nat
  ingested : Nat
  skipped : Nat
  errors : Nat

/-- One file of the walk. -/
def ingestWalked (env : Env) (userId : String) (n : IngestStats) (f : SourceFile × Bool) :
    M IngestStats :=
  if env.extractors.contains f.1.ext then do
    match ← (ingestFileSafe env f.1 f.2 userId).attempt with
    | .error _ => pure { n with totalFiles := n.totalFiles + 1, errors := n.errors + 1 }
    | .ok (some result) =>
      if result.skipped then
        pure { n with totalFiles := n.totalFiles + 1, skipped := n.skipped + 1 }
      else
        pure { n with totalFiles := n.totalFiles + 1, ingested := n.ingested + 1 }
    | .ok none => pure { n with totalFiles := n.totalFiles + 1, skipped := n.skipped + 1 }
  else
    pure n

/-- The files of the walk, each with whether it is admitted when its turn comes. -/
def ingestFolder (env : Env) (files : List (SourceFile × Bool)) (userId : String) : M IngestStats :=
  if userId = "" then
    .raise (.type "ingest_folder: user_id (keyword-only) is required")
  else
    foldM (ingestWalked env userId) { totalFiles := 0, ingested := 0, skipped := 0, errors := 0 } files

end Lumogis
