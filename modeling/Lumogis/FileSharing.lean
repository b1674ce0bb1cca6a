import Lumogis.EntityCascade
import Lumogis.ShareLock

/-!
# FileSharing

Taking a document's share down (`unproject_file`), keeping it up across a re-ingest
(`reproject_shared_on_reingest`), and the two batch handlers `share_document` and
`unshare_document`.
-/

namespace Lumogis

open Prog

/-- Deletes the shared row, then the shared chunks, then retracts the entities that only this
document justified. Once the row is gone there is nothing to read the owner from, and the call
stops there. -/
def unprojectFile (env : Env) (srcPk : Nat) (targetScope : Scope) : M Nat := do
  let deleted ← statement fun db =>
    (db.fileIndex.find? (FileRow.projects srcPk targetScope),
      db.deleteFiles (FileRow.projects srcPk targetScope))
  match deleted with
  | none => pure 0
  | some row => do
    unprojectFileChunks srcPk row.userId targetScope
    if targetScope = .shared ∧ row.filePath ≠ "" ∧ row.userId ≠ "" then do
      let _ ← retractDocumentEntities env row.filePath row.userId
      pure 1
    else
      pure 1

/-- The owner's personal `file_index` row. -/
def FileRow.isSource (userId : String) (documentId : Nat) (r : FileRow) : Bool :=
  r.id == documentId && r.userId == userId && r.scope == .personal

def FileRow.isPersonalAt (userId filePath : String) (r : FileRow) : Bool :=
  r.userId == userId && r.filePath == filePath && r.scope == .personal

/-- Runs under the lock in `reproject_shared_on_reingest`. -/
def reprojectLocked (env : Env) (src : FileRow) (userId filePath : String)
    (removed : List String) : M Unit := do
  let _ ← retractRemovedEntitiesOnReingest env filePath userId removed
  unprojectFileChunks src.id userId .shared
  let _ ← projectFileChunks env src .shared
  let _ ← cascadeShareDocumentEntities env src userId .shared
  pure ()

/-- Mirrors the chunks anew after a re-ingest of a document that is shared. Whether it is shared
is read before the lock is taken. -/
def reprojectSharedOnReingest (env : Env) (sess : Nat) (userId filePath : String)
    (removed : List String) : M Unit :=
  if userId = "" ∨ filePath = "" then
    pure ()
  else do
    match ← select fun db => db.fileIndex.find? (FileRow.isPersonalAt userId filePath) with
    | none => pure ()
    | some src => do
      let shared ← select fun db =>
        db.fileIndex.any fun r => r.projects src.id .shared && r.userId == userId
      if shared then
        (shareDocumentLock sess src.id (reprojectLocked env src userId filePath removed)).tryCatch
          fun _ => pure ()
      else
        pure ()

/-! ## Progress -/

def Stage.progressPct : Stage → Nat
  | .queued => 0
  | .extracting => 15
  | .chunking => 35
  | .embedding => 60
  | .graph => 85
  | .projecting => 50
  | .partial_ => 100
  | .done => 100
  | .failed => 100

def JobRow.ownedBy (jobId : Nat) (userId : String) (j : JobRow) : Bool :=
  j.id == jobId && j.userId == userId

def updateIngestJobProgress (jobId : Nat) (userId : String) (stage : Stage)
    (statusMessage : Option String) : M Unit :=
  statementE fun db =>
    if db.userBatchJobs.any (JobRow.ownedBy jobId userId) then
      .ok ((), { db with
        userBatchJobs := Table.updateWhere (JobRow.ownedBy jobId userId)
          (fun j => { j with
            progressStage := some stage
            progressPct := some stage.progressPct
            progressMessage := statusMessage })
          db.userBatchJobs })
    else
      .error (.lookup ("ingest job not found: job_id=" ++ toString jobId))

/-! ## Batch handlers -/

def fetchPersonalSource (userId : String) (documentId : Nat) : M (Option FileRow) :=
  select fun db => db.fileIndex.find? (FileRow.isSource userId documentId)

/-- Runs under the lock in `handle_share`; `none` when the source is gone. -/
def shareLocked (env : Env) (userId : String) (documentId jobId : Nat) : M (Option (Nat × Nat)) := do
  match ← fetchPersonalSource userId documentId with
  | none => do
    updateIngestJobProgress jobId userId .done (some "No longer shareable")
    pure none
  | some src => do
    let r ← projectFileWithStatus env src .shared userId
    let ent ← cascadeShareDocumentEntities env src userId .shared
    pure (some (r.2.1 + ent.1, r.2.2 + ent.2))

def handleShare (env : Env) (sess : Nat) (userId : String) (documentId jobId : Nat) : M Unit := do
  match ← fetchPersonalSource userId documentId with
  | none => updateIngestJobProgress jobId userId .done (some "No longer shareable")
  | some _ => do
    updateIngestJobProgress jobId userId .projecting none
    match ← shareDocumentLock sess documentId (shareLocked env userId documentId jobId) with
    | none => pure ()
    | some (projected, failed) =>
      if 0 < failed then
        updateIngestJobProgress jobId userId .partial_ (some ("Shared " ++ toString projected ++
          " of " ++ toString (projected + failed) ++ " sections"))
      else
        updateIngestJobProgress jobId userId .done none

/-- Runs under the lock in `handle_unshare`; `false` when the source is gone. -/
def unshareLocked (env : Env) (userId : String) (documentId jobId : Nat) : M Bool := do
  match ← fetchPersonalSource userId documentId with
  | none => do
    updateIngestJobProgress jobId userId .done (some "No longer shared")
    pure false
  | some _ => do
    let _ ← unprojectFile env documentId .shared
    pure true

def handleUnshare (env : Env) (sess : Nat) (userId : String) (documentId jobId : Nat) : M Unit := do
  match ← fetchPersonalSource userId documentId with
  | none => updateIngestJobProgress jobId userId .done (some "No longer shared")
  | some _ => do
    updateIngestJobProgress jobId userId .projecting none
    let unshared ← shareDocumentLock sess documentId (unshareLocked env userId documentId jobId)
    if unshared then
      updateIngestJobProgress jobId userId .done none
    else
      pure ()

end Lumogis
