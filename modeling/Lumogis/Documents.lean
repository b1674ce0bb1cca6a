import Lumogis.BatchQueue

/-!
# Documents

The owner's requests to share and unshare a document. A request checks the document and enqueues a
job, or falls in with a job of its own kind that is still in flight.
-/

namespace Lumogis

open Prog

inductive ShareKind where
  | share | unshare
  deriving DecidableEq

namespace ShareKind

def payload : ShareKind → Nat → JobPayload
  | .share, d => .shareDocument d
  | .unshare, d => .unshareDocument d

/-- The `share_status` of the response. -/
def direction : ShareKind → String
  | .share => "sharing"
  | .unshare => "unsharing"

end ShareKind

def JobRow.inFlight (j : JobRow) : Bool := j.status == .pending || j.status == .running

/-- A share or unshare job of the user for the document. -/
def JobRow.forDocument (userId : String) (documentId : Nat) (j : JobRow) : Bool :=
  j.userId == userId &&
    (j.payload == .shareDocument documentId || j.payload == .unshareDocument documentId)

/-- The entry of `_fetch_inflight_share_jobs` for the document: its most recent job in flight. A
query that fails counts as no job. -/
def fetchInflightShareJob (userId : String) (documentId : Nat) : M (Option JobRow) :=
  (select fun db => (db.userBatchJobs.filter fun j =>
    j.inFlight && j.forDocument userId documentId).argmax JobRow.id).tryCatch fun _ => pure none

def documentIsShared (userId : String) (documentId : Nat) : M Bool := do
  match ← fetchInflightShareJob userId documentId with
  | some _ => pure true
  | none => select fun db =>
      db.fileIndex.any fun r => r.projects documentId .shared && r.userId == userId

structure ShareQueuedResponse where
  documentId : Nat
  jobId : Nat
  shareStatus : String
  deriving DecidableEq

/-- Enqueues a job, coalescing on an in-flight one of the same kind. -/
def enqueueShareJob (userId : String) (documentId : Nat) (kind : ShareKind) :
    M ShareQueuedResponse := do
  let existing ← fetchInflightShareJob userId documentId
  match existing.filter fun j => j.payload == kind.payload documentId with
  | some j => pure { documentId := documentId, jobId := j.id, shareStatus := kind.direction }
  | none => do
    let jobId ← enqueue userId (kind.payload documentId)
    updateIngestJobProgress jobId userId .queued none
    pure { documentId := documentId, jobId := jobId, shareStatus := kind.direction }

def shareDocument (userId : String) (documentId : Nat) : M ShareQueuedResponse := do
  match ← fetchPersonalSource userId documentId with
  | none => .raise (.documentNotFound documentId)
  | some _ => enqueueShareJob userId documentId .share

def unshareDocument (userId : String) (documentId : Nat) : M ShareQueuedResponse := do
  match ← fetchPersonalSource userId documentId with
  | none => .raise (.documentNotFound documentId)
  | some _ => do
    let shared ← documentIsShared userId documentId
    if shared then
      enqueueShareJob userId documentId .unshare
    else
      .raise (.documentNotShared documentId)

/-- The request of the kind. -/
def ShareKind.request : ShareKind → String → Nat → M ShareQueuedResponse
  | .share => shareDocument
  | .unshare => unshareDocument

end Lumogis
