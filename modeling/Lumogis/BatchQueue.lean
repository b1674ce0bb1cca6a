import Lumogis.FileSharing
import Mathlib.Algebra.Group.Nat.Defs
import Mathlib.Data.List.MinMax

/-!
# BatchQueue

The durable job queue in `user_batch_jobs`. A worker claims the eligible job of lowest id, runs
its handler, and marks the job done; a handler that raises sends the job back to `pending`, not to
be claimed before its back-off is over, until its attempts are used up.
-/

namespace Lumogis

open Prog

structure ClaimedJob where
  id : Nat
  userId : String
  payload : JobPayload
  attempt : Nat
  deriving DecidableEq

def JobRow.enqueued (id now : Nat) (userId : String) (payload : JobPayload) : JobRow :=
  { id := id, userId := userId, payload := payload, status := .pending, runAfter := now,
    attempt := 0, error := none, startedAt := none, finishedAt := none, workerId := none,
    progressStage := none, progressPct := none, progressMessage := none }

/-- `enqueue` with no `run_after`: the job may run at once. -/
def enqueue (userId : String) (payload : JobPayload) : M Nat :=
  act .database fun s =>
    let job := JobRow.enqueued s.db.userBatchJobsSeq s.now userId payload
    (job.id, { s with
      db := { s.db with
        userBatchJobs := s.db.userBatchJobs ++ [job]
        userBatchJobsSeq := s.db.userBatchJobsSeq + 1 } })

def Db.runningOf (db : Db) (userId : String) : Nat :=
  db.userBatchJobs.countP fun r => r.userId == userId && r.status == .running

def JobRow.eligible (env : Env) (db : Db) (now : Nat) (j : JobRow) : Bool :=
  j.status == .pending && decide (j.runAfter ≤ now) &&
    decide (db.runningOf j.userId < env.perUserMaxConcurrent)

def Store.nextEligible (env : Env) (s : Store) : Option JobRow :=
  (s.db.userBatchJobs.filter (JobRow.eligible env s.db s.now)).argmin JobRow.id

/-- `UPDATE user_batch_jobs SET f WHERE id = jobId`. -/
def Store.updateJob (jobId : Nat) (f : JobRow → JobRow) (s : Store) : Store :=
  { s with
    db := { s.db with
      userBatchJobs := Table.updateWhere (fun j => j.id == jobId) f s.db.userBatchJobs } }

def JobRow.claimed (now : Nat) (workerId : String) (j : JobRow) : JobRow :=
  { j with status := .running, startedAt := some now, workerId := some workerId }

def claimNext (env : Env) (workerId : String) : M (Option ClaimedJob) :=
  act .database fun s =>
    match s.nextEligible env with
    | none => (none, s)
    | some j =>
      (some { id := j.id, userId := j.userId, payload := j.payload, attempt := j.attempt },
        s.updateJob j.id (JobRow.claimed s.now workerId))

def complete (jobId : Nat) : M Unit :=
  act .database fun s =>
    ((), s.updateJob jobId fun j => { j with status := .done, finishedAt := some s.now })

/-- The row after a failed attempt. Times are in minutes. -/
def JobRow.failed (now : Nat) (error : String) (maxAttempts backoffMinutes : Nat) (j : JobRow) :
    JobRow :=
  let again := decide (j.attempt + 1 < maxAttempts)
  { j with
    attempt := j.attempt + 1
    error := some (String.ofList (error.toList.take 1000))
    status := if again then .pending else .dead
    finishedAt := if again then none else some now
    runAfter := if again then now + backoffMinutes else j.runAfter
    workerId := none
    startedAt := none }

def JobRow.isRunning (jobId : Nat) (j : JobRow) : Bool := j.id == jobId && j.status == .running

/-- The kinds that report their progress. -/
def JobPayload.reportsProgress : JobPayload → Bool
  | .shareDocument _ => true
  | .unshareDocument _ => true
  | .ingestUpload _ _ => true
  | .ingestWatchFile _ _ => true
  | .ingestFolder _ => false

def maybeHandleIngestJobFailure (env : Env) (j : JobRow) (newAttempt maxAttempts : Nat)
    (error : String) : M Unit :=
  if !j.payload.reportsProgress then
    pure ()
  else if newAttempt < maxAttempts then
    updateIngestJobProgress j.id j.userId .queued none
  else
    updateIngestJobProgress j.id j.userId .failed
      (some ((env.sanitizeError error).getD "Ingest failed"))

def fail (env : Env) (jobId : Nat) (error : String) (maxAttempts : Nat) : M Unit := do
  match ← select fun db => db.userBatchJobs.find? (JobRow.isRunning jobId) with
  | none => pure ()
  | some j => do
    act .database fun s =>
      ((), { s with
        db := { s.db with
          userBatchJobs := Table.updateWhere (JobRow.isRunning jobId)
            (JobRow.failed s.now error maxAttempts (2 ^ (j.attempt + 1))) s.db.userBatchJobs } })
    maybeHandleIngestJobFailure env j (j.attempt + 1) maxAttempts error

/-- The two statements of `fail`. -/
def failRead (jobId : Nat) : M (Option JobRow) :=
  select fun db => db.userBatchJobs.find? (JobRow.isRunning jobId)

def failWrite (jobId : Nat) (error : String) (maxAttempts attempt : Nat) : M Unit :=
  act .database fun s =>
    ((), { s with
      db := { s.db with
        userBatchJobs := Table.updateWhere (JobRow.isRunning jobId)
          (JobRow.failed s.now error maxAttempts (2 ^ (attempt + 1))) s.db.userBatchJobs } })

theorem fail_eq (env : Env) (jobId : Nat) (error : String) (maxAttempts : Nat) :
    fail env jobId error maxAttempts = (do
      match ← failRead jobId with
      | none => pure ()
      | some j => do
        failWrite jobId error maxAttempts j.attempt
        maybeHandleIngestJobFailure env j (j.attempt + 1) maxAttempts error) := rfl

/-- `running` for longer than `stuckAfterSeconds`; a row without `started_at` is not. -/
def JobRow.stuck (now stuckAfterSeconds : Nat) (j : JobRow) : Bool :=
  j.status == .running && j.startedAt.any fun t => decide (t * 60 + stuckAfterSeconds < now * 60)

def JobRow.requeued (j : JobRow) : JobRow :=
  { j with status := .pending, workerId := none, startedAt := none, attempt := j.attempt + 1 }

def resetStuckPending (stuckAfterSeconds maxAttempts : Nat) : M (List Nat) :=
  act .database fun s =>
    let hit (j : JobRow) := j.stuck s.now stuckAfterSeconds && decide (j.attempt < maxAttempts)
    ((s.db.userBatchJobs.filter hit).map JobRow.id, { s with
      db := { s.db with
        userBatchJobs := Table.updateWhere hit JobRow.requeued s.db.userBatchJobs } })

def resetStuckDead (stuckAfterSeconds maxAttempts : Nat) : M (List Nat) :=
  act .database fun s =>
    let hit (j : JobRow) := j.stuck s.now stuckAfterSeconds && decide (maxAttempts ≤ j.attempt)
    ((s.db.userBatchJobs.filter hit).map JobRow.id, { s with
      db := { s.db with
        userBatchJobs := Table.updateWhere hit
          (fun j => { j with status := .dead, finishedAt := some s.now }) s.db.userBatchJobs } })

def resetStuck (stuckAfterSeconds maxAttempts : Nat) : M Nat := do
  let n1 ← resetStuckPending stuckAfterSeconds maxAttempts
  let n2 ← resetStuckDead stuckAfterSeconds maxAttempts
  pure (n1.length + n2.length)

end Lumogis
