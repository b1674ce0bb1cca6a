import Lumogis.Lib.Labelled
import Mathlib.Logic.Function.Basic

/-!
# OllamaPullJobs

The table of model pulls: `create_job` purges old rows, fails stale ones, looks for an active one and
inserts, each in a statement of its own; a worker starts the row, reports its progress and finishes it; the
process may crash at any time. Workers and calls of `create_job` take their steps in any order.
-/

namespace Lumogis.OllamaPulls

open Labelled

inductive PullStatus where
  | pending | running | succeeded | failed
  deriving DecidableEq

def PullStatus.IsActive (status : PullStatus) : Prop := status = .pending ∨ status = .running

instance (status : PullStatus) : Decidable status.IsActive := inferInstanceAs (Decidable (_ ∨ _))

/-- A row of `ollama_pull_jobs`. Times are in seconds. -/
structure PullJob where
  jobId : Nat
  modelName : String
  status : PullStatus
  progressPct : Option Int
  statusMessage : Option String
  errorMessage : Option String
  qdrantInitWarning : Option String
  createdAt : Nat
  startedAt : Option Nat
  finishedAt : Option Nat

/-- The defaults of the table. -/
def PullJob.new (jobId now : Nat) (modelName : String) : PullJob where
  jobId := jobId
  modelName := modelName
  status := .pending
  progressPct := none
  statusMessage := none
  errorMessage := none
  qdrantInitWarning := none
  createdAt := now
  startedAt := none
  finishedAt := none

/-! ## The statements -/

/-- `_purge_terminal_rows`. -/
def purgeTerminalRows (retentionHours now : Nat) (rows : List PullJob) : List PullJob :=
  rows.filter fun r =>
    !(!decide r.status.IsActive && r.finishedAt.any fun t => t + retentionHours * 3600 < now)

/-- Started more than two hours ago. -/
def PullJob.IsStale (now : Nat) (r : PullJob) : Bool :=
  r.status = .running && r.startedAt.any fun t => t + 7200 < now

/-- `_mark_stale_running_failed`. -/
def markStaleRunningFailed (now : Nat) (rows : List PullJob) : List PullJob :=
  rows.map fun r =>
    if r.IsStale now then
      { r with
        status := .failed
        errorMessage := some "stale (orchestrator restart?)"
        finishedAt := some now }
    else r

/-- `assert_no_running_job`. -/
def assertNoRunningJob (rows : List PullJob) : Bool := rows.all fun r => !decide r.status.IsActive

/-- An `UPDATE` of the row of a job. -/
def updateJob (jobId : Nat) (f : PullJob → PullJob) (rows : List PullJob) : List PullJob :=
  rows.map fun r => if r.jobId = jobId then f r else r

/-- `_set_running`. -/
def setRunning (jobId now : Nat) : List PullJob → List PullJob :=
  updateJob jobId fun r => { r with status := .running, startedAt := some now }

/-- `(text or "")[:n] or None`. -/
def clipped (n : Nat) (text : Option String) : Option String :=
  match (text.getD "").toList.take n with
  | [] => none
  | cs => some (String.ofList cs)

/-- `_update_progress`. -/
def updateProgress (jobId : Nat) (progressPct : Option Int) (statusMessage : Option String) :
    List PullJob → List PullJob :=
  updateJob jobId fun r => { r with progressPct, statusMessage := clipped 500 statusMessage }

/-- `_finish_job`. -/
def finishJob (jobId now : Nat) (status : PullStatus) (errorMessage qdrantInitWarning : Option String) :
    List PullJob → List PullJob :=
  updateJob jobId fun r =>
    { r with status, errorMessage := clipped 1000 errorMessage, qdrantInitWarning, finishedAt := some now }

/-! ## Steps -/

/-- How far a call of `create_job` is. -/
inductive CreatePhase where
  | idle | purged | reaped | checked
  deriving DecidableEq

/-- How far the worker of a job is: it is scheduled, has read the row, has started it, or has caught an
exception. -/
inductive PullWorkerPhase where
  | gone
  | scheduled
  | fetched
  | pulling
  | failing (message : String)
  deriving DecidableEq

structure PullState where
  now : Nat
  rows : List PullJob
  /-- The next `gen_random_uuid()`. -/
  nextId : Nat
  creates : Nat → CreatePhase
  workers : Nat → PullWorkerPhase

/-- `lands` is false for a statement that raises; then it changes nothing. -/
inductive PullLabel where
  | tick (seconds : Nat)
  | purge (c : Nat) (lands : Bool)
  | reap (c : Nat) (lands : Bool)
  | check (c : Nat) (lands : Bool)
  /-- The insert, and the response that schedules the worker. -/
  | insert (c : Nat) (modelName : String) (lands : Bool)
  | fetch (j : Nat) (lands : Bool)
  | start (j : Nat) (lands : Bool)
  | progress (j : Nat) (progressPct : Option Int) (statusMessage : Option String) (lands : Bool)
  /-- What `iter_pull_progress` or `finalize_ollama_pull` raises. -/
  | raise (j : Nat) (message : String)
  | succeed (j : Nat) (qdrantInitWarning : Option String) (lands : Bool)
  | fail (j : Nat) (lands : Bool)
  | crash

namespace PullState

def setCreate (s : PullState) (c : Nat) (phase : CreatePhase) : PullState :=
  { s with creates := Function.update s.creates c phase }

def setWorker (s : PullState) (j : Nat) (phase : PullWorkerPhase) : PullState :=
  { s with workers := Function.update s.workers j phase }

def mapRows (s : PullState) (f : List PullJob → List PullJob) : PullState := { s with rows := f s.rows }

/-- A statement of `create_job` and the next one; when it raises, the call is over. -/
def createStep (s : PullState) (c : Nat) (phase next : CreatePhase) (lands : Bool)
    (f : List PullJob → List PullJob) : Option PullState :=
  if s.creates c ≠ phase then none
  else if lands then some ((s.mapRows f).setCreate c next) else some (s.setCreate c .idle)

end PullState

/-- The failure of a statement in the `try` of `run_pull_job`. -/
def statementError : String := "database error"

def pullStep (retentionHours : Nat) : PullLabel → PullState → Option PullState
  | .tick seconds, s => some { s with now := s.now + seconds }
  | .purge c lands, s => s.createStep c .idle .purged lands (purgeTerminalRows retentionHours s.now)
  | .reap c lands, s => s.createStep c .purged .reaped lands (markStaleRunningFailed s.now)
  | .check c lands, s =>
    s.createStep c .reaped (if assertNoRunningJob s.rows then .checked else .idle) lands id
  | .insert c modelName lands, s =>
    if s.creates c ≠ .checked then none
    else if lands then
      some { (s.mapRows fun rows => rows ++ [PullJob.new s.nextId s.now modelName]).setCreate c .idle with
        nextId := s.nextId + 1
        workers := Function.update s.workers s.nextId .scheduled }
    else some (s.setCreate c .idle)
  | .fetch j lands, s =>
    if s.workers j ≠ .scheduled then none
    else some (s.setWorker j (if lands && s.rows.any (fun r => r.jobId = j) then .fetched else .gone))
  | .start j lands, s =>
    if s.workers j ≠ .fetched then none
    else if lands then some ((s.mapRows (setRunning j s.now)).setWorker j .pulling) else some (s.setWorker j .gone)
  | .progress j progressPct statusMessage lands, s =>
    if s.workers j ≠ .pulling then none
    else if lands then some (s.mapRows (updateProgress j progressPct statusMessage))
    else some (s.setWorker j (.failing statementError))
  | .raise j message, s =>
    if s.workers j ≠ .pulling then none else some (s.setWorker j (.failing message))
  | .succeed j qdrantInitWarning lands, s =>
    if s.workers j ≠ .pulling then none
    else if lands then
      some ((s.mapRows (finishJob j s.now .succeeded none qdrantInitWarning)).setWorker j .gone)
    else some (s.setWorker j (.failing statementError))
  | .fail j lands, s =>
    match s.workers j with
    | .failing message =>
      some ((s.mapRows fun rows => if lands then finishJob j s.now .failed (some message) none rows else rows).setWorker j .gone)
    | _ => none
  | .crash, s => some { s with creates := fun _ => .idle, workers := fun _ => .gone }

/-- An empty table. -/
def PullState.start : PullState where
  now := 0
  rows := []
  nextId := 0
  creates := fun _ => .idle
  workers := fun _ => .gone

end Lumogis.OllamaPulls
