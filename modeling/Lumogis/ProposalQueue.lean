import Lumogis.Lib.Fault
import Lumogis.Lib.Table
import Mathlib.Algebra.Group.Nat.Defs
import Mathlib.Data.List.MinMax

/-!
# ProposalQueue

Action proposals: the table `action_proposals`, the statements on it, and the request that claims an
approved proposal, executes it, and records how that went. A failed execution sends the proposal
back to `approved`, not to be claimed before its back-off is over, until its attempts are used up. A
claim that goes stale makes the proposal `dead`, never `approved` again.

Times are in seconds. `execute` is what runs the action.
-/

namespace Lumogis

open Prog

inductive ProposalStatus where
  | pending | approved | claimed | executing | done | rejected | archived | dead
  deriving DecidableEq

def ProposalStatus.text : ProposalStatus → String
  | .pending => "pending"
  | .approved => "approved"
  | .claimed => "claimed"
  | .executing => "executing"
  | .done => "done"
  | .rejected => "rejected"
  | .archived => "archived"
  | .dead => "dead"

structure ProposalRow where
  id : Nat
  userId : String
  actionName : String
  payload : String
  status : ProposalStatus
  attempt : Nat
  runAfter : Nat
  claimedAt : Option Nat
  claimedBy : Option String
  createdAt : Nat
  executedAt : Option Nat
  finishedAt : Option Nat
  error : Option String

structure ProposalStore where
  proposals : List ProposalRow
  proposalsSeq : Nat
  now : Nat

inductive ProposalErr where
  /-- psycopg2's `OperationalError`. -/
  | operational (message : String)
  | other (repr : String)
  | http (status : Nat) (detail : List (String × String))

structure ActionResult where
  success : Bool
  output : String
  error : Option String
  reverseToken : Option String

structure ActionSpec where
  name : String
  actionType : String

abbrev PM (α : Type) := Prog ProposalStore ProposalErr α

structure ProposalEnv where
  getAction : String → Option ActionSpec
  /-- `actions.executor.execute(name, payload, user_id)`. -/
  execute : String → String → String → PM ActionResult
  reprError : ProposalErr → String
  claimStuckAfterSeconds : Nat
  maxAttempts : Int

def lostConnection : ProposalErr := .operational "server closed the connection unexpectedly"

structure ClaimedProposal where
  id : Nat
  userId : String
  actionName : String
  payload : String
  attempt : Nat
  createdAt : Nat
  status : ProposalStatus

/-! ## Statements -/

def ProposalStore.updateProposals (p : ProposalRow → Bool) (f : ProposalRow → ProposalRow)
    (s : ProposalStore) : ProposalStore :=
  { s with proposals := Table.updateWhere p f s.proposals }

def ProposalRow.executingFor (now : Nat) (workerId : String) (r : ProposalRow) : ProposalRow :=
  { r with status := .executing, claimedAt := some now, claimedBy := some workerId }

def ProposalRow.asClaimed (r : ProposalRow) : ClaimedProposal :=
  { id := r.id, userId := r.userId, actionName := r.actionName, payload := r.payload,
    attempt := r.attempt, createdAt := r.createdAt, status := r.status }

def ProposalRow.eligible (now : Nat) (r : ProposalRow) : Bool :=
  r.status == .approved && r.claimedAt.isNone && decide (r.runAfter ≤ now)

namespace ProposalQueue

def claimNext (workerId : String) : PM (Option ClaimedProposal) :=
  act lostConnection fun s =>
    match (s.proposals.filter (ProposalRow.eligible s.now)).argmin ProposalRow.id with
    | none => (none, s)
    | some r =>
      (some (r.executingFor s.now workerId).asClaimed,
        s.updateProposals (fun x => x.id == r.id) (ProposalRow.executingFor s.now workerId))

def claimable (proposalId : Nat) (userId : String) (r : ProposalRow) : Bool :=
  r.id == proposalId && r.userId == userId && r.status == .approved && r.claimedAt.isNone

def claimById (proposalId : Nat) (userId workerId : String) : PM (Option ClaimedProposal) :=
  act lostConnection fun s =>
    ((s.proposals.find? (claimable proposalId userId)).map fun r =>
        (r.executingFor s.now workerId).asClaimed,
      s.updateProposals (claimable proposalId userId) (ProposalRow.executingFor s.now workerId))

def isExecuting (proposalId : Nat) (r : ProposalRow) : Bool :=
  r.id == proposalId && r.status == .executing

def executed (now : Nat) (r : ProposalRow) : ProposalRow :=
  { r with status := .done, executedAt := some now, finishedAt := some now }

def markDone (proposalId : Nat) : PM Unit :=
  act lostConnection fun s => ((), s.updateProposals (isExecuting proposalId) (executed s.now))

/-- The row after a failed execution. -/
def failed (now : Nat) (error : String) (maxAttempts : Int) (backoffMinutes : Nat)
    (r : ProposalRow) : ProposalRow :=
  let again := decide ((r.attempt : Int) + 1 < maxAttempts)
  { r with
    attempt := r.attempt + 1
    error := some (String.ofList (error.toList.take 1000))
    status := if again then .approved else .dead
    finishedAt := if again then none else some now
    runAfter := if again then now + backoffMinutes * 60 else r.runAfter
    claimedBy := none
    claimedAt := none
    executedAt := none }

/-- The two statements of `fail_execution`. -/
def failRead (proposalId : Nat) : PM (Option Nat) :=
  query lostConnection fun s =>
    (s.proposals.find? (isExecuting proposalId)).map ProposalRow.attempt

def failWrite (proposalId : Nat) (error : String) (maxAttempts : Int) (attempt : Nat) : PM Unit :=
  act lostConnection fun s =>
    ((), s.updateProposals (isExecuting proposalId)
      (failed s.now error maxAttempts (2 ^ (attempt + 1))))

def failExecution (proposalId : Nat) (error : String) (maxAttempts : Int) : PM Unit := do
  match ← failRead proposalId with
  | none => pure ()
  | some attempt => failWrite proposalId error maxAttempts attempt

def staleExecutingError : String := "stale_executing_claim"

def stale (now stuckAfterSeconds : Nat) (r : ProposalRow) : Bool :=
  (r.status == .executing || r.status == .claimed) &&
    r.claimedAt.any fun t => decide (t + stuckAfterSeconds < now)

def swept (now : Nat) (r : ProposalRow) : ProposalRow :=
  { r with status := .dead, finishedAt := some now, error := some staleExecutingError,
           claimedBy := none, claimedAt := none }

def resetStuckClaims (stuckAfterSeconds : Nat) : PM Nat :=
  act lostConnection fun s =>
    (s.proposals.countP (stale s.now stuckAfterSeconds),
      s.updateProposals (stale s.now stuckAfterSeconds) (swept s.now))

def selectProposalForUser (proposalId : Nat) (userId : String) : PM (Option ProposalRow) :=
  query lostConnection fun s => s.proposals.find? fun r => r.id == proposalId && r.userId == userId

end ProposalQueue

/-! ## The request -/

open ProposalQueue

def hardLimited : List String :=
  ["financial_transaction", "mass_communication", "permanent_deletion", "first_contact",
    "code_commit"]

def clock : PM Nat := query (.other "clock") fun s => s.now

def withinClaimTtl (now : Nat) (claimedAt : Option Nat) (ttlSeconds : Nat) : Bool :=
  claimedAt.any fun t => decide (now < t + ttlSeconds)

def dispatcher409 (proposalId : Nat) : ProposalErr :=
  .http 409 [("error", "proposal_claim_conflict"), ("proposal_id", toString proposalId),
    ("code", "already_claimed")]

def proposalNotFound : ProposalErr := .http 404 [("error", "not_found")]

def invalidProposalState (status : ProposalStatus) : ProposalErr :=
  .http 400 [("error", "invalid_proposal_state"), ("status", status.text)]

/-- Why the claim found nothing. -/
def claimRefused (env : ProposalEnv) (proposalId : Nat) (workerId : String) (peek : ProposalRow) :
    PM ActionResult := do
  if peek.status == .approved && peek.claimedAt.isSome then
    .raise (dispatcher409 proposalId)
  else if peek.status == .executing then do
    let now ← clock
    if peek.claimedBy.any (fun w => w != workerId) &&
        withinClaimTtl now peek.claimedAt env.claimStuckAfterSeconds then
      .raise (dispatcher409 proposalId)
    else
      .raise (invalidProposalState peek.status)
  else
    .raise (invalidProposalState peek.status)

end Lumogis
