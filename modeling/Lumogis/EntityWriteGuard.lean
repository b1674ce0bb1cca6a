import Lumogis.Lib.Prog
import Lumogis.Visibility
import Mathlib.Logic.Function.Basic

/-!
# EntityWriteGuard

Guarded writes of an entity's summary. A caller that has read a version of the entity commits a
summary, stages one, or promotes the staged one, by a single `UPDATE` that asks for the version it
names. A commit and a promotion make the next version and clear what is staged; staging leaves the
version as it is.
-/

namespace Lumogis

open Prog

/-- The columns of an entity that the guard reads or writes. -/
structure SummaryRow where
  userId : String
  scope : Scope
  entityType : String
  summary : String
  stagedSummary : Option String
  version : Int

structure SummaryStore where
  /-- By `entity_id`. -/
  entities : Nat → Option SummaryRow
  users : List UserRow

inductive SummaryErr where
  | lostConnection
  | invalidScopeFilter (e : InvalidScopeFilter)
  /-- `ValueError`: `unsupported write scope`. -/
  | unsupportedWriteScope (scope : Scope)

abbrev SummaryM := Prog SummaryStore SummaryErr

def SummaryRow.item (r : SummaryRow) : Item :=
  { userId := some r.userId, scope := some r.scope.name, rest := fun _ => [] }

/-! ## Reading -/

structure EntitySummarySnapshot where
  entityId : Nat
  userId : String
  scope : Scope
  entityType : String
  summary : String
  stagedSummary : Option String
  version : Int

/-- `strip` is the model's `str_strip_whitespace`. -/
def EntitySummarySnapshot.modelValidate (strip : String → String) (entityId : Nat) (r : SummaryRow) :
    EntitySummarySnapshot :=
  { entityId := entityId, userId := strip r.userId, scope := r.scope
    entityType := strip r.entityType, summary := strip r.summary
    stagedSummary := r.stagedSummary.map strip, version := r.version }

/-- The `users` table is asked only when the caller's context leaves the answer open. -/
def callerFilter (caller : UserContext) : SummaryM SqlFilter := do
  let users ← query .lostConnection SummaryStore.users
  match visibleFilter users caller none with
  | .ok f => pure f
  | .error e => .raise (.invalidScopeFilter e)

def readEntitySummary (strip : String → String) (entityId : Nat) (caller : UserContext) :
    SummaryM (Option EntitySummarySnapshot) := do
  let vis ← callerFilter caller
  let row ← query .lostConnection fun s =>
    (s.entities entityId).filter fun r => decide (vis.Accepts r.item)
  return row.map (EntitySummarySnapshot.modelValidate strip entityId)

/-! ## The guarded update -/

structure GuardedWriteResult where
  ok : Bool
  conflict : Bool
  newVersion : Option Int

/-- What a caller writes. -/
inductive SummaryWrite where
  | commit (newSummary : String)
  | stage (stagedSummary : String)
  | promote
  deriving DecidableEq

/-- The `SET` clause. A promotion finds a staged summary (`requireStaged`). -/
def SummaryWrite.set : SummaryWrite → SummaryRow → SummaryRow
  | .commit text, r => { r with summary := text, stagedSummary := none, version := r.version + 1 }
  | .stage text, r => { r with stagedSummary := some text }
  | .promote, r =>
    { r with
      summary := r.stagedSummary.getD r.summary, stagedSummary := none, version := r.version + 1 }

def SummaryWrite.requireStaged : SummaryWrite → Bool
  | .commit _ | .stage _ => false
  | .promote => true

/-- One call of the guard. -/
structure SummaryCall where
  write : SummaryWrite
  entityId : Nat
  caller : UserContext
  readVersion : Int
  deriving DecidableEq

def scopeWhere (scope : Scope) (caller : UserContext) : Except SummaryErr SqlFilter :=
  match scope with
  | .personal => .ok ⟨.and (.eqLit .scope "personal") (.eqParam .userId 0), [caller.userId]⟩
  | .shared => .ok ⟨.eqLit .scope "shared", []⟩
  | .system => .error (.unsupportedWriteScope scope)

/-- The `WHERE` clause. -/
def SummaryCall.matches_ (call : SummaryCall) (whereScope : SqlFilter) (r : SummaryRow) : Bool :=
  decide (whereScope.Accepts r.item) && decide (r.version = call.readVersion) &&
    (!call.write.requireStaged || r.stagedSummary.isSome)

/-- `UPDATE entities SET ... WHERE ... RETURNING version`. -/
def SummaryCall.update (call : SummaryCall) (whereScope : SqlFilter) (s : SummaryStore) :
    Option Int × SummaryStore :=
  match s.entities call.entityId with
  | none => (none, s)
  | some r =>
    if call.matches_ whereScope r then
      (some (call.write.set r).version,
        { s with entities := Function.update s.entities call.entityId (some (call.write.set r)) })
    else (none, s)

def updateResult : Option Int → GuardedWriteResult
  | none => ⟨false, true, none⟩
  | some newVersion => ⟨true, false, some newVersion⟩

def guardedUpdate (call : SummaryCall) (scope : Scope) : SummaryM GuardedWriteResult := do
  match scopeWhere scope call.caller with
  | .error e => .raise e
  | .ok whereScope =>
    let row ← act .lostConnection (call.update whereScope)
    return updateResult row

/-- What the three functions share: they differ in the write alone. -/
def guardedWrite (strip : String → String) (call : SummaryCall) : SummaryM GuardedWriteResult := do
  match ← readEntitySummary strip call.entityId call.caller with
  | none => return ⟨false, true, none⟩
  | some snapshot =>
    if snapshot.scope = .system then return ⟨false, false, none⟩
    else guardedUpdate call snapshot.scope

def commitSummaryUpdate (strip : String → String) (entityId : Nat) (caller : UserContext)
    (readVersion : Int) (newSummary : String) : SummaryM GuardedWriteResult :=
  guardedWrite strip ⟨.commit newSummary, entityId, caller, readVersion⟩

def stageConsolidationSummary (strip : String → String) (entityId : Nat) (caller : UserContext)
    (readVersion : Int) (stagedSummary : String) : SummaryM GuardedWriteResult :=
  guardedWrite strip ⟨.stage stagedSummary, entityId, caller, readVersion⟩

def promoteStagedSummary (strip : String → String) (entityId : Nat) (caller : UserContext)
    (readVersion : Int) : SummaryM GuardedWriteResult :=
  guardedWrite strip ⟨.promote, entityId, caller, readVersion⟩

theorem SummaryCall.update_cases (call : SummaryCall) (f : SqlFilter) (s : SummaryStore) :
    call.update f s = (none, s) ∨
    ∃ r, s.entities call.entityId = some r ∧ call.matches_ f r = true ∧
      call.update f s = (some (call.write.set r).version,
        { s with entities := Function.update s.entities call.entityId (some (call.write.set r)) }) := by
  cases hr : s.entities call.entityId with
  | none => exact .inl (by simp only [update, hr])
  | some r =>
    cases hm : call.matches_ f r with
    | false => exact .inl (by simp [update, hr, hm])
    | true => exact .inr ⟨r, rfl, hm, by simp [update, hr, hm]⟩

theorem SummaryCall.matches_version {call : SummaryCall} {f : SqlFilter} {r : SummaryRow}
    (h : call.matches_ f r = true) : r.version = call.readVersion := by
  simp only [matches_, Bool.and_eq_true, decide_eq_true_eq] at h
  exact h.1.2

theorem SummaryCall.matches_staged {call : SummaryCall} {f : SqlFilter} {r : SummaryRow}
    (h : call.matches_ f r = true) (hw : call.write = .promote) :
    ∃ text, r.stagedSummary = some text := by
  simp only [matches_, hw, SummaryWrite.requireStaged, Bool.and_eq_true, Bool.not_true,
    Bool.false_or] at h
  exact Option.isSome_iff_exists.mp h.2

end Lumogis
