import Lumogis.Lib.Labelled

/-!
# Actions

Registered actions: `execute` checks the permission, calls the handler and writes the audit row with the
descriptor for the undo, and `attempt_reverse` looks the row up by its token, executes the reverse action
and marks the row. The descriptor holds the name of the reverse action and the token, and is read for a
name and an input: no reverse action ever learns what it is to undo (`undo_told_iff`).
-/

namespace Lumogis.Actions

/-- A dict of keyword arguments; `J` are its values. -/
abbrev ActionInput (J : Type) := List (String × J)

structure ActionResult where
  success : Bool
  output : String
  error : Option String := none
  reverseToken : Option String := none
  deriving DecidableEq

/-- What a handler does: it returns a result or another object, of which the `str` is taken, or raises. -/
inductive HandlerOutcome where
  | result (r : ActionResult)
  | object (text : String)
  | raised (text : String)
  deriving DecidableEq

/-- `W` is what the handlers see and change. -/
structure ActionSpec (J W : Type) where
  name : String
  connector : String
  actionType : String
  isWrite : Bool
  isReversible : Bool
  handler : ActionInput J → W → HandlerOutcome × W
  reverseActionName : Option String := none

/-- A value of the JSON descriptor. -/
inductive ReverseField (J : Type) where
  | null
  | text (s : String)
  | dict (input : ActionInput J)

/-- The column `reverse_action`. -/
abbrev ReverseAction (J : Type) := List (String × ReverseField J)

structure AuditEntry (J : Type) where
  actionName : String
  connector : String
  mode : String
  inputSummary : String
  resultSummary : String
  reverseAction : Option (ReverseAction J)
  executedAt : Nat
  userId : String

/-- A row of `audit_log`. -/
structure AuditRow (J : Type) extends AuditEntry J where
  reverseToken : Option String
  reversedAt : Option Nat

structure ActionEnv (J W : Type) where
  getAction : String → Option (ActionSpec J W)
  /-- `check_permission`; its statements may fail. -/
  checkPermission : (connector actionType : String) → (isWrite : Bool) → (userId : String) → W →
    Except String Bool × W
  /-- `routine_check`; what it raises is swallowed. -/
  routineCheck : (connector actionType userId : String) → W → W
  uuid4 : W → String × W
  /-- `json.dumps(input, default=str)`. -/
  dumps : ActionInput J → String
  /-- `repr` of a string. -/
  repr : String → String
  now : W → Nat

structure ActionState (J W : Type) where
  world : W
  auditLog : List (AuditRow J)

variable {J W : Type}

/-! ## execute -/

def hardLimited : List String :=
  ["financial_transaction", "mass_communication", "permanent_deletion", "first_contact", "code_commit"]

/-- `write_audit`: a failed insert is logged and swallowed. -/
def writeAudit (lands : Bool) (entry : AuditEntry J) (reverseToken : Option String) (s : ActionState J W) :
    ActionState J W :=
  if lands then { s with auditLog := s.auditLog ++ [{ entry with reverseToken, reversedAt := none }] } else s

/-- `reverse_action` of the entry. -/
def reverseDescriptor (spec : ActionSpec J W) (result : ActionResult) : Option (ReverseAction J) :=
  match result.reverseToken with
  | none => none
  | some token =>
    if spec.isReversible && token ≠ "" then
      some [("action_name", (spec.reverseActionName.map ReverseField.text).getD .null),
        ("reverse_token", .text token)]
    else none

/-- `(result.output or result.error or "")`. -/
def summaryOf (result : ActionResult) : String :=
  if result.output ≠ "" then result.output else result.error.getD ""

/-- `_write_audit_and_fire`. -/
def writeAuditAndFire (env : ActionEnv J W) (lands : Bool) (spec : ActionSpec J W) (input : ActionInput J)
    (result : ActionResult) (userId : String) (s : ActionState J W) : ActionState J W :=
  writeAudit lands
    { actionName := spec.name
      connector := spec.connector
      mode := if spec.isWrite then "DO" else "ASK"
      inputSummary := String.ofList ((env.dumps input).toList.take 500)
      resultSummary := String.ofList ((summaryOf result).toList.take 500)
      reverseAction := reverseDescriptor spec result
      executedAt := env.now s.world
      userId } result.reverseToken s

/-- The result that the handler's outcome stands for. -/
def HandlerOutcome.toResult : HandlerOutcome → ActionResult
  | .result r => r
  | .object text => { success := true, output := text }
  | .raised text => { success := false, output := "", error := some text }

/-- A token for a successful reversible action that has none. -/
def assignToken (env : ActionEnv J W) (spec : ActionSpec J W) (result : ActionResult) (w : W) :
    ActionResult × W :=
  if result.success && spec.isReversible && result.reverseToken.isNone then
    ({ result with reverseToken := some (env.uuid4 w).1 }, (env.uuid4 w).2)
  else (result, w)

/-- What is executed: nothing, because the permission is missing or cannot be checked, or the handler, with
its outcome. -/
inductive Executed where
  | refused
  | ran (outcome : HandlerOutcome)
  deriving DecidableEq

/-- `execute`: the result, or what it raises, and whether the handler ran. -/
def execute (env : ActionEnv J W) (lands : Bool) (name : String) (input : ActionInput J) (userId : String)
    (s : ActionState J W) : Except String ActionResult × Executed × ActionState J W :=
  match env.getAction name with
  | none => (.ok { success := false, output := "", error := some ("Unknown action: " ++ env.repr name) }, .refused, s)
  | some spec =>
    let (allowed, w) := env.checkPermission spec.connector spec.actionType spec.isWrite userId s.world
    match allowed with
    | .error e => (.error e, .refused, { s with world := w })
    | .ok false =>
      let result : ActionResult :=
        { success := false
          output := ""
          error := some ("Permission denied: " ++ spec.connector ++ "/" ++ spec.actionType ++
            " requires DO mode") }
      (.ok result, .refused, writeAuditAndFire env lands spec input result userId { s with world := w })
    | .ok true =>
      let (outcome, w) := spec.handler input w
      let (result, w) := assignToken env spec outcome.toResult w
      let s := writeAuditAndFire env lands spec input result userId { s with world := w }
      let routine := result.success && spec.isWrite && !hardLimited.contains spec.actionType
      (.ok result, .ran outcome,
        if routine then { s with world := env.routineCheck spec.connector spec.actionType userId s.world } else s)

/-! ## attempt_reverse -/

def ReverseAction.get (action : ReverseAction J) (key : String) : Option (ReverseField J) :=
  (action.find? fun field => field.1 = key).map Prod.snd

/-- `reverse_action.get("action_name")`; empty for `None`. -/
def ReverseAction.name (action : ReverseAction J) : String :=
  match action.get "action_name" with
  | some (.text s) => s
  | _ => ""

/-- `reverse_action.get("input", {})`, as `execute` takes it. -/
def ReverseAction.input (action : ReverseAction J) : ActionInput J :=
  match action.get "input" with
  | some (.dict input) => input
  | _ => []

def failure (error : String) : ActionResult := { success := false, output := "", error := some error }

/-- The rows of the token that the user can reverse. -/
def rowsOf (token userId : String) (log : List (AuditRow J)) : List (AuditRow J) :=
  log.filter fun row => row.reverseToken = some token && row.userId = userId

/-- The lookup: which of the rows is fetched, or what the statement raises. It ends the attempt, or gives
the name and the input of the reverse action. -/
def lookupReverse (env : ActionEnv J W) (fetched : Except String Nat) (token userId : String)
    (log : List (AuditRow J)) : Except ActionResult (String × ActionInput J) :=
  match fetched with
  | .error e => .error (failure ("Audit lookup failed: " ++ e))
  | .ok n =>
    match (rowsOf token userId log)[n]? with
    | none => .error (failure ("No reversible action found for token: " ++ token))
    | some row =>
      if row.reversedAt.isSome then
        .error (failure ("Action " ++ env.repr row.actionName ++ " has already been reversed"))
      else
        match row.reverseAction with
        | none => .error (failure ("Action " ++ env.repr row.actionName ++ " has no reverse action defined"))
        | some action =>
          if action.isEmpty then
            .error (failure ("Action " ++ env.repr row.actionName ++ " has no reverse action defined"))
          else if action.name = "" then .error (failure "Reverse action has no action_name")
          else .ok (action.name, action.input)

/-- `mark_reversed`: every row of the token; a failed statement is swallowed. -/
def markReversed (env : ActionEnv J W) (lands : Bool) (token : String) (s : ActionState J W) : ActionState J W :=
  if lands then
    { s with auditLog := s.auditLog.map fun row =>
        if row.reverseToken = some token then { row with reversedAt := some (env.now s.world) } else row }
  else s

/-! ## What the reverse action is told -/

/-- With the tokens that successful executions of reversible actions were given, and the input of each
reverse handler that was called, under the token of the attempt. No function reads them. -/
structure UndoState (J W : Type) extends ActionState J W where
  given : List String := []
  reverseCalls : List (String × ActionInput J) := []

inductive ActionCall (J : Type) where
  | execute (name : String) (input : ActionInput J) (userId : String) (lands : Bool)
  /-- `attempt_reverse`, with the fates of its statements. -/
  | reverse (token userId : String) (fetched : Except String Nat) (lands marks : Bool)

/-- The token of a successful execution of a reversible action. -/
def givenToken (env : ActionEnv J W) (name : String) (result : Except String ActionResult) : List String :=
  match result, env.getAction name with
  | .ok r, some spec => if r.success && spec.isReversible then r.reverseToken.toList else []
  | _, _ => []

def executeCall (env : ActionEnv J W) (name : String) (input : ActionInput J) (userId : String) (lands : Bool)
    (s : UndoState J W) : UndoState J W :=
  let (result, _, t) := execute env lands name input userId s.toActionState
  { s with toActionState := t, given := s.given ++ givenToken env name result }

/-- `attempt_reverse`. -/
def attemptReverse (env : ActionEnv J W) (token userId : String) (fetched : Except String Nat)
    (lands marks : Bool) (s : UndoState J W) : UndoState J W :=
  match lookupReverse env fetched token userId s.auditLog with
  | .error _ => s
  | .ok (name, input) =>
    let (result, executed, t) := execute env lands name input userId s.toActionState
    let s := { s with
      given := s.given ++ givenToken env name result
      reverseCalls := if executed = Executed.refused then s.reverseCalls else s.reverseCalls ++ [(token, input)] }
    match result with
    | .ok r => { s with toActionState := if r.success then markReversed env marks token t else t }
    | .error _ => { s with toActionState := t }

def ActionCall.perform (env : ActionEnv J W) : ActionCall J → UndoState J W → UndoState J W
  | .execute name input userId lands, s => executeCall env name input userId lands s
  | .reverse token userId fetched lands marks, s => attemptReverse env token userId fetched lands marks s

/-- After the calls, from an empty log. -/
def stateAfter (env : ActionEnv J W) (w : W) (calls : List (ActionCall J)) : UndoState J W :=
  calls.foldl (fun s call => call.perform env s) { world := w, auditLog := [] }

/-- The handlers of the reverse actions were called for both tokens, with different inputs. -/
def ToldApart (s : UndoState J W) (token token' : String) : Prop :=
  ∃ input input', (token, input) ∈ s.reverseCalls ∧ (token', input') ∈ s.reverseCalls ∧ input ≠ input'

/-! ### The descriptors -/

/-- No descriptor in the log has an input. -/
def NoInput (log : List (AuditRow J)) : Prop :=
  ∀ row ∈ log, ∀ action, row.reverseAction = some action → action.get "input" = none

theorem reverseDescriptor_input {spec : ActionSpec J W} {result : ActionResult} {action : ReverseAction J}
    (h : reverseDescriptor spec result = some action) : action.get "input" = none := by
  simp only [reverseDescriptor] at h
  split at h
  · cases h
  · split at h
    · cases h
      simp [ReverseAction.get]
    · cases h

/-- The rows that an execution adds have its descriptors. -/
def Appends (log log' : List (AuditRow J)) : Prop :=
  ∃ rows, log' = log ++ rows ∧ ∀ row ∈ rows, ∃ (W : Type) (spec : ActionSpec J W) (result : ActionResult),
    row.reverseAction = reverseDescriptor spec result

theorem writeAuditAndFire_appends {env : ActionEnv J W} {lands : Bool} {spec : ActionSpec J W}
    {input : ActionInput J} {result : ActionResult} {userId : String} {s : ActionState J W}
    {log : List (AuditRow J)} (h : s.auditLog = log) :
    Appends log (writeAuditAndFire env lands spec input result userId s).auditLog := by
  subst h
  simp only [writeAuditAndFire, writeAudit]
  split
  · refine ⟨_, rfl, ?_⟩
    intro row hrow
    obtain rfl := List.mem_singleton.mp hrow
    exact ⟨W, spec, result, rfl⟩
  · exact ⟨[], (List.append_nil _).symm, by simp⟩

theorem execute_appends (env : ActionEnv J W) (lands : Bool) (name : String) (input : ActionInput J)
    (userId : String) (s : ActionState J W) :
    Appends s.auditLog (execute env lands name input userId s).2.2.auditLog := by
  have hsame : Appends s.auditLog s.auditLog := ⟨[], (List.append_nil _).symm, by simp⟩
  simp only [execute]
  split
  · exact hsame
  · split
    · exact hsame
    · exact writeAuditAndFire_appends rfl
    · split
      · exact writeAuditAndFire_appends rfl
      · exact writeAuditAndFire_appends rfl

theorem Appends.noInput {log log' : List (AuditRow J)} (happends : Appends log log') (h : NoInput log) :
    NoInput log' := by
  obtain ⟨rows, rfl, hrows⟩ := happends
  intro row hrow action haction
  rcases List.mem_append.mp hrow with hrow | hrow
  · exact h row hrow action haction
  · obtain ⟨W, spec, result, hdescriptor⟩ := hrows row hrow
    exact reverseDescriptor_input (hdescriptor.symm.trans haction)

theorem markReversed_noInput {s : ActionState J W} (h : NoInput s.auditLog) (env : ActionEnv J W) (lands : Bool)
    (token : String) : NoInput (markReversed env lands token s).auditLog := by
  simp only [markReversed]
  split
  · intro row hrow action haction
    obtain ⟨old, hold, rfl⟩ := List.mem_map.mp hrow
    split at haction
    · exact h old hold action haction
    · exact h old hold action haction
  · exact h

theorem lookupReverse_input {log : List (AuditRow J)} (h : NoInput log) {env : ActionEnv J W}
    {fetched : Except String Nat} {token userId name : String} {input : ActionInput J}
    (hlookup : lookupReverse env fetched token userId log = .ok (name, input)) : input = [] := by
  simp only [lookupReverse] at hlookup
  split at hlookup
  · cases hlookup
  · split at hlookup
    · cases hlookup
    · rename_i row hrow
      have hmem := (List.mem_filter.mp (List.mem_of_getElem? hrow)).1
      split at hlookup
      · cases hlookup
      · split at hlookup
        · cases hlookup
        · rename_i action haction
          have hnone := h row hmem action haction
          split at hlookup
          · cases hlookup
          · split at hlookup
            · cases hlookup
            · cases hlookup
              simp [ReverseAction.input, hnone]

/-! ### Every reverse handler is called with the empty input -/

/-- No descriptor has an input, and no reverse handler was given one. -/
structure Untold (s : UndoState J W) : Prop where
  log : NoInput s.auditLog
  calls : ∀ call ∈ s.reverseCalls, call.2 = []

theorem perform_untold {s : UndoState J W} (h : Untold s) (env : ActionEnv J W) (call : ActionCall J) :
    Untold (call.perform env s) := by
  cases call with
  | execute name input userId lands =>
    exact ⟨(execute_appends env lands name input userId _).noInput h.log, h.calls⟩
  | reverse token userId fetched lands marks =>
    simp only [ActionCall.perform, attemptReverse]
    split
    · exact h
    · rename_i name input hlookup
      have hlog := (execute_appends env lands name input userId s.toActionState).noInput h.log
      have hinput := lookupReverse_input h.log hlookup
      have hcalls : ∀ call ∈ (if (execute env lands name input userId s.toActionState).2.1 = Executed.refused then
          s.reverseCalls else s.reverseCalls ++ [(token, input)]), call.2 = [] := by
        intro call hcall
        split at hcall
        · exact h.calls call hcall
        · rcases List.mem_append.mp hcall with hcall | hcall
          · exact h.calls call hcall
          · obtain rfl := List.mem_singleton.mp hcall
            exact hinput
      split
      · refine ⟨?_, hcalls⟩
        show NoInput (ActionState.auditLog (if _ then _ else _))
        split
        · exact markReversed_noInput hlog env marks token
        · exact hlog
      · exact ⟨hlog, hcalls⟩

theorem stateAfter_untold (env : ActionEnv J W) (w : W) (calls : List (ActionCall J)) :
    Untold (stateAfter env w calls) := by
  have hrun : ∀ s, Untold s → Untold (calls.foldl (fun s call => call.perform env s) s) := by
    induction calls with
    | nil =>
      intro s h
      exact h
    | cons call calls ih =>
      intro s h
      exact ih _ (perform_untold h env call)
  refine hrun _ ⟨?_, ?_⟩
  · intro row hrow
    cases hrow
  · intro call hcall
    cases hcall

/-- After any calls, no two executions are told apart by what their reverse actions were called with. -/
theorem undo_never_told (env : ActionEnv J W) (w : W) (calls : List (ActionCall J)) (token token' : String) :
    ¬ ToldApart (stateAfter env w calls) token token' := by
  rintro ⟨input, input', hcall, hcall', hne⟩
  have h := stateAfter_untold env w calls
  exact hne ((h.calls _ hcall).trans (h.calls _ hcall').symm)

/-! ### Two notes and one undo -/

def writeNote : ActionSpec String Nat where
  name := "write_note"
  connector := "filesystem-mcp"
  actionType := "write_note"
  isWrite := true
  isReversible := true
  handler := fun _ w => (.object "written", w)
  reverseActionName := some "delete_note"

def deleteNote : ActionSpec String Nat where
  name := "delete_note"
  connector := "filesystem-mcp"
  actionType := "delete_note"
  isWrite := true
  isReversible := false
  handler := fun _ w => (.object "deleted", w)

def noteEnv : ActionEnv String Nat where
  getAction := fun name =>
    if name = "write_note" then some writeNote else if name = "delete_note" then some deleteNote else none
  checkPermission := fun _ _ _ _ w => (.ok true, w)
  routineCheck := fun _ _ _ w => w
  uuid4 := fun w => (if w = 0 then "token-1" else "token-2", w + 1)
  dumps := fun _ => ""
  repr := fun s => s
  now := id

def noteCalls : List (ActionCall String) :=
  [.execute "write_note" [("path", "a.md")] "alice" true, .execute "write_note" [("path", "b.md")] "alice" true,
    .reverse "token-1" "alice" (.ok 0) true true, .reverse "token-2" "alice" (.ok 0) true true]

/-- Both notes are to be deleted, and `delete_note` is called with the empty input twice. -/
theorem undo_called_alike : ¬ ∀ (env : ActionEnv String Nat) (w : Nat) (calls : List (ActionCall String))
    (token token' : String), token ∈ (stateAfter env w calls).given → token' ∈ (stateAfter env w calls).given →
      token ≠ token' → token ∈ (stateAfter env w calls).reverseCalls.map Prod.fst →
      token' ∈ (stateAfter env w calls).reverseCalls.map Prod.fst → ToldApart (stateAfter env w calls) token token' := by
  intro h
  obtain ⟨input, input', hcall, hcall', hne⟩ := h noteEnv 0 noteCalls "token-1" "token-2" (by decide) (by decide)
    (by decide) (by decide) (by decide)
  have huntold := stateAfter_untold noteEnv 0 noteCalls
  exact hne ((huntold.calls _ hcall).trans (huntold.calls _ hcall').symm)

end Lumogis.Actions
