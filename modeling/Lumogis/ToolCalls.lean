import Mathlib.Data.List.Infix
import Lumogis.Permissions

/-!
# ToolCalls

One call of a registered tool: `run_tool` of `services/tools.py` and `execute_inprocess` of
`services/execution.py`. Both call the handler with the keyword `user_id` and, when that raises a
`TypeError`, call it again without, for handlers of the older signature.

Python raises a `TypeError` for a call that the signature does not take, and then the body has not
run; but a body may raise one too. The body runs twice if and only if the signature takes both forms
of the call and the body itself raises what the caller takes for a refusal
(`runTool_once_iff`, `executeInprocess_once_iff`).
-/

namespace Lumogis

/-! ## Handlers -/

/-- The arguments of one call. A keyword that the call leaves out is `none`. -/
structure HandlerArgs (J : Type) where
  input : J
  userId : Option String := none
  autoRagPointIds : Option (List String) := none
  deriving DecidableEq

/-- `typeError` is `TypeError` and its subclasses. -/
inductive PyException where
  | typeError (text : String)
  | other (text : String)

/-- What a handler returns: a string, or another object and its `str`. -/
inductive HandlerOutput where
  | str (text : String)
  | object (text : String)

def HandlerOutput.text : HandlerOutput → String
  | .str text => text
  | .object text => text

/-- A callable over the permissions and the rest of the world, `W`. -/
structure ToolHandler (J W : Type) where
  /-- The text of the `TypeError`, for a call that the signature does not take. -/
  refuses : HandlerArgs J → Option String
  body : HandlerArgs J → PermStore × W → Except PyException HandlerOutput × (PermStore × W)

structure ToolSpec (J W : Type) where
  name : String
  connector : String
  actionType : String
  isWrite : Bool
  handler : ToolHandler J W

structure ToolAuditEnvelope where
  userId : String
  toolName : String
  requestId : Option String
  capabilityId : Option String
  status : String
  failureReason : Option String := none
  resultSummary : Option String := none
  connector : Option String := none
  actionType : Option String := none
  isWrite : Bool := false

structure ToolState (J W : Type) where
  world : PermStore × W
  audits : List ToolAuditEnvelope
  /-- The calls whose body has run, in order. No function reads it. -/
  runs : List (HandlerArgs J)

section

variable {J W : Type}

/-- The arguments are bound before the body runs. -/
def ToolHandler.call (h : ToolHandler J W) (args : HandlerArgs J) (s : ToolState J W) :
    Except PyException HandlerOutput × ToolState J W :=
  match h.refuses args with
  | some text => (.error (.typeError text), s)
  | none => ((h.body args s.world).1,
      { s with world := (h.body args s.world).2, runs := s.runs ++ [args] })

/-- `try: handler(args)`, and after a `TypeError` whose text is `legacy`, `handler(input_)`. -/
def ToolHandler.callOrLegacy (legacy : String → Bool) (h : ToolHandler J W) (args : HandlerArgs J)
    (s : ToolState J W) : Except PyException HandlerOutput × ToolState J W :=
  match h.call args s with
  | (.error (.typeError text), s') =>
    if legacy text then h.call { input := args.input } s' else (.error (.typeError text), s')
  | (.error (.other text), s') => (.error (.other text), s')
  | (.ok out, s') => (.ok out, s')

end

/-! ## The permission check -/

def pyExceptionOf : PermErr → PyException
  | .database => .other "database error"
  | .type message => .typeError message
  | .invalidMode mode => .other ("Invalid mode: " ++ mode)
  | .invalidScope raw => .other ("invalid scope: " ++ raw)

/-- `check_permission`, with the fate of each of its statements. -/
def checkPermissionOn (fates : List Prog.Fate) (connector actionType : String) (isWrite : Bool)
    (userId : String) (store : PermStore) : Except PyException Bool × PermStore :=
  match (Permissions.checkPermission connector actionType isWrite userId).execFates fates store with
  | some (.ok allowed, store') => (.ok allowed, store')
  | some (.error e, store') => (.error (pyExceptionOf e), store')
  | none => (.error (pyExceptionOf .database), store)

/-- `PermissionCheck`. The callable may be a stub. -/
structure PermissionCheck where
  check : (connector actionType : String) → (isWrite : Bool) → (userId : String) → PermStore →
    Except PyException Bool × PermStore

def PermissionCheck.mayExecute (permission : PermissionCheck) (connector actionType : String)
    (isWrite : Bool) (userId : String) (store : PermStore) : Except PyException Bool × PermStore :=
  if connector = "" ∨ actionType = "" ∨ userId = "" then (.ok false, store)
  else permission.check connector actionType isWrite userId store

/-! ## Functions -/

/-- What `run_tool` calls besides the handler. -/
structure ToolRuntime (J W : Type) where
  /-- `None` for a name that no capability offers. -/
  tryRunOopCapabilityTool : String → J → (userId : String) → PermStore × W →
    Except PyException (Option HandlerOutput) × (PermStore × W)
  guardToolResult : HandlerOutput → (userId toolName : String) → PermStore × W →
    Except PyException String × (PermStore × W)
  /-- `json.dumps` of a dictionary of strings. -/
  dumps : List (String × String) → String

section

variable {J W : Type}

/-- `"user_id" in str(exc)`. -/
def mentionsUserId (text : String) : Bool := "user_id".toList <:+: text.toList

/-- `search_files` takes the ids of the automatic retrieval too. -/
def handlerArgs (spec : ToolSpec J W) (input : J) (userId : String)
    (autoRagPointIds : Option (List String)) : HandlerArgs J :=
  if spec.name = "search_files" then ⟨input, some userId, autoRagPointIds⟩
  else ⟨input, some userId, none⟩

def permissionDenied (spec : ToolSpec J W) : List (String × String) :=
  [("error", "Permission denied"), ("connector", spec.connector), ("action", spec.actionType),
    ("detail", "Connector '" ++ spec.connector ++ "' is in ASK mode; writes blocked.")]

def ToolRuntime.guarded (env : ToolRuntime J W) (userId toolName : String) (raw : HandlerOutput)
    (s : ToolState J W) : Except PyException String × ToolState J W :=
  ((env.guardToolResult raw userId toolName s.world).1,
    { s with world := (env.guardToolResult raw userId toolName s.world).2 })

/-- A name without a spec. -/
def runOopTool (env : ToolRuntime J W) (name : String) (input : J) (userId : String)
    (s : ToolState J W) : Except PyException String × ToolState J W :=
  match env.tryRunOopCapabilityTool name input userId s.world with
  | (.error e, world) => (.error e, { s with world := world })
  | (.ok (some out), world) => env.guarded userId name out { s with world := world }
  | (.ok none, world) =>
    (.ok (env.dumps [("error", "Unknown tool: " ++ name)]), { s with world := world })

/-- The handler of a spec whose permission was granted. -/
def runGranted (env : ToolRuntime J W) (spec : ToolSpec J W) (name : String) (input : J)
    (userId : String) (autoRagPointIds : Option (List String)) (s : ToolState J W) :
    Except PyException String × ToolState J W :=
  match spec.handler.callOrLegacy mentionsUserId (handlerArgs spec input userId autoRagPointIds) s with
  | (.ok raw, s') => env.guarded userId name raw s'
  | (.error e, s') => (.error e, s')

/-- The state once the permission check has run. -/
def ToolState.checked (s : ToolState J W) (store : PermStore) : ToolState J W :=
  { s with world := (store, s.world.2) }

def runTool (env : ToolRuntime J W) (toolSpecs : List (ToolSpec J W)) (fates : List Prog.Fate)
    (name : String) (input : J) (userId : String) (autoRagPointIds : Option (List String))
    (s : ToolState J W) : Except PyException String × ToolState J W :=
  if userId = "" then (.error (.typeError "run_tool: user_id (keyword-only) is required"), s)
  else match toolSpecs.find? fun spec => spec.name = name with
    | none => runOopTool env name input userId s
    | some spec =>
      match checkPermissionOn fates spec.connector spec.actionType spec.isWrite userId s.world.1 with
      | (.error e, store) => (.error e, s.checked store)
      | (.ok false, store) => (.ok (env.dumps (permissionDenied spec)), s.checked store)
      | (.ok true, store) => runGranted env spec name input userId autoRagPointIds (s.checked store)

structure ToolExecutionResult where
  success : Bool
  output : String
  denied : Bool := false
  blockedAuth : Bool := false

/-- What both envelopes of `execute_inprocess` hold. -/
def inprocessEnvelope (spec : ToolSpec J W) (userId : String) (requestId : Option String)
    (status : String) : ToolAuditEnvelope where
  userId := userId
  toolName := spec.name
  requestId := requestId
  capabilityId := none
  status := status
  connector := some spec.connector
  actionType := some spec.actionType
  isWrite := spec.isWrite

def ToolState.emitAudit (s : ToolState J W) (envelope : ToolAuditEnvelope) : ToolState J W :=
  { s with audits := s.audits ++ [envelope] }

/-- The handler, once `may_execute` has said yes. Here every `TypeError` leads to the second call. -/
def executeGranted (spec : ToolSpec J W) (input : J) (userId : String) (requestId : Option String)
    (s : ToolState J W) : Except PyException ToolExecutionResult × ToolState J W :=
  match spec.handler.callOrLegacy (fun _ => true) ⟨input, some userId, none⟩ s with
  | (.error e, s') => (.error e, s')
  | (.ok out, s') =>
    (.ok { success := true, output := out.text }, s'.emitAudit
      { inprocessEnvelope spec userId requestId "ok" with
        resultSummary := if out.text = "" then none
          else some (String.ofList (out.text.toList.take 500)) })

def executeInprocess (permission : PermissionCheck) (spec : ToolSpec J W) (input : J)
    (userId : String) (requestId : Option String) (s : ToolState J W) :
    Except PyException ToolExecutionResult × ToolState J W :=
  match permission.mayExecute spec.connector spec.actionType spec.isWrite userId s.world.1 with
  | (.error e, store) => (.error e, s.checked store)
  | (.ok false, store) =>
    (.ok { success := false, output := "Permission denied", denied := true },
      (s.checked store).emitAudit { inprocessEnvelope spec userId requestId "denied" with
        failureReason := some "permission check failed (connector/action)" })
  | (.ok true, store) => executeGranted spec input userId requestId (s.checked store)

end

/-! ## How often the body runs -/

section

variable {J W : Type} {s t : ToolState J W}

/-- Between the two states at most one body has run, and none unless `granted`. -/
def RanAtMostOnce (granted : Prop) (s t : ToolState J W) : Prop :=
  ∃ more, t.runs = s.runs ++ more ∧ more.length ≤ 1 ∧ (more ≠ [] → granted)

/-- The signature takes both forms of the call, and the body raises a `TypeError` that is `legacy`. -/
def ToolHandler.RunsTwice (legacy : String → Bool) (h : ToolHandler J W) (args : HandlerArgs J)
    (world : PermStore × W) : Prop :=
  h.refuses args = none ∧ h.refuses { input := args.input } = none ∧
    ∃ text, (h.body args world).1 = .error (.typeError text) ∧ legacy text = true

theorem ranAtMostOnce_iff {granted : Prop} {more : List (HandlerArgs J)}
    (h : t.runs = s.runs ++ more) :
    RanAtMostOnce granted s t ↔ more.length ≤ 1 ∧ (more ≠ [] → granted) := by
  constructor
  · intro hran
    obtain ⟨more', hruns, hran⟩ := hran
    have hmore : more' = more := List.append_cancel_left (hruns.symm.trans h)
    rw [← hmore]
    exact hran
  · intro hran
    exact ⟨more, h, hran⟩

theorem ranAtMostOnce_of_eq {granted : Prop} (h : t.runs = s.runs) : RanAtMostOnce granted s t := by
  have hnil : t.runs = s.runs ++ [] := by simpa using h
  rw [ranAtMostOnce_iff hnil]
  simp

theorem ToolHandler.call_runs (h : ToolHandler J W) (args : HandlerArgs J) (s : ToolState J W) :
    (h.call args s).2.runs = s.runs ++ if h.refuses args = none then [args] else [] := by
  cases hbind : h.refuses args <;> simp [call, hbind]

/-- One spec for both fallbacks: what has run, and when it is more than one body. -/
theorem ToolHandler.callOrLegacy_runs (legacy : String → Bool) (h : ToolHandler J W)
    (args : HandlerArgs J) (s : ToolState J W) :
    ∃ more, (h.callOrLegacy legacy args s).2.runs = s.runs ++ more ∧
      (more.length ≤ 1 ↔ ¬ h.RunsTwice legacy args s.world) := by
  have hfirst := h.call_runs args s
  cases hbind : h.refuses args with
  | some text =>
    -- the first form is refused: only the second one can run
    have htwice : ¬ h.RunsTwice legacy args s.world := by
      intro htwice
      simp [htwice.1] at hbind
    have hcall : h.call args s = (.error (.typeError text), s) := by simp [call, hbind]
    cases hleg : legacy text with
    | true =>
      refine ⟨_, by simp only [callOrLegacy, hcall, hleg, if_true]; exact h.call_runs _ _, ?_⟩
      simp only [htwice, not_false_eq_true, iff_true]
      split <;> simp
    | false =>
      exact ⟨[], by simp [callOrLegacy, hcall, hleg], by simp [htwice]⟩
  | none =>
    have hcall : h.call args s = ((h.body args s.world).1,
        { s with world := (h.body args s.world).2, runs := s.runs ++ [args] }) := by
      simp [call, hbind]
    cases hout : (h.body args s.world).1 with
    | ok out =>
      exact ⟨[args], by simp [callOrLegacy, hcall, hout], by simp [RunsTwice, hout]⟩
    | error e =>
      cases e with
      | other text =>
        exact ⟨[args], by simp [callOrLegacy, hcall, hout], by simp [RunsTwice, hout]⟩
      | typeError text =>
        cases hleg : legacy text with
        | false =>
          exact ⟨[args], by simp [callOrLegacy, hcall, hout, hleg], by simp [RunsTwice, hout, hleg]⟩
        | true =>
          -- the body has run, and the second form is called
          refine ⟨[args] ++ if h.refuses { input := args.input } = none then
            [{ input := args.input }] else [], ?_, ?_⟩
          · simp only [callOrLegacy, hcall, hout, hleg, if_true, h.call_runs, List.append_assoc]
          · cases hplain : h.refuses { input := args.input } <;>
              simp [RunsTwice, hbind, hplain, hout, hleg]

@[simp] theorem ToolRuntime.guarded_runs (env : ToolRuntime J W) (userId toolName : String)
    (raw : HandlerOutput) (s : ToolState J W) : (env.guarded userId toolName raw s).2.runs = s.runs := rfl

@[simp] theorem ToolState.checked_runs (s : ToolState J W) (store : PermStore) :
    (s.checked store).runs = s.runs := rfl

@[simp] theorem ToolState.emitAudit_runs (s : ToolState J W) (envelope : ToolAuditEnvelope) :
    (s.emitAudit envelope).runs = s.runs := rfl

theorem runOopTool_runs (env : ToolRuntime J W) (name : String) (input : J) (userId : String)
    (s : ToolState J W) : (runOopTool env name input userId s).2.runs = s.runs := by
  rcases hout : env.tryRunOopCapabilityTool name input userId s.world with ⟨(_ | _ | _), world⟩ <;>
    simp [runOopTool, hout]

/-- Neither the guard nor the audit runs a handler. -/
theorem runGranted_runs (env : ToolRuntime J W) (spec : ToolSpec J W) (name : String) (input : J)
    (userId : String) (ids : Option (List String)) (s : ToolState J W) :
    (runGranted env spec name input userId ids s).2.runs =
      (spec.handler.callOrLegacy mentionsUserId (handlerArgs spec input userId ids) s).2.runs := by
  unfold runGranted
  split <;> simp [*]

theorem executeGranted_runs (spec : ToolSpec J W) (input : J) (userId : String)
    (requestId : Option String) (s : ToolState J W) :
    (executeGranted spec input userId requestId s).2.runs =
      (spec.handler.callOrLegacy (fun _ => true) ⟨input, some userId, none⟩ s).2.runs := by
  unfold executeGranted
  split <;> simp [*]

theorem checkPermissionOn_blank (fates : List Prog.Fate) (connector actionType : String)
    (isWrite : Bool) (store : PermStore) :
    (checkPermissionOn fates connector actionType isWrite "" store).1 ≠ .ok true := by
  intro h
  cases fates <;> cases h

/-- `run_tool` found the spec and its permission check granted the call. -/
def RunToolGranted (toolSpecs : List (ToolSpec J W)) (fates : List Prog.Fate) (name userId : String)
    (s : ToolState J W) : Prop :=
  ∃ spec, toolSpecs.find? (fun spec => spec.name = name) = some spec ∧
    (checkPermissionOn fates spec.connector spec.actionType spec.isWrite userId s.world.1).1 = .ok true

/-- The call of `run_tool` is granted, and reaches a handler that runs twice on it. -/
def RunToolTwice (toolSpecs : List (ToolSpec J W)) (fates : List Prog.Fate) (name : String) (input : J)
    (userId : String) (autoRagPointIds : Option (List String)) (s : ToolState J W) : Prop :=
  ∃ spec store, toolSpecs.find? (fun spec => spec.name = name) = some spec ∧
    checkPermissionOn fates spec.connector spec.actionType spec.isWrite userId s.world.1 =
      (.ok true, store) ∧
    spec.handler.RunsTwice mentionsUserId (handlerArgs spec input userId autoRagPointIds)
      (store, s.world.2)

/-- `may_execute` said yes. -/
def InprocessGranted (permission : PermissionCheck) (spec : ToolSpec J W) (userId : String)
    (s : ToolState J W) : Prop :=
  (permission.mayExecute spec.connector spec.actionType spec.isWrite userId s.world.1).1 = .ok true

def InprocessTwice (permission : PermissionCheck) (spec : ToolSpec J W) (input : J) (userId : String)
    (s : ToolState J W) : Prop :=
  ∃ store, permission.mayExecute spec.connector spec.actionType spec.isWrite userId s.world.1 =
      (.ok true, store) ∧
    spec.handler.RunsTwice (fun _ => true) ⟨input, some userId, none⟩ (store, s.world.2)

theorem runTool_once_iff (env : ToolRuntime J W) (toolSpecs : List (ToolSpec J W))
    (fates : List Prog.Fate) (name : String) (input : J) (userId : String)
    (ids : Option (List String)) (s : ToolState J W) :
    RanAtMostOnce (RunToolGranted toolSpecs fates name userId s) s
        (runTool env toolSpecs fates name input userId ids s).2 ↔
      ¬ RunToolTwice toolSpecs fates name input userId ids s := by
  by_cases hblank : userId = ""
  · subst hblank
    have htwice : ¬ RunToolTwice toolSpecs fates name input "" ids s := by
      intro htwice
      obtain ⟨spec, store, -, hcheck, -⟩ := htwice
      exact checkPermissionOn_blank _ _ _ _ _ (congrArg Prod.fst hcheck)
    exact iff_of_true (ranAtMostOnce_of_eq (by simp [runTool])) htwice
  cases hfind : toolSpecs.find? fun spec => spec.name = name with
  | none =>
    refine iff_of_true (ranAtMostOnce_of_eq ?_) (by simp [RunToolTwice, hfind])
    simp only [runTool, hblank, hfind, if_false]
    exact runOopTool_runs env name input userId s
  | some spec =>
    rcases hcheck : checkPermissionOn fates spec.connector spec.actionType spec.isWrite userId
      s.world.1 with ⟨e | allowed, store⟩
    · exact iff_of_true (ranAtMostOnce_of_eq (by simp [runTool, hblank, hfind, hcheck]))
        (by simp [RunToolTwice, hfind, hcheck])
    cases allowed with
    | false =>
      exact iff_of_true (ranAtMostOnce_of_eq (by simp [runTool, hblank, hfind, hcheck]))
        (by simp [RunToolTwice, hfind, hcheck])
    | true =>
      have hgranted : RunToolGranted toolSpecs fates name userId s :=
        ⟨spec, hfind, congrArg Prod.fst hcheck⟩
      obtain ⟨more, hruns, htwice⟩ := spec.handler.callOrLegacy_runs mentionsUserId
        (handlerArgs spec input userId ids) (s.checked store)
      have hmore : (runTool env toolSpecs fates name input userId ids s).2.runs = s.runs ++ more := by
        simp only [runTool, hblank, hfind, hcheck, if_false, runGranted_runs, hruns,
          ToolState.checked_runs]
      rw [ranAtMostOnce_iff hmore, htwice]
      simp [hgranted, RunToolTwice, hfind, hcheck, ToolState.checked]

theorem executeInprocess_once_iff (permission : PermissionCheck) (spec : ToolSpec J W) (input : J)
    (userId : String) (requestId : Option String) (s : ToolState J W) :
    RanAtMostOnce (InprocessGranted permission spec userId s) s
        (executeInprocess permission spec input userId requestId s).2 ↔
      ¬ InprocessTwice permission spec input userId s := by
  rcases hcheck : permission.mayExecute spec.connector spec.actionType spec.isWrite userId
    s.world.1 with ⟨e | allowed, store⟩
  · exact iff_of_true (ranAtMostOnce_of_eq (by simp [executeInprocess, hcheck]))
      (by simp [InprocessTwice, hcheck])
  cases allowed with
  | false =>
    exact iff_of_true (ranAtMostOnce_of_eq (by simp [executeInprocess, hcheck]))
      (by simp [InprocessTwice, hcheck])
  | true =>
    have hgranted : InprocessGranted permission spec userId s := congrArg Prod.fst hcheck
    obtain ⟨more, hruns, htwice⟩ := spec.handler.callOrLegacy_runs (fun _ => true)
      ⟨input, some userId, none⟩ (s.checked store)
    have hmore : (executeInprocess permission spec input userId requestId s).2.runs =
        s.runs ++ more := by
      simp only [executeInprocess, hcheck, executeGranted_runs, hruns, ToolState.checked_runs]
    rw [ranAtMostOnce_iff hmore, htwice]
    simp [hgranted, InprocessTwice, hcheck, ToolState.checked]

/-- One call of a tool, over either of its two callers. -/
theorem toolCall_once_iff (env : ToolRuntime J W) (toolSpecs : List (ToolSpec J W))
    (fates : List Prog.Fate) (name : String) (ids : Option (List String))
    (permission : PermissionCheck) (spec : ToolSpec J W) (requestId : Option String) (input : J)
    (userId : String) (s : ToolState J W) :
    (RanAtMostOnce (RunToolGranted toolSpecs fates name userId s) s
        (runTool env toolSpecs fates name input userId ids s).2 ↔
      ¬ RunToolTwice toolSpecs fates name input userId ids s) ∧
    (RanAtMostOnce (InprocessGranted permission spec userId s) s
        (executeInprocess permission spec input userId requestId s).2 ↔
      ¬ InprocessTwice permission spec input userId s) :=
  ⟨runTool_once_iff env toolSpecs fates name input userId ids s,
    executeInprocess_once_iff permission spec input userId requestId s⟩

end

/-! ## A body that runs twice -/

/-- `def save(input_, *, user_id=None)`: it stores a note, counted here, and then passes `user_id` on
to a function that does not take it. -/
def saveHandler : ToolHandler Nat Nat where
  refuses := fun args => if args.autoRagPointIds = none then none
    else some "save() got an unexpected keyword argument 'auto_rag_point_ids'"
  body := fun _ world =>
    (.error (.typeError "index_note() got an unexpected keyword argument 'user_id'"),
      (world.1, world.2 + 1))

def saveSpec : ToolSpec Nat Nat := ⟨"notes.save", "notes", "save", false, saveHandler⟩

def saveState : ToolState Nat Nat := ⟨(⟨[], [], ∅⟩, 0), [], []⟩

def plainRuntime : ToolRuntime Nat Nat where
  tryRunOopCapabilityTool := fun _ _ _ world => (.ok none, world)
  guardToolResult := fun raw _ _ world => (.ok raw.text, world)
  dumps := fun fields => toString fields

/-- The note is stored twice: `user_id` is optional, and the error of the body names it. -/
theorem save_runs_twice :
    (runTool plainRuntime [saveSpec] [] "notes.save" 7 "ann" none saveState).2.runs =
      [⟨7, some "ann", none⟩, ⟨7, none, none⟩] ∧
    (runTool plainRuntime [saveSpec] [] "notes.save" 7 "ann" none saveState).2.world.2 = 2 ∧
    ¬ RanAtMostOnce (RunToolGranted [saveSpec] [] "notes.save" "ann" saveState) saveState
      (runTool plainRuntime [saveSpec] [] "notes.save" 7 "ann" none saveState).2 := by
  have hruns : (runTool plainRuntime [saveSpec] [] "notes.save" 7 "ann" none saveState).2.runs =
      [⟨7, some "ann", none⟩, ⟨7, none, none⟩] := by decide
  refine ⟨hruns, by decide, ?_⟩
  rw [ranAtMostOnce_iff (hruns.trans (List.nil_append _).symm)]
  simp

end Lumogis
