import Lumogis.Actions
import Lumogis.Lib.CallBinding
import Lumogis.Lib.Rely
import Lumogis.Lib.Zoom
import Lumogis.Permissions

/-!
# RoutineChecks

Approval counts: `execute` calls `routine_check` after a successful write, and `routine_check` counts it and
fires `ROUTINE_ELEVATION_READY` from the fifteenth on. Its parameters are keyword-only, and `execute` passes
two of them by position: the call raises before the function begins, and `execute` swallows that
(`callRoutineCheck_raises`). So in every run of any threads no count ever moves and no event is fired, and the
counts are earned exactly as long as no write that should be counted has returned (`approval_counts_iff`).
Called by name, the function counts (`routineCheck_counts`).
-/

namespace Lumogis.RoutineChecks

open Prog Relation Actions CallBinding

/-! ## The table and the events -/

structure RoutineKey where
  userId : String
  connector : String
  actionType : String
  deriving DecidableEq

/-- A row of `routine_do_tracking`. -/
structure RoutineRow extends RoutineKey where
  approvalCount : Nat := 0
  editCount : Nat := 0
  autoApproved : Bool := false

/-- `SET approval_count = routine_do_tracking.approval_count + 1`. -/
def RoutineRow.bump (r : RoutineRow) : RoutineRow := { r with approvalCount := r.approvalCount + 1 }

/-- `SET auto_approved = TRUE`. -/
def RoutineRow.elevate (r : RoutineRow) : RoutineRow := { r with autoApproved := true }

theorem RoutineRow.bump_key (r : RoutineRow) : r.bump.toRoutineKey = r.toRoutineKey := rfl

theorem RoutineRow.elevate_key (r : RoutineRow) : r.elevate.toRoutineKey = r.toRoutineKey := rfl

/-- `INSERT ... ON CONFLICT (user_id, connector, action_type) DO UPDATE SET f`. -/
def upsertRoutine (row : RoutineRow) (f : RoutineRow → RoutineRow) (rows : List RoutineRow) : List RoutineRow :=
  if rows.any fun r => r.toRoutineKey = row.toRoutineKey then
    Table.updateWhere (fun r => r.toRoutineKey = row.toRoutineKey) f rows
  else rows ++ [row]

def rowOf (rows : List RoutineRow) (key : RoutineKey) : Option RoutineRow :=
  rows.find? fun r => r.toRoutineKey = key

/-- No row counts as zero. -/
def approvalCount (rows : List RoutineRow) (key : RoutineKey) : Nat :=
  ((rowOf rows key).map RoutineRow.approvalCount).getD 0

def editCount (rows : List RoutineRow) (key : RoutineKey) : Nat :=
  ((rowOf rows key).map RoutineRow.editCount).getD 0

/-- `ROUTINE_ELEVATION_READY`. -/
structure ElevationReady extends RoutineKey where
  approvalCount : Nat

/-- A successful write execution that has returned, and how many of its key had returned when it was called. -/
structure Returned extends RoutineKey where
  before : Nat

/-- The handlers have run for `succeeded` and the calls have returned for `returned`; no function of the
source reads these. -/
structure ExecState (J W : Type) extends ActionState J W where
  perms : PermStore
  tracking : List RoutineRow := []
  ready : List ElevationReady := []
  succeeded : List RoutineKey := []
  returned : List Returned := []

abbrev ExecM (J W : Type) (α : Type) := Prog (ExecState J W) PermErr α

variable {J W : Type}

def permsLens : Lens (ExecState J W) PermStore where
  get := ExecState.perms
  put := fun perms s => { s with perms }
  get_put := fun _ _ => rfl
  put_put := fun _ _ _ => rfl
  put_get := fun _ => rfl

/-! ## permissions.py -/

def bumpApproval (key : RoutineKey) : ExecM J W Unit :=
  act .database fun s => ((), { s with
    tracking := upsertRoutine { key with approvalCount := 1 } RoutineRow.bump s.tracking })

def fetchRoutine (key : RoutineKey) : ExecM J W (Option RoutineRow) :=
  query .database fun s => rowOf s.tracking key

def fireReady (event : ElevationReady) : ExecM J W Unit :=
  act .database fun s => ((), { s with ready := s.ready ++ [event] })

/-- The statements of `routine_check`. -/
def countApproval (key : RoutineKey) : ExecM J W Unit := do
  bumpApproval key
  match ← fetchRoutine key with
  | some row =>
    if 15 ≤ row.approvalCount ∧ row.editCount = 0 then fireReady { key with approvalCount := row.approvalCount }
    else pure ()
  | none => pure ()

/-- `routine_check`: what its statements raise is logged. -/
def routineCheck (userId connector actionType : String) : ExecM J W Unit :=
  if userId = "" then .raise (.type "routine_check: user_id (keyword-only) is required")
  else tryCatch (countApproval ⟨userId, connector, actionType⟩) fun _ => pure ()

/-- `def routine_check(*, user_id, connector, action_type)`. -/
def routineCheckSignature : Signature where
  positional := []
  keywordOnly := ["user_id", "connector", "action_type"]

/-- The value of a parameter. -/
def argument (params : List (String × String)) (name : String) : String := (params.lookup name).getD ""

/-- A call of `routine_check` with these arguments; a `TypeError` if they cannot be bound. -/
def callRoutineCheck (args : List String) (kwargs : List (String × String)) : ExecM J W Unit :=
  match routineCheckSignature.bind args kwargs with
  | .error _ => .raise (.type "routine_check() takes 0 positional arguments")
  | .ok params => routineCheck (argument params "user_id") (argument params "connector") (argument params "action_type")

def elevateToRoutine (userId connector actionType : String) : ExecM J W Unit :=
  if userId = "" then .raise (.type "elevate_to_routine: user_id (keyword-only) is required")
  else act .database fun s => ((), { s with
    tracking := upsertRoutine { userId, connector, actionType, autoApproved := true } RoutineRow.elevate s.tracking })

/-! ## actions/executor.py -/

/-- The handler, and whether it succeeded in a write. -/
def runHandler (spec : Actions.ActionSpec J W) (input : ActionInput J) (userId : String) : ExecM J W HandlerOutcome :=
  act .database fun s =>
    let (outcome, world) := spec.handler input s.world
    (outcome, { s with
      world
      succeeded := if outcome.toResult.success && spec.isWrite then
        s.succeeded ++ [⟨userId, spec.connector, spec.actionType⟩] else s.succeeded })

def giveToken (env : ActionEnv J W) (spec : Actions.ActionSpec J W) (result : Actions.ActionResult) :
    ExecM J W Actions.ActionResult :=
  act .database fun s =>
    let (result, world) := assignToken env spec result s.world
    (result, { s with world })

def auditAndFire (env : ActionEnv J W) (spec : Actions.ActionSpec J W) (input : ActionInput J)
    (result : Actions.ActionResult)
    (userId : String) : ExecM J W Unit :=
  act .database fun s =>
    ((), { s with toActionState := writeAuditAndFire env true spec input result userId s.toActionState })

/-- `execute`. Of the environment, the registry, the tokens, the texts and the clock are used. -/
def execute (env : ActionEnv J W) (name : String) (input : ActionInput J) (userId : String) :
    ExecM J W Actions.ActionResult :=
  if userId = "" then .raise (.type "actions.executor.execute: user_id (keyword-only) is required")
  else
    match env.getAction name with
    | none => pure { success := false, output := "", error := some ("Unknown action: " ++ env.repr name) }
    | some spec => do
      let allowed ← (Permissions.checkPermission spec.connector spec.actionType spec.isWrite userId).zoom permsLens
      if allowed then
        let outcome ← runHandler spec input userId
        let result ← giveToken env spec outcome.toResult
        auditAndFire env spec input result userId
        if result.success && spec.isWrite && !Actions.hardLimited.contains spec.actionType then
          tryCatch (callRoutineCheck [spec.connector, spec.actionType] [("user_id", userId)]) fun _ => pure ()
          pure result
        else pure result
      else
        let result : Actions.ActionResult :=
          { success := false
            output := ""
            error := some ("Permission denied: " ++ spec.connector ++ "/" ++ spec.actionType ++ " requires DO mode") }
        auditAndFire env spec input result userId
        pure result

/-! ## Threads -/

inductive ExecCall (J : Type) where
  | execute (name : String) (input : ActionInput J) (userId : String)
  | elevate (userId connector actionType : String)
  | setMode (userId connector mode : String)

/-- The entry for a successful write, with what had returned when it was called. -/
def returnedBy (env : ActionEnv J W) (name userId : String) (before : List Returned) (result : Actions.ActionResult) :
    List Returned :=
  match env.getAction name with
  | none => []
  | some spec =>
    let key : RoutineKey := ⟨userId, spec.connector, spec.actionType⟩
    if result.success && spec.isWrite then
      [{ key with before := before.countP fun r => r.toRoutineKey = key }]
    else []

def perform (env : ActionEnv J W) : ExecCall J → ExecM J W Unit
  | .execute name input userId => do
    let before ← query .database ExecState.returned
    match ← (execute env name input userId).attempt with
    | .ok result => act .database fun s => ((), { s with returned := s.returned ++ returnedBy env name userId before result })
    | .error _ => pure ()
  | .elevate userId connector actionType => do
    match ← (elevateToRoutine userId connector actionType).attempt with
    | .ok _ => pure ()
    | .error _ => pure ()
  | .setMode userId connector mode => do
    match ← ((Permissions.setConnectorMode userId connector mode).zoom permsLens).attempt with
    | .ok _ => pure ()
    | .error _ => pure ()

/-- A thread that makes its calls one after the other. -/
def worker (env : ActionEnv J W) (calls : List (ExecCall J)) : ExecM J W Unit := forEach (perform env) calls

/-! ## What is claimed of a state -/

def countOf {α : Type} (key : α → RoutineKey) (xs : List α) (k : RoutineKey) : Nat := xs.countP fun x => key x = k

/-- Hard-limited types have no count; of another type all that has returned is counted, and nothing that has not
succeeded; and the event is fired for counts from fifteen on without edits, and for all executions that must
have reached one. -/
structure Earned {ι : Type} (c : ExecState J W × (ι → ExecM J W Unit)) : Prop where
  counted : ∀ key : RoutineKey, key.actionType ∉ Actions.hardLimited →
    countOf Returned.toRoutineKey c.1.returned key ≤ approvalCount c.1.tracking key ∧
      approvalCount c.1.tracking key ≤ countOf id c.1.succeeded key
  settled : (∀ i, ∃ r, Ended (c.2 i) r) → ∀ key : RoutineKey, key.actionType ∉ Actions.hardLimited →
    approvalCount c.1.tracking key = countOf Returned.toRoutineKey c.1.returned key
  uncounted : ∀ key : RoutineKey, key.actionType ∈ Actions.hardLimited → approvalCount c.1.tracking key = 0
  fires : ∀ e ∈ c.1.ready, 15 ≤ e.approvalCount ∧ e.approvalCount ≤ countOf id c.1.succeeded e.toRoutineKey ∧
    editCount c.1.tracking e.toRoutineKey = 0
  fired : ∀ key : RoutineKey, key.actionType ∉ Actions.hardLimited → editCount c.1.tracking key = 0 →
    countOf Returned.toRoutineKey (c.1.returned.filter fun r => 14 ≤ r.before) key
      ≤ countOf ElevationReady.toRoutineKey c.1.ready key

/-! ## The call that does not begin -/

theorem callRoutineCheck_raises (connector actionType userId : String) :
    ∃ e, (callRoutineCheck [connector, actionType] [("user_id", userId)] : ExecM J W Unit) = .raise e := by
  have hlong : routineCheckSignature.positional.length < [connector, actionType].length := Nat.zero_lt_succ 1
  obtain ⟨e, he⟩ := Signature.bind_tooMany hlong [("user_id", userId)]
  exact ⟨_, by rw [callRoutineCheck, he]⟩

theorem rowOf_upsert (rows : List RoutineRow) (row : RoutineRow) {f : RoutineRow → RoutineRow}
    (hf : ∀ r, (f r).toRoutineKey = r.toRoutineKey) (key : RoutineKey) :
    rowOf (upsertRoutine row f rows) key
      = if key = row.toRoutineKey then some (((rowOf rows key).map f).getD row) else rowOf rows key := by
  have hfound : ∀ x, rowOf rows key = some x → x.toRoutineKey = key := by
    intro x hx
    simpa using List.find?_some hx
  rw [upsertRoutine]
  by_cases hany : rows.any fun r => r.toRoutineKey = row.toRoutineKey
  · rw [if_pos hany, rowOf, Table.find?_updateWhere (by simp [hf]), ← rowOf]
    by_cases hkey : key = row.toRoutineKey
    · subst hkey
      obtain ⟨r, hr, hrow⟩ := List.any_eq_true.mp hany
      have hsome : (rowOf rows row.toRoutineKey).isSome := by
        rw [rowOf, List.find?_isSome]
        exact ⟨r, hr, hrow⟩
      obtain ⟨x, hx⟩ := Option.isSome_iff_exists.mp hsome
      simp [hx, hfound x hx]
    · rw [if_neg hkey]
      cases hx : rowOf rows key with
      | none => rfl
      | some x => simp [hfound x hx, hkey]
  · rw [if_neg hany, rowOf, List.find?_append]
    by_cases hkey : key = row.toRoutineKey
    · subst hkey
      have hnone : rows.find? (fun r => r.toRoutineKey = row.toRoutineKey) = none := by
        rw [List.find?_eq_none]
        intro r hr hrow
        exact hany (List.any_eq_true.mpr ⟨r, hr, hrow⟩)
      simp [rowOf, hnone]
    · have hkey' : row.toRoutineKey ≠ key := fun h => hkey h.symm
      simp [rowOf, hkey, hkey']

theorem upsert_elevate_counts (rows : List RoutineRow) (userId connector actionType : String) (key : RoutineKey) :
    approvalCount (upsertRoutine { userId, connector, actionType, autoApproved := true } RoutineRow.elevate rows) key
      = approvalCount rows key := by
  rw [approvalCount, approvalCount, rowOf_upsert _ _ RoutineRow.elevate_key]
  split
  · cases rowOf rows key <;> rfl
  · rfl

theorem elevateToRoutine_counts (userId connector actionType : String) (s : ExecState J W) (key : RoutineKey) :
    approvalCount ((elevateToRoutine userId connector actionType).after s).tracking key
      = approvalCount s.tracking key := by
  by_cases huser : userId = ""
  · simp [elevateToRoutine, huser, Prog.after]
  · simp only [elevateToRoutine, if_neg huser, Prog.after, exec_act, Option.map_some, Option.getD_some]
    exact upsert_elevate_counts s.tracking userId connector actionType key

theorem routineCheck_counts {userId : String} (huser : userId ≠ "") (connector actionType : String)
    (s : ExecState J W) {n : Nat} (hn : approvalCount s.tracking ⟨userId, connector, actionType⟩ = n) :
    wp (fun _ t => approvalCount t.tracking ⟨userId, connector, actionType⟩ = n + 1 ∧
        t.ready = s.ready ++
          if 15 ≤ n + 1 ∧ editCount s.tracking ⟨userId, connector, actionType⟩ = 0 then
            [{ userId, connector, actionType, approvalCount := n + 1 }]
          else [])
      (routineCheck userId connector actionType) s := by
  obtain ⟨row, hrow, hcount, hedits⟩ : ∃ row,
      rowOf (upsertRoutine { userId, connector, actionType, approvalCount := 1 } RoutineRow.bump s.tracking)
        ⟨userId, connector, actionType⟩ = some row ∧ row.approvalCount = n + 1 ∧
      row.editCount = editCount s.tracking ⟨userId, connector, actionType⟩ := by
    rw [rowOf_upsert _ _ RoutineRow.bump_key, if_pos rfl, ← hn, approvalCount, editCount]
    refine ⟨_, rfl, ?_⟩
    cases rowOf s.tracking ⟨userId, connector, actionType⟩ with
    | none => exact ⟨rfl, rfl⟩
    | some r => exact ⟨rfl, rfl⟩
  rw [routineCheck, if_neg huser, wp_tryCatch, countApproval, wp_bind, bumpApproval, wp_act]
  simp only [seqPost]
  rw [wp_bind, fetchRoutine, wp_query]
  simp only [seqPost, hrow]
  have hsame : (15 ≤ row.approvalCount ∧ row.editCount = 0)
      = (15 ≤ n + 1 ∧ editCount s.tracking ⟨userId, connector, actionType⟩ = 0) := by rw [hcount, hedits]
  simp only [hsame]
  split
  · rw [fireReady, wp_act, hcount]
    refine ⟨?_, rfl⟩
    simp only [approvalCount, hrow, Option.map_some, Option.getD_some, hcount]
  · rw [List.append_nil]
    refine ⟨?_, rfl⟩
    simp only [approvalCount, hrow, Option.map_some, Option.getD_some, hcount]

/-! ## Runs -/

/-- No row has a count, and no event was fired. -/
def Untouched (s : ExecState J W) : Prop := (∀ key, approvalCount s.tracking key = 0) ∧ s.ready = []

/-- What every call keeps. -/
def Keeps (s t : ExecState J W) : Prop := Untouched s → Untouched t

theorem keeps_of_same {s t : ExecState J W} (htracking : t.tracking = s.tracking) (hready : t.ready = s.ready) :
    Keeps s t := by
  intro h
  rw [Untouched, htracking, hready]
  exact h

theorem always_zoom_perms {α : Type} (p : Prog PermStore PermErr α) :
    Always Keeps (p.zoom (permsLens : Lens (ExecState J W) PermStore)) :=
  always_zoom (fun _ _ => keeps_of_same rfl rfl) p

theorem always_execute (env : ActionEnv J W) (name : String) (input : ActionInput J) (userId : String) :
    Always Keeps (execute env name input userId) := by
  have hact : ∀ {α : Type} (f : ExecState J W → α × ExecState J W),
      (∀ s, (f s).2.tracking = s.tracking ∧ (f s).2.ready = s.ready) → Always Keeps (act PermErr.database f) := by
    intro α f hf
    exact always_act fun s => keeps_of_same (hf s).1 (hf s).2
  rw [execute]
  split
  · trivial
  · split
    · trivial
    · rename_i spec _
      refine Always.bind (always_zoom_perms _) fun allowed => ?_
      split
      · refine Always.bind (hact _ fun s => ⟨rfl, rfl⟩) fun outcome => ?_
        refine Always.bind (hact _ fun s => ⟨rfl, rfl⟩) fun result => ?_
        refine Always.bind (hact _ fun s => ⟨rfl, rfl⟩) fun _ => ?_
        split
        · obtain ⟨e, he⟩ : ∃ e, (callRoutineCheck [spec.connector, spec.actionType] [("user_id", userId)] :
              ExecM J W Unit) = .raise e := callRoutineCheck_raises spec.connector spec.actionType userId
          rw [he]
          trivial
        · trivial
      · exact Always.bind (hact _ fun s => ⟨rfl, rfl⟩) fun _ => trivial

theorem always_perform (env : ActionEnv J W) (call : ExecCall J) : Always Keeps (perform env call) := by
  cases call with
  | execute name input userId =>
    refine Always.bind (always_query fun s h => h) fun before => ?_
    refine Always.bind (always_execute env name input userId).attempt fun r => ?_
    cases r with
    | ok result => exact always_act fun s => keeps_of_same rfl rfl
    | error e => trivial
  | elevate userId connector actionType =>
    have helevate : Always Keeps (elevateToRoutine userId connector actionType : ExecM J W Unit) := by
      rw [elevateToRoutine]
      split
      · trivial
      · refine always_act fun s h => ⟨fun key => ?_, h.2⟩
        exact (upsert_elevate_counts s.tracking userId connector actionType key).trans (h.1 key)
    refine Always.bind helevate.attempt fun r => ?_
    cases r <;> trivial
  | setMode userId connector mode =>
    refine Always.bind (always_zoom_perms _).attempt fun r => ?_
    cases r <;> trivial

/-- Before the first call. -/
structure Start (s : ExecState J W) : Prop where
  tracking : s.tracking = []
  ready : s.ready = []
  succeeded : s.succeeded = []
  returned : s.returned = []

section Runs

variable {ι : Type} [DecidableEq ι] {env : ActionEnv J W} {calls : ι → List (ExecCall J)} {s₀ : ExecState J W}
  {c : ExecState J W × (ι → ExecM J W Unit)}

theorem untouched_reached (h₀ : Start s₀)
    (h : ReflTransGen (Step fun _ _ _ => True) (s₀, fun i => worker env (calls i)) c) : Untouched c.1 := by
  have hstart : Untouched s₀ := by
    refine ⟨fun key => ?_, h₀.ready⟩
    rw [h₀.tracking]
    rfl
  have hworker : ∀ i, Always Keeps (worker env (calls i)) := fun i =>
    Always.forEach fun call _ => always_perform env call
  refine Sat.invariant (R := fun _ _ _ => True) (G := fun _ => Keeps) (Q := fun _ _ _ => True) ?_ ?_ ?_ hstart h
  · intro i j _ s t _
    trivial
  · intro i s t hkeeps hs
    exact hkeeps hs
  · intro i
    exact Sat.always (hworker i) (fun s t _ hk _ => hk) (fun _ _ _ _ => trivial) (fun _ _ _ _ _ => trivial) trivial

theorem approval_counts_iff (h₀ : Start s₀)
    (h : ReflTransGen (Step fun _ _ _ => True) (s₀, fun i => worker env (calls i)) c) :
    (Earned c ↔ ∀ r ∈ c.1.returned, r.actionType ∈ Actions.hardLimited) ∧
      ∀ userId connector actionType key, approvalCount ((elevateToRoutine userId connector actionType).after c.1).tracking key
        = approvalCount c.1.tracking key := by
  obtain ⟨hcount, hready⟩ := untouched_reached h₀ h
  refine ⟨?_, fun userId connector actionType key => elevateToRoutine_counts userId connector actionType c.1 key⟩
  constructor
  · intro hearned r hr
    by_contra hsoft
    have hle := (hearned.counted r.toRoutineKey hsoft).1
    have hpos : 0 < countOf Returned.toRoutineKey c.1.returned r.toRoutineKey :=
      List.countP_pos_iff.mpr ⟨r, hr, by simp⟩
    rw [hcount] at hle
    omega
  · intro hhard
    have hnone : ∀ key : RoutineKey, key.actionType ∉ Actions.hardLimited →
        countOf Returned.toRoutineKey c.1.returned key = 0 := by
      intro key hsoft
      rw [countOf, List.countP_eq_zero]
      intro r hr hkey
      have hrkey : r.toRoutineKey = key := by simpa using hkey
      exact hsoft (hrkey ▸ hhard r hr)
    constructor
    · intro key hsoft
      rw [hnone key hsoft, hcount]
      exact ⟨le_refl _, Nat.zero_le _⟩
    · intro _ key hsoft
      rw [hnone key hsoft, hcount]
    · intro key _
      exact hcount key
    · intro e he
      rw [hready] at he
      cases he
    · intro key hsoft _
      have hle : countOf Returned.toRoutineKey (c.1.returned.filter fun r => 14 ≤ r.before) key
          ≤ countOf Returned.toRoutineKey c.1.returned key := List.Sublist.countP_le List.filter_sublist
      rw [hnone key hsoft] at hle
      omega

end Runs

/-! ### One execution -/

/-- A write action of this type that succeeds. -/
def oneAction (actionType : String) : ActionEnv Unit Unit where
  getAction := fun name => some
    { name, connector := "photos", actionType, isWrite := true, isReversible := false
      handler := fun _ w => (.result { success := true, output := "done" }, w) }
  checkPermission := fun _ _ _ _ w => (.ok true, w)
  routineCheck := fun _ _ _ w => w
  uuid4 := fun w => ("", w)
  dumps := fun _ => "{}"
  repr := id
  now := fun _ => 0

/-- Alice lets the connector write. -/
def allowed : ExecState Unit Unit where
  world := ()
  auditLog := []
  perms := { connectorPermissions := [⟨"alice", "photos", "DO", []⟩], actionLog := [], permCache := ∅ }

theorem allowed_start : Start allowed := ⟨rfl, rfl, rfl, rfl⟩

def begun (actionType : String) : ExecState Unit Unit × (Unit → ExecM Unit Unit Unit) :=
  (allowed, fun _ => worker (oneAction actionType) [.execute "run" [] "alice"])

def ended (actionType : String) : ExecState Unit Unit × (Unit → ExecM Unit Unit Unit) :=
  schedule (List.replicate 9 ()) (begun actionType)

theorem ended_reached (actionType : String) :
    ReflTransGen (Step fun _ _ _ => True) (begun actionType) (ended actionType) := by
  apply schedule_reaches
  generalize begun actionType = c
  induction (List.replicate 9 ()) generalizing c with
  | nil => trivial
  | cons i is ih => exact ⟨trivial, ih _⟩

/-- A deletion has succeeded, and has no count. -/
theorem approval_counts_deletion :
    (Earned (ended "permanent_deletion") ↔
      ∀ r ∈ (ended "permanent_deletion").1.returned, r.actionType ∈ Actions.hardLimited) ∧
      ∀ userId connector actionType key,
        approvalCount ((elevateToRoutine userId connector actionType).after (ended "permanent_deletion").1).tracking key
          = approvalCount (ended "permanent_deletion").1.tracking key :=
  approval_counts_iff allowed_start (ended_reached "permanent_deletion")

/-- Alice has tagged a photo, and has no approval for it. -/
theorem success_not_counted :
    Start (begun "tag_photo").1 ∧ ReflTransGen (Step fun _ _ _ => True) (begun "tag_photo") (ended "tag_photo") ∧
      ¬ Earned (ended "tag_photo") := by
  refine ⟨allowed_start, ended_reached "tag_photo", ?_⟩
  intro h
  have hle := (h.counted ⟨"alice", "photos", "tag_photo"⟩ (by decide)).1
  have hreturned : countOf Returned.toRoutineKey (ended "tag_photo").1.returned ⟨"alice", "photos", "tag_photo"⟩ = 1 := by
    decide +kernel
  have hcount : approvalCount (ended "tag_photo").1.tracking ⟨"alice", "photos", "tag_photo"⟩ = 0 := by decide +kernel
  omega

end Lumogis.RoutineChecks
