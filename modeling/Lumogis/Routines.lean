import Lumogis.Lib.Labelled
import Mathlib.Logic.Function.Basic
import Mathlib.Tactic.SplitIfs

/-!
# Lumogis.Routines

Scheduled routines: `register_routine`, `run_routine`, `approve_routine`, `revoke_routine` and the built-in
routines that every start registers again. The approval stands in the row that a registration upserts, so
a registration replaces it. A routine runs exactly when it has been approved since the last revocation, in
every history in which no registration without an approval follows an approval (`run_iff_granted`); the
start of the process makes such a registration for the weekly review (`boot_drops_approval`).
-/

namespace Lumogis

open Labelled

structure RoutineStep where
  actionName : Option String
  input : String := "\x7b\x7d"

structure RoutineSpec where
  name : String
  description : String
  scheduleCron : String
  userId : String
  steps : List RoutineStep := []
  requiresApproval : Bool := true
  approvedAt : Option Nat := none
  lastRunAt : Option Nat := none
  enabled : Bool := true

/-- A row of `routines`, under its name and its user. -/
structure RoutineRow where
  description : String
  scheduleCron : String
  steps : List RoutineStep
  requiresApproval : Bool
  approvedAt : Option Nat
  lastRunAt : Option Nat
  enabled : Bool

/-- A name and a user. -/
abbrev RoutineKey := String × String

structure RoutineAudit where
  actionName : String
  output : String
  userId : String

/-- The table, the scheduler with the cron expressions of its jobs, `_routine_jobs` and the audit log. -/
structure RoutineState where
  routines : RoutineKey → Option RoutineRow
  running : Bool
  jobs : String → Option String
  routineJobs : RoutineKey → Option String
  audits : List RoutineAudit

/-- `str.split`, what the scheduler accepts, and what the handlers of the built-in routines and the
actions do: raise, or return. An action's result may be an error itself. -/
structure RoutineEnv where
  split : String → List String
  validCron : String → Bool
  builtin : String → Option (String → Except String String)
  execute : String → String → String → Except String (Except String Unit)

def RoutineSpec.key (spec : RoutineSpec) : RoutineKey := (spec.name, spec.userId)

/-! ## The scheduler -/

def routineJobId (name userId : String) : String := "routine_" ++ userId ++ "_" ++ name

/-- `_unschedule`. -/
def unschedule (name userId : String) (s : RoutineState) : RoutineState :=
  { s with
    jobs := Function.update s.jobs (routineJobId name userId) none
    routineJobs := Function.update s.routineJobs (name, userId) none }

/-- `_maybe_schedule`, and whether it returns: `add_job` raises for a cron expression that it does not
accept. -/
def maybeSchedule (env : RoutineEnv) (spec : RoutineSpec) (s : RoutineState) : RoutineState × Bool :=
  if !spec.enabled then (s, true)
  else if spec.requiresApproval && spec.approvedAt.isNone then (s, true)
  else if !s.running then (s, true)
  else
    let s := unschedule spec.name spec.userId s
    if (env.split spec.scheduleCron).length ≠ 5 then (s, true)
    else if !env.validCron spec.scheduleCron then (s, false)
    else
      ({ s with
          jobs := Function.update s.jobs (routineJobId spec.name spec.userId) (some spec.scheduleCron)
          routineJobs := Function.update s.routineJobs spec.key
            (some (routineJobId spec.name spec.userId)) }, true)

/-! ## The calls -/

/-- The upsert keeps the last run of the row and replaces everything else, the approval too. -/
def upsertRow (spec : RoutineSpec) (old : Option RoutineRow) : RoutineRow :=
  { description := spec.description
    scheduleCron := spec.scheduleCron
    steps := spec.steps
    requiresApproval := spec.requiresApproval
    approvedAt := spec.approvedAt
    lastRunAt := old.bind RoutineRow.lastRunAt
    enabled := spec.enabled }

def registerRoutine (env : RoutineEnv) (spec : RoutineSpec) (s : RoutineState) : RoutineState × Bool :=
  maybeSchedule env spec { s with
    routines := Function.update s.routines spec.key (some (upsertRow spec (s.routines spec.key))) }

/-- An `UPDATE` of one row, if it is there. -/
def updateRoutine (key : RoutineKey) (f : RoutineRow → RoutineRow) (s : RoutineState) : RoutineState :=
  { s with routines := Function.update s.routines key ((s.routines key).map f) }

/-- `_row_to_spec`. -/
def rowToSpec (key : RoutineKey) (row : RoutineRow) : RoutineSpec :=
  { name := key.1
    description := row.description
    scheduleCron := row.scheduleCron
    userId := key.2
    steps := row.steps
    requiresApproval := row.requiresApproval
    approvedAt := row.approvedAt
    lastRunAt := row.lastRunAt
    enabled := row.enabled }

/-- Nothing for the `TypeError` of an empty user. -/
def approveRoutine (env : RoutineEnv) (name userId : String) (now : Nat) (s : RoutineState) :
    Option (RoutineState × Bool) :=
  if userId = "" then none
  else
    let s := updateRoutine (name, userId) (fun row => { row with approvedAt := some now }) s
    match s.routines (name, userId) with
    | none => some (s, true)
    | some row => some (maybeSchedule env (rowToSpec (name, userId) row) s)

def revokeRoutine (name userId : String) (s : RoutineState) : Option (RoutineState × Bool) :=
  if userId = "" then none
  else
    some (unschedule name userId
      (updateRoutine (name, userId) (fun row => { row with approvedAt := none }) s), true)

/-- The loop of `_dispatch` over the steps of a routine that is not built in. -/
def runSteps (env : RoutineEnv) (userId : String) : List RoutineStep → Except String (List String)
  | [] => .ok []
  | step :: steps => do
    match step.actionName with
    | none => runSteps env userId steps
    | some actionName =>
      if actionName = "" then runSteps env userId steps
      else
        let result ← env.execute actionName step.input userId
        let text := match result with
          | .ok () => "OK"
          | .error e => e
        let outputs ← runSteps env userId steps
        return (actionName ++ ": " ++ text) :: outputs

/-- `_dispatch`. -/
def dispatchRoutine (env : RoutineEnv) (key : RoutineKey) (row : RoutineRow) : Except String String :=
  match env.builtin key.1 with
  | some handler => handler key.2
  | none => do
    let outputs ← runSteps env key.2 row.steps
    return if outputs = [] then "no steps" else "; ".intercalate outputs

inductive RunResult where
  | typeError
  | notFound
  | needsApproval
  | executed (output : Except String String)

/-- The error of the reply; `repr` is Python's. -/
def RunResult.error (repr : String → String) (name : String) : RunResult → Option String
  | .typeError => none
  | .notFound => some ("Routine " ++ repr name ++ " not found")
  | .needsApproval => some ("Routine " ++ repr name ++ " requires approval")
  | .executed (.ok _) => none
  | .executed (.error e) => some e

def runRoutine (env : RoutineEnv) (name userId : String) (now : Nat) (s : RoutineState) :
    RoutineState × RunResult :=
  if userId = "" then (s, .typeError)
  else
    match s.routines (name, userId) with
    | none => (s, .notFound)
    | some row =>
      if row.requiresApproval && row.approvedAt.isNone then (s, .needsApproval)
      else
        match dispatchRoutine env (name, userId) row with
        | .error e => (s, .executed (.error e))
        | .ok output =>
          let s := updateRoutine (name, userId) (fun row => { row with lastRunAt := some now }) s
          ({ s with audits := s.audits ++ [⟨"routine:" ++ name, output, userId⟩] }, .executed (.ok output))

/-! ## The built-in routines -/

def weeklyReviewSpec (userId : String) : RoutineSpec :=
  { name := "weekly_review"
    description := "Collects the week's signals, entities, and session summaries into a structured JSON " ++
      "report saved to ai-workspace/outbox/."
    scheduleCron := "0 18 * * 0"
    userId
    steps := [⟨some "__builtin__weekly_review", "\x7b\x7d"⟩]
    requiresApproval := true
    enabled := true }

/-- Half an hour before `DIGEST_TIME`, or 7:30 where that is not a time. -/
def digestCron : Option (Int × Int) → String
  | none => "30 7 * * *"
  | some (h, m) =>
    if m - 30 < 0 then toString (m - 30 + 60) ++ " " ++ toString ((h - 1) % 24) ++ " * * *"
    else toString (m - 30) ++ " " ++ toString h ++ " * * *"

def inboxDigestSpec (digestTime : Option (Int × Int)) (now : Nat) (userId : String) : RoutineSpec :=
  { name := "inbox_digest"
    description := "Daily listing of new inbox files with metadata, saved to ai-workspace/outbox/."
    scheduleCron := digestCron digestTime
    userId
    steps := [⟨some "__builtin__inbox_digest", "\x7b\x7d"⟩]
    requiresApproval := false
    approvedAt := some now
    enabled := true }

/-! ## Histories -/

/-- A call, or the start of a process: its scheduler has no jobs. -/
inductive RoutineEvent where
  | register (spec : RoutineSpec)
  | approve (name userId : String) (now : Nat)
  | revoke (name userId : String)
  | run (name userId : String) (now : Nat)
  | boot (running : Bool)

/-- `register_all`, for the users that receive the built-in routines. -/
def registerAll (userIds : List String) (digestTime : Option (Int × Int)) (now : Nat) :
    List RoutineEvent :=
  userIds.map (fun uid => .register (weeklyReviewSpec uid)) ++
    userIds.map fun uid => .register (inboxDigestSpec digestTime now uid)

/-- A call that raises a `TypeError` is none of the history. -/
def routineStep (env : RoutineEnv) : RoutineEvent → RoutineState → Option RoutineState
  | .register spec, s => some (registerRoutine env spec s).1
  | .approve name userId now, s => (approveRoutine env name userId now s).map Prod.fst
  | .revoke name userId, s => (revokeRoutine name userId s).map Prod.fst
  | .run name userId now, s => some (runRoutine env name userId now s).1
  | .boot running, s => some { s with running, jobs := fun _ => none, routineJobs := fun _ => none }

/-- The routine runs when it is called. -/
def Executes (env : RoutineEnv) (s : RoutineState) (key : RoutineKey) (now : Nat) : Prop :=
  ∃ output, (runRoutine env key.1 key.2 now s).2 = .executed output

/-- The approval after one more event, as the users decided. -/
def grantedAfter (key : RoutineKey) (granted : Bool) : RoutineEvent → Bool
  | .register spec => granted || (spec.key = key && spec.approvedAt.isSome)
  | .approve name userId _ => granted || (name, userId) = key
  | .revoke name userId => granted && (name, userId) ≠ key
  | .run _ _ _ => granted
  | .boot _ => granted

/-- The routine was approved, or registered with an approval, after its last revocation. -/
def granted (key : RoutineKey) (events : List RoutineEvent) : Bool :=
  events.foldl (grantedAfter key) false

def approvedIn (s : RoutineState) (key : RoutineKey) : Bool :=
  ((s.routines key).bind RoutineRow.approvedAt).isSome

/-- A registration of an approved routine carries an approval, and what is approved is registered. -/
def KeepsApproval (key : RoutineKey) : RoutineEvent → RoutineState → Prop
  | .register spec, s => spec.key = key → approvedIn s key = true → spec.approvedAt.isSome = true
  | .approve name userId _, s => (name, userId) = key → (s.routines key).isSome = true
  | _, _ => True

instance (key : RoutineKey) (e : RoutineEvent) (s : RoutineState) : Decidable (KeepsApproval key e s) :=
  match e with
  | .register _ => inferInstanceAs (Decidable (_ → _ → _))
  | .approve _ _ _ => inferInstanceAs (Decidable (_ → _))
  | .revoke _ _ => .isTrue trivial
  | .run _ _ _ => .isTrue trivial
  | .boot _ => .isTrue trivial

/-! ### What the calls do to the table -/

theorem maybeSchedule_routines (env : RoutineEnv) (spec : RoutineSpec) (s : RoutineState) :
    (maybeSchedule env spec s).1.routines = s.routines := by
  unfold maybeSchedule
  split_ifs <;> rfl

theorem registerRoutine_routines (env : RoutineEnv) (spec : RoutineSpec) (s : RoutineState) :
    (registerRoutine env spec s).1.routines
      = Function.update s.routines spec.key (some (upsertRow spec (s.routines spec.key))) := by
  rw [registerRoutine, maybeSchedule_routines]

theorem approveRoutine_routines {env : RoutineEnv} {name userId : String} {now : Nat}
    {s : RoutineState} {r : RoutineState × Bool} (h : approveRoutine env name userId now s = some r) :
    r.1.routines = Function.update s.routines (name, userId)
      ((s.routines (name, userId)).map fun row => { row with approvedAt := some now }) := by
  simp only [approveRoutine] at h
  split_ifs at h
  split at h
  · cases h
    rfl
  · cases h
    rw [maybeSchedule_routines]
    rfl

theorem runRoutine_row (env : RoutineEnv) (name userId : String) (now : Nat) (s : RoutineState)
    (key : RoutineKey) :
    (runRoutine env name userId now s).1.routines key = s.routines key ∨
      ∃ row, s.routines key = some row ∧ (runRoutine env name userId now s).1.routines key
        = some { row with lastRunAt := some now } := by
  unfold runRoutine
  split_ifs
  · exact .inl rfl
  · cases hrow : s.routines (name, userId) with
    | none => exact .inl rfl
    | some row =>
      simp only
      split_ifs
      · exact .inl rfl
      · cases dispatchRoutine env (name, userId) row with
        | error e => exact .inl rfl
        | ok output =>
          by_cases hkey : key = (name, userId)
          · subst hkey
            exact .inr ⟨row, hrow, by simp [updateRoutine, hrow]⟩
          · exact .inl (by simp [updateRoutine, hkey])

/-! ### The invariant -/

/-- The row says what the users decided. -/
def SaysGranted (key : RoutineKey) (granted : Bool) (s : RoutineState) : Prop :=
  match s.routines key with
  | none => granted = false
  | some row => row.requiresApproval = true ∧ row.approvedAt.isSome = granted

theorem SaysGranted.of_routines {key : RoutineKey} {g : Bool} {s t : RoutineState}
    (h : SaysGranted key g s) (heq : t.routines key = s.routines key) : SaysGranted key g t := by
  rw [SaysGranted, heq]
  exact h

theorem SaysGranted.step {env : RoutineEnv} {key : RoutineKey} {g : Bool} {s t : RoutineState}
    {e : RoutineEvent} (h : SaysGranted key g s)
    (hreq : ∀ spec, e = .register spec → spec.key = key → spec.requiresApproval = true)
    (hkeeps : KeepsApproval key e s) (hstep : routineStep env e s = some t) :
    SaysGranted key (grantedAfter key g e) t := by
  cases e with
  | register spec =>
    cases hstep
    by_cases hkey : spec.key = key
    · -- the row is replaced: what was granted is granted again by the registration
      have hgranted : g = true → spec.approvedAt.isSome = true := by
        intro hg
        refine hkeeps hkey ?_
        cases hrow : s.routines key with
        | none =>
          simp only [SaysGranted, hrow] at h
          rw [h] at hg
          cases hg
        | some row =>
          simp only [SaysGranted, hrow] at h
          rw [approvedIn, hrow]
          exact h.2.trans hg
      have hafter : grantedAfter key g (.register spec) = spec.approvedAt.isSome := by
        cases g with
        | false => simp [grantedAfter, hkey]
        | true => simp [grantedAfter, hgranted rfl]
      rw [hafter, SaysGranted, registerRoutine_routines, hkey, Function.update_self]
      exact ⟨hreq spec rfl hkey, rfl⟩
    · have hafter : grantedAfter key g (.register spec) = g := by simp [grantedAfter, hkey]
      rw [hafter]
      refine h.of_routines ?_
      rw [registerRoutine_routines, Function.update_of_ne (Ne.symm hkey)]
  | approve name userId now =>
    obtain ⟨r, happrove, rfl⟩ := Option.map_eq_some_iff.mp hstep
    have hroutines := approveRoutine_routines happrove
    by_cases hkey : (name, userId) = key
    · obtain ⟨row, hrow⟩ := Option.isSome_iff_exists.mp (hkeeps hkey)
      have hafter : grantedAfter key g (.approve name userId now) = true := by simp [grantedAfter, hkey]
      simp only [SaysGranted, hrow] at h
      rw [hafter, SaysGranted, hroutines, hkey, Function.update_self, hrow]
      exact ⟨h.1, rfl⟩
    · have hafter : grantedAfter key g (.approve name userId now) = g := by simp [grantedAfter, hkey]
      rw [hafter]
      refine h.of_routines ?_
      rw [hroutines, Function.update_of_ne (Ne.symm hkey)]
  | revoke name userId =>
    obtain ⟨r, hrevoke, rfl⟩ := Option.map_eq_some_iff.mp hstep
    have hroutines : r.1.routines = Function.update s.routines (name, userId)
        ((s.routines (name, userId)).map fun row => { row with approvedAt := none }) := by
      simp only [revokeRoutine] at hrevoke
      split_ifs at hrevoke
      cases hrevoke
      rfl
    by_cases hkey : (name, userId) = key
    · have hafter : grantedAfter key g (.revoke name userId) = false := by simp [grantedAfter, hkey]
      rw [hafter, SaysGranted, hroutines, hkey, Function.update_self]
      cases hrow : s.routines key with
      | none => rfl
      | some row =>
        simp only [SaysGranted, hrow] at h
        exact ⟨h.1, rfl⟩
    · have hafter : grantedAfter key g (.revoke name userId) = g := by simp [grantedAfter, hkey]
      rw [hafter]
      refine h.of_routines ?_
      rw [hroutines, Function.update_of_ne (Ne.symm hkey)]
  | run name userId now =>
    cases hstep
    rcases runRoutine_row env name userId now s key with hsame | ⟨row, hrow, hrun⟩
    · exact h.of_routines hsame
    · simp only [SaysGranted, hrow] at h
      simp only [SaysGranted, hrun]
      exact h
  | boot running =>
    cases hstep
    exact h.of_routines rfl

theorem SaysGranted.run {env : RoutineEnv} {key : RoutineKey} {events : List RoutineEvent} :
    ∀ {g : Bool} {s t : RoutineState}, SaysGranted key g s →
      (∀ spec, .register spec ∈ events → spec.key = key → spec.requiresApproval = true) →
      Admitted (routineStep env) (KeepsApproval key) events s →
      Labelled.run (routineStep env) events s = some t →
      SaysGranted key (events.foldl (grantedAfter key) g) t := by
  induction events with
  | nil =>
    intro g s t h _ _ hrun
    cases hrun
    exact h
  | cons e events ih =>
    intro g s t h hreq hadm hrun
    obtain ⟨s', hstep, hrest⟩ := Option.bind_eq_some_iff.mp hrun
    have h' : SaysGranted key (grantedAfter key g e) s' :=
      h.step (fun spec he => hreq spec (by rw [he]; exact List.mem_cons_self)) hadm.1 hstep
    exact ih h' (fun spec hspec => hreq spec (List.mem_cons_of_mem _ hspec)) (hadm.2 s' hstep) hrest

theorem SaysGranted.executes_iff {env : RoutineEnv} {key : RoutineKey} {g : Bool} {s : RoutineState}
    (h : SaysGranted key g s) (huser : key.2 ≠ "") (now : Nat) : Executes env s key now ↔ g = true := by
  cases hrow : s.routines key with
  | none =>
    simp only [SaysGranted, hrow] at h
    simp [Executes, runRoutine, huser, hrow, h]
  | some row =>
    simp only [SaysGranted, hrow] at h
    obtain ⟨hreq, rfl⟩ := h
    cases happroved : row.approvedAt with
    | none => simp [Executes, runRoutine, huser, hrow, hreq, happroved]
    | some time =>
      cases hdispatch : dispatchRoutine env (key.1, key.2) row <;>
        simp [Executes, runRoutine, huser, hrow, happroved, hdispatch]

/-- In every history in which registrations of the approved routine carry an approval, a routine that
requires approval runs exactly when it has been approved since its last revocation. -/
theorem run_iff_granted (env : RoutineEnv) {key : RoutineKey} (huser : key.2 ≠ "")
    {s₀ s : RoutineState} (h₀ : s₀.routines key = none) (events : List RoutineEvent)
    (hreq : ∀ spec, .register spec ∈ events → spec.key = key → spec.requiresApproval = true)
    (hkeeps : Admitted (routineStep env) (KeepsApproval key) events s₀)
    (hrun : Labelled.run (routineStep env) events s₀ = some s) (now : Nat) :
    Executes env s key now ↔ granted key events = true := by
  have hstart : SaysGranted key false s₀ := by
    rw [SaysGranted, h₀]
  exact (hstart.run hreq hkeeps hrun).executes_iff huser now

theorem boot_drops_approval (env : RoutineEnv) (s : RoutineState) (userId : String) (now : Nat) :
    ¬ Executes env (registerRoutine env (weeklyReviewSpec userId) s).1 ("weekly_review", userId) now := by
  by_cases huser : userId = ""
  · simp [Executes, runRoutine, huser]
  · have hrow : (registerRoutine env (weeklyReviewSpec userId) s).1.routines ("weekly_review", userId)
        = some (upsertRow (weeklyReviewSpec userId) (s.routines ("weekly_review", userId))) := by
      rw [registerRoutine_routines]
      exact Function.update_self _ _ _
    have hlocked : SaysGranted ("weekly_review", userId) false
        (registerRoutine env (weeklyReviewSpec userId) s).1 := by
      rw [SaysGranted, hrow]
      exact ⟨rfl, rfl⟩
    rw [hlocked.executes_iff huser]
    decide

namespace RoutineExample

def env : RoutineEnv where
  split _ := ["0", "18", "*", "*", "0"]
  validCron _ := true
  builtin _ := some fun userId => .ok ("review of " ++ userId)
  execute _ _ _ := .ok (.ok ())

def start : RoutineState :=
  { routines := fun _ => none, running := false, jobs := fun _ => none, routineJobs := fun _ => none
    audits := [] }

/-- A start of the process, and an approval. -/
def approved : List RoutineEvent :=
  .boot true :: registerAll ["ann"] (some (8, 0)) 1 ++ [.approve "weekly_review" "ann" 2]

/-- Another start. -/
def restarted : List RoutineEvent := approved ++ .boot true :: registerAll ["ann"] (some (8, 0)) 3

theorem approved_requires (spec : RoutineSpec) (hspec : .register spec ∈ approved)
    (hkey : spec.key = ("weekly_review", "ann")) : spec.requiresApproval = true := by
  have hspecs : spec = weeklyReviewSpec "ann" ∨ spec = inboxDigestSpec (some (8, 0)) 1 "ann" := by
    simpa [approved, registerAll] using hspec
  rcases hspecs with rfl | rfl
  · rfl
  · exact absurd hkey (by decide)

end RoutineExample

open RoutineExample in
theorem run_iff_granted_ann :
    Executes env (runTo (routineStep env) approved start) ("weekly_review", "ann") 4
      ↔ granted ("weekly_review", "ann") approved = true :=
  run_iff_granted env (by decide) rfl approved approved_requires (by decide +kernel) rfl 4

open RoutineExample in
/-- The approval is granted and has not been revoked, and the next start has dropped it. -/
theorem restart_drops_approval :
    ¬ (Executes env (runTo (routineStep env) restarted start) ("weekly_review", "ann") 4
      ↔ granted ("weekly_review", "ann") restarted = true) := by
  intro h
  obtain ⟨output, houtput⟩ := h.mpr (by decide)
  cases houtput

end Lumogis
