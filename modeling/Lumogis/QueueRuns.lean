import Lumogis.BatchQueue
import Lumogis.Lib.Fault
import Lumogis.Lib.Labelled
import Mathlib.Data.List.Nodup

/-!
# QueueRuns

The batch queue as a system: any number of workers, each somewhere in `_run_one_tick`, the sweeper
that resets stuck jobs, new jobs, and everything that goes on outside the queue's columns. A step is
one statement on the queue, with its fate. Below the system: what each kind of step does
(`step*_cases`), the rows of the table by their ids (`jobRow`), and that what `_run_one_tick` does
alone, whatever its faults, is a run of the system (`runOneTick_runs`).
-/

namespace Lumogis

open Prog Labelled

/-- Where a worker is in `_run_one_tick`. -/
inductive TickPhase where
  | idle
  | handling (job : ClaimedJob)
  /-- The handler or `complete` has raised; `fail` is next. -/
  | failing (job : ClaimedJob) (error : String)
  /-- `fail` has read the row. -/
  | recording (job : ClaimedJob) (error : String) (attempt : Nat)

def TickPhase.job : TickPhase → Option ClaimedJob
  | .idle => none
  | .handling job => some job
  | .failing job _ => some job
  | .recording job _ _ => some job

structure QueueConfig (ι : Type) where
  store : Store
  phase : ι → TickPhase
  /-- `reset_stuck` has not taken the worker's job since the worker claimed it. -/
  leased : ι → Bool
  /-- The jobs claimed so far, the latest first. -/
  claimed : List Nat

inductive QueueLabel (ι : Type) where
  | enqueue (userId : String) (payload : JobPayload)
  | claim (i : ι) (fate : Fate)
  | handlerRaises (i : ι) (error : String)
  /-- The handler has returned. -/
  | complete (i : ι) (fate : Fate)
  | failRead (i : ι) (fate : Fate)
  | failWrite (i : ι) (fate : Fate)
  | resetPending (stuckAfterSeconds : Nat)
  | resetDead (stuckAfterSeconds : Nat)
  | crash (i : ι)
  | wait (minutes : Nat)
  /-- What handlers and other services do, and progress reports. -/
  | elsewhere (store : Store)

/-- The row without what its progress reports write. -/
def JobRow.queueColumns (j : JobRow) : JobRow :=
  { j with progressStage := none, progressPct := none, progressMessage := none }

def Store.sameQueue (s t : Store) : Bool :=
  decide (t.db.userBatchJobs.map JobRow.queueColumns = s.db.userBatchJobs.map JobRow.queueColumns) &&
    decide (t.db.userBatchJobsSeq = s.db.userBatchJobsSeq) && decide (t.now = s.now)

section System

variable {ι : Type} [DecidableEq ι]

def QueueConfig.put (i : ι) (p : TickPhase) (store : Store) (c : QueueConfig ι) : QueueConfig ι :=
  { c with store := store, phase := Function.update c.phase i p }

/-- The leases that are left when the jobs `ids` are reset. -/
def QueueConfig.stillLeased (ids : List Nat) (c : QueueConfig ι) (i : ι) : Bool :=
  c.leased i && !(c.phase i).job.any fun job => ids.contains job.id

def stepClaim (env : Env) (worker : String) (i : ι) (fate : Fate) (c : QueueConfig ι) :
    Option (QueueConfig ι) :=
  match c.phase i, (claimNext env worker).execFates [fate] c.store with
  | .idle, some (r, t) =>
    let claimed :=
      if fate = .lost then c.claimed
      else ((c.store.nextEligible env).map JobRow.id).toList ++ c.claimed
    match r with
    | .ok (some job) =>
      some { c.put i (.handling job) t with
        leased := Function.update c.leased i true, claimed := claimed }
    | _ => some { c with store := t, claimed := claimed }
  | _, _ => none

def stepComplete (env : Env) (i : ι) (fate : Fate) (c : QueueConfig ι) : Option (QueueConfig ι) :=
  match c.phase i with
  | .handling job =>
    match (complete job.id).execFates [fate] c.store with
    | some (.ok _, t) => some (c.put i .idle t)
    | some (.error e, t) => some (c.put i (.failing job (env.reprError e)) t)
    | none => none
  | _ => none

def stepFailRead (i : ι) (fate : Fate) (c : QueueConfig ι) : Option (QueueConfig ι) :=
  match c.phase i with
  | .failing job error =>
    match (failRead job.id).execFates [fate] c.store with
    | some (.ok (some j), t) => some (c.put i (.recording job error j.attempt) t)
    | some (_, t) => some (c.put i .idle t)
    | none => none
  | _ => none

def stepFailWrite (env : Env) (i : ι) (fate : Fate) (c : QueueConfig ι) : Option (QueueConfig ι) :=
  match c.phase i with
  | .recording job error attempt =>
    match (failWrite job.id error env.maxAttempts attempt).execFates [fate] c.store with
    | some (_, t) => some (c.put i .idle t)
    | none => none
  | _ => none

/-- One of the two statements of `reset_stuck`. -/
def stepReset (statement : M (List Nat)) (c : QueueConfig ι) : Option (QueueConfig ι) :=
  match statement.exec c.store with
  | some (.ok ids, t) => some { c with store := t, leased := c.stillLeased ids }
  | _ => none

def queueStep (env : Env) (workerId : ι → String) : QueueLabel ι → QueueConfig ι →
    Option (QueueConfig ι)
  | .enqueue userId payload, c => some { c with store := (enqueue userId payload).after c.store }
  | .claim i fate, c => stepClaim env (workerId i) i fate c
  | .handlerRaises i error, c =>
    match c.phase i with
    | .handling job => some (c.put i (.failing job error) c.store)
    | _ => none
  | .complete i fate, c => stepComplete env i fate c
  | .failRead i fate, c => stepFailRead i fate c
  | .failWrite i fate, c => stepFailWrite env i fate c
  | .resetPending after, c => stepReset (resetStuckPending after env.maxAttempts) c
  | .resetDead after, c => stepReset (resetStuckDead after env.maxAttempts) c
  | .crash i, c => some (c.put i .idle c.store)
  | .wait minutes, c => some { c with store := { c.store with now := c.store.now + minutes } }
  | .elsewhere store, c => if c.store.sameQueue store then some { c with store := store } else none

/-! ## What a step does -/

/-- The row after `complete`. -/
def JobRow.completed (now : Nat) (j : JobRow) : JobRow :=
  { j with status := .done, finishedAt := some now }

theorem stepClaim_cases {env : Env} {worker : String} {i : ι} {fate : Fate} {c c' : QueueConfig ι}
    (h : stepClaim env worker i fate c = some c') :
    c.phase i = .idle ∧ (c' = c ∨ ∃ j, c.store.nextEligible env = some j ∧
      c'.store = c.store.updateJob j.id (JobRow.claimed c.store.now worker) ∧
      c'.claimed = j.id :: c.claimed ∧
      (c'.phase = c.phase ∧ c'.leased = c.leased ∨
        ∃ job : ClaimedJob, job.id = j.id ∧ c'.phase = Function.update c.phase i (.handling job) ∧
          c'.leased = Function.update c.leased i true)) := by
  unfold stepClaim at h
  cases hp : c.phase i with
  | handling job => simp [hp] at h
  | failing job e => simp [hp] at h
  | recording job e n => simp [hp] at h
  | idle =>
    refine ⟨rfl, ?_⟩
    simp only [hp, claimNext, execFates_act] at h
    cases hn : c.store.nextEligible env with
    | none =>
      left
      cases fate <;> (simp [hn] at h; exact h.symm)
    | some j =>
      simp only [hn] at h
      cases fate with
      | lost => exact .inl (by simpa using h.symm)
      | ok =>
        cases h
        exact .inr ⟨j, rfl, rfl, rfl, .inr ⟨_, rfl, rfl, rfl⟩⟩
      | late =>
        cases h
        exact .inr ⟨j, rfl, rfl, rfl, .inl ⟨rfl, rfl⟩⟩

theorem stepComplete_cases {env : Env} {i : ι} {fate : Fate} {c c' : QueueConfig ι}
    (h : stepComplete env i fate c = some c') :
    ∃ job p, c.phase i = .handling job ∧ (p = .idle ∨ ∃ e, p = .failing job e) ∧
      (fate = .lost ∧ c' = c.put i p c.store ∨
        fate ≠ .lost ∧
          c' = c.put i p (c.store.updateJob job.id (JobRow.completed c.store.now))) := by
  unfold stepComplete at h
  split at h
  · rename_i job hp
    rw [complete, execFates_act] at h
    cases fate with
    | ok => cases h; exact ⟨job, .idle, hp, .inl rfl, .inr ⟨by simp, rfl⟩⟩
    | lost => cases h; exact ⟨job, _, hp, .inr ⟨_, rfl⟩, .inl ⟨rfl, rfl⟩⟩
    | late => cases h; exact ⟨job, _, hp, .inr ⟨_, rfl⟩, .inr ⟨by simp, rfl⟩⟩
  · cases h

theorem stepFailRead_cases {i : ι} {fate : Fate} {c c' : QueueConfig ι}
    (h : stepFailRead i fate c = some c') :
    ∃ job e p, c.phase i = .failing job e ∧ (p = .idle ∨ ∃ n, p = .recording job e n) ∧
      c' = c.put i p c.store := by
  unfold stepFailRead at h
  split at h
  · rename_i job e hp
    rw [failRead, select, query, execFates_act] at h
    refine ⟨job, e, c'.phase i, hp, ?_⟩
    cases fate with
    | lost => cases h; simp [QueueConfig.put]
    | late => cases h; simp [QueueConfig.put]
    | ok =>
      cases hf : c.store.db.userBatchJobs.find? (JobRow.isRunning job.id) with
      | none => simp only [hf] at h; cases h; simp [QueueConfig.put]
      | some j => simp only [hf] at h; cases h; simp [QueueConfig.put]
  · cases h

theorem stepFailWrite_cases {env : Env} {i : ι} {fate : Fate} {c c' : QueueConfig ι}
    (h : stepFailWrite env i fate c = some c') :
    ∃ job e n, c.phase i = .recording job e n ∧
      (fate = .lost ∧ c' = c.put i .idle c.store ∨
        fate ≠ .lost ∧ c' = c.put i .idle { c.store with
          db := { c.store.db with
            userBatchJobs := Table.updateWhere (JobRow.isRunning job.id)
              (JobRow.failed c.store.now e env.maxAttempts (2 ^ (n + 1)))
              c.store.db.userBatchJobs } }) := by
  unfold stepFailWrite at h
  split at h
  · rename_i job e n hp
    rw [failWrite, execFates_act] at h
    refine ⟨job, e, n, hp, ?_⟩
    cases fate with
    | ok => cases h; simp
    | lost => cases h; simp
    | late => cases h; simp
  · cases h

theorem nextEligible_pending {env : Env} {s : Store} {j : JobRow} (h : s.nextEligible env = some j) :
    j ∈ s.db.userBatchJobs ∧ j.status = .pending := by
  have hm := List.argmin_mem h
  simp only [List.mem_filter, JobRow.eligible, Bool.and_eq_true, beq_iff_eq] at hm
  exact ⟨hm.1, hm.2.1.1⟩

theorem JobRow.stuck_running {now after : Nat} {j : JobRow} (h : j.stuck now after = true) :
    j.status = .running := by
  rw [JobRow.stuck, Bool.and_eq_true] at h
  exact beq_iff_eq.mp h.1

theorem resetStuckPending_exec (after maxAttempts : Nat) (s : Store) :
    (resetStuckPending after maxAttempts).exec s = some
      (.ok ((s.db.userBatchJobs.filter fun j =>
        j.stuck s.now after && decide (j.attempt < maxAttempts)).map JobRow.id),
      { s with db := { s.db with
          userBatchJobs := Table.updateWhere
            (fun j => j.stuck s.now after && decide (j.attempt < maxAttempts)) JobRow.requeued
            s.db.userBatchJobs } }) := rfl

theorem resetStuckDead_exec (after maxAttempts : Nat) (s : Store) :
    (resetStuckDead after maxAttempts).exec s = some
      (.ok ((s.db.userBatchJobs.filter fun j =>
        j.stuck s.now after && decide (maxAttempts ≤ j.attempt)).map JobRow.id),
      { s with db := { s.db with
          userBatchJobs := Table.updateWhere
            (fun j => j.stuck s.now after && decide (maxAttempts ≤ j.attempt))
            (fun j => { j with status := .dead, finishedAt := some s.now }) s.db.userBatchJobs } }) :=
  rfl

omit [DecidableEq ι] in
theorem stepReset_cases {hit : JobRow → Bool} {f : JobRow → JobRow} {statement : M (List Nat)}
    {c c' : QueueConfig ι}
    (hst : statement.exec c.store = some (.ok ((c.store.db.userBatchJobs.filter hit).map JobRow.id),
      { c.store with
        db := { c.store.db with
          userBatchJobs := Table.updateWhere hit f c.store.db.userBatchJobs } }))
    (h : stepReset statement c = some c') :
    c'.store.db.userBatchJobs = Table.updateWhere hit f c.store.db.userBatchJobs ∧
      c'.store.db.userBatchJobsSeq = c.store.db.userBatchJobsSeq ∧ c'.phase = c.phase ∧
      c'.leased = c.stillLeased ((c.store.db.userBatchJobs.filter hit).map JobRow.id) ∧
      c'.claimed = c.claimed := by
  rw [stepReset, hst] at h
  cases h
  exact ⟨rfl, rfl, rfl, rfl, rfl⟩

/-! ## Rows by id -/

def Store.jobRow (s : Store) (id : Nat) : Option JobRow := Table.lookup JobRow.id s.db.userBatchJobs id

theorem jobRow_id {s : Store} {id : Nat} {j : JobRow} (h : s.jobRow id = some j) : j.id = id :=
  Table.lookup_key h

theorem jobRow_enqueued {s t : Store} {job : JobRow}
    (hj : t.db.userBatchJobs = s.db.userBatchJobs ++ [job]) {id : Nat} {j : JobRow}
    (h : s.jobRow id = some j) : t.jobRow id = some j := by
  rw [Store.jobRow, hj]
  exact Table.lookup_append h

def JobStatus.terminal : JobStatus → Bool
  | .done => true
  | .dead => true
  | _ => false

/-- `id` is a primary key, drawn from a sequence. -/
def Keyed (s : Store) : Prop := Table.Keyed JobRow.id s.db.userBatchJobsSeq s.db.userBatchJobs

theorem Keyed.jobRow {s : Store} (h : Keyed s) {j : JobRow} (hj : j ∈ s.db.userBatchJobs) :
    s.jobRow j.id = some j := Table.Keyed.lookup h hj

/-- Each job has its row in both stores, and `R` leads from the one to the other. -/
structure Rewrites (R : JobRow → JobRow → Prop) (s t : Store) : Prop where
  rows : Table.Rewrites JobRow.id R s.db.userBatchJobs t.db.userBatchJobs
  seq : t.db.userBatchJobsSeq = s.db.userBatchJobsSeq

section Rewrites

variable {R : JobRow → JobRow → Prop} {s t : Store} {id : Nat} {j : JobRow}

theorem Rewrites.later (h : Rewrites R s t) (hj : s.jobRow id = some j) :
    ∃ j', t.jobRow id = some j' ∧ R j j' := h.rows.later hj

theorem Rewrites.earlier (h : Rewrites R s t) (hj : t.jobRow id = some j) :
    ∃ j', s.jobRow id = some j' ∧ R j' j := h.rows.earlier hj

theorem Rewrites.absent (h : Rewrites R s t) : t.jobRow id = none ↔ s.jobRow id = none :=
  h.rows.absent

end Rewrites

theorem Keyed.rewrites {R : JobRow → JobRow → Prop} {s t : Store} (h : Keyed s)
    (hr : Rewrites R s t) : Keyed t := by
  rw [Keyed, hr.seq]
  exact Table.Keyed.rewrites h hr.rows

theorem rewrites_updateWhere {p : JobRow → Bool} {f : JobRow → JobRow} (hf : ∀ j, (f j).id = j.id)
    {s t : Store} (hj : t.db.userBatchJobs = Table.updateWhere p f s.db.userBatchJobs)
    (hs : t.db.userBatchJobsSeq = s.db.userBatchJobsSeq) :
    Rewrites (fun j j' => j' = if p j then f j else j) s t :=
  ⟨hj ▸ Table.rewrites_updateWhere hf, hs⟩

theorem rewrites_same {s t : Store} (hj : t.db.userBatchJobs = s.db.userBatchJobs)
    (hs : t.db.userBatchJobsSeq = s.db.userBatchJobsSeq) : Rewrites (fun j j' => j' = j) s t :=
  ⟨hj ▸ Table.rewrites_refl, hs⟩

theorem rewrites_elsewhere {s t : Store} (h : s.sameQueue t = true) :
    Rewrites (fun j j' => j'.queueColumns = j.queueColumns) s t := by
  simp only [Store.sameQueue, Bool.and_eq_true, decide_eq_true_eq] at h
  exact ⟨Table.rewrites_map (k := JobRow.id) (fun _ => rfl) h.1.1, h.1.2⟩

/-! ## A tick is a run -/

/-- A run from `c` leads to the store `t`, with worker `i` in a phase that `P` allows. -/
abbrev TickRunsTo (env : Env) (workerId : ι → String) (c : QueueConfig ι) (i : ι)
    (P : TickPhase → Prop) (t : Store) : Prop :=
  RunsTo (queueStep env workerId) (fun _ _ => True) QueueConfig.store c (fun c' => P (c'.phase i)) t

section Ticks

variable {env : Env} {workerId : ι → String} {c : QueueConfig ι} {i : ι} {P : TickPhase → Prop}
  {s : Store}

theorem sameQueue_refl (s : Store) : s.sameQueue s = true := by simp [Store.sameQueue]

theorem sameQueue_trans (a b d : Store) (h : a.sameQueue b = true) (h' : b.sameQueue d = true) :
    a.sameQueue d = true := by
  simp only [Store.sameQueue, Bool.and_eq_true, decide_eq_true_eq] at h h' ⊢
  exact ⟨⟨h'.1.1.trans h.1.1, h'.1.2.trans h.1.2⟩, h'.2.trans h.2⟩

theorem always_progress (jobId : Nat) (userId : String) (stage : Stage) (message : Option String) :
    Always (fun s t => s.sameQueue t = true)
      (updateIngestJobProgress jobId userId stage message) := by
  refine always_actE fun s => ?_
  simp only [Store.sameQueue]
  split
  · simp only [Table.updateWhere, List.map_map, Bool.and_eq_true, decide_eq_true_eq, and_true]
    refine List.map_congr_left fun j _ => ?_
    simp only [Function.comp]
    split <;> rfl
  · simp

theorem always_failure (env : Env) (j : JobRow) (newAttempt maxAttempts : Nat) (error : String) :
    Always (fun s t => s.sameQueue t = true)
      (maybeHandleIngestJobFailure env j newAttempt maxAttempts error) := by
  rw [maybeHandleIngestJobFailure]
  split
  · trivial
  · split <;> exact always_progress _ _ _ _

theorem TickRunsTo.always {α : Type} {p : M α} (h : TickRunsTo env workerId c i P s)
    (hp : Always (fun s t => s.sameQueue t = true) p) :
    Post (fun _ t => TickRunsTo env workerId c i P t) p s := by
  refine (hp.post sameQueue_refl sameQueue_trans s).mono fun _ t hst => ?_
  refine h.next (l := .elsewhere t) fun c' hc' hs => ?_
  subst hs
  exact ⟨trivial, { c' with store := t }, by simp [queueStep, hst], hc', rfl⟩

theorem TickRunsTo.failRead {job : ClaimedJob} {error : String}
    (h : TickRunsTo env workerId c i (fun p => p = .failing job error) s) :
    TickRunsTo env workerId c i (fun p =>
      match s.db.userBatchJobs.find? (JobRow.isRunning job.id) with
      | none => p = .idle
      | some j => p = .recording job error j.attempt) s := by
  refine h.next (l := .failRead i .ok) fun c' hc' hs => ?_
  subst hs
  simp only [queueStep, stepFailRead, hc', Lumogis.failRead, select, query, execFates_act]
  cases c'.store.db.userBatchJobs.find? (JobRow.isRunning job.id) <;>
    exact ⟨trivial, _, rfl, by simp [QueueConfig.put], rfl⟩

theorem TickRunsTo.fail {job : ClaimedJob} {error : String}
    (h : TickRunsTo env workerId c i (fun p => p = .failing job error) s) :
    Post (fun _ t => TickRunsTo env workerId c i (fun _ => True) t)
      (fail env job.id error env.maxAttempts) s := by
  have hgone : TickRunsTo env workerId c i (fun _ => True) s := h.mono fun _ _ => trivial
  have hread := h.failRead
  rw [fail_eq, post_bind, Lumogis.failRead, select, post_query]
  refine ⟨?_, hgone⟩
  simp only [seqPost]
  cases hf : s.db.userBatchJobs.find? (JobRow.isRunning job.id) with
  | none => exact hgone
  | some j =>
    rw [hf] at hread
    have hwrite : ∀ fate : Fate, ∀ t,
        (∃ r, (failWrite job.id error env.maxAttempts j.attempt).execFates [fate] s = some (r, t)) →
          TickRunsTo env workerId c i (fun _ => True) t := by
      rintro fate t ⟨r, hr⟩
      refine hread.next (l := .failWrite i fate) fun c' hc' hs => ?_
      subst hs
      exact ⟨trivial, c'.put i .idle t, by simp only [queueStep, stepFailWrite, hc', hr], trivial, rfl⟩
    rw [post_bind, failWrite, post_act]
    refine ⟨?_, ?_, ?_⟩
    · exact (hwrite .ok _ ⟨_, rfl⟩).always (always_failure _ _ _ _ _)
    · exact hwrite .lost _ ⟨_, rfl⟩
    · exact hwrite .late _ ⟨_, rfl⟩

end Ticks

end System

end Lumogis
