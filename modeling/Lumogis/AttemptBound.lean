import Lumogis.QueueRuns

/-!
# AttemptBound

A job is claimed at most `max_attempts` times, and its counter does not pass `max_attempts`, in
every run in which no reset to `pending` finds a stuck job on its last attempt (`attemptBound`).
`fail` sends a job back to `pending` when `attempt + 1 < max_attempts`, and `reset_stuck` does when
`attempt < max_attempts`, so one reset can grant an attempt too many (`stuckReset_grants_attempt`).
-/

namespace Lumogis

open Prog Labelled

section Attempts

variable {ι : Type} [DecidableEq ι]

/-- No worker has a job, and no job has been claimed. -/
structure Unclaimed (c : QueueConfig ι) : Prop where
  keyed : Keyed c.store
  idle : ∀ i, c.phase i = .idle
  pending : ∀ j ∈ c.store.db.userBatchJobs, j.status = .pending ∧ j.attempt = 0
  claimed : c.claimed = []

/-- A reset to `pending` finds no stuck job whose attempt is the last one. -/
def RetriesLeft (env : Env) (l : QueueLabel ι) (c : QueueConfig ι) : Prop :=
  match l with
  | .resetPending after => ∀ j ∈ c.store.db.userBatchJobs,
      j.stuck c.store.now after = true → j.attempt + 1 ≠ env.maxAttempts
  | _ => True

instance RetriesLeft.decidable (env : Env) (l : QueueLabel ι) (c : QueueConfig ι) :
    Decidable (RetriesLeft env l c) :=
  match l with
  | .resetPending after => inferInstanceAs (Decidable (∀ j ∈ c.store.db.userBatchJobs,
      j.stuck c.store.now after = true → j.attempt + 1 ≠ env.maxAttempts))
  | .enqueue _ _ | .claim _ _ | .handlerRaises _ _ | .complete _ _ | .failRead _ _
  | .failWrite _ _ | .resetDead _ | .crash _ | .wait _ | .elsewhere _ => .isTrue trivial

/-- How the counter of a job that has been claimed `n` times stands. -/
def Counted (m n : Nat) (j : JobRow) : Prop :=
  match j.status with
  | .pending => n = j.attempt ∧ j.attempt < m
  | .running => n = j.attempt + 1 ∧ j.attempt < m
  | .done => n ≤ m ∧ j.attempt ≤ m
  | .dead => n ≤ m ∧ j.attempt ≤ m

theorem Counted.bound {m n : Nat} {j : JobRow} (h : Counted m n j) : n ≤ m ∧ j.attempt ≤ m := by
  unfold Counted at h
  split at h <;> omega

theorem counted_pending {m n : Nat} {j : JobRow} (hj : j.status = .pending) :
    Counted m n j ↔ n = j.attempt ∧ j.attempt < m := by
  rw [Counted, hj]

theorem counted_running {m n : Nat} {j : JobRow} (hj : j.status = .running) :
    Counted m n j ↔ n = j.attempt + 1 ∧ j.attempt < m := by
  rw [Counted, hj]

theorem counted_terminal {m n : Nat} {j : JobRow} (hj : j.status.terminal = true) :
    Counted m n j ↔ n ≤ m ∧ j.attempt ≤ m := by
  unfold Counted
  cases hst : j.status with
  | pending => rw [hst] at hj; cases hj
  | running => rw [hst] at hj; cases hj
  | done => rfl
  | dead => rfl

structure AttemptInv (m : Nat) (c : QueueConfig ι) : Prop where
  keyed : Keyed c.store
  row : ∀ id j, c.store.jobRow id = some j → Counted m (c.claimed.count id) j
  absent : ∀ id, c.store.jobRow id = none → c.claimed.count id = 0

omit [DecidableEq ι] in
theorem Unclaimed.inv {c : QueueConfig ι} {m : Nat} (h : Unclaimed c) (hm : 1 ≤ m) :
    AttemptInv m c where
  keyed := h.keyed
  row id j hj := by
    obtain ⟨hst, hat⟩ := h.pending j (Table.lookup_mem hj)
    rw [h.claimed, counted_pending hst, hat]
    exact ⟨rfl, hm⟩
  absent id _ := by simp [h.claimed]

omit [DecidableEq ι] in
theorem AttemptInv.rewrites {m : Nat} {R : JobRow → JobRow → Prop} {c c' : QueueConfig ι}
    (h : AttemptInv m c) (hr : Rewrites R c.store c'.store) (hcl : c'.claimed = c.claimed)
    (hR : ∀ id j j', c.store.jobRow id = some j → R j j' →
      Counted m (c.claimed.count id) j → Counted m (c.claimed.count id) j') : AttemptInv m c' where
  keyed := h.keyed.rewrites hr
  row id j' hj' := by
    obtain ⟨j, hj, hjj'⟩ := hr.earlier hj'
    rw [hcl]
    exact hR id j j' hj hjj' (h.row id j hj)
  absent id hnone := by rw [hcl, h.absent id (hr.absent.mp hnone)]

omit [DecidableEq ι] in
theorem AttemptInv.same {m : Nat} {c c' : QueueConfig ι} (h : AttemptInv m c)
    (hjobs : c'.store.db.userBatchJobs = c.store.db.userBatchJobs)
    (hseq : c'.store.db.userBatchJobsSeq = c.store.db.userBatchJobsSeq)
    (hcl : c'.claimed = c.claimed) : AttemptInv m c' :=
  h.rewrites (rewrites_same hjobs hseq) hcl fun _ _ _ _ he hc => he ▸ hc

omit [DecidableEq ι] in
theorem AttemptInv.enqueue {m : Nat} {userId : String} {payload : JobPayload} {c : QueueConfig ι}
    (hm : 1 ≤ m) (h : AttemptInv m c) :
    AttemptInv m { c with store := (enqueue userId payload).after c.store } := by
  have hjobs : ((Lumogis.enqueue userId payload).after c.store).db.userBatchJobs =
      c.store.db.userBatchJobs ++
        [JobRow.enqueued c.store.db.userBatchJobsSeq c.store.now userId payload] := rfl
  refine ⟨Table.Keyed.append h.keyed rfl, fun id j hj => ?_, fun id hnone => ?_⟩
  · cases hold : c.store.jobRow id with
    | some j' =>
      rw [jobRow_enqueued hjobs hold] at hj
      cases hj
      exact h.row id _ hold
    | none =>
      have hnew := Table.lookup_append_none hold hj
      rw [h.absent id hold, hnew, counted_pending rfl]
      exact ⟨rfl, hm⟩
  · cases hold : c.store.jobRow id with
    | some j' =>
      rw [jobRow_enqueued hjobs hold] at hnone
      cases hnone
    | none => exact h.absent id hold

theorem AttemptInv.claim {m : Nat} {env : Env} {worker : String} {i : ι} {fate : Fate}
    {c c' : QueueConfig ι} (h : AttemptInv m c) (hs : stepClaim env worker i fate c = some c') :
    AttemptInv m c' := by
  obtain ⟨-, rfl | ⟨j, hnext, hstore, hcl, -⟩⟩ := stepClaim_cases hs
  · exact h
  have hj := nextEligible_pending hnext
  have hr : Rewrites (fun r r' => r' = if r.id == j.id then r.claimed c.store.now worker else r)
      c.store c'.store := by
    rw [hstore]
    exact rewrites_updateWhere (f := JobRow.claimed c.store.now worker) (fun _ => rfl) rfl rfl
  refine ⟨h.keyed.rewrites hr, fun id r' hr' => ?_, fun id hnone => ?_⟩
  · obtain ⟨r, hrow, rfl⟩ := hr.earlier hr'
    have hcount := h.row id r hrow
    rw [hcl, List.count_cons]
    by_cases hid : id = j.id
    · subst hid
      rw [h.keyed.jobRow hj.1] at hrow
      cases hrow
      rw [counted_pending hj.2] at hcount
      rw [beq_self_eq_true, if_pos rfl, if_pos rfl, counted_running rfl]
      exact ⟨by rw [hcount.1]; rfl, hcount.2⟩
    · have hne : ¬ j.id = id := fun he => hid he.symm
      simpa [jobRow_id hrow, hid, hne] using hcount
  · have hne : j.id ≠ id := by
      rintro rfl
      obtain ⟨r', hr', -⟩ := hr.later (h.keyed.jobRow hj.1)
      rw [hnone] at hr'
      cases hr'
    rw [hcl, List.count_cons, h.absent id (hr.absent.mp hnone)]
    simp [hne]

theorem AttemptInv.step {env : Env} {workerId : ι → String} {l : QueueLabel ι}
    {c c' : QueueConfig ι} (hm : 1 ≤ env.maxAttempts) (h : AttemptInv env.maxAttempts c)
    (ha : RetriesLeft env l c) (hs : queueStep env workerId l c = some c') :
    AttemptInv env.maxAttempts c' := by
  cases l with
  | enqueue userId payload => cases hs; exact h.enqueue hm
  | claim i fate => exact h.claim hs
  | handlerRaises i error =>
    simp only [queueStep] at hs
    split at hs
    · cases hs
      exact h.same rfl rfl rfl
    · cases hs
  | complete i fate =>
    obtain ⟨job, p, -, -, ⟨-, rfl⟩ | ⟨-, rfl⟩⟩ := stepComplete_cases hs
    · exact h.same rfl rfl rfl
    refine h.rewrites (rewrites_updateWhere (f := JobRow.completed c.store.now)
      (p := fun j => j.id == job.id) (fun _ => rfl) rfl rfl) rfl fun id j j' _ he hc => ?_
    subst he
    split
    · exact hc.bound
    · exact hc
  | failRead i fate =>
    obtain ⟨job, e, p, -, -, rfl⟩ := stepFailRead_cases hs
    exact h.same rfl rfl rfl
  | failWrite i fate =>
    obtain ⟨job, e, n, -, ⟨-, rfl⟩ | ⟨-, rfl⟩⟩ := stepFailWrite_cases hs
    · exact h.same rfl rfl rfl
    refine h.rewrites (rewrites_updateWhere
      (f := JobRow.failed c.store.now e env.maxAttempts (2 ^ (n + 1))) (p := JobRow.isRunning job.id)
      (fun _ => rfl) rfl rfl) rfl fun id j j' _ he hc => ?_
    subst he
    split
    · rename_i hrun
      have hrun' : j.status = .running := by simpa using (Bool.and_eq_true_iff.mp hrun).2
      have hcount := (counted_running hrun').mp hc
      by_cases hagain : j.attempt + 1 < env.maxAttempts
      · rw [counted_pending (by simp [JobRow.failed, hagain])]
        exact ⟨hcount.1, hagain⟩
      · rw [counted_terminal (by simp [JobRow.failed, hagain, JobStatus.terminal])]
        exact ⟨hcount.1 ▸ hcount.2, hcount.2⟩
    · exact hc
  | resetPending after =>
    obtain ⟨hjobs, hseq, -, -, hcl⟩ :=
      stepReset_cases (resetStuckPending_exec after env.maxAttempts c.store) hs
    refine h.rewrites (rewrites_updateWhere (f := JobRow.requeued) (fun _ => rfl) hjobs hseq) hcl
      fun id j j' hj he hc => ?_
    subst he
    split
    · rename_i hhit
      have hstuck := (Bool.and_eq_true_iff.mp hhit).1
      have hcount := (counted_running (JobRow.stuck_running hstuck)).mp hc
      have hleft := ha j (Table.lookup_mem hj) hstuck
      rw [counted_pending rfl]
      exact ⟨hcount.1, Nat.lt_of_le_of_ne hcount.2 hleft⟩
    · exact hc
  | resetDead after =>
    obtain ⟨hjobs, hseq, -, -, hcl⟩ :=
      stepReset_cases (resetStuckDead_exec after env.maxAttempts c.store) hs
    refine h.rewrites (rewrites_updateWhere
      (f := fun j => { j with status := .dead, finishedAt := some c.store.now }) (fun _ => rfl) hjobs
      hseq) hcl fun id j j' _ he hc => ?_
    subst he
    split
    · exact hc.bound
    · exact hc
  | crash i => cases hs; exact h.same rfl rfl rfl
  | wait minutes => cases hs; exact h.same rfl rfl rfl
  | elsewhere store =>
    simp only [queueStep] at hs
    split at hs
    · rename_i hsame
      cases hs
      refine h.rewrites (rewrites_elsewhere hsame) rfl fun id j j' _ he hc => ?_
      have hstatus : j'.status = j.status := by
        simpa [JobRow.queueColumns] using congrArg JobRow.status he
      have hattempt : j'.attempt = j.attempt := by
        simpa [JobRow.queueColumns] using congrArg JobRow.attempt he
      rw [Counted, hstatus, hattempt]
      exact hc
    · cases hs

theorem attemptBound (env : Env) (workerId : ι → String) (hm : 1 ≤ env.maxAttempts)
    (c₀ c : QueueConfig ι) (h₀ : Unclaimed c₀)
    (hrun : Reaches (queueStep env workerId) (RetriesLeft env) c₀ c) :
    (∀ id, c.claimed.count id ≤ env.maxAttempts) ∧
      ∀ j ∈ c.store.db.userBatchJobs, j.attempt ≤ env.maxAttempts := by
  have h : AttemptInv env.maxAttempts c :=
    hrun.invariant (h₀.inv hm) fun _ _ _ hi ha hs => hi.step hm ha hs
  refine ⟨fun id => ?_, fun j hj => (h.row j.id j (h.keyed.jobRow hj)).bound.2⟩
  cases hid : c.store.jobRow id with
  | none => rw [h.absent id hid]; exact Nat.zero_le _
  | some j => exact (h.row id j hid).bound.1

end Attempts

namespace AttemptExample

def env (maxAttempts : Nat) : Env := { Env.plain .disabled with maxAttempts := maxAttempts }

def start : QueueConfig Unit :=
  { store := .empty, phase := fun _ => .idle, leased := fun _ => false, claimed := [] }

theorem start_unclaimed : Unclaimed start where
  keyed := ⟨List.nodup_nil, fun _ hj => by cases hj⟩
  idle _ := rfl
  pending _ hj := by cases hj
  claimed := rfl

def step (maxAttempts : Nat) : QueueLabel Unit → QueueConfig Unit → Option (QueueConfig Unit) :=
  queueStep (env maxAttempts) fun _ => "orch-1"

def reached (maxAttempts : Nat) (ls : List (QueueLabel Unit)) : QueueConfig Unit :=
  (run (step maxAttempts) ls start).getD start

/-- The worker crashes, and the job is reset and claimed again. -/
def crashed : List (QueueLabel Unit) :=
  [.enqueue "ann" (.ingestFolder "/docs"), .claim () .ok, .crash (), .wait 31, .resetPending 1800,
    .claim () .ok]

def failed : List (QueueLabel Unit) :=
  [.handlerRaises () "error", .failRead () .ok, .failWrite () .ok]

end AttemptExample

open AttemptExample in
/-- A crash, then a failure, with attempts to spare. -/
theorem attemptBound_crashed :
    (∀ id, (reached 3 (crashed ++ failed)).claimed.count id ≤ 3) ∧
      ∀ j ∈ (reached 3 (crashed ++ failed)).store.db.userBatchJobs, j.attempt ≤ 3 :=
  attemptBound (env 3) (fun _ => "orch-1") (by decide) start _ start_unclaimed
    (run_reaches (show run _ (crashed ++ failed) _ = some _ from rfl) (by decide))

open AttemptExample in
/-- With one attempt allowed, a crash and a reset give a second one. -/
theorem stuckReset_grants_attempt :
    ∃ c, Reaches (queueStep (env 1) fun _ => "orch-1") (fun _ _ => True) start c ∧
      1 < c.claimed.count 1 ∧ ∃ j ∈ c.store.db.userBatchJobs, 1 < j.attempt := by
  refine ⟨reached 1 (crashed ++ failed),
    run_reaches (show run _ (crashed ++ failed) _ = some _ from rfl) ?_, ?_⟩
  · simp [crashed, failed, Admitted]
  · decide

end Lumogis
