import Lumogis.AttemptBound
import Mathlib.Data.List.Forall2

/-!
# Lumogis.ConcurrencyCap

The jobs of a user in status `running`. Only a claim can add one, and it counts them in the statement
that makes its job `running`; every other statement leaves a row's status or takes the row out of
`running` (`queueStep_rows`). So no user has more than the cap, and since a claim takes a pending row, no
row is `running` for two claims (`concurrencyCap`).
-/

namespace Lumogis

open Prog Labelled

section Cap

variable {ι : Type} [DecidableEq ι]

def JobRow.isRunningFor (userId : String) (j : JobRow) : Bool := j.userId == userId && j.status == .running

/-- The row of the job is `running`. -/
def Store.running (s : Store) (id : Nat) : Bool := s.db.userBatchJobs.any (JobRow.isRunning id)

/-- The queue and, for each job, the claims in force: those since its row was last not `running`. -/
structure CapState (ι : Type) where
  config : QueueConfig ι
  inForce : Nat → Nat

/-- The claims in force after a step from `c` to `c'`. -/
def nextInForce (c c' : QueueConfig ι) (inForce : Nat → Nat) (id : Nat) : Nat :=
  if c'.store.running id then inForce id + (c'.claimed.count id - c.claimed.count id) else 0

def capStep (env : Env) (workerId : ι → String) (l : QueueLabel ι) (s : CapState ι) : Option (CapState ι) :=
  (queueStep env workerId l s.config).map fun c' => ⟨c', nextInForce s.config c' s.inForce⟩

/-- What a claim returns: the eligible job of lowest id, or nothing when no job is eligible. -/
def Claims (env : Env) (s : Store) : Option ClaimedJob → Prop
  | none => ∀ j ∈ s.db.userBatchJobs, j.eligible env s.db s.now = false
  | some job => ∃ j ∈ s.db.userBatchJobs, j.eligible env s.db s.now = true ∧
      job = ⟨j.id, j.userId, j.payload, j.attempt⟩ ∧
      ∀ j' ∈ s.db.userBatchJobs, j'.eligible env s.db s.now = true → j.id ≤ j'.id

theorem claimNext_claims {env : Env} {worker : String} {s t : Store} {r : Option ClaimedJob}
    (h : (claimNext env worker).exec s = some (.ok r, t)) : Claims env s r := by
  rw [claimNext, exec_act] at h
  cases hn : s.nextEligible env with
  | none =>
    simp only [hn, Option.some.injEq, Prod.mk.injEq, Except.ok.injEq] at h
    obtain ⟨rfl, -⟩ := h
    intro j hj
    have hnil : s.db.userBatchJobs.filter (JobRow.eligible env s.db s.now) = [] := List.argmin_eq_none.mp hn
    simpa using List.filter_eq_nil_iff.mp hnil j hj
  | some j =>
    simp only [hn, Option.some.injEq, Prod.mk.injEq, Except.ok.injEq] at h
    obtain ⟨rfl, -⟩ := h
    have hmem := List.mem_filter.mp (List.argmin_mem hn)
    refine ⟨j, hmem.1, hmem.2, rfl, ?_⟩
    intro j' hj' helig
    exact List.le_of_mem_argmin (List.mem_filter.mpr ⟨hj', helig⟩) hn

/-! ## The rows -/

/-- What the other statements do to a row. -/
structure Retreats (j j' : JobRow) : Prop where
  id : j'.id = j.id
  userId : j'.userId = j.userId
  running : j'.status = .running → j.status = .running

theorem Retreats.refl (j : JobRow) : Retreats j j := ⟨rfl, rfl, fun h => h⟩

theorem retreats_updateWhere {p : JobRow → Bool} {f : JobRow → JobRow} {jobs : List JobRow}
    (hf : ∀ j ∈ jobs, p j = true → Retreats j (f j)) :
    List.Forall₂ Retreats jobs (Table.updateWhere p f jobs) := by
  rw [Table.updateWhere, List.forall₂_map_right_iff, List.forall₂_same]
  intro j hj
  split
  · rename_i hp
    exact hf j hj hp
  · exact .refl j

theorem retreats_same {jobs : List JobRow} : List.Forall₂ Retreats jobs jobs :=
  List.forall₂_same.mpr fun j _ => .refl j

theorem retreats_elsewhere {s t : Store} (h : s.sameQueue t = true) :
    List.Forall₂ Retreats s.db.userBatchJobs t.db.userBatchJobs := by
  simp only [Store.sameQueue, Bool.and_eq_true, decide_eq_true_eq] at h
  have hmap := h.1.1.symm
  rw [← List.forall₂_eq_eq_eq, List.forall₂_map_left_iff, List.forall₂_map_right_iff] at hmap
  refine hmap.imp fun j j' he => ⟨?_, ?_, ?_⟩
  · simpa [JobRow.queueColumns] using (congrArg JobRow.id he).symm
  · simpa [JobRow.queueColumns] using (congrArg JobRow.userId he).symm
  · have hstatus : j'.status = j.status := by simpa [JobRow.queueColumns] using (congrArg JobRow.status he).symm
    rw [hstatus]
    exact fun h => h

theorem running_of_retreats {jobs jobs' : List JobRow} (h : List.Forall₂ Retreats jobs jobs') {id : Nat}
    (hrun : jobs'.any (JobRow.isRunning id) = true) : jobs.any (JobRow.isRunning id) = true := by
  induction h with
  | nil => exact hrun
  | cons hj _ ih =>
    simp only [List.any_cons, Bool.or_eq_true, JobRow.isRunning, Bool.and_eq_true, beq_iff_eq] at hrun ih ⊢
    cases hrun with
    | inl hrun => exact .inl ⟨hj.id ▸ hrun.1, hj.running hrun.2⟩
    | inr hrun => exact .inr (ih hrun)

theorem countP_retreats {jobs jobs' : List JobRow} (h : List.Forall₂ Retreats jobs jobs') (userId : String) :
    jobs'.countP (JobRow.isRunningFor userId) ≤ jobs.countP (JobRow.isRunningFor userId) := by
  induction h with
  | nil => exact Nat.le_refl _
  | @cons j j' jobs jobs' hj _ ih =>
    have hle : j'.isRunningFor userId = true → j.isRunningFor userId = true := by
      simp only [JobRow.isRunningFor, Bool.and_eq_true, beq_iff_eq]
      exact fun hr => ⟨hj.userId ▸ hr.1, hj.running hr.2⟩
    rw [List.countP_cons, List.countP_cons]
    cases hj' : j'.isRunningFor userId with
    | false =>
      simp only [Bool.false_eq_true, if_false]
      omega
    | true =>
      simp only [hle hj', if_true]
      omega

/-- A step adds a pending job, or claims an eligible one, or leaves every row no nearer to `running`. -/
theorem queueStep_rows {env : Env} {workerId : ι → String} {l : QueueLabel ι} {c c' : QueueConfig ι}
    (hs : queueStep env workerId l c = some c') :
    (∃ j : JobRow, j.status = .pending ∧ j.id = c.store.db.userBatchJobsSeq ∧
      c'.store.db.userBatchJobs = c.store.db.userBatchJobs ++ [j] ∧
      c'.store.db.userBatchJobsSeq = c.store.db.userBatchJobsSeq + 1 ∧ c'.claimed = c.claimed) ∨
    (∃ j worker, c.store.nextEligible env = some j ∧
      c'.store = c.store.updateJob j.id (JobRow.claimed c.store.now worker) ∧ c'.claimed = j.id :: c.claimed) ∨
    (List.Forall₂ Retreats c.store.db.userBatchJobs c'.store.db.userBatchJobs ∧
      c'.store.db.userBatchJobsSeq = c.store.db.userBatchJobsSeq ∧ c'.claimed = c.claimed) := by
  have hsame : ∀ {i : ι} {p : TickPhase}, List.Forall₂ Retreats c.store.db.userBatchJobs
      (c.put i p c.store).store.db.userBatchJobs ∧
      (c.put i p c.store).store.db.userBatchJobsSeq = c.store.db.userBatchJobsSeq ∧
      (c.put i p c.store).claimed = c.claimed := ⟨retreats_same, rfl, rfl⟩
  cases l with
  | enqueue userId payload =>
    cases hs
    exact .inl ⟨_, rfl, rfl, rfl, rfl, rfl⟩
  | claim i fate =>
    obtain ⟨-, rfl | ⟨j, hnext, hstore, hclaimed, -⟩⟩ := stepClaim_cases hs
    · exact .inr (.inr ⟨retreats_same, rfl, rfl⟩)
    · exact .inr (.inl ⟨j, workerId i, hnext, hstore, hclaimed⟩)
  | handlerRaises i error =>
    simp only [queueStep] at hs
    split at hs
    · cases hs
      exact .inr (.inr hsame)
    · cases hs
  | complete i fate =>
    obtain ⟨job, p, -, -, ⟨-, rfl⟩ | ⟨-, rfl⟩⟩ := stepComplete_cases hs
    · exact .inr (.inr hsame)
    · refine .inr (.inr ⟨retreats_updateWhere fun j _ _ => ⟨rfl, rfl, ?_⟩, rfl, rfl⟩)
      intro hrun
      cases hrun
  | failRead i fate =>
    obtain ⟨job, e, p, -, -, rfl⟩ := stepFailRead_cases hs
    exact .inr (.inr hsame)
  | failWrite i fate =>
    obtain ⟨job, e, n, -, ⟨-, rfl⟩ | ⟨-, rfl⟩⟩ := stepFailWrite_cases hs
    · exact .inr (.inr hsame)
    · refine .inr (.inr ⟨retreats_updateWhere fun j _ hp => ⟨rfl, rfl, fun _ => ?_⟩, rfl, rfl⟩)
      simp only [JobRow.isRunning, Bool.and_eq_true, beq_iff_eq] at hp
      exact hp.2
  | resetPending after =>
    obtain ⟨hjobs, hseq, -, -, hclaimed⟩ := stepReset_cases (resetStuckPending_exec after env.maxAttempts c.store) hs
    rw [hjobs]
    refine .inr (.inr ⟨retreats_updateWhere fun j _ _ => ⟨rfl, rfl, ?_⟩, hseq, hclaimed⟩)
    intro hrun
    cases hrun
  | resetDead after =>
    obtain ⟨hjobs, hseq, -, -, hclaimed⟩ := stepReset_cases (resetStuckDead_exec after env.maxAttempts c.store) hs
    rw [hjobs]
    refine .inr (.inr ⟨retreats_updateWhere fun j _ _ => ⟨rfl, rfl, ?_⟩, hseq, hclaimed⟩)
    intro hrun
    cases hrun
  | crash i =>
    cases hs
    exact .inr (.inr hsame)
  | wait minutes =>
    cases hs
    exact .inr (.inr ⟨retreats_same, rfl, rfl⟩)
  | elsewhere store =>
    simp only [queueStep] at hs
    split at hs
    · rename_i hq
      cases hs
      refine .inr (.inr ⟨retreats_elsewhere hq, ?_, rfl⟩)
      simp only [Store.sameQueue, Bool.and_eq_true, decide_eq_true_eq] at hq
      exact hq.1.2
    · cases hs

/-! ## The cap -/

theorem countP_updateJob_le {q : JobRow → Bool} {f : JobRow → JobRow} {jobs : List JobRow} {id : Nat}
    (hnodup : (jobs.map JobRow.id).Nodup) :
    (Table.updateWhere (fun j => j.id == id) f jobs).countP q ≤ jobs.countP q + 1 := by
  induction jobs with
  | nil => simp [Table.updateWhere]
  | cons j jobs ih =>
    rw [List.map_cons, List.nodup_cons] at hnodup
    have hcons : Table.updateWhere (fun j => j.id == id) f (j :: jobs) =
      (if j.id == id then f j else j) :: Table.updateWhere (fun j => j.id == id) f jobs := rfl
    rw [hcons, List.countP_cons, List.countP_cons]
    by_cases hid : j.id = id
    · have hrest : Table.updateWhere (fun j => j.id == id) f jobs = jobs := by
        refine Table.updateWhere_eq_self fun r hr => ?_
        have hne : r.id ≠ id := fun he => hnodup.1 (List.mem_map.mpr ⟨r, hr, he.trans hid.symm⟩)
        simpa using hne
      rw [hrest]
      split <;> split <;> omega
    · have hle := ih hnodup.2
      have hbeq : (j.id == id) = false := by simpa using hid
      rw [hbeq]
      simp only [Bool.false_eq_true, if_false]
      omega

structure CapInv (env : Env) (s : CapState ι) : Prop where
  keyed : Keyed s.config.store
  cap : ∀ userId, s.config.store.db.runningOf userId ≤ env.perUserMaxConcurrent
  inForce : ∀ id, s.inForce id = if s.config.store.running id then 1 else 0

omit [DecidableEq ι] in
theorem Unclaimed.cap {c : QueueConfig ι} (h : Unclaimed c) (env : Env) : CapInv env ⟨c, fun _ => 0⟩ := by
  have hpending : ∀ j ∈ c.store.db.userBatchJobs, j.status ≠ .running := by
    intro j hj he
    rw [(h.pending j hj).1] at he
    cases he
  refine ⟨h.keyed, fun userId => ?_, fun id => ?_⟩
  · have hzero : c.store.db.runningOf userId = 0 := by
      rw [Db.runningOf, List.countP_eq_zero]
      intro j hj
      simp [hpending j hj]
    show c.store.db.runningOf userId ≤ _
    rw [hzero]
    exact Nat.zero_le _
  · have hnot : c.store.running id = false := by
      rw [Store.running, List.any_eq_false]
      intro j hj
      simp [JobRow.isRunning, hpending j hj]
    simp [hnot]

theorem forall₂_ids {jobs jobs' : List JobRow} (h : List.Forall₂ Retreats jobs jobs') :
    jobs'.map JobRow.id = jobs.map JobRow.id := by
  induction h with
  | nil => rfl
  | cons hj _ ih => rw [List.map_cons, List.map_cons, hj.id, ih]

theorem claimed_not_running {env : Env} {s : Store} {j : JobRow} (hkeyed : Keyed s)
    (hnext : s.nextEligible env = some j) : s.running j.id = false := by
  obtain ⟨hmem, hpending⟩ := nextEligible_pending hnext
  rw [Store.running, List.any_eq_false]
  intro r hr hrun
  simp only [JobRow.isRunning, Bool.and_eq_true, beq_iff_eq] at hrun
  have he : r = j := List.inj_on_of_nodup_map hkeyed.nodup hr hmem hrun.1
  rw [he, hpending] at hrun
  cases hrun.2

theorem running_claimed {env : Env} {s : Store} {j : JobRow} {worker : String} {id : Nat}
    (hnext : s.nextEligible env = some j) :
    (s.updateJob j.id (JobRow.claimed s.now worker)).running id = (s.running id || id == j.id) := by
  obtain ⟨hmem, -⟩ := nextEligible_pending hnext
  rw [Bool.eq_iff_iff]
  simp only [Store.running, Store.updateJob, List.any_eq_true, Bool.or_eq_true, beq_iff_eq, JobRow.isRunning,
    Bool.and_eq_true, Table.mem_updateWhere]
  constructor
  · rintro ⟨r, ⟨x, hx, hid, rfl⟩ | ⟨hr, -⟩, hrid, hrun⟩
    · exact .inr (hrid.symm.trans hid)
    · exact .inl ⟨r, hr, hrid, hrun⟩
  · rintro (⟨r, hr, hrid, hrun⟩ | rfl)
    · by_cases hid : r.id = j.id
      · exact ⟨_, .inl ⟨r, hr, hid, rfl⟩, hrid, rfl⟩
      · exact ⟨r, .inr ⟨hr, by simpa using hid⟩, hrid, hrun⟩
    · exact ⟨_, .inl ⟨j, hmem, rfl, rfl⟩, rfl, rfl⟩

theorem runningOf_claimed {env : Env} {s : Store} {j : JobRow} {worker : String} (hkeyed : Keyed s)
    (hcap : ∀ userId, s.db.runningOf userId ≤ env.perUserMaxConcurrent) (hnext : s.nextEligible env = some j)
    (userId : String) :
    (s.updateJob j.id (JobRow.claimed s.now worker)).db.runningOf userId ≤ env.perUserMaxConcurrent := by
  have helig := (List.mem_filter.mp (List.argmin_mem hnext))
  have hmem : j ∈ s.db.userBatchJobs := helig.1
  by_cases huser : j.userId = userId
  · have hlt : s.db.runningOf j.userId < env.perUserMaxConcurrent := by
      have h := helig.2
      simp only [JobRow.eligible, Bool.and_eq_true, decide_eq_true_eq] at h
      exact h.2
    rw [huser] at hlt
    exact le_trans (countP_updateJob_le hkeyed.nodup) hlt
  · refine le_trans (le_of_eq ?_) (hcap userId)
    have hsame : ∀ r ∈ s.db.userBatchJobs, (r.id == j.id) = true → r.userId ≠ userId := by
      intro r hr hid
      have he : r = j := List.inj_on_of_nodup_map hkeyed.nodup hr hmem (beq_iff_eq.mp hid)
      rw [he]
      exact huser
    simp only [Db.runningOf, Store.updateJob, List.countP_eq_length_filter]
    rw [Table.filter_updateWhere_of_not]
    intro r hr hid
    have hne := hsame r hr hid
    constructor <;> simp [JobRow.claimed, hne]

theorem CapInv.step {env : Env} {workerId : ι → String} {l : QueueLabel ι} {s s' : CapState ι} (h : CapInv env s)
    (hs : capStep env workerId l s = some s') : CapInv env s' := by
  obtain ⟨c', hstep, rfl⟩ := Option.map_eq_some_iff.mp hs
  obtain ⟨j, hpending, hid, hjobs, hseq, hclaimed⟩ | ⟨j, worker, hnext, hstore, hclaimed⟩ | ⟨hrows, hseq, hclaimed⟩ :=
    queueStep_rows hstep
  · have hrunning : ∀ id, c'.store.running id = s.config.store.running id := by
      intro id
      simp [Store.running, hjobs, JobRow.isRunning, hpending]
    refine ⟨?_, fun userId => ?_, fun id => ?_⟩
    · show Table.Keyed JobRow.id c'.store.db.userBatchJobsSeq c'.store.db.userBatchJobs
      rw [hjobs, hseq]
      exact Table.Keyed.append h.keyed hid
    · refine le_trans (le_of_eq ?_) (h.cap userId)
      simp [Db.runningOf, hjobs, hpending]
    · show nextInForce s.config c' s.inForce id = _
      rw [nextInForce, hclaimed, hrunning, h.inForce]
      cases s.config.store.running id <;> simp
  · have hrunning : ∀ id, c'.store.running id = (s.config.store.running id || id == j.id) := by
      intro id
      rw [hstore, running_claimed hnext]
    refine ⟨?_, fun userId => ?_, fun id => ?_⟩
    · show Keyed c'.store
      rw [hstore]
      exact h.keyed.rewrites (rewrites_updateWhere (f := JobRow.claimed s.config.store.now worker) (fun _ => rfl) rfl rfl)
    · show c'.store.db.runningOf userId ≤ _
      rw [hstore]
      exact runningOf_claimed h.keyed h.cap hnext userId
    · show nextInForce s.config c' s.inForce id = _
      rw [nextInForce, hclaimed, hrunning, h.inForce, List.count_cons]
      by_cases hid : id = j.id
      · subst hid
        simp [claimed_not_running h.keyed hnext]
      · have hne : ¬ j.id = id := fun he => hid he.symm
        cases s.config.store.running id <;> simp [hid, hne]
  · refine ⟨?_, fun userId => ?_, fun id => ?_⟩
    · show Table.Keyed JobRow.id c'.store.db.userBatchJobsSeq c'.store.db.userBatchJobs
      rw [hseq]
      refine ⟨forall₂_ids hrows ▸ h.keyed.nodup, fun r hr => ?_⟩
      have hin : r.id ∈ c'.store.db.userBatchJobs.map JobRow.id := List.mem_map_of_mem hr
      rw [forall₂_ids hrows] at hin
      obtain ⟨r', hr', he⟩ := List.mem_map.mp hin
      rw [← he]
      exact h.keyed.fresh r' hr'
    · exact le_trans (countP_retreats hrows userId) (h.cap userId)
    · show nextInForce s.config c' s.inForce id = _
      rw [nextInForce, hclaimed, h.inForce]
      cases hrun : c'.store.running id with
      | false => simp
      | true =>
        have hbefore : s.config.store.running id = true := running_of_retreats hrows hrun
        simp [hbefore]

/-- In every run of the queue: no user has more running jobs than the cap, a claim returns the eligible
job of lowest id, and no job is running for two claims. -/
theorem concurrencyCap (env : Env) (workerId : ι → String) (c₀ : QueueConfig ι) (h₀ : Unclaimed c₀) (s : CapState ι)
    (hrun : Reaches (capStep env workerId) (fun _ _ => True) ⟨c₀, fun _ => 0⟩ s) :
    (∀ userId, s.config.store.db.runningOf userId ≤ env.perUserMaxConcurrent) ∧
      (∀ worker r t, (claimNext env worker).exec s.config.store = some (.ok r, t) → Claims env s.config.store r) ∧
      ∀ id, s.inForce id ≤ 1 := by
  have h : CapInv env s := hrun.invariant (h₀.cap env) fun _ _ _ hi _ hs => hi.step hs
  refine ⟨h.cap, fun worker r t => claimNext_claims, fun id => ?_⟩
  rw [h.inForce]
  split <;> omega

end Cap

open AttemptExample in
/-- Three jobs of one user, and a reset between the claims. -/
theorem concurrencyCap_reset :
    let s := runTo (capStep (env 3) fun _ => "orch-1") ([.enqueue "ann" (.ingestFolder "/a"), .enqueue "ann" (.ingestFolder "/b"),
      .claim () .ok, .crash (), .wait 31, .resetPending 1800, .claim () .ok] : List (QueueLabel Unit)) ⟨start, fun _ => 0⟩
    (∀ userId, s.config.store.db.runningOf userId ≤ (env 3).perUserMaxConcurrent) ∧
      (∀ worker r t, (claimNext (env 3) worker).exec s.config.store = some (.ok r, t) → Claims (env 3) s.config.store r) ∧
      ∀ id, s.inForce id ≤ 1 :=
  concurrencyCap (env 3) (fun _ => "orch-1") start start_unclaimed _ (reaches_runTo (by decide) (by decide))

end Lumogis
