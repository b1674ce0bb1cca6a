import Lumogis.QueueRuns

/-!
# LeaseFencing

Once `reset_stuck` has taken a job from a worker, the worker's later calls of `complete` and `fail`
leave the job alone, and a finished job keeps its status, in every run where such late calls find
the job already finished (`leaseFencing`). `complete` is keyed by the job's id alone and `fail` by
the id and `running`, so neither holds without the condition (`lateComplete_revives_job`).
-/

namespace Lumogis

open Prog Labelled

section Leases

variable {ι : Type} [DecidableEq ι]

/-- No worker has a job. -/
structure Started (c : QueueConfig ι) : Prop where
  keyed : Keyed c.store
  idle : ∀ i, c.phase i = .idle

/-- A call of `complete` or `fail` that comes after `reset_stuck` took the worker's job finds the
job finished: done in the case of `complete`, and not running in the case of `fail`. -/
def LateFindsFinished (l : QueueLabel ι) (c : QueueConfig ι) : Prop :=
  match l with
  | .complete i _ => c.leased i = false → ∀ job ∈ (c.phase i).job, ∀ j ∈ c.store.jobRow job.id,
      j.status = .done
  | .failWrite i _ => c.leased i = false → ∀ job ∈ (c.phase i).job, ∀ j ∈ c.store.jobRow job.id,
      j.status ≠ .running
  | _ => True

instance LateFindsFinished.decidable (l : QueueLabel ι) (c : QueueConfig ι) :
    Decidable (LateFindsFinished l c) :=
  match l with
  | .complete i _ => inferInstanceAs (Decidable (c.leased i = false → ∀ job ∈ (c.phase i).job,
      ∀ j ∈ c.store.jobRow job.id, j.status = .done))
  | .failWrite i _ => inferInstanceAs (Decidable (c.leased i = false → ∀ job ∈ (c.phase i).job,
      ∀ j ∈ c.store.jobRow job.id, j.status ≠ .running))
  | .enqueue _ _ | .claim _ _ | .handlerRaises _ _ | .failRead _ _ | .resetPending _
  | .resetDead _ | .crash _ | .wait _ | .elsewhere _ => .isTrue trivial

/-- The worker that makes a call of `complete` or `fail`. -/
def QueueLabel.caller : QueueLabel ι → Option ι
  | .complete i _ => some i
  | .failRead i _ => some i
  | .failWrite i _ => some i
  | _ => none

def JobRow.lease (j : JobRow) : JobStatus × Nat × Option String := (j.status, j.attempt, j.workerId)

/-- What the step `l` from `c` to `c'` leaves alone. -/
structure Fenced (l : QueueLabel ι) (c c' : QueueConfig ι) : Prop where
  late : ∀ i, l.caller = some i → c.leased i = false → ∀ job, (c.phase i).job = some job →
    (c'.store.jobRow job.id).map JobRow.lease = (c.store.jobRow job.id).map JobRow.lease
  final : ∀ id j, c.store.jobRow id = some j → j.status.terminal = true →
    ∃ j', c'.store.jobRow id = some j' ∧ j'.status = j.status

/-- A leased job is running, or was marked done by a call of `complete` whose reply was lost. -/
structure LeaseInv (c : QueueConfig ι) : Prop where
  keyed : Keyed c.store
  held : ∀ i job, (c.phase i).job = some job → c.leased i = true → ∃ j,
    c.store.jobRow job.id = some j ∧
      (j.status = .running ∨ j.status = .done ∧ ∀ job', c.phase i ≠ .handling job')
  single : ∀ i k job job', i ≠ k → (c.phase i).job = some job → c.leased i = true →
    (c.phase k).job = some job' → c.leased k = true → job.id ≠ job'.id

omit [DecidableEq ι] in
theorem Started.inv {c : QueueConfig ι} (h : Started c) : LeaseInv c where
  keyed := h.keyed
  held i job hp := by rw [h.idle i] at hp; cases hp
  single i k job job' _ hp := by rw [h.idle i] at hp; cases hp

/-- A step after which worker `i` has no job it did not have before, and every other leased job has
its row as before. -/
theorem LeaseInv.put {c : QueueConfig ι} (h : LeaseInv c) {i : ι} {p : TickPhase} {t : Store}
    (hk : Keyed t) (hp : ∀ job, p.job = some job → (c.phase i).job = some job)
    (hown : ∀ job, p.job = some job → c.leased i = true → ∃ j, t.jobRow job.id = some j ∧
      (j.status = .running ∨ j.status = .done ∧ ∀ job', p ≠ .handling job'))
    (hothers : ∀ k job j, k ≠ i → (c.phase k).job = some job → c.leased k = true →
      c.store.jobRow job.id = some j → ∃ j', t.jobRow job.id = some j' ∧ j'.status = j.status) :
    LeaseInv (c.put i p t) where
  keyed := hk
  held k job hk hl := by
    by_cases hki : k = i
    · subst hki
      simp only [QueueConfig.put, Function.update_self] at hk ⊢
      exact hown job hk hl
    · simp only [QueueConfig.put, Function.update_of_ne hki] at hk ⊢
      obtain ⟨j, hj, hst⟩ := h.held k job hk hl
      obtain ⟨j', hj', he⟩ := hothers k job j hki hk hl hj
      exact ⟨j', hj', by rwa [he]⟩
  single k k' job job' hne hk hl hk' hl' := by
    have hback : ∀ x y, ((c.put i p t).phase x).job = some y → (c.phase x).job = some y := by
      intro x y hx
      by_cases hxi : x = i
      · subst hxi
        simp only [QueueConfig.put, Function.update_self] at hx
        exact hp y hx
      · simpa only [QueueConfig.put, Function.update_of_ne hxi] using hx
    exact h.single k k' job job' hne (hback _ _ hk) hl (hback _ _ hk') hl'

theorem LeaseInv.complete {env : Env} {i : ι} {fate : Fate} {c c' : QueueConfig ι}
    (h : LeaseInv c) (ha : LateFindsFinished (.complete i fate) c)
    (hs : stepComplete env i fate c = some c') : LeaseInv c' ∧ Fenced (.complete i fate) c c' := by
  obtain ⟨job, p, hp, hpp, hc⟩ := stepComplete_cases hs
  have hjob : (c.phase i).job = some job := by rw [hp]; rfl
  have hpjob : ∀ x, p.job = some x → x = job := by
    intro x hx
    rcases hpp with rfl | ⟨e, rfl⟩ <;> cases hx
    rfl
  have hnot : ∀ job', p ≠ .handling job' := by
    intro job' he
    rcases hpp with rfl | ⟨e, rfl⟩ <;> cases he
  -- the row of a leased job is running while its handler runs
  have hrunning : c.leased i = true → ∃ j, c.store.jobRow job.id = some j ∧ j.status = .running := by
    intro hl
    obtain ⟨j, hj, hst⟩ := h.held i job hjob hl
    exact ⟨j, hj, hst.resolve_right fun hd => hd.2 job hp⟩
  rcases hc with ⟨-, rfl⟩ | ⟨-, rfl⟩
  · refine ⟨h.put h.keyed (fun x hx => hpjob x hx ▸ hjob) (fun x hx hl => ?_)
      fun k x j _ _ _ hj => ⟨j, hj, rfl⟩, ⟨fun _ _ _ _ _ => rfl, fun _ j hj _ => ⟨j, hj, rfl⟩⟩⟩
    obtain ⟨j, hj, hst⟩ := hrunning hl
    exact ⟨j, hpjob x hx ▸ hj, .inl hst⟩
  have hr : Rewrites (fun j j' => j' = if j.id == job.id then j.completed c.store.now else j)
      c.store (c.store.updateJob job.id (JobRow.completed c.store.now)) :=
    rewrites_updateWhere (f := JobRow.completed c.store.now) (fun _ => rfl) rfl rfl
  generalize c.store.updateJob job.id (JobRow.completed c.store.now) = t at hr hs ⊢
  -- a row that is not done already changes only if the caller still has the lease
  have hkeep : ∀ k x j, k ≠ i → (c.phase k).job = some x → c.leased k = true →
      c.store.jobRow x.id = some j → x.id = job.id → j.status = .done := by
    intro k x j hk hx hlk hj he
    cases hl : c.leased i with
    | true => exact absurd he (h.single k i x job hk hx hlk hjob hl)
    | false => exact ha hl job hjob j (he ▸ hj)
  refine ⟨h.put (h.keyed.rewrites hr) (fun x hx => hpjob x hx ▸ hjob) (fun x hx hl => ?_)
    fun k x j hk hx hlk hj => ?_, ⟨fun k hcall hl x hx => ?_, fun id j hj hterm => ?_⟩⟩
  · obtain ⟨j, hj, -⟩ := hrunning hl
    obtain ⟨j', hj', rfl⟩ := hr.later hj
    rw [hpjob x hx]
    exact ⟨_, hj', .inr ⟨by simp [jobRow_id hj, JobRow.completed], hnot⟩⟩
  · obtain ⟨j', hj', rfl⟩ := hr.later hj
    refine ⟨_, hj', ?_⟩
    by_cases he : x.id = job.id
    · simp [jobRow_id hj, he, hkeep k x j hk hx hlk hj he, JobRow.completed]
    · simp [jobRow_id hj, he]
  · cases hcall
    cases hjob.symm.trans hx
    cases hj : c.store.jobRow job.id with
    | none => simp [QueueConfig.put, hr.absent.mpr hj]
    | some j =>
      obtain ⟨j', hj', rfl⟩ := hr.later hj
      have hdone := ha hl job hjob j hj
      simp [QueueConfig.put, hj', JobRow.lease, jobRow_id hj, hdone, JobRow.completed]
  · obtain ⟨j', hj', rfl⟩ := hr.later hj
    refine ⟨_, hj', ?_⟩
    by_cases he : id = job.id
    · subst he
      cases hl : c.leased i with
      | true =>
        obtain ⟨j2, hj2, hst⟩ := hrunning hl
        rw [hj] at hj2
        cases hj2
        rw [hst] at hterm
        cases hterm
      | false => simp [jobRow_id hj, ha hl job hjob j hj, JobRow.completed]
    · simp [jobRow_id hj, he]

theorem LeaseInv.moved {c : QueueConfig ι} (h : LeaseInv c) {i : ι} {p : TickPhase}
    (hp : ∀ job, p.job = some job → (c.phase i).job = some job)
    (hnot : ∀ job', p ≠ .handling job') : LeaseInv (c.put i p c.store) := by
  refine h.put h.keyed hp (fun job hj hl => ?_) fun k job j _ _ _ hj => ⟨j, hj, rfl⟩
  obtain ⟨j, hrow, hst⟩ := h.held i job (hp job hj) hl
  exact ⟨j, hrow, hst.imp_right fun hd => ⟨hd.1, hnot⟩⟩

omit [DecidableEq ι] in
theorem fenced_same (l : QueueLabel ι) {c c' : QueueConfig ι}
    (h : c'.store.db.userBatchJobs = c.store.db.userBatchJobs) : Fenced l c c' := by
  have hrow : ∀ id, c'.store.jobRow id = c.store.jobRow id := fun id => by
    rw [Store.jobRow, h, Store.jobRow]
  exact ⟨fun _ _ _ job _ => by rw [hrow], fun id j hj _ => ⟨j, by rw [hrow, hj], rfl⟩⟩

theorem LeaseInv.failRead {i : ι} {fate : Fate} {c c' : QueueConfig ι} (h : LeaseInv c)
    (hs : stepFailRead i fate c = some c') : LeaseInv c' ∧ Fenced (.failRead i fate) c c' := by
  obtain ⟨job, e, p, hp, hpp, rfl⟩ := stepFailRead_cases hs
  refine ⟨h.moved (fun x hx => ?_) (fun job' he => ?_), fenced_same _ rfl⟩
  · rcases hpp with rfl | ⟨n, rfl⟩
    · cases hx
    · rw [hp]
      exact hx
  · rcases hpp with rfl | ⟨n, rfl⟩ <;> cases he

theorem LeaseInv.failWrite {env : Env} {i : ι} {fate : Fate} {c c' : QueueConfig ι}
    (h : LeaseInv c) (ha : LateFindsFinished (.failWrite i fate) c)
    (hs : stepFailWrite env i fate c = some c') : LeaseInv c' ∧ Fenced (.failWrite i fate) c c' := by
  obtain ⟨job, e, n, hp, hc⟩ := stepFailWrite_cases hs
  have hjob : (c.phase i).job = some job := by rw [hp]; rfl
  rcases hc with ⟨-, rfl⟩ | ⟨-, rfl⟩
  · exact ⟨h.moved (fun _ hx => by cases hx) (fun _ he => by cases he), fenced_same _ rfl⟩
  have hr : Rewrites (fun j j' => j' = if JobRow.isRunning job.id j then
        JobRow.failed c.store.now e env.maxAttempts (2 ^ (n + 1)) j else j)
      c.store { c.store with
        db := { c.store.db with
          userBatchJobs := Table.updateWhere (JobRow.isRunning job.id)
            (JobRow.failed c.store.now e env.maxAttempts (2 ^ (n + 1)))
            c.store.db.userBatchJobs } } :=
    rewrites_updateWhere (f := JobRow.failed c.store.now e env.maxAttempts (2 ^ (n + 1)))
      (fun _ => rfl) rfl rfl
  generalize { c.store with
    db := { c.store.db with
      userBatchJobs := Table.updateWhere (JobRow.isRunning job.id)
        (JobRow.failed c.store.now e env.maxAttempts (2 ^ (n + 1)))
        c.store.db.userBatchJobs } } = t at hr hs ⊢
  -- only a row that is running under the job's id changes
  have hstays : ∀ {id : Nat} {j : JobRow}, c.store.jobRow id = some j →
      (id = job.id → j.status ≠ .running) → t.jobRow id = some j := by
    intro id j hj hne
    obtain ⟨j', hj', he⟩ := hr.later hj
    have hnot : JobRow.isRunning job.id j = false := by
      rw [JobRow.isRunning, Bool.and_eq_false_iff]
      by_cases hid : id = job.id
      · exact .inr (by simpa using hne hid)
      · exact .inl (by simpa [jobRow_id hj] using hid)
    rw [hj', he, hnot]
    rfl
  refine ⟨h.put (h.keyed.rewrites hr) (fun x hx => by cases hx) (fun x hx => by cases hx)
    fun k x j hk hx hlk hj => ⟨j, hstays hj fun he hrun => ?_, rfl⟩,
    ⟨fun k hcall hl x hx => ?_, fun id j hj hterm => ⟨j, hstays hj fun _ hrun => ?_, rfl⟩⟩⟩
  · cases hl : c.leased i with
    | true => exact h.single k i x job hk hx hlk hjob hl he
    | false => exact ha hl job hjob j (he ▸ hj) hrun
  · cases hcall
    cases hjob.symm.trans hx
    cases hj : c.store.jobRow job.id with
    | none => rw [QueueConfig.put, hr.absent.mpr hj]
    | some j => rw [QueueConfig.put, hstays hj fun _ => ha hl job hjob j hj]
  · rw [hrun] at hterm
    cases hterm

theorem LeaseInv.claim {env : Env} {worker : String} {i : ι} {fate : Fate} {c c' : QueueConfig ι}
    (h : LeaseInv c) (hs : stepClaim env worker i fate c = some c') :
    LeaseInv c' ∧ Fenced (.claim i fate) c c' := by
  obtain ⟨hidle, rfl | ⟨j, hnext, hstore, -, hc⟩⟩ := stepClaim_cases hs
  · exact ⟨h, fenced_same _ rfl⟩
  have hj := nextEligible_pending hnext
  have hrow := h.keyed.jobRow hj.1
  have hr : Rewrites (fun r r' => r' = if r.id == j.id then r.claimed c.store.now worker else r)
      c.store c'.store := by
    rw [hstore]
    exact rewrites_updateWhere (f := JobRow.claimed c.store.now worker) (fun _ => rfl) rfl rfl
  -- nobody holds a pending job
  have hother : ∀ k job, (c.phase k).job = some job → c.leased k = true → job.id ≠ j.id := by
    intro k job hk hl he
    obtain ⟨r, hr, hst⟩ := h.held k job hk hl
    rw [he, hrow] at hr
    cases hr
    rw [hj.2] at hst
    rcases hst with hst | hst
    · cases hst
    · cases hst.1
  have hstays : ∀ {id : Nat} {r : JobRow}, c.store.jobRow id = some r → id ≠ j.id →
      c'.store.jobRow id = some r := by
    intro id r hid hne
    obtain ⟨r', hr', he⟩ := hr.later hid
    rw [hr', he]
    simp [jobRow_id hid, hne]
  have hfinal : ∀ id r, c.store.jobRow id = some r → r.status.terminal = true →
      ∃ r', c'.store.jobRow id = some r' ∧ r'.status = r.status := by
    intro id r hid hterm
    refine ⟨r, hstays hid ?_, rfl⟩
    rintro rfl
    rw [hrow] at hid
    cases hid
    rw [hj.2] at hterm
    cases hterm
  refine ⟨?_, ⟨fun _ hcall => (by cases hcall), hfinal⟩⟩
  rcases hc with ⟨hphase, hleased⟩ | ⟨job, hid, hphase, hleased⟩
  · refine ⟨h.keyed.rewrites hr, fun k x hk hl => ?_, fun k k' => ?_⟩
    · rw [hphase] at hk ⊢
      rw [hleased] at hl
      obtain ⟨r, hr, hst⟩ := h.held k x hk hl
      exact ⟨r, hstays hr (hother k x hk hl), hst⟩
    · rw [hphase, hleased]
      exact h.single k k'
  have hk_of : ∀ k x, k ≠ i → (c'.phase k).job = some x → c'.leased k = true →
      (c.phase k).job = some x ∧ c.leased k = true := by
    intro k x hki hk hl
    rw [hphase, Function.update_of_ne hki] at hk
    rw [hleased, Function.update_of_ne hki] at hl
    exact ⟨hk, hl⟩
  have hi_of : ∀ x, (c'.phase i).job = some x → x = job := by
    intro x hx
    rw [hphase, Function.update_self] at hx
    cases hx
    rfl
  refine ⟨h.keyed.rewrites hr, fun k x hk hl => ?_, fun k k' x x' hne hk hl hk' hl' => ?_⟩
  · by_cases hki : k = i
    · subst hki
      obtain ⟨r', hr', he⟩ := hr.later hrow
      refine ⟨r', ?_, .inl (by simp [he, JobRow.claimed])⟩
      rw [hi_of x hk, hid, hr']
    · obtain ⟨hk2, hl2⟩ := hk_of k x hki hk hl
      obtain ⟨r, hr, hst⟩ := h.held k x hk2 hl2
      rw [hphase, Function.update_of_ne hki]
      exact ⟨r, hstays hr (hother k x hk2 hl2), hst⟩
  · by_cases hki : k = i
    · subst hki
      obtain ⟨hk2, hl2⟩ := hk_of k' x' (fun he => hne he.symm) hk' hl'
      rw [hi_of x hk, hid]
      exact fun he => hother k' x' hk2 hl2 he.symm
    · obtain ⟨hk2, hl2⟩ := hk_of k x hki hk hl
      by_cases hki' : k' = i
      · subst hki'
        rw [hi_of x' hk', hid]
        exact hother k x hk2 hl2
      · obtain ⟨hk3, hl3⟩ := hk_of k' x' hki' hk' hl'
        exact h.single k k' x x' hne hk2 hl2 hk3 hl3

omit [DecidableEq ι] in
theorem LeaseInv.reset {hit : JobRow → Bool} {f : JobRow → JobRow} {statement : M (List Nat)}
    {l : QueueLabel ι} {c c' : QueueConfig ι} (h : LeaseInv c)
    (hst : statement.exec c.store = some (.ok ((c.store.db.userBatchJobs.filter hit).map JobRow.id),
      { c.store with
        db := { c.store.db with
          userBatchJobs := Table.updateWhere hit f c.store.db.userBatchJobs } }))
    (hs : stepReset statement c = some c') (hf : ∀ j, (f j).id = j.id)
    (hhit : ∀ j, hit j = true → j.status = .running) (hl : l.caller = none) :
    LeaseInv c' ∧ Fenced l c c' := by
  obtain ⟨hjobs, hseq, hphase, hleased, -⟩ := stepReset_cases hst hs
  have hr := rewrites_updateWhere hf hjobs hseq
  have hstays : ∀ {id : Nat} {j : JobRow}, c.store.jobRow id = some j → hit j = false →
      c'.store.jobRow id = some j := by
    intro id j hj hno
    obtain ⟨j', hj', he⟩ := hr.later hj
    rw [hj', he, hno]
    rfl
  have hback : ∀ k, c'.leased k = true → c.leased k = true := by
    intro k hk
    rw [hleased, QueueConfig.stillLeased, Bool.and_eq_true] at hk
    exact hk.1
  refine ⟨⟨h.keyed.rewrites hr, fun k x hk hlk => ?_, fun k k' x x' hne hk hlk hk' hlk' => ?_⟩,
    ⟨fun k hcall => ?_, fun id j hj hterm => ⟨j, hstays hj ?_, rfl⟩⟩⟩
  · rw [hphase] at hk ⊢
    obtain ⟨j, hj, hrow⟩ := h.held k x hk (hback k hlk)
    refine ⟨j, hstays hj ?_, hrow⟩
    rw [hleased, QueueConfig.stillLeased, hk] at hlk
    by_contra hhit'
    rw [Bool.not_eq_false] at hhit'
    have hmem : x.id ∈ (c.store.db.userBatchJobs.filter hit).map JobRow.id :=
      List.mem_map.mpr ⟨j, List.mem_filter.mpr ⟨Table.lookup_mem hj, hhit'⟩, jobRow_id hj⟩
    simp [hmem] at hlk
  · rw [hphase] at hk hk'
    exact h.single k k' x x' hne hk (hback k hlk) hk' (hback k' hlk')
  · rw [hl] at hcall
    cases hcall
  · by_contra hhit'
    rw [Bool.not_eq_false] at hhit'
    rw [hhit j hhit'] at hterm
    cases hterm

omit [DecidableEq ι] in
theorem LeaseInv.enqueue {userId : String} {payload : JobPayload} {c : QueueConfig ι}
    (h : LeaseInv c) :
    LeaseInv { c with store := (enqueue userId payload).after c.store } ∧
      Fenced (.enqueue userId payload) c
        { c with store := (enqueue userId payload).after c.store } := by
  have hjobs : ((Lumogis.enqueue userId payload).after c.store).db.userBatchJobs =
      c.store.db.userBatchJobs ++
        [JobRow.enqueued c.store.db.userBatchJobsSeq c.store.now userId payload] := rfl
  have hstays : ∀ {id : Nat} {j : JobRow}, c.store.jobRow id = some j → _ := fun hj =>
    jobRow_enqueued hjobs hj
  refine ⟨⟨Table.Keyed.append h.keyed rfl, fun k x hk hl => ?_, h.single⟩,
    ⟨fun _ hcall => (by cases hcall), fun id j hj _ => ⟨j, hstays hj, rfl⟩⟩⟩
  obtain ⟨j, hj, hst⟩ := h.held k x hk hl
  exact ⟨j, hstays hj, hst⟩

omit [DecidableEq ι] in
theorem LeaseInv.elsewhere {l : QueueLabel ι} {c : QueueConfig ι} {t : Store} (h : LeaseInv c)
    (hl : l.caller = none) (hs : c.store.sameQueue t = true) :
    LeaseInv { c with store := t } ∧ Fenced l c { c with store := t } := by
  have hr := rewrites_elsewhere hs
  have hstays : ∀ {id : Nat} {j : JobRow}, c.store.jobRow id = some j →
      ∃ j', t.jobRow id = some j' ∧ j'.status = j.status := by
    intro id j hj
    obtain ⟨j', hj', he⟩ := hr.later hj
    exact ⟨j', hj', by simpa [JobRow.queueColumns] using congrArg JobRow.status he⟩
  refine ⟨⟨h.keyed.rewrites hr, fun k x hk hlk => ?_, h.single⟩, ⟨fun _ hcall => ?_,
    fun id j hj _ => hstays hj⟩⟩
  · obtain ⟨j, hj, hst⟩ := h.held k x hk hlk
    obtain ⟨j', hj', he⟩ := hstays hj
    exact ⟨j', hj', by rwa [he]⟩
  · rw [hl] at hcall
    cases hcall

theorem LeaseInv.step {env : Env} {workerId : ι → String} {l : QueueLabel ι} {c c' : QueueConfig ι}
    (h : LeaseInv c) (ha : LateFindsFinished l c) (hs : queueStep env workerId l c = some c') :
    LeaseInv c' ∧ Fenced l c c' := by
  cases l with
  | enqueue userId payload => cases hs; exact h.enqueue
  | claim i fate => exact h.claim hs
  | handlerRaises i error =>
    simp only [queueStep] at hs
    split at hs
    · rename_i job hp
      cases hs
      refine ⟨h.moved (fun x hx => ?_) (fun _ he => by cases he), fenced_same _ rfl⟩
      rw [hp]
      exact hx
    · cases hs
  | complete i fate => exact h.complete ha hs
  | failRead i fate => exact h.failRead hs
  | failWrite i fate => exact h.failWrite ha hs
  | resetPending after =>
    exact h.reset (resetStuckPending_exec after env.maxAttempts c.store) hs (fun _ => rfl)
      (fun j hj => JobRow.stuck_running (Bool.and_eq_true_iff.mp hj).1) rfl
  | resetDead after =>
    exact h.reset (resetStuckDead_exec after env.maxAttempts c.store) hs (fun _ => rfl)
      (fun j hj => JobRow.stuck_running (Bool.and_eq_true_iff.mp hj).1) rfl
  | crash i =>
    cases hs
    exact ⟨h.moved (fun _ hx => by cases hx) (fun _ he => by cases he), fenced_same _ rfl⟩
  | wait minutes =>
    cases hs
    exact ⟨⟨⟨h.keyed.nodup, h.keyed.fresh⟩, h.held, h.single⟩, fenced_same _ rfl⟩
  | elsewhere store =>
    simp only [queueStep] at hs
    split at hs
    · rename_i hsame
      cases hs
      exact h.elsewhere rfl hsame
    · cases hs

/-- In every run in which the late calls of `complete` and `fail` find their jobs finished, they
leave them alone, and a job that is done or dead keeps its status. -/
theorem leaseFencing (env : Env) (workerId : ι → String) (c₀ : QueueConfig ι) (h₀ : Started c₀)
    (c c' : QueueConfig ι) (l : QueueLabel ι)
    (hrun : Reaches (queueStep env workerId) LateFindsFinished c₀ c) (hl : LateFindsFinished l c)
    (hs : queueStep env workerId l c = some c') : Fenced l c c' :=
  ((hrun.invariant h₀.inv fun _ _ _ hi ha hst => (hi.step ha hst).1).step hl hs).2

end Leases

namespace LeaseExample

def env : Env := { Env.plain .disabled with maxAttempts := 1 }

def workerId (i : Fin 2) : String := if i = 0 then "orch-1" else "orch-2"

def start : QueueConfig (Fin 2) :=
  { store := .empty, phase := fun _ => .idle, leased := fun _ => false, claimed := [] }

/-- Worker 0 is slow, and the job goes to worker 1. -/
def reclaimed : List (QueueLabel (Fin 2)) :=
  [.enqueue "ann" (.ingestFolder "/docs"), .claim 0 .ok, .wait 31, .resetPending 1800, .claim 1 .ok]

def reached (ls : List (QueueLabel (Fin 2))) : QueueConfig (Fin 2) :=
  (run (queueStep env workerId) ls start).getD start

theorem run_reached {ls : List (QueueLabel (Fin 2))}
    (h : (run (queueStep env workerId) ls start).isSome = true) :
    run (queueStep env workerId) ls start = some (reached ls) := by
  obtain ⟨c, hc⟩ := Option.isSome_iff_exists.mp h
  rw [reached, hc]
  rfl

def next (l : QueueLabel (Fin 2)) (c : QueueConfig (Fin 2)) : QueueConfig (Fin 2) :=
  (queueStep env workerId l c).getD c

theorem step_next {l : QueueLabel (Fin 2)} {c : QueueConfig (Fin 2)}
    (h : (queueStep env workerId l c).isSome = true) :
    queueStep env workerId l c = some (next l c) := by
  obtain ⟨c', hc⟩ := Option.isSome_iff_exists.mp h
  rw [next, hc]
  rfl

/-- Worker 1 has finished. -/
def finished : QueueConfig (Fin 2) := reached (reclaimed ++ [.complete 1 .ok])

/-- Worker 1 is slow too, and has no attempt left. -/
def dead : QueueConfig (Fin 2) := reached (reclaimed ++ [.wait 31, .resetDead 1800])

end LeaseExample

open LeaseExample in
theorem leaseFencing_finished :
    Fenced (.complete 0 .ok) finished (next (.complete 0 .ok) finished) :=
  leaseFencing env workerId start
    ⟨⟨List.nodup_nil, fun _ hj => by cases hj⟩, fun _ => rfl⟩ _ _ (.complete 0 .ok)
    (run_reaches (run_reached (by decide)) (by decide)) (by decide) (step_next (by decide))

open LeaseExample in
/-- The late `complete` marks the dead job done. -/
theorem lateComplete_revives_job :
    ∃ c c', Reaches (queueStep env workerId) (fun _ _ => True) start c ∧
      queueStep env workerId (.complete 1 .ok) c = some c' ∧ ¬ Fenced (.complete 1 .ok) c c' := by
  refine ⟨dead, next (.complete 1 .ok) dead, run_reaches (run_reached (by decide)) ?_,
    step_next (by decide), fun h => ?_⟩
  · simp [reclaimed, Admitted]
  · obtain ⟨j, hj, hst⟩ := h.final 1 ((dead.store.jobRow 1).get (by decide)) (by decide) (by decide)
    revert hst
    have hnow : (next (.complete 1 .ok) dead).store.jobRow 1 =
        some ((next (.complete 1 .ok) dead).store.jobRow 1 |>.get (by decide)) := by decide
    rw [hnow] at hj
    cases hj
    decide

end Lumogis
