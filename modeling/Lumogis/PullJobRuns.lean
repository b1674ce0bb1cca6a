import Lumogis.OllamaPullJobs
import Mathlib.Data.List.Nodup

/-!
# PullJobRuns

One pull at a time, and the table never wedged. `Orderly` asks of a run that an insert still passes the check
its call made, that no pull succeeds after its row was reaped, that a worker's first two statements land,
and that no crash meets a pending row. In every such run at most one row is active, a terminal row keeps its
status, and once the workers are gone and two hours have passed `create_job` succeeds (`pulls_orderly`). Two
calls that both check first leave two pending rows (`two_pending_rows`).
-/

namespace Lumogis.OllamaPulls

open Labelled

/-! ## What is asked of a step, and what holds then -/

def Orderly : PullLabel → PullState → Prop
  | .insert _ _ true, s => assertNoRunningJob s.rows = true
  | .fetch _ lands, _ => lands = true
  | .start _ lands, _ => lands = true
  | .succeed j _ true, s => ∀ r ∈ s.rows, r.jobId = j → r.status ≠ .failed
  | .crash, s => ∀ r ∈ s.rows, r.status ≠ .pending
  | _, _ => True

/-- The active rows. -/
def activeRows (rows : List PullJob) : Nat := rows.countP fun r => decide r.status.IsActive

/-- A call of `create_job`, `seconds` later and with nothing in between. -/
def createCall (seconds c : Nat) (modelName : String) : List PullLabel :=
  [.tick seconds, .purge c true, .reap c true, .check c true, .insert c modelName true]

/-- A call that begins after more than two hours without workers inserts its row. -/
def Recovers (retentionHours : Nat) (s : PullState) : Prop :=
  (∀ j, s.workers j = .gone) → ∀ seconds, 7200 < seconds → ∀ c, s.creates c = .idle → ∀ modelName,
    (run (pullStep retentionHours) (createCall seconds c modelName) s).isSome = true

/-- A terminal row of `s` that is still there in `t` has its status. -/
def KeepsTerminal (s t : PullState) : Prop :=
  ∀ r ∈ s.rows, ¬ r.status.IsActive → ∀ r' ∈ t.rows, r'.jobId = r.jobId → r'.status = r.status

/-- What the status of a row can be, by the phase of its worker. -/
def Fits : PullWorkerPhase → PullStatus → Prop
  | .gone, status => status ≠ .pending
  | .scheduled, status => status = .pending
  | .fetched, status => status = .pending
  | .pulling, status => status = .running ∨ status = .failed
  | .failing _, status => status = .running ∨ status = .failed

def PullJob.Started (now : Nat) (r : PullJob) : Prop :=
  r.status = .running → ∃ t ≤ now, r.startedAt = some t

instance : (l : PullLabel) → (s : PullState) → Decidable (Orderly l s)
  | .insert _ _ true, s => inferInstanceAs (Decidable (_ = true))
  | .insert _ _ false, _ => .isTrue trivial
  | .fetch _ _, _ => inferInstanceAs (Decidable (_ = true))
  | .start _ _, _ => inferInstanceAs (Decidable (_ = true))
  | .succeed j _ true, s => inferInstanceAs (Decidable (∀ r ∈ s.rows, r.jobId = j → r.status ≠ .failed))
  | .succeed _ _ false, _ => .isTrue trivial
  | .crash, s => inferInstanceAs (Decidable (∀ r ∈ s.rows, r.status ≠ .pending))
  | .tick _, _ => .isTrue trivial
  | .purge _ _, _ => .isTrue trivial
  | .reap _ _, _ => .isTrue trivial
  | .check _ _, _ => .isTrue trivial
  | .progress _ _ _ _, _ => .isTrue trivial
  | .raise _ _, _ => .isTrue trivial
  | .fail _ _, _ => .isTrue trivial

structure Ordered (s : PullState) : Prop where
  ids : (s.rows.map PullJob.jobId).Nodup
  bound : ∀ r ∈ s.rows, r.jobId < s.nextId
  oneActive : activeRows s.rows ≤ 1
  fits : ∀ r ∈ s.rows, Fits (s.workers r.jobId) r.status
  started : ∀ r ∈ s.rows, r.Started s.now

/-- Each row of `t` is a new one or a row of `s`, with the same status if that was terminal. -/
structure Follows (s t : PullState) : Prop where
  nextId : s.nextId ≤ t.nextId
  rows : ∀ r' ∈ t.rows, s.nextId ≤ r'.jobId ∨
    ∃ r ∈ s.rows, r.jobId = r'.jobId ∧ (¬ r.status.IsActive → r'.status = r.status)

theorem Follows.refl (s : PullState) : Follows s s where
  nextId := Nat.le_refl _
  rows := fun r hr => .inr ⟨r, hr, rfl, fun _ => rfl⟩

theorem Follows.trans {s t u : PullState} (h : Follows s t) (h' : Follows t u) : Follows s u where
  nextId := Nat.le_trans h.nextId h'.nextId
  rows := by
    intro r'' hr''
    rcases h'.rows r'' hr'' with hnew | ⟨r', hr', hid', hkeep'⟩
    · exact .inl (Nat.le_trans h.nextId hnew)
    · rcases h.rows r' hr' with hnew | ⟨r, hr, hid, hkeep⟩
      · exact .inl (hid' ▸ hnew)
      · refine .inr ⟨r, hr, hid.trans hid', ?_⟩
        intro hterminal
        have hstatus : r'.status = r.status := hkeep hterminal
        rw [hkeep' (hstatus ▸ hterminal), hstatus]

theorem Follows.keepsTerminal {s t : PullState} (hs : Ordered s) (h : Follows s t) : KeepsTerminal s t := by
  intro r hr hterminal r' hr' hid
  rcases h.rows r' hr' with hnew | ⟨old, hold, hid', hkeep⟩
  · have := hs.bound r hr
    omega
  · obtain rfl : old = r := List.inj_on_of_nodup_map hs.ids hold hr (hid'.trans hid)
    exact hkeep hterminal

/-! ## Statements that keep the rows -/

/-- What a statement may do with a row whose worker is then in the given phase. -/
structure Allowed (now : Nat) (phase : PullWorkerPhase) (r r' : PullJob) : Prop where
  jobId : r'.jobId = r.jobId
  active : r'.status.IsActive → r.status.IsActive
  terminal : ¬ r.status.IsActive → r'.status = r.status
  fits : Fits phase r'.status
  started : r'.Started now

section
variable {s t : PullState}

theorem Ordered.allowed (h : Ordered s) (hnow : s.now ≤ t.now) {r : PullJob} (hr : r ∈ s.rows) :
    Allowed t.now (s.workers r.jobId) r r where
  jobId := rfl
  active := id
  terminal := fun _ => rfl
  fits := h.fits r hr
  started := by
    intro hrunning
    obtain ⟨time, hle, heq⟩ := h.started r hr hrunning
    exact ⟨time, Nat.le_trans hle hnow, heq⟩

theorem Ordered.map (h : Ordered s) {g : PullJob → PullJob} (hrows : t.rows = s.rows.map g)
    (hnext : t.nextId = s.nextId) (hg : ∀ r ∈ s.rows, Allowed t.now (t.workers r.jobId) r (g r)) :
    Ordered t ∧ Follows s t := by
  have hmem : ∀ r' ∈ t.rows, ∃ r ∈ s.rows, g r = r' := by
    intro r' hr'
    rw [hrows] at hr'
    exact List.mem_map.mp hr'
  constructor
  · constructor
    · have hids : t.rows.map PullJob.jobId = s.rows.map PullJob.jobId := by
        rw [hrows, List.map_map]
        exact List.map_congr_left fun r hr => (hg r hr).jobId
      rw [hids]
      exact h.ids
    · intro r' hr'
      obtain ⟨r, hr, rfl⟩ := hmem r' hr'
      rw [(hg r hr).jobId, hnext]
      exact h.bound r hr
    · refine Nat.le_trans ?_ h.oneActive
      rw [hrows, activeRows, List.countP_map]
      refine List.countP_mono_left fun r hr hactive => ?_
      exact decide_eq_true ((hg r hr).active (of_decide_eq_true hactive))
    · intro r' hr'
      obtain ⟨r, hr, rfl⟩ := hmem r' hr'
      rw [(hg r hr).jobId]
      exact (hg r hr).fits
    · intro r' hr'
      obtain ⟨r, hr, rfl⟩ := hmem r' hr'
      exact (hg r hr).started
  · constructor
    · exact Nat.le_of_eq hnext.symm
    · intro r' hr'
      obtain ⟨r, hr, rfl⟩ := hmem r' hr'
      exact .inr ⟨r, hr, (hg r hr).jobId.symm, (hg r hr).terminal⟩

theorem Ordered.same (h : Ordered s) (hrows : t.rows = s.rows) (hnext : t.nextId = s.nextId)
    (hnow : s.now ≤ t.now) (hfits : ∀ r ∈ s.rows, Fits (t.workers r.jobId) r.status) :
    Ordered t ∧ Follows s t := by
  refine h.map (g := id) (by rw [hrows, List.map_id]) hnext fun r hr => ?_
  exact { h.allowed hnow hr with fits := hfits r hr }

theorem Ordered.filter (h : Ordered s) {p : PullJob → Bool} (hrows : t.rows = s.rows.filter p)
    (hnext : t.nextId = s.nextId) (hnow : s.now ≤ t.now) (hworkers : t.workers = s.workers) :
    Ordered t ∧ Follows s t := by
  have hsub : t.rows.Sublist s.rows := hrows ▸ List.filter_sublist
  constructor
  · constructor
    · exact h.ids.sublist (hsub.map _)
    · intro r hr
      rw [hnext]
      exact h.bound r (hsub.subset hr)
    · exact Nat.le_trans hsub.countP_le h.oneActive
    · intro r hr
      rw [hworkers]
      exact h.fits r (hsub.subset hr)
    · intro r hr
      exact (h.allowed hnow (hsub.subset hr)).started
  · constructor
    · exact Nat.le_of_eq hnext.symm
    · intro r hr
      exact .inr ⟨r, hsub.subset hr, rfl, fun _ => rfl⟩

theorem Ordered.update (h : Ordered s) {j : Nat} {f : PullJob → PullJob} {phase : PullWorkerPhase}
    (hf : ∀ r ∈ s.rows, r.jobId = j → Allowed s.now phase r (f r)) :
    Ordered ((s.mapRows (updateJob j f)).setWorker j phase) ∧
      Follows s ((s.mapRows (updateJob j f)).setWorker j phase) := by
  refine h.map rfl rfl fun r hr => ?_
  show Allowed s.now (Function.update s.workers j phase r.jobId) r _
  by_cases hid : r.jobId = j
  · rw [if_pos hid, hid, Function.update_self]
    exact hf r hr hid
  · rw [if_neg hid, Function.update_of_ne hid]
    exact h.allowed (t := s) (Nat.le_refl _) hr

theorem Ordered.setWorker (h : Ordered s) {j : Nat} {phase : PullWorkerPhase}
    (hfits : ∀ r ∈ s.rows, r.jobId = j → Fits phase r.status) :
    Ordered (s.setWorker j phase) ∧ Follows s (s.setWorker j phase) := by
  refine h.same rfl rfl (Nat.le_refl _) fun r hr => ?_
  show Fits (Function.update s.workers j phase r.jobId) r.status
  by_cases hid : r.jobId = j
  · rw [hid, Function.update_self]
    exact hfits r hr hid
  · rw [Function.update_of_ne hid]
    exact h.fits r hr

end

/-! ## One step -/

section
variable {retentionHours : Nat} {s t : PullState}

theorem createStep_cases {c : Nat} {phase next : CreatePhase} {lands : Bool}
    {f : List PullJob → List PullJob} (h : s.createStep c phase next lands f = some t) :
    (t.rows = s.rows ∨ t.rows = f s.rows) ∧ t.nextId = s.nextId ∧ t.now = s.now ∧ t.workers = s.workers := by
  simp only [PullState.createStep] at h
  split at h
  · cases h
  · split at h
    · cases h
      exact ⟨.inr rfl, rfl, rfl, rfl⟩
    · cases h
      exact ⟨.inl rfl, rfl, rfl, rfl⟩

theorem Ordered.purge (h : Ordered s) {c : Nat} {lands : Bool}
    (hs : pullStep retentionHours (.purge c lands) s = some t) : Ordered t ∧ Follows s t := by
  obtain ⟨hrows, hnext, hnow, hworkers⟩ := createStep_cases hs
  rcases hrows with hrows | hrows
  · exact h.same hrows hnext (Nat.le_of_eq hnow.symm) fun r hr => hworkers ▸ h.fits r hr
  · exact h.filter hrows hnext (Nat.le_of_eq hnow.symm) hworkers

theorem Ordered.reap (h : Ordered s) {c : Nat} {lands : Bool}
    (hs : pullStep retentionHours (.reap c lands) s = some t) : Ordered t ∧ Follows s t := by
  obtain ⟨hrows, hnext, hnow, hworkers⟩ := createStep_cases hs
  rcases hrows with hrows | hrows
  · exact h.same hrows hnext (Nat.le_of_eq hnow.symm) fun r hr => hworkers ▸ h.fits r hr
  · refine h.map hrows hnext fun r hr => ?_
    rw [hnow, hworkers]
    split
    · rename_i hstale
      simp only [PullJob.IsStale, Bool.and_eq_true, decide_eq_true_eq] at hstale
      have hfits := h.fits r hr
      constructor
      · rfl
      · intro _
        exact .inr hstale.1
      · intro hterminal
        exact absurd (.inr hstale.1) hterminal
      · revert hfits
        cases s.workers r.jobId <;> simp [Fits, hstale.1]
      · intro hrunning
        cases hrunning
    · exact h.allowed (t := s) (Nat.le_refl _) hr

theorem activeRows_of_none {rows : List PullJob} (h : assertNoRunningJob rows = true) : activeRows rows = 0 := by
  simp only [assertNoRunningJob, List.all_eq_true] at h
  refine List.countP_eq_zero.mpr fun r hr hactive => ?_
  simpa [hactive] using h r hr

theorem Ordered.insert (h : Ordered s) {c : Nat} {modelName : String} {lands : Bool}
    (ha : Orderly (.insert c modelName lands) s)
    (hs : pullStep retentionHours (.insert c modelName lands) s = some t) : Ordered t ∧ Follows s t := by
  simp only [pullStep] at hs
  split at hs
  · cases hs
  · split at hs
    · rename_i hlands
      subst hlands
      cases hs
      have hnone : activeRows s.rows = 0 := activeRows_of_none ha
      have hne : ∀ r ∈ s.rows, r.jobId ≠ s.nextId := fun r hr => Nat.ne_of_lt (h.bound r hr)
      constructor
      · constructor
        · show ((s.rows ++ [_]).map PullJob.jobId).Nodup
          rw [List.map_append]
          refine List.Nodup.append h.ids (List.nodup_singleton _) ?_
          intro id hid hid'
          obtain ⟨r, hr, rfl⟩ := List.mem_map.mp hid
          exact hne r hr (List.mem_singleton.mp hid')
        · intro r hr
          show r.jobId < s.nextId + 1
          rcases List.mem_append.mp hr with hr | hr
          · exact Nat.lt_succ_of_lt (h.bound r hr)
          · rw [List.mem_singleton.mp hr]
            exact Nat.lt_succ_self _
        · show activeRows (s.rows ++ [_]) ≤ 1
          rw [activeRows, List.countP_append]
          have hle : List.countP (fun r => decide r.status.IsActive) [PullJob.new s.nextId s.now modelName] ≤ 1 :=
            List.countP_le_length
          rw [activeRows] at hnone
          omega
        · intro r hr
          show Fits (Function.update s.workers s.nextId .scheduled r.jobId) r.status
          rcases List.mem_append.mp hr with hr | hr
          · rw [Function.update_of_ne (hne r hr)]
            exact h.fits r hr
          · rw [List.mem_singleton.mp hr]
            show Fits (Function.update s.workers s.nextId .scheduled s.nextId) .pending
            rw [Function.update_self]
            rfl
        · intro r hr
          rcases List.mem_append.mp hr with hr | hr
          · exact h.started r hr
          · rw [List.mem_singleton.mp hr]
            intro hrunning
            cases hrunning
      · constructor
        · exact Nat.le_succ _
        · intro r hr
          rcases List.mem_append.mp hr with hr | hr
          · exact .inr ⟨r, hr, rfl, fun _ => rfl⟩
          · rw [List.mem_singleton.mp hr]
            exact .inl (Nat.le_refl _)
    · cases hs
      exact h.same rfl rfl (Nat.le_refl _) h.fits

theorem Ordered.fetch (h : Ordered s) {j : Nat} {lands : Bool} (ha : Orderly (.fetch j lands) s)
    (hs : pullStep retentionHours (.fetch j lands) s = some t) : Ordered t ∧ Follows s t := by
  obtain rfl : lands = true := ha
  simp only [pullStep] at hs
  split at hs
  · cases hs
  · rename_i hphase
    cases hs
    refine h.setWorker fun r hr hid => ?_
    have hfits := h.fits r hr
    rw [hid, not_not.mp hphase] at hfits
    have hfound : s.rows.any (fun r => decide (r.jobId = j)) = true :=
      List.any_eq_true.mpr ⟨r, hr, decide_eq_true hid⟩
    rw [hfound]
    exact hfits

theorem Ordered.start (h : Ordered s) {j : Nat} {lands : Bool} (ha : Orderly (.start j lands) s)
    (hs : pullStep retentionHours (.start j lands) s = some t) : Ordered t ∧ Follows s t := by
  obtain rfl : lands = true := ha
  simp only [pullStep] at hs
  split at hs
  · cases hs
  · rename_i hphase
    cases hs
    refine h.update fun r hr hid => ?_
    have hpending : r.status = .pending := by
      have hfits := h.fits r hr
      rwa [hid, not_not.mp hphase] at hfits
    constructor
    · rfl
    · intro _
      exact .inl hpending
    · intro hterminal
      exact absurd (.inl hpending) hterminal
    · exact .inl rfl
    · intro _
      exact ⟨s.now, Nat.le_refl _, rfl⟩

/-- The row of a worker in its `try` is running, unless it was reaped. -/
theorem Ordered.pulling (h : Ordered s) {j : Nat} (hphase : s.workers j = .pulling) {r : PullJob}
    (hr : r ∈ s.rows) (hid : r.jobId = j) : r.status = .running ∨ r.status = .failed := by
  have hfits := h.fits r hr
  rwa [hid, hphase] at hfits

theorem Ordered.raise (h : Ordered s) {j : Nat} (hphase : s.workers j = .pulling) (message : String) :
    Ordered (s.setWorker j (.failing message)) ∧ Follows s (s.setWorker j (.failing message)) :=
  h.setWorker fun _ hr hid => h.pulling hphase hr hid

theorem Ordered.progress (h : Ordered s) {j : Nat} {progressPct : Option Int} {statusMessage : Option String}
    {lands : Bool} (hs : pullStep retentionHours (.progress j progressPct statusMessage lands) s = some t) :
    Ordered t ∧ Follows s t := by
  simp only [pullStep] at hs
  split at hs
  · cases hs
  · rename_i hphase
    split at hs
    · cases hs
      refine h.map rfl rfl fun r hr => ?_
      have hsame := h.allowed (t := s) (Nat.le_refl _) hr
      split
      · exact { hsame with }
      · exact hsame
    · cases hs
      exact h.raise (not_not.mp hphase) statementError

theorem Ordered.succeed (h : Ordered s) {j : Nat} {qdrantInitWarning : Option String} {lands : Bool}
    (ha : Orderly (.succeed j qdrantInitWarning lands) s)
    (hs : pullStep retentionHours (.succeed j qdrantInitWarning lands) s = some t) :
    Ordered t ∧ Follows s t := by
  simp only [pullStep] at hs
  split at hs
  · cases hs
  · rename_i hphase
    split at hs
    · rename_i hlands
      subst hlands
      cases hs
      refine h.update fun r hr hid => ?_
      -- The reaper has not been at the row, so this statement is the one that ends it.
      have hrunning : r.status = .running :=
        (h.pulling (not_not.mp hphase) hr hid).resolve_right (ha r hr hid)
      constructor
      · rfl
      · intro _
        exact .inr hrunning
      · intro hterminal
        exact absurd (.inr hrunning) hterminal
      · intro hpending
        cases hpending
      · intro hrunning
        cases hrunning
    · cases hs
      exact h.raise (not_not.mp hphase) statementError

theorem Ordered.fail (h : Ordered s) {j : Nat} {lands : Bool}
    (hs : pullStep retentionHours (.fail j lands) s = some t) : Ordered t ∧ Follows s t := by
  simp only [pullStep] at hs
  split at hs
  · rename_i message hphase
    have hcases : ∀ r ∈ s.rows, r.jobId = j → r.status = .running ∨ r.status = .failed := by
      intro r hr hid
      have hfits := h.fits r hr
      rwa [hid, hphase] at hfits
    cases hs
    cases lands with
    | false =>
      refine h.setWorker fun r hr hid hpending => ?_
      rcases hcases r hr hid with hstatus | hstatus <;> rw [hstatus] at hpending <;> cases hpending
    | true =>
      refine h.update fun r hr hid => ?_
      constructor
      · rfl
      · intro hactive
        rcases hactive with hactive | hactive <;> cases hactive
      · intro hterminal
        rcases hcases r hr hid with hstatus | hstatus
        · exact absurd (.inr hstatus) hterminal
        · exact hstatus.symm
      · intro hpending
        cases hpending
      · intro hrunning
        cases hrunning
  · cases hs

theorem orderly_step {l : PullLabel} (h : Ordered s) (ha : Orderly l s)
    (hs : pullStep retentionHours l s = some t) : Ordered t ∧ Follows s t := by
  cases l with
  | tick seconds =>
    cases hs
    exact h.same rfl rfl (Nat.le_add_right _ _) h.fits
  | purge c lands => exact h.purge hs
  | reap c lands => exact h.reap hs
  | check c lands =>
    obtain ⟨hrows, hnext, hnow, hworkers⟩ := createStep_cases hs
    exact h.same (hrows.elim id id) hnext (Nat.le_of_eq hnow.symm) fun r hr => hworkers ▸ h.fits r hr
  | insert c modelName lands => exact h.insert ha hs
  | fetch j lands => exact h.fetch ha hs
  | start j lands => exact h.start ha hs
  | progress j progressPct statusMessage lands => exact h.progress hs
  | raise j message =>
    simp only [pullStep] at hs
    split at hs
    · cases hs
    · rename_i hphase
      cases hs
      exact h.raise (not_not.mp hphase) message
  | succeed j qdrantInitWarning lands => exact h.succeed ha hs
  | fail j lands => exact h.fail hs
  | crash =>
    cases hs
    exact h.same rfl rfl (Nat.le_refl _) ha

end

/-! ## Whole runs -/

theorem ordered_start : Ordered PullState.start where
  ids := List.nodup_nil
  bound := fun _ hr => by cases hr
  oneActive := Nat.zero_le _
  fits := fun _ hr => by cases hr
  started := fun _ hr => by cases hr

theorem ordered_run {retentionHours : Nat} {s t : PullState} (h : Ordered s)
    (hr : Reaches (pullStep retentionHours) Orderly s t) : Ordered t ∧ Follows s t := by
  refine hr.invariant (I := fun t => Ordered t ∧ Follows s t) ⟨h, .refl s⟩ ?_
  rintro l t u ⟨hordered, hfollows⟩ ha hs
  obtain ⟨hordered', hfollows'⟩ := orderly_step hordered ha hs
  exact ⟨hordered', hfollows.trans hfollows'⟩

theorem none_left {retentionHours : Nat} {s : PullState} (h : Ordered s) (hgone : ∀ j, s.workers j = .gone)
    {now : Nat} (hnow : s.now + 7200 < now) :
    assertNoRunningJob (markStaleRunningFailed now (purgeTerminalRows retentionHours now s.rows)) = true := by
  simp only [assertNoRunningJob, markStaleRunningFailed, purgeTerminalRows, List.all_map, List.all_eq_true]
  intro r hr
  have hr : r ∈ s.rows := (List.mem_filter.mp hr).1
  have hpending : r.status ≠ .pending := by
    have hfits := h.fits r hr
    rwa [hgone] at hfits
  have hstale : r.status = .running → r.IsStale now = true := by
    intro hrunning
    obtain ⟨time, hle, hstarted⟩ := h.started r hr hrunning
    simp only [PullJob.IsStale, hrunning, hstarted, Option.any_some, Bool.and_eq_true, decide_eq_true_eq]
    exact ⟨trivial, by omega⟩
  simp only [Function.comp_apply]
  split
  · rfl
  · rename_i hfresh
    simp only [Bool.not_eq_true', decide_eq_false_iff_not]
    rintro (hstatus | hstatus)
    · exact hpending hstatus
    · exact hfresh (hstale hstatus)

theorem Ordered.recovers {retentionHours : Nat} {s : PullState} (h : Ordered s) : Recovers retentionHours s := by
  intro hgone seconds hseconds c hidle modelName
  have hnone := @none_left retentionHours s h hgone (s.now + seconds) (Nat.add_lt_add_left hseconds s.now)
  simp [createCall, run, pullStep, PullState.createStep, PullState.setCreate, PullState.mapRows, hidle, hnone]

/-- In an orderly run from an empty table one row is active at most, a call recovers the table when no
worker is left, and the rows of the terminal jobs keep their status, whatever orderly steps follow. -/
theorem pulls_orderly (retentionHours : Nat) (s : PullState)
    (hs : Reaches (pullStep retentionHours) Orderly PullState.start s) :
    activeRows s.rows ≤ 1 ∧ Recovers retentionHours s ∧
      ∀ t, Reaches (pullStep retentionHours) Orderly s t → KeepsTerminal s t := by
  have hordered : Ordered s := (ordered_run ordered_start hs).1
  refine ⟨hordered.oneActive, hordered.recovers, ?_⟩
  intro t ht
  exact (ordered_run hordered ht).2.keepsTerminal hordered

/-- A pull that ends well, and another one whose worker dies with the process. -/
def twoPulls : List PullLabel :=
  createCall 0 0 "nomic-embed-text" ++
    [.fetch 0 true, .start 0 true, .progress 0 (some 40) (some "pulling") true, .succeed 0 none true] ++
    createCall 60 0 "llama3.2" ++ [.fetch 1 true, .start 1 true, .crash]

theorem pulls_orderly_twoPulls :
    activeRows (runTo (pullStep 24) twoPulls PullState.start).rows ≤ 1 ∧
      Recovers 24 (runTo (pullStep 24) twoPulls PullState.start) ∧
      ∀ t, Reaches (pullStep 24) Orderly (runTo (pullStep 24) twoPulls PullState.start) t →
        KeepsTerminal (runTo (pullStep 24) twoPulls PullState.start) t :=
  pulls_orderly 24 _ (reaches_runTo (by decide) (by decide))

/-- Two calls that check before either inserts. -/
def twoCreates : List PullLabel :=
  [.purge 0 true, .purge 1 true, .reap 0 true, .reap 1 true, .check 0 true, .check 1 true,
    .insert 0 "nomic-embed-text" true, .insert 1 "llama3.2" true]

theorem two_pending_rows :
    ∃ s, Reaches (pullStep 24) (fun _ _ => True) PullState.start s ∧ ¬ activeRows s.rows ≤ 1 := by
  refine ⟨runTo (pullStep 24) twoCreates PullState.start, ?_, ?_⟩
  · exact reaches_runTo (by decide) (by decide)
  · decide

/-- A crash before the worker starts its row: no later call gets past the check. -/
example : run (pullStep 24) (createCall 0 0 "llama3.2" ++ [.crash] ++ createCall 7201 0 "llama3.2") PullState.start =
    none := by decide

end Lumogis.OllamaPulls
