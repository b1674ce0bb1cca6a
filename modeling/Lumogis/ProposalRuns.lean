import Lumogis.ProposalQueue
import Lumogis.Lib.Labelled

/-!
# ProposalRuns

Proposals as a system: any number of requests, each somewhere between its claim and the recording of
its outcome, the sweeper, and what happens outside (new proposals, decisions on them). A step is one
statement, with its fate, or the start or end of an execution. `events` is the history of the
executions.

`runOnce`: in every run no two executions of a proposal overlap, none starts after one that
succeeded, and at most `max 1 max_attempts` start. With `max_attempts = 0` one still starts
(`noAttempts_executes_once`).
-/

namespace Lumogis

open Prog Labelled ProposalQueue

inductive ProposalPhase where
  | idle
  | claimed (proposalId : Nat)
  | executing (proposalId : Nat)
  /-- `mark_done` is next. -/
  | succeeded (proposalId : Nat)
  /-- `fail_execution` is next. -/
  | failed (proposalId : Nat) (error : String)
  /-- `fail_execution` has read the row. -/
  | recording (proposalId : Nat) (error : String) (attempt : Nat)

def ProposalPhase.proposal : ProposalPhase → Option Nat
  | .idle => none
  | .claimed id => some id
  | .executing id => some id
  | .succeeded id => some id
  | .failed id _ => some id
  | .recording id _ _ => some id

inductive ExecutionEvent where
  | started (proposalId : Nat)
  | succeeded (proposalId : Nat)
  deriving DecidableEq

structure ProposalConfig (ι : Type) where
  store : ProposalStore
  phase : ι → ProposalPhase
  /-- The latest first. -/
  events : List ExecutionEvent

inductive ProposalLabel (ι : Type) where
  | propose (userId actionName payload : String)
  /-- A decision on a pending proposal. -/
  | review (proposalId : Nat) (approved : Bool)
  | claimById (i : ι) (proposalId : Nat) (userId : String) (fate : Fate)
  | claimNext (i : ι) (fate : Fate)
  | start (i : ι)
  | succeed (i : ι)
  /-- `execute` returns a failure, or raises. -/
  | executionFails (i : ι) (error : String)
  | markDone (i : ι) (fate : Fate)
  | failRead (i : ι) (fate : Fate)
  | failWrite (i : ι) (fate : Fate)
  | resetStuckClaims (stuckAfterSeconds : Nat)
  | crash (i : ι)
  | wait (seconds : Nat)

def ProposalRow.proposed (id now : Nat) (userId actionName payload : String) : ProposalRow :=
  { id := id, userId := userId, actionName := actionName, payload := payload, status := .pending,
    attempt := 0, runAfter := now, claimedAt := none, claimedBy := none, createdAt := now,
    executedAt := none, finishedAt := none, error := none }

def ProposalStore.propose (userId actionName payload : String) (s : ProposalStore) : ProposalStore :=
  { s with
    proposals := s.proposals ++
      [ProposalRow.proposed s.proposalsSeq s.now userId actionName payload]
    proposalsSeq := s.proposalsSeq + 1 }

def isPending (proposalId : Nat) (r : ProposalRow) : Bool :=
  r.id == proposalId && r.status == .pending

def ProposalRow.reviewed (approved : Bool) (r : ProposalRow) : ProposalRow :=
  { r with status := if approved then .approved else .rejected }

section System

variable {ι : Type} [DecidableEq ι]

def ProposalConfig.put (i : ι) (p : ProposalPhase) (store : ProposalStore) (c : ProposalConfig ι) :
    ProposalConfig ι :=
  { c with store := store, phase := Function.update c.phase i p }

def stepProposalClaim (claim : PM (Option ClaimedProposal)) (i : ι) (fate : Fate)
    (c : ProposalConfig ι) : Option (ProposalConfig ι) :=
  match c.phase i, claim.execFates [fate] c.store with
  | .idle, some (.ok (some claimed), t) => some (c.put i (.claimed claimed.id) t)
  | .idle, some (_, t) => some (c.put i .idle t)
  | _, _ => none

def stepMarkDone (i : ι) (fate : Fate) (c : ProposalConfig ι) : Option (ProposalConfig ι) :=
  match c.phase i with
  | .succeeded id =>
    match (markDone id).execFates [fate] c.store with
    | some (_, t) => some (c.put i .idle t)
    | none => none
  | _ => none

def stepFailExecutionRead (i : ι) (fate : Fate) (c : ProposalConfig ι) :
    Option (ProposalConfig ι) :=
  match c.phase i with
  | .failed id error =>
    match (failRead id).execFates [fate] c.store with
    | some (.ok (some attempt), t) => some (c.put i (.recording id error attempt) t)
    | some (_, t) => some (c.put i .idle t)
    | none => none
  | _ => none

def stepFailExecutionWrite (env : ProposalEnv) (i : ι) (fate : Fate) (c : ProposalConfig ι) :
    Option (ProposalConfig ι) :=
  match c.phase i with
  | .recording id error attempt =>
    match (failWrite id error env.maxAttempts attempt).execFates [fate] c.store with
    | some (_, t) => some (c.put i .idle t)
    | none => none
  | _ => none

def proposalStep (env : ProposalEnv) (workerId : ι → String) :
    ProposalLabel ι → ProposalConfig ι → Option (ProposalConfig ι)
  | .propose userId actionName payload, c =>
    some { c with store := c.store.propose userId actionName payload }
  | .review id approved, c =>
    some { c with store := c.store.updateProposals (isPending id) (ProposalRow.reviewed approved) }
  | .claimById i id userId fate, c => stepProposalClaim (claimById id userId (workerId i)) i fate c
  | .claimNext i fate, c => stepProposalClaim (ProposalQueue.claimNext (workerId i)) i fate c
  | .start i, c =>
    match c.phase i with
    | .claimed id => some { c.put i (.executing id) c.store with events := .started id :: c.events }
    | _ => none
  | .succeed i, c =>
    match c.phase i with
    | .executing id =>
      some { c.put i (.succeeded id) c.store with events := .succeeded id :: c.events }
    | _ => none
  | .executionFails i error, c =>
    match c.phase i with
    | .executing id => some (c.put i (.failed id error) c.store)
    | _ => none
  | .markDone i fate, c => stepMarkDone i fate c
  | .failRead i fate, c => stepFailExecutionRead i fate c
  | .failWrite i fate, c => stepFailExecutionWrite env i fate c
  | .resetStuckClaims after, c => some { c with store := (resetStuckClaims after).after c.store }
  | .crash i, c => some (c.put i .idle c.store)
  | .wait seconds, c => some { c with store := { c.store with now := c.store.now + seconds } }

/-! ## What a step does -/

theorem stepProposalClaim_cases {claim : PM (Option ClaimedProposal)} {i : ι} {fate : Fate}
    {c c' : ProposalConfig ι} (h : stepProposalClaim claim i fate c = some c') :
    c.phase i = .idle ∧ ∃ r t, claim.execFates [fate] c.store = some (r, t) ∧
      ((∃ claimed, r = .ok (some claimed) ∧ c' = c.put i (.claimed claimed.id) t) ∨
        c' = c.put i .idle t) := by
  unfold stepProposalClaim at h
  split at h
  · rename_i hp hr
    cases h
    exact ⟨hp, _, _, hr, .inl ⟨_, rfl, rfl⟩⟩
  · rename_i hp hr
    cases h
    exact ⟨hp, _, _, hr, .inr rfl⟩
  · cases h

theorem stepMarkDone_cases {i : ι} {fate : Fate} {c c' : ProposalConfig ι}
    (h : stepMarkDone i fate c = some c') :
    ∃ id, c.phase i = .succeeded id ∧ (c' = c.put i .idle c.store ∨
      c' = c.put i .idle
        (c.store.updateProposals (isExecuting id) (executed c.store.now))) := by
  unfold stepMarkDone at h
  split at h
  · rename_i id hp
    rw [markDone, execFates_act] at h
    refine ⟨id, hp, ?_⟩
    cases fate with
    | ok => cases h; exact .inr rfl
    | lost => cases h; exact .inl rfl
    | late => cases h; exact .inr rfl
  · cases h

theorem stepFailExecutionRead_cases {i : ι} {fate : Fate} {c c' : ProposalConfig ι}
    (h : stepFailExecutionRead i fate c = some c') :
    ∃ id e p, c.phase i = .failed id e ∧ (p = .idle ∨ ∃ n, p = .recording id e n) ∧
      c' = c.put i p c.store := by
  unfold stepFailExecutionRead at h
  split at h
  · rename_i id e hp
    rw [failRead, query, execFates_act] at h
    cases fate with
    | lost => cases h; exact ⟨id, e, _, hp, .inl rfl, rfl⟩
    | late => cases h; exact ⟨id, e, _, hp, .inl rfl, rfl⟩
    | ok =>
      cases hf : (c.store.proposals.find? (isExecuting id)).map ProposalRow.attempt with
      | none => simp only [hf] at h; cases h; exact ⟨id, e, _, hp, .inl rfl, rfl⟩
      | some n => simp only [hf] at h; cases h; exact ⟨id, e, _, hp, .inr ⟨n, rfl⟩, rfl⟩
  · cases h

theorem stepFailExecutionWrite_cases {env : ProposalEnv} {i : ι} {fate : Fate}
    {c c' : ProposalConfig ι} (h : stepFailExecutionWrite env i fate c = some c') :
    ∃ id e n, c.phase i = .recording id e n ∧ (c' = c.put i .idle c.store ∨
      c' = c.put i .idle (c.store.updateProposals (isExecuting id)
        (failed c.store.now e env.maxAttempts (2 ^ (n + 1))))) := by
  unfold stepFailExecutionWrite at h
  split at h
  · rename_i id e n hp
    rw [failWrite, execFates_act] at h
    refine ⟨id, e, n, hp, ?_⟩
    cases fate with
    | ok => cases h; exact .inr rfl
    | lost => cases h; exact .inl rfl
    | late => cases h; exact .inr rfl
  · cases h

/-- A claim leaves the table alone, or makes one approved proposal `executing`; what it replies with
is that proposal. -/
def ClaimsOne (claim : PM (Option ClaimedProposal)) (worker : String) : Prop :=
  ∀ s fate r t, claim.execFates [fate] s = some (r, t) →
    (t = s ∧ ∀ x, r ≠ .ok (some x)) ∨ ∃ row ∈ s.proposals, ∃ p : ProposalRow → Bool,
      row.status = .approved ∧ p row = true ∧ (∀ x, p x = true → x.id = row.id) ∧
      t = s.updateProposals p (ProposalRow.executingFor s.now worker) ∧
      ∀ x, r = .ok (some x) → x.id = row.id

theorem claimById_one (proposalId : Nat) (userId worker : String) :
    ClaimsOne (claimById proposalId userId worker) worker := by
  intro s fate r t h
  rw [claimById, execFates_act] at h
  cases hf : s.proposals.find? (claimable proposalId userId) with
  | none =>
    left
    have hnone : s.updateProposals (claimable proposalId userId)
        (ProposalRow.executingFor s.now worker) = s := by
      rw [ProposalStore.updateProposals, Table.updateWhere_eq_self fun x hx => by
        simpa using List.find?_eq_none.mp hf x hx]
    simp only [hf, hnone] at h
    cases fate <;> (cases h; exact ⟨rfl, fun _ hx => by cases hx⟩)
  | some row =>
    have hrow := List.find?_some hf
    have hid : ∀ x, claimable proposalId userId x = true → x.id = proposalId := by
      intro x hx
      simp only [claimable, Bool.and_eq_true, beq_iff_eq] at hx
      exact hx.1.1.1
    have hst : row.status = .approved := by
      simp only [claimable, Bool.and_eq_true, beq_iff_eq] at hrow
      exact hrow.1.2
    have hmove : ∀ x, claimable proposalId userId x = true → x.id = row.id := fun x hx =>
      (hid x hx).trans (hid row hrow).symm
    simp only [hf] at h
    cases fate with
    | ok =>
      cases h
      exact .inr ⟨row, List.mem_of_find?_eq_some hf, _, hst, hrow, hmove, rfl,
        fun x hx => by (cases hx; rfl)⟩
    | lost => cases h; exact .inl ⟨rfl, fun _ hx => by cases hx⟩
    | late =>
      cases h
      exact .inr ⟨row, List.mem_of_find?_eq_some hf, _, hst, hrow, hmove, rfl,
        fun x hx => by cases hx⟩

theorem claimNext_one (worker : String) : ClaimsOne (ProposalQueue.claimNext worker) worker := by
  intro s fate r t h
  rw [ProposalQueue.claimNext, execFates_act] at h
  cases hf : (s.proposals.filter (ProposalRow.eligible s.now)).argmin ProposalRow.id with
  | none =>
    simp only [hf] at h
    cases fate <;> (cases h; exact .inl ⟨rfl, fun _ hx => by cases hx⟩)
  | some row =>
    have hm := List.argmin_mem hf
    simp only [List.mem_filter, ProposalRow.eligible, Bool.and_eq_true, beq_iff_eq] at hm
    have hmove : ∀ x : ProposalRow, (x.id == row.id) = true → x.id = row.id := fun _ hx =>
      beq_iff_eq.mp hx
    simp only [hf] at h
    cases fate with
    | ok =>
      cases h
      exact .inr ⟨row, hm.1, fun x => x.id == row.id, hm.2.1.1, beq_self_eq_true _, hmove, rfl,
        fun x hx => by (cases hx; rfl)⟩
    | lost => cases h; exact .inl ⟨rfl, fun _ hx => by cases hx⟩
    | late =>
      cases h
      exact .inr ⟨row, hm.1, fun x => x.id == row.id, hm.2.1.1, beq_self_eq_true _, hmove, rfl,
        fun x hx => by cases hx⟩

/-! ## What a run keeps -/

def ProposalStore.row (s : ProposalStore) (id : Nat) : Option ProposalRow :=
  Table.lookup ProposalRow.id s.proposals id

/-- No request has begun, and no proposal has been executed. -/
structure Unexecuted (c : ProposalConfig ι) : Prop where
  keyed : Table.Keyed ProposalRow.id c.store.proposalsSeq c.store.proposals
  idle : ∀ i, c.phase i = .idle
  unclaimed : ∀ r ∈ c.store.proposals, (r.status = .pending ∨ r.status = .approved) ∧ r.attempt = 0
  events : c.events = []

def ProposalConfig.starts (c : ProposalConfig ι) (id : Nat) : Nat := c.events.count (.started id)

/-- No two executions of a proposal overlap, at most `max 1 maxAttempts` start, and none starts after
one that succeeded. -/
structure RunOnce (maxAttempts : Int) (c : ProposalConfig ι) : Prop where
  alone : ∀ i k id, c.phase i = .executing id → c.phase k = .executing id → i = k
  bounded : ∀ id, (c.starts id : Int) ≤ max 1 maxAttempts
  final : c.events.Pairwise fun later earlier =>
    ∀ id, later = .started id → earlier ≠ .succeeded id

/-- Not claimed yet, or sent back. -/
def ProposalStatus.isOpen : ProposalStatus → Bool
  | .pending => true
  | .approved => true
  | _ => false

/-- How many executions may have started when the row stands as it does. -/
def ProposalRow.startLimit (m : Int) (r : ProposalRow) : Int :=
  match r.status with
  | .pending => r.attempt
  | .approved => r.attempt
  | .executing => r.attempt + 1
  | _ => max 1 m

structure Accounted (m : Int) (c : ProposalConfig ι) (id : Nat) (r : ProposalRow) : Prop where
  starts : (c.starts id : Int) ≤ r.startLimit m
  limit : r.startLimit m ≤ max 1 m
  waiting : ∀ i, c.phase i = .claimed id → (c.starts id : Int) < r.startLimit m
  retry : r.status.isOpen = true →
    (r.attempt = 0 ∨ (r.attempt : Int) < m) ∧ .succeeded id ∉ c.events

structure ProposalInv (m : Int) (c : ProposalConfig ι) : Prop where
  keyed : Table.Keyed ProposalRow.id c.store.proposalsSeq c.store.proposals
  owner : ∀ i k id, (c.phase i).proposal = some id → (c.phase k).proposal = some id → i = k
  owned : ∀ i id, (c.phase i).proposal = some id →
    ∃ r, c.store.row id = some r ∧ r.status.isOpen = false
  row : ∀ id r, c.store.row id = some r → Accounted m c id r
  absent : ∀ id, c.store.row id = none → c.starts id = 0 ∧ .succeeded id ∉ c.events
  success : ∀ i id, .succeeded id ∈ c.events → (c.phase i).proposal = some id →
    c.phase i = .succeeded id
  final : c.events.Pairwise fun later earlier =>
    ∀ id, later = .started id → earlier ≠ .succeeded id

omit [DecidableEq ι] in
theorem Unexecuted.inv {c : ProposalConfig ι} (h : Unexecuted c) (m : Int) : ProposalInv m c where
  keyed := h.keyed
  owner i k id hi := by rw [h.idle i] at hi; cases hi
  owned i id hi := by rw [h.idle i] at hi; cases hi
  row id r hr := by
    obtain ⟨hst, hat⟩ := h.unclaimed r (Table.lookup_mem hr)
    have hlimit : r.startLimit m = 0 := by
      rcases hst with hst | hst <;> simp [ProposalRow.startLimit, hst, hat]
    refine ⟨?_, ?_, fun i hi => ?_, fun _ => ⟨.inl hat, by simp [h.events]⟩⟩
    · simp [ProposalConfig.starts, h.events, hlimit]
    · omega
    · rw [h.idle i] at hi
      cases hi
  absent id _ := by simp [ProposalConfig.starts, h.events]
  success i id hid := by rw [h.events] at hid; cases hid
  final := by rw [h.events]; exact .nil

omit [DecidableEq ι] in
theorem ProposalInv.once {m : Int} {c : ProposalConfig ι} (h : ProposalInv m c) :
    RunOnce m c where
  alone i k id hi hk := h.owner i k id (by rw [hi]; rfl) (by rw [hk]; rfl)
  bounded id := by
    cases hid : c.store.row id with
    | none => rw [(h.absent id hid).1]; exact le_max_of_le_left (by decide)
    | some r => exact (h.row id r hid).starts.trans (h.row id r hid).limit
  final := h.final

omit [DecidableEq ι] in
theorem Accounted.closed {m : Int} {c c' : ProposalConfig ι} {id : Nat} {r r' : ProposalRow}
    (h : Accounted m c id r) (hev : c'.events = c.events)
    (hph : ∀ k, c'.phase k = c.phase k ∨ c'.phase k = .idle) (hopen : r'.status.isOpen = false)
    (hle : r.startLimit m ≤ r'.startLimit m) (hlim : r'.startLimit m ≤ max 1 m) :
    Accounted m c' id r' where
  starts := by
    rw [ProposalConfig.starts, hev]
    exact h.starts.trans hle
  limit := hlim
  waiting k hk := by
    rcases hph k with he | he
    · rw [ProposalConfig.starts, hev]
      exact lt_of_lt_of_le (h.waiting k (he ▸ hk)) hle
    · rw [he] at hk
      cases hk
  retry ho := by rw [hopen] at ho; cases ho

omit [DecidableEq ι] in
theorem Accounted.same {m : Int} {c c' : ProposalConfig ι} {id : Nat} {r : ProposalRow}
    (h : Accounted m c id r) (hev : c'.events = c.events)
    (hph : ∀ k, c'.phase k = c.phase k ∨ c'.phase k = .idle) : Accounted m c' id r where
  starts := by rw [ProposalConfig.starts, hev]; exact h.starts
  limit := h.limit
  waiting k hk := by
    rcases hph k with he | he
    · rw [ProposalConfig.starts, hev]
      exact h.waiting k (he ▸ hk)
    · rw [he] at hk
      cases hk
  retry ho := by rw [hev]; exact h.retry ho

omit [DecidableEq ι] in
theorem ProposalInv.rewrites {m : Int} {c c' : ProposalConfig ι} {R : ProposalRow → ProposalRow → Prop}
    (h : ProposalInv m c) (hr : Table.Rewrites ProposalRow.id R c.store.proposals c'.store.proposals)
    (hseq : c'.store.proposalsSeq = c.store.proposalsSeq) (hev : c'.events = c.events)
    (hph : ∀ k, c'.phase k = c.phase k ∨ c'.phase k = .idle)
    (hclosed : ∀ id r r', c.store.row id = some r → R r r' → r.status.isOpen = false →
      r'.status.isOpen = true → ∀ k, (c'.phase k).proposal ≠ some id)
    (hrow : ∀ id r r', c.store.row id = some r → R r r' → Accounted m c id r →
      Accounted m c' id r') : ProposalInv m c' := by
  have hback : ∀ k id, (c'.phase k).proposal = some id → c'.phase k = c.phase k := by
    intro k id hk
    rcases hph k with he | he
    · exact he
    · rw [he] at hk
      cases hk
  refine ⟨?_, fun i k id hi hk => ?_, fun k id hk => ?_, fun id r' hr' => ?_, fun id hnone => ?_,
    fun k id hid hk => ?_, hev ▸ h.final⟩
  · rw [hseq]
    exact h.keyed.rewrites hr
  · exact h.owner i k id (hback i id hi ▸ hi) (hback k id hk ▸ hk)
  · obtain ⟨r, hold, hshut⟩ := h.owned k id (hback k id hk ▸ hk)
    obtain ⟨r', hnew, hR⟩ := hr.later hold
    refine ⟨r', hnew, ?_⟩
    by_contra hopen
    exact hclosed id r r' hold hR hshut (by simpa using hopen) k hk
  · obtain ⟨r, hold, hR⟩ := hr.earlier hr'
    exact hrow id r r' hold hR (h.row id r hold)
  · rw [ProposalConfig.starts, hev]
    exact h.absent id (hr.absent.mp hnone)
  · rw [hev] at hid
    rw [hback k id hk]
    exact h.success k id hid (hback k id hk ▸ hk)

theorem put_phase {i k : ι} {p : ProposalPhase} {t : ProposalStore} {c : ProposalConfig ι} :
    (c.put i p t).phase k = if k = i then p else c.phase k :=
  Function.update_apply c.phase i p k

theorem ProposalInv.moved {m : Int} {c : ProposalConfig ι} (h : ProposalInv m c) {i : ι}
    {p : ProposalPhase} (hp : ∀ id, p.proposal = some id → (c.phase i).proposal = some id)
    (hwait : ∀ id, p ≠ .claimed id) (hdone : ∀ id, c.phase i = .succeeded id → p = .idle) :
    ProposalInv m (c.put i p c.store) := by
  have hback : ∀ k id, ((c.put i p c.store).phase k).proposal = some id →
      (c.phase k).proposal = some id := by
    intro k id hk
    rw [put_phase] at hk
    split at hk
    · rename_i he
      exact he ▸ hp id hk
    · exact hk
  refine ⟨h.keyed, fun j k id hj hk => h.owner j k id (hback j id hj) (hback k id hk),
    fun k id hk => h.owned k id (hback k id hk), fun id r hr => ?_, h.absent,
    fun k id hid hk => ?_, h.final⟩
  · obtain ⟨hstarts, hlimit, hwaiting, hretry⟩ := h.row id r hr
    refine ⟨hstarts, hlimit, fun k hk => ?_, hretry⟩
    rw [put_phase] at hk
    split at hk
    · exact absurd hk (hwait id)
    · exact hwaiting k hk
  · have hold := h.success k id hid (hback k id hk)
    rw [put_phase] at hk ⊢
    split
    · rename_i he
      rw [if_pos he, hdone id (he ▸ hold)] at hk
      cases hk
    · exact hold

theorem put_idle {i : ι} {t : ProposalStore} {c : ProposalConfig ι} (k : ι) :
    (c.put i .idle t).phase k = c.phase k ∨ (c.put i .idle t).phase k = .idle := by
  rw [put_phase]
  split
  · exact .inr rfl
  · exact .inl rfl

theorem ProposalInv.claim {m : Int} {claim : PM (Option ClaimedProposal)} {worker : String} {i : ι}
    {fate : Fate} {c c' : ProposalConfig ι} (h : ProposalInv m c) (hclaim : ClaimsOne claim worker)
    (hs : stepProposalClaim claim i fate c = some c') : ProposalInv m c' := by
  obtain ⟨hidle, r, t, hr, hc⟩ := stepProposalClaim_cases hs
  rcases hclaim _ _ _ _ hr with ⟨rfl, hnone⟩ | ⟨row, hmem, p, hst, hrow, hp, rfl, hreply⟩
  · rcases hc with ⟨x, hx, -⟩ | rfl
    · exact absurd hx (hnone x)
    · exact h.moved (fun _ hx => by cases hx) (fun _ hx => by cases hx) fun _ _ => rfl
  have hlook : c.store.row row.id = some row := h.keyed.lookup hmem
  have hrw : Table.Rewrites ProposalRow.id
      (fun r r' => r' = if p r then r.executingFor c.store.now worker else r) c.store.proposals
      (Table.updateWhere p (ProposalRow.executingFor c.store.now worker) c.store.proposals) :=
    Table.rewrites_updateWhere fun _ => rfl
  -- nobody has an approved proposal
  have hfree : ∀ k, (c.phase k).proposal ≠ some row.id := by
    intro k hk
    obtain ⟨r', hr', hshut⟩ := h.owned k row.id hk
    rw [hlook] at hr'
    cases hr'
    rw [hst] at hshut
    cases hshut
  have hacc := h.row row.id row hlook
  have hnew : ∀ c'' : ProposalConfig ι, c''.events = c.events →
      Accounted m c'' row.id (row.executingFor c.store.now worker) := by
    intro c'' hev
    obtain ⟨hretry, -⟩ := hacc.retry (by rw [hst]; rfl)
    have hstarts := hacc.starts
    simp only [ProposalRow.startLimit, hst] at hstarts
    have hlt : (c''.starts row.id : Int) < row.attempt + 1 := by
      rw [ProposalConfig.starts, hev]
      exact Int.lt_add_one_of_le hstarts
    refine ⟨le_of_lt hlt, ?_, fun _ _ => hlt, fun ho => by cases ho⟩
    show (row.attempt : Int) + 1 ≤ max 1 m
    rcases hretry with hzero | hless
    · rw [hzero]
      exact le_max_left _ _
    · exact (Int.add_one_le_of_lt hless).trans (le_max_right _ _)
  have hback : ∀ k id, (c'.phase k).proposal = some id → id ≠ row.id →
      c'.phase k = c.phase k := by
    intro k id hk hne
    rcases hc with ⟨x, hx, rfl⟩ | rfl
    · rw [put_phase] at hk ⊢
      split
      · rename_i he
        rw [if_pos he] at hk
        cases hk
        exact absurd (hreply x hx) hne
      · rfl
    · rcases put_idle (i := i) (c := c) (t := _) k with he | he
      · exact he
      · rw [he] at hk
        cases hk
  have hi : ∀ k, (c'.phase k).proposal = some row.id → k = i := by
    intro k hk
    by_contra hne
    refine hfree k ?_
    rcases hc with ⟨x, -, rfl⟩ | rfl <;> simpa only [put_phase, if_neg hne] using hk
  have hev : c'.events = c.events := by rcases hc with ⟨x, -, rfl⟩ | rfl <;> rfl
  have hstore : c'.store = c.store.updateProposals p
      (ProposalRow.executingFor c.store.now worker) := by
    rcases hc with ⟨x, -, rfl⟩ | rfl <;> rfl
  have hother : ∀ {id r r'}, c.store.row id = some r → id ≠ row.id →
      (r' = if p r then r.executingFor c.store.now worker else r) → r' = r := by
    intro id r r' hr hne he
    rw [he, if_neg]
    intro hpr
    exact hne ((Table.lookup_key hr).symm.trans (hp r hpr))
  refine ⟨?_, fun j k id hj hk => ?_, fun k id hk => ?_, fun id r' hr' => ?_, fun id hnone => ?_,
    fun k id hid hk => ?_, hev ▸ h.final⟩
  · rw [hstore]
    exact h.keyed.rewrites hrw
  · by_cases hne : id = row.id
    · subst hne
      rw [hi j hj, hi k hk]
    · exact h.owner j k id (hback j id hj hne ▸ hj) (hback k id hk hne ▸ hk)
  · rw [hstore]
    by_cases hne : id = row.id
    · subst hne
      obtain ⟨r', hr', rfl⟩ := hrw.later hlook
      exact ⟨_, hr', by rw [if_pos hrow]; rfl⟩
    · obtain ⟨r, hr, hshut⟩ := h.owned k id (hback k id hk hne ▸ hk)
      obtain ⟨r', hr', he⟩ := hrw.later hr
      exact ⟨r', hr', by rw [hother hr hne he]; exact hshut⟩
  · rw [hstore] at hr'
    obtain ⟨r, hr, he⟩ := hrw.earlier hr'
    by_cases hne : id = row.id
    · subst hne
      rw [ProposalStore.row] at hlook
      rw [hlook] at hr
      cases hr
      rw [he, if_pos hrow]
      exact hnew c' hev
    · rw [hother hr hne he]
      obtain ⟨hstarts, hlimit, hwaiting, hretry⟩ := h.row id r hr
      refine ⟨by rwa [ProposalConfig.starts, hev], hlimit, fun k hk => ?_, by rwa [hev]⟩
      rw [ProposalConfig.starts, hev]
      exact hwaiting k ((hback k id (by rw [hk]; rfl) hne).symm.trans hk)
  · rw [hstore] at hnone
    rw [ProposalConfig.starts, hev]
    exact h.absent id (hrw.absent.mp hnone)
  · rw [hev] at hid
    by_cases hne : id = row.id
    · subst hne
      exact absurd hid (hacc.retry (by rw [hst]; rfl)).2
    · rw [hback k id hk hne]
      exact h.success k id hid (hback k id hk hne ▸ hk)

theorem ProposalInv.start {m : Int} {i : ι} {id : Nat} {c : ProposalConfig ι} (h : ProposalInv m c)
    (hp : c.phase i = .claimed id) :
    ProposalInv m { c.put i (.executing id) c.store with events := .started id :: c.events } := by
  have hmine : (c.phase i).proposal = some id := by rw [hp]; rfl
  have hnever : ExecutionEvent.succeeded id ∉ c.events := by
    intro hmem
    have hph := h.success i id hmem hmine
    rw [hp] at hph
    cases hph
  have hback : ∀ k x, ((c.put i (.executing id) c.store).phase k).proposal = some x →
      (c.phase k).proposal = some x := by
    intro k x hk
    rw [put_phase] at hk
    split at hk
    · rename_i he
      cases hk
      exact he ▸ hmine
    · exact hk
  refine ⟨h.keyed, fun j k x hj hk => h.owner j k x (hback j x hj) (hback k x hk),
    fun k x hk => h.owned k x (hback k x hk), fun x r hr => ?_, fun x hnone => ?_,
    fun k x hmem hk => ?_, ?_⟩
  · change c.store.row x = some r at hr
    obtain ⟨hstarts, hlimit, hwaiting, hretry⟩ := h.row x r hr
    have hnot : ∀ k, (c.put i (.executing id) c.store).phase k = .claimed x → x ≠ id := by
      rintro k hk rfl
      have he := h.owner k i x (hback k x (by rw [hk]; rfl)) hmine
      rw [put_phase, if_pos he] at hk
      cases hk
    by_cases hx : x = id
    · subst hx
      have hlt := hwaiting i hp
      refine ⟨?_, hlimit, fun k hk => absurd rfl (hnot k hk), fun ho => ?_⟩
      · rw [ProposalConfig.starts] at hlt ⊢
        rw [List.count_cons_self]
        exact Int.add_one_le_of_lt hlt
      · obtain ⟨r', hr', hshut⟩ := h.owned i x hmine
        rw [hr] at hr'
        cases hr'
        rw [ho] at hshut
        cases hshut
    · have hcount : (ExecutionEvent.started id :: c.events).count (.started x) =
          c.events.count (.started x) := List.count_cons_of_ne fun he => by cases he; exact hx rfl
      refine ⟨by simpa only [ProposalConfig.starts, hcount] using hstarts, hlimit, fun k hk => ?_,
        fun ho => ⟨(hretry ho).1, by simpa using (hretry ho).2⟩⟩
      rw [put_phase] at hk
      split at hk
      · cases hk
      · simpa only [ProposalConfig.starts, hcount] using hwaiting k hk
  · change c.store.row x = none at hnone
    obtain ⟨hzero, hno⟩ := h.absent x hnone
    have hx : x ≠ id := by
      rintro rfl
      obtain ⟨r, hr, -⟩ := h.owned i x hmine
      rw [hnone] at hr
      cases hr
    refine ⟨?_, by simpa using hno⟩
    rw [ProposalConfig.starts]
    exact (List.count_cons_of_ne fun he => by cases he; exact hx rfl).trans hzero
  · have hmem' : ExecutionEvent.succeeded x ∈ c.events := by simpa using hmem
    have hold := h.success k x hmem' (hback k x hk)
    show (c.put i (.executing id) c.store).phase k = _
    rw [put_phase]
    split
    · rename_i he
      rw [he, hp] at hold
      cases hold
    · exact hold
  · refine List.pairwise_cons.mpr ⟨fun b hb x he hbx => ?_, h.final⟩
    cases he
    exact hnever (hbx ▸ hb)

theorem ProposalInv.succeed {m : Int} {i : ι} {id : Nat} {c : ProposalConfig ι} (h : ProposalInv m c)
    (hp : c.phase i = .executing id) :
    ProposalInv m { c.put i (.succeeded id) c.store with events := .succeeded id :: c.events } := by
  have hmine : (c.phase i).proposal = some id := by rw [hp]; rfl
  obtain ⟨row, hrow, hshut⟩ := h.owned i id hmine
  have hback : ∀ k x, ((c.put i (.succeeded id) c.store).phase k).proposal = some x →
      (c.phase k).proposal = some x := by
    intro k x hk
    rw [put_phase] at hk
    split at hk
    · rename_i he
      cases hk
      exact he ▸ hmine
    · exact hk
  have hcount : ∀ x, (ExecutionEvent.succeeded id :: c.events).count (.started x) =
      c.events.count (.started x) := fun x => List.count_cons_of_ne (by simp)
  refine ⟨h.keyed, fun j k x hj hk => h.owner j k x (hback j x hj) (hback k x hk),
    fun k x hk => h.owned k x (hback k x hk), fun x r hr => ?_, fun x hnone => ?_,
    fun k x hmem hk => ?_, ?_⟩
  · change c.store.row x = some r at hr
    obtain ⟨hstarts, hlimit, hwaiting, hretry⟩ := h.row x r hr
    refine ⟨by simpa only [ProposalConfig.starts, hcount] using hstarts, hlimit, fun k hk => ?_,
      fun ho => ⟨(hretry ho).1, ?_⟩⟩
    · rw [put_phase] at hk
      split at hk
      · cases hk
      · simpa only [ProposalConfig.starts, hcount] using hwaiting k hk
    · have hx : x ≠ id := by
        rintro rfl
        rw [hrow] at hr
        cases hr
        rw [ho] at hshut
        cases hshut
      simpa [hx] using (hretry ho).2
  · change c.store.row x = none at hnone
    obtain ⟨hzero, hno⟩ := h.absent x hnone
    have hx : x ≠ id := by
      rintro rfl
      rw [hrow] at hnone
      cases hnone
    exact ⟨by simpa only [ProposalConfig.starts, hcount] using hzero, by simpa [hx] using hno⟩
  · show (c.put i (.succeeded id) c.store).phase k = _
    have hk' := hback k x hk
    change ((c.put i (.succeeded id) c.store).phase k).proposal = some x at hk
    rw [put_phase] at hk ⊢
    split
    · rename_i he
      rw [if_pos he] at hk
      cases hk
      rfl
    · rename_i hne
      rcases List.mem_cons.mp hmem with he | hmem
      · cases he
        exact absurd (h.owner k i _ hk' hmine) hne
      · exact h.success k x hmem hk'
  · exact List.pairwise_cons.mpr ⟨fun b _ x he => by (cases he), h.final⟩

theorem ProposalInv.markDone {m : Int} {i : ι} {fate : Fate} {c c' : ProposalConfig ι}
    (h : ProposalInv m c) (hs : stepMarkDone i fate c = some c') : ProposalInv m c' := by
  obtain ⟨id, hp, rfl | rfl⟩ := stepMarkDone_cases hs
  · exact h.moved (fun _ hx => by cases hx) (fun _ hx => by cases hx) fun _ _ => rfl
  refine h.rewrites (Table.rewrites_updateWhere (f := executed c.store.now) fun _ => rfl)
    rfl rfl put_idle (fun x r r' _ he hshut ho => ?_) fun x r r' hr he hacc => ?_
  · subst he
    split at ho
    · cases ho
    · rw [hshut] at ho
      cases ho
  · subst he
    split
    · exact hacc.closed rfl put_idle rfl hacc.limit le_rfl
    · exact hacc.same rfl put_idle

theorem ProposalInv.failRead {m : Int} {i : ι} {fate : Fate} {c c' : ProposalConfig ι}
    (h : ProposalInv m c) (hs : stepFailExecutionRead i fate c = some c') : ProposalInv m c' := by
  obtain ⟨id, e, p, hp, hpp, rfl⟩ := stepFailExecutionRead_cases hs
  refine h.moved (fun x hx => ?_) (fun x hx => ?_) fun x hx => ?_
  · rcases hpp with rfl | ⟨n, rfl⟩
    · cases hx
    · rw [hp]
      exact hx
  · rcases hpp with rfl | ⟨n, rfl⟩ <;> cases hx
  · rw [hp] at hx
    cases hx

theorem ProposalInv.failWrite {env : ProposalEnv} {i : ι} {fate : Fate} {c c' : ProposalConfig ι}
    (h : ProposalInv env.maxAttempts c) (hs : stepFailExecutionWrite env i fate c = some c') :
    ProposalInv env.maxAttempts c' := by
  obtain ⟨id, e, n, hp, rfl | rfl⟩ := stepFailExecutionWrite_cases hs
  · exact h.moved (fun _ hx => by cases hx) (fun _ hx => by cases hx) fun _ _ => rfl
  have hmine : (c.phase i).proposal = some id := by rw [hp]; rfl
  -- the request is over, and nobody else has the proposal
  have hgone : ∀ t k, ((c.put i .idle t).phase k).proposal ≠ some id := by
    intro t k hk
    rw [put_phase] at hk
    split at hk
    · cases hk
    · rename_i hne
      exact hne (h.owner k i id hk hmine)
  have hnever : ExecutionEvent.succeeded id ∉ c.events := by
    intro hmem
    have hph := h.success i id hmem hmine
    rw [hp] at hph
    cases hph
  refine h.rewrites (Table.rewrites_updateWhere
    (f := failed c.store.now e env.maxAttempts (2 ^ (n + 1))) fun _ => rfl)
    rfl rfl put_idle (fun x r r' hr he hshut ho k hk => ?_) fun x r r' hr he hacc => ?_
  · subst he
    split at ho
    · rename_i hexec
      have hx : x = id := by
        rw [isExecuting, Bool.and_eq_true] at hexec
        exact (Table.lookup_key hr).symm.trans (beq_iff_eq.mp hexec.1)
      exact hgone _ k (hx ▸ hk)
    · rw [hshut] at ho
      cases ho
  · subst he
    split
    · rename_i hexec
      rw [isExecuting, Bool.and_eq_true] at hexec
      have hx : x = id := (Table.lookup_key hr).symm.trans (beq_iff_eq.mp hexec.1)
      have hst : r.status = .executing := beq_iff_eq.mp hexec.2
      subst hx
      obtain ⟨hstarts, hlimit, -, -⟩ := hacc
      simp only [ProposalRow.startLimit, hst] at hstarts hlimit
      by_cases hagain : (r.attempt : Int) + 1 < env.maxAttempts
      · refine ⟨?_, ?_, fun k hk => absurd (by rw [hk]; rfl) (hgone _ k), fun _ => ⟨.inr ?_, hnever⟩⟩
        · show (c.starts x : Int) ≤ _
          simpa [ProposalRow.startLimit, failed, hagain] using hstarts
        · simpa [ProposalRow.startLimit, failed, hagain] using hlimit
        · simpa [failed] using hagain
      · refine ⟨?_, ?_, fun k hk => absurd (by rw [hk]; rfl) (hgone _ k), fun ho => ?_⟩
        · simp only [ProposalRow.startLimit, failed, hagain, decide_false, Bool.false_eq_true, if_false]
          exact hstarts.trans hlimit
        · simp [ProposalRow.startLimit, failed, hagain]
        · simp [failed, hagain, ProposalStatus.isOpen] at ho
    · exact hacc.same rfl put_idle

omit [DecidableEq ι] in
theorem ProposalInv.resetStuckClaims {m : Int} {after : Nat} {c : ProposalConfig ι}
    (h : ProposalInv m c) :
    ProposalInv m { c with store := (resetStuckClaims after).after c.store } := by
  refine h.rewrites (Table.rewrites_updateWhere (p := stale c.store.now after)
    (f := swept c.store.now) fun _ => rfl) rfl rfl (fun _ => .inl rfl)
    (fun x r r' _ he hshut ho => ?_) fun x r r' hr he hacc => ?_
  · subst he
    split at ho
    · cases ho
    · rw [hshut] at ho
      cases ho
  · subst he
    split
    · exact hacc.closed rfl (fun _ => .inl rfl) rfl hacc.limit le_rfl
    · exact hacc.same rfl fun _ => .inl rfl

omit [DecidableEq ι] in
theorem ProposalInv.review {m : Int} {id : Nat} {approved : Bool} {c : ProposalConfig ι}
    (h : ProposalInv m c) :
    ProposalInv m { c with
      store := c.store.updateProposals (isPending id) (ProposalRow.reviewed approved) } := by
  refine h.rewrites (Table.rewrites_updateWhere (f := ProposalRow.reviewed approved) fun _ => rfl)
    rfl rfl (fun _ => .inl rfl) (fun x r r' hr he hshut ho => ?_) fun x r r' hr he hacc => ?_
  · subst he
    split at ho
    · rename_i hpend
      rw [isPending, Bool.and_eq_true, beq_iff_eq, beq_iff_eq] at hpend
      rw [hpend.2] at hshut
      cases hshut
    · rw [hshut] at ho
      cases ho
  · subst he
    split
    · rename_i hpend
      rw [isPending, Bool.and_eq_true, beq_iff_eq, beq_iff_eq] at hpend
      obtain ⟨hstarts, hlimit, hwaiting, hretry⟩ := hacc
      cases approved with
      | true =>
        have he : (ProposalRow.reviewed true r).startLimit m = r.startLimit m := by
          simp [ProposalRow.startLimit, ProposalRow.reviewed, hpend.2]
        exact ⟨he ▸ hstarts, he ▸ hlimit, fun k hk => he ▸ hwaiting k hk,
          fun _ => hretry (by rw [hpend.2]; rfl)⟩
      | false =>
        exact Accounted.closed ⟨hstarts, hlimit, hwaiting, hretry⟩ rfl (fun _ => .inl rfl) rfl hlimit
          le_rfl
    · exact hacc.same rfl fun _ => .inl rfl

omit [DecidableEq ι] in
theorem ProposalInv.propose {m : Int} {userId actionName payload : String} {c : ProposalConfig ι}
    (h : ProposalInv m c) :
    ProposalInv m { c with store := c.store.propose userId actionName payload } := by
  have hstays : ∀ {id r}, c.store.row id = some r →
      (c.store.propose userId actionName payload).row id = some r := fun hr => Table.lookup_append hr
  refine ⟨h.keyed.append rfl, h.owner, fun i id hi => ?_, fun id r hr => ?_, fun id hnone => ?_,
    h.success, h.final⟩
  · obtain ⟨r, hr, hshut⟩ := h.owned i id hi
    exact ⟨r, hstays hr, hshut⟩
  · cases hold : c.store.row id with
    | some r' =>
      rw [hstays hold] at hr
      cases hr
      exact (h.row id _ hold).same rfl fun _ => .inl rfl
    | none =>
      obtain ⟨hzero, hno⟩ := h.absent id hold
      cases Table.lookup_append_none hold hr
      refine ⟨?_, ?_, fun i hi => ?_, fun _ => ⟨.inl rfl, hno⟩⟩
      · exact Int.ofNat_le.mpr (le_of_eq hzero)
      · show ((0 : Nat) : Int) ≤ max 1 m
        exact le_max_of_le_left (by decide)
      · obtain ⟨r, hr, -⟩ := h.owned i id (by rw [hi]; rfl)
        rw [hold] at hr
        cases hr
  · cases hold : c.store.row id with
    | some r =>
      change (c.store.propose userId actionName payload).row id = none at hnone
      rw [hstays hold] at hnone
      cases hnone
    | none => exact h.absent id hold

theorem ProposalInv.step {env : ProposalEnv} {workerId : ι → String} {l : ProposalLabel ι}
    {c c' : ProposalConfig ι} (h : ProposalInv env.maxAttempts c)
    (hs : proposalStep env workerId l c = some c') : ProposalInv env.maxAttempts c' := by
  cases l with
  | propose userId actionName payload => cases hs; exact h.propose
  | review id approved => cases hs; exact h.review
  | claimById i id userId fate => exact h.claim (claimById_one id userId (workerId i)) hs
  | claimNext i fate => exact h.claim (claimNext_one (workerId i)) hs
  | start i =>
    simp only [proposalStep] at hs
    split at hs
    · rename_i id hp
      cases hs
      exact h.start hp
    · cases hs
  | succeed i =>
    simp only [proposalStep] at hs
    split at hs
    · rename_i id hp
      cases hs
      exact h.succeed hp
    · cases hs
  | executionFails i error =>
    simp only [proposalStep] at hs
    split at hs
    · rename_i id hp
      cases hs
      refine h.moved (fun x hx => ?_) (fun _ hx => by cases hx) fun x hx => ?_
      · rw [hp]
        exact hx
      · rw [hp] at hx
        cases hx
    · cases hs
  | markDone i fate => exact h.markDone hs
  | failRead i fate => exact h.failRead hs
  | failWrite i fate => exact h.failWrite hs
  | resetStuckClaims after => cases hs; exact h.resetStuckClaims
  | crash i =>
    cases hs
    exact h.moved (fun _ hx => by cases hx) (fun _ hx => by cases hx) fun _ _ => rfl
  | wait seconds =>
    cases hs
    exact ⟨h.keyed, h.owner, h.owned, fun id r hr => (h.row id r hr).same rfl fun _ => .inl rfl,
      h.absent, h.success, h.final⟩

/-- Whatever the fates of the statements, the failures and the expiries. -/
theorem runOnce (env : ProposalEnv) (workerId : ι → String) (c₀ c : ProposalConfig ι)
    (h₀ : Unexecuted c₀)
    (hrun : Reaches (proposalStep env workerId) (fun _ _ => True) c₀ c) :
    RunOnce env.maxAttempts c :=
  (hrun.invariant (h₀.inv env.maxAttempts) fun _ _ _ hi _ hs => hi.step hs).once

/-! ## A request is a run -/

/-- A run from `c` leads to the store `t`, with request `i` in a phase that `P` allows. -/
abbrev RequestRunsTo (env : ProposalEnv) (workerId : ι → String) (c : ProposalConfig ι) (i : ι)
    (P : ProposalPhase → Prop) (t : ProposalStore) : Prop :=
  RunsTo (proposalStep env workerId) (fun _ _ => True) ProposalConfig.store c
    (fun c' => P (c'.phase i)) t

section Requests

variable {env : ProposalEnv} {workerId : ι → String} {c : ProposalConfig ι} {i : ι}
  {P : ProposalPhase → Prop} {s : ProposalStore}

theorem RequestRunsTo.over (h : RequestRunsTo env workerId c i P s) :
    RequestRunsTo env workerId c i (fun _ => True) s := h.mono fun _ _ => trivial

theorem RequestRunsTo.reads {α : Type} {p : PM α} (h : RequestRunsTo env workerId c i P s)
    (hp : Always (fun s t => t = s) p) :
    Post (fun _ t => RequestRunsTo env workerId c i P t) p s :=
  (hp.post (fun _ => rfl) (fun _ _ _ h h' => h'.trans h) s).mono fun _ _ ht => ht ▸ h

theorem RequestRunsTo.failRead {id : Nat} {error : String}
    (h : RequestRunsTo env workerId c i (fun p => p = .failed id error) s) :
    RequestRunsTo env workerId c i (fun p =>
      match (s.proposals.find? (isExecuting id)).map ProposalRow.attempt with
      | none => p = .idle
      | some attempt => p = .recording id error attempt) s := by
  refine h.next (l := .failRead i .ok) fun c' hc' hs => ⟨trivial, ?_⟩
  subst hs
  simp only [proposalStep, stepFailExecutionRead, hc', ProposalQueue.failRead, query, execFates_act]
  cases (c'.store.proposals.find? (isExecuting id)).map ProposalRow.attempt <;>
    exact ⟨_, rfl, by simp [ProposalConfig.put], rfl⟩

theorem RequestRunsTo.failExecution {id : Nat} {error : String}
    (h : RequestRunsTo env workerId c i (fun p => p = .failed id error) s) :
    Post (fun _ t => RequestRunsTo env workerId c i (fun _ => True) t)
      (failExecution id error env.maxAttempts) s := by
  rw [ProposalQueue.failExecution, post_bind]
  refine post_query.mpr ⟨?_, h.over⟩
  have hread := h.failRead
  simp only [seqPost]
  cases hf : (s.proposals.find? (isExecuting id)).map ProposalRow.attempt with
  | none => exact h.over
  | some attempt =>
    rw [hf] at hread
    have hwrite : ∀ fate r t,
        (failWrite id error env.maxAttempts attempt).execFates [fate] s = some (r, t) →
          RequestRunsTo env workerId c i (fun _ => True) t := by
      intro fate r t hr
      refine hread.next (l := .failWrite i fate) fun c' hc' hs => ⟨trivial, ?_⟩
      subst hs
      exact ⟨c'.put i .idle t, by simp only [proposalStep, stepFailExecutionWrite, hc', hr],
        trivial, rfl⟩
    exact post_act.mpr ⟨hwrite .ok _ _ rfl, hwrite .lost _ _ rfl, hwrite .late _ _ rfl⟩

theorem RequestRunsTo.executionFails {id : Nat} (error : String)
    (h : RequestRunsTo env workerId c i (fun p => p = .executing id) s) :
    Post (fun _ t => RequestRunsTo env workerId c i (fun _ => True) t)
      (ProposalQueue.failExecution id error env.maxAttempts) s := by
  refine RequestRunsTo.failExecution (h.next (l := .executionFails i error)
    fun c' hc' hs => ⟨trivial, ?_⟩)
  subst hs
  exact ⟨c'.put i (.failed id error) c'.store, by simp only [proposalStep, hc'],
    by simp [ProposalConfig.put], rfl⟩

theorem always_claimRefused (proposalId : Nat) (workerId : String) (peek : ProposalRow) :
    Always (fun s t => t = s) (claimRefused env proposalId workerId peek) := by
  rw [claimRefused]
  split
  · trivial
  · split
    · refine Always.bind (always_query fun _ => rfl) fun now => ?_
      split <;> trivial
    · trivial

theorem RequestRunsTo.refused {proposalId : Nat} {userId : String}
    (h : RequestRunsTo env workerId c i (fun _ => True) s) :
    Post (fun _ t => RequestRunsTo env workerId c i (fun _ => True) t) (do
      match ← selectProposalForUser proposalId userId with
      | none => .raise proposalNotFound
      | some peek => claimRefused env proposalId (workerId i) peek) s := by
  refine h.reads (Always.bind (always_query fun _ => rfl) fun peek => ?_)
  cases peek with
  | none => trivial
  | some peek => exact always_claimRefused proposalId (workerId i) peek

end Requests

end System

namespace ProposalExample

def env (maxAttempts : Int) : ProposalEnv :=
  { getAction := fun _ => none
    execute := fun _ _ _ => pure { success := true, output := "", error := none, reverseToken := none }
    reprError := fun _ => "error", claimStuckAfterSeconds := 300, maxAttempts := maxAttempts }

def start : ProposalConfig (Fin 2) :=
  { store := { proposals := [], proposalsSeq := 1, now := 0 }, phase := fun _ => .idle, events := [] }

theorem start_unexecuted : Unexecuted start where
  keyed := ⟨List.nodup_nil, fun _ hr => by cases hr⟩
  idle _ := rfl
  unclaimed _ hr := by cases hr
  events := rfl

def reached (maxAttempts : Int) (ls : List (ProposalLabel (Fin 2))) : ProposalConfig (Fin 2) :=
  (run (proposalStep (env maxAttempts) fun _ => "http") ls start).getD start

theorem run_reached {maxAttempts : Int} {ls : List (ProposalLabel (Fin 2))}
    (h : (run (proposalStep (env maxAttempts) fun _ => "http") ls start).isSome = true) :
    run (proposalStep (env maxAttempts) fun _ => "http") ls start = some (reached maxAttempts ls) := by
  obtain ⟨c, hc⟩ := Option.isSome_iff_exists.mp h
  rw [reached, hc]
  rfl

/-- Request `i` executes an approved proposal. -/
def approved (i : Fin 2) : List (ProposalLabel (Fin 2)) :=
  [.propose "ann" "draft_email" "\x7b\x7d", .review 1 true, .claimById i 1 "ann" .ok, .start i]

/-- A failed execution of `i`, then one of `j` whose success is not recorded, then the sweeper. -/
def retried (i j : Fin 2) : List (ProposalLabel (Fin 2)) :=
  approved i ++ [.executionFails i "error", .failRead i .ok, .failWrite i .ok, .wait 120,
    .claimById j 1 "ann" .ok, .start j, .succeed j, .markDone j .lost, .wait 301,
    .resetStuckClaims 300]

end ProposalExample

open ProposalExample in
theorem runOnce_retried : RunOnce 3 (reached 3 (retried 0 1)) :=
  runOnce (env 3) (fun _ => "http") start _ start_unexecuted
    (run_reaches (run_reached (by decide)) (by simp [retried, approved, Admitted]))

open ProposalExample in
/-- With no attempts allowed, an approved proposal is still executed. -/
theorem noAttempts_executes_once :
    ∃ c, Reaches (proposalStep (env 0) fun _ => "http") (fun _ _ => True) start c ∧
      ¬ ((c.starts 1 : Int) ≤ (env 0).maxAttempts) :=
  ⟨reached 0 (approved 0), run_reaches (run_reached (by decide)) (by simp [approved, Admitted]),
    by decide⟩

end Lumogis
