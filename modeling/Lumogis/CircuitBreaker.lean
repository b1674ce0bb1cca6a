import Lumogis.Lib.Labelled
import Mathlib.Logic.Function.Basic

/-!
# CircuitBreaker

The breaker in front of an LLM provider, under any number of calls in flight. A call is admitted by
`allow` and reports once, when it ends; every operation holds the breaker's lock, so a run is a
sequence of admissions and reports with the clock readings they take. `openings` counts how often
the breaker has opened, and each call in flight keeps the count of its admission.

`breaker_safe_iff`: the steps of a run are safe exactly when no call that was admitted before the
breaker last opened reports a success while it is not closed, and no call asks to be admitted in
half-open while another admitted since then is in flight. Neither `allow` nor `record_success`
looks at who is in flight.
-/

namespace Lumogis

open Labelled

inductive BreakerState where
  | closed | opened | halfOpen
  deriving DecidableEq

structure BreakerLimits where
  maxFailures : Nat
  cooldownS : Int
  /-- The constructor refuses anything else. -/
  max_failures_pos : 1 ≤ maxFailures

structure CircuitBreaker where
  state : BreakerState
  consecutiveFailures : Nat
  openedAt : Option Int

namespace CircuitBreaker

def fresh : CircuitBreaker := { state := .closed, consecutiveFailures := 0, openedAt := none }

def maybeHalfOpen (limits : BreakerLimits) (now : Int) (b : CircuitBreaker) : CircuitBreaker :=
  match b.state, b.openedAt with
  | .opened, some t => if limits.cooldownS ≤ now - t then { b with state := .halfOpen } else b
  | _, _ => b

/-- Whether the call is let through. -/
def allow (limits : BreakerLimits) (now : Int) (b : CircuitBreaker) : Bool × CircuitBreaker :=
  let b := b.maybeHalfOpen limits now
  (b.state != .opened, b)

def recordSuccess (_ : CircuitBreaker) : CircuitBreaker :=
  { state := .closed, consecutiveFailures := 0, openedAt := none }

/-- Whether the failure opens the breaker. -/
def opensOnFailure (limits : BreakerLimits) (b : CircuitBreaker) : Bool :=
  b.state == .halfOpen || limits.maxFailures ≤ b.consecutiveFailures + 1

def recordFailure (limits : BreakerLimits) (now : Int) (b : CircuitBreaker) : CircuitBreaker :=
  if b.opensOnFailure limits then
    { state := .opened, consecutiveFailures := b.consecutiveFailures + 1, openedAt := some now }
  else { b with consecutiveFailures := b.consecutiveFailures + 1 }

end CircuitBreaker

/-! ## Calls of a provider -/

inductive LlmPath where
  | chat | chatStream

inductive LlmException where
  /-- `tethered.EgressBlocked`. -/
  | tethered
  | egressBlocked
  | other
  deriving DecidableEq

/-- How the adapter's call ends. -/
inductive LlmEnd where
  /-- `chat` returns, or the stream is exhausted. -/
  | done
  /-- An exception, with the chain of its causes. -/
  | raised (exc : LlmException) (causes : List LlmException)
  /-- The consumer leaves the stream, or the call ends by what is not an `Exception`. -/
  | left

/-- `EgressGuardingLLMProvider`: a block in the chain becomes an `EgressBlockedError`. -/
def LlmEnd.guarded : LlmEnd → LlmEnd
  | .raised exc causes =>
    if .tethered ∈ exc :: causes then .raised .egressBlocked (exc :: causes) else .raised exc causes
  | e => e

/-- What `CircuitBreakingLLMProvider` records: a success, a failure, or neither. -/
def LlmPath.report : LlmPath → LlmEnd → Option Bool
  | _, .done => some true
  | _, .raised exc _ => if exc = .egressBlocked then none else some false
  | .chat, .left => none
  | .chatStream, .left => some true

structure LlmCall where
  path : LlmPath
  /-- The adapter is wrapped by the egress guard. -/
  guard : Bool
  /-- How often the breaker had opened when it admitted the call. -/
  admitted : Nat

def LlmCall.report (call : LlmCall) (e : LlmEnd) : Option Bool :=
  call.path.report (if call.guard then e.guarded else e)

/-! ## The system -/

structure BreakerConfig (ι : Type) where
  breaker : CircuitBreaker
  now : Int
  calls : ι → Option LlmCall
  openings : Nat
  lastOpened : Option Int

inductive BreakerLabel (ι : Type) where
  | call (i : ι) (path : LlmPath) (guard : Bool) (now : Int)
  | finish (i : ι) (e : LlmEnd) (now : Int)
  /-- The `state` property is read. -/
  | observe (now : Int)

namespace BreakerConfig

variable {ι : Type}

def start : BreakerConfig ι :=
  { breaker := .fresh, now := 0, calls := fun _ => none, openings := 0, lastOpened := none }

def succeed (c : BreakerConfig ι) : BreakerConfig ι := { c with breaker := c.breaker.recordSuccess }

def fail (limits : BreakerLimits) (now : Int) (c : BreakerConfig ι) : BreakerConfig ι :=
  if c.breaker.opensOnFailure limits then
    { c with
      breaker := c.breaker.recordFailure limits now
      openings := c.openings + 1
      lastOpened := some now }
  else { c with breaker := c.breaker.recordFailure limits now }

def record (limits : BreakerLimits) (now : Int) (c : BreakerConfig ι) :
    Option Bool → BreakerConfig ι
  | some true => c.succeed
  | some false => c.fail limits now
  | none => c

end BreakerConfig

section System

variable {ι : Type} [DecidableEq ι] {limits : BreakerLimits}

def breakerStep (limits : BreakerLimits) :
    BreakerLabel ι → BreakerConfig ι → Option (BreakerConfig ι)
  | .call i path guard now, c =>
    if c.now ≤ now ∧ c.calls i = none then
      let (through, breaker) := c.breaker.allow limits now
      some { c with
        breaker := breaker
        now := now
        calls := if through then
            Function.update c.calls i (some { path := path, guard := guard, admitted := c.openings })
          else c.calls }
    else none
  | .finish i e now, c =>
    match c.calls i with
    | some call =>
      if c.now ≤ now then
        some { c.record limits now (call.report e) with
          now := now, calls := Function.update c.calls i none }
      else none
    | none => none
  | .observe now, c =>
    if c.now ≤ now then
      some { c with now := now, breaker := c.breaker.maybeHalfOpen limits now }
    else none

/-! ## The law and its condition -/

/-- In flight and admitted since the breaker last opened. -/
def BreakerConfig.Since (c : BreakerConfig ι) (i : ι) : Prop :=
  ∃ call, c.calls i = some call ∧ call.admitted = c.openings

/-- The cooldown since the last opening is over. -/
def BreakerConfig.Cooled (limits : BreakerLimits) (c : BreakerConfig ι) : Prop :=
  ∀ t, c.lastOpened = some t → limits.cooldownS ≤ c.now - t

structure BreakerSafeStep (limits : BreakerLimits) (l : BreakerLabel ι) (c t : BreakerConfig ι) :
    Prop where
  /-- No call is let through before the cooldown is over. -/
  cooled : ∀ i, c.calls i = none → (t.calls i).isSome = true → t.Cooled limits
  /-- In half-open at most one call admitted since the opening is in flight. -/
  probe : t.breaker.state = .halfOpen → ∀ i j, t.Since i → t.Since j → i = j
  /-- Only the success of a call admitted since the last opening closes the breaker. -/
  closes : c.breaker.state ≠ .closed → t.breaker.state = .closed → ∃ i e now call,
    l = .finish i e now ∧ c.calls i = some call ∧ call.report e = some true ∧
      call.admitted = c.openings
  /-- A call that the egress guard blocks is not counted. -/
  blocked : ∀ i exc causes now call, l = .finish i (.raised exc causes) now →
    c.calls i = some call → call.guard = true → .tethered ∈ exc :: causes → t.breaker = c.breaker

def BreakerSafe (limits : BreakerLimits) (l : BreakerLabel ι) (c : BreakerConfig ι) : Prop :=
  ∀ t, breakerStep limits l c = some t → BreakerSafeStep limits l c t

/-- A success that is reported while the breaker is not closed is that of a call admitted since it
last opened, and a call comes to a half-open breaker only when no such call is in flight. -/
def InTurn (limits : BreakerLimits) (l : BreakerLabel ι) (c : BreakerConfig ι) : Prop :=
  match l with
  | .call i _ _ now => c.now ≤ now → c.calls i = none →
    (c.breaker.maybeHalfOpen limits now).state = .halfOpen → ∀ j, ¬ c.Since j
  | .finish i e now => c.now ≤ now → ∀ call, c.calls i = some call → call.report e = some true →
    c.breaker.state ≠ .closed → call.admitted = c.openings
  | .observe _ => True

/-! ## What a run keeps -/

structure BreakerInv (limits : BreakerLimits) (c : BreakerConfig ι) : Prop where
  opened : c.breaker.state = .opened → c.breaker.openedAt = c.lastOpened ∧ ∀ i, ¬ c.Since i
  bound : ∀ i call, c.calls i = some call → call.admitted ≤ c.openings
  cooled : c.breaker.state ≠ .opened → c.Cooled limits
  probe : c.breaker.state = .halfOpen → ∀ i j, c.Since i → c.Since j → i = j

variable {c t : BreakerConfig ι} {i : ι} {now : Int}

omit [DecidableEq ι]

theorem BreakerInv.start : BreakerInv limits (BreakerConfig.start : BreakerConfig ι) where
  opened h := by cases h
  bound i call h := by cases h
  cooled _ t h := by cases h
  probe h := by cases h

theorem BreakerConfig.Cooled.later {breaker : CircuitBreaker} {calls : ι → Option LlmCall}
    (h : c.Cooled limits) (hnow : c.now ≤ now) :
    ({ c with now := now, breaker := breaker, calls := calls } : BreakerConfig ι).Cooled limits := by
  intro t ht
  have := h t ht
  show limits.cooldownS ≤ now - t
  omega

theorem maybeHalfOpen_cases (limits : BreakerLimits) (now : Int) (b : CircuitBreaker) :
    b.maybeHalfOpen limits now = b ∨
      b.state = .opened ∧ (b.maybeHalfOpen limits now).state = .halfOpen ∧
        ∃ t, b.openedAt = some t ∧ limits.cooldownS ≤ now - t := by
  unfold CircuitBreaker.maybeHalfOpen
  split
  · rename_i t hstate hopened
    by_cases h : limits.cooldownS ≤ now - t
    · rw [if_pos h]
      exact .inr ⟨hstate, rfl, t, hopened, h⟩
    · rw [if_neg h]
      exact .inl rfl
  · exact .inl rfl

theorem BreakerInv.promote (h : BreakerInv limits c) (hnow : c.now ≤ now) :
    BreakerInv limits { c with now := now, breaker := c.breaker.maybeHalfOpen limits now } := by
  rcases maybeHalfOpen_cases limits now c.breaker with hb | ⟨hstate, hhalf, t, hopened, hcool⟩
  · rw [hb]
    exact ⟨h.opened, h.bound, fun hs => (h.cooled hs).later hnow, h.probe⟩
  · obtain ⟨hlast, hnone⟩ := h.opened hstate
    refine ⟨fun hs => ?_, h.bound, fun _ t' ht' => ?_, fun _ i j hi _ => absurd hi (hnone i)⟩
    · rw [hhalf] at hs
      cases hs
    · have ht : c.lastOpened = some t := hlast ▸ hopened
      rw [show t' = t from Option.some.inj (ht'.symm.trans ht)]
      exact hcool

section Calls

variable [DecidableEq ι] {call call' : LlmCall}

/-- The calls in flight after `i` has ended. -/
theorem BreakerConfig.Since.of_erase {j : ι} {c' : BreakerConfig ι} (h : c'.Since j)
    (hcalls : c'.calls = Function.update c.calls i none) (hopenings : c'.openings = c.openings) :
    c.Since j := by
  obtain ⟨call, hj, ha⟩ := h
  rw [hcalls] at hj
  by_cases hij : j = i
  · subst hij
    simp at hj
  · rw [Function.update_of_ne hij] at hj
    exact ⟨call, hj, ha.trans hopenings⟩

theorem BreakerInv.erase_bound {j : ι} (h : BreakerInv limits c)
    (hj : Function.update c.calls i none j = some call) : call.admitted ≤ c.openings := by
  by_cases hij : j = i
  · subst hij
    simp at hj
  · rw [Function.update_of_ne hij] at hj
    exact h.bound j call hj

theorem BreakerInv.ends {b : CircuitBreaker} (h : BreakerInv limits c) (hnow : c.now ≤ now)
    (hstate : b.state = c.breaker.state) (hopened : b.openedAt = c.breaker.openedAt) :
    BreakerInv limits
      { c with breaker := b, now := now, calls := Function.update c.calls i none } where
  opened hs := by
    obtain ⟨hlast, hnone⟩ := h.opened (hstate ▸ hs)
    exact ⟨hopened.trans hlast, fun j hj => hnone j (hj.of_erase rfl rfl)⟩
  bound j call hj := h.erase_bound hj
  cooled hs := (h.cooled (hstate ▸ hs)).later hnow
  probe hs j k hj hk := h.probe (hstate ▸ hs) j k (hj.of_erase rfl rfl)
    (hk.of_erase rfl rfl)

theorem BreakerInv.succeeds (h : BreakerInv limits c) (hnow : c.now ≤ now)
    (hi : c.calls i = some call)
    (hturn : c.breaker.state ≠ .closed → call.admitted = c.openings) :
    BreakerInv limits
      { c.succeed with now := now, calls := Function.update c.calls i none } where
  opened hs := by cases hs
  bound j call hj := h.erase_bound hj
  cooled _ := by
    have hstate : c.breaker.state ≠ .opened := by
      intro hs
      exact (h.opened hs).2 i ⟨call, hi, hturn (by simp [hs])⟩
    exact (h.cooled hstate).later hnow
  probe hs := by cases hs

theorem BreakerInv.fails (h : BreakerInv limits c) (hnow : c.now ≤ now) :
    BreakerInv limits
      { c.fail limits now with now := now, calls := Function.update c.calls i none } := by
  unfold BreakerConfig.fail CircuitBreaker.recordFailure
  by_cases hopens : c.breaker.opensOnFailure limits = true
  · simp only [hopens, if_true]
    refine ⟨fun _ => ⟨rfl, fun j hj => ?_⟩, fun j call hj => ?_, fun hs => absurd rfl hs,
      fun hs => by cases hs⟩
    · obtain ⟨call, hj, ha⟩ := hj
      have hle := h.erase_bound hj
      have : call.admitted = c.openings + 1 := ha
      omega
    · exact Nat.le_succ_of_le (h.erase_bound hj)
  · simp only [hopens]
    exact h.ends hnow rfl rfl

theorem BreakerInv.records (h : BreakerInv limits c) (hnow : c.now ≤ now)
    (hi : c.calls i = some call) (r : Option Bool)
    (hturn : r = some true → c.breaker.state ≠ .closed → call.admitted = c.openings) :
    BreakerInv limits
      { c.record limits now r with now := now, calls := Function.update c.calls i none } := by
  cases r with
  | none => exact h.ends hnow rfl rfl
  | some success =>
    cases success with
    | true => exact h.succeeds hnow hi (hturn rfl)
    | false => exact h.fails hnow

theorem BreakerInv.admits (h : BreakerInv limits c) (hi : c.calls i = none)
    (hstate : c.breaker.state ≠ .opened)
    (hturn : c.breaker.state = .halfOpen → ∀ j, ¬ c.Since j) (hcall : call.admitted = c.openings) :
    BreakerInv limits { c with calls := Function.update c.calls i (some call) } := by
  have hother : ∀ j, j ≠ i →
      ({ c with calls := Function.update c.calls i (some call) } : BreakerConfig ι).Since j →
        c.Since j := by
    intro j hj hsince
    obtain ⟨call', hc, ha⟩ := hsince
    have hc : Function.update c.calls i (some call) j = some call' := hc
    rw [Function.update_of_ne hj] at hc
    exact ⟨call', hc, ha⟩
  refine ⟨fun hs => absurd hs hstate, fun j call' hj => ?_, h.cooled, fun hs j k hj hk => ?_⟩
  · have hj : Function.update c.calls i (some call) j = some call' := hj
    by_cases hij : j = i
    · subst hij
      rw [Function.update_self] at hj
      cases hj
      exact Nat.le_of_eq hcall
    · rw [Function.update_of_ne hij] at hj
      exact h.bound j call' hj
  · have hjust : ∀ j, ({ c with calls := Function.update c.calls i (some call) }
        : BreakerConfig ι).Since j → j = i := by
      intro j hj
      by_contra hne
      exact hturn hs j (hother j hne hj)
    rw [hjust j hj, hjust k hk]

/-! ### Each label -/

theorem breakerStep_call {path : LlmPath} {guard : Bool}
    (hs : breakerStep limits (.call i path guard now) c = some t) :
    c.now ≤ now ∧ c.calls i = none ∧
      ((c.breaker.maybeHalfOpen limits now).state = .opened ∧
          t = { c with now := now, breaker := c.breaker.maybeHalfOpen limits now } ∨
        (c.breaker.maybeHalfOpen limits now).state ≠ .opened ∧
          t = { c with
            now := now, breaker := c.breaker.maybeHalfOpen limits now
            calls := Function.update c.calls i
              (some { path := path, guard := guard, admitted := c.openings }) }) := by
  simp only [breakerStep] at hs
  split at hs
  · rename_i hcond
    refine ⟨hcond.1, hcond.2, ?_⟩
    cases hs
    by_cases hstate : (c.breaker.maybeHalfOpen limits now).state = .opened
    · exact .inl ⟨hstate, by simp [CircuitBreaker.allow, hstate]⟩
    · exact .inr ⟨hstate, by simp [CircuitBreaker.allow, hstate]⟩
  · cases hs

theorem breakerStep_finish {e : LlmEnd} (hs : breakerStep limits (.finish i e now) c = some t) :
    ∃ call, c.now ≤ now ∧ c.calls i = some call ∧
      t = { c.record limits now (call.report e) with
        now := now, calls := Function.update c.calls i none } := by
  simp only [breakerStep] at hs
  split at hs
  · rename_i call hi
    split at hs
    · rename_i hnow
      cases hs
      exact ⟨call, hnow, hi, rfl⟩
    · cases hs
  · cases hs

theorem breakerStep_observe (hs : breakerStep limits (.observe now : BreakerLabel ι) c = some t) :
    c.now ≤ now ∧ t = { c with now := now, breaker := c.breaker.maybeHalfOpen limits now } := by
  simp only [breakerStep] at hs
  split at hs
  · rename_i hnow
    cases hs
    exact ⟨hnow, rfl⟩
  · cases hs

theorem BreakerInv.next {l : BreakerLabel ι} (h : BreakerInv limits c) (ha : InTurn limits l c)
    (hs : breakerStep limits l c = some t) : BreakerInv limits t := by
  cases l with
  | call i path guard now =>
    obtain ⟨hnow, hi, ⟨-, rfl⟩ | ⟨hstate, rfl⟩⟩ := breakerStep_call hs
    · exact h.promote hnow
    · exact (h.promote hnow).admits hi hstate (ha hnow hi) rfl
  | finish i e now =>
    obtain ⟨call, hnow, hi, rfl⟩ := breakerStep_finish hs
    exact h.records hnow hi _ fun hr hne => ha hnow call hi hr hne
  | observe now =>
    obtain ⟨hnow, rfl⟩ := breakerStep_observe hs
    exact h.promote hnow

omit [DecidableEq ι] in
theorem maybeHalfOpen_closed {b : CircuitBreaker}
    (h : (b.maybeHalfOpen limits now).state = .closed) : b.state = .closed := by
  rcases maybeHalfOpen_cases limits now b with hb | ⟨-, hhalf, -⟩
  · rwa [hb] at h
  · rw [hhalf] at h
    cases h

omit [DecidableEq ι] in
theorem record_closed {r : Option Bool} (hne : c.breaker.state ≠ .closed)
    (h : (c.record limits now r).breaker.state = .closed) : r = some true := by
  cases r with
  | none => exact absurd h hne
  | some success =>
    cases success with
    | true => rfl
    | false =>
      unfold BreakerConfig.record BreakerConfig.fail CircuitBreaker.recordFailure at h
      by_cases hopens : c.breaker.opensOnFailure limits = true
      · simp [hopens] at h
      · simp only [hopens] at h
        exact absurd h hne

omit [DecidableEq ι] in
theorem report_blocked {exc : LlmException} {causes : List LlmException}
    (hguard : call.guard = true) (h : .tethered ∈ exc :: causes) :
    call.report (.raised exc causes) = none := by
  obtain ⟨path, guard, admitted⟩ := call
  cases hguard
  cases path <;> simp [LlmCall.report, LlmEnd.guarded, LlmPath.report, h]

theorem InTurn.safe {l : BreakerLabel ι} (ha : InTurn limits l c) (h : BreakerInv limits c)
    (hs : breakerStep limits l c = some t) : BreakerSafeStep limits l c t := by
  have ht := h.next ha hs
  refine ⟨fun j hj hjt => ht.cooled fun hopened => ?_, ht.probe, fun hne hclosed => ?_,
    fun j exc causes now' call' hl hj hguard hmem => ?_⟩
  · cases l with
    | call i path guard now =>
      obtain ⟨-, -, ⟨-, rfl⟩ | ⟨hstate, rfl⟩⟩ := breakerStep_call hs
      · simp [hj] at hjt
      · exact hstate hopened
    | finish i e now =>
      obtain ⟨call, -, -, rfl⟩ := breakerStep_finish hs
      by_cases hij : j = i
      · subst hij
        simp at hjt
      · simp [Function.update_of_ne hij, hj] at hjt
    | observe now =>
      obtain ⟨-, rfl⟩ := breakerStep_observe hs
      simp [hj] at hjt
  · cases l with
    | call i path guard now =>
      obtain ⟨-, -, ⟨-, rfl⟩ | ⟨-, rfl⟩⟩ := breakerStep_call hs
      · exact absurd (maybeHalfOpen_closed hclosed) hne
      · exact absurd (maybeHalfOpen_closed hclosed) hne
    | finish i e now =>
      obtain ⟨call, hnow, hi, rfl⟩ := breakerStep_finish hs
      have hr := record_closed hne hclosed
      exact ⟨i, e, now, call, rfl, hi, hr, ha hnow call hi hr hne⟩
    | observe now =>
      obtain ⟨-, rfl⟩ := breakerStep_observe hs
      exact absurd (maybeHalfOpen_closed hclosed) hne
  · subst hl
    obtain ⟨call, -, hi, rfl⟩ := breakerStep_finish hs
    have hcall : call = call' := Option.some.inj (hi.symm.trans hj)
    subst hcall
    rw [report_blocked hguard hmem]
    rfl

theorem BreakerSafe.inTurn {l : BreakerLabel ι} (h : BreakerSafe limits l c) :
    InTurn limits l c := by
  cases l with
  | call i path guard now =>
    intro hnow hi hhalf j hj
    have hs : breakerStep limits (.call i path guard now) c = some { c with
        now := now, breaker := c.breaker.maybeHalfOpen limits now
        calls := Function.update c.calls i
          (some { path := path, guard := guard, admitted := c.openings }) } := by
      simp [breakerStep, hnow, hi, CircuitBreaker.allow, hhalf]
    have hij : i ≠ j := by
      rintro rfl
      obtain ⟨call, hc, -⟩ := hj
      rw [hi] at hc
      cases hc
    obtain ⟨call, hc, hadmitted⟩ := hj
    refine hij ((h _ hs).probe hhalf i j ⟨_, Function.update_self .., rfl⟩ ⟨call, ?_, hadmitted⟩)
    exact (Function.update_of_ne (Ne.symm hij) ..).trans hc
  | finish i e now =>
    intro hnow call hi hr hne
    have hs : breakerStep limits (.finish i e now) c = some { c.record limits now (call.report e) with
        now := now, calls := Function.update c.calls i none } := by
      simp [breakerStep, hnow, hi]
    have hclosed : (c.record limits now (call.report e)).breaker.state = .closed := by
      rw [hr]
      rfl
    obtain ⟨i', e', now', call', hl, hi', -, hadmitted⟩ := (h _ hs).closes hne hclosed
    cases hl
    rw [hi] at hi'
    cases hi'
    exact hadmitted
  | observe now => exact trivial

end Calls

theorem BreakerInv.admitted_iff [DecidableEq ι] (h : BreakerInv limits c)
    (ls : List (BreakerLabel ι)) :
    Admitted (breakerStep limits) (BreakerSafe limits) ls c ↔
      Admitted (breakerStep limits) (InTurn limits) ls c := by
  induction ls generalizing c with
  | nil => exact Iff.rfl
  | cons l ls ih =>
    constructor
    · rintro ⟨hsafe, hrest⟩
      exact ⟨hsafe.inTurn, fun t ht => (ih (h.next hsafe.inTurn ht)).mp (hrest t ht)⟩
    · rintro ⟨hturn, hrest⟩
      exact ⟨fun t ht => hturn.safe h ht,
        fun t ht => (ih (h.next hturn ht)).mpr (hrest t ht)⟩

end System

/-- Which runs of a new breaker are safe. -/
theorem breaker_safe_iff {ι : Type} [DecidableEq ι] (limits : BreakerLimits)
    (ls : List (BreakerLabel ι)) :
    Admitted (breakerStep limits) (BreakerSafe limits) ls .start ↔
      Admitted (breakerStep limits) (InTurn limits) ls .start :=
  BreakerInv.start.admitted_iff ls

namespace BreakerExample

def limits : BreakerLimits := { maxFailures := 1, cooldownS := 30, max_failures_pos := Nat.le_refl 1 }

/-- Call 0 is admitted before call 1 opens the breaker, and succeeds one second later. -/
def lateSuccess : List (BreakerLabel Nat) :=
  [.call 0 .chat false 0, .call 1 .chat false 0, .finish 1 (.raised .other []) 1, .finish 0 .done 2]

end BreakerExample

open BreakerExample in
/-- The late success closes the breaker during its cooldown. -/
theorem late_success_closes :
    ¬ Admitted (breakerStep limits) (BreakerSafe limits) lateSuccess .start := by
  intro h
  have hsafe := (((h.2 _ rfl).2 _ rfl).2 _ rfl).1 _ rfl
  obtain ⟨i, e, now, call, hl, hi, -, hadmitted⟩ := hsafe.closes (by decide) rfl
  cases hl
  cases hi
  cases hadmitted

end Lumogis
