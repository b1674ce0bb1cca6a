import Lumogis.Lib.Labelled
import Lumogis.Lib.Throttle
import Mathlib.Algebra.Order.Ring.Rat
import Mathlib.Logic.Function.Basic

/-!
# LoginThrottle

`FailureRateLimiter` under overlapping calls of `login`. Each call reads the clock and consults the limiter,
verifies its credentials, and reads the clock again to record a failure, or clears the bucket of its email.
The steps of any number of calls happen in any order.
-/

namespace Lumogis.Logins

open Labelled Throttle

def RATE_WINDOW_SECONDS : ℚ := 60

def RATE_MAX_FAILURES : Nat := 5

/-! ## The limiter -/

/-- The two `defaultdict(deque)`s. -/
structure FailureRateLimiter where
  ip : String → List ℚ
  secondary : String → List ℚ

/-- `rate_check` with the reading it took before the lock. A full first bucket leaves the second alone. -/
def rateCheck (now : ℚ) (keyIp keySecondary : String) (limiter : FailureRateLimiter) :
    Bool × FailureRateLimiter :=
  let cutoff := now - RATE_WINDOW_SECONDS
  let bucket := pruned cutoff (limiter.ip keyIp)
  let limiter := { limiter with ip := Function.update limiter.ip keyIp bucket }
  if RATE_MAX_FAILURES ≤ bucket.length then (false, limiter)
  else
    let bucket := pruned cutoff (limiter.secondary keySecondary)
    let limiter := { limiter with secondary := Function.update limiter.secondary keySecondary bucket }
    (!decide (RATE_MAX_FAILURES ≤ bucket.length), limiter)

def rateRecordFailure (now : ℚ) (keyIp keySecondary : String) (limiter : FailureRateLimiter) :
    FailureRateLimiter where
  ip := Function.update limiter.ip keyIp (limiter.ip keyIp ++ [now])
  secondary := Function.update limiter.secondary keySecondary (limiter.secondary keySecondary ++ [now])

def rateRecordSuccess (keySecondary : String) (limiter : FailureRateLimiter) : FailureRateLimiter :=
  { limiter with secondary := Function.update limiter.secondary keySecondary [] }

/-! ## Calls of `login` -/

/-- `_client_ip(request)` and `body.email.strip().lower()`. -/
structure LoginCall where
  ip : String
  emailKey : String

inductive LoginPhase where
  | arrived
  /-- `rate_check` has read the clock. -/
  | checking (now : ℚ)
  /-- Admitted; the credentials are being verified. -/
  | admitted
  /-- `verify_credentials` has returned `None`. -/
  | unverified
  /-- `rate_record_failure` has read the clock. -/
  | recording (now : ℚ)
  | verified
  | answered (status : Nat)

inductive LoginEvent where
  /-- A verification completed at the given time, and failed. -/
  | failed (call : LoginCall) (time : ℚ)
  /-- The success is recorded. -/
  | loggedIn (call : LoginCall)

structure LoginState where
  clock : ℚ
  limiter : FailureRateLimiter
  calls : List (LoginCall × LoginPhase)
  /-- What happened, the last event first. No function reads it. -/
  events : List LoginEvent

inductive LoginLabel where
  | advance (clock : ℚ)
  | arrive (call : LoginCall) (authEnabled : Bool)
  /-- The reading of `rate_check`, and what it does under the lock. -/
  | readCheck (i : Nat)
  | check (i : Nat)
  | verify (i : Nat) (found : Bool)
  /-- The reading of `rate_record_failure`, and what it does under the lock. -/
  | readRecord (i : Nat)
  | recordFailure (i : Nat)
  | recordSuccess (i : Nat)

def LoginState.setPhase (s : LoginState) (i : Nat) (call : LoginCall) (phase : LoginPhase) : LoginState :=
  { s with calls := s.calls.set i (call, phase) }

def loginStep : LoginLabel → LoginState → Option LoginState
  | .advance clock, s => if s.clock ≤ clock then some { s with clock } else none
  | .arrive call authEnabled, s =>
    some { s with calls := s.calls ++ [(call, if authEnabled then .arrived else .answered 503)] }
  | .readCheck i, s =>
    match s.calls[i]? with
    | some (call, .arrived) => some (s.setPhase i call (.checking s.clock))
    | _ => none
  | .check i, s =>
    match s.calls[i]? with
    | some (call, .checking now) =>
      let (ok, limiter) := rateCheck now call.ip call.emailKey s.limiter
      some ({ s with limiter }.setPhase i call (if ok then .admitted else .answered 429))
    | _ => none
  | .verify i found, s =>
    match s.calls[i]? with
    | some (call, .admitted) =>
      if found then some (s.setPhase i call .verified)
      else some ({ s with events := .failed call s.clock :: s.events }.setPhase i call .unverified)
    | _ => none
  | .readRecord i, s =>
    match s.calls[i]? with
    | some (call, .unverified) => some (s.setPhase i call (.recording s.clock))
    | _ => none
  | .recordFailure i, s =>
    match s.calls[i]? with
    | some (call, .recording now) =>
      some ({ s with limiter := rateRecordFailure now call.ip call.emailKey s.limiter }.setPhase i call (.answered 401))
    | _ => none
  | .recordSuccess i, s =>
    match s.calls[i]? with
    | some (call, .verified) =>
      some ({ s with
        limiter := rateRecordSuccess call.emailKey s.limiter
        events := .loggedIn call :: s.events }.setPhase i call (.answered 200))
    | _ => none

/-- A limiter that has counted nothing. -/
def LoginState.start (clock : ℚ) : LoginState where
  clock := clock
  limiter := ⟨fun _ => [], fun _ => []⟩
  calls := []
  events := []

/-! ## What is bounded, and when -/

/-- A failure of one of the calls in the window that begins at `a`. -/
def LoginEvent.failedIn (p : LoginCall → Bool) (a : ℚ) : LoginEvent → Bool
  | .failed call time => p call && decide (a ≤ time ∧ time ≤ a + RATE_WINDOW_SECONDS)
  | .loggedIn _ => false

def LoginEvent.loginOf (emailKey : String) : LoginEvent → Bool
  | .failed _ _ => false
  | .loggedIn call => call.emailKey = emailKey

/-- No window has more failures than the limit: for an IP address over all events, for an email over the
events between two successful logins to it. -/
structure Throttled (events : List LoginEvent) : Prop where
  ip : ∀ ip a, events.countP (LoginEvent.failedIn (fun call => call.ip = ip) a) ≤ RATE_MAX_FAILURES
  email : ∀ emailKey part, part <:+: events → (∀ e ∈ part, e.loginOf emailKey = false) →
    ∀ a, part.countP (LoginEvent.failedIn (fun call => call.emailKey = emailKey) a) ≤ RATE_MAX_FAILURES

/-- Admitted, and neither counted nor verified. -/
def LoginPhase.inFlight : LoginPhase → Bool
  | .admitted => true
  | .unverified => true
  | .recording _ => true
  | _ => false

/-- How many of the calls are in such a phase. -/
def LoginState.count (p : LoginCall → Bool) (q : LoginPhase → Bool) (s : LoginState) : Nat :=
  s.calls.countP fun c => p c.1 && q c.2

/-- If the call is admitted, then also on a count that includes the calls in flight, of its address and of
its email. -/
def LoginState.HasRoom (s : LoginState) : Option (LoginCall × LoginPhase) → Prop
  | some (call, .checking now) =>
    (rateCheck now call.ip call.emailKey s.limiter).1 = true →
      (pruned (now - RATE_WINDOW_SECONDS) (s.limiter.ip call.ip)).length +
          s.count (fun other => other.ip = call.ip) LoginPhase.inFlight < RATE_MAX_FAILURES ∧
        (pruned (now - RATE_WINDOW_SECONDS) (s.limiter.secondary call.emailKey)).length +
          s.count (fun other => other.emailKey = call.emailKey) LoginPhase.inFlight < RATE_MAX_FAILURES
  | _ => True

instance (s : LoginState) : (c : Option (LoginCall × LoginPhase)) → Decidable (s.HasRoom c)
  | some (_, .checking _) => inferInstanceAs (Decidable (_ → _))
  | none => .isTrue trivial
  | some (_, .arrived) => .isTrue trivial
  | some (_, .admitted) => .isTrue trivial
  | some (_, .unverified) => .isTrue trivial
  | some (_, .recording _) => .isTrue trivial
  | some (_, .verified) => .isTrue trivial
  | some (_, .answered _) => .isTrue trivial

def Unhurried : LoginLabel → LoginState → Prop
  | .check i, s => s.HasRoom s.calls[i]?
  | _, _ => True

instance : (l : LoginLabel) → (s : LoginState) → Decidable (Unhurried l s)
  | .check i, s => inferInstanceAs (Decidable (s.HasRoom s.calls[i]?))
  | .advance _, _ => .isTrue trivial
  | .arrive _ _, _ => .isTrue trivial
  | .readCheck _, _ => .isTrue trivial
  | .verify _ _, _ => .isTrue trivial
  | .readRecord _, _ => .isTrue trivial
  | .recordFailure _, _ => .isTrue trivial
  | .recordSuccess _, _ => .isTrue trivial

end Lumogis.Logins
