import Lumogis.RefreshRoute

/-!
# OverlayRefresh

The requests of one overlay process: `ensure_fresh_session`, and the retry after a 401 of
`authenticated_memory_search` and `send_authenticated_with_base`. They share the session in the keyring
and `refresh_mtx`. After a 401 a request reads the session before it takes the mutex.
-/

namespace Lumogis

open Labelled

/-- `AuthSession`. Whether an access token is still good is for the server to say. -/
structure OverlaySession where
  refreshToken : RefreshToken
  expiresAtUnix : Nat
  deriving DecidableEq

/-- Who calls `refresh_session`. -/
inductive RefreshCaller where
  | ensureFresh
  | retry

/-- The next step of a request. -/
inductive RequestPhase where
  /-- `ensure_fresh_session` reads the session. -/
  | ensure
  /-- It waits for the mutex. -/
  | stale
  /-- It holds the mutex and reads the session again. -/
  | recheck
  | send
  /-- The answer was a 401, and the session is read. -/
  | unauthorized
  /-- It waits for the mutex with the session that it has read. -/
  | waiting (session : OverlaySession)
  /-- It holds the mutex, and the refresh is sent. -/
  | refresh (caller : RefreshCaller) (session : OverlaySession)
  /-- The answer is on its way. -/
  | refreshed (caller : RefreshCaller) (reply : RefreshReply)
  /-- The second request, under the mutex. -/
  | resend
  | done

/-- The request holds `refresh_mtx`. -/
def RequestPhase.holds : RequestPhase → Bool
  | .recheck | .refresh _ _ | .refreshed _ _ | .resend => true
  | _ => false

structure OverlayState (ι : Type) where
  server : RefreshServer
  keyring : Option OverlaySession
  refreshMtx : Option ι := none
  phase : ι → RequestPhase := fun _ => .ensure
  /-- The session that was last written to the keyring. -/
  written : OverlaySession

inductive OverlayLabel (ι : Type) where
  /-- `now_unix` is read with the session. -/
  | ensure (i : ι) (nowUnix : Nat)
  | lock (i : ι)
  | recheck (i : ι) (nowUnix : Nat)
  /-- The request is answered, with a 401 or not. -/
  | answer (i : ι) (unauthorized : Bool)
  | reread (i : ι)
  /-- The server takes the refresh. -/
  | serve (i : ι) (verified : Bool)
  /-- Its answer arrives. -/
  | receive (i : ι) (expiresAtUnix : Nat)

section Overlay

variable {ι : Type} [DecidableEq ι]

def OverlayState.put (i : ι) (phase : RequestPhase) (s : OverlayState ι) : OverlayState ι :=
  { s with phase := Function.update s.phase i phase }

/-- The guard is dropped. -/
def OverlayState.release (s : OverlayState ι) : OverlayState ι := { s with refreshMtx := none }

/-- Where a refresh leads. -/
def RefreshCaller.next : RefreshCaller → RequestPhase
  | .ensureFresh => .send
  | .retry => .resend

def overlayStep (env : AuthEnv) (refreshTtlSeconds : Nat) : OverlayLabel ι → OverlayState ι → Option (OverlayState ι)
  | .ensure i nowUnix, s =>
    match s.phase i with
    | .ensure =>
      match s.keyring with
      | none => some (s.put i .done)
      | some session => some (s.put i (if session.expiresAtUnix > nowUnix then .send else .stale))
    | _ => none
  | .lock i, s =>
    if s.refreshMtx.isSome then none
    else
      match s.phase i with
      | .stale => some { s.put i .recheck with refreshMtx := some i }
      | .waiting session => some { s.put i (.refresh .retry session) with refreshMtx := some i }
      | _ => none
  | .recheck i nowUnix, s =>
    match s.phase i with
    | .recheck =>
      match s.keyring with
      | none => some (s.put i .done).release
      | some session =>
        if session.expiresAtUnix > nowUnix then some (s.put i .send).release
        else some (s.put i (.refresh .ensureFresh session))
    | _ => none
  | .answer i unauthorized, s =>
    match s.phase i with
    | .send => some (s.put i (if unauthorized then .unauthorized else .done))
    | .resend =>
      if unauthorized then some { (s.put i .done).release with keyring := none }
      else some (s.put i .done).release
    | _ => none
  | .reread i, s =>
    match s.phase i with
    | .unauthorized =>
      match s.keyring with
      | none => some (s.put i .done)
      | some session => some (s.put i (.waiting session))
    | _ => none
  | .serve i verified, s =>
    match s.phase i with
    | .refresh caller session =>
      if session.refreshToken.jwt = "" then some (s.put i .done).release
      else
        let (reply, server) := refresh env refreshTtlSeconds verified (some session.refreshToken) s.server
        some { s.put i (.refreshed caller reply) with server := server }
    | _ => none
  | .receive i expiresAtUnix, s =>
    match s.phase i with
    | .refreshed _ (.refused _) => some (s.put i .done).release
    | .refreshed caller (.session token) =>
      let session : OverlaySession := ⟨token, expiresAtUnix⟩
      let s := { s.put i caller.next with keyring := some session, written := session }
      match caller with
      | .ensureFresh => some s.release
      | .retry => some s
    | _ => none

/-! ## The condition -/

/-- A request that takes the mutex after a 401 does so with the session that was last written. -/
def TakesLatest : OverlayLabel ι → OverlayState ι → Prop
  | .lock i, s => ∀ session, s.phase i = .waiting session → session = s.written
  | _, _ => True

instance (l : OverlayLabel ι) (s : OverlayState ι) : Decidable (TakesLatest l s) :=
  match l with
  | .lock i =>
    match h : s.phase i with
    | .waiting session => decidable_of_iff (session = s.written) (by simp [TakesLatest, h])
    | .ensure | .stale | .recheck | .send | .unauthorized | .refresh _ _ | .refreshed _ _ | .resend | .done =>
      .isTrue (by simp [TakesLatest, h])
  | .ensure _ _ | .recheck _ _ | .answer _ _ | .reread _ | .serve _ _ | .receive _ _ => .isTrue trivial

/-- The process after a login. -/
structure OverlayStart (env : AuthEnv) (s : OverlayState ι) : Prop where
  sound : s.server.Sound
  keyring : s.keyring = some s.written
  live : s.written.refreshToken.Live env s.server.store
  free : s.refreshMtx = none
  phase : ∀ i, s.phase i = .ensure

/-! ## The invariant -/

/-- The token that a client has, or that is on its way to it. -/
def OverlayState.latest (s : OverlayState ι) : RefreshToken :=
  match s.refreshMtx with
  | none => s.written.refreshToken
  | some i =>
    match s.phase i with
    | .refreshed _ (.session token) => token
    | _ => s.written.refreshToken

structure OverlayInv (env : AuthEnv) (s : OverlayState ι) : Prop where
  sound : s.server.Sound
  live : s.latest.Live env s.server.store
  keyring : ∀ session, s.keyring = some session → session = s.written
  mutex : ∀ i, (s.phase i).holds = true ↔ s.refreshMtx = some i
  presents : ∀ i caller session, s.phase i = .refresh caller session → session = s.written

variable {env : AuthEnv} {refreshTtlSeconds : Nat} {s t : OverlayState ι} {i : ι} {p : RequestPhase}

omit [DecidableEq ι] in
theorem OverlayStart.inv (h : OverlayStart env s) : OverlayInv env s where
  sound := h.sound
  live := by
    have hlatest : s.latest = s.written.refreshToken := by rw [OverlayState.latest, h.free]
    rw [hlatest]
    exact h.live
  keyring session hsession := by
    rw [h.keyring] at hsession
    exact (Option.some.inj hsession).symm
  mutex i := by simp [h.phase, h.free, RequestPhase.holds]
  presents i caller session hi := by simp [h.phase] at hi

omit [DecidableEq ι] in
theorem OverlayState.latest_written (h : ∀ i, s.refreshMtx = some i → ∀ caller token,
    s.phase i ≠ .refreshed caller (.session token)) : s.latest = s.written.refreshToken := by
  rw [OverlayState.latest]
  split
  · rfl
  · rename_i i hi
    split
    · rename_i hphase
      exact absurd hphase (h i hi _ _)
    · rfl

omit [DecidableEq ι] in
theorem OverlayInv.free (h : OverlayInv env s) (hfree : s.refreshMtx = none) (i : ι) : (s.phase i).holds = false := by
  cases hholds : (s.phase i).holds with
  | false => rfl
  | true =>
    have hmutex := (h.mutex i).mp hholds
    rw [hfree] at hmutex
    cases hmutex

omit [DecidableEq ι] in
theorem OverlayInv.apart (h : OverlayInv env s) (hi : (s.phase i).holds = false) : s.refreshMtx ≠ some i := by
  intro hmutex
  rw [(h.mutex i).mpr hmutex] at hi
  cases hi

omit [DecidableEq ι] in
theorem RequestPhase.ne_refresh (hp : p.holds = false) (caller : RefreshCaller) (session : OverlaySession) :
    p ≠ .refresh caller session := by
  rintro rfl
  cases hp

theorem OverlayInv.outside (h : OverlayInv env s) (hi : (s.phase i).holds = false) (hp : p.holds = false) :
    OverlayInv env (s.put i p) where
  sound := h.sound
  live := by
    have hlatest : (s.put i p).latest = s.latest := by
      simp only [OverlayState.latest, OverlayState.put]
      cases hmutex : s.refreshMtx with
      | none => rfl
      | some j =>
        have hne : j ≠ i := by
          rintro rfl
          exact h.apart hi hmutex
        simp only [Function.update_of_ne hne]
    rw [hlatest]
    exact h.live
  keyring := h.keyring
  mutex j := by
    by_cases hj : j = i
    · subst hj
      simp only [OverlayState.put, Function.update_self, hp, Bool.false_eq_true, false_iff]
      exact h.apart hi
    · simp only [OverlayState.put, Function.update_of_ne hj]
      exact h.mutex j
  presents j caller session hj := by
    by_cases he : j = i
    · subst he
      simp only [OverlayState.put, Function.update_self] at hj
      exact absurd hj (RequestPhase.ne_refresh hp caller session)
    · simp only [OverlayState.put, Function.update_of_ne he] at hj
      exact h.presents j caller session hj

/-- The holder `i` goes on under the mutex with the tokens as they were. -/
theorem OverlayInv.inside (h : OverlayInv env s) (hothers : ∀ j, j ≠ i → (s.phase j).holds = false)
    (hlatest : s.latest = s.written.refreshToken) (hp : p.holds = true) (hreply : ∀ caller reply, p ≠ .refreshed caller reply)
    (hpresents : ∀ caller session, p = .refresh caller session → session = s.written) :
    OverlayInv env { s.put i p with refreshMtx := some i } where
  sound := h.sound
  live := by
    have hnew : OverlayState.latest { s.put i p with refreshMtx := some i } = s.written.refreshToken := by
      refine OverlayState.latest_written fun j hj caller token => ?_
      cases hj
      simp only [OverlayState.put, Function.update_self]
      exact hreply caller _
    rw [hnew, ← hlatest]
    exact h.live
  keyring := h.keyring
  mutex j := by
    by_cases hj : j = i
    · subst hj
      simp [OverlayState.put, hp]
    · have hne : ¬ i = j := fun he => hj he.symm
      simp [OverlayState.put, Function.update_of_ne hj, hothers j hj, hne]
  presents j caller session hj := by
    by_cases he : j = i
    · subst he
      simp only [OverlayState.put, Function.update_self] at hj
      exact hpresents caller session hj
    · simp only [OverlayState.put, Function.update_of_ne he] at hj
      exact h.presents j caller session hj

omit [DecidableEq ι] in
theorem OverlayInv.others (h : OverlayInv env s) (hi : (s.phase i).holds = true) {j : ι} (hj : j ≠ i) :
    (s.phase j).holds = false := by
  cases hholds : (s.phase j).holds with
  | false => rfl
  | true =>
    have hmutex := (h.mutex j).mp hholds
    rw [(h.mutex i).mp hi] at hmutex
    exact absurd (Option.some.inj hmutex).symm hj

omit [DecidableEq ι] in
theorem OverlayInv.latest_of_phase (h : OverlayInv env s) (hi : (s.phase i).holds = true)
    (hphase : ∀ caller token, s.phase i ≠ .refreshed caller (.session token)) :
    s.latest = s.written.refreshToken := by
  refine OverlayState.latest_written fun j hj => ?_
  rw [(h.mutex i).mp hi] at hj
  cases hj
  exact hphase

theorem OverlayInv.releases (h : OverlayInv env s) (hi : (s.phase i).holds = true)
    (hlatest : s.latest = s.written.refreshToken) (hp : p.holds = false) : OverlayInv env (s.put i p).release := by
  constructor
  · exact h.sound
  · have hnew : OverlayState.latest (s.put i p).release = s.written.refreshToken :=
      OverlayState.latest_written fun j hj => by cases hj
    rw [hnew, ← hlatest]
    exact h.live
  · exact h.keyring
  · intro j
    by_cases hj : j = i
    · subst hj
      simp [OverlayState.put, OverlayState.release, hp]
    · simp [OverlayState.put, OverlayState.release, Function.update_of_ne hj, h.others hi hj]
  · intro j caller session hj
    by_cases he : j = i
    · subst he
      simp only [OverlayState.put, OverlayState.release, Function.update_self] at hj
      exact absurd hj (RequestPhase.ne_refresh hp caller session)
    · simp only [OverlayState.put, OverlayState.release, Function.update_of_ne he] at hj
      exact h.presents j caller session hj

omit [DecidableEq ι] in
theorem OverlayInv.clears (h : OverlayInv env s) : OverlayInv env { s with keyring := none } where
  sound := h.sound
  live := h.live
  keyring session hsession := by cases hsession
  mutex := h.mutex
  presents := h.presents

theorem OverlayInv.serves (h : OverlayInv env s) {caller : RefreshCaller} {session : OverlaySession}
    (hi : s.phase i = .refresh caller session) {reply : RefreshReply} {server : RefreshServer}
    (hrefreshed : Refreshed env session.refreshToken reply server) :
    OverlayInv env { s.put i (.refreshed caller reply) with server := server } := by
  have hholds : (s.phase i).holds = true := by rw [hi]; rfl
  have hmutex := (h.mutex i).mp hholds
  have hsession := h.presents i caller session hi
  have hlatest : OverlayState.latest { s.put i (.refreshed caller reply) with server := server } =
      reply.leaves session.refreshToken := by
    simp only [OverlayState.latest, OverlayState.put, hmutex, Function.update_self]
    cases reply with
    | session token => rfl
    | refused status => exact congrArg OverlaySession.refreshToken hsession.symm
  constructor
  · exact hrefreshed.sound
  · rw [hlatest]
    exact hrefreshed.live
  · exact h.keyring
  · intro j
    by_cases hj : j = i
    · subst hj
      simp [OverlayState.put, hmutex, RequestPhase.holds]
    · have hne : ¬ i = j := fun he => hj he.symm
      simp [OverlayState.put, Function.update_of_ne hj, h.others hholds hj, hmutex, hne]
  · intro j caller' session' hj
    by_cases he : j = i
    · subst he
      simp [OverlayState.put] at hj
    · simp only [OverlayState.put, Function.update_of_ne he] at hj
      exact h.presents j caller' session' hj

omit [DecidableEq ι] in
theorem OverlayInv.writes (h : OverlayInv env s) {caller : RefreshCaller} {token : RefreshToken}
    (hi : s.phase i = .refreshed caller (.session token)) (expiresAtUnix : Nat) :
    OverlayInv env { s with keyring := some ⟨token, expiresAtUnix⟩, written := ⟨token, expiresAtUnix⟩ } := by
  have hholds : (s.phase i).holds = true := by rw [hi]; rfl
  have hmutex := (h.mutex i).mp hholds
  have hlatest : s.latest = token := by simp only [OverlayState.latest, hmutex, hi]
  have hnew : OverlayState.latest { s with keyring := some ⟨token, expiresAtUnix⟩, written := ⟨token, expiresAtUnix⟩ } =
      token := by simp only [OverlayState.latest, hmutex, hi]
  constructor
  · exact h.sound
  · rw [hnew, ← hlatest]
    exact h.live
  · intro session hsession
    exact (Option.some.inj hsession).symm
  · exact h.mutex
  · intro j caller' session hj
    by_cases he : j = i
    · subst he
      rw [hi] at hj
      cases hj
    · have hfree := h.others hholds he
      rw [hj] at hfree
      cases hfree

theorem OverlayInv.next (h : OverlayInv env s) {l : OverlayLabel ι} (hl : TakesLatest l s)
    (hs : overlayStep env refreshTtlSeconds l s = some t) : OverlayInv env t := by
  cases l with
  | ensure i nowUnix =>
    simp only [overlayStep] at hs
    split at hs
    · rename_i hi
      have hfree : (s.phase i).holds = false := by rw [hi]; rfl
      split at hs
      · cases hs
        exact h.outside hfree rfl
      · cases hs
        refine h.outside hfree ?_
        split <;> rfl
    · cases hs
  | lock i =>
    simp only [overlayStep] at hs
    split at hs
    · cases hs
    · rename_i hmutex
      have hmutex : s.refreshMtx = none := by simpa using hmutex
      have hothers : ∀ j, j ≠ i → (s.phase j).holds = false := fun j _ => h.free hmutex j
      have hlatest : s.latest = s.written.refreshToken :=
        OverlayState.latest_written fun j hj => by rw [hmutex] at hj; cases hj
      split at hs
      · cases hs
        exact h.inside hothers hlatest rfl (fun _ _ he => by cases he) fun _ _ he => by cases he
      · rename_i session hi
        cases hs
        refine h.inside hothers hlatest rfl (fun _ _ he => by cases he) fun caller session' he => ?_
        cases he
        exact hl session hi
      · cases hs
  | recheck i nowUnix =>
    simp only [overlayStep] at hs
    split at hs
    · rename_i hi
      have hholds : (s.phase i).holds = true := by rw [hi]; rfl
      have hlatest := h.latest_of_phase hholds fun caller token he => by rw [hi] at he; cases he
      split at hs
      · cases hs
        exact h.releases hholds hlatest rfl
      · rename_i session hsession
        split at hs
        · cases hs
          exact h.releases hholds hlatest rfl
        · cases hs
          have hnext := h.inside (fun j hj => h.others hholds hj) hlatest
            (p := .refresh .ensureFresh session) rfl (fun _ _ he => by cases he) fun _ _ he => by
              cases he
              exact h.keyring session hsession
          rw [← (h.mutex i).mp hholds] at hnext
          exact hnext
    · cases hs
  | answer i unauthorized =>
    simp only [overlayStep] at hs
    split at hs
    · rename_i hi
      cases hs
      refine h.outside (by rw [hi]; rfl) ?_
      split <;> rfl
    · rename_i hi
      have hholds : (s.phase i).holds = true := by rw [hi]; rfl
      have hlatest := h.latest_of_phase hholds fun caller token he => by rw [hi] at he; cases he
      have hdone := h.releases (p := .done) hholds hlatest rfl
      split at hs
      · cases hs
        exact hdone.clears
      · cases hs
        exact hdone
    · cases hs
  | reread i =>
    simp only [overlayStep] at hs
    split at hs
    · rename_i hi
      have hfree : (s.phase i).holds = false := by rw [hi]; rfl
      split at hs <;> cases hs <;> exact h.outside hfree rfl
    · cases hs
  | serve i verified =>
    simp only [overlayStep] at hs
    split at hs
    · rename_i caller session hi
      have hholds : (s.phase i).holds = true := by rw [hi]; rfl
      have hlatest := h.latest_of_phase hholds fun caller token he => by rw [hi] at he; cases he
      split at hs
      · cases hs
        exact h.releases hholds hlatest rfl
      · cases hs
        refine h.serves hi (refresh_live h.sound ?_ verified)
        rw [h.presents i caller session hi, ← hlatest]
        exact h.live
    · cases hs
  | receive i expiresAtUnix =>
    simp only [overlayStep] at hs
    split at hs
    · rename_i hi
      cases hs
      refine h.releases (by rw [hi]; rfl) (h.latest_of_phase (by rw [hi]; rfl) fun caller token he => ?_) rfl
      rw [hi] at he
      cases he
    · rename_i caller token hi
      have hwritten := h.writes hi expiresAtUnix
      have hholds : (s.phase i).holds = true := by rw [hi]; rfl
      have hlatest : OverlayState.latest
          { s with keyring := some ⟨token, expiresAtUnix⟩, written := ⟨token, expiresAtUnix⟩ } = token := by
        simp only [OverlayState.latest, (h.mutex i).mp hholds, hi]
      cases caller with
      | ensureFresh =>
        cases hs
        exact hwritten.releases hholds hlatest rfl
      | retry =>
        cases hs
        have hnext := hwritten.inside (fun j hj => h.others hholds hj) hlatest (p := .resend) rfl
          (fun _ _ he => by cases he) fun _ _ he => by cases he
        rw [← (hwritten.mutex i).mp hholds] at hnext
        exact hnext
    · cases hs

/-- In every run in which each request after a 401 takes the mutex with the session last written, no
token is reused. -/
theorem overlay_never_reused (h : OverlayStart env s)
    (hr : Reaches (overlayStep env refreshTtlSeconds) TakesLatest s t) : NeverReused t.server.calls :=
  (hr.invariant h.inv fun _ _ _ hinv hl hs => hinv.next hl hs).sound.never

end Overlay

end Lumogis
