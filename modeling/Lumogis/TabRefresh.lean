import Lumogis.OverlayRefresh

/-!
# TabRefresh

The refreshes of web-client tabs: `tryRefresh` of `client.ts`. The tabs share the cookie jar of the
browser, and each has its own `refreshInFlight`.

`honest_refresh`: neither the requests of an overlay process nor the tabs ever have a refresh token
reused, in every run in which a request takes the latest session under the mutex and a tab refreshes
alone. `honest_reuse` has the two runs without that.
-/

namespace Lumogis

open Labelled

/-- `refreshInFlight` of a tab. -/
inductive TabPhase where
  | idle
  /-- The browser has sent the cookie of the jar. -/
  | sent (cookie : Option RefreshToken)
  /-- The answer is on its way. -/
  | answered (reply : RefreshReply)

structure TabState (ι : Type) where
  server : RefreshServer
  /-- The cookie `lumogis_refresh`. -/
  jar : Option RefreshToken
  phase : ι → TabPhase := fun _ => .idle

inductive TabLabel (ι : Type) where
  /-- A request of the tab was answered with a 401. -/
  | unauthorized (i : ι)
  | serve (i : ι) (verified : Bool)
  | receive (i : ι)

section Tabs

variable {ι : Type} [DecidableEq ι]

/-- `clears` says whether a refusal clears the cookie in the browser. -/
def tabStep (env : AuthEnv) (refreshTtlSeconds : Nat) (clears : Bool) : TabLabel ι → TabState ι → Option (TabState ι)
  | .unauthorized i, s =>
    match s.phase i with
    | .idle => some { s with phase := Function.update s.phase i (.sent s.jar) }
    -- The caller shares the refresh that is in flight.
    | _ => some s
  | .serve i verified, s =>
    match s.phase i with
    | .sent cookie =>
      let (reply, server) := refresh env refreshTtlSeconds verified cookie s.server
      some { s with server := server, phase := Function.update s.phase i (.answered reply) }
    | _ => none
  | .receive i, s =>
    match s.phase i with
    | .answered (.session token) => some { s with jar := some token, phase := Function.update s.phase i .idle }
    | .answered (.refused _) =>
      some { s with jar := if clears then none else s.jar, phase := Function.update s.phase i .idle }
    | _ => none

/-! ## The condition -/

/-- A tab that starts a refresh does so while no other tab has one in flight. -/
def RefreshesAlone : TabLabel ι → TabState ι → Prop
  | .unauthorized i, s => s.phase i = .idle → ∀ j, j ≠ i → s.phase j = .idle
  | _, _ => True

/-- The tabs after a login. -/
structure TabStart (env : AuthEnv) (s : TabState ι) : Prop where
  sound : s.server.Sound
  live : ∀ token, s.jar = some token → token.Live env s.server.store
  phase : ∀ i, s.phase i = .idle

/-! ## The invariant -/

/-- What the tab presents, or will have, is live. -/
def TabPhase.Live (env : AuthEnv) (s : TabState ι) : TabPhase → Prop
  | .idle => True
  | .sent cookie => cookie = s.jar ∧ ∀ token, s.jar = some token → token.Live env s.server.store
  | .answered (.session token) => token.Live env s.server.store
  | .answered (.refused _) => ∀ token, s.jar = some token → token.Live env s.server.store

structure TabInv (env : AuthEnv) (s : TabState ι) : Prop where
  sound : s.server.Sound
  live : ∀ i, (s.phase i).Live env s
  /-- The jar, while no answer has a new cookie. -/
  jar : (∀ i, s.phase i = .idle) → ∀ token, s.jar = some token → token.Live env s.server.store
  one : ∀ i, s.phase i ≠ .idle → ∀ j, j ≠ i → s.phase j = .idle

variable {env : AuthEnv} {refreshTtlSeconds : Nat} {clears : Bool} {s t : TabState ι} {i : ι} {p : TabPhase}

omit [DecidableEq ι] in
theorem TabStart.inv (h : TabStart env s) : TabInv env s where
  sound := h.sound
  live i := by
    rw [h.phase]
    trivial
  jar _ := h.live
  one i hi := absurd (h.phase i) hi

omit [DecidableEq ι] in
theorem TabInv.others (h : TabInv env s) (hi : s.phase i ≠ .idle) {j : ι} (hj : j ≠ i) : s.phase j = .idle :=
  h.one i hi j hj

theorem TabInv.moves {s' : TabState ι} (hphase : s'.phase = Function.update s.phase i p)
    (hothers : ∀ j, j ≠ i → s.phase j = .idle) (hsound : s'.server.Sound) (hlive : p.Live env s')
    (hjar : p = .idle → ∀ token, s'.jar = some token → token.Live env s'.server.store) : TabInv env s' where
  sound := hsound
  live j := by
    by_cases hj : j = i
    · subst hj
      rw [hphase, Function.update_self]
      exact hlive
    · rw [hphase, Function.update_of_ne hj, hothers j hj]
      trivial
  jar hidle := by
    have hi := hidle i
    rw [hphase, Function.update_self] at hi
    exact hjar hi
  one j hj k hk := by
    rw [hphase] at hj ⊢
    have hji : j = i := by
      by_contra hne
      rw [Function.update_of_ne hne] at hj
      exact hj (hothers j hne)
    subst hji
    rw [Function.update_of_ne hk]
    exact hothers k hk

theorem TabInv.next (h : TabInv env s) {l : TabLabel ι} (hl : RefreshesAlone l s)
    (hs : tabStep env refreshTtlSeconds clears l s = some t) : TabInv env t := by
  cases l with
  | unauthorized i =>
    simp only [tabStep] at hs
    split at hs
    · rename_i hi
      cases hs
      have hothers := hl hi
      have hidle : ∀ j, s.phase j = .idle := by
        intro j
        by_cases hj : j = i
        · rw [hj, hi]
        · exact hothers j hj
      exact TabInv.moves rfl hothers h.sound ⟨rfl, h.jar hidle⟩ fun he => by cases he
    · cases hs
      exact h
  | serve i verified =>
    simp only [tabStep] at hs
    split at hs
    · rename_i cookie hi
      cases hs
      have hothers := fun j hj => h.others (i := i) (by simp [hi]) (j := j) hj
      obtain ⟨hcookie, hlive⟩ : TabPhase.Live env s (.sent cookie) := hi ▸ h.live i
      cases hjar : s.jar with
      | none =>
        rw [hcookie, hjar]
        refine TabInv.moves rfl hothers h.sound (fun token htoken => ?_) fun he => by cases he
        cases htoken
      | some token =>
        have hrefreshed : Refreshed env token (refresh env refreshTtlSeconds verified (some token) s.server).1
            (refresh env refreshTtlSeconds verified (some token) s.server).2 :=
          refresh_live h.sound (hlive token hjar) verified
        rw [hcookie, hjar]
        refine TabInv.moves rfl hothers hrefreshed.sound ?_ fun he => by cases he
        have hleft := hrefreshed.live
        cases hreply : (refresh env refreshTtlSeconds verified (some token) s.server).1 with
        | session token' =>
          rw [hreply] at hleft
          exact hleft
        | refused status =>
          rw [hreply] at hleft
          intro token' htoken'
          cases htoken'
          exact hleft
    · cases hs
  | receive i =>
    simp only [tabStep] at hs
    split at hs
    · rename_i token hi
      cases hs
      have hlive : TabPhase.Live env s (.answered (.session token)) := hi ▸ h.live i
      refine TabInv.moves rfl (fun j hj => h.others (by simp [hi]) hj) h.sound trivial fun _ token' htoken' => ?_
      cases htoken'
      exact hlive
    · rename_i status hi
      cases hs
      have hlive : TabPhase.Live env s (.answered (.refused status)) := hi ▸ h.live i
      refine TabInv.moves rfl (fun j hj => h.others (by simp [hi]) hj) h.sound trivial fun _ token htoken => ?_
      cases clears with
      | true => cases htoken
      | false => exact hlive token htoken
    · cases hs

theorem tabs_never_reused (h : TabStart env s)
    (hr : Reaches (tabStep env refreshTtlSeconds clears) RefreshesAlone s t) : NeverReused t.server.calls :=
  (hr.invariant h.inv fun _ _ _ hinv hl hs => hinv.next hl hs).sound.never

end Tabs

/-- No token is reused by an overlay process in which each request after a 401 takes the mutex with the
session last written, nor by tabs of which only one has a refresh in flight. -/
theorem honest_refresh (env : AuthEnv) (refreshTtlSeconds : Nat) (clears : Bool) {ι : Type} [DecidableEq ι] :
    (∀ s t : OverlayState ι, OverlayStart env s → Reaches (overlayStep env refreshTtlSeconds) TakesLatest s t →
      NeverReused t.server.calls) ∧
    ∀ s t : TabState ι, TabStart env s → Reaches (tabStep env refreshTtlSeconds clears) RefreshesAlone s t →
      NeverReused t.server.calls :=
  ⟨fun _ _ h hr => overlay_never_reused h hr, fun _ _ h hr => tabs_never_reused h hr⟩

namespace HonestExample

open RotationExample

def token : RefreshToken := ⟨"alice", "s", "token"⟩

def server : RefreshServer :=
  { store :=
      { tables := { authSessions := [session], users := [⟨"alice", "", false, 1⟩] }
        saved := none, now := 1, drawn := 1 } }

theorem server_sound : server.Sound where
  closed := rfl
  nodup := by decide
  spent call hcall := by cases hcall
  never := ⟨List.Pairwise.nil, fun call hcall => by cases hcall⟩

theorem token_live : token.Live env server.store := ⟨session, by decide, rfl, rfl, rfl, rfl⟩

def overlay : OverlayState Bool := { server := server, keyring := some ⟨token, 900⟩, written := ⟨token, 900⟩ }

theorem overlay_start : OverlayStart env overlay where
  sound := server_sound
  keyring := rfl
  live := token_live
  free := rfl
  phase _ := rfl

def tabs : TabState Bool := { server := server, jar := some token }

theorem tabs_start : TabStart env tabs where
  sound := server_sound
  live t ht := by
    cases ht
    exact token_live
  phase _ := rfl

/-- Two requests are answered with a 401 and read the session, then they refresh in turn. -/
def overlayRun : List (OverlayLabel Bool) :=
  [.ensure false 0, .ensure true 0, .answer false true, .answer true true, .reread false, .reread true,
    .lock false, .serve false true, .receive false 900, .answer false false, .lock true, .serve true true]

/-- Two tabs are answered with a 401, and both send the cookie. -/
def tabRun : List (TabLabel Bool) := [.unauthorized false, .unauthorized true, .serve false true, .serve true true]

/-- The calls of both runs. -/
def reusedCalls : List RotateCall := [⟨token, .error .refreshReuse⟩, ⟨token, .ok "u"⟩]

theorem reused : ¬ NeverReused reusedCalls := by
  intro h
  exact h.kept ⟨token, .error .refreshReuse⟩ List.mem_cons_self rfl

end HonestExample

section Examples

open HonestExample RotationExample

/-- One request that takes the latest session, and two tabs that refresh in turn. -/
theorem honest_refresh_alone :
    NeverReused (runTo (overlayStep env 60) [.ensure false 0, .answer false true, .reread false, .lock false,
      .serve false true] overlay).server.calls ∧
    NeverReused (runTo (tabStep env 60 true) [.unauthorized false, .serve false true, .receive false,
      .unauthorized true, .serve true true] tabs).server.calls := by
  obtain ⟨hoverlay, htabs⟩ := honest_refresh env 60 true (ι := Bool)
  constructor
  · exact hoverlay overlay _ overlay_start (reaches_runTo (by decide) (by decide))
  · refine htabs tabs _ tabs_start (reaches_runTo (by decide) ?_)
    refine ⟨fun _ _ _ => rfl, fun t ht => ?_⟩
    cases ht
    refine ⟨trivial, fun t ht => ?_⟩
    cases ht
    refine ⟨trivial, fun t ht => ?_⟩
    cases ht
    refine ⟨fun _ j hj => ?_, fun t ht => ?_⟩
    · cases j with
      | false => rfl
      | true => exact absurd rfl hj
    cases ht
    exact ⟨trivial, fun _ _ => trivial⟩

/-- In the overlay process the second request presents the token that the first has rotated, and so does
the second of two tabs; the family is revoked. -/
theorem honest_reuse :
    (∃ t, Reaches (overlayStep env 60) (fun _ _ => True) overlay t ∧ t.server.calls = reusedCalls ∧
      ¬ NeverReused t.server.calls) ∧
    ∃ t, Reaches (tabStep env 60 false) (fun _ _ => True) tabs t ∧ t.server.calls = reusedCalls ∧
      ¬ NeverReused t.server.calls := by
  have hoverlay : (runTo (overlayStep env 60) overlayRun overlay).server.calls = reusedCalls := by decide
  have htabs : (runTo (tabStep env 60 false) tabRun tabs).server.calls = reusedCalls := by decide
  refine ⟨⟨runTo (overlayStep env 60) overlayRun overlay, reaches_runTo (by decide) (by decide), hoverlay, ?_⟩,
    ⟨runTo (tabStep env 60 false) tabRun tabs, reaches_runTo (by decide) (by decide), htabs, ?_⟩⟩
  · rw [hoverlay]
    exact reused
  · rw [htabs]
    exact reused

end Examples

end Lumogis
