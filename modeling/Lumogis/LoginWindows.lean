import Lumogis.LoginThrottle

/-!
# LoginWindows

The windows of `login`. For an address and for an email the calls, the bucket and the failures since the
last success are a throttle (`Key.tally`), and every step of `loginStep` is one of its steps. So in a run in
which the calls in flight are counted on admission no window has more failures than the limit
(`login_throttled`). Calls that overlap are admitted on one count (`six_guesses`).
-/

namespace Lumogis.Logins

open Labelled Throttle

/-! ## A key of the limiter -/

/-- What the limiter does for the calls of one address or email. -/
structure Key where
  covers : LoginCall → Bool
  bucket : FailureRateLimiter → List ℚ
  /-- A success of the call clears the bucket. -/
  resets : LoginCall → Bool
  checked : ∀ now (call : LoginCall) limiter,
    bucket (rateCheck now call.ip call.emailKey limiter).2 = bucket limiter ∨
      bucket (rateCheck now call.ip call.emailKey limiter).2 =
        pruned (now - RATE_WINDOW_SECONDS) (bucket limiter)
  admitting : ∀ now call limiter, covers call = true → (rateCheck now call.ip call.emailKey limiter).1 = true →
    bucket (rateCheck now call.ip call.emailKey limiter).2 =
      pruned (now - RATE_WINDOW_SECONDS) (bucket limiter)
  recorded : ∀ now (call : LoginCall) limiter,
    bucket (rateRecordFailure now call.ip call.emailKey limiter) =
      bucket limiter ++ if covers call then [now] else []
  cleared : ∀ (call : LoginCall) limiter,
    bucket (rateRecordSuccess call.emailKey limiter) = if resets call then [] else bucket limiter

theorem rateCheck_ip (now : ℚ) (keyIp keySecondary : String) (limiter : FailureRateLimiter) :
    (rateCheck now keyIp keySecondary limiter).2.ip =
      Function.update limiter.ip keyIp (pruned (now - RATE_WINDOW_SECONDS) (limiter.ip keyIp)) := by
  simp only [rateCheck]
  split <;> rfl

theorem rateCheck_secondary (now : ℚ) (keyIp keySecondary : String) (limiter : FailureRateLimiter) :
    (rateCheck now keyIp keySecondary limiter).2.secondary = limiter.secondary ∨
      (rateCheck now keyIp keySecondary limiter).2.secondary =
        Function.update limiter.secondary keySecondary
          (pruned (now - RATE_WINDOW_SECONDS) (limiter.secondary keySecondary)) := by
  simp only [rateCheck]
  split
  · exact .inl rfl
  · exact .inr rfl

theorem rateCheck_admitting {now : ℚ} {keyIp keySecondary : String} {limiter : FailureRateLimiter}
    (h : (rateCheck now keyIp keySecondary limiter).1 = true) :
    (rateCheck now keyIp keySecondary limiter).2.secondary =
      Function.update limiter.secondary keySecondary
        (pruned (now - RATE_WINDOW_SECONDS) (limiter.secondary keySecondary)) := by
  simp only [rateCheck] at h ⊢
  split at h
  · cases h
  · rename_i hfull
    rw [if_neg hfull]

theorem update_pruned {f : String → List ℚ} {key other : String} {cutoff : ℚ} :
    Function.update f key (pruned cutoff (f key)) other = f other ∨
      Function.update f key (pruned cutoff (f key)) other = pruned cutoff (f other) := by
  by_cases hkey : other = key
  · rw [hkey, Function.update_self]
    exact .inr rfl
  · exact .inl (Function.update_of_ne hkey _ _)

theorem update_append {f : String → List ℚ} {key other : String} {now : ℚ} :
    Function.update f key (f key ++ [now]) other = f other ++ if key = other then [now] else [] := by
  by_cases hkey : key = other
  · rw [if_pos hkey, hkey, Function.update_self]
  · rw [if_neg hkey, List.append_nil, Function.update_of_ne (Ne.symm hkey)]

def ipKey (ip : String) : Key where
  covers := fun call => call.ip = ip
  bucket := fun limiter => limiter.ip ip
  resets := fun _ => false
  checked := by
    intro now call limiter
    rw [rateCheck_ip]
    exact update_pruned
  admitting := by
    intro now call limiter hcovers _
    rw [rateCheck_ip, of_decide_eq_true hcovers, Function.update_self]
  recorded := by
    intro now call limiter
    simp only [decide_eq_true_eq]
    exact update_append
  cleared := fun _ _ => rfl

def emailKey (emailKey : String) : Key where
  covers := fun call => call.emailKey = emailKey
  bucket := fun limiter => limiter.secondary emailKey
  resets := fun call => call.emailKey = emailKey
  checked := by
    intro now call limiter
    rcases rateCheck_secondary now call.ip call.emailKey limiter with hsame | hpruned
    · exact .inl (congrFun hsame _)
    · rw [hpruned]
      exact update_pruned
  admitting := by
    intro now call limiter hcovers hok
    rw [rateCheck_admitting hok, of_decide_eq_true hcovers, Function.update_self]
  recorded := by
    intro now call limiter
    simp only [decide_eq_true_eq]
    exact update_append
  cleared := by
    intro call limiter
    simp only [rateRecordSuccess, decide_eq_true_eq]
    by_cases hkey : call.emailKey = emailKey
    · rw [if_pos hkey, hkey, Function.update_self]
    · rw [if_neg hkey, Function.update_of_ne (Ne.symm hkey)]

/-! ## Its tally -/

def LoginEvent.isReset (k : Key) : LoginEvent → Bool
  | .failed _ _ => false
  | .loggedIn call => k.resets call

def LoginEvent.failureOf (k : Key) : LoginEvent → Option ℚ
  | .failed call time => if k.covers call then some time else none
  | .loggedIn _ => none

/-- The events since the last success that clears the bucket. -/
def Key.current (k : Key) (events : List LoginEvent) : List LoginEvent := events.takeWhile fun e => !e.isReset k

/-- Failed, and to be recorded with a time that is not before `a`. -/
def LoginPhase.unrecorded (a : ℚ) : LoginPhase → Bool
  | .unverified => true
  | .recording now => a ≤ now
  | _ => false

def Key.tally (k : Key) (s : LoginState) : Tally ℚ where
  clock := s.clock
  bucket := k.bucket s.limiter
  inFlight := s.count k.covers LoginPhase.inFlight
  unrecorded := fun a => s.count k.covers (LoginPhase.unrecorded a)
  failures := (k.current s.events).filterMap (LoginEvent.failureOf k)

def Key.Sound (k : Key) (s : LoginState) : Prop := (k.tally s).Sound RATE_WINDOW_SECONDS RATE_MAX_FAILURES

section
variable {p : LoginCall → Bool} {s : LoginState} {i : Nat} {call : LoginCall} {phase phase' : LoginPhase}

theorem count_setPhase (h : s.calls[i]? = some (call, phase)) (q : LoginPhase → Bool) (phase' : LoginPhase) :
    (s.setPhase i call phase').count p q + (p call && q phase).toNat =
      s.count p q + (p call && q phase').toNat := by
  obtain ⟨hi, hget⟩ := List.getElem?_eq_some_iff.mp h
  simp only [LoginState.count, LoginState.setPhase]
  rw [List.countP_set hi, hget]
  have hpos : (p call && q phase) = true → 0 < s.calls.countP fun c => p c.1 && q c.2 := by
    intro hq
    exact List.countP_pos_iff.mpr ⟨(call, phase), List.mem_of_getElem? h, hq⟩
  cases hq : (p call && q phase) <;> cases hq' : (p call && q phase')
  · simp
  · simp
  · have := hpos hq
    simp
    omega
  · have := hpos hq
    simp
    omega

theorem count_setPhase_same (h : s.calls[i]? = some (call, phase)) {q : LoginPhase → Bool}
    (hsame : p call = false ∨ q phase' = q phase) : (s.setPhase i call phase').count p q = s.count p q := by
  have hcount := count_setPhase (p := p) h q phase'
  rcases hsame with hp | hq
  · simpa [hp] using hcount
  · rw [hq] at hcount
    omega

theorem unrecorded_le_inFlight (s : LoginState) (a : ℚ) :
    s.count p (LoginPhase.unrecorded a) ≤ s.count p LoginPhase.inFlight := by
  refine List.countP_mono_left ?_
  rintro ⟨call, phase⟩ _ h
  simp only [Bool.and_eq_true] at h ⊢
  refine ⟨h.1, ?_⟩
  cases phase <;> simp_all [LoginPhase.unrecorded, LoginPhase.inFlight]

end

/-! ## One step -/

/-- No check has read a time that is yet to come. -/
def Read (s : LoginState) : Prop := ∀ c ∈ s.calls, ∀ now, c.2 = .checking now → now ≤ s.clock

/-- The admission of a call of the key counts the calls in flight. -/
def Key.Room (k : Key) (s : LoginState) (call : LoginCall) (now : ℚ) : Prop :=
  (pruned (now - RATE_WINDOW_SECONDS) (k.bucket s.limiter)).length + s.count k.covers LoginPhase.inFlight <
    RATE_MAX_FAILURES

section
variable {k : Key} {s : LoginState} {i : Nat} {call : LoginCall}

theorem Key.Sound.same {t : LoginState} (h : k.Sound s) (hclock : t.clock = s.clock)
    (hbucket : k.bucket t.limiter = k.bucket s.limiter)
    (hcount : ∀ q, (q = LoginPhase.inFlight ∨ ∃ a, q = LoginPhase.unrecorded a) → t.count k.covers q = s.count k.covers q)
    (hfailures : (k.current t.events).filterMap (LoginEvent.failureOf k) =
      (k.current s.events).filterMap (LoginEvent.failureOf k)) : k.Sound t := by
  have htally : k.tally t = k.tally s := by
    simp only [Key.tally, hclock, hbucket, hfailures, hcount _ (.inl rfl)]
    congr 1
    funext a
    exact hcount _ (.inr ⟨a, rfl⟩)
  rw [Key.Sound, htally]
  exact h

/-- Phases that count alike. -/
def Alike (phase phase' : LoginPhase) : Prop :=
  phase'.inFlight = phase.inFlight ∧ ∀ a, phase'.unrecorded a = phase.unrecorded a

theorem count_alike {phase phase' : LoginPhase} (hi : s.calls[i]? = some (call, phase))
    (halike : k.covers call = false ∨ Alike phase phase') {q : LoginPhase → Bool}
    (hq : q = LoginPhase.inFlight ∨ ∃ a, q = LoginPhase.unrecorded a) :
    (s.setPhase i call phase').count k.covers q = s.count k.covers q := by
  refine count_setPhase_same hi (halike.imp_right fun halike => ?_)
  rcases hq with rfl | ⟨a, rfl⟩
  · exact halike.1
  · exact halike.2 a

theorem Key.Sound.setPhase (h : k.Sound s) {phase phase' : LoginPhase} (hi : s.calls[i]? = some (call, phase))
    (halike : k.covers call = false ∨ Alike phase phase') : k.Sound (s.setPhase i call phase') :=
  h.same rfl rfl (fun _ hq => count_alike hi halike hq) rfl

theorem Key.Sound.arrive (h : k.Sound s) (authEnabled : Bool) :
    k.Sound { s with calls := s.calls ++ [(call, if authEnabled then .arrived else .answered 503)] } := by
  refine h.same rfl rfl ?_ rfl
  intro q hq
  have hout : (k.covers call && q (if authEnabled then .arrived else .answered 503)) = false := by
    rcases hq with rfl | ⟨a, rfl⟩ <;> cases authEnabled <;> simp [LoginPhase.inFlight, LoginPhase.unrecorded]
  simp [LoginState.count, List.countP_append, hout]

theorem Key.Sound.checked (h : k.Sound s) {now : ℚ} (hnow : now ≤ s.clock) :
    k.Sound { s with limiter := (rateCheck now call.ip call.emailKey s.limiter).2 } := by
  rcases k.checked now call s.limiter with hsame | hpruned
  · exact h.same rfl hsame (fun _ _ => rfl) rfl
  · have hprune : ({ k.tally s with bucket := pruned (now - RATE_WINDOW_SECONDS) (k.bucket s.limiter) } :
        Tally ℚ).Sound RATE_WINDOW_SECONDS RATE_MAX_FAILURES := Tally.Sound.prune h hnow
    simp only [Key.Sound, Key.tally, hpruned]
    exact hprune

theorem Key.Sound.admit (h : k.Sound s) {now : ℚ} (hi : s.calls[i]? = some (call, .checking now))
    (hcovers : k.covers call = true) (hroom : (k.bucket s.limiter).length + s.count k.covers LoginPhase.inFlight <
      RATE_MAX_FAILURES) : k.Sound (s.setPhase i call .admitted) := by
  have hcount : (s.setPhase i call .admitted).count k.covers LoginPhase.inFlight =
      s.count k.covers LoginPhase.inFlight + 1 := by
    simpa [hcovers, LoginPhase.inFlight] using count_setPhase (p := k.covers) hi LoginPhase.inFlight .admitted
  have hunrecorded : ∀ a, (s.setPhase i call .admitted).count k.covers (LoginPhase.unrecorded a) =
      s.count k.covers (LoginPhase.unrecorded a) := fun a => count_setPhase_same hi (.inr rfl)
  have hadmit := Tally.Sound.admit h hroom
  simp only [Key.Sound, Key.tally, hcount, hunrecorded]
  exact hadmit

theorem count_leaving {phase : LoginPhase} (hi : s.calls[i]? = some (call, phase)) (phase' : LoginPhase)
    (hcovers : k.covers call = true) (hphase : phase.inFlight = true) (hphase' : phase'.inFlight = false) :
    s.count k.covers LoginPhase.inFlight = (s.setPhase i call phase').count k.covers LoginPhase.inFlight + 1 := by
  simpa [hcovers, hphase, hphase'] using (count_setPhase (p := k.covers) hi LoginPhase.inFlight phase').symm

theorem Key.Sound.verified (h : k.Sound s) (hi : s.calls[i]? = some (call, .admitted)) :
    k.Sound (s.setPhase i call .verified) := by
  by_cases hcovers : k.covers call = true
  · have hcount := count_leaving hi .verified hcovers rfl rfl
    have hunrecorded : ∀ a, (s.setPhase i call .verified).count k.covers (LoginPhase.unrecorded a) =
        s.count k.covers (LoginPhase.unrecorded a) := fun a => count_setPhase_same hi (.inr rfl)
    have hsettle := Tally.Sound.settle h hcount fun a => by
      show s.count k.covers (LoginPhase.unrecorded a) ≤ _
      rw [← hunrecorded]
      exact unrecorded_le_inFlight _ a
    simp only [Key.Sound, Key.tally, hunrecorded]
    exact hsettle
  · exact h.setPhase hi (.inl (Bool.eq_false_iff.mpr hcovers))

theorem current_failed (k : Key) (call : LoginCall) (time : ℚ) (events : List LoginEvent) :
    (k.current (.failed call time :: events)).filterMap (LoginEvent.failureOf k) =
      (if k.covers call then [time] else []) ++ (k.current events).filterMap (LoginEvent.failureOf k) := by
  by_cases hcovers : k.covers call = true <;> simp [Key.current, LoginEvent.isReset, LoginEvent.failureOf, hcovers]

theorem current_loggedIn (k : Key) (call : LoginCall) (events : List LoginEvent) :
    (k.current (.loggedIn call :: events)).filterMap (LoginEvent.failureOf k) =
      if k.resets call then [] else (k.current events).filterMap (LoginEvent.failureOf k) := by
  by_cases hresets : k.resets call = true
  · simp [Key.current, LoginEvent.isReset, hresets]
  · rw [if_neg hresets, Key.current, List.takeWhile_cons_of_pos (by simp [LoginEvent.isReset, hresets])]
    exact List.filterMap_cons_none rfl

theorem Key.Sound.unverified (h : k.Sound s) (hi : s.calls[i]? = some (call, .admitted)) :
    k.Sound ({ s with events := .failed call s.clock :: s.events }.setPhase i call .unverified) := by
  by_cases hcovers : k.covers call = true
  · have hinFlight : (s.setPhase i call .unverified).count k.covers LoginPhase.inFlight =
        s.count k.covers LoginPhase.inFlight := count_setPhase_same hi (.inr rfl)
    have hunrecorded : ∀ a, (s.setPhase i call .unverified).count k.covers (LoginPhase.unrecorded a) =
        s.count k.covers (LoginPhase.unrecorded a) + 1 := by
      intro a
      simpa [hcovers, LoginPhase.unrecorded] using count_setPhase (p := k.covers) hi (LoginPhase.unrecorded a) .unverified
    have hlt : ∀ a, s.count k.covers (LoginPhase.unrecorded a) < s.count k.covers LoginPhase.inFlight := by
      intro a
      have hle := unrecorded_le_inFlight (p := k.covers) (s.setPhase i call .unverified) a
      rw [hinFlight, hunrecorded] at hle
      exact hle
    have hfail := Tally.Sound.fail h hlt
    have hevents := current_failed k call s.clock s.events
    rw [if_pos hcovers, List.singleton_append] at hevents
    have htally : k.tally ({ s with events := .failed call s.clock :: s.events }.setPhase i call .unverified) =
        { k.tally s with
          unrecorded := fun a => s.count k.covers (LoginPhase.unrecorded a) + 1
          failures := s.clock :: (k.tally s).failures } := by
      refine Tally.ext rfl rfl hinFlight (funext hunrecorded) hevents
    rw [Key.Sound, htally]
    exact hfail
  · have hout : k.covers call = false := Bool.eq_false_iff.mpr hcovers
    have hevents := current_failed k call s.clock s.events
    rw [if_neg hcovers, List.nil_append] at hevents
    exact h.same rfl rfl (fun _ hq => count_alike hi (.inl hout) hq) hevents

theorem Key.Sound.recording (h : k.Sound s) (hi : s.calls[i]? = some (call, .unverified)) :
    k.Sound (s.setPhase i call (.recording s.clock)) := by
  have hinFlight : (s.setPhase i call (.recording s.clock)).count k.covers LoginPhase.inFlight =
      s.count k.covers LoginPhase.inFlight := count_setPhase_same hi (.inr rfl)
  have hsame : ∀ a ≤ s.clock, (s.setPhase i call (.recording s.clock)).count k.covers (LoginPhase.unrecorded a) =
      s.count k.covers (LoginPhase.unrecorded a) := by
    intro a ha
    refine count_setPhase_same hi (.inr ?_)
    exact decide_eq_true ha
  have hle : ∀ a, (s.setPhase i call (.recording s.clock)).count k.covers (LoginPhase.unrecorded a) ≤
      s.count k.covers LoginPhase.inFlight := by
    intro a
    rw [← hinFlight]
    exact unrecorded_le_inFlight _ a
  have hread := Tally.Sound.read h hsame hle
  simp only [Key.Sound, Key.tally, hinFlight]
  exact hread

theorem Key.Sound.recordFailure (h : k.Sound s) {now : ℚ} (hi : s.calls[i]? = some (call, .recording now)) :
    k.Sound ({ s with limiter := rateRecordFailure now call.ip call.emailKey s.limiter }.setPhase i call
      (.answered 401)) := by
  have hbucket := k.recorded now call s.limiter
  by_cases hcovers : k.covers call = true
  · rw [if_pos hcovers] at hbucket
    have hcount := count_leaving hi (.answered 401) hcovers rfl rfl
    have hunrecorded : ∀ a, s.count k.covers (LoginPhase.unrecorded a) =
        (s.setPhase i call (.answered 401)).count k.covers (LoginPhase.unrecorded a) + if a ≤ now then 1 else 0 := by
      intro a
      have hset := count_setPhase (p := k.covers) hi (LoginPhase.unrecorded a) (.answered 401)
      by_cases ha : a ≤ now <;> simp_all [LoginPhase.unrecorded]
    have hrecord := Tally.Sound.record h hcount hunrecorded fun a => unrecorded_le_inFlight _ a
    have htally : k.tally ({ s with limiter := rateRecordFailure now call.ip call.emailKey s.limiter }.setPhase i call
        (.answered 401)) =
        { k.tally s with
          bucket := (k.tally s).bucket ++ [now]
          inFlight := (s.setPhase i call (.answered 401)).count k.covers LoginPhase.inFlight
          unrecorded := fun a => (s.setPhase i call (.answered 401)).count k.covers (LoginPhase.unrecorded a) } :=
      Tally.ext rfl hbucket rfl rfl rfl
    rw [Key.Sound, htally]
    exact hrecord
  · rw [if_neg hcovers, List.append_nil] at hbucket
    exact h.same rfl hbucket (fun _ hq => count_alike hi (.inl (Bool.eq_false_iff.mpr hcovers)) hq) rfl

theorem Key.Sound.recordSuccess (h : k.Sound s) (hi : s.calls[i]? = some (call, .verified)) :
    k.Sound ({ s with
      limiter := rateRecordSuccess call.emailKey s.limiter
      events := .loggedIn call :: s.events }.setPhase i call (.answered 200)) := by
  have halike : Alike .verified (.answered 200) := ⟨rfl, fun _ => rfl⟩
  have hcount : ∀ q, (q = LoginPhase.inFlight ∨ ∃ a, q = LoginPhase.unrecorded a) →
      (s.setPhase i call (.answered 200)).count k.covers q = s.count k.covers q :=
    fun _ hq => count_alike hi (.inr halike) hq
  have hbucket := k.cleared call s.limiter
  have hevents := current_loggedIn k call s.events
  by_cases hresets : k.resets call = true
  · rw [if_pos hresets] at hbucket hevents
    have htally : k.tally ({ s with
        limiter := rateRecordSuccess call.emailKey s.limiter
        events := .loggedIn call :: s.events }.setPhase i call (.answered 200)) =
        { k.tally s with bucket := [], failures := [] } :=
      Tally.ext rfl hbucket (hcount _ (.inl rfl)) (funext fun a => hcount _ (.inr ⟨a, rfl⟩)) hevents
    rw [Key.Sound, htally]
    exact Tally.Sound.reset h
  · rw [if_neg hresets] at hbucket hevents
    exact h.same rfl hbucket hcount hevents

/-! ## The steps of the calls -/

theorem Read.setPhase (h : Read s) {phase : LoginPhase} (hphase : ∀ now, phase = .checking now → now ≤ s.clock) :
    Read (s.setPhase i call phase) := by
  intro c hc now hnow
  rcases List.mem_or_eq_of_mem_set hc with hc | rfl
  · exact h c hc now hnow
  · exact hphase now hnow

theorem read_step {l : LoginLabel} {t : LoginState} (h : Read s) (hs : loginStep l s = some t) : Read t := by
  cases l with
  | advance clock =>
    simp only [loginStep] at hs
    split at hs
    · rename_i hclock
      cases hs
      intro c hc now hnow
      exact le_trans (h c hc now hnow) hclock
    · cases hs
  | arrive call authEnabled =>
    cases hs
    intro c hc now hnow
    rcases List.mem_append.mp hc with hc | hc
    · exact h c hc now hnow
    · rw [List.mem_singleton.mp hc] at hnow
      cases authEnabled <;> cases hnow
  | readCheck i =>
    simp only [loginStep] at hs
    split at hs
    · cases hs
      refine h.setPhase fun now hnow => ?_
      cases hnow
      exact le_refl _
    · cases hs
  | check i =>
    simp only [loginStep] at hs
    split at hs
    · cases hs
      refine Read.setPhase (s := { s with limiter := _ }) h fun now hnow => ?_
      split at hnow <;> cases hnow
    · cases hs
  | verify i found =>
    simp only [loginStep] at hs
    split at hs
    · split at hs
      · cases hs
        exact h.setPhase fun now hnow => by cases hnow
      · cases hs
        exact Read.setPhase (s := { s with events := _ }) h fun now hnow => by cases hnow
    · cases hs
  | readRecord i =>
    simp only [loginStep] at hs
    split at hs
    · cases hs
      exact h.setPhase fun now hnow => by cases hnow
    · cases hs
  | recordFailure i =>
    simp only [loginStep] at hs
    split at hs
    · cases hs
      exact Read.setPhase (s := { s with limiter := _ }) h fun now hnow => by cases hnow
    · cases hs
  | recordSuccess i =>
    simp only [loginStep] at hs
    split at hs
    · cases hs
      exact Read.setPhase (s := { s with limiter := _, events := _ }) h fun now hnow => by cases hnow
    · cases hs

theorem sound_step {l : LoginLabel} {t : LoginState} (h : k.Sound s) (hread : Read s)
    (hroom : ∀ i call now, l = .check i → s.calls[i]? = some (call, .checking now) →
      (rateCheck now call.ip call.emailKey s.limiter).1 = true → k.covers call = true → k.Room s call now)
    (hs : loginStep l s = some t) : k.Sound t := by
  cases l with
  | advance clock =>
    simp only [loginStep] at hs
    split at hs
    · rename_i hclock
      cases hs
      exact Tally.Sound.advance h hclock
    · cases hs
  | arrive call authEnabled =>
    cases hs
    exact h.arrive authEnabled
  | readCheck i =>
    simp only [loginStep] at hs
    split at hs
    · rename_i hi
      cases hs
      exact h.setPhase hi (.inr ⟨rfl, fun _ => rfl⟩)
    · cases hs
  | check i =>
    simp only [loginStep] at hs
    split at hs
    · rename_i call now hi
      cases hs
      have hchecked : k.Sound { s with limiter := (rateCheck now call.ip call.emailKey s.limiter).2 } :=
        h.checked (hread _ (List.mem_of_getElem? hi) now rfl)
      by_cases hok : (rateCheck now call.ip call.emailKey s.limiter).1 = true
      · rw [if_pos hok]
        by_cases hcovers : k.covers call = true
        · refine hchecked.admit hi hcovers ?_
          rw [k.admitting now call s.limiter hcovers hok]
          exact hroom i call now rfl hi hok hcovers
        · exact hchecked.setPhase hi (.inl (Bool.eq_false_iff.mpr hcovers))
      · rw [if_neg hok]
        have halike : Alike (.checking now) (.answered 429) := ⟨rfl, fun _ => rfl⟩
        exact hchecked.setPhase hi (.inr halike)
    · cases hs
  | verify i found =>
    simp only [loginStep] at hs
    split at hs
    · rename_i hi
      split at hs
      · cases hs
        exact h.verified hi
      · cases hs
        exact h.unverified hi
    · cases hs
  | readRecord i =>
    simp only [loginStep] at hs
    split at hs
    · rename_i hi
      cases hs
      exact h.recording hi
    · cases hs
  | recordFailure i =>
    simp only [loginStep] at hs
    split at hs
    · rename_i hi
      cases hs
      exact h.recordFailure hi
    · cases hs
  | recordSuccess i =>
    simp only [loginStep] at hs
    split at hs
    · rename_i hi
      cases hs
      exact h.recordSuccess hi
    · cases hs

end

/-! ## Whole runs -/

section
variable {s : LoginState} {clock : ℚ}

theorem Key.sound_start (k : Key) (h : k.bucket (LoginState.start clock).limiter = []) :
    k.Sound (LoginState.start clock) where
  past := fun _ hf => by cases hf
  covered := fun _ _ => Nat.zero_le _
  room := by
    intro a _
    show since a (k.bucket (LoginState.start clock).limiter) + 0 ≤ RATE_MAX_FAILURES
    rw [h]
    exact Nat.zero_le _
  unrecorded_le := fun _ => Nat.le_refl _
  windows := fun _ => Nat.zero_le _

theorem failedIn_current (k : Key) (a : ℚ) (events : List LoginEvent) :
    (k.current events).countP (LoginEvent.failedIn k.covers a) =
      within RATE_WINDOW_SECONDS a ((k.current events).filterMap (LoginEvent.failureOf k)) := by
  rw [within, List.countP_filterMap]
  refine List.countP_congr fun e _ => ?_
  cases e with
  | failed call time => by_cases hcovers : k.covers call = true <;> simp [LoginEvent.failedIn, LoginEvent.failureOf, hcovers]
  | loggedIn call => simp [LoginEvent.failedIn, LoginEvent.failureOf]

theorem hasRoom_of {i : Nat} {call : LoginCall} {now : ℚ} (h : Unhurried (.check i) s)
    (hi : s.calls[i]? = some (call, .checking now))
    (hok : (rateCheck now call.ip call.emailKey s.limiter).1 = true) :
    (ipKey call.ip).Room s call now ∧ (emailKey call.emailKey).Room s call now := by
  have hroom : s.HasRoom (some (call, .checking now)) := hi ▸ h
  exact hroom hok

theorem sound_run (hs : Reaches loginStep Unhurried (LoginState.start clock) s) :
    (∀ ip, (ipKey ip).Sound s) ∧ (∀ email, (emailKey email).Sound s) := by
  have hall : Read s ∧ (∀ ip, (ipKey ip).Sound s) ∧ (∀ email, (emailKey email).Sound s) := by
    refine hs.invariant (I := fun s => Read s ∧ (∀ ip, (ipKey ip).Sound s) ∧ (∀ email, (emailKey email).Sound s))
      ⟨fun _ hc => (by cases hc), fun ip => (ipKey ip).sound_start rfl, fun email => (emailKey email).sound_start rfl⟩ ?_
    rintro l s t ⟨hread, hip, hemail⟩ ha hstep
    refine ⟨read_step hread hstep, fun ip => ?_, fun email => ?_⟩
    · refine sound_step (hip ip) hread ?_ hstep
      rintro i call now rfl hi hok hcovers
      obtain rfl : call.ip = ip := of_decide_eq_true hcovers
      exact (hasRoom_of ha hi hok).1
    · refine sound_step (hemail email) hread ?_ hstep
      rintro i call now rfl hi hok hcovers
      obtain rfl : call.emailKey = email := of_decide_eq_true hcovers
      exact (hasRoom_of ha hi hok).2
  exact hall.2

theorem current_of_initial {k : Key} {part events : List LoginEvent} (h : part <+: events)
    (hpart : ∀ e ∈ part, e.isReset k = false) : part <+: k.current events := by
  obtain ⟨rest, rfl⟩ := h
  have happend : k.current (part ++ rest) = part ++ k.current rest :=
    List.takeWhile_append_of_pos fun e he => by rw [hpart e he]; rfl
  rw [happend]
  exact List.prefix_append _ _

theorem events_step {l : LoginLabel} {t : LoginState} (hs : loginStep l s = some t) :
    t.events = s.events ∨ ∃ e, t.events = e :: s.events := by
  cases l with
  | advance clock =>
    simp only [loginStep] at hs
    split at hs <;> cases hs
    exact .inl rfl
  | arrive call authEnabled =>
    cases hs
    exact .inl rfl
  | verify i found =>
    simp only [loginStep] at hs
    split at hs
    · split at hs <;> cases hs
      · exact .inl rfl
      · exact .inr ⟨_, rfl⟩
    · cases hs
  | recordSuccess i =>
    simp only [loginStep] at hs
    split at hs <;> cases hs
    exact .inr ⟨_, rfl⟩
  | _ i =>
    simp only [loginStep] at hs
    split at hs <;> cases hs
    exact .inl rfl

theorem parts_bounded {k : Key}
    (hcurrent : ∀ s, Reaches loginStep Unhurried (LoginState.start clock) s →
      ∀ a, (k.current s.events).countP (LoginEvent.failedIn k.covers a) ≤ RATE_MAX_FAILURES)
    (hs : Reaches loginStep Unhurried (LoginState.start clock) s) :
    ∀ part, part <:+: s.events → (∀ e ∈ part, e.isReset k = false) →
      ∀ a, part.countP (LoginEvent.failedIn k.covers a) ≤ RATE_MAX_FAILURES := by
  induction hs with
  | start =>
    intro part hpart _ a
    rw [List.eq_nil_of_infix_nil hpart]
    exact Nat.zero_le _
  | @next s t l hr ha hstep ih =>
    intro part hpart hreset a
    rcases events_step hstep with hsame | ⟨e, hcons⟩
    · exact ih part (hsame ▸ hpart) hreset a
    · rw [hcons] at hpart
      rcases List.infix_cons_iff.mp hpart with hinitial | hinfix
      · rw [← hcons] at hinitial
        exact le_trans (current_of_initial hinitial hreset).sublist.countP_le (hcurrent t (hr.next ha hstep) a)
      · exact ih part hinfix hreset a

end

/-- In a run whose admissions count the calls in flight, no window has more failures than the limit. -/
theorem login_throttled (clock : ℚ) (s : LoginState)
    (hs : Reaches loginStep Unhurried (LoginState.start clock) s) : Throttled s.events := by
  have hcurrent : ∀ (k : Key) s, k.Sound s →
      ∀ a, (k.current s.events).countP (LoginEvent.failedIn k.covers a) ≤ RATE_MAX_FAILURES := by
    intro k s hsound a
    rw [failedIn_current]
    exact hsound.windows a
  constructor
  · intro ip a
    have hparts := parts_bounded (k := ipKey ip) (fun s hs => hcurrent _ s ((sound_run hs).1 ip)) hs
    refine hparts s.events (List.infix_refl _) (fun e _ => ?_) a
    cases e <;> rfl
  · intro email part hpart hlogins a
    have hparts := parts_bounded (k := emailKey email) (fun s hs => hcurrent _ s ((sound_run hs).2 email)) hs
    refine hparts part hpart (fun e he => ?_) a
    have hlogin := hlogins e he
    cases e with
    | failed call time => rfl
    | loggedIn call => exact hlogin

/-- A wrong password, and then the right one. -/
def secondTry : List LoginLabel :=
  [.arrive ⟨"203.0.113.7", "ada@home.lan"⟩ true, .readCheck 0, .check 0, .verify 0 false, .advance (1 / 2),
    .readRecord 0, .recordFailure 0, .arrive ⟨"203.0.113.7", "ada@home.lan"⟩ true, .advance 3, .readCheck 1,
    .check 1, .verify 1 true, .recordSuccess 1]

theorem login_throttled_secondTry :
    Throttled (runTo loginStep secondTry (LoginState.start 0)).events :=
  login_throttled 0 _ (reaches_runTo (by decide +kernel) (by decide +kernel))

/-- Six calls that are all admitted before one of them is recorded. -/
def overlappingGuesses : List LoginLabel :=
  List.replicate 6 (.arrive ⟨"203.0.113.7", "ada@home.lan"⟩ true) ++ (List.range 6).map .readCheck ++
    (List.range 6).map .check ++ (List.range 6).map (.verify · false)

theorem six_guesses :
    ∃ s, Reaches loginStep (fun _ _ => True) (LoginState.start 0) s ∧ ¬ Throttled s.events := by
  refine ⟨runTo loginStep overlappingGuesses (LoginState.start 0), ?_, ?_⟩
  · exact reaches_runTo (by decide +kernel) (by decide +kernel)
  · intro h
    exact absurd (h.ip "203.0.113.7" 0) (by decide +kernel)

end Lumogis.Logins
