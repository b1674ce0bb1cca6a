import Lumogis.Lib.Prog
import Mathlib.Logic.Function.Basic

/-!
# Lib.Rely

Programs interleaved call by call on one state, and rely-guarantee reasoning about them.

`Step C`: some thread whose next call is not blocked makes that call. `C i` restricts the calls
of thread `i` to those that move the state along `C i` (take it trivial for all interleavings).

`Sat R C G Q p s`: as long as the other threads move the state along `R` only, thread `p`
started in `s` moves it along `G` at each of its calls, and whatever it ends in satisfies `Q`,
now and after any further moves of the others. `Sat.par` puts threads together: if what each
guarantees is what each other relies on, then `Sat` holds of every thread after any run.
-/

namespace Prog

open Relation

variable {S E α β : Type} {ι : Type}

inductive Step [DecidableEq ι] (C : ι → S → S → Prop) :
    S × (ι → Prog S E α) → S × (ι → Prog S E α) → Prop where
  | call {s : S} {ps : ι → Prog S E α} (i : ι) {g : S → Bool} {u : S → S}
      {k : S → Prog S E α} {h : Prog S E α} : ps i = .call g u k h → g s = true → C i s (u s) →
      Step C (s, ps) (u s, Function.update ps i (k s))

/-- The thread has returned or raised. -/
def Ended (p : Prog S E α) (r : Except E α) : Prop :=
  match r with
  | .ok a => p = .ret a
  | .error e => p = .raise e

/-- The same program, its value dropped: threads of one pool have one result type. -/
def void (p : Prog S E α) : Prog S E Unit := do
  let _ ← p
  pure ()

/-- `P` survives every move along `R`. -/
def Stable (R : S → S → Prop) (P : S → Prop) : Prop := ∀ s t, R s t → P s → P t

theorem Stable.rtc {R : S → S → Prop} {P : S → Prop} (h : Stable R P) {s t : S}
    (hr : ReflTransGen R s t) (hp : P s) : P t := by
  induction hr with
  | refl => exact hp
  | tail _ hst ih => exact h _ _ hst ih

theorem Stable.and {R : S → S → Prop} {P P' : S → Prop} (h : Stable R P) (h' : Stable R P') :
    Stable R fun s => P s ∧ P' s :=
  fun s t hr hp => ⟨h s t hr hp.1, h' s t hr hp.2⟩

theorem stable_const {R : S → S → Prop} (P : Prop) : Stable R fun _ => P := fun _ _ _ h => h

def Sat (R C G : S → S → Prop) (Q : Except E α → S → Prop) : Prog S E α → S → Prop
  | .ret a, s => ∀ t, ReflTransGen R s t → Q (.ok a) t
  | .raise e, s => ∀ t, ReflTransGen R s t → Q (.error e) t
  | .call g u k _, s => ∀ t, ReflTransGen R s t → g t = true → C t (u t) →
      G t (u t) ∧ Sat R C G Q (k t) (u t)

/-! ## Schedules -/

section Schedule

variable [DecidableEq ι]

/-- Thread `i` makes its next call, if it has one that is not blocked. -/
def stepThread (i : ι) (c : S × (ι → Prog S E α)) : S × (ι → Prog S E α) :=
  match c.2 i with
  | .call g u k _ => if g c.1 then (u c.1, Function.update c.2 i (k c.1)) else c
  | _ => c

def schedule (is : List ι) (c : S × (ι → Prog S E α)) : S × (ι → Prog S E α) :=
  is.foldl (fun c i => stepThread i c) c

/-- Every call of the schedule is one that `C` allows. -/
def Allowed (C : ι → S → S → Prop) : List ι → S × (ι → Prog S E α) → Prop
  | [], _ => True
  | i :: is, c => C i c.1 (stepThread i c).1 ∧ Allowed C is (stepThread i c)

instance Allowed.decidable {C : ι → S → S → Prop} [∀ i s t, Decidable (C i s t)] :
    (is : List ι) → (c : S × (ι → Prog S E α)) → Decidable (Allowed C is c)
  | [], _ => .isTrue trivial
  | _ :: is, _ => @instDecidableAnd _ _ _ (Allowed.decidable is _)

theorem stepThread_reaches {C : ι → S → S → Prop} {i : ι} {c : S × (ι → Prog S E α)}
    (h : C i c.1 (stepThread i c).1) : ReflTransGen (Step C) c (stepThread i c) := by
  obtain ⟨s, ps⟩ := c
  cases hp : ps i with
  | ret a => simp only [stepThread, hp]; exact .refl
  | raise e => simp only [stepThread, hp]; exact .refl
  | call g u k f =>
    by_cases hg : g s = true
    · simp only [stepThread, hp, hg, if_true] at h ⊢
      exact .single (.call i hp hg h)
    · simp only [stepThread, hp, hg]
      exact .refl

theorem schedule_reaches {C : ι → S → S → Prop} {is : List ι} {c : S × (ι → Prog S E α)}
    (h : Allowed C is c) : ReflTransGen (Step C) c (schedule is c) := by
  induction is generalizing c with
  | nil => exact .refl
  | cons i is ih => exact (stepThread_reaches h.1).trans (ih h.2)

end Schedule

section Rules

variable {R C G : S → S → Prop} {Q Q' : Except E α → S → Prop}

/-- `Sat` itself survives the moves of the others. -/
theorem Sat.stable {p : Prog S E α} {s t : S} (h : Sat R C G Q p s) (hr : ReflTransGen R s t) :
    Sat R C G Q p t := by
  cases p with
  | ret a => exact fun u hu => h u (hr.trans hu)
  | raise e => exact fun u hu => h u (hr.trans hu)
  | call g u k f => exact fun v hv => h v (hr.trans hv)

theorem Sat.mono {p : Prog S E α} {s : S} (h : Sat R C G Q p s)
    (hq : ∀ r t, Q r t → Q' r t) : Sat R C G Q' p s := by
  induction p generalizing s with
  | ret a => exact fun t ht => hq _ _ (h t ht)
  | raise e => exact fun t ht => hq _ _ (h t ht)
  | call g u k f ih _ => exact fun t ht hg hc => ⟨(h t ht hg hc).1, ih t (h t ht hg hc).2⟩

theorem Sat.bind {Q : Except E β → S → Prop} {p : Prog S E α} {f : α → Prog S E β} {s : S}
    (h : Sat R C G (seqPost Q fun a => Sat R C G Q (f a)) p s) : Sat R C G Q (p >>= f) s := by
  show Sat R C G Q (p.bind f) s
  induction p generalizing s with
  | ret a => exact h s .refl
  | raise e => exact h
  | call g u k h' ih _ => exact fun t ht hg hc => ⟨(h t ht hg hc).1, ih t (h t ht hg hc).2⟩

/-- The outcome is a value that satisfies `P`, or an error with `P'` kept. -/
def okElse (P : α → S → Prop) (P' : S → Prop) : Except E α → S → Prop
  | .ok a, s => P a s
  | .error _, s => P' s

/-- The outcome is a value, and satisfies `P`. -/
def okPost (P : α → S → Prop) : Except E α → S → Prop
  | .ok a, s => P a s
  | .error _, _ => False

/-- A sequence whose first part never raises. -/
theorem Sat.bind_ok {Q : Except E β → S → Prop} {P : α → S → Prop} {p : Prog S E α}
    {f : α → Prog S E β} {s : S} (hp : Sat R C G (okPost P) p s)
    (hf : ∀ a t, P a t → Sat R C G Q (f a) t) : Sat R C G Q (p >>= f) s := by
  refine Sat.bind (hp.mono fun r t ht => ?_)
  cases r with
  | ok a => exact hf a t ht
  | error e => exact ht.elim

/-- A sequence whose first part ends in `P`, whatever it returns or raises. -/
theorem Sat.seq {Q : Except E β → S → Prop} {P : S → Prop} {p : Prog S E α}
    {f : α → Prog S E β} {s : S} (hp : Sat R C G (fun _ => P) p s)
    (hf : ∀ a t, P t → Sat R C G Q (f a) t) (he : ∀ e t, P t → Q (.error e) t) :
    Sat R C G Q (p >>= f) s := by
  refine Sat.bind (hp.mono fun r t ht => ?_)
  cases r with
  | ok a => exact hf a t ht
  | error e => exact he e t ht

theorem Sat.attempt {Q : Except E (Except E α) → S → Prop} {p : Prog S E α} {s : S}
    (h : Sat R C G (fun r => Q (.ok r)) p s) : Sat R C G Q p.attempt s := by
  induction p generalizing s with
  | ret a => exact h
  | raise e => exact h
  | call g u k h' ih _ => exact fun t ht hg hc => ⟨(h t ht hg hc).1, ih t (h t ht hg hc).2⟩

theorem Sat.ret {a : α} {P : S → Prop} (hst : Stable R P) {s : S} (hp : P s)
    (hq : ∀ t, P t → Q (.ok a) t) : Sat R C G Q (.ret a) s :=
  fun t ht => hq t (hst.rtc ht hp)

theorem Sat.raise {e : E} {P : S → Prop} (hst : Stable R P) {s : S} (hp : P s)
    (hq : ∀ t, P t → Q (.error e) t) : Sat R C G Q (.raise e) s :=
  fun t ht => hq t (hst.rtc ht hp)

/-- One call, made in some state that satisfies the stable assertion `P`. -/
theorem Sat.act {e : E} {f : S → α × S} {P : S → Prop} (hst : Stable R P) {s : S} (hp : P s)
    (h : ∀ t, P t → C t (f t).2 → G t (f t).2 ∧
      ∀ t', ReflTransGen R (f t).2 t' → Q (.ok (f t).1) t') : Sat R C G Q (act e f) s :=
  fun t ht _ hc => h t (hst.rtc ht hp) hc

/-- A call that starts a sequence. -/
theorem Sat.act_bind {Q : Except E β → S → Prop} {e : E} {f : S → α × S} {k : α → Prog S E β}
    {P : S → Prop} (hst : Stable R P) {s : S} (hp : P s)
    (h : ∀ t, P t → C t (f t).2 → G t (f t).2 ∧ Sat R C G Q (k (f t).1) (f t).2) :
    Sat R C G Q (Prog.act e f >>= k) s :=
  fun t ht _ hc => h t (hst.rtc ht hp) hc

theorem Sat.query_bind {Q : Except E β → S → Prop} {e : E} {f : S → α} {k : α → Prog S E β}
    {P : S → Prop} (hst : Stable R P) {s : S} (hp : P s) (hg : ∀ t, G t t)
    (h : ∀ t, P t → Sat R C G Q (k (f t)) t) : Sat R C G Q (Prog.query e f >>= k) s :=
  Sat.act_bind hst hp fun t ht _ => ⟨hg t, h t ht⟩

/-- A call that may be refused. -/
theorem Sat.actE {e : E} {f : S → Except E α × S} {P : S → Prop} (hst : Stable R P) {s : S}
    (hp : P s) (h : ∀ t, P t → C t (f t).2 → G t (f t).2 ∧
      ∀ t', ReflTransGen R (f t).2 t' → Q (f t).1 t') : Sat R C G Q (actE e f) s := by
  refine Sat.bind (Sat.act hst hp fun t ht hc => ⟨(h t ht hc).1, fun t' ht' => ?_⟩)
  have hq := (h t ht hc).2
  simp only [seqPost]
  generalize (f t).1 = r at hq
  cases r with
  | ok a => exact fun t'' ht'' => hq t'' (ht'.trans ht'')
  | error x => exact fun t'' ht'' => hq t'' (ht'.trans ht'')

theorem Sat.tryCatch {p : Prog S E α} {h : E → Prog S E α} {s : S}
    (hp : Sat R C G (fun r t => match r with
      | .ok a => Q (.ok a) t
      | .error e => Sat R C G Q (h e) t) p s)
    (hst : ∀ a, Stable R fun t => Q (.ok a) t) : Sat R C G Q (p.tryCatch h) s := by
  refine Sat.bind (Sat.attempt (hp.mono fun r t hr => ?_))
  cases r with
  | ok a => exact fun t' ht' => (hst a).rtc ht' hr
  | error e => exact hr

theorem Sat.tryFinally {p : Prog S E α} {fin : Prog S E Unit} {s : S}
    (hp : Sat R C G (fun r t => Sat R C G (fun x t' => match x with
      | .ok _ => Q r t'
      | .error e => Q (.error e) t') fin t) p s)
    (hst : ∀ r, Stable R fun t => Q r t) : Sat R C G Q (p.tryFinally fin) s := by
  refine Sat.bind (Sat.attempt (hp.mono fun r t hr => ?_))
  refine Sat.bind (hr.mono fun x t' hx => ?_)
  cases x with
  | error e => exact hx
  | ok u => cases r <;> exact fun t'' ht'' => (hst _).rtc ht'' hx

/-- A program whose calls all move along `φ` keeps any `P` that `φ` and the others keep. -/
theorem Sat.always {φ : S → S → Prop} {P : S → Prop} {p : Prog S E α} (ha : Always φ p)
    (hg : ∀ s t, P s → φ s t → C s t → G s t) (hst : Stable R P)
    (hφ : ∀ s t, P s → φ s t → C s t → P t) {s : S} (hp : P s) :
    Sat R C G (fun _ => P) p s := by
  induction p generalizing s with
  | ret a => exact fun t ht => hst.rtc ht hp
  | raise e => exact fun t ht => hst.rtc ht hp
  | call g u k f ih _ =>
    intro t ht hgt hc
    have hpt := hst.rtc ht hp
    exact ⟨hg _ _ hpt (ha.1 t hgt) hc, ih t (ha.2.1 t) (hφ _ _ hpt (ha.1 t hgt) hc)⟩

/-- The rule of a loop: `I` is an assertion of the state between two rounds. -/
theorem Sat.forEach {Q : Except E Unit → S → Prop} {f : α → Prog S E Unit} {I : S → Prop}
    (hst : Stable R I) {xs : List α} {s : S} (h0 : I s)
    (hstep : ∀ x ∈ xs, ∀ s, I s → Sat R C G (seqPost Q fun _ => I) (f x) s)
    (hend : ∀ s, I s → Q (.ok ()) s) : Sat R C G Q (Prog.forEach f xs) s := by
  induction xs generalizing s with
  | nil => exact Sat.ret hst h0 hend
  | cons x xs ih =>
    refine Sat.bind ((hstep x (by simp) s h0).mono fun r s' hr => ?_)
    cases r with
    | ok u => exact ih hr fun y hy => hstep y (by simp [hy])
    | error e => exact hr

theorem Sat.done {p : Prog S E α} {r : Except E α} {s : S} (h : Sat R C G Q p s)
    (he : Ended p r) : Q r s := by
  cases r with
  | ok a => cases he; exact h s .refl
  | error e => cases he; exact h s .refl

end Rules

section Parallel

variable [DecidableEq ι] {R C G : ι → S → S → Prop} {Q : ι → Except E α → S → Prop}

theorem Sat.step (hrg : ∀ i j, i ≠ j → ∀ s t, G i s t → R j s t)
    {c c' : S × (ι → Prog S E α)} (hs : ∀ i, Sat (R i) (C i) (G i) (Q i) (c.2 i) c.1)
    (h : Step C c c') :
    (∃ i, G i c.1 c'.1) ∧ ∀ i, Sat (R i) (C i) (G i) (Q i) (c'.2 i) c'.1 := by
  cases h with
  | @call s ps i g u k f hp hg hc =>
    have hi := hs i
    simp only [hp] at hi
    obtain ⟨hG, hk⟩ := hi s .refl hg hc
    refine ⟨⟨i, hG⟩, fun j => ?_⟩
    by_cases hij : j = i
    · subst hij
      simpa using hk
    · simpa [Function.update_of_ne hij] using
        (hs j).stable (.single (hrg i j (fun h => hij h.symm) _ _ hG))

/-- Threads whose guarantees meet each other's relies stay correct together, after any run. -/
theorem Sat.par (hrg : ∀ i j, i ≠ j → ∀ s t, G i s t → R j s t)
    {c c' : S × (ι → Prog S E α)} (hs : ∀ i, Sat (R i) (C i) (G i) (Q i) (c.2 i) c.1)
    (h : ReflTransGen (Step C) c c') (i : ι) :
    Sat (R i) (C i) (G i) (Q i) (c'.2 i) c'.1 := by
  induction h generalizing i with
  | refl => exact hs i
  | tail _ hst ih => exact (Sat.step hrg ih hst).2 i

/-- What every thread's guarantee keeps holds after any run. -/
theorem Sat.invariant (hrg : ∀ i j, i ≠ j → ∀ s t, G i s t → R j s t) {I : S → Prop}
    (hI : ∀ i s t, G i s t → I s → I t) {c c' : S × (ι → Prog S E α)}
    (hs : ∀ i, Sat (R i) (C i) (G i) (Q i) (c.2 i) c.1) (h0 : I c.1)
    (h : ReflTransGen (Step C) c c') : I c'.1 := by
  induction h with
  | refl => exact h0
  | tail hr hst ih =>
    obtain ⟨i, hG⟩ := (Sat.step hrg (Sat.par hrg hs hr) hst).1
    exact hI i _ _ hG ih

end Parallel

end Prog
