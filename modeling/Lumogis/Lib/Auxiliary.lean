import Lumogis.Lib.Rely

/-!
# Lib.Auxiliary

Auxiliary state. A program on `S × A` erases to a program on `S` when the `A` part never decides
what happens to the `S` part (`Erases`). A run of the erased threads is the run of the annotated
ones with the `A` part forgotten (`Erases.run`), so what is proved of the annotated threads, with
assertions that mention the `A` part, holds of the erased ones.
-/

open Relation

namespace Prog

variable {S A E α β ι : Type}

/-- The same program beside a state that it neither reads nor writes. -/
def lift : Prog S E α → Prog (S × A) E α
  | .ret a => .ret a
  | .raise e => .raise e
  | .call g u k h => .call (fun x => g x.1) (fun x => (u x.1, x.2)) (fun x => (k x.1).lift) h.lift

def Erases : Prog (S × A) E α → Prog S E α → Prop
  | .ret a, .ret b => a = b
  | .raise e, .raise f => e = f
  | .call g u k _, .call g' u' k' _ =>
    ∀ s a, g (s, a) = g' s ∧ (u (s, a)).1 = u' s ∧ Erases (k (s, a)) (k' s)
  | _, _ => False

theorem erases_lift (p : Prog S E α) : Erases (p.lift : Prog (S × A) E α) p := by
  induction p with
  | ret a => rfl
  | raise e => rfl
  | call g u k h ih _ => exact fun s a => ⟨rfl, rfl, ih s⟩

theorem Erases.bind {p : Prog (S × A) E α} {q : Prog S E α} {f : α → Prog (S × A) E β}
    {f' : α → Prog S E β} (h : Erases p q) (hf : ∀ a, Erases (f a) (f' a)) :
    Erases (p >>= f) (q >>= f') := by
  show Erases (p.bind f) (q.bind f')
  induction p generalizing q with
  | ret a =>
    cases q with
    | ret b => cases h; exact hf a
    | raise e => cases h
    | call => cases h
  | raise e =>
    cases q with
    | ret b => cases h
    | raise f => exact h
    | call => cases h
  | call g u k h' ih _ =>
    cases q with
    | ret b => cases h
    | raise f => cases h
    | call g' u' k' h'' =>
      exact fun s a => ⟨(h s a).1, (h s a).2.1, ih (s, a) (h s a).2.2⟩

/-- A call with an update of the auxiliary state beside it. -/
theorem erases_act {e : E} {f : S × A → α × (S × A)} {f' : S → α × S}
    (h : ∀ s a, (f (s, a)).1 = (f' s).1 ∧ (f (s, a)).2.1 = (f' s).2) :
    Erases (act e f) (act e f') :=
  fun s a => ⟨rfl, (h s a).2, (h s a).1⟩

theorem Erases.ended {p : Prog (S × A) E α} {q : Prog S E α} {r : Except E α} (h : Erases p q)
    (hq : Ended q r) : Ended p r := by
  cases r with
  | ok b =>
    cases hq
    cases p with
    | ret a => cases h; rfl
    | raise e => cases h
    | call => cases h
  | error e =>
    cases hq
    cases p with
    | ret a => cases h
    | raise f => cases h; rfl
    | call => cases h

/-! ## Lifting -/

theorem lift_bind (p : Prog S E α) (f : α → Prog S E β) :
    ((p >>= f).lift : Prog (S × A) E β) = p.lift >>= fun a => (f a).lift := by
  show ((p.bind f).lift : Prog (S × A) E β) = p.lift.bind fun a => (f a).lift
  induction p with
  | ret a => rfl
  | raise e => rfl
  | call g u k h ih ihf =>
    simp only [Prog.bind, lift]
    exact congr (congrArg _ (funext fun x => ih x.1)) ihf

theorem lift_attempt (p : Prog S E α) :
    (p.attempt.lift : Prog (S × A) E (Except E α)) = p.lift.attempt := by
  induction p with
  | ret a => rfl
  | raise e => rfl
  | call g u k h ih ihf =>
    simp only [attempt, lift]
    exact congr (congrArg _ (funext fun x => ih x.1)) ihf

theorem lift_forEach (f : α → Prog S E Unit) (xs : List α) :
    ((forEach f xs).lift : Prog (S × A) E Unit) = forEach (fun x => (f x).lift) xs := by
  induction xs with
  | nil => rfl
  | cons x xs ih =>
    rw [forEach, lift_bind, ih]
    rfl

theorem always_lift {φ : S → S → Prop} {p : Prog S E α} (h : Always φ p) :
    Always (fun x y : S × A => φ x.1 y.1 ∧ y.2 = x.2) p.lift := by
  induction p with
  | ret a => exact True.intro
  | raise e => exact True.intro
  | call g u k f ih ihf =>
    exact ⟨fun x hg => ⟨h.1 x.1 hg, rfl⟩, fun x => ih x.1 (h.2.1 x.1), ihf h.2.2⟩

/-! ## Runs -/

section Runs

variable [DecidableEq ι]

theorem Erases.step {C : ι → S → S → Prop} {s : S} {a : A} {ps : ι → Prog (S × A) E α}
    {qs : ι → Prog S E α} {c : S × (ι → Prog S E α)} (h : ∀ i, Erases (ps i) (qs i))
    (hst : Step C (s, qs) c) : ∃ b ps', Step (fun i x y => C i x.1 y.1) ((s, a), ps) ((c.1, b), ps') ∧
      ∀ i, Erases (ps' i) (c.2 i) := by
  cases hst with
  | @call _ _ i g u k f hq hg hc =>
    have hi := h i
    cases hp : ps i with
    | ret b => rw [hp, hq] at hi; cases hi
    | raise e => rw [hp, hq] at hi; cases hi
    | call g' u' k' f' =>
      rw [hp, hq] at hi
      obtain ⟨hgg, huu, hkk⟩ := hi s a
      refine ⟨(u' (s, a)).2, Function.update ps i (k' (s, a)), ?_, fun j => ?_⟩
      · have hstep := Step.call (C := fun i (x y : S × A) => C i x.1 y.1) (s := (s, a)) i hp
          (hgg.trans hg) (by rw [huu]; exact hc)
        rw [← huu]
        exact hstep
      · by_cases hij : j = i
        · subst hij
          simpa using hkk
        · simpa [Function.update_of_ne hij] using h j

theorem Erases.run {C : ι → S → S → Prop} {s : S} {a : A} {ps : ι → Prog (S × A) E α}
    {qs : ι → Prog S E α} {c : S × (ι → Prog S E α)} (h : ∀ i, Erases (ps i) (qs i))
    (hrun : ReflTransGen (Step C) (s, qs) c) :
    ∃ b ps', ReflTransGen (Step fun i x y => C i x.1 y.1) ((s, a), ps) ((c.1, b), ps') ∧
      ∀ i, Erases (ps' i) (c.2 i) := by
  induction hrun with
  | refl => exact ⟨a, ps, .refl, h⟩
  | @tail c c' _ hst ih =>
    obtain ⟨b, ps', hrun', h'⟩ := ih
    obtain ⟨t, qs'⟩ := c
    obtain ⟨b', ps'', hst', h''⟩ := Erases.step (a := b) h' hst
    exact ⟨b', ps'', hrun'.tail hst', h''⟩

end Runs

end Prog
