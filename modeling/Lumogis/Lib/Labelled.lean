import Mathlib.Init

/-!
# Lib.Labelled

Systems that move by labels. `step l s` is the state that `l` leads to from `s`, or `none` when `l`
cannot happen there. `Reaches step A s₀ s`: a run from `s₀` leads to `s`, and `A` admits each of its
labels in the state where it happens (take it trivial for all runs). What one admitted step keeps
holds after a whole run (`Reaches.invariant`).
-/

namespace Labelled

variable {S L : Type}

inductive Reaches (step : L → S → Option S) (A : L → S → Prop) (s₀ : S) : S → Prop where
  | start : Reaches step A s₀ s₀
  | next {s t : S} {l : L} : Reaches step A s₀ s → A l s → step l s = some t → Reaches step A s₀ t

variable {step : L → S → Option S} {A : L → S → Prop} {s₀ s t : S}

theorem Reaches.invariant {I : S → Prop} (h : Reaches step A s₀ s) (h₀ : I s₀)
    (hstep : ∀ l s t, I s → A l s → step l s = some t → I t) : I s := by
  induction h with
  | start => exact h₀
  | next _ ha hs ih => exact hstep _ _ _ ih ha hs

theorem Reaches.single {l : L} (ha : A l s) (hs : step l s = some t) : Reaches step A s t :=
  .next .start ha hs

theorem Reaches.trans (h : Reaches step A s₀ s) (h' : Reaches step A s t) : Reaches step A s₀ t := by
  induction h' with
  | start => exact h
  | next _ ha hs ih => exact .next ih ha hs

/-- The labels in order. -/
def run (step : L → S → Option S) : List L → S → Option S
  | [], s => some s
  | l :: ls, s => (step l s).bind (run step ls)

/-- `A` admits every label of the run. -/
def Admitted (step : L → S → Option S) (A : L → S → Prop) : List L → S → Prop
  | [], _ => True
  | l :: ls, s => A l s ∧ ∀ t ∈ step l s, Admitted step A ls t

instance Admitted.decidable [∀ l s, Decidable (A l s)] :
    (ls : List L) → (s : S) → Decidable (Admitted step A ls s)
  | [], _ => .isTrue trivial
  | l :: ls, s =>
    have : Decidable (∀ t ∈ step l s, Admitted step A ls t) :=
      match hs : step l s with
      | none => .isTrue fun t ht => by cases ht
      | some t =>
        match Admitted.decidable ls t with
        | .isTrue h => .isTrue fun t' ht' => by cases ht'; exact h
        | .isFalse h => .isFalse fun h' => h (h' t rfl)
    inferInstanceAs (Decidable (_ ∧ _))

/-- A condition on labels alone. -/
theorem Admitted.and_labels {B : L → Prop} {ls : List L} (h : Admitted step A ls s)
    (hb : ∀ l ∈ ls, B l) : Admitted step (fun l s => B l ∧ A l s) ls s := by
  induction ls generalizing s with
  | nil => exact trivial
  | cons l ls ih =>
    exact ⟨⟨hb l (by simp), h.1⟩, fun t ht => ih (h.2 t ht) fun l' hl' => hb l' (by simp [hl'])⟩

theorem run_reaches {ls : List L} (h : run step ls s = some t) (ha : Admitted step A ls s) :
    Reaches step A s t := by
  induction ls generalizing s with
  | nil => cases h; exact .start
  | cons l ls ih =>
    obtain ⟨s', hs, hr⟩ := Option.bind_eq_some_iff.mp h
    exact (Reaches.next .start ha.1 hs).trans (ih hr (ha.2 s' hs))

/-- Under an invariant, what admitted steps keep and no others do. -/
theorem run_iff_admitted {I K : S → Prop} {ls : List L} (h : run step ls s = some t) (h₀ : I s)
    (hstep : ∀ l s t, I s → step l s = some t → I t ∧ (K t ↔ K s ∧ A l s)) :
    I t ∧ (K t ↔ K s ∧ Admitted step A ls s) := by
  induction ls generalizing s with
  | nil =>
    cases h
    exact ⟨h₀, (and_iff_left trivial).symm⟩
  | cons l ls ih =>
    obtain ⟨s', hs, hr⟩ := Option.bind_eq_some_iff.mp h
    obtain ⟨hinv, hiff⟩ := hstep l s s' h₀ hs
    have hadmitted : Admitted step A (l :: ls) s ↔ A l s ∧ Admitted step A ls s' := by
      refine and_congr_right fun _ => ⟨fun hall => hall s' hs, fun hrest t ht => ?_⟩
      rw [hs] at ht
      cases ht
      exact hrest
    obtain ⟨hlast, hrun⟩ := ih hr hinv
    exact ⟨hlast, by rw [hrun, hiff, hadmitted, and_assoc]⟩

/-- Where the labels lead to; `s` when one of them cannot happen. -/
def runTo (step : L → S → Option S) (ls : List L) (s : S) : S := (run step ls s).getD s

theorem reaches_runTo {ls : List L} (h : (run step ls s).isSome = true)
    (ha : Admitted step A ls s) : Reaches step A s (runTo step ls s) := by
  obtain ⟨t, ht⟩ := Option.isSome_iff_exists.mp h
  have hto : runTo step ls s = t := by
    rw [runTo, ht]
    rfl
  exact hto ▸ run_reaches ht ha

/-! ## What a program sees of a run -/

section Views

variable {V : Type} {view : S → V} {P Q : S → Prop} {v w : V}

/-- A run from `s₀` leads to a state in which `P` holds and which looks like `v`. -/
def RunsTo (step : L → S → Option S) (A : L → S → Prop) (view : S → V) (s₀ : S) (P : S → Prop)
    (v : V) : Prop :=
  ∃ s, Reaches step A s₀ s ∧ P s ∧ view s = v

theorem RunsTo.mono (h : RunsTo step A view s₀ P v) (hpq : ∀ s, P s → Q s) :
    RunsTo step A view s₀ Q v := by
  obtain ⟨s, hr, hp, hv⟩ := h
  exact ⟨s, hr, hpq s hp, hv⟩

theorem RunsTo.next (h : RunsTo step A view s₀ P v) {l : L}
    (hl : ∀ s, P s → view s = v → A l s ∧ ∃ t, step l s = some t ∧ Q t ∧ view t = w) :
    RunsTo step A view s₀ Q w := by
  obtain ⟨s, hr, hp, hv⟩ := h
  obtain ⟨ha, t, hstep, hq, hw⟩ := hl s hp hv
  exact ⟨t, hr.next ha hstep, hq, hw⟩

end Views

end Labelled
