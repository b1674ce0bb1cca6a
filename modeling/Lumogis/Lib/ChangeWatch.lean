import Mathlib.Init

/-!
# Lib.ChangeWatch

A watcher remembers the digest of what it saw last. What it sees first is its baseline; what has another
digest than the remembered one is a change, and the digest moves on whether the change gets recorded or
not. What was seen is accounted for exactly if the watcher could tell it apart and, when it had to record
it, did (`accounted_observe_iff`); looking again does not make good for it (`observe_again`).
-/

namespace ChangeWatch

variable {C D : Type}

structure Watch (C D : Type) where
  memory : Option D := none
  seen : Option C := none
  baseline : Option C := none
  recorded : Option C := none

/-- What is seen is the baseline, or what was recorded last. -/
def Watch.Accounted (w : Watch C D) (c : C) : Prop := w.baseline = some c ∨ w.recorded = some c

variable [DecidableEq D]

/-- `kept`: a change gets recorded. -/
def observe (digest : C → D) (c : C) (kept : Bool) (w : Watch C D) : Watch C D :=
  match w.memory with
  | none => { w with memory := some (digest c), seen := some c, baseline := some c }
  | some h =>
    if digest c = h then { w with seen := some c }
    else { w with memory := some (digest c), seen := some c, recorded := if kept then some c else w.recorded }

/-- What has the remembered digest was seen last, and what has another one gets recorded, unless they are
accounted for already. -/
structure Keeps (digest : C → D) (c : C) (kept : Bool) (w : Watch C D) : Prop where
  same : w.memory = some (digest c) → w.seen = some c ∨ w.Accounted c
  changed : ∀ h, w.memory = some h → digest c ≠ h → kept = true ∨ w.Accounted c

/-- Nothing was seen, or what was seen last is remembered and accounted for. -/
structure Sound (digest : C → D) (w : Watch C D) : Prop where
  memory : w.memory = w.seen.map digest
  accounted : ∀ c, w.seen = some c → w.Accounted c

variable {digest : C → D} {w : Watch C D}

@[simp] theorem observe_seen (c : C) (kept : Bool) : (observe digest c kept w).seen = some c := by
  simp only [observe]
  split
  · rfl
  · split <;> rfl

theorem observe_memory (c : C) (kept : Bool) : (observe digest c kept w).memory = some (digest c) := by
  simp only [observe]
  split
  · rfl
  · rename_i h hw
    split
    · rename_i heq
      rw [heq]
      exact hw
    · rfl

theorem observe_again (digest : C → D) (w : Watch C D) (c : C) (kept again : Bool) (c' : C) :
    (observe digest c again (observe digest c kept w)).Accounted c'
      ↔ (observe digest c kept w).Accounted c' := by
  have hm : (observe digest c kept w).memory = some (digest c) := observe_memory c kept
  generalize observe digest c kept w = v at hm ⊢
  simp [observe, hm, Watch.Accounted]

theorem accounted_observe_iff (h : Sound digest w) (c : C) (kept : Bool) :
    (observe digest c kept w).Accounted c ↔ Keeps digest c kept w := by
  cases hm : w.memory with
  | none =>
    have hleft : (observe digest c kept w).Accounted c := by simp [observe, hm, Watch.Accounted]
    refine iff_of_true hleft ⟨fun hsame => ?_, fun d hd => ?_⟩
    · rw [hm] at hsame
      cases hsame
    · rw [hm] at hd
      cases hd
  | some d =>
    by_cases hd : digest c = d
    · have hstays : (observe digest c kept w).Accounted c ↔ w.Accounted c := by
        simp [observe, hm, hd, Watch.Accounted]
      rw [hstays]
      constructor
      · intro ha
        exact ⟨fun _ => Or.inr ha, fun _ _ _ => Or.inr ha⟩
      · intro hk
        have hseen := hk.same (by rw [hm, hd])
        exact hseen.elim (h.accounted c) id
    · have hafter : (observe digest c kept w).Accounted c ↔ kept = true ∨ w.Accounted c := by
        cases kept <;> simp [observe, hm, hd, Watch.Accounted]
      rw [hafter]
      constructor
      · intro ha
        refine ⟨fun hsame => absurd ?_ hd, fun _ _ _ => ha⟩
        rw [hm] at hsame
        exact (Option.some.inj hsame).symm
      · intro hk
        exact hk.changed d hm hd

/-- The invariant: what is seen in an admitted observation is accounted for, and is all that was seen. -/
theorem observe_sound (h : Sound digest w) {c : C} {kept : Bool} (hk : Keeps digest c kept w) :
    Sound digest (observe digest c kept w) where
  memory := by rw [observe_memory, observe_seen, Option.map_some]
  accounted c' hseen := by
    rw [observe_seen] at hseen
    cases hseen
    exact (accounted_observe_iff h c kept).mpr hk

end ChangeWatch
