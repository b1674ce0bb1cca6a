import Mathlib.Data.List.Infix

/-!
# Lib.FrontShed

A list that is shed from the front until it fits, down to a floor. What is left is the longest suffix that
fits, if one that is not shorter than the floor does (`shedFront_longest`); otherwise it is what the floor
leaves, or all of a list that is shorter (`shedFront_floor`). Fitting may be any property of lists.
-/

namespace FrontShed

variable {α : Type} (fits : List α → Bool) (floor : Nat)

/-- Elements go from the front while the rest does not fit and is longer than the floor. -/
def shedFront : List α → List α
  | [] => []
  | x :: xs => if !fits (x :: xs) && decide (floor < (x :: xs).length) then shedFront xs else x :: xs

/-- The longest suffix that fits. -/
def LongestFitting (xs kept : List α) : Prop :=
  kept <:+ xs ∧ fits kept ∧ ∀ s, s <:+ xs → fits s → s.length ≤ kept.length

/-- A suffix that is not shorter than the floor fits. -/
def FitsAbove (xs : List α) : Prop := ∃ s, s <:+ xs ∧ fits s ∧ floor ≤ s.length

variable {fits floor}

theorem shedFront_suffix (xs : List α) : shedFront fits floor xs <:+ xs := by
  induction xs with
  | nil => exact List.suffix_refl _
  | cons x xs ih =>
    rw [shedFront]
    split
    · exact ih.trans (List.suffix_cons x xs)
    · exact List.suffix_refl _

/-- The loop ends at a list that fits or at the floor. -/
theorem shedFront_stops {xs : List α} (h : floor < (shedFront fits floor xs).length) :
    fits (shedFront fits floor xs) := by
  induction xs with
  | nil => simp [shedFront] at h
  | cons x xs ih =>
    rw [shedFront] at h ⊢
    split at h
    · rename_i hshed
      rw [if_pos hshed]
      exact ih h
    · rename_i hstop
      rw [if_neg hstop]
      have hlong : floor < xs.length + 1 := by simpa using h
      by_contra hfits
      have hfalse : fits (x :: xs) = false := Bool.eq_false_iff.mpr hfits
      exact hstop (by simp [hfalse, hlong])

/-- A suffix that fits is never shed, unless it is shorter than the floor. -/
theorem suffix_shedFront {xs s : List α} (hs : s <:+ xs) (hfits : fits s) (hfloor : floor ≤ s.length) :
    s <:+ shedFront fits floor xs := by
  induction xs with
  | nil => simpa [shedFront] using hs
  | cons x xs ih =>
    rw [shedFront]
    split
    · rename_i hshed
      rcases List.suffix_cons_iff.mp hs with rfl | hs
      · simp [hfits] at hshed
      · exact ih hs
    · exact hs

theorem shedFront_longest {xs : List α} (h : FitsAbove fits floor xs) :
    LongestFitting fits xs (shedFront fits floor xs) := by
  obtain ⟨s, hs, hfits, hfloor⟩ := h
  have hkept := suffix_shedFront hs hfits hfloor
  refine ⟨shedFront_suffix xs, ?_, ?_⟩
  · by_cases hlong : floor < (shedFront fits floor xs).length
    · exact shedFront_stops hlong
    · -- at the floor nothing but `s` itself is left
      have hsame : s = shedFront fits floor xs := hkept.eq_of_length_le (by omega)
      rwa [← hsame]
  · intro t ht hfitsT
    by_cases hshort : t.length ≤ s.length
    · exact hshort.trans hkept.length_le
    · exact (suffix_shedFront ht hfitsT (by omega)).length_le

theorem shedFront_floor {xs : List α} (h : ¬ FitsAbove fits floor xs) :
    shedFront fits floor xs = xs.drop (xs.length - floor) := by
  have hkept : shedFront fits floor xs <:+ xs := shedFront_suffix xs
  have hlow : ¬ floor < (shedFront fits floor xs).length := by
    intro hlong
    exact h ⟨_, hkept, shedFront_stops hlong, by omega⟩
  induction xs with
  | nil => simp [shedFront]
  | cons x xs ih =>
    rw [shedFront] at hkept hlow ⊢
    split at hlow
    · rename_i hshed
      have hlong : floor < xs.length + 1 := by simpa using (Bool.and_eq_true_iff.mp hshed).2
      have hrest : ¬ FitsAbove fits floor xs := by
        rintro ⟨s, hs, hfits, hfloor⟩
        exact h ⟨s, hs.trans (List.suffix_cons x xs), hfits, hfloor⟩
      rw [if_pos hshed, ih hrest (shedFront_suffix xs) hlow, List.length_cons,
        Nat.succ_sub (by omega), List.drop_succ_cons]
    · rename_i hstop
      have hzero : (x :: xs).length - floor = 0 := by omega
      rw [if_neg hstop, hzero, List.drop_zero]

end FrontShed
