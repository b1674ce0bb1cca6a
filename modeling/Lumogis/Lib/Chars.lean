import Mathlib.Data.List.Basic
import Mathlib.Data.List.Infix

/-!
# Lib.Chars

Texts as lists of characters: replacing a literal from left to right, counting where one occurs, and the
last place where it does. A literal that begins with a character is absent from a text without this
character.
-/

namespace Chars

variable {c d : Char} {needle rep l s t : List Char}

/-- `replace` with the characters of a match still to be skipped. -/
def replaceSkip (needle rep : List Char) : Nat → List Char → List Char
  | _, [] => []
  | skip + 1, _ :: cs => replaceSkip needle rep skip cs
  | 0, c :: cs =>
    if needle.isPrefixOf (c :: cs) then rep ++ replaceSkip needle rep (needle.length - 1) cs
    else c :: replaceSkip needle rep 0 cs

/-- The occurrences of a nonempty literal, from the left and apart, become `rep`. -/
def replace (needle rep s : List Char) : List Char := replaceSkip needle rep 0 s

theorem replace_singleton : replace [c] rep s = s.flatMap fun x => if x = c then rep else [x] := by
  induction s with
  | nil => rfl
  | cons x xs ih =>
    rw [replace] at ih
    simp only [replace, replaceSkip, List.isPrefixOf, List.length_singleton, Nat.sub_self, List.flatMap_cons, ih]
    by_cases hx : x = c
    · simp [hx]
    · have hne : ¬ c = x := fun he => hx he.symm
      simp [hx, hne]

theorem not_mem_replace_self (h : c ∉ rep) : c ∉ replace [c] rep s := by
  rw [replace_singleton]
  intro hmem
  obtain ⟨x, -, hx⟩ := List.mem_flatMap.mp hmem
  by_cases he : x = c
  · rw [if_pos he] at hx
    exact h hx
  · rw [if_neg he, List.mem_singleton] at hx
    exact he hx.symm

theorem not_mem_replace (hrep : d ∉ rep) (hs : d ∉ s) : d ∉ replace [c] rep s := by
  rw [replace_singleton]
  intro hmem
  obtain ⟨x, hxs, hx⟩ := List.mem_flatMap.mp hmem
  by_cases he : x = c
  · rw [if_pos he] at hx
    exact hrep hx
  · rw [if_neg he, List.mem_singleton] at hx
    exact hs (hx ▸ hxs)

/-- The places where the literal begins. -/
def occurrences (needle : List Char) : List Char → Nat
  | [] => 0
  | c :: cs => (if needle.isPrefixOf (c :: cs) then 1 else 0) + occurrences needle cs

theorem occurrences_cons_of_ne (h : d ≠ c) : occurrences (c :: l) (d :: s) = occurrences (c :: l) s := by
  have hne : (c == d) = false := by simpa using fun he => h he.symm
  simp [occurrences, List.isPrefixOf, hne]

theorem occurrences_append_of_not_mem (h : c ∉ s) : occurrences (c :: l) (s ++ t) = occurrences (c :: l) t := by
  induction s with
  | nil => rfl
  | cons x xs ih =>
    rw [List.mem_cons, not_or] at h
    rw [List.cons_append, occurrences_cons_of_ne (Ne.symm h.1), ih h.2]

theorem occurrences_of_not_mem (h : c ∉ s) : occurrences (c :: l) s = 0 := by
  have happ := occurrences_append_of_not_mem (l := l) (t := []) h
  rw [List.append_nil] at happ
  exact happ

/-- The literal itself, whose first character does not come again in it. -/
theorem occurrences_self_append (h : c ∉ l) :
    occurrences (c :: l) (c :: (l ++ t)) = 1 + occurrences (c :: l) t := by
  have hpre : (c :: l).isPrefixOf (c :: (l ++ t)) = true := by
    rw [List.isPrefixOf_iff_prefix]
    exact List.prefix_append (c :: l) t
  rw [occurrences, if_pos hpre, occurrences_append_of_not_mem h]

/-- Another literal with the same first character. -/
theorem occurrences_other_cons {x : Char} (h : d ≠ x) :
    occurrences (c :: d :: l) (c :: x :: s) = occurrences (c :: d :: l) (x :: s) := by
  have hne : (d == x) = false := by simpa using h
  simp [occurrences, List.isPrefixOf, hne]

/-! ## The last occurrence -/

/-- The last place where the literal begins, `-1` if there is none. -/
def rfind (needle : List Char) : List Char → Int
  | [] => if needle.isPrefixOf [] then 0 else -1
  | c :: cs =>
    let later := rfind needle cs
    if 0 ≤ later then later + 1
    else if needle.isPrefixOf (c :: cs) then 0 else -1

/-- The literal begins at the place that is found. -/
theorem rfind_begins (h : 0 ≤ rfind needle s) : needle <+: s.drop (rfind needle s).toNat := by
  induction s with
  | nil =>
    simp only [rfind] at h ⊢
    split at h
    · rename_i hp
      simpa using List.isPrefixOf_iff_prefix.mp hp
    · omega
  | cons c cs ih =>
    simp only [rfind] at h ⊢
    split
    · rename_i hlater
      have hs : (rfind needle cs + 1).toNat = (rfind needle cs).toNat + 1 := by omega
      rw [hs, List.drop_succ_cons]
      exact ih hlater
    · rename_i hlater
      rw [if_neg hlater] at h
      split at h
      · rename_i hp
        rw [if_pos hp]
        exact List.isPrefixOf_iff_prefix.mp hp
      · omega

/-- No occurrence begins later. -/
theorem le_rfind {i : Nat} (hi : i ≤ s.length) (h : needle <+: s.drop i) : (i : Int) ≤ rfind needle s := by
  induction s generalizing i with
  | nil =>
    have hi : i = 0 := by simpa using hi
    subst hi
    have hp : needle.isPrefixOf [] = true := List.isPrefixOf_iff_prefix.mpr h
    rw [rfind, if_pos hp]
    simp
  | cons c cs ih =>
    simp only [rfind]
    cases i with
    | zero =>
      have hp : needle.isPrefixOf (c :: cs) = true := List.isPrefixOf_iff_prefix.mpr h
      rw [if_pos hp]
      split
      · rw [Int.natCast_zero]
        omega
      · simp
    | succ i =>
      have hlater := ih (by simpa using hi) h
      rw [if_pos (by omega)]
      omega

end Chars
