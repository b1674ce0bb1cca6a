import Mathlib.Data.List.DropRight
import Mathlib.Data.List.Induction

/-!
# Lib.Entries

The entries of a separated list, as texts are read that people write: what stands between the separators,
stripped, without what is then empty. Blanks around the list or an entry make no difference, and a
separator anywhere cuts the entries in two.
-/

namespace Entries

variable {α : Type} [DecidableEq α] {sep c : α} {blank : α → Bool} {s t : List α}

def strip (blank : α → Bool) (s : List α) : List α := (s.rdropWhile blank).dropWhile blank

def entries (sep : α) (blank : α → Bool) (s : List α) : List (List α) :=
  ((s.splitOn sep).map (strip blank)).filter fun e => !e.isEmpty

theorem entries_append_sep (s t : List α) :
    entries sep blank (s ++ sep :: t) = entries sep blank s ++ entries sep blank t := by
  rw [entries, List.splitOn_append_cons_self, List.map_append, List.filter_append]
  rfl

theorem rdropWhile_cons (c : α) (s : List α) : (c :: s).rdropWhile blank =
    if s.rdropWhile blank = [] ∧ blank c = true then [] else c :: s.rdropWhile blank := by
  rw [List.rdropWhile, List.rdropWhile, List.reverse_cons, List.dropWhile_append]
  by_cases hnil : s.reverse.dropWhile blank = []
  · cases hc : blank c <;> simp [hnil, hc]
  · have hempty : (s.reverse.dropWhile blank).isEmpty = false := by
      simpa using hnil
    simp [hnil, hempty]

theorem strip_cons_blank (hc : blank c = true) : strip blank (c :: s) = strip blank s := by
  rw [strip, strip, rdropWhile_cons]
  by_cases hnil : s.rdropWhile blank = []
  · simp [hnil, hc]
  · rw [if_neg (fun h => hnil h.1), List.dropWhile_cons_of_pos hc]

theorem entries_cons_blank (hc : blank c = true) (hsep : c ≠ sep) :
    entries sep blank (c :: s) = entries sep blank s := by
  have hne := List.splitOn_ne_nil sep s
  rw [entries, entries, List.splitOn_cons_eq_if_modifyHead, if_neg (by simpa using hsep)]
  cases hsplit : s.splitOn sep with
  | nil => exact absurd hsplit hne
  | cons w ws => rw [List.modifyHead_cons, List.map_cons, List.map_cons, strip_cons_blank hc]

/-- A blank at the end is one at the end of the last entry. -/
theorem rdropWhile_splitOn_append_blank (hc : blank c = true) (hsep : c ≠ sep) (s : List α) :
    ((s ++ [c]).splitOn sep).map (List.rdropWhile blank) = (s.splitOn sep).map (List.rdropWhile blank) := by
  induction s with
  | nil =>
    rw [List.nil_append, List.splitOn_eq_singleton (by simpa using Ne.symm hsep), List.splitOn_nil]
    simp [List.rdropWhile, hc]
  | cons d s ih =>
    rw [List.cons_append, List.splitOn_cons_eq_if_modifyHead, List.splitOn_cons_eq_if_modifyHead]
    split
    · rw [List.map_cons, List.map_cons, ih]
    · cases hsplit : (s ++ [c]).splitOn sep with
      | nil => exact absurd hsplit (List.splitOn_ne_nil sep _)
      | cons w ws =>
        cases hsplit' : s.splitOn sep with
        | nil => exact absurd hsplit' (List.splitOn_ne_nil sep _)
        | cons w' ws' =>
          rw [hsplit, hsplit', List.map_cons, List.map_cons, List.cons.injEq] at ih
          rw [List.modifyHead_cons, List.modifyHead_cons, List.map_cons, List.map_cons, rdropWhile_cons,
            rdropWhile_cons, ih.1, ih.2]

theorem entries_append_blank (hc : blank c = true) (hsep : c ≠ sep) :
    entries sep blank (s ++ [c]) = entries sep blank s := by
  have hmap : ∀ ws : List (List α), ws.map (strip blank) =
      (ws.map (List.rdropWhile blank)).map (List.dropWhile blank) := by
    intro ws
    rw [List.map_map]
    rfl
  rw [entries, entries, hmap, hmap, rdropWhile_splitOn_append_blank hc hsep]

theorem entries_strip (hsep : blank sep = false) (s : List α) :
    entries sep blank (strip blank s) = entries sep blank s := by
  have hne : ∀ c, blank c = true → c ≠ sep := by
    rintro c hc rfl
    rw [hc] at hsep
    cases hsep
  have hleft : ∀ s : List α, entries sep blank (s.dropWhile blank) = entries sep blank s := by
    intro s
    induction s with
    | nil => rfl
    | cons c s ih =>
      by_cases hc : blank c = true
      · rw [List.dropWhile_cons_of_pos hc, ih, entries_cons_blank hc (hne c hc)]
      · rw [List.dropWhile_cons_of_neg hc]
  have hright : ∀ s : List α, entries sep blank (s.rdropWhile blank) = entries sep blank s := by
    intro s
    induction s using List.reverseRecOn with
    | nil => rfl
    | append_singleton s c ih =>
      by_cases hc : blank c = true
      · rw [List.rdropWhile_concat_pos blank s c hc, ih, entries_append_blank hc (hne c hc)]
      · rw [List.rdropWhile_concat_neg blank s c hc]
  rw [strip, hleft, hright]

/-- A list with an entry is not blank. -/
theorem strip_ne_nil (h : entries sep blank s ≠ []) (hsep : blank sep = false) : strip blank s ≠ [] := by
  intro hnil
  rw [← entries_strip hsep, hnil] at h
  exact h (by simp [entries, strip])

end Entries
