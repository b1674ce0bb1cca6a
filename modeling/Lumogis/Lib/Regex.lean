import Mathlib.Data.List.Basic

/-!
# Lib.Regex

Regular expressions that are matched from the start of a text: classes, sequences, optional parts, at
most `n` of a class, and the anchor that holds at the end of the text and before a last line break.

`rests r s` lists what is left of `s` after each way to match `r`, longest first. Each constructor has
one lemma that says which these are.
-/

inductive Regex (α : Type) where
  | cls (p : α → Bool)
  | upTo (n : Nat) (p : α → Bool)
  | seq (r r' : Regex α)
  | opt (r : Regex α)
  | dollar (newline : α)

namespace Regex

variable {α : Type} [DecidableEq α] {p : α → Bool} {n : Nat} {r r' : Regex α} {newline : α}
  {s t : List α}

def restsUpTo (p : α → Bool) : Nat → List α → List (List α)
  | n + 1, c :: cs => if p c then restsUpTo p n cs ++ [c :: cs] else [c :: cs]
  | _, s => [s]

def rests : Regex α → List α → List (List α)
  | cls _, [] => []
  | cls p, c :: cs => if p c then [cs] else []
  | upTo n p, s => restsUpTo p n s
  | seq r r', s => (rests r s).flatMap (rests r')
  | opt r, s => rests r s ++ [s]
  | dollar newline, s => if s = [] ∨ s = [newline] then [s] else []

/-- `re.match`. -/
def isMatch (r : Regex α) (s : List α) : Bool := !(r.rests s).isEmpty

theorem isMatch_iff : r.isMatch s = true ↔ ∃ t, t ∈ r.rests s := by
  simp [isMatch, List.isEmpty_iff, List.eq_nil_iff_forall_not_mem]

theorem mem_rests_cls : t ∈ (cls p).rests s ↔ ∃ c, p c = true ∧ s = c :: t := by
  cases s with
  | nil => simp [rests]
  | cons c cs =>
    rw [rests]
    constructor
    · intro h
      split at h
      · rename_i hp
        exact ⟨c, hp, by rw [List.mem_singleton.mp h]⟩
      · simp at h
    · rintro ⟨c', hc', hs⟩
      obtain ⟨rfl, rfl⟩ := List.cons.inj hs
      simp [hc']

theorem mem_restsUpTo :
    ∀ {n : Nat} {s : List α}, t ∈ restsUpTo p n s
      ↔ ∃ pre, s = pre ++ t ∧ pre.length ≤ n ∧ ∀ c ∈ pre, p c = true
  | 0, s => by
    simp only [restsUpTo, List.mem_singleton]
    constructor
    · rintro rfl
      exact ⟨[], by simp⟩
    · rintro ⟨pre, rfl, hlen, -⟩
      rw [List.length_eq_zero_iff.mp (Nat.le_zero.mp hlen), List.nil_append]
  | n + 1, [] => by simp [restsUpTo]
  | n + 1, c :: cs => by
    have hcons : (∃ pre, c :: cs = pre ++ t ∧ pre.length ≤ n + 1 ∧ ∀ x ∈ pre, p x = true)
        ↔ t = c :: cs ∨ p c = true ∧ ∃ pre, cs = pre ++ t ∧ pre.length ≤ n ∧ ∀ x ∈ pre, p x = true := by
      constructor
      · rintro ⟨pre, hpre, hlen, hall⟩
        cases pre with
        | nil => exact .inl hpre.symm
        | cons x pre =>
          obtain ⟨rfl, hcs⟩ := List.cons.inj hpre
          exact .inr ⟨hall _ List.mem_cons_self, pre, hcs, by simpa using hlen,
            fun x hx => hall x (List.mem_cons_of_mem _ hx)⟩
      · rintro (rfl | ⟨hc, pre, rfl, hlen, hall⟩)
        · exact ⟨[], by simp⟩
        · exact ⟨c :: pre, rfl, by simpa using hlen, by simpa using ⟨hc, hall⟩⟩
    rw [hcons]
    by_cases hp : p c = true
    · simp [restsUpTo, hp, mem_restsUpTo, or_comm]
    · simp [restsUpTo, hp]

theorem mem_rests_upTo :
    t ∈ (upTo n p).rests s ↔ ∃ pre, s = pre ++ t ∧ pre.length ≤ n ∧ ∀ c ∈ pre, p c = true := by
  rw [rests, mem_restsUpTo]

theorem mem_rests_seq : t ∈ (seq r r').rests s ↔ ∃ u ∈ r.rests s, t ∈ r'.rests u := by
  simp [rests]

theorem mem_rests_opt : t ∈ (opt r).rests s ↔ t ∈ r.rests s ∨ t = s := by
  simp [rests]

theorem mem_rests_dollar : t ∈ (dollar newline).rests s ↔ t = s ∧ (s = [] ∨ s = [newline]) := by
  by_cases hs : s = [] ∨ s = [newline]
  · simp [rests, hs]
  · simp [rests, hs]

end Regex
