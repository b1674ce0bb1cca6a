import Lumogis.InjectionMarkup
import Mathlib.Data.List.DropRight

/-!
# Lumogis.ContextBudget

`estimate_tokens` and `truncate_text`. The estimate counts four characters a token, three where more
than three tenths of the first 200 characters are CJK; the truncation cuts at four characters a token,
whatever the text is. What it keeps is within the budget exactly when it is not as long as the three
characters a token allow, or not CJK itself (`truncate_text_fits`).
-/

namespace Lumogis

open Chars Permissions

/-! ## The code -/

def isCjk (c : Char) : Bool :=
  ('\u4e00' ≤ c && c ≤ '\u9fff') || ('\u3040' ≤ c && c ≤ '\u30ff') || ('\uac00' ≤ c && c ≤ '\ud7af')

/-- `cjk_ratio > 0.3` in the sample. -/
def cjkHeavy (text : Text) : Bool :=
  let sample := text.take 200
  3 * sample.length < 10 * sample.countP isCjk

def estimateTokens (text : Text) : Nat :=
  if text = [] then 0
  else max 1 (text.length / if cjkHeavy text then 3 else 4)

/-- `str.rstrip`. -/
def rstrip (s : Text) : Text := s.rdropWhile isPySpace

def sentenceBoundary (truncated : Text) : Int :=
  max (rfind ". ".toList truncated) (rfind "\n".toList truncated)

def truncateText (text : Text) (maxTokens : Nat) : Text :=
  if text = [] then text
  else if estimateTokens text ≤ maxTokens then text
  else
    let charLimit := maxTokens * 4
    let truncated := text.take charLimit
    let boundary := sentenceBoundary truncated
    rstrip (if (charLimit : Int) < 2 * boundary then truncated.take (boundary + 1).toNat else truncated)

/-- `truncate_text` at any budget: a negative limit is counted from the end of the text. -/
def truncateTextAt (text : Text) (maxTokens : Int) : Text :=
  if text = [] then text
  else if estimateTokens text ≤ maxTokens then text
  else
    let charLimit := maxTokens * 4
    let truncated := text.take (if 0 ≤ charLimit then charLimit.toNat else text.length - (-charLimit).toNat)
    let boundary := sentenceBoundary truncated
    rstrip (if charLimit < 2 * boundary then truncated.take (boundary + 1).toNat else truncated)

/-! ## The place of the cut -/

/-- A sentence ends with the character at the place. -/
def EndsSentence (s : Text) (i : Nat) : Prop := ". ".toList <+: s.drop i ∨ "\n".toList <+: s.drop i

/-- The text is cut after `m` characters: behind the last sentence that ends among the first `4 n`, when
that is past their middle, and behind all of them when none ends there. -/
def CutAfter (text : Text) (n m : Nat) : Prop :=
  (∃ b, EndsSentence (text.take (n * 4)) b ∧ (∀ i, EndsSentence (text.take (n * 4)) i → i ≤ b) ∧
    n * 4 < 2 * b ∧ m = b + 1) ∨
  ((∀ i, EndsSentence (text.take (n * 4)) i → 2 * i ≤ n * 4) ∧ m = n * 4)

/-- Without the blanks before the cut, `k` characters are left. -/
structure LeftBefore (text : Text) (m k : Nat) : Prop where
  within : k ≤ text.length
  short : k ≤ m
  blanks : ∀ c ∈ (text.take m).drop k, isPySpace c = true
  last : ∀ c ∈ (text.take k).getLast?, isPySpace c = false

theorem EndsSentence.lt {s : Text} {i : Nat} (h : EndsSentence s i) : i < s.length := by
  have hlen : 1 ≤ (s.drop i).length := by
    rcases h with h | h
    · have hle := h.length_le
      have hdot : (". ".toList).length = 2 := rfl
      omega
    · exact h.length_le
  rw [List.length_drop] at hlen
  omega

theorem sentenceBoundary_ends {s : Text} (h : 0 ≤ sentenceBoundary s) :
    EndsSentence s (sentenceBoundary s).toNat := by
  by_cases hle : rfind ". ".toList s ≤ rfind "\n".toList s
  · have hmax : sentenceBoundary s = rfind "\n".toList s := Int.max_eq_right hle
    rw [hmax] at h ⊢
    exact Or.inr (rfind_begins h)
  · have hmax : sentenceBoundary s = rfind ". ".toList s := Int.max_eq_left (by omega)
    rw [hmax] at h ⊢
    exact Or.inl (rfind_begins h)

theorem EndsSentence.le_boundary {s : Text} {i : Nat} (h : EndsSentence s i) : (i : Int) ≤ sentenceBoundary s := by
  have hi := Nat.le_of_lt h.lt
  rcases h with h | h
  · exact Int.le_trans (le_rfind hi h) (Int.le_max_left _ _)
  · exact Int.le_trans (le_rfind hi h) (Int.le_max_right _ _)

theorem take_take_of_le {text : Text} {m k : Nat} (h : k ≤ m) :
    text.take m = text.take k ++ (text.take m).drop k := by
  rw [← Nat.min_eq_left h, ← List.take_take, Nat.min_eq_left h, List.take_append_drop]

theorem LeftBefore.rstrip_take {text : Text} {m k : Nat} (h : LeftBefore text m k) :
    rstrip (text.take m) = text.take k := by
  have hlast : (text.take k).rdropWhile isPySpace = text.take k := by
    rw [List.rdropWhile_eq_self_iff]
    intro hne hspace
    have hfalse := h.last _ (List.getLast_mem_getLast? hne)
    rw [hspace] at hfalse
    cases hfalse
  have hblanks : ((text.take m).drop k).reverse.dropWhile isPySpace = [] := by
    rw [List.dropWhile_eq_nil_iff]
    intro c hc
    exact h.blanks c (List.mem_reverse.mp hc)
  rw [rstrip, take_take_of_le h.short, List.rdropWhile, List.reverse_append, List.dropWhile_append, hblanks]
  exact hlast

theorem leftBefore_rstrip (text : Text) (m : Nat) : LeftBefore text m (rstrip (text.take m)).length := by
  have hpre : rstrip (text.take m) <+: text.take m := List.rdropWhile_prefix isPySpace _
  have htake : text.take (rstrip (text.take m)).length = rstrip (text.take m) :=
    (List.prefix_iff_eq_take.mp (hpre.trans (List.take_prefix m text))).symm
  have hle := hpre.length_le
  rw [List.length_take] at hle
  have hdrop : (text.take m).drop (rstrip (text.take m)).length = (text.take m).rtakeWhile isPySpace := by
    have hsplit := List.rdropWhile_append_rtakeWhile (p := isPySpace) (l := text.take m)
    calc (text.take m).drop (rstrip (text.take m)).length
        = (rstrip (text.take m) ++ (text.take m).rtakeWhile isPySpace).drop (rstrip (text.take m)).length := by
          rw [rstrip, hsplit]
      _ = (text.take m).rtakeWhile isPySpace := List.drop_left
  constructor
  · omega
  · omega
  · intro c hc
    rw [hdrop] at hc
    exact List.mem_rtakeWhile_imp hc
  · intro c hc
    rw [htake] at hc
    obtain ⟨hne, rfl⟩ := List.mem_getLast?_eq_getLast hc
    exact Bool.eq_false_iff.mpr (List.rdropWhile_last_not isPySpace (text.take m) hne)

/-- Where `truncate_text` cuts. -/
def cutPlace (text : Text) (n : Nat) : Nat :=
  if ((n * 4 : Nat) : Int) < 2 * sentenceBoundary (text.take (n * 4)) then
    (sentenceBoundary (text.take (n * 4)) + 1).toNat
  else n * 4

theorem cutAfter_iff {text : Text} {n m : Nat} : CutAfter text n m ↔ m = cutPlace text n := by
  simp only [CutAfter, cutPlace]
  constructor
  · rintro (⟨b, hb, hlast, hpast, rfl⟩ | ⟨hnone, rfl⟩)
    · have hle := hb.le_boundary
      have hge := hlast _ (sentenceBoundary_ends (by omega))
      rw [if_pos (by omega)]
      omega
    · rw [if_neg]
      intro hpast
      have hend := hnone _ (sentenceBoundary_ends (by omega))
      omega
  · rintro rfl
    split
    · rename_i hpast
      have hend := sentenceBoundary_ends (s := text.take (n * 4)) (by omega)
      left
      refine ⟨_, hend, ?_, ?_, ?_⟩
      · intro i hi
        have hle := hi.le_boundary
        omega
      · omega
      · omega
    · rename_i hpast
      right
      refine ⟨?_, rfl⟩
      intro i hi
      have hle := hi.le_boundary
      omega

theorem truncateText_eq {text : Text} {n : Nat} (h : ¬ estimateTokens text ≤ n) :
    truncateText text n = rstrip (text.take (cutPlace text n)) := by
  have hne : text ≠ [] := by
    rintro rfl
    simp [estimateTokens] at h
  rw [truncateText, if_neg hne, if_neg h]
  simp only [cutPlace]
  split
  · rename_i hpast
    have hlt := (sentenceBoundary_ends (s := text.take (n * 4)) (by omega)).lt
    rw [List.length_take] at hlt
    rw [List.take_take, Nat.min_eq_left (by omega)]
  · rfl

/-! ## The budget -/

theorem truncateText_begins (text : Text) (n : Nat) : truncateText text n <+: text := by
  by_cases h : estimateTokens text ≤ n
  · simp [truncateText, h]
  · rw [truncateText_eq h]
    exact (List.rdropWhile_prefix isPySpace _).trans (List.take_prefix _ _)

theorem estimateTokens_le_iff {r : Text} {n : Nat} (h : r.length ≤ n * 4) :
    estimateTokens r ≤ n ↔ r.length < 3 * n + 3 ∨ cjkHeavy r = false := by
  by_cases hr : r = []
  · subst hr
    simp [estimateTokens]
  have hpos : 0 < r.length := List.length_pos_iff.mpr hr
  rw [estimateTokens, if_neg hr]
  cases cjkHeavy r with
  | true =>
    simp only [if_true, Bool.true_eq_false, or_false]
    omega
  | false =>
    simp only [Bool.false_eq_true, if_false, or_true, iff_true]
    omega

theorem cutPlace_le (text : Text) (n : Nat) : cutPlace text n ≤ n * 4 := by
  simp only [cutPlace]
  split
  · have hlt := (sentenceBoundary_ends (s := text.take (n * 4)) (by omega)).lt
    rw [List.length_take] at hlt
    omega
  · exact le_refl _

/-- The result is a prefix of the text within the budget, and the text itself if that fits. -/
def WithinBudget (text : Text) (n : Nat) : Prop :=
  truncateText text n <+: text ∧ estimateTokens (truncateText text n) ≤ n ∧
    (estimateTokens text ≤ n → truncateText text n = text)

theorem truncate_text_fits (text : Text) (n : Nat) :
    WithinBudget text n ↔ estimateTokens text ≤ n ∨
      ∀ m k, CutAfter text n m → LeftBefore text m k → k < 3 * n + 3 ∨ cjkHeavy (text.take k) = false := by
  by_cases hfits : estimateTokens text ≤ n
  · have hself : truncateText text n = text := by simp [truncateText, hfits]
    simp [WithinBudget, hself, hfits]
  have hcut : ∀ m k, CutAfter text n m → LeftBefore text m k → truncateText text n = text.take k := by
    intro m k hm hk
    rw [cutAfter_iff] at hm
    rw [truncateText_eq hfits, ← hm, hk.rstrip_take]
  have hbudget : ∀ m k, CutAfter text n m → LeftBefore text m k →
      (estimateTokens (truncateText text n) ≤ n ↔ k < 3 * n + 3 ∨ cjkHeavy (text.take k) = false) := by
    intro m k hm hk
    have hlen : (text.take k).length = k := by
      rw [List.length_take, Nat.min_eq_left hk.within]
    have hshort : k ≤ n * 4 := by
      rw [cutAfter_iff] at hm
      exact le_trans hk.short (hm ▸ cutPlace_le text n)
    have hle := estimateTokens_le_iff (r := text.take k) (n := n) (by omega)
    rw [hlen] at hle
    rw [hcut m k hm hk, hle]
  constructor
  · rintro ⟨-, hle, -⟩
    right
    intro m k hm hk
    exact (hbudget m k hm hk).mp hle
  · rintro (hle | hall)
    · exact absurd hle hfits
    · have hm : CutAfter text n (cutPlace text n) := cutAfter_iff.mpr rfl
      have hk := leftBefore_rstrip text (cutPlace text n)
      exact ⟨truncateText_begins text n, (hbudget _ _ hm hk).mpr (hall _ _ hm hk), fun h => absurd h hfits⟩

/-- Sixteen CJK characters and a budget of three: twelve are kept, and they count four. -/
theorem truncate_text_overruns : ¬ WithinBudget (List.replicate 16 '\u4e2d') 3 := by
  rintro ⟨-, hle, -⟩
  exact absurd hle (by decide)

end Lumogis
