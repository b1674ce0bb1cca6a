import Mathlib.Logic.Relation
import Mathlib.Data.List.Basic

/-!
# Lib.Contraction

Elements that are merged into one another, one pair at a time: `(l, w)` takes the loser `l` into the
winner `w`.

`MergedInto log x r`: by merges of the log, in whatever order, `x` has become `r`; `Joined` says that
two elements have become one. `mayBecome pairs x` lists what `x` can become when any of the pairs
are merged, in the order of the list. Where nothing merged away is ever named again (`Gone`), the
merges that happened stay within the list: `Joined.mayBecome`.
-/

namespace Contraction

variable {ι : Type}

/-- By the merges of the log, the first element has become the second. -/
def MergedInto (log : List (ι × ι)) : ι → ι → Prop :=
  Relation.ReflTransGen fun loser winner => (loser, winner) ∈ log

/-- Two elements have become one. -/
def Joined (log : List (ι × ι)) (x y : ι) : Prop := ∃ r, MergedInto log x r ∧ MergedInto log y r

/-- No merge is of an element with itself, and a loser is not named by a later merge. -/
def Gone (log : List (ι × ι)) : Prop :=
  (∀ m ∈ log, m.1 ≠ m.2) ∧ log.Pairwise fun m m' => m'.1 ≠ m.1 ∧ m'.2 ≠ m.1

theorem Gone.cons {log : List (ι × ι)} {m : ι × ι} (h : Gone log) (hne : m.1 ≠ m.2)
    (hlater : ∀ m' ∈ log, m'.1 ≠ m.1 ∧ m'.2 ≠ m.1) : Gone (m :: log) := by
  constructor
  · intro m' hm'
    rcases List.mem_cons.mp hm' with rfl | hm'
    · exact hne
    · exact h.1 m' hm'
  · exact List.pairwise_cons.mpr ⟨hlater, h.2⟩

/-- Nothing becomes an element that no merge takes for its winner, unless it is that element. -/
theorem MergedInto.not_loser {log : List (ι × ι)} {x r l : ι} (h : MergedInto log x r)
    (hl : ∀ m ∈ log, m.2 ≠ l) (hx : x ≠ l) : r ≠ l := by
  induction h with
  | refl => exact hx
  | tail _ hm _ => exact hl _ hm

/-- After the first merge of the log: either the element was its loser, or it goes on without it. -/
theorem MergedInto.cons {m : ι × ι} {log : List (ι × ι)} {x r : ι} (h : MergedInto (m :: log) x r)
    (hgone : Gone (m :: log)) :
    MergedInto log x r ∨ x = m.1 ∧ MergedInto log m.2 r := by
  have hnew := List.pairwise_cons.mp hgone.2
  have hwin : ∀ m' ∈ m :: log, m'.2 ≠ m.1 := by
    intro m' hm'
    rcases List.mem_cons.mp hm' with rfl | hm'
    · exact (hgone.1 _ (by simp)).symm
    · exact (hnew.1 m' hm').2
  induction h with
  | refl => exact .inl .refl
  | @tail b c hb hm ih =>
    rcases List.mem_cons.mp hm with rfl | hm
    · -- only the loser itself can be taken by the first merge
      by_cases hx : x = b
      · exact .inr ⟨hx, .refl⟩
      · exact absurd rfl (MergedInto.not_loser hb hwin hx)
    · rcases ih with ih | ⟨hx, ih⟩
      · exact .inl (ih.tail hm)
      · exact .inr ⟨hx, ih.tail hm⟩

section Pairs

variable [DecidableEq ι]

/-- One pair takes the loser among `xs` further. -/
def follow (xs : List ι) (m : ι × ι) : List ι := if m.1 ∈ xs then m.2 :: xs else xs

def mayBecome (pairs : List (ι × ι)) (x : ι) : List ι := pairs.foldl follow [x]

/-- No element is one that both can become. -/
def apart (pairs : List (ι × ι)) (x y : ι) : Bool :=
  (mayBecome pairs x).all fun r => !(mayBecome pairs y).contains r

theorem apart_iff {pairs : List (ι × ι)} {x y : ι} :
    apart pairs x y = true ↔ ∀ r ∈ mayBecome pairs x, r ∉ mayBecome pairs y := by
  simp [apart]

theorem follow_subset {xs ys : List ι} {m : ι × ι} (h : xs ⊆ ys) : follow xs m ⊆ follow ys m := by
  unfold follow
  intro r hr
  split at hr
  · rename_i hm
    rw [if_pos (h hm)]
    rcases List.mem_cons.mp hr with rfl | hr
    · simp
    · exact List.mem_cons_of_mem _ (h hr)
  · split
    · exact List.mem_cons_of_mem _ (h hr)
    · exact h hr

theorem subset_follow (xs : List ι) (m : ι × ι) : xs ⊆ follow xs m := by
  unfold follow
  intro r hr
  split
  · exact List.mem_cons_of_mem _ hr
  · exact hr

theorem foldl_follow_subset {pairs : List (ι × ι)} {xs ys : List ι} (h : xs ⊆ ys) :
    pairs.foldl follow xs ⊆ pairs.foldl follow ys := by
  induction pairs generalizing xs ys with
  | nil => exact h
  | cons m pairs ih => exact ih (follow_subset h)

/-- Fewer merges lead to fewer elements. -/
theorem mayBecome_sublist {log pairs : List (ι × ι)} (h : log.Sublist pairs) (xs : List ι) :
    log.foldl follow xs ⊆ pairs.foldl follow xs := by
  induction h generalizing xs with
  | slnil => exact fun _ h => h
  | cons m _ ih => exact fun r hr => foldl_follow_subset (subset_follow xs m) (ih xs hr)
  | cons_cons m _ ih => exact ih _

theorem MergedInto.mem {log : List (ι × ι)} {x r : ι} (h : MergedInto log x r) (hgone : Gone log)
    {xs : List ι} (hx : x ∈ xs) : r ∈ log.foldl follow xs := by
  induction log generalizing x xs with
  | nil =>
    cases h with
    | refl => exact hx
    | tail _ hm => cases hm
  | cons m log ih =>
    have hrest : Gone log :=
      ⟨fun m' hm' => hgone.1 m' (by simp [hm']), (List.pairwise_cons.mp hgone.2).2⟩
    rcases MergedInto.cons h hgone with hlog | ⟨rfl, hlog⟩
    · exact ih hlog hrest (subset_follow xs m hx)
    · refine ih hlog hrest ?_
      rw [follow, if_pos hx]
      simp

theorem MergedInto.mayBecome {log pairs : List (ι × ι)} {x r : ι} (h : MergedInto log x r)
    (hgone : Gone log) (hsub : log.Sublist pairs) : r ∈ mayBecome pairs x :=
  mayBecome_sublist hsub [x] (h.mem hgone (by simp))

/-- Elements that no choice among the pairs can join are not joined by the merges that happened. -/
theorem Joined.mayBecome {log pairs : List (ι × ι)} {x y : ι} (h : Joined log x y)
    (hgone : Gone log) (hsub : log.Sublist pairs) :
    ∃ r ∈ mayBecome pairs x, r ∈ Contraction.mayBecome pairs y := by
  obtain ⟨r, hx, hy⟩ := h
  exact ⟨r, hx.mayBecome hgone hsub, hy.mayBecome hgone hsub⟩

end Pairs

end Contraction
