import Mathlib.Data.List.Nodup
import Mathlib.Order.Lattice
import Mathlib.Order.Defs.LinearOrder

/-!
# Lib.RankFusion

Ranked lists fused into one. A post gives an item a weight on behalf of a source; the entries collect the
posts in the order in which they come, one entry an item, whose score is the sum of its weights. The
entries are ordered by their scores, the best first, and by their items where the scores agree, so that
none that is cut off is better than one that is kept (`score_le_of_cut`).
-/

namespace RankFusion

variable {α κ F : Type}

structure Post (α κ F : Type) where
  item : α
  source : κ
  weight : F

structure Entry (α κ F : Type) where
  item : α
  score : F
  sources : List κ

section Collecting

variable [DecidableEq α] [Zero F] [Add F]

/-- The entry of the item, or a new one behind the others. -/
def collect (entries : List (Entry α κ F)) (p : Post α κ F) : List (Entry α κ F) :=
  match entries with
  | [] => [⟨p.item, 0 + p.weight, [p.source]⟩]
  | e :: rest =>
    if e.item = p.item then ⟨e.item, e.score + p.weight, e.sources ++ [p.source]⟩ :: rest
    else e :: collect rest p

def fuse (posts : List (Post α κ F)) : List (Entry α κ F) := posts.foldl collect []

/-- The posts of the item, in their order. -/
def postsOf (item : α) (posts : List (Post α κ F)) : List (Post α κ F) := posts.filter fun p => decide (p.item = item)

/-- What the posts come to for the item. -/
def entryOf (posts : List (Post α κ F)) (item : α) : Entry α κ F where
  item := item
  score := (postsOf item posts).foldl (fun score p => score + p.weight) 0
  sources := (postsOf item posts).map Post.source

variable {entries : List (Entry α κ F)} {posts : List (Post α κ F)} {p : Post α κ F} {item : α}

theorem collect_items :
    (collect entries p).map Entry.item =
      if p.item ∈ entries.map Entry.item then entries.map Entry.item else entries.map Entry.item ++ [p.item] := by
  induction entries with
  | nil => simp [collect]
  | cons e rest ih =>
    rw [collect]
    by_cases he : e.item = p.item
    · simp [he]
    · have hne : ¬ p.item = e.item := fun h => he h.symm
      simp only [if_neg he, List.map_cons, ih, List.mem_cons, hne, false_or]
      split
      · rfl
      · rfl

theorem entryOf_append_other (h : p.item ≠ item) : entryOf (posts ++ [p]) item = entryOf posts item := by
  simp [entryOf, postsOf, h]

/-- Each entry is what the posts come to for its item. -/
theorem collect_entryOf (hentries : ∀ e ∈ entries, e = entryOf posts e.item)
    (hmissing : p.item ∉ entries.map Entry.item → postsOf p.item posts = [])
    (hnodup : (entries.map Entry.item).Nodup) :
    ∀ e ∈ collect entries p, e = entryOf (posts ++ [p]) e.item := by
  induction entries with
  | nil =>
    intro e he
    rw [collect, List.mem_singleton] at he
    subst he
    have hnone := hmissing (by simp)
    rw [postsOf] at hnone
    simp [entryOf, postsOf, List.filter_append, hnone]
  | cons x rest ih =>
    rw [List.forall_mem_cons] at hentries
    rw [List.map_cons, List.nodup_cons] at hnodup
    intro e he
    rw [collect] at he
    split at he
    · rename_i hx
      rw [List.mem_cons] at he
      rcases he with rfl | he
      · rw [hentries.1]
        simp [entryOf, postsOf, List.filter_append, hx]
      · have hne : p.item ≠ e.item := by
          rintro hp
          exact hnodup.1 (hx ▸ hp ▸ List.mem_map_of_mem he)
        rw [entryOf_append_other hne]
        exact hentries.2 e he
    · rename_i hx
      rw [List.mem_cons] at he
      rcases he with rfl | he
      · rw [entryOf_append_other (Ne.symm hx)]
        exact hentries.1
      · refine ih hentries.2 ?_ hnodup.2 e he
        intro hmem
        apply hmissing
        rw [List.map_cons, List.mem_cons, not_or]
        exact ⟨Ne.symm hx, hmem⟩

/-- The entries after the posts. -/
structure Fused (posts : List (Post α κ F)) (entries : List (Entry α κ F)) : Prop where
  nodup : (entries.map Entry.item).Nodup
  items : ∀ item, item ∈ entries.map Entry.item ↔ ∃ p ∈ posts, p.item = item
  entries : ∀ e ∈ entries, e = entryOf posts e.item

theorem Fused.collect (h : Fused posts entries) : Fused (posts ++ [p]) (collect entries p) where
  nodup := by
    rw [collect_items]
    split
    · exact h.nodup
    · rename_i hnot
      exact List.nodup_append.mpr ⟨h.nodup, List.nodup_singleton _, fun a ha b hb hab =>
        hnot (List.mem_singleton.mp hb ▸ hab ▸ ha)⟩
  items := by
    intro item
    have hold := h.items item
    rw [collect_items]
    split
    · rename_i hmem
      rw [hold]
      constructor
      · rintro ⟨q, hq, rfl⟩
        exact ⟨q, List.mem_append_left _ hq, rfl⟩
      · rintro ⟨q, hq, rfl⟩
        rw [List.mem_append, List.mem_singleton] at hq
        rcases hq with hq | rfl
        · exact ⟨q, hq, rfl⟩
        · exact (h.items _).mp hmem
    · rw [List.mem_append, hold, List.mem_singleton]
      constructor
      · rintro (⟨q, hq, rfl⟩ | rfl)
        · exact ⟨q, List.mem_append_left _ hq, rfl⟩
        · exact ⟨p, by simp, rfl⟩
      · rintro ⟨q, hq, rfl⟩
        rw [List.mem_append, List.mem_singleton] at hq
        rcases hq with hq | rfl
        · exact Or.inl ⟨q, hq, rfl⟩
        · exact Or.inr rfl
  entries := by
    refine collect_entryOf h.entries ?_ h.nodup
    intro hnot
    rw [h.items] at hnot
    rw [postsOf, List.filter_eq_nil_iff]
    intro q hq
    simp only [decide_eq_true_eq]
    exact fun he => hnot ⟨q, hq, he⟩

theorem fused_foldl {done : List (Post α κ F)} (h : Fused done entries) :
    Fused (done ++ posts) (posts.foldl RankFusion.collect entries) := by
  induction posts generalizing done entries with
  | nil => simpa using h
  | cons p posts ih =>
    rw [List.append_cons]
    exact ih h.collect

theorem fused_fuse (posts : List (Post α κ F)) : Fused posts (fuse posts) := by
  have hempty : @Fused α κ F _ _ _ [] [] := ⟨by simp, by simp, by simp⟩
  exact fused_foldl hempty

end Collecting

/-! ## The best first -/

section Order

variable [LinearOrder α] [LinearOrder F]

def before (a b : Entry α κ F) : Bool :=
  decide (b.score < a.score) || (decide (a.score = b.score) && decide (a.item ≤ b.item))

theorem score_le_of_before {a b : Entry α κ F} (h : before a b = true) : b.score ≤ a.score := by
  simp only [before, Bool.or_eq_true, Bool.and_eq_true, decide_eq_true_eq] at h
  rcases h with h | h
  · exact h.le
  · exact h.1.ge

theorem before_trans (a b c : Entry α κ F) (hab : before a b = true) (hbc : before b c = true) : before a c = true := by
  simp only [before, Bool.or_eq_true, Bool.and_eq_true, decide_eq_true_eq] at hab hbc ⊢
  rcases hab with hab | ⟨hab, hitems⟩
  · rcases hbc with hbc | ⟨hbc, -⟩
    · exact Or.inl (hbc.trans hab)
    · exact Or.inl (hbc ▸ hab)
  · rcases hbc with hbc | ⟨hbc, hitems'⟩
    · exact Or.inl (hab ▸ hbc)
    · exact Or.inr ⟨hab.trans hbc, hitems.trans hitems'⟩

theorem before_total (a b : Entry α κ F) : (before a b || before b a) = true := by
  simp only [before, Bool.or_eq_true, Bool.and_eq_true, decide_eq_true_eq]
  rcases lt_trichotomy a.score b.score with h | h | h
  · exact Or.inr (Or.inl h)
  · rcases le_total a.item b.item with hi | hi
    · exact Or.inl (Or.inr ⟨h, hi⟩)
    · exact Or.inr (Or.inr ⟨h.symm, hi⟩)
  · exact Or.inl (Or.inl h)

def bestFirst (entries : List (Entry α κ F)) : List (Entry α κ F) := entries.mergeSort before

theorem pairwise_bestFirst (entries : List (Entry α κ F)) :
    (bestFirst entries).Pairwise fun a b => b.score ≤ a.score :=
  (List.pairwise_mergeSort before_trans before_total entries).imp score_le_of_before

end Order

/-- In a list with the best first, what is cut off is no better than what is kept. -/
theorem score_le_of_cut {β : Type} [LE F] {score : β → F} {l : List β} (h : l.Pairwise fun a b => score b ≤ score a)
    (n : Nat) {a b : β} (ha : a ∈ l.take n) (hb : b ∈ l.drop n) : score b ≤ score a := by
  rw [← List.take_append_drop n l, List.pairwise_append] at h
  exact h.2.2 a ha b hb

end RankFusion
