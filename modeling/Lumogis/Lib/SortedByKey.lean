import Mathlib.Data.List.Sort

/-!
# Lib.SortedByKey

A stable sort by a key, and a text that is written from the sorted list, one piece for each element.

Elements with different keys end up in the order of their keys, elements with one key stay in the order
they were in. So the text depends on the order of the list only through elements with one key: it is the
same for all orders when the pieces of two such elements can be swapped (`flatMap_sortByKey_perm`), and
no two orders of them give the same text otherwise (`swap_of_flatMap_sortByKey`).
-/

namespace SortedByKey

variable {α β κ : Type} [LinearOrder κ] (key : α → κ)

/-- `sorted(.., key=..)`. -/
def sortByKey (xs : List α) : List α := xs.insertionSort fun a b => key a ≤ key b

/-- In the order of the keys. -/
def Sorted (xs : List α) : Prop := xs.Pairwise fun a b => key a ≤ key b

variable {key}

theorem sorted_sortByKey (xs : List α) : Sorted key (sortByKey key xs) := by
  have htotal : Std.Total fun a b : α => key a ≤ key b := ⟨fun a b => le_total (key a) (key b)⟩
  have htrans : IsTrans α fun a b : α => key a ≤ key b := ⟨fun _ _ _ h h' => h.trans h'⟩
  exact List.pairwise_insertionSort _ xs

theorem sortByKey_perm (xs : List α) : (sortByKey key xs).Perm xs := List.perm_insertionSort _ xs

theorem sortByKey_of_sorted {xs : List α} (h : Sorted key xs) : sortByKey key xs = xs :=
  List.Pairwise.insertionSort_eq h

theorem insert_front {a b : α} (xs : List α) (h : key a ≤ key b) :
    (b :: xs).orderedInsert (fun a b => key a ≤ key b) a = a :: b :: xs :=
  List.orderedInsert_cons_of_le (fun a b => key a ≤ key b) xs h

theorem insert_later {a b : α} (xs : List α) (h : ¬ key a ≤ key b) :
    (b :: xs).orderedInsert (fun a b => key a ≤ key b) a
      = b :: xs.orderedInsert (fun a b => key a ≤ key b) a :=
  List.orderedInsert_of_not_le (fun a b => key a ≤ key b) xs h

theorem filter_orderedInsert (p : α → Bool) (a : α) {xs : List α} (h : Sorted key xs) :
    (xs.orderedInsert (fun a b => key a ≤ key b) a).filter p
      = if p a then (xs.filter p).orderedInsert (fun a b => key a ≤ key b) a else xs.filter p := by
  induction xs with
  | nil => by_cases hp : p a <;> simp [hp]
  | cons x xs ih =>
    have htail := List.pairwise_cons.mp h
    by_cases hle : key a ≤ key x
    · rw [insert_front _ hle]
      by_cases hp : p a
      · -- all that is left has a key from that of `a` on, also after filtering
        have hall : ∀ b ∈ (x :: xs).filter p, key a ≤ key b := by
          intro b hb
          rcases List.mem_cons.mp (List.mem_filter.mp hb).1 with rfl | hb
          · exact hle
          · exact hle.trans (htail.1 b hb)
        have hfront : ((x :: xs).filter p).orderedInsert (fun a b => key a ≤ key b) a
            = a :: (x :: xs).filter p := by
          cases hrest : (x :: xs).filter p with
          | nil => rfl
          | cons b rest =>
            exact insert_front _ (hall b (by simp [hrest]))
        rw [if_pos hp, hfront, List.filter_cons_of_pos hp]
      · rw [if_neg hp, List.filter_cons_of_neg hp]
    · rw [insert_later _ hle]
      by_cases hx : p x
      · rw [List.filter_cons_of_pos hx, List.filter_cons_of_pos hx, ih htail.2]
        by_cases hp : p a
        · rw [if_pos hp, if_pos hp, insert_later _ hle]
        · rw [if_neg hp, if_neg hp]
      · rw [List.filter_cons_of_neg hx, List.filter_cons_of_neg hx, ih htail.2]

/-- Some of the elements come in the order they would be sorted in alone. -/
theorem filter_sortByKey (p : α → Bool) (xs : List α) :
    (sortByKey key xs).filter p = sortByKey key (xs.filter p) := by
  induction xs with
  | nil => rfl
  | cons x xs ih =>
    have hsorted : Sorted key (sortByKey key xs) := sorted_sortByKey xs
    have hstep := filter_orderedInsert p x hsorted
    rw [sortByKey, List.insertionSort_cons]
    rw [sortByKey] at hstep
    rw [hstep]
    by_cases hp : p x
    · rw [if_pos hp, List.filter_cons_of_pos hp, ← sortByKey, ih]
      rfl
    · rw [if_neg hp, List.filter_cons_of_neg hp, ← sortByKey, ih]

/-- A sorted list is cut in three by a key. -/
theorem split_at_key {xs : List α} (h : Sorted key xs) (k : κ) :
    xs = xs.filter (fun a => key a < k) ++ (xs.filter (fun a => key a = k) ++
      xs.filter (fun a => k < key a)) := by
  induction xs with
  | nil => rfl
  | cons x xs ih =>
    have htail := List.pairwise_cons.mp h
    have hrest := ih htail.2
    rcases lt_trichotomy (key x) k with hlt | heq | hgt
    · have hne : key x ≠ k := hlt.ne
      have hnot : ¬ k < key x := hlt.asymm
      simp only [List.filter_cons, hlt, hne, hnot, decide_true, decide_false, if_true, if_false,
        Bool.false_eq_true, List.cons_append]
      rw [← hrest]
    · have hnone : xs.filter (fun a => key a < k) = [] := by
        rw [List.filter_eq_nil_iff]
        intro a ha
        simpa using heq ▸ htail.1 a ha
      rw [hnone, List.nil_append] at hrest
      simp only [List.filter_cons, heq, lt_irrefl, decide_true, decide_false, if_true, if_false,
        Bool.false_eq_true, hnone, List.nil_append, List.cons_append]
      rw [← hrest]
    · have hnone : xs.filter (fun a => key a < k) = [] := by
        rw [List.filter_eq_nil_iff]
        intro a ha
        simpa using (hgt.trans_le (htail.1 a ha)).le
      have hnone' : xs.filter (fun a => key a = k) = [] := by
        rw [List.filter_eq_nil_iff]
        intro a ha
        simpa using (hgt.trans_le (htail.1 a ha)).ne'
      have hne : key x ≠ k := hgt.ne'
      have hnot : ¬ key x < k := hgt.asymm
      rw [hnone, hnone', List.nil_append, List.nil_append] at hrest
      simp only [List.filter_cons, hgt, hne, hnot, decide_true, decide_false, if_true, if_false,
        Bool.false_eq_true, hnone, hnone', List.nil_append]
      rw [← hrest]

/-! ## The text -/

variable {piece : α → List β}

theorem flatMap_perm_of_swap {xs ys : List α} (h : xs.Perm ys)
    (hswap : ∀ a ∈ xs, ∀ b ∈ xs, piece a ++ piece b = piece b ++ piece a) :
    xs.flatMap piece = ys.flatMap piece := by
  induction h with
  | nil => rfl
  | cons x _ ih =>
    rw [List.flatMap_cons, List.flatMap_cons, ih]
    intro a ha b hb
    exact hswap a (List.mem_cons_of_mem _ ha) b (List.mem_cons_of_mem _ hb)
  | swap x y l =>
    have hxy := hswap y (by simp) x (by simp)
    simp only [List.flatMap_cons, ← List.append_assoc, hxy]
  | trans hl _ ih ih' =>
    rw [ih hswap]
    refine ih' fun a ha b hb => ?_
    exact hswap a (hl.mem_iff.mpr ha) b (hl.mem_iff.mpr hb)

theorem flatMap_sorted_perm :
    ∀ {n : Nat} {xs ys : List α}, xs.length = n → Sorted key xs → Sorted key ys → xs.Perm ys →
      (∀ a ∈ xs, ∀ b ∈ xs, key a = key b → piece a ++ piece b = piece b ++ piece a) →
      xs.flatMap piece = ys.flatMap piece := by
  intro n
  induction n using Nat.strong_induction_on with
  | _ n ih =>
    intro xs ys hlen hxs hys hperm hswap
    cases xs with
    | nil => rw [List.nil_perm.mp hperm]
    | cons x xs =>
      have hleast : ∀ a ∈ x :: xs, key x ≤ key a := by
        intro a ha
        rcases List.mem_cons.mp ha with rfl | ha
        · exact le_refl _
        · exact (List.pairwise_cons.mp hxs).1 a ha
      have hnone : (x :: xs).filter (fun a => key a < key x) = [] := by
        rw [List.filter_eq_nil_iff]
        intro a ha
        simpa using hleast a ha
      have hnone' : ys.filter (fun a => key a < key x) = [] :=
        List.nil_perm.mp (hnone ▸ hperm.filter _)
      have hfirst : ((x :: xs).filter (fun a => key a = key x)).flatMap piece
          = (ys.filter (fun a => key a = key x)).flatMap piece := by
        refine flatMap_perm_of_swap (hperm.filter _) fun a ha b hb => ?_
        obtain ⟨ha, hka⟩ := List.mem_filter.mp ha
        obtain ⟨hb, hkb⟩ := List.mem_filter.mp hb
        simp only [decide_eq_true_eq] at hka hkb
        exact hswap a ha b hb (hka.trans hkb.symm)
      have hlater : ((x :: xs).filter (fun a => key x < key a)).flatMap piece
          = (ys.filter (fun a => key x < key a)).flatMap piece := by
        have hshort : ((x :: xs).filter (fun a => key x < key a)).length < n := by
          rw [List.filter_cons_of_neg (by simp), ← hlen]
          exact Nat.lt_succ_of_le (List.length_filter_le _ _)
        refine ih _ hshort rfl (hxs.filter _) (hys.filter _) (hperm.filter _) fun a ha b hb => ?_
        exact hswap a (List.mem_filter.mp ha).1 b (List.mem_filter.mp hb).1
      rw [split_at_key hxs (key x), split_at_key hys (key x), hnone, hnone']
      simp only [List.nil_append, List.flatMap_append, hfirst, hlater]

/-- Where the pieces of elements with one key can be swapped, all orders give the same text. -/
theorem flatMap_sortByKey_perm {xs ys : List α} (h : xs.Perm ys)
    (hswap : ∀ a ∈ xs, ∀ b ∈ xs, key a = key b → piece a ++ piece b = piece b ++ piece a) :
    (sortByKey key xs).flatMap piece = (sortByKey key ys).flatMap piece := by
  have hperm : (sortByKey key xs).Perm (sortByKey key ys) :=
    (sortByKey_perm xs).trans (h.trans (sortByKey_perm ys).symm)
  refine flatMap_sorted_perm rfl (sorted_sortByKey xs) (sorted_sortByKey ys) hperm fun a ha b hb => ?_
  exact hswap a ((sortByKey_perm xs).mem_iff.mp ha) b ((sortByKey_perm xs).mem_iff.mp hb)

/-- Two elements with one key, at the front in either order: the text tells the orders apart unless
their pieces can be swapped. -/
theorem swap_of_flatMap_sortByKey {x y : α} {l : List α} (hkey : key x = key y)
    (h : (sortByKey key (x :: y :: l)).flatMap piece = (sortByKey key (y :: x :: l)).flatMap piece) :
    piece x ++ piece y = piece y ++ piece x := by
  have hsame : ∀ l' : List α, Sorted key (l'.filter fun a => key a = key x) := by
    intro l'
    refine List.pairwise_of_forall_mem_list fun a ha b hb => ?_
    have hka := (List.mem_filter.mp ha).2
    have hkb := (List.mem_filter.mp hb).2
    simp only [decide_eq_true_eq] at hka hkb
    rw [hka, hkb]
  rw [split_at_key (sorted_sortByKey (x :: y :: l)) (key x),
    split_at_key (sorted_sortByKey (y :: x :: l)) (key x)] at h
  simp only [filter_sortByKey, sortByKey_of_sorted (hsame _), List.flatMap_append] at h
  have hbefore : (x :: y :: l).filter (fun a => key a < key x)
      = (y :: x :: l).filter (fun a => key a < key x) := by simp [hkey]
  rw [hbefore, List.append_right_inj] at h
  simp only [List.filter_cons, hkey, decide_true, if_true, List.flatMap_cons, List.append_assoc] at h
  have hfront := (List.append_inj (by simpa only [List.append_assoc] using h :
    (piece x ++ piece y) ++ _ = (piece y ++ piece x) ++ _) (by simp [Nat.add_comm])).1
  exact hfront

end SortedByKey
