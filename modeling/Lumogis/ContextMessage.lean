import Lumogis.ContextInjection

/-!
# ContextMessage

The context message as a text, and the hits with some text in it: those whose text the markup does not
empty, and in the plain message those that begin before the place of the cut.
-/

namespace Lumogis

open Permissions

/-! ## The content of the parts -/

@[simp] theorem contentOf_nil : contentOf [] = [] := rfl

@[simp] theorem contentOf_cons (p : ContextPart) (parts : List ContextPart) :
    contentOf (p :: parts) = p.text ++ contentOf parts := rfl

theorem contentOf_append (ps qs : List ContextPart) : contentOf (ps ++ qs) = contentOf ps ++ contentOf qs :=
  List.flatMap_append

/-- The plain fragments in one text. -/
def joinedText (frs : List ContextFragment) : Text :=
  contentOf (joinParts (frs.map fun f => [plainPart f]))

/-! ## The hits that are shown -/

/-- The hits with some text among the parts, in order. -/
def shownHits (parts : List ContextPart) : List DocumentContextHit :=
  parts.filterMap fun p => if p.text = [] then none else p.hit

theorem shownHits_append (ps qs : List ContextPart) : shownHits (ps ++ qs) = shownHits ps ++ shownHits qs :=
  List.filterMap_append

theorem shownHits_cons_none (text : Text) (parts : List ContextPart) :
    shownHits (⟨none, text⟩ :: parts) = shownHits parts := by
  simp [shownHits]

theorem shownHits_cons (p : ContextPart) (parts : List ContextPart) :
    shownHits (p :: parts) = (if p.text = [] then [] else p.hit.toList) ++ shownHits parts := by
  simp only [shownHits, List.filterMap_cons]
  by_cases ht : p.text = []
  · simp [ht]
  · cases hh : p.hit <;> simp [ht]

theorem shownHits_joinParts (pss : List (List ContextPart)) :
    shownHits (joinParts pss) = pss.flatMap shownHits := by
  induction pss with
  | nil => rfl
  | cons ps pss ih =>
    cases pss with
    | nil => simp [joinParts]
    | cons qs rest =>
      rw [joinParts, shownHits_append, shownHits_cons_none, ih]
      rfl

/-- What the markup leaves of the text of a fragment. -/
def bodyText (env : MarkupEnv) (f : ContextFragment) : Text :=
  if looksWrapped f.text = false ∧ env.rescanContext = true then (sanitiseAtIngest env f.text false).text
  else f.text

theorem replace_singleton_eq_nil {c : Char} {rep s : Text} (hrep : rep ≠ []) :
    Chars.replace [c] rep s = [] ↔ s = [] := by
  rw [Chars.replace_singleton, List.flatMap_eq_nil_iff]
  constructor
  · intro h
    cases s with
    | nil => rfl
    | cons x s =>
      have hx := h x List.mem_cons_self
      split at hx
      · exact absurd hx hrep
      · cases hx
  · rintro rfl
    simp

theorem escapeXml_eq_nil {s : Text} : escapeXml s = [] ↔ s = [] := by
  have hamp : "&amp;".toList ≠ [] := by decide
  have hgt : "&gt;".toList ≠ [] := by decide
  have hlt : "&lt;".toList ≠ [] := by decide
  exact (replace_singleton_eq_nil hlt).trans
    ((replace_singleton_eq_nil hgt).trans (replace_singleton_eq_nil hamp))

theorem shownHits_wrapParts (env : MarkupEnv) (hit : Option DocumentContextHit) (text : Text)
    (origin : ResolvedOrigin) (flagged : Bool) :
    shownHits (wrapParts env hit text origin flagged) = if text = [] then [] else hit.toList := by
  have hbody : escapeXml (text.take maxBodyChars) = [] ↔ text = [] := by
    rw [escapeXml_eq_nil, List.take_eq_nil_iff]
    simp [maxBodyChars]
  rw [wrapParts, shownHits_cons_none, shownHits_cons, shownHits_cons_none]
  simp only [hbody]
  simp [shownHits]

theorem shownHits_plainPart (f : ContextFragment) :
    shownHits [plainPart f] = if f.text = [] then [] else f.hit.toList := by
  rw [shownHits_cons]
  by_cases ht : f.text = []
  · simp [plainPart, shownHits, ht]
  · simp [plainPart, shownHits, ht]

theorem shownHits_markupParts (env : MarkupEnv) (f : ContextFragment) :
    shownHits (markupParts env f) = if bodyText env f = [] then [] else f.hit.toList := by
  have hplain := shownHits_plainPart f
  have hwrap : ∀ origin flagged, shownHits (wrapParts env f.hit f.text origin flagged) =
      if f.text = [] then [] else f.hit.toList := fun origin flagged => shownHits_wrapParts ..
  by_cases hwrapped : looksWrapped f.text = true
  · simp [markupParts, bodyText, hwrapped, hplain]
  · by_cases hrescan : env.rescanContext = true
    · simp [markupParts, bodyText, hwrapped, hrescan, shownHits_wrapParts]
    · by_cases hpre : (coerceResolvedOrigin env f.hint).preWrapped = true
      · simp [markupParts, bodyText, hwrapped, hrescan, hpre, hplain]
      · simp [markupParts, bodyText, hwrapped, hrescan, hpre, hwrap]

/-! ### The cut -/

/-- Where the `j`-th fragment begins in the joined text. -/
def startOf (frs : List ContextFragment) (j : Nat) : Nat :=
  ((frs.take j).map fun f => f.text.length + separator.length).sum

theorem startOf_cons_succ (f : ContextFragment) (frs : List ContextFragment) (j : Nat) :
    startOf (f :: frs) (j + 1) = f.text.length + separator.length + startOf frs j := by
  simp [startOf]

/-- After a cut to `n` characters the fragments that begin before it are shown. -/
theorem mem_shownHits_cut {n : Nat} {frs : List ContextFragment} {hit : DocumentContextHit} :
    hit ∈ shownHits (cutParts n (joinParts (frs.map fun f => [plainPart f]))) ↔
      ∃ j f, frs[j]? = some f ∧ f.hit = some hit ∧ f.text ≠ [] ∧ startOf frs j < n := by
  have hpart : ∀ (f : ContextFragment) (n : Nat), hit ∈ (if f.text.take n = [] then [] else f.hit.toList) ↔
      f.hit = some hit ∧ f.text ≠ [] ∧ 0 < n := by
    intro f n
    by_cases htake : f.text.take n = []
    · rw [if_pos htake]
      rw [List.take_eq_nil_iff] at htake
      constructor
      · intro h
        cases h
      · intro h
        rcases htake with hn | ht
        · omega
        · exact absurd ht h.2.1
    · rw [if_neg htake]
      rw [List.take_eq_nil_iff, not_or] at htake
      simp [htake.2, Nat.pos_of_ne_zero htake.1]
  induction frs generalizing n with
  | nil => simp [joinParts, cutParts, shownHits]
  | cons f frs ih =>
    have hsplit : hit ∈ shownHits (cutParts n (joinParts ((f :: frs).map fun f => [plainPart f]))) ↔
        (f.hit = some hit ∧ f.text ≠ [] ∧ 0 < n) ∨
          hit ∈ shownHits (cutParts (n - f.text.length - separator.length)
            (joinParts (frs.map fun f => [plainPart f]))) := by
      cases frs with
      | nil =>
        have hnone : ∀ m, cutParts m [] = [] := fun m => by simp only [cutParts]
        have hone : joinParts (([f] : List ContextFragment).map fun f => [plainPart f]) = [plainPart f] := rfl
        rw [hone, cutParts, hnone, shownHits_cons, List.mem_append]
        exact or_congr (hpart f n) (by simp [joinParts, hnone])
      | cons g rest =>
        rw [List.map_cons, List.map_cons, joinParts, List.singleton_append, cutParts, cutParts,
          shownHits_cons, shownHits_cons, List.mem_append]
        refine or_congr (hpart f n) ?_
        simp [plainPart]
    refine hsplit.trans ((or_congr_right ih).trans ?_)
    constructor
    · rintro (⟨hh, ht, hn⟩ | ⟨j, g, hg, hh, ht, hn⟩)
      · exact ⟨0, f, rfl, hh, ht, by simpa [startOf] using hn⟩
      · exact ⟨j + 1, g, hg, hh, ht, by rw [startOf_cons_succ]; omega⟩
    · rintro ⟨j, g, hg, hh, ht, hn⟩
      cases j with
      | zero =>
        obtain rfl : f = g := by simpa using hg
        exact .inl ⟨hh, ht, by simpa [startOf] using hn⟩
      | succ j =>
        rw [startOf_cons_succ] at hn
        exact .inr ⟨j, g, by simpa using hg, hh, ht, by omega⟩

theorem shownHits_cut_sublist (n : Nat) (parts : List ContextPart) :
    (shownHits (cutParts n parts)).Sublist (parts.filterMap ContextPart.hit) := by
  induction parts generalizing n with
  | nil => exact List.Sublist.slnil
  | cons p parts ih =>
    rw [cutParts, shownHits_cons]
    have hrest := ih (n - p.text.length)
    cases hh : p.hit with
    | none =>
      rw [List.filterMap_cons_none hh]
      simpa using hrest
    | some hit =>
      rw [List.filterMap_cons_some hh]
      split
      · exact hrest.trans (List.sublist_cons_self _ _)
      · exact hrest.cons_cons _

/-! ### What the cut reaches -/

/-- The text begins, and not with a blank. -/
def BeginsVisible (s : Text) : Prop := ∃ c ∈ s.head?, isPySpace c = false

theorem BeginsVisible.ne_nil {s : Text} (h : BeginsVisible s) : s ≠ [] := by
  rintro rfl
  obtain ⟨c, hc, -⟩ := h
  cases hc

theorem BeginsVisible.of_prefix {s t : Text} (h : BeginsVisible s) (ht : t ≠ []) (hp : t <+: s) :
    BeginsVisible t := by
  obtain ⟨c, hc, hvis⟩ := h
  obtain ⟨r, rfl⟩ := hp
  cases t with
  | nil => exact absurd rfl ht
  | cons d t => exact ⟨d, rfl, by simp_all⟩

theorem BeginsVisible.rstrip {s : Text} (h : BeginsVisible s) : BeginsVisible (rstrip s) := by
  refine h.of_prefix ?_ (List.rdropWhile_prefix isPySpace s)
  intro hnil
  obtain ⟨c, hc, hvis⟩ := h
  rw [Lumogis.rstrip, List.rdropWhile_eq_nil_iff] at hnil
  rw [hnil c (List.mem_of_mem_head? hc)] at hvis
  cases hvis

theorem BeginsVisible.take {s : Text} (h : BeginsVisible s) {n : Nat} (hn : 0 < n) : BeginsVisible (s.take n) := by
  refine h.of_prefix ?_ (List.take_prefix n s)
  rw [Ne, List.take_eq_nil_iff, not_or]
  exact ⟨by omega, h.ne_nil⟩

theorem stripText_visible {s : Text} (h : stripText s ≠ []) : BeginsVisible (stripText s) := by
  have hl : lstrip s ≠ [] := by
    intro hnil
    exact h (by simp [stripText, hnil, rstrip])
  have hvis : BeginsVisible (lstrip s) := by
    refine ⟨(lstrip s).head hl, List.head_mem_head? hl, ?_⟩
    exact List.head_dropWhile_not isPySpace hl
  exact hvis.rstrip

theorem cutPlace_pos {text : Text} {n : Nat} (hn : 0 < n) : 0 < cutPlace text n := by
  simp only [cutPlace]
  split <;> omega

theorem truncateText_visible {s : Text} (h : BeginsVisible s) {n : Nat} (hn : 0 < n) :
    BeginsVisible (truncateText s n) := by
  by_cases hfits : estimateTokens s ≤ n
  · simpa [truncateText, hfits] using h
  · rw [truncateText_eq hfits]
    exact (h.take (cutPlace_pos hn)).rstrip

theorem lt_length_truncateText_iff {text : Text} {n k : Nat} (h : BeginsVisible (text.drop k)) :
    k < (truncateText text n).length ↔ estimateTokens text ≤ n ∨ k < cutPlace text n := by
  obtain ⟨c, hc, hvis⟩ := h
  rw [List.head?_drop] at hc
  obtain ⟨hlt, hget⟩ := List.getElem?_eq_some_iff.mp hc
  by_cases hfits : estimateTokens text ≤ n
  · simpa [truncateText, hfits] using hlt
  rw [truncateText_eq hfits]
  have hleft := leftBefore_rstrip text (cutPlace text n)
  constructor
  · intro hk
    have hshort := hleft.short
    omega
  · rintro (hle | hk)
    · exact absurd hle hfits
    · by_contra hge
      have hmem : c ∈ (text.take (cutPlace text n)).drop (rstrip (text.take (cutPlace text n))).length := by
        rw [List.mem_iff_getElem?]
        refine ⟨k - (rstrip (text.take (cutPlace text n))).length, ?_⟩
        rw [List.getElem?_drop, Nat.add_sub_cancel' (by omega), List.getElem?_take, if_pos hk]
        exact hc
      rw [hleft.blanks c hmem] at hvis
      cases hvis

theorem joinedText_cons_cons (f g : ContextFragment) (frs : List ContextFragment) :
    joinedText (f :: g :: frs) = f.text ++ (separator ++ joinedText (g :: frs)) := by
  simp [joinedText, joinParts, plainPart]

theorem text_prefix_drop {frs : List ContextFragment} {j : Nat} {f : ContextFragment} (hf : frs[j]? = some f) :
    f.text <+: (joinedText frs).drop (startOf frs j) := by
  induction frs generalizing j with
  | nil => simp at hf
  | cons g frs ih =>
    cases j with
    | zero =>
      obtain rfl : g = f := by simpa using hf
      cases frs with
      | nil => simp [joinedText, joinParts, plainPart, startOf]
      | cons g' rest =>
        rw [joinedText_cons_cons]
        simp [startOf]
    | succ j =>
      have hrest := ih (by simpa using hf)
      cases frs with
      | nil => simp at hf
      | cons g' rest =>
        rw [joinedText_cons_cons, startOf_cons_succ, ← List.append_assoc, ← List.length_append,
          List.drop_length_add_append]
        exact hrest

/-- The fragment at `j` has some text in the message: the markup leaves some, or the plain text is not cut
before it. -/
def Reached (env : ContextEnv) (pooled : Nat) (frs : List ContextFragment) (j : Nat) : Prop :=
  if env.markup.enabled then ∀ f ∈ frs[j]?, bodyText env.markup f ≠ []
  else estimateTokens (joinedText frs) ≤ pooled ∨ startOf frs j < cutPlace (joinedText frs) pooled

theorem mem_shownHits_contextParts {env : ContextEnv} {pooled : Nat} {frs : List ContextFragment}
    {hit : DocumentContextHit} (hvis : ∀ f ∈ frs, f.hit.isSome → BeginsVisible f.text) :
    hit ∈ shownHits (contextParts env pooled frs) ↔
      ∃ j f, frs[j]? = some f ∧ f.hit = some hit ∧ Reached env pooled frs j := by
  by_cases henabled : env.markup.enabled = true
  · simp only [contextParts, Reached, henabled, if_true, outerBundle, shownHits_cons_none, shownHits_append,
      shownHits_joinParts, List.mem_append, List.mem_flatMap, List.mem_map]
    constructor
    · rintro (⟨ps, ⟨f, hf, rfl⟩, hshown⟩ | hnone)
      · obtain ⟨j, hj⟩ := List.mem_iff_getElem?.mp hf
        rw [shownHits_markupParts] at hshown
        split at hshown
        · cases hshown
        · rename_i hbody
          refine ⟨j, f, hj, by simpa using hshown, ?_⟩
          intro g hg
          rw [hj, Option.mem_some_iff] at hg
          exact hg ▸ hbody
      · cases hnone
    · rintro ⟨j, f, hj, hhit, hbody⟩
      left
      refine ⟨_, ⟨f, List.mem_of_getElem? hj, rfl⟩, ?_⟩
      rw [shownHits_markupParts, if_neg (hbody f hj), hhit]
      exact List.mem_singleton_self hit
  · simp only [contextParts, Reached, henabled, Bool.false_eq_true, if_false, shownHits_cons_none,
      mem_shownHits_cut]
    have hcut : ∀ j f, frs[j]? = some f → f.hit = some hit →
        (f.text ≠ [] ∧ startOf frs j < (truncateText (joinedText frs) pooled).length ↔
          estimateTokens (joinedText frs) ≤ pooled ∨ startOf frs j < cutPlace (joinedText frs) pooled) := by
      intro j f hj hhit
      have hf := hvis f (List.mem_of_getElem? hj) (by simp [hhit])
      have hdrop : BeginsVisible ((joinedText frs).drop (startOf frs j)) := by
        obtain ⟨c, hc, hc'⟩ := hf
        obtain ⟨t, ht⟩ := text_prefix_drop hj
        refine ⟨c, ?_, hc'⟩
        rw [← ht, List.head?_append, Option.mem_def.mp hc]
        rfl
      rw [lt_length_truncateText_iff hdrop, and_iff_right hf.ne_nil]
    constructor
    · rintro ⟨j, f, hj, hhit, hshown⟩
      exact ⟨j, f, hj, hhit, (hcut j f hj hhit).mp hshown⟩
    · rintro ⟨j, f, hj, hhit, hshown⟩
      exact ⟨j, f, hj, hhit, (hcut j f hj hhit).mpr hshown⟩

theorem shownHits_contextParts_sublist (env : ContextEnv) (pooled : Nat) (frs : List ContextFragment) :
    (shownHits (contextParts env pooled frs)).Sublist (frs.filterMap ContextFragment.hit) := by
  by_cases henabled : env.markup.enabled = true
  · simp only [contextParts, henabled, if_true, outerBundle, shownHits_cons_none, shownHits_append,
      shownHits_joinParts]
    rw [show shownHits [] = [] from rfl, List.append_nil]
    induction frs with
    | nil => exact List.Sublist.slnil
    | cons f frs ih =>
      rw [List.map_cons, List.flatMap_cons, shownHits_markupParts]
      cases hhit : f.hit with
      | none =>
        rw [List.filterMap_cons_none hhit]
        simpa using ih
      | some hit =>
        rw [List.filterMap_cons_some hhit]
        split
        · exact ih.trans (List.sublist_cons_self _ _)
        · exact ih.cons_cons _
  · simp only [contextParts, henabled, Bool.false_eq_true, if_false, shownHits_cons_none]
    have hjoin : (joinParts (frs.map fun f => [plainPart f])).filterMap ContextPart.hit =
        frs.filterMap ContextFragment.hit := by
      induction frs with
      | nil => rfl
      | cons f frs ih =>
        cases frs with
        | nil => rfl
        | cons g rest =>
          have hsep : (⟨none, separator⟩ : ContextPart).hit = none := rfl
          rw [List.map_cons] at ih
          rw [List.map_cons, List.map_cons, joinParts, List.filterMap_append,
            List.filterMap_cons_none hsep, ih]
          cases hhit : f.hit <;> simp [plainPart, hhit]
    exact hjoin ▸ shownHits_cut_sublist _ _

end Lumogis
