import Lumogis.ContextMessage
import Mathlib.Data.List.Induction

/-!
# ContextAgreement

What the model sees of the document hits, against the ids that `search_files` leaves out and the
citations of a chat about one document.

The ids are taken from all hits, before the slots drop some from the tail, and the citations from the
hits that fit, before the plain message is cut to the pooled slots. The three agree if and only if every
hit fits its slot and is reached by that cut (`injected_context_agrees_iff`).
-/

namespace Lumogis

open Permissions

/-! ## The slots -/

theorem tokensOf_append (frs more : List ContextFragment) :
    tokensOf (frs ++ more) = tokensOf frs + tokensOf more := by
  simp [tokensOf]

/-- The fragments up to the one at `j` fit the slot. -/
def KeptAt (maxTokens : Int) (frs : List ContextFragment) (j : Nat) : Prop :=
  0 < maxTokens ∧ tokensOf (frs.take (j + 1)) ≤ maxTokens

instance (maxTokens : Int) (frs : List ContextFragment) (j : Nat) : Decidable (KeptAt maxTokens frs j) :=
  inferInstanceAs (Decidable (_ ∧ _))

theorem fitPlaintextBundle_concat (maxTokens : Int) (frs : List ContextFragment) (f : ContextFragment) :
    fitPlaintextBundle maxTokens (frs ++ [f]) =
      if 0 < maxTokens ∧ tokensOf (frs ++ [f]) ≤ maxTokens then frs ++ [f]
      else fitPlaintextBundle maxTokens frs := by
  have hrev : tokensOf (f :: frs.reverse) = tokensOf (frs ++ [f]) := by
    simp [tokensOf, Nat.add_comm]
  by_cases hpos : maxTokens ≤ 0
  · rw [if_neg (by omega)]
    simp [fitPlaintextBundle, hpos]
  · rw [fitPlaintextBundle, if_neg hpos, List.reverse_append, List.reverse_singleton, List.singleton_append,
      popUntilFits, hrev]
    by_cases hfits : maxTokens < tokensOf (frs ++ [f])
    · rw [if_pos hfits, if_neg (by omega), fitPlaintextBundle, if_neg hpos]
    · rw [if_neg hfits, if_pos (by omega)]
      simp

theorem fitPlaintextBundle_begins (maxTokens : Int) (frs : List ContextFragment) :
    fitPlaintextBundle maxTokens frs <+: frs := by
  induction frs using List.reverseRecOn with
  | nil => simp [fitPlaintextBundle, popUntilFits]
  | append_singleton frs f ih =>
    rw [fitPlaintextBundle_concat]
    split
    · exact List.prefix_rfl
    · exact ih.trans (List.prefix_append frs [f])

theorem lt_length_fit_iff {maxTokens : Int} {frs : List ContextFragment} {j : Nat} (hj : j < frs.length) :
    j < (fitPlaintextBundle maxTokens frs).length ↔ KeptAt maxTokens frs j := by
  induction frs using List.reverseRecOn with
  | nil => simp at hj
  | append_singleton frs f ih =>
    have hmono : tokensOf ((frs ++ [f]).take (j + 1)) ≤ tokensOf (frs ++ [f]) := by
      calc tokensOf ((frs ++ [f]).take (j + 1))
          ≤ tokensOf ((frs ++ [f]).take (j + 1)) + tokensOf ((frs ++ [f]).drop (j + 1)) := Nat.le_add_right _ _
        _ = tokensOf (frs ++ [f]) := by rw [← tokensOf_append, List.take_append_drop]
    rw [fitPlaintextBundle_concat]
    split
    · rename_i hfits
      exact iff_of_true hj ⟨hfits.1, by omega⟩
    · rename_i hfits
      rw [List.length_append, List.length_singleton] at hj
      by_cases hlast : j = frs.length
      · have hle := (fitPlaintextBundle_begins maxTokens frs).length_le
        refine iff_of_false (by omega) ?_
        intro hkept
        rw [KeptAt, List.take_of_length_le (by simp [hlast])] at hkept
        exact hfits hkept
      · rw [ih (by omega), KeptAt, KeptAt, List.take_append_of_le_length (by omega)]

theorem fitPlaintextBundle_append (maxTokens : Int) (frs more : List ContextFragment) :
    ∃ rest, rest <+: more ∧ (rest ≠ [] → fitPlaintextBundle maxTokens frs = frs) ∧
      fitPlaintextBundle maxTokens (frs ++ more) = fitPlaintextBundle maxTokens frs ++ rest := by
  induction more using List.reverseRecOn with
  | nil => exact ⟨[], List.prefix_rfl, by simp⟩
  | append_singleton more f ih =>
    obtain ⟨rest, hrest, hfull, heq⟩ := ih
    rw [← List.append_assoc, fitPlaintextBundle_concat]
    split
    · rename_i hfits
      have hall : fitPlaintextBundle maxTokens frs = frs := by
        refine (fitPlaintextBundle_begins maxTokens frs).eq_of_length_le ?_
        by_contra hlt
        have hin : frs.length - 1 < frs.length := by omega
        have hkept : KeptAt maxTokens frs (frs.length - 1) := by
          rw [KeptAt, List.take_of_length_le (by omega)]
          rw [List.append_assoc, tokensOf_append] at hfits
          omega
        have hlast := (lt_length_fit_iff hin).mpr hkept
        omega
      exact ⟨more ++ [f], List.prefix_rfl, fun _ => hall, by rw [hall, List.append_assoc]⟩
    · exact ⟨rest, hrest.trans (List.prefix_append more [f]), hfull, heq⟩

/-! ## The hits of a chat -/

theorem textHits_nodup {hits : List DocumentContextHit} (h : (pointIdsOf hits).Nodup) :
    (pointIdsOf (textHits hits)).Nodup :=
  h.sublist (List.filter_sublist.map _)

theorem documentFragments_hit (env : MarkupEnv) (hits : List DocumentContextHit) :
    (documentFragments env hits).map ContextFragment.hit = (textHits hits).map some := by
  simp [documentFragments]

theorem documentFragments_visible {env : MarkupEnv} {hits : List DocumentContextHit} {f : ContextFragment}
    (hf : f ∈ documentFragments env hits) : BeginsVisible f.text := by
  obtain ⟨hit, hhit, rfl⟩ := List.mem_map.mp hf
  exact stripText_visible (by simpa using (List.mem_filter.mp hhit).2)

theorem truncateLines_hit (documents : Int) (frs : List ContextFragment) :
    (truncateLines documents frs).map ContextFragment.hit = frs.map ContextFragment.hit := by
  simp only [truncateLines]
  split
  · simp
  · rfl

theorem truncateLines_visible {documents : Int} {frs : List ContextFragment}
    (h : ∀ f ∈ frs, BeginsVisible f.text) : ∀ f ∈ truncateLines documents frs, BeginsVisible f.text := by
  intro f hf
  simp only [truncateLines] at hf
  split at hf
  · obtain ⟨g, hg, rfl⟩ := List.mem_map.mp hf
    exact truncateText_visible (h g hg) (by omega)
  · exact h f hf

/-- The document fragments before the slots. -/
def docFragments (env : ContextEnv) (call : ContextCall) : List ContextFragment :=
  if call.isScoped then documentFragments env.markup call.docHits
  else truncateLines (env.plan false).documents (documentFragments env.markup call.docHits)

theorem docFragments_hit (env : ContextEnv) (call : ContextCall) :
    (docFragments env call).map ContextFragment.hit = (textHits call.docHits).map some := by
  simp only [docFragments]
  split
  · exact documentFragments_hit _ _
  · rw [truncateLines_hit, documentFragments_hit]

theorem docFragments_visible (env : ContextEnv) (call : ContextCall) :
    ∀ f ∈ docFragments env call, BeginsVisible f.text := by
  simp only [docFragments]
  split
  · exact fun f hf => documentFragments_visible hf
  · exact truncateLines_visible fun f hf => documentFragments_visible hf

theorem docFragments_getElem? {env : ContextEnv} {call : ContextCall} {i : Nat} {hit : DocumentContextHit} :
    (textHits call.docHits)[i]? = some hit ↔ ∃ f, (docFragments env call)[i]? = some f ∧ f.hit = some hit := by
  have hmap : ((docFragments env call).map ContextFragment.hit)[i]? = ((textHits call.docHits).map some)[i]? := by
    rw [docFragments_hit]
  rw [List.getElem?_map, List.getElem?_map] at hmap
  cases hfrag : (docFragments env call)[i]? with
  | none =>
    rw [hfrag, Option.map_none] at hmap
    rw [Option.map_eq_none_iff.mp hmap.symm]
    simp
  | some f =>
    rw [hfrag] at hmap
    cases hget : (textHits call.docHits)[i]? <;> simp_all

/-- The fragments of the message. -/
def fragments (env : ContextEnv) (call : ContextCall) : List ContextFragment :=
  if call.isScoped then scopedFragments env call else unscopedFragments env call

/-- What stands before the document fragments. -/
def fragmentsBefore (env : ContextEnv) (call : ContextCall) : List ContextFragment :=
  if call.isScoped then []
  else fitPlaintextBundle (env.plan false).sessionContext (sessionFragments env.markup call.sessionHits)

/-- The pooled slots. -/
def pooledTokens (env : ContextEnv) (call : ContextCall) : Nat :=
  let plan := env.plan call.isScoped
  (max 96 (if call.isScoped then plan.documents
    else plan.sessionContext + plan.pluginContext + plan.entities + plan.documents)).toNat

/-- The document fragments that fit the slot. -/
def keptFragments (env : ContextEnv) (call : ContextCall) : List ContextFragment :=
  fitPlaintextBundle (env.plan call.isScoped).documents (docFragments env call)

theorem plainFragments_hit {texts : List Text} {f : ContextFragment} (hf : f ∈ plainFragments texts) :
    f.hit = none := by
  obtain ⟨text, -, rfl⟩ := List.mem_map.mp hf
  rfl

theorem sessionFragments_hit {env : MarkupEnv} {hits : List SessionHit} {f : ContextFragment}
    (hf : f ∈ sessionFragments env hits) : f.hit = none := by
  obtain ⟨hit, -, rfl⟩ := List.mem_map.mp hf
  rfl

theorem fragments_split (env : ContextEnv) (call : ContextCall) :
    ∃ behind, fragments env call = fragmentsBefore env call ++ (keptFragments env call ++ behind) ∧
      (∀ f ∈ fragmentsBefore env call, f.hit = none) ∧ ∀ f ∈ behind, f.hit = none := by
  by_cases hscoped : call.isScoped = true
  · simp only [fragments, fragmentsBefore, keptFragments, docFragments, hscoped, if_true, scopedFragments]
    obtain ⟨behind, hpre, -, heq⟩ := fitPlaintextBundle_append (env.plan true).documents
      (documentFragments env.markup call.docHits)
      (plainFragments (env.hook ((documentFragments env.markup call.docHits).map ContextFragment.text)))
    refine ⟨behind, by rw [heq, List.nil_append], by simp, ?_⟩
    intro f hf
    exact plainFragments_hit (hpre.subset hf)
  · simp only [fragments, fragmentsBefore, keptFragments, docFragments, hscoped, Bool.false_eq_true, if_false,
      unscopedFragments]
    refine ⟨_, List.append_assoc _ _ _, ?_, ?_⟩
    · intro f hf
      exact sessionFragments_hit ((fitPlaintextBundle_begins _ _).subset hf)
    · intro f hf
      exact plainFragments_hit ((fitPlaintextBundle_begins _ _).subset hf)

/-- The hits with some text in the message, in the order of the message. -/
def ContextInjectionResult.shownHits (r : ContextInjectionResult) : List DocumentContextHit :=
  match r.injected with
  | none => []
  | some (parts, _) => Lumogis.shownHits parts

theorem shownHits_injectedOf (env : ContextEnv) (call : ContextCall) :
    (buildInjectedContext env call).shownHits =
      shownHits (contextParts env (pooledTokens env call) (fragments env call)) := by
  have hinjected : (buildInjectedContext env call).injected = if (fragments env call).isEmpty then none
      else some (contextParts env (pooledTokens env call) (fragments env call),
        ackContent env call.isScoped) := by
    by_cases hscoped : call.isScoped = true
    · simp [buildInjectedContext, buildScopedContext, fragments, pooledTokens, injectedOf, hscoped]
    · simp [buildInjectedContext, buildUnscopedContext, fragments, pooledTokens, injectedOf, hscoped]
  rw [ContextInjectionResult.shownHits, hinjected]
  by_cases hnil : fragments env call = []
  · have hsub := shownHits_contextParts_sublist env (pooledTokens env call) (fragments env call)
    rw [hnil] at hsub ⊢
    exact (List.sublist_nil.mp hsub).symm
  · simp [hnil]

/-- The document fragment at `i` fits the slot and has some text in the message. -/
def ShownAt (env : ContextEnv) (call : ContextCall) (i : Nat) : Prop :=
  KeptAt (env.plan call.isScoped).documents (docFragments env call) i ∧
    Reached env (pooledTokens env call) (fragments env call) ((fragmentsBefore env call).length + i)

theorem keptFragments_getElem? {env : ContextEnv} {call : ContextCall} {i : Nat} {hit : DocumentContextHit} :
    (∃ f, (keptFragments env call)[i]? = some f ∧ f.hit = some hit) ↔
      (textHits call.docHits)[i]? = some hit ∧
        KeptAt (env.plan call.isScoped).documents (docFragments env call) i := by
  rw [@docFragments_getElem? env]
  obtain ⟨dropped, hdropped⟩ := fitPlaintextBundle_begins (env.plan call.isScoped).documents (docFragments env call)
  have hget : ∀ f, (keptFragments env call)[i]? = some f ↔ (docFragments env call)[i]? = some f ∧
      KeptAt (env.plan call.isScoped).documents (docFragments env call) i := by
    intro f
    constructor
    · intro hf
      have hlt := (List.getElem?_eq_some_iff.mp hf).1
      have hdoc : (docFragments env call)[i]? = some f := by
        rw [← hdropped]
        exact (List.getElem?_append_left hlt).trans hf
      exact ⟨hdoc, (lt_length_fit_iff (List.getElem?_eq_some_iff.mp hdoc).1).mp hlt⟩
    · rintro ⟨hdoc, hkept⟩
      have hlt := (lt_length_fit_iff (List.getElem?_eq_some_iff.mp hdoc).1).mpr hkept
      rw [← hdropped, List.getElem?_append_left hlt] at hdoc
      exact hdoc
  constructor
  · rintro ⟨f, hf, hhit⟩
    exact ⟨⟨f, ((hget f).mp hf).1, hhit⟩, ((hget f).mp hf).2⟩
  · rintro ⟨⟨f, hf, hhit⟩, hkept⟩
    exact ⟨f, (hget f).mpr ⟨hf, hkept⟩, hhit⟩

theorem mem_shownHits_iff {env : ContextEnv} {call : ContextCall} {hit : DocumentContextHit} :
    hit ∈ (buildInjectedContext env call).shownHits ↔
      ∃ i, (textHits call.docHits)[i]? = some hit ∧ ShownAt env call i := by
  obtain ⟨behind, hsplit, hbefore, hbehind⟩ := fragments_split env call
  have hvis : ∀ f ∈ fragments env call, f.hit.isSome → BeginsVisible f.text := by
    intro f hf hsome
    rw [hsplit, List.mem_append, List.mem_append] at hf
    rcases hf with hf | hf | hf
    · simp [hbefore f hf] at hsome
    · exact docFragments_visible env call f ((fitPlaintextBundle_begins _ _).subset hf)
    · simp [hbehind f hf] at hsome
  rw [shownHits_injectedOf, mem_shownHits_contextParts hvis]
  constructor
  · rintro ⟨j, f, hj, hhit, hreached⟩
    have hget := hj
    rw [hsplit] at hget
    have hge : (fragmentsBefore env call).length ≤ j := by
      by_contra hlt
      rw [List.getElem?_append_left (by omega)] at hget
      rw [hbefore f (List.mem_of_getElem? hget)] at hhit
      cases hhit
    rw [List.getElem?_append_right hge] at hget
    have hlt : j - (fragmentsBefore env call).length < (keptFragments env call).length := by
      by_contra hle
      rw [List.getElem?_append_right (by omega)] at hget
      rw [hbehind f (List.mem_of_getElem? hget)] at hhit
      cases hhit
    rw [List.getElem?_append_left hlt] at hget
    obtain ⟨hdoc, hkept⟩ := keptFragments_getElem?.mp ⟨f, hget, hhit⟩
    refine ⟨j - (fragmentsBefore env call).length, hdoc, hkept, ?_⟩
    rw [Nat.add_sub_cancel' hge]
    exact hreached
  · rintro ⟨i, hdoc, hkept, hreached⟩
    obtain ⟨f, hf, hhit⟩ := keptFragments_getElem?.mpr ⟨hdoc, hkept⟩
    refine ⟨(fragmentsBefore env call).length + i, f, ?_, hhit, hreached⟩
    rw [hsplit, List.getElem?_append_right (Nat.le_add_right _ _), Nat.add_sub_cancel_left,
      List.getElem?_append_left (List.getElem?_eq_some_iff.mp hf).1]
    exact hf

/-- The hits whose fragments fit the slot. -/
def hitsKept (env : ContextEnv) (call : ContextCall) : List DocumentContextHit :=
  (textHits call.docHits).take (keptFragments env call).length

theorem keptFragments_filterMap (env : ContextEnv) (call : ContextCall) :
    (keptFragments env call).filterMap ContextFragment.hit = hitsKept env call := by
  have htake : keptFragments env call = (docFragments env call).take (keptFragments env call).length :=
    List.prefix_iff_eq_take.mp (fitPlaintextBundle_begins _ _)
  have hmap : (keptFragments env call).map ContextFragment.hit = (hitsKept env call).map some := by
    rw [htake, List.map_take, docFragments_hit, ← List.map_take, hitsKept]
  calc (keptFragments env call).filterMap ContextFragment.hit
      = ((keptFragments env call).map ContextFragment.hit).filterMap id := by
        rw [List.filterMap_map, Function.id_comp]
    _ = hitsKept env call := by
        rw [hmap, List.filterMap_map, Function.id_comp, List.filterMap_some]

theorem shownHits_sublist (env : ContextEnv) (call : ContextCall) :
    (buildInjectedContext env call).shownHits.Sublist (hitsKept env call) := by
  obtain ⟨behind, hsplit, hbefore, hbehind⟩ := fragments_split env call
  have hnone : ∀ frs : List ContextFragment, (∀ f ∈ frs, f.hit = none) →
      frs.filterMap ContextFragment.hit = [] := by
    intro frs h
    rwa [List.filterMap_eq_nil_iff]
  have hsub := shownHits_contextParts_sublist env (pooledTokens env call) (fragments env call)
  rw [← shownHits_injectedOf] at hsub
  rwa [hsplit, List.filterMap_append, List.filterMap_append, hnone _ hbefore, hnone _ hbehind,
    List.nil_append, List.append_nil, keptFragments_filterMap] at hsub

theorem mem_hitsKept_iff {env : ContextEnv} {call : ContextCall} {hit : DocumentContextHit} :
    hit ∈ hitsKept env call ↔ ∃ i, (textHits call.docHits)[i]? = some hit ∧
      KeptAt (env.plan call.isScoped).documents (docFragments env call) i := by
  rw [← keptFragments_filterMap, List.mem_filterMap]
  constructor
  · rintro ⟨f, hf, hhit⟩
    obtain ⟨i, hi⟩ := List.mem_iff_getElem?.mp hf
    exact ⟨i, keptFragments_getElem?.mp ⟨f, hi, hhit⟩⟩
  · rintro ⟨i, hi⟩
    obtain ⟨f, hf, hhit⟩ := keptFragments_getElem?.mpr hi
    exact ⟨f, List.mem_of_getElem? hf, hhit⟩

theorem citations_eq (env : ContextEnv) (call : ContextCall) :
    (buildInjectedContext env call).citations =
      if call.isScoped then (hitsKept env call).map citationOf else [] := by
  by_cases hscoped : call.isScoped = true
  · have htake : (textHits call.docHits).take (scopedFragments env call).length = hitsKept env call := by
      obtain ⟨behind, -, hfull, heq⟩ := fitPlaintextBundle_append (env.plan true).documents
        (documentFragments env.markup call.docHits)
        (plainFragments (env.hook ((documentFragments env.markup call.docHits).map ContextFragment.text)))
      have hkept : keptFragments env call =
          fitPlaintextBundle (env.plan true).documents (documentFragments env.markup call.docHits) := by
        simp [keptFragments, docFragments, hscoped]
      have hlen : (documentFragments env.markup call.docHits).length = (textHits call.docHits).length := by
        simp [documentFragments]
      rw [hitsKept, hkept, scopedFragments, heq]
      by_cases hbehind : behind = []
      · rw [hbehind, List.append_nil]
      · rw [hfull hbehind, List.length_append, hlen, List.take_of_length_le (Nat.le_add_right _ _),
          List.take_length]
    simp only [buildInjectedContext, hscoped, if_true, buildScopedContext, htake]
    split
    · rename_i hempty
      rw [List.isEmpty_iff] at hempty
      rw [← htake, hempty]
      rfl
    · rfl
  · simp [buildInjectedContext, hscoped, buildUnscopedContext]

/-! ## Agreement -/

/-- The ids handed on and the citations are those of the hits that are shown, and a hit that is not shown
can be found. -/
structure ContextAgrees (call : ContextCall) (r : ContextInjectionResult) : Prop where
  ids : ∀ id ∉ call.autoRagPointIds.getD [], (id ∈ r.autoRagPointIds ↔ id ∈ pointIdsOf r.shownHits)
  citations : r.citations = if call.isScoped then r.shownHits.map citationOf else []
  dropped : ∀ hit ∈ call.docHits, hit ∉ r.shownHits → hit.pointId ∉ call.autoRagPointIds.getD [] →
    ∀ found : ToolSearchResult, found.pointId = some hit.pointId →
      found ∈ searchFiltered (some r.autoRagPointIds) [found]

/-- The slots drop no hit whose id is handed on, and the cut no hit that fits. -/
structure SlotsHideNothing (env : ContextEnv) (call : ContextCall) : Prop where
  /-- The ids go into a set, in a chat about one document also when none is given. -/
  handed : call.isScoped ∨ call.autoRagPointIds.isSome → ∀ i, ∀ hit ∈ (textHits call.docHits)[i]?,
    hit.pointId ∉ call.autoRagPointIds.getD [] → ShownAt env call i
  /-- Without a set no id is handed on. -/
  unasked : ¬ (call.isScoped ∨ call.autoRagPointIds.isSome) →
    ∀ i < (textHits call.docHits).length, ¬ ShownAt env call i
  cited : call.isScoped → ∀ i < (textHits call.docHits).length,
    KeptAt (env.plan call.isScoped).documents (docFragments env call) i → ShownAt env call i

theorem mem_autoRagPointIds_iff {env : ContextEnv} {call : ContextCall} {id : String}
    (h : id ∉ call.autoRagPointIds.getD []) : id ∈ (buildInjectedContext env call).autoRagPointIds ↔
      (call.isScoped ∨ call.autoRagPointIds.isSome) ∧ id ∈ pointIdsOf (textHits call.docHits) := by
  by_cases hscoped : call.isScoped = true
  · simp [buildInjectedContext, hscoped, buildScopedContext, h]
  · cases hids : call.autoRagPointIds with
    | none => simp [buildInjectedContext, hscoped, buildUnscopedContext, hids]
    | some ids =>
      rw [hids] at h
      simp_all [buildInjectedContext, hscoped, buildUnscopedContext]

section
variable {env : ContextEnv} {call : ContextCall} (hids : (pointIdsOf call.docHits).Nodup)
include hids

theorem mem_pointIds_shown_iff {i : Nat} {hit : DocumentContextHit} (hi : (textHits call.docHits)[i]? = some hit) :
    hit.pointId ∈ pointIdsOf (buildInjectedContext env call).shownHits ↔ ShownAt env call i := by
  have hnodup := textHits_nodup hids
  constructor
  · intro hmem
    obtain ⟨other, hother, hsame⟩ := List.mem_map.mp hmem
    obtain ⟨k, hk, hshown⟩ := mem_shownHits_iff.mp hother
    have hlt : i < (pointIdsOf (textHits call.docHits)).length := by
      simpa [pointIdsOf] using (List.getElem?_eq_some_iff.mp hi).1
    have heq : i = k := by
      refine (List.getElem?_inj hlt hnodup).mp ?_
      rw [pointIdsOf, List.getElem?_map, List.getElem?_map, hi, hk, Option.map_some, Option.map_some, hsame]
    exact heq ▸ hshown
  · intro hshown
    exact List.mem_map_of_mem (mem_shownHits_iff.mpr ⟨i, hi, hshown⟩)

theorem ids_agree_iff :
    (∀ id ∉ call.autoRagPointIds.getD [], (id ∈ (buildInjectedContext env call).autoRagPointIds ↔
        id ∈ pointIdsOf (buildInjectedContext env call).shownHits)) ↔
      (call.isScoped ∨ call.autoRagPointIds.isSome → ∀ i, ∀ hit ∈ (textHits call.docHits)[i]?,
        hit.pointId ∉ call.autoRagPointIds.getD [] → ShownAt env call i) ∧
      (¬ (call.isScoped ∨ call.autoRagPointIds.isSome) →
        ∀ i < (textHits call.docHits).length, ¬ ShownAt env call i) := by
  constructor
  · intro hagree
    constructor
    · intro hset i hit hi hnew
      rw [← mem_pointIds_shown_iff hids hi, ← hagree _ hnew, mem_autoRagPointIds_iff hnew]
      exact ⟨hset, List.mem_map_of_mem (List.mem_of_getElem? hi)⟩
    · intro hset i hi hshown
      have hget := List.getElem?_eq_getElem hi
      have hnone : call.autoRagPointIds = none := by simp_all
      have hnew : (textHits call.docHits)[i].pointId ∉ call.autoRagPointIds.getD [] := by simp [hnone]
      have hmem := (hagree _ hnew).mpr ((mem_pointIds_shown_iff hids hget).mpr hshown)
      exact hset ((mem_autoRagPointIds_iff hnew).mp hmem).1
  · rintro ⟨hhanded, hunasked⟩ id hnew
    rw [mem_autoRagPointIds_iff hnew]
    constructor
    · rintro ⟨hset, hmem⟩
      obtain ⟨hit, hhit, rfl⟩ := List.mem_map.mp hmem
      obtain ⟨i, hi⟩ := List.mem_iff_getElem?.mp hhit
      exact (mem_pointIds_shown_iff hids hi).mpr (hhanded hset i hit hi hnew)
    · intro hmem
      obtain ⟨hit, hhit, rfl⟩ := List.mem_map.mp hmem
      obtain ⟨i, hi, hshown⟩ := mem_shownHits_iff.mp hhit
      refine ⟨?_, List.mem_map_of_mem (List.mem_of_getElem? hi)⟩
      by_contra hset
      exact hunasked hset i (List.getElem?_eq_some_iff.mp hi).1 hshown

theorem citations_agree_iff :
    (buildInjectedContext env call).citations =
        (if call.isScoped then (buildInjectedContext env call).shownHits.map citationOf else []) ↔
      (call.isScoped → ∀ i < (textHits call.docHits).length,
        KeptAt (env.plan call.isScoped).documents (docFragments env call) i → ShownAt env call i) := by
  rw [citations_eq]
  by_cases hscoped : call.isScoped = true
  · rw [if_pos hscoped, if_pos hscoped]
    have hsub := shownHits_sublist env call
    constructor
    · intro heq _ i hi hkept
      have hlen : (hitsKept env call).length = (buildInjectedContext env call).shownHits.length := by
        simpa using congrArg List.length heq
      have hsame := hsub.eq_of_length hlen.symm
      have hget := List.getElem?_eq_getElem hi
      rw [← mem_pointIds_shown_iff hids hget, hsame]
      exact List.mem_map_of_mem (mem_hitsKept_iff.mpr ⟨i, hget, hkept⟩)
    · intro hcited
      have hnodup : (hitsKept env call).Nodup :=
        (textHits_nodup hids).of_map.sublist (List.take_sublist _ _)
      have hsubset : hitsKept env call ⊆ (buildInjectedContext env call).shownHits := by
        intro hit hhit
        obtain ⟨i, hi, hkept⟩ := mem_hitsKept_iff.mp hhit
        exact mem_shownHits_iff.mpr ⟨i, hi, hcited hscoped i (List.getElem?_eq_some_iff.mp hi).1 hkept⟩
      rw [hsub.eq_of_length_le (List.subperm_of_subset hnodup hsubset).length_le]
  · simp [hscoped]

end

/-- What the model sees, what is cited and what `search_files` leaves out agree if and only if the slots and
the cut hide no hit that is handed on or cited. -/
theorem injected_context_agrees_iff (env : ContextEnv) (call : ContextCall)
    (hids : (pointIdsOf call.docHits).Nodup) :
    ContextAgrees call (buildInjectedContext env call) ↔ SlotsHideNothing env call := by
  constructor
  · intro h
    obtain ⟨hhanded, hunasked⟩ := (ids_agree_iff hids).mp h.ids
    exact ⟨hhanded, hunasked, (citations_agree_iff hids).mp h.citations⟩
  · intro h
    have hagree := (ids_agree_iff hids).mpr ⟨h.handed, h.unasked⟩
    refine ⟨hagree, (citations_agree_iff hids).mpr h.cited, ?_⟩
    intro hit hhit hunseen hnew found hfound
    have hout : hit.pointId ∉ (buildInjectedContext env call).autoRagPointIds := by
      rw [hagree _ hnew]
      intro hmem
      obtain ⟨other, hother, hsame⟩ := List.mem_map.mp hmem
      obtain ⟨i, hi, -⟩ := mem_shownHits_iff.mp hother
      have hmem : other ∈ call.docHits := (List.mem_filter.mp (List.mem_of_getElem? hi)).1
      exact hunseen (List.inj_on_of_nodup_map hids hmem hhit hsame ▸ hother)
    simp [searchFiltered, hfound, hout]

/-! ### A hit behind the cut -/

/-- A chat about one document, with a slot of 100 tokens and the sanitiser off. -/
def pinnedEnv : ContextEnv where
  markup := { defaultMarkup with enabled := false }
  memoryHint := false
  hook := fun _ => []
  graphContext := []
  plan := fun _ => { sessionContext := 0, pluginContext := 0, entities := 0, documents := 100, history := 87 }
  nonce := []

def pinnedHit (pointId : String) (h : pointId ≠ "") (chunkText : Text) (chunkIndex : Int) :
    DocumentContextHit where
  pointId := pointId
  pointId_ne := h
  filePath := "/data/report.md".toList
  chunkText := chunkText
  score := .finite "0.8".toList (by decide)
  scoreKind := .rrfGated
  scope := "personal".toList
  ingested := none
  chunkIndex := some chunkIndex

/-- The two chunks take 99 tokens and one, and with the blank line between them 101. -/
def pinnedCall : ContextCall where
  autoRagPointIds := some []
  scopedFilePath := some "/data/report.md".toList
  history := []
  sessionHits := []
  docHits := [pinnedHit "p1" (by decide) (List.replicate 399 'a') 0,
    pinnedHit "p2" (by decide) "abc".toList 1]

theorem injected_context_agrees_iff_pinned :
    ContextAgrees pinnedCall (buildInjectedContext pinnedEnv pinnedCall) ↔
      SlotsHideNothing pinnedEnv pinnedCall :=
  injected_context_agrees_iff pinnedEnv pinnedCall (by decide)

/-- The second chunk fits the slot and is cut off the message, and yet it is cited. -/
theorem cut_hit_is_cited : ¬ ∀ (env : ContextEnv) (call : ContextCall), (pointIdsOf call.docHits).Nodup →
    ContextAgrees call (buildInjectedContext env call) := by
  intro hall
  have hids : (pointIdsOf pinnedCall.docHits).Nodup := by decide
  have hcited := (citations_agree_iff hids).mp (hall pinnedEnv pinnedCall hids).citations
  have hkept : KeptAt 100 (docFragments pinnedEnv pinnedCall) 1 := by decide +kernel
  have hshown := hcited rfl 1 (by decide +kernel) hkept
  rcases hshown.2 with hfits | hreached
  · exact absurd hfits (by decide +kernel)
  · have hstart : startOf (fragments pinnedEnv pinnedCall) 1 = 401 := by decide +kernel
    have hle := cutPlace_le (joinedText (fragments pinnedEnv pinnedCall)) 100
    have hpooled : pooledTokens pinnedEnv pinnedCall = 100 := by decide +kernel
    have hbefore : (fragmentsBefore pinnedEnv pinnedCall).length + 1 = 1 := by decide +kernel
    rw [hbefore, hstart, hpooled] at hreached
    omega

end Lumogis
