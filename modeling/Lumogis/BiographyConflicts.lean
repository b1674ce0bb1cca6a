import Lumogis.Lib.Dict
import Lumogis.Lib.SortedByKey
import Lumogis.Permissions
import Mathlib.Data.List.Dedup
import Mathlib.Data.String.Basic

/-!
# Lumogis.BiographyConflicts

Divergent biography pins of a household: `_subject_key`, `fact_group_key`, `format_represent_both` and
`detect_conflicts`. Pins are grouped by one text that joins category, domain and subject, and a conflict's
line is sorted by user alone. Detection is exact and independent of the order of the pins exactly when
no two facts share a text, and a user's texts in a conflict read the same in either order
(`detectConflicts_exact_iff`).
-/

namespace Lumogis

open Permissions SortedByKey

inductive BiographyCategory where
  | identity
  | preference
  | relationship
  | focus
  | logistics
  | other
  deriving DecidableEq

def BiographyCategory.value : BiographyCategory → String
  | .identity => "identity"
  | .preference => "preference"
  | .relationship => "relationship"
  | .focus => "focus"
  | .logistics => "logistics"
  | .other => "other"

inductive BiographyScope where
  | personal
  | shared
  deriving DecidableEq

/-- `BiographyPinSnapshot`. A UUID is its text. -/
structure BiographyPin where
  id : String
  userId : String
  text : String
  category : BiographyCategory
  domain : Option String := none
  scope : BiographyScope := .shared
  subjectEntityId : Option String := none
  subjectText : Option String := none
  updatedAt : Nat := 0
  deriving DecidableEq

structure ConflictContribution where
  userId : String
  pinId : String
  text : String
  updatedAt : Nat

structure DetectedConflict where
  factGroupKey : String
  category : BiographyCategory
  domain : Option String
  pinIds : List String
  contributions : List ConflictContribution
  requiresReview : Bool
  representBothLine : String

/-- `unicodedata.normalize("NFKC", ..)`, `str.casefold` and `str.lower`. -/
structure TextEnv where
  nfkc : String → String
  casefold : String → String
  lower : String → String

section

variable (env : TextEnv)

/-- `_normalize_text`. -/
def normalizePinText (value : String) : String := env.casefold (strip (env.nfkc value))

/-- `_subject_key`. -/
def subjectKey (pin : BiographyPin) : Option String :=
  match pin.subjectEntityId, pin.subjectText with
  | some entityId, _ => some (env.lower entityId)
  | none, some text => if strip text = "" then none else some (normalizePinText env (strip text))
  | none, none => none

def isConflictEligible (pin : BiographyPin) : Bool :=
  pin.scope = .shared && pin.category ≠ .identity && (subjectKey env pin).isSome

/-- `fact_group_key`, which raises where there is no subject. -/
def factGroupKey (pin : BiographyPin) : Option String :=
  (subjectKey env pin).map fun subject =>
    pin.category.value ++ "|" ++ pin.domain.getD "" ++ "|" ++ subject

def requiresReview (category : BiographyCategory) : Bool :=
  category = .logistics || category = .focus || category = .relationship

def renderContribution (c : ConflictContribution) : String := c.userId ++ ": " ++ c.text

def formatRepresentBoth (contributions : List ConflictContribution) : String :=
  " · ".intercalate ((sortByKey ConflictContribution.userId contributions).map renderContribution)

def contributionOf (pin : BiographyPin) : ConflictContribution :=
  { userId := pin.userId, pinId := pin.id, text := pin.text, updatedAt := pin.updatedAt }

def eligiblePins (pins : List BiographyPin) : List BiographyPin := pins.filter (isConflictEligible env)

/-- The key under which a pin is put; an eligible pin has one. -/
def groupKey (pin : BiographyPin) : String := (factGroupKey env pin).getD ""

/-- `groups`, in the order in which their keys are met. -/
def groupPins (pins : List BiographyPin) : Dict String (List BiographyPin) :=
  Dict.accumulate (groupKey env) (fun group pin => group.getD [] ++ [pin]) (eligiblePins env pins)

/-- The conflict of a group, where there is one. -/
def reportGroup (key : String) (group : List BiographyPin) : Option DetectedConflict :=
  match group with
  | [] => none
  | first :: rest =>
    if ((first :: rest).map BiographyPin.userId).dedup.length ≤ 1 then none
    else if ((first :: rest).map fun p => normalizePinText env p.text).dedup.length ≤ 1 then none
    else some {
      factGroupKey := key
      category := first.category
      domain := first.domain
      pinIds := (first :: rest).map BiographyPin.id
      contributions := (first :: rest).map contributionOf
      requiresReview := requiresReview first.category
      representBothLine := formatRepresentBoth ((first :: rest).map contributionOf) }

def detectConflicts (pins : List BiographyPin) : List DetectedConflict :=
  (groupPins env pins).items.filterMap fun entry => reportGroup env entry.1 entry.2

/-! ## What exact detection is -/

/-- Two users contribute texts that differ after normalisation. -/
def Divergent (group : List BiographyPin) : Prop :=
  ∃ p ∈ group, ∃ q ∈ group, p.userId ≠ q.userId ∧ normalizePinText env p.text ≠ normalizePinText env q.text

/-- One conflict, with its pins in another order. -/
structure SameConflict (c c' : DetectedConflict) : Prop where
  factGroupKey : c.factGroupKey = c'.factGroupKey
  category : c.category = c'.category
  domain : c.domain = c'.domain
  pinIds : c.pinIds.Perm c'.pinIds
  contributions : c.contributions.Perm c'.contributions
  requiresReview : c.requiresReview = c'.requiresReview
  representBothLine : c.representBothLine = c'.representBothLine

/-- The same conflicts in another order. -/
def SameConflicts (cs cs' : List DetectedConflict) : Prop :=
  ∃ ds, ds.Perm cs' ∧ List.Forall₂ SameConflict cs ds

/-- The pins state one fact. -/
def SameFact (p q : BiographyPin) : Prop :=
  p.category = q.category ∧ p.domain = q.domain ∧ subjectKey env p = subjectKey env q

structure DetectsExactly (pins : List BiographyPin) : Prop where
  order : ∀ pins', pins'.Perm pins →
    SameConflicts (detectConflicts env pins) (detectConflicts env pins')
  grouped : ∀ p ∈ pins, ∀ q ∈ pins,
    (∃ entry ∈ (groupPins env pins).items, p ∈ entry.2 ∧ q ∈ entry.2)
      ↔ isConflictEligible env p = true ∧ isConflictEligible env q = true ∧ SameFact env p q
  reported : ∀ entry ∈ (groupPins env pins).items,
    (∃ c ∈ detectConflicts env pins, c.factGroupKey = entry.1) ↔ Divergent env entry.2

/-! ## When it is exact -/

/-- The eligible pins with a key. -/
def pinsWithKey (pins : List BiographyPin) (key : String) : List BiographyPin :=
  (eligiblePins env pins).filter (groupKey env · = key)

/-- Eligible pins with one key state one fact. -/
def KeysApart (pins : List BiographyPin) : Prop :=
  ∀ p ∈ eligiblePins env pins, ∀ q ∈ eligiblePins env pins,
    groupKey env p = groupKey env q → SameFact env p q

/-- Two texts of a user, one after the other in a line, read the same in either order. -/
def ReadAlike (userId a b : String) : Prop :=
  a ++ " · " ++ userId ++ ": " ++ b = b ++ " · " ++ userId ++ ": " ++ a

/-- In a divergent group, the texts of one user read the same in either order. -/
def OwnTextsAlike (pins : List BiographyPin) : Prop :=
  ∀ p ∈ eligiblePins env pins, ∀ q ∈ eligiblePins env pins, groupKey env p = groupKey env q →
    Divergent env (pinsWithKey env pins (groupKey env p)) → p.userId = q.userId →
      ReadAlike p.userId p.text q.text

end

variable {env : TextEnv} {pins pins' : List BiographyPin}

/-! ### Keys and groups -/

theorem SameFact.groupKey_eq {p q : BiographyPin} (h : SameFact env p q) :
    groupKey env p = groupKey env q := by
  obtain ⟨hcategory, hdomain, hsubject⟩ := h
  simp only [groupKey, factGroupKey, hcategory, hdomain, hsubject]

theorem mem_groupPins {entry : String × List BiographyPin} :
    entry ∈ (groupPins env pins).items
      ↔ entry.2 = pinsWithKey env pins entry.1 ∧ pinsWithKey env pins entry.1 ≠ [] := by
  obtain ⟨key, group⟩ := entry
  rw [← Dict.get?_eq_some_iff, groupPins, Dict.get?_accumulate_group, pinsWithKey]
  split
  · rename_i hnil
    simp [hnil]
  · rename_i hne
    rw [Option.some.injEq]
    constructor
    · intro h
      exact ⟨h.symm, hne⟩
    · intro h
      exact h.1.symm

theorem groupPins_items (env : TextEnv) (pins : List BiographyPin) :
    (groupPins env pins).items
      = (groupPins env pins).keys.map fun key => (key, pinsWithKey env pins key) := by
  conv_lhs => rw [← List.map_id (groupPins env pins).items]
  rw [Dict.keys, List.map_map]
  refine List.map_congr_left fun entry hentry => ?_
  rw [id, Function.comp, ← (mem_groupPins.mp hentry).1]

theorem mem_pinsWithKey {key : String} {pin : BiographyPin} :
    pin ∈ pinsWithKey env pins key ↔ pin ∈ eligiblePins env pins ∧ groupKey env pin = key := by
  simp [pinsWithKey]

theorem mem_keys_groupPins {key : String} :
    key ∈ (groupPins env pins).keys ↔ ∃ pin ∈ eligiblePins env pins, groupKey env pin = key :=
  Dict.mem_keys_accumulate _ _ _ _

theorem in_one_group_iff {p q : BiographyPin} :
    (∃ entry ∈ (groupPins env pins).items, p ∈ entry.2 ∧ q ∈ entry.2)
      ↔ p ∈ eligiblePins env pins ∧ q ∈ eligiblePins env pins ∧ groupKey env p = groupKey env q := by
  constructor
  · rintro ⟨entry, hentry, hp, hq⟩
    rw [(mem_groupPins.mp hentry).1, mem_pinsWithKey] at hp hq
    exact ⟨hp.1, hq.1, hp.2.trans hq.2.symm⟩
  · rintro ⟨hp, hq, hkey⟩
    have hmem : p ∈ pinsWithKey env pins (groupKey env p) := mem_pinsWithKey.mpr ⟨hp, rfl⟩
    exact ⟨(groupKey env p, pinsWithKey env pins (groupKey env p)),
      mem_groupPins.mpr ⟨rfl, List.ne_nil_of_mem hmem⟩, hmem, mem_pinsWithKey.mpr ⟨hq, hkey.symm⟩⟩

/-! ### Reports -/

theorem dedup_length_le_one {α : Type} [DecidableEq α] {xs : List α} :
    xs.dedup.length ≤ 1 ↔ ∀ a ∈ xs, ∀ b ∈ xs, a = b := by
  constructor
  · intro h a ha b hb
    have ha' := List.mem_dedup.mpr ha
    have hb' := List.mem_dedup.mpr hb
    cases hdedup : xs.dedup with
    | nil => simp [hdedup] at ha'
    | cons x rest =>
      have hrest : rest = [] := by simpa [hdedup] using h
      simp only [hdedup, hrest, List.mem_singleton] at ha' hb'
      rw [ha', hb']
  · intro h
    by_contra hlen
    have hnodup := List.nodup_dedup xs
    cases hdedup : xs.dedup with
    | nil => simp [hdedup] at hlen
    | cons x rest =>
      cases rest with
      | nil => simp [hdedup] at hlen
      | cons y rest =>
        have hx : x ∈ xs := List.mem_dedup.mp (by simp [hdedup])
        have hy : y ∈ xs := List.mem_dedup.mp (by simp [hdedup])
        rw [hdedup] at hnodup
        exact (List.nodup_cons.mp hnodup).1 (by simp [h x hx y hy])

theorem divergent_iff {group : List BiographyPin} :
    Divergent env group ↔ ¬ (group.map BiographyPin.userId).dedup.length ≤ 1 ∧
      ¬ (group.map fun p => normalizePinText env p.text).dedup.length ≤ 1 := by
  simp only [dedup_length_le_one, List.forall_mem_map]
  constructor
  · rintro ⟨p, hp, q, hq, huser, htext⟩
    exact ⟨fun h => huser (h p hp q hq), fun h => htext (h p hp q hq)⟩
  · rintro ⟨husers, htexts⟩
    push Not at husers htexts
    obtain ⟨p, hp, q, hq, huser⟩ := husers
    by_cases hpq : normalizePinText env p.text = normalizePinText env q.text
    · -- a pin with another text is by another user than `p` or than `q`
      obtain ⟨r, hr, hrp⟩ : ∃ r ∈ group, normalizePinText env r.text ≠ normalizePinText env p.text := by
        obtain ⟨a, ha, b, hb, hab⟩ := htexts
        by_cases hap : normalizePinText env a.text = normalizePinText env p.text
        · exact ⟨b, hb, fun hbp => hab (hap.trans hbp.symm)⟩
        · exact ⟨a, ha, hap⟩
      by_cases hrpUser : r.userId = p.userId
      · exact ⟨r, hr, q, hq, fun h => huser (hrpUser.symm.trans h), fun h => hrp (h.trans hpq.symm)⟩
      · exact ⟨r, hr, p, hp, hrpUser, hrp⟩
    · exact ⟨p, hp, q, hq, huser, hpq⟩

theorem reportGroup_eq (key : String) {group : List BiographyPin} {c : DetectedConflict} :
    reportGroup env key group = some c ↔ Divergent env group ∧ ∃ first rest, group = first :: rest ∧
      c = { factGroupKey := key
            category := first.category
            domain := first.domain
            pinIds := group.map BiographyPin.id
            contributions := group.map contributionOf
            requiresReview := requiresReview first.category
            representBothLine := formatRepresentBoth (group.map contributionOf) } := by
  cases group with
  | nil => simp [reportGroup]
  | cons first rest =>
    rw [divergent_iff, reportGroup]
    split
    · rename_i husers
      constructor
      · intro h
        cases h
      · intro h
        exact absurd husers h.1.1
    · rename_i husers
      split
      · rename_i htexts
        constructor
        · intro h
          cases h
        · intro h
          exact absurd htexts h.1.2
      · rename_i htexts
        simp only [husers, htexts, not_false_eq_true, and_self, true_and, Option.some.injEq]
        constructor
        · rintro rfl
          exact ⟨first, rest, rfl, rfl⟩
        · rintro ⟨_, _, heq, rfl⟩
          obtain ⟨rfl, rfl⟩ := List.cons.inj heq
          rfl

theorem reportGroup_key {key : String} {group : List BiographyPin} {c : DetectedConflict}
    (h : reportGroup env key group = some c) : c.factGroupKey = key := by
  obtain ⟨-, first, rest, -, rfl⟩ := (reportGroup_eq key).mp h
  rfl

theorem Divergent.reports {group : List BiographyPin} (key : String) (h : Divergent env group) :
    ∃ c, reportGroup env key group = some c := by
  obtain ⟨p, hp, -⟩ := id h
  obtain ⟨first, rest, hgroup⟩ := List.exists_cons_of_ne_nil (List.ne_nil_of_mem hp)
  exact ⟨_, (reportGroup_eq key).mpr ⟨h, first, rest, hgroup, rfl⟩⟩

theorem detectConflicts_eq (env : TextEnv) (pins : List BiographyPin) :
    detectConflicts env pins
      = (groupPins env pins).keys.filterMap fun key =>
          reportGroup env key (pinsWithKey env pins key) := by
  rw [detectConflicts, groupPins_items, List.filterMap_map]
  rfl

theorem mem_detectConflicts {c : DetectedConflict} :
    c ∈ detectConflicts env pins
      ↔ reportGroup env c.factGroupKey (pinsWithKey env pins c.factGroupKey) = some c := by
  rw [detectConflicts_eq, List.mem_filterMap]
  constructor
  · rintro ⟨key, -, hreport⟩
    rwa [reportGroup_key hreport]
  · intro hreport
    obtain ⟨⟨p, hp, -⟩, -⟩ := (reportGroup_eq _).mp hreport
    obtain ⟨hp, hkey⟩ := mem_pinsWithKey.mp hp
    exact ⟨c.factGroupKey, mem_keys_groupPins.mpr ⟨p, hp, hkey⟩, hreport⟩

theorem reported_iff {entry : String × List BiographyPin} (h : entry ∈ (groupPins env pins).items) :
    (∃ c ∈ detectConflicts env pins, c.factGroupKey = entry.1) ↔ Divergent env entry.2 := by
  rw [(mem_groupPins.mp h).1]
  constructor
  · rintro ⟨c, hc, hkey⟩
    rw [mem_detectConflicts, hkey] at hc
    exact ((reportGroup_eq _).mp hc).1
  · intro hdivergent
    obtain ⟨c, hc⟩ := hdivergent.reports entry.1
    have hkey := reportGroup_key hc
    exact ⟨c, mem_detectConflicts.mpr (hkey.symm ▸ hc), hkey⟩

/-! ### The line -/

/-- What a contribution adds to the line, with the dot before it. -/
def linePiece (c : ConflictContribution) : List Char := (" · " ++ renderContribution c).toList

theorem toList_intercalate {sep : String} :
    ∀ {ts : List String}, ts ≠ [] →
      (sep ++ sep.intercalate ts).toList = ts.flatMap fun t => (sep ++ t).toList
  | [], h => absurd rfl h
  | [t], _ => by simp [String.intercalate_singleton]
  | t :: u :: ts, _ => by
    have hrest : (sep ++ sep.intercalate (u :: ts)).toList =
        (u :: ts).flatMap fun t => (sep ++ t).toList := toList_intercalate (by simp)
    rw [String.intercalate_cons_cons, List.flatMap_cons, ← hrest]
    simp [String.toList_append]

theorem formatRepresentBoth_eq_iff {cs cs' : List ConflictContribution} (h : cs ≠ []) (h' : cs' ≠ []) :
    formatRepresentBoth cs = formatRepresentBoth cs'
      ↔ (sortByKey ConflictContribution.userId cs).flatMap linePiece
        = (sortByKey ConflictContribution.userId cs').flatMap linePiece := by
  have hline : ∀ {ds : List ConflictContribution}, ds ≠ [] →
      (" · " ++ formatRepresentBoth ds).toList
        = (sortByKey ConflictContribution.userId ds).flatMap linePiece := by
    intro ds hds
    have hsorted : (sortByKey ConflictContribution.userId ds).map renderContribution ≠ [] := by
      intro hnil
      have hperm : (sortByKey ConflictContribution.userId ds).Perm ds := sortByKey_perm ds
      rw [List.map_eq_nil_iff.mp hnil] at hperm
      exact hds (List.nil_perm.mp hperm)
    rw [formatRepresentBoth, toList_intercalate hsorted, List.flatMap_map]
    rfl
  rw [← hline h, ← hline h', String.toList_inj]
  constructor
  · intro heq
    rw [heq]
  · intro heq
    have hlists := congrArg String.toList heq
    simpa [String.toList_append, String.toList_inj] using hlists

theorem linePiece_swap_iff {c d : ConflictContribution} (huser : c.userId = d.userId) :
    linePiece c ++ linePiece d = linePiece d ++ linePiece c ↔ ReadAlike c.userId c.text d.text := by
  have hpiece : ∀ e : ConflictContribution, linePiece e
      = (" · ".toList ++ e.userId.toList ++ ": ".toList) ++ e.text.toList := by
    intro e
    simp [linePiece, renderContribution, String.toList_append]
  rw [ReadAlike, ← String.toList_inj, hpiece, hpiece, ← huser]
  simp only [String.toList_append, List.append_assoc, List.append_cancel_left_eq]

/-! ### Reordering the pins -/

theorem pinsWithKey_perm (h : pins'.Perm pins) (key : String) :
    (pinsWithKey env pins' key).Perm (pinsWithKey env pins key) :=
  (h.filter _).filter _

theorem Divergent.perm {group group' : List BiographyPin} (h : group'.Perm group)
    (hdivergent : Divergent env group) : Divergent env group' := by
  obtain ⟨p, hp, q, hq, hne⟩ := hdivergent
  exact ⟨p, h.mem_iff.mpr hp, q, h.mem_iff.mpr hq, hne⟩

/-- A group in another order has the same conflict, where its pins state one fact and the texts of each
user read alike. -/
theorem reportGroup_perm {group group' : List BiographyPin} {c : DetectedConflict} {key : String}
    (hperm : group'.Perm group) (hfact : ∀ p ∈ group, ∀ q ∈ group, SameFact env p q)
    (halike : Divergent env group → ∀ p ∈ group, ∀ q ∈ group, p.userId = q.userId →
      ReadAlike p.userId p.text q.text)
    (hreport : reportGroup env key group = some c) :
    ∃ c', reportGroup env key group' = some c' ∧ SameConflict c c' := by
  obtain ⟨hdivergent, first, rest, hgroup, rfl⟩ := (reportGroup_eq key).mp hreport
  have hne : group' ≠ [] := by
    rintro rfl
    rw [List.nil_perm.mp hperm] at hgroup
    cases hgroup
  obtain ⟨first', rest', hgroup'⟩ := List.exists_cons_of_ne_nil hne
  have hsame : SameFact env first first' := by
    refine hfact first (by simp [hgroup]) first' (hperm.mem_iff.mp ?_)
    simp [hgroup']
  refine ⟨_, (reportGroup_eq key).mpr ⟨hdivergent.perm hperm, first', rest', hgroup', rfl⟩, ?_⟩
  have hline : formatRepresentBoth (group.map contributionOf)
      = formatRepresentBoth (group'.map contributionOf) := by
    rw [formatRepresentBoth_eq_iff (by simp [hgroup]) (by simp [hgroup'])]
    refine flatMap_sortByKey_perm (hperm.symm.map _) ?_
    intro a ha b hb huser
    obtain ⟨p, hp, rfl⟩ := List.mem_map.mp ha
    obtain ⟨q, hq, rfl⟩ := List.mem_map.mp hb
    exact (linePiece_swap_iff huser).mpr (halike hdivergent p hp q hq huser)
  exact {
    factGroupKey := rfl
    category := hsame.1
    domain := hsame.2.1
    pinIds := (hperm.map _).symm
    contributions := (hperm.map _).symm
    requiresReview := by rw [hsame.1]
    representBothLine := hline }

theorem keys_groupPins_perm (h : pins'.Perm pins) :
    (groupPins env pins).keys.Perm (groupPins env pins').keys := by
  refine (List.perm_ext_iff_of_nodup (Dict.nodup _) (Dict.nodup _)).mpr fun key => ?_
  have heligible : ∀ p, p ∈ eligiblePins env pins ↔ p ∈ eligiblePins env pins' :=
    fun p => (h.filter (isConflictEligible env)).mem_iff.symm
  have hkeys : key ∈ (groupPins env pins).keys ↔ ∃ pin ∈ eligiblePins env pins, groupKey env pin = key :=
    mem_keys_groupPins
  have hkeys' : key ∈ (groupPins env pins').keys ↔
      ∃ pin ∈ eligiblePins env pins', groupKey env pin = key := mem_keys_groupPins
  simp only [Dict.keys] at hkeys hkeys'
  rw [hkeys, hkeys']
  simp only [heligible]

theorem filterMap_forall₂ {α β : Type} {R : β → β → Prop} {f g : α → Option β} {xs : List α}
    (hsome : ∀ x ∈ xs, ∀ b, f x = some b → ∃ b', g x = some b' ∧ R b b')
    (hnone : ∀ x ∈ xs, f x = none → g x = none) :
    List.Forall₂ R (xs.filterMap f) (xs.filterMap g) := by
  induction xs with
  | nil => exact .nil
  | cons x xs ih =>
    have hrest := ih (fun y hy => hsome y (List.mem_cons_of_mem _ hy))
      (fun y hy => hnone y (List.mem_cons_of_mem _ hy))
    cases hf : f x with
    | none =>
      have hg := hnone x List.mem_cons_self hf
      simpa [List.filterMap_cons, hf, hg] using hrest
    | some b =>
      obtain ⟨b', hg, hR⟩ := hsome x List.mem_cons_self b hf
      simpa [List.filterMap_cons, hf, hg] using ⟨hR, hrest⟩

theorem detectConflicts_perm (hkeys : KeysApart env pins) (halike : OwnTextsAlike env pins)
    (hperm : pins'.Perm pins) :
    SameConflicts (detectConflicts env pins) (detectConflicts env pins') := by
  rw [detectConflicts_eq, detectConflicts_eq]
  refine ⟨(groupPins env pins).keys.filterMap fun key =>
    reportGroup env key (pinsWithKey env pins' key), (keys_groupPins_perm hperm).filterMap _, ?_⟩
  refine filterMap_forall₂ ?_ ?_
  · intro key _ c hreport
    refine reportGroup_perm (pinsWithKey_perm hperm key) ?_ ?_ hreport
    · intro p hp q hq
      obtain ⟨hp, hpkey⟩ := mem_pinsWithKey.mp hp
      obtain ⟨hq, hqkey⟩ := mem_pinsWithKey.mp hq
      exact hkeys p hp q hq (hpkey.trans hqkey.symm)
    · intro hdivergent p hp q hq huser
      obtain ⟨hpe, rfl⟩ := mem_pinsWithKey.mp hp
      obtain ⟨hqe, hqkey⟩ := mem_pinsWithKey.mp hq
      exact halike p hpe q hqe hqkey.symm hdivergent huser
  · intro key _ hnone
    by_contra hsome
    obtain ⟨c, hc⟩ := Option.ne_none_iff_exists'.mp hsome
    have hdivergent := ((reportGroup_eq key).mp hc).1
    obtain ⟨c', hc'⟩ := (hdivergent.perm (pinsWithKey_perm hperm key).symm).reports key
    rw [hnone] at hc'
    cases hc'

theorem SameConflicts.find {cs cs' : List DetectedConflict} (h : SameConflicts cs cs')
    {c : DetectedConflict} (hc : c ∈ cs) : ∃ c' ∈ cs', SameConflict c c' := by
  obtain ⟨ds, hperm, hforall⟩ := h
  obtain ⟨c', hc', hsame⟩ : ∃ c' ∈ ds, SameConflict c c' := by
    clear hperm
    induction hforall with
    | nil => cases hc
    | cons hab _ ih =>
      rcases List.mem_cons.mp hc with rfl | hc
      · exact ⟨_, List.mem_cons_self, hab⟩
      · obtain ⟨c', hc', hsame⟩ := ih hc
        exact ⟨c', List.mem_cons_of_mem _ hc', hsame⟩
  exact ⟨c', hperm.mem_iff.mp hc', hsame⟩

theorem line_of_order {c : DetectedConflict} (hc : c ∈ detectConflicts env pins)
    (hsame : SameConflicts (detectConflicts env pins) (detectConflicts env pins')) :
    c.representBothLine
      = formatRepresentBoth ((pinsWithKey env pins' c.factGroupKey).map contributionOf) := by
  obtain ⟨c', hc', hsame⟩ := hsame.find hc
  have hreport := mem_detectConflicts.mp hc'
  rw [← hsame.factGroupKey] at hreport
  obtain ⟨-, first, rest, -, hc'eq⟩ := (reportGroup_eq _).mp hreport
  rw [hsame.representBothLine, hc'eq]

theorem ownTextsAlike_of_order
    (h : ∀ pins', pins'.Perm pins →
      SameConflicts (detectConflicts env pins) (detectConflicts env pins')) :
    OwnTextsAlike env pins := by
  intro p hp q hq hkey hdivergent huser
  by_cases hpq : p = q
  · subst hpq
    exact rfl
  · obtain ⟨c, hreport⟩ := hdivergent.reports (groupKey env p)
    have hckey := reportGroup_key hreport
    have hc : c ∈ detectConflicts env pins := mem_detectConflicts.mpr (hckey.symm ▸ hreport)
    have hpmem : p ∈ pins := (List.mem_filter.mp hp).1
    have hqmem : q ∈ pins.erase p := (List.mem_erase_of_ne (Ne.symm hpq)).mpr (List.mem_filter.mp hq).1
    have hpins : pins.Perm (p :: q :: (pins.erase p).erase q) :=
      (List.perm_cons_erase hpmem).trans ((List.perm_cons_erase hqmem).cons p)
    have hline := line_of_order hc (h _ hpins.symm)
    have hline' := line_of_order hc (h _ ((List.Perm.swap p q _).trans hpins.symm))
    rw [hline, hckey] at hline'
    have hfront : ∀ {a b : BiographyPin} {rest : List BiographyPin}, isConflictEligible env a = true →
        isConflictEligible env b = true → groupKey env a = groupKey env p →
        groupKey env b = groupKey env p →
        pinsWithKey env (a :: b :: rest) (groupKey env p)
          = a :: b :: pinsWithKey env rest (groupKey env p) := by
      intro a b rest ha hb hka hkb
      simp [pinsWithKey, eligiblePins, ha, hb, hka, hkb]
    have hpe := (List.mem_filter.mp hp).2
    have hqe := (List.mem_filter.mp hq).2
    rw [hfront hpe hqe rfl hkey.symm, hfront hqe hpe hkey.symm rfl,
      formatRepresentBoth_eq_iff (by simp) (by simp)] at hline'
    simp only [List.map_cons] at hline'
    have hpieces : linePiece (contributionOf p) ++ linePiece (contributionOf q)
        = linePiece (contributionOf q) ++ linePiece (contributionOf p) :=
      swap_of_flatMap_sortByKey (x := contributionOf p) (y := contributionOf q) huser hline'
    exact (linePiece_swap_iff (c := contributionOf p) (d := contributionOf q) huser).mp hpieces

/-- Detection is exact, in every order of the pins, exactly when pins with one key state one fact, and
in each conflict the texts of one user read the same in either order. -/
theorem detectConflicts_exact_iff (env : TextEnv) (pins : List BiographyPin) :
    DetectsExactly env pins ↔ KeysApart env pins ∧ OwnTextsAlike env pins := by
  constructor
  · intro h
    refine ⟨?_, ownTextsAlike_of_order h.order⟩
    intro p hp q hq hkey
    have hgrouped := h.grouped p (List.mem_filter.mp hp).1 q (List.mem_filter.mp hq).1
    exact (hgrouped.mp (in_one_group_iff.mpr ⟨hp, hq, hkey⟩)).2.2
  · rintro ⟨hkeys, halike⟩
    constructor
    · intro pins' hperm
      exact detectConflicts_perm hkeys halike hperm
    · intro p hp q hq
      rw [in_one_group_iff]
      constructor
      · rintro ⟨hpe, hqe, hkey⟩
        exact ⟨(List.mem_filter.mp hpe).2, (List.mem_filter.mp hqe).2, hkeys p hpe q hqe hkey⟩
      · rintro ⟨hpe, hqe, hfact⟩
        exact ⟨List.mem_filter.mpr ⟨hp, hpe⟩, List.mem_filter.mpr ⟨hq, hqe⟩, hfact.groupKey_eq⟩
    · intro entry hentry
      exact reported_iff hentry

def mondayPin : BiographyPin :=
  { id := "1", userId := "alice", text := "Monday", category := .logistics, domain := some "a|b"
    subjectText := some "c" }

def tuesdayPin : BiographyPin :=
  { id := "2", userId := "bob", text := "Tuesday", category := .logistics, domain := some "a"
    subjectText := some "b|c" }

/-- Two facts that share a key: a bar ends the domain of one and begins the subject of the other. -/
theorem detectConflicts_bar : ¬ DetectsExactly ⟨id, id, id⟩ [mondayPin, tuesdayPin] := by
  intro h
  have hmonday : mondayPin ∈ eligiblePins ⟨id, id, id⟩ [mondayPin, tuesdayPin] := by decide +kernel
  have htuesday : tuesdayPin ∈ eligiblePins ⟨id, id, id⟩ [mondayPin, tuesdayPin] := by decide +kernel
  have hkey : groupKey ⟨id, id, id⟩ mondayPin = groupKey ⟨id, id, id⟩ tuesdayPin := by decide +kernel
  have hfact := ((h.grouped mondayPin (by simp) tuesdayPin (by simp)).mp
    (in_one_group_iff.mpr ⟨hmonday, htuesday, hkey⟩)).2.2
  have hdomain := hfact.2.1
  simp [mondayPin, tuesdayPin] at hdomain

end Lumogis
