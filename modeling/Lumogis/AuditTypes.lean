import Lumogis.AuditQueries
import Lumogis.AuditTables
import Mathlib.Data.List.Infix

/-!
# AuditTypes

When the event types of the audit log read the same in both directions. A condition is a valid part of a
query unless it has the literal pattern of the routines, which makes the whole query invalid. What a filter
selects is compared with what the names derive: for a listed name by the table, for any other by the prefix
that it begins with. Together they give the exact condition (`reads_both_ways_iff`); a new verb in the
namespace of the invites is in the category and not selected (`unlisted_verb_not_selected`).
-/

namespace Lumogis.AuditTaxonomy

/-! ## The event types with a predicate -/

theorem foldl_categoryStep {childPrefix : List Char} {entries : List (List Char × AuditFilterPredicate)}
    (h : ∀ e ∈ entries, childPrefix.isPrefixOf e.1 = false) (found : CategoryMatch) :
    entries.foldl (categoryStep childPrefix) found = found := by
  induction entries generalizing found with
  | nil => rfl
  | cons e rest ih =>
    have hstep : categoryStep childPrefix found e = found := by
      simp only [categoryStep, h e List.mem_cons_self, Bool.not_false, if_true, ite_self]
    rw [List.foldl_cons, hstep]
    exact ih (fun e' he' => h e' (List.mem_cons_of_mem e he')) found

theorem mem_eventTypes {eventType : List Char} {predicate : AuditFilterPredicate}
    (h : actionNamesForEventType eventType = some predicate) : eventType ∈ eventTypes := by
  simp only [actionNamesForEventType] at h
  split at h
  · cases h
  · split at h
    · rename_i entry hentry
      have hfound : decide (entry.1 = eventType) = true :=
        List.find?_some (p := fun entry : List Char × AuditFilterPredicate => decide (entry.1 = eventType)) hentry
      have hkey : entry.1 = eventType := of_decide_eq_true hfound
      exact List.mem_append_left _ (hkey ▸ List.mem_map_of_mem (List.mem_of_find?_eq_some hentry))
    · split at h
      · cases h
      · rename_i hcount
        -- A category has a key below it, and is that key up to one of its dots.
        obtain ⟨e, he, hbegins⟩ : ∃ e ∈ allExactEventTypes, (eventType ++ ['.']).isPrefixOf e.1 = true := by
          by_contra hnone
          simp only [not_exists, not_and, Bool.not_eq_true] at hnone
          rw [categoryPredicate, foldl_categoryStep hnone] at h
          cases h
        obtain ⟨tail, htail⟩ := List.isPrefixOf_iff_prefix.mp hbegins
        have hkey : e.1 = eventType ++ '.' :: tail := by
          rw [← htail, List.append_assoc]
          rfl
        have htake : e.1.take eventType.length = eventType := by simp [hkey]
        have hlength : eventType.length < e.1.length := by simp [hkey]
        have hdot : e.1[eventType.length]? = some '.' := by simp [hkey]
        have hmem := tables.keyPrefixes e he eventType.length (List.mem_range.mpr hlength)
        rw [htake] at hmem
        exact hmem (Nat.le_of_not_lt hcount) hdot

/-! ## What a name derives -/

theorem prefixes_comparable {a b text : List Char} (ha : a.isPrefixOf text = true) (hb : b.isPrefixOf text = true) :
    a.isPrefixOf b = true ∨ b.isPrefixOf a = true := by
  simp only [List.isPrefixOf_iff_prefix] at ha hb ⊢
  exact List.prefix_or_prefix_of_prefix ha hb

theorem not_isPrefixOf {a b text : List Char} (ha : a.isPrefixOf text = true) (hab : a.isPrefixOf b = false)
    (hba : b.isPrefixOf a = false) : b.isPrefixOf text = false := by
  by_contra hb
  rcases prefixes_comparable ha (Bool.of_not_eq_false hb) with h | h
  · rw [hab] at h
    cases h
  · rw [hba] at h
    cases h

/-- What `namespacedType` finds: the rest of the name after the prefix of a namespace. -/
theorem namespacedType_some {actionName eventType : List Char} {namespaces : List (List Char × List Char)}
    (h : namespacedType actionName namespaces = some eventType) :
    ∃ ns ∈ namespaces, ∃ verb, verb ≠ [] ∧ actionName = ns.1 ++ verb ∧ eventType = ns.2 ++ verb := by
  induction namespaces with
  | nil => cases h
  | cons ns rest ih =>
    simp only [namespacedType] at h
    split at h
    · rename_i hverb
      simp only [Bool.and_eq_true, Bool.not_eq_true', List.isPrefixOf_iff_prefix] at hverb
      obtain ⟨⟨verb, rfl⟩, hne⟩ := hverb
      rw [List.drop_left] at h hne
      cases h
      exact ⟨ns, List.mem_cons_self, verb, by simpa using hne, rfl, rfl⟩
    · obtain ⟨ns', hns', hfound⟩ := ih h
      exact ⟨ns', List.mem_cons_of_mem ns hns', hfound⟩

theorem namespacedType_none {actionName : List Char} {namespaces : List (List Char × List Char)}
    (h : namespacedType actionName namespaces = none) :
    ∀ ns ∈ namespaces, ns.1.isPrefixOf actionName = true → actionName = ns.1 := by
  induction namespaces with
  | nil =>
    intro ns hns
    cases hns
  | cons ns rest ih =>
    simp only [namespacedType] at h
    split at h
    · cases h
    · rename_i hverb
      intro ns' hns' hbegins
      rcases List.mem_cons.mp hns' with rfl | hns'
      · obtain ⟨verb, rfl⟩ := List.isPrefixOf_iff_prefix.mp hbegins
        simp only [hbegins, List.drop_left, Bool.true_and, Bool.not_eq_true', Bool.not_eq_false,
          List.isEmpty_iff] at hverb
        rw [hverb, List.append_nil]
      · exact ih h ns' hns' hbegins

/-- A name that is not listed: it derives a fixed type and is in no namespace, it is a permissions change, or it
is an unlisted verb of one namespace. -/
inductive Unlisted (actionName : List Char) : Prop where
  | fixed (hpermissions : permissionsPrefix.isPrefixOf actionName = false)
      (hnamespaces : ∀ ns ∈ NAMESPACE_PREFIXES, ns.1.isPrefixOf actionName = true → actionName = ns.1)
      (htype : deriveEventType actionName = "audit.unknown".toList ∨
        deriveEventType actionName = "action.executed".toList ∨
        deriveEventType actionName = "action.routine.executed".toList)
  | permissions (hpermissions : permissionsPrefix.isPrefixOf actionName = true)
      (hnamespaces : ∀ ns ∈ NAMESPACE_PREFIXES, ns.1.isPrefixOf actionName = false)
      (htype : deriveEventType actionName = "auth.permissions.changed".toList)
  | verb (ns : List Char × List Char) (hns : ns ∈ NAMESPACE_PREFIXES) (verb : List Char) (hverb : verb ≠ [])
      (hname : actionName = ns.1 ++ verb) (htype : deriveEventType actionName = ns.2 ++ verb)

theorem unlisted_of {actionName : List Char} (h : actionName ∉ listedTypes.map Prod.snd) : Unlisted actionName := by
  have hnot : ∀ name, name ∈ listedTypes.map Prod.snd → actionName ≠ name := fun name hname heq => h (heq ▸ hname)
  have hblock : actionName ≠ PRIVACY_MODE_BLOCK := hnot _ List.mem_cons_self
  have hcapture : actionName ≠ CAPTURE_INDEX := hnot _ (List.mem_cons_of_mem _ List.mem_cons_self)
  by_cases hempty : actionName = []
  · subst hempty
    exact .fixed rfl (by decide) (.inl rfl)
  by_cases htool : actionName = TOOL_EXECUTE_CAPABILITY
  · subst htool
    refine .fixed (by decide) (fun ns hns hbegins => ?_) (.inr (.inl ?_))
    · rw [(tables.apart ns hns).2.2.2.2.2.2.2.1] at hbegins
      cases hbegins
    · simp [deriveEventType, hempty, hblock, hcapture]
  by_cases hroutine : routinePrefix.isPrefixOf actionName = true
  · refine .fixed (not_isPrefixOf hroutine (by decide) (by decide)) (fun ns hns hbegins => ?_) (.inr (.inr ?_))
    · have hapart := tables.apart ns hns
      rw [not_isPrefixOf hroutine hapart.2.2.2.2.1 hapart.2.2.2.1] at hbegins
      cases hbegins
    · simp [deriveEventType, hempty, hblock, hcapture, htool, hroutine]
  cases hfound : namespacedType actionName NAMESPACE_PREFIXES with
  | some eventType =>
    have htype : deriveEventType actionName = eventType := by
      simp [deriveEventType, hempty, hblock, hcapture, htool, hroutine, hfound]
    obtain ⟨ns, hns, verb, hverb, hname, rfl⟩ := namespacedType_some hfound
    exact .verb ns hns verb hverb hname htype
  | none =>
    have hnamespaces := namespacedType_none hfound
    by_cases hpermissions : permissionsPrefix.isPrefixOf actionName = true
    · refine .permissions hpermissions (fun ns hns => ?_) ?_
      · have hapart := tables.apart ns hns
        exact not_isPrefixOf hpermissions hapart.2.2.1 hapart.2.1
      · simp [deriveEventType, hempty, hblock, hcapture, htool, hroutine, hfound, hpermissions]
    · refine .fixed (Bool.eq_false_iff.mpr hpermissions) hnamespaces (.inr (.inl ?_))
      simp [deriveEventType, hempty, hblock, hcapture, htool, hroutine, hfound, hpermissions]

theorem reads_verb {eventType : List Char} (ht : eventType ∈ eventTypes) {ns : List Char × List Char}
    (hns : ns ∈ NAMESPACE_PREFIXES) {verb : List Char} (hunlisted : ns.1 ++ verb ∉ listedTypes.map Prod.snd) :
    Reads (ns.2 ++ verb) eventType ↔ (eventType ++ ['.']).isPrefixOf ns.2 = true := by
  have hdots := (tables.apart ns hns).2.2.2.2.2.2.2.2
  constructor
  · rintro (rfl | ⟨hcount, hbegins⟩)
    · -- A key of the namespace has a listed name.
      have hkey := tables.namespaceKey _ ht ns hns (List.isPrefixOf_iff_prefix.mpr (List.prefix_append _ _))
      rw [List.drop_left] at hkey
      exact absurd hkey hunlisted
    · have hns2 : ns.2.isPrefixOf (ns.2 ++ verb) = true := List.isPrefixOf_iff_prefix.mpr (List.prefix_append _ _)
      rcases prefixes_comparable hbegins hns2 with h | h
      · exact h
      · -- Then the type would have the two dots of the namespace, or be all of it.
        obtain ⟨rest, hrest⟩ := List.isPrefixOf_iff_prefix.mp h
        rcases List.eq_nil_or_concat rest with rfl | ⟨init, c, rfl⟩
        · rw [List.append_nil] at hrest
          rw [hrest]
          exact List.isPrefixOf_iff_prefix.mpr (List.prefix_refl _)
        · rw [List.concat_eq_append, ← List.append_assoc] at hrest
          have htype : ns.2 ++ init = eventType := (List.append_inj' hrest rfl).1
          have : (ns.2 ++ init).count '.' ≤ 1 := htype ▸ hcount
          rw [List.count_append, hdots] at this
          omega
  · intro h
    have hbegins := List.isPrefixOf_iff_prefix.mp h
    refine .inr ⟨?_, List.isPrefixOf_iff_prefix.mpr (hbegins.trans (List.prefix_append _ _))⟩
    have hcount := hbegins.sublist.count_le '.'
    rw [hdots, List.count_append] at hcount
    have hone : List.count '.' ['.'] = 1 := rfl
    omega

/-! ## Both directions -/

theorem selects_names {row : AuditRow} {names : List (List Char)} (hne : names ≠ []) :
    (∀ c ∈ applyPredicateToSql { actionNames := names }, c.holds row = true) ↔ row.actionName ∈ names := by
  have hempty : names.isEmpty = false := by
    cases names with
    | nil => exact absurd rfl hne
    | cons n rest => rfl
  simp [applyPredicateToSql, hempty, AuditCondition.holds]

theorem selects_connector {row : AuditRow} {connector : List Char} :
    (∀ c ∈ applyPredicateToSql { connector := some connector }, c.holds row = true) ↔ row.connector = connector := by
  simp [applyPredicateToSql, AuditCondition.holds]

theorem readable_namespaces {row : AuditRow} {eventType : List Char}
    (h : row.actionName ∈ EXACT_MAPPED_ACTION_NAMES ∨
      ∀ ns ∈ NAMESPACE_PREFIXES, ns.1.isPrefixOf row.actionName = true → row.actionName = ns.1) :
    ∀ ns ∈ NAMESPACE_PREFIXES, (eventType ++ ['.']).isPrefixOf ns.2 = true → ns.1.isPrefixOf row.actionName = true →
      row.actionName = ns.1 ∨ row.actionName ∈ EXACT_MAPPED_ACTION_NAMES := by
  intro ns hns _ hbegins
  rcases h with h | h
  · exact .inr h
  · exact .inl (h ns hns hbegins)

theorem readable_verb {row : AuditRow} {eventType : List Char} (ht : eventType ∈ eventTypes)
    {ns : List Char × List Char} (hns : ns ∈ NAMESPACE_PREFIXES) {verb : List Char} (hverb : verb ≠ [])
    (hname : row.actionName = ns.1 ++ verb) (hunlisted : row.actionName ∉ listedTypes.map Prod.snd) :
    (∀ ns ∈ NAMESPACE_PREFIXES, (eventType ++ ['.']).isPrefixOf ns.2 = true → ns.1.isPrefixOf row.actionName = true →
      row.actionName = ns.1 ∨ row.actionName ∈ EXACT_MAPPED_ACTION_NAMES) ↔
      ¬ Reads (ns.2 ++ verb) eventType := by
  have hbegins : ns.1.isPrefixOf row.actionName = true := by
    rw [hname]
    exact List.isPrefixOf_iff_prefix.mpr (List.prefix_append _ _)
  rw [reads_verb ht hns (hname ▸ hunlisted)]
  constructor
  · intro h hcategory
    rcases h ns hns hcategory hbegins with heq | hmapped
    · rw [hname] at heq
      exact hverb (by simpa using heq)
    · rcases tables.mapped _ hmapped with htool | hlisted
      · rw [htool, (tables.apart ns hns).2.2.2.2.2.2.2.1] at hbegins
        cases hbegins
      · exact hunlisted hlisted
  · intro h ns' hns' hcategory hbegins'
    exfalso
    rcases prefixes_comparable hbegins hbegins' with hle | hle
    · obtain rfl := (tables.apart ns hns).1 ns' hns' hle
      exact h hcategory
    · obtain rfl := (tables.apart ns' hns').1 ns hns hle
      exact h hcategory

section
variable {row : AuditRow} {eventType : List Char} (ht : eventType ∈ eventTypes)

include ht

theorem names_both_ways {names : List (List Char)} (hne : names ≠ [])
    (hp : actionNamesForEventType eventType = some { actionNames := names }) (hroutine : ¬ RoutineType eventType)
    (hpermissions : ¬ PermissionsType eventType) :
    (row.actionName ∈ names ↔ Reads (deriveEventType row.actionName) eventType) ↔ Readable row eventType := by
  obtain ⟨hreads, hlisted⟩ := tables.names eventType ht _ hp hne
  have hreadable : Readable row eventType ↔ (eventType = "auth".toList → permissionsPrefix.isPrefixOf row.actionName = false) ∧
      ∀ ns ∈ NAMESPACE_PREFIXES, (eventType ++ ['.']).isPrefixOf ns.2 = true → ns.1.isPrefixOf row.actionName = true →
        row.actionName = ns.1 ∨ row.actionName ∈ EXACT_MAPPED_ACTION_NAMES :=
    ⟨fun h => h.2.2, fun h => ⟨hroutine, fun hp => absurd hp hpermissions, h⟩⟩
  rw [hreadable]
  by_cases hname : row.actionName ∈ listedTypes.map Prod.snd
  · obtain ⟨e, he, heq⟩ := List.mem_map.mp hname
    obtain ⟨hderive, hmapped, hapart⟩ := tables.listed e he
    rw [heq] at hderive hmapped hapart
    have hagree : row.actionName ∈ names ↔ Reads e.1 eventType := heq ▸ hreads e he
    rw [hderive]
    exact iff_of_true hagree ⟨fun _ => hapart, readable_namespaces (.inl hmapped)⟩
  · have hout : row.actionName ∉ names := fun h => hname (hlisted _ h)
    obtain ⟨hunknown, hexecuted, hroutined⟩ := tables.fixed eventType ht hroutine
    cases unlisted_of hname with
    | fixed hbegins hnamespaces htype =>
      refine iff_of_true (iff_of_false hout ?_) ⟨fun _ => hbegins, readable_namespaces (.inr hnamespaces)⟩
      rcases htype with htype | htype | htype <;> rw [htype] <;> assumption
    | permissions hbegins hnamespaces htype =>
      have hreads := tables.permissions eventType ht
      simp only [hpermissions, false_or] at hreads
      rw [htype, hreads]
      constructor
      · intro hiff
        exact ⟨fun hauth => absurd (hiff.mpr hauth) hout, readable_namespaces (.inr fun ns hns h => by
          rw [hnamespaces ns hns] at h
          cases h)⟩
      · intro h
        refine iff_of_false hout fun hauth => ?_
        rw [h.1 hauth] at hbegins
        cases hbegins
    | verb ns hns verb hverb hverbname htype =>
      have hpermissionsOut : permissionsPrefix.isPrefixOf row.actionName = false := by
        have hapart := tables.apart ns hns
        refine not_isPrefixOf ?_ hapart.2.1 hapart.2.2.1
        rw [hverbname]
        exact List.isPrefixOf_iff_prefix.mpr (List.prefix_append _ _)
      rw [htype, readable_verb ht hns hverb hverbname hname]
      constructor
      · intro hiff
        exact ⟨fun _ => hpermissionsOut, fun h => hout (hiff.mpr h)⟩
      · intro h
        exact iff_of_false hout h.2

theorem permissions_both_ways (hroutine : ¬ RoutineType eventType) (hpermissions : PermissionsType eventType) :
    (row.connector = PERMISSIONS_CHANGE_CONNECTOR ↔ Reads (deriveEventType row.actionName) eventType) ↔
      Readable row eventType := by
  obtain ⟨hlistedOut, hnamespacesOut⟩ := tables.permissionsAlone eventType ht hpermissions
  have hauth : eventType ≠ "auth".toList := by
    rintro rfl
    exact absurd hpermissions (by decide)
  -- The type is derived exactly from the names with the prefix of the changes.
  have hderive : Reads (deriveEventType row.actionName) eventType ↔ permissionsPrefix.isPrefixOf row.actionName = true := by
    by_cases hname : row.actionName ∈ listedTypes.map Prod.snd
    · obtain ⟨e, he, heq⟩ := List.mem_map.mp hname
      obtain ⟨hderive, -, hapart⟩ := tables.listed e he
      rw [← heq, hderive, hapart]
      exact iff_of_false (hlistedOut e he) (by decide)
    · obtain ⟨hunknown, hexecuted, hroutined⟩ := tables.fixed eventType ht hroutine
      cases unlisted_of hname with
      | fixed hbegins hnamespaces htype =>
        rw [hbegins]
        refine iff_of_false ?_ (by decide)
        rcases htype with htype | htype | htype <;> rw [htype] <;> assumption
      | permissions hbegins hnamespaces htype =>
        rw [htype, hbegins]
        exact iff_of_true ((tables.permissions eventType ht).mpr (.inl hpermissions)) rfl
      | verb ns hns verb hverb hverbname htype =>
        have hapart := tables.apart ns hns
        have hbegins : ns.1.isPrefixOf row.actionName = true := by
          rw [hverbname]
          exact List.isPrefixOf_iff_prefix.mpr (List.prefix_append _ _)
        rw [htype, reads_verb ht hns (hverbname ▸ hname), hnamespacesOut ns hns,
          not_isPrefixOf hbegins hapart.2.1 hapart.2.2.1]
  rw [hderive]
  constructor
  · intro h
    refine ⟨hroutine, fun _ => h, fun heq => absurd heq hauth, fun ns hns hcategory => ?_⟩
    rw [hnamespacesOut ns hns] at hcategory
    cases hcategory
  · intro h
    exact h.2.1 hpermissions

end

/-- The two directions agree about a row and an event type exactly if the type needs no literal pattern, the
connector of a permissions change is where its name says, and the categories know the verbs. -/
theorem reads_both_ways_iff (row : AuditRow) (eventType : List Char) (predicate : AuditFilterPredicate)
    (h : actionNamesForEventType eventType = some predicate) :
    ReadsBothWays row eventType predicate ↔ Readable row eventType := by
  have ht : eventType ∈ eventTypes := mem_eventTypes h
  have hvalid := queries_valid_iff h
  have hboth : ReadsBothWays row eventType predicate ↔
      ¬ (predicate.routinePrefixOnly = true ∨ predicate.excludeMapped = true) ∧
        ((∀ c ∈ applyPredicateToSql predicate, c.holds row = true) ↔
          Reads (deriveEventType row.actionName) eventType) :=
    ⟨fun hr => ⟨hvalid.mp hr.valid, hr.selects⟩, fun hr => ⟨hvalid.mpr hr.1, hr.2⟩⟩
  rw [hboth]
  rcases tables.keys eventType ht predicate h with ⟨hroutine, hliteral⟩ | ⟨hpermissions, rfl⟩ | ⟨hkinds, hnames, hne⟩
  · exact iff_of_false (fun hr => hr.1 hliteral) fun hr => hr.1 hroutine
  · have hroutine : ¬ RoutineType eventType := by
      rcases hpermissions with rfl | rfl <;> decide
    rw [selects_connector, ← permissions_both_ways ht hroutine hpermissions]
    simp
  · generalize predicate.actionNames = names at hnames hne
    subst hnames
    rw [selects_names hne, ← names_both_ways ht hne h hkinds.1 hkinds.2]
    simp

def inviteMinted : AuditRow := ⟨"ada".toList, "__user_invite__.minted".toList, "auth".toList, 0⟩

theorem reads_both_ways_iff_inviteMinted :
    ReadsBothWays inviteMinted "auth.invite".toList { actionNames := USER_INVITE_ACTIONS } ↔
      Readable inviteMinted "auth.invite".toList :=
  reads_both_ways_iff inviteMinted "auth.invite".toList { actionNames := USER_INVITE_ACTIONS } (by decide +kernel)

/-- A verb of the invites that the table does not list. -/
def inviteExpired : AuditRow := ⟨"ada".toList, "__user_invite__.expired".toList, "auth".toList, 0⟩

theorem unlisted_verb_not_selected :
    ∃ predicate, actionNamesForEventType "auth.invite".toList = some predicate ∧
      ¬ ReadsBothWays inviteExpired "auth.invite".toList predicate := by
  refine ⟨{ actionNames := USER_INVITE_ACTIONS }, by decide +kernel, ?_⟩
  intro h
  have hreads : Reads (deriveEventType inviteExpired.actionName) "auth.invite".toList := by decide +kernel
  have hselected := (selects_names (List.cons_ne_nil _ _)).mp (h.selects.mpr hreads)
  exact absurd hselected (by decide +kernel)

end Lumogis.AuditTaxonomy
