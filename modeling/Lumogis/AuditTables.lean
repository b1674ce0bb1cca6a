import Lumogis.AuditTaxonomy

/-!
# AuditTables

The tables of the event types, evaluated: which types have a predicate and of which kind, that a listed name
derives its type and is selected by the filters that ask for it, and that no prefix is the beginning of another.
-/

namespace Lumogis.AuditTaxonomy

/-- The types of the listed names, with their names. -/
def listedTypes : List (List Char × List Char) :=
  allExactEventTypes.flatMap fun e => e.2.actionNames.map fun name => (e.1, name)

/-- The types that have a predicate: the keys and their categories. -/
def eventTypes : List (List Char) :=
  allExactEventTypes.map Prod.fst ++
    ["privacy".toList, "privacy.external_call".toList, "data".toList, "data.capture".toList, "data.export".toList,
      "data.import".toList, "auth".toList, "auth.permissions".toList, "auth.invite".toList, "auth.mcp_token".toList,
      "auth.session".toList, "auth.credential".toList, "action".toList, "action.routine".toList]

instance (eventType : List Char) : Decidable (RoutineType eventType) := inferInstanceAs (Decidable (_ ∨ _ ∨ _ ∨ _))

instance (eventType : List Char) : Decidable (PermissionsType eventType) := inferInstanceAs (Decidable (_ ∨ _))

/-- What holds of the tables, by evaluation. -/
structure TablesAgree : Prop where
  keyPrefixes : ∀ e ∈ allExactEventTypes, ∀ n ∈ List.range e.1.length,
    (e.1.take n).count '.' ≤ 1 → e.1[n]? = some '.' → e.1.take n ∈ eventTypes
  keys : ∀ eventType ∈ eventTypes, ∀ p ∈ actionNamesForEventType eventType,
    RoutineType eventType ∧ (p.routinePrefixOnly = true ∨ p.excludeMapped = true) ∨
    PermissionsType eventType ∧ p = { connector := some PERMISSIONS_CHANGE_CONNECTOR } ∨
    (¬ RoutineType eventType ∧ ¬ PermissionsType eventType) ∧ p = { actionNames := p.actionNames } ∧ p.actionNames ≠ []
  names : ∀ eventType ∈ eventTypes, ∀ p ∈ actionNamesForEventType eventType, p.actionNames ≠ [] →
    (∀ e ∈ listedTypes, e.2 ∈ p.actionNames ↔ Reads e.1 eventType) ∧
      ∀ name ∈ p.actionNames, name ∈ listedTypes.map Prod.snd
  listed : ∀ e ∈ listedTypes, deriveEventType e.2 = e.1 ∧ e.2 ∈ EXACT_MAPPED_ACTION_NAMES ∧
    permissionsPrefix.isPrefixOf e.2 = false
  mapped : ∀ name ∈ EXACT_MAPPED_ACTION_NAMES,
    name = TOOL_EXECUTE_CAPABILITY ∨ name ∈ listedTypes.map Prod.snd
  fixed : ∀ eventType ∈ eventTypes, ¬ RoutineType eventType →
    ¬ Reads "audit.unknown".toList eventType ∧ ¬ Reads "action.executed".toList eventType ∧
      ¬ Reads "action.routine.executed".toList eventType
  permissions : ∀ eventType ∈ eventTypes,
    Reads "auth.permissions.changed".toList eventType ↔ PermissionsType eventType ∨ eventType = "auth".toList
  permissionsAlone : ∀ eventType ∈ eventTypes, PermissionsType eventType →
    (∀ e ∈ listedTypes, ¬ Reads e.1 eventType) ∧
      ∀ ns ∈ NAMESPACE_PREFIXES, (eventType ++ ['.']).isPrefixOf ns.2 = false
  /-- A type in a namespace is a key, so its name is listed. -/
  namespaceKey : ∀ eventType ∈ eventTypes, ∀ ns ∈ NAMESPACE_PREFIXES, ns.2.isPrefixOf eventType = true →
    ns.1 ++ eventType.drop ns.2.length ∈ listedTypes.map Prod.snd
  apart : ∀ ns ∈ NAMESPACE_PREFIXES, (∀ ns' ∈ NAMESPACE_PREFIXES, ns.1.isPrefixOf ns'.1 = true → ns = ns') ∧
    ns.1.isPrefixOf permissionsPrefix = false ∧ permissionsPrefix.isPrefixOf ns.1 = false ∧
    ns.1.isPrefixOf routinePrefix = false ∧ routinePrefix.isPrefixOf ns.1 = false ∧
    ns.1.isPrefixOf PRIVACY_MODE_BLOCK = false ∧ ns.1.isPrefixOf CAPTURE_INDEX = false ∧
    ns.1.isPrefixOf TOOL_EXECUTE_CAPABILITY = false ∧ ns.2.count '.' = 2

set_option synthInstance.maxHeartbeats 200000 in
set_option synthInstance.maxSize 4000 in
theorem tables : TablesAgree := by
  refine @of_decide_eq_true TablesAgree ?_ ?_
  · exact decidable_of_iff (_ ∧ _ ∧ _ ∧ _ ∧ _ ∧ _ ∧ _ ∧ _ ∧ _ ∧ _)
      ⟨fun h => ⟨h.1, h.2.1, h.2.2.1, h.2.2.2.1, h.2.2.2.2.1, h.2.2.2.2.2.1, h.2.2.2.2.2.2.1, h.2.2.2.2.2.2.2.1,
        h.2.2.2.2.2.2.2.2.1, h.2.2.2.2.2.2.2.2.2⟩,
      fun h => ⟨h.keyPrefixes, h.keys, h.names, h.listed, h.mapped, h.fixed, h.permissions, h.permissionsAlone,
        h.namespaceKey, h.apart⟩⟩
  · decide +kernel

end Lumogis.AuditTaxonomy
