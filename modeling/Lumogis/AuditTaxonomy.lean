import Mathlib.Data.List.Basic

/-!
# AuditTaxonomy

The event types of the audit log: derived from the name of an action, and looked up the other way for a
filter, whose conditions become the text of a query with placeholders. Names and types are lists of
characters; a condition has its text, its parameters and the rows it holds of.
-/

namespace Lumogis.AuditTaxonomy

/-! ## The tables -/

def PRIVACY_MODE_BLOCK : List Char := "privacy_mode_block".toList

def CAPTURE_INDEX : List Char := "capture_index".toList

def TOOL_EXECUTE_CAPABILITY : List Char := "tool.execute.capability".toList

def PERMISSIONS_CHANGE_CONNECTOR : List Char := "__permissions_change__".toList

def USER_INVITE_ACTIONS : List (List Char) :=
  ["__user_invite__.minted".toList, "__user_invite__.redeemed".toList, "__user_invite__.revoked".toList]

def MCP_TOKEN_ACTIONS : List (List Char) :=
  ["__mcp_token__.minted".toList, "__mcp_token__.revoked".toList, "__mcp_token__.admin_revoked".toList,
    "__mcp_token__.cascade_revoked".toList]

def SESSION_ACTIONS : List (List Char) :=
  ["__session__.minted".toList, "__session__.revoked".toList, "__session__.admin_revoked".toList,
    "__session__.cascade_revoked".toList, "__session__.reuse_detected".toList]

def CREDENTIAL_ACTIONS : List (List Char) :=
  ["__connector_credential__.put".toList, "__connector_credential__.deleted".toList,
    "__connector_credential__.rotated".toList]

def EXPORT_ACTIONS : List (List Char) :=
  ["__user_export__.started".toList, "__user_export__.failed".toList, "__user_export__.prune_failed".toList,
    "__user_export__.completed".toList]

def IMPORT_ACTIONS : List (List Char) :=
  ["__user_import__.refused".toList, "__user_import__.dry_run_requested".toList,
    "__user_import__.dry_run_validation_passed".toList, "__user_import__.dry_run_validation_failed".toList,
    "__user_import__.started".toList, "__user_import__.failed".toList, "__user_import__.completed".toList]

def EXACT_MAPPED_ACTION_NAMES : List (List Char) :=
  [PRIVACY_MODE_BLOCK, CAPTURE_INDEX, TOOL_EXECUTE_CAPABILITY] ++ USER_INVITE_ACTIONS ++ MCP_TOKEN_ACTIONS ++
    SESSION_ACTIONS ++ CREDENTIAL_ACTIONS ++ EXPORT_ACTIONS ++ IMPORT_ACTIONS

def PREFIX_EXCLUSION_PATTERNS : List (List Char) :=
  ["\\_\\_user\\_invite\\_\\_.%".toList, "\\_\\_mcp\\_token\\_\\_.%".toList, "\\_\\_session\\_\\_.%".toList,
    "\\_\\_connector\\_credential\\_\\_.%".toList, "\\_\\_user\\_export\\_\\_.%".toList,
    "\\_\\_user\\_import\\_\\_.%".toList]

/-- The prefix of the names, and that of their event types. -/
def NAMESPACE_PREFIXES : List (List Char × List Char) :=
  [("__user_invite__.".toList, "auth.invite.".toList), ("__mcp_token__.".toList, "auth.mcp_token.".toList),
    ("__session__.".toList, "auth.session.".toList), ("__connector_credential__.".toList, "auth.credential.".toList),
    ("__user_export__.".toList, "data.export.".toList), ("__user_import__.".toList, "data.import.".toList)]

def permissionsPrefix : List Char := "__permissions_change__.".toList

def routinePrefix : List Char := "routine:".toList

/-! ## Forwards -/

/-- The loop over the namespaces. A name that is no more than a prefix is left to what follows. -/
def namespacedType (actionName : List Char) : List (List Char × List Char) → Option (List Char)
  | [] => none
  | (namePrefix, eventPrefix) :: rest =>
    if namePrefix.isPrefixOf actionName && !(actionName.drop namePrefix.length).isEmpty then
      some (eventPrefix ++ actionName.drop namePrefix.length)
    else namespacedType actionName rest

/-- `derive_event_type`, which reads neither the connector nor the summary. -/
def deriveEventType (actionName : List Char) : List Char :=
  if actionName = [] then "audit.unknown".toList
  else if actionName = PRIVACY_MODE_BLOCK then "privacy.external_call.denied".toList
  else if actionName = CAPTURE_INDEX then "data.capture.indexed".toList
  else if actionName = TOOL_EXECUTE_CAPABILITY then "action.executed".toList
  else if routinePrefix.isPrefixOf actionName then "action.routine.executed".toList
  else
    match namespacedType actionName NAMESPACE_PREFIXES with
    | some eventType => eventType
    | none =>
      if permissionsPrefix.isPrefixOf actionName then "auth.permissions.changed".toList
      else "action.executed".toList

/-! ## Backwards -/

structure AuditFilterPredicate where
  actionNames : List (List Char) := []
  connector : Option (List Char) := none
  excludeMapped : Bool := false
  routinePrefixOnly : Bool := false
  deriving DecidableEq

/-- The names that are listed for the prefix of a namespace. -/
def namespaceActions (namePrefix : List Char) : List (List Char) :=
  if namePrefix = "__user_invite__.".toList then USER_INVITE_ACTIONS
  else if namePrefix = "__mcp_token__.".toList then MCP_TOKEN_ACTIONS
  else if namePrefix = "__session__.".toList then SESSION_ACTIONS
  else if namePrefix = "__connector_credential__.".toList then CREDENTIAL_ACTIONS
  else if namePrefix = "__user_export__.".toList then EXPORT_ACTIONS
  else if namePrefix = "__user_import__.".toList then IMPORT_ACTIONS
  else []

def allExactEventTypes : List (List Char × AuditFilterPredicate) :=
  [("privacy.external_call.denied".toList, { actionNames := [PRIVACY_MODE_BLOCK] }),
    ("data.capture.indexed".toList, { actionNames := [CAPTURE_INDEX] }),
    ("auth.permissions.changed".toList, { connector := some PERMISSIONS_CHANGE_CONNECTOR }),
    ("action.routine.executed".toList, { routinePrefixOnly := true }),
    ("action.executed".toList, { excludeMapped := true })] ++
  NAMESPACE_PREFIXES.flatMap fun ns => (namespaceActions ns.1).map fun action =>
    (ns.2 ++ action.drop ns.1.length, { actionNames := [action] })

/-- What the loop over the keys of a category has found. -/
structure CategoryMatch where
  names : List (List Char) := []
  routine : Bool := false
  connector : Option (List Char) := none

def categoryStep (childPrefix : List Char) (found : CategoryMatch) (entry : List Char × AuditFilterPredicate) :
    CategoryMatch :=
  if entry.1 = "action.executed".toList then found
  else if !childPrefix.isPrefixOf entry.1 then found
  else if entry.2.routinePrefixOnly then { found with routine := true }
  else if entry.2.connector.any (fun c => !c.isEmpty) && entry.2.actionNames.isEmpty then
    { found with connector := entry.2.connector }
  else { found with names := found.names ++ entry.2.actionNames }

/-- The keys of a category, folded. -/
def categoryPredicate (eventType : List Char) : Option AuditFilterPredicate :=
  let found := allExactEventTypes.foldl (categoryStep (eventType ++ ['.'])) {}
  if found.routine && found.names.isEmpty && found.connector.isNone then some { routinePrefixOnly := true }
  else if found.connector.isSome && found.names.isEmpty then some { connector := found.connector }
  else if !found.names.isEmpty then some { actionNames := found.names.eraseDups }
  else none

def actionNamesForEventType (eventType : List Char) : Option AuditFilterPredicate :=
  if eventType = [] then none
  else
    match allExactEventTypes.find? fun entry => entry.1 = eventType with
    | some entry => some entry.2
    | none => if 1 < eventType.count '.' then none else categoryPredicate eventType

/-! ## Conditions -/

structure AuditRow where
  userId : List Char
  actionName : List Char
  connector : List Char
  executedAt : Nat

inductive AuditParam where
  | text (t : List Char)
  | time (t : Nat)
  | number (n : Nat)

/-- `LIKE`, with a backslash as the escape. -/
def likeMatch : List Char → List Char → Bool
  | [], text => text.isEmpty
  | '%' :: pattern, text => text.tails.any fun rest => likeMatch pattern rest
  | '_' :: pattern, text => !text.isEmpty && likeMatch pattern text.tail
  | '\\' :: c :: pattern, text => text.head? = some c && likeMatch pattern text.tail
  | c :: pattern, text => text.head? = some c && likeMatch pattern text.tail

inductive AuditCondition where
  | userIs (userId : List Char)
  | connectorIs (connector : List Char)
  | connectorIsNot (connector : List Char)
  | actionLike (pattern : List Char)
  | actionNotLike (pattern : List Char)
  | actionIn (names : List (List Char))
  | actionNotIn (names : List (List Char))
  | routine
  | notRoutine
  | executedFrom (t : Nat)
  | executedTo (t : Nat)

/-- `", ".join(["%s"] * n)`. -/
def placeholderList : Nat → List Char
  | 0 => []
  | 1 => "%s".toList
  | n + 2 => "%s, ".toList ++ placeholderList (n + 1)

namespace AuditCondition

def text : AuditCondition → List Char
  | .userIs _ => "user_id = %s".toList
  | .connectorIs _ => "connector = %s".toList
  | .connectorIsNot _ => "connector != %s".toList
  | .actionLike _ => "action_name LIKE %s".toList
  | .actionNotLike _ => "NOT (action_name LIKE %s ESCAPE '\\')".toList
  | .actionIn names => "action_name IN (".toList ++ placeholderList names.length ++ [')']
  | .actionNotIn names => "action_name NOT IN (".toList ++ placeholderList names.length ++ [')']
  | .routine => "action_name LIKE 'routine:%' ESCAPE '\\'".toList
  | .notRoutine => "action_name NOT LIKE 'routine:%' ESCAPE '\\'".toList
  | .executedFrom _ => "executed_at >= %s".toList
  | .executedTo _ => "executed_at <= %s".toList

def params : AuditCondition → List AuditParam
  | .userIs userId => [.text userId]
  | .connectorIs connector => [.text connector]
  | .connectorIsNot connector => [.text connector]
  | .actionLike pattern => [.text pattern]
  | .actionNotLike pattern => [.text pattern]
  | .actionIn names => names.map .text
  | .actionNotIn names => names.map .text
  | .routine => []
  | .notRoutine => []
  | .executedFrom t => [.time t]
  | .executedTo t => [.time t]

def holds (row : AuditRow) : AuditCondition → Bool
  | .userIs userId => row.userId = userId
  | .connectorIs connector => row.connector = connector
  | .connectorIsNot connector => row.connector ≠ connector
  | .actionLike pattern => likeMatch pattern row.actionName
  | .actionNotLike pattern => !likeMatch pattern row.actionName
  | .actionIn names => names.any fun name => name = row.actionName
  | .actionNotIn names => !names.any fun name => name = row.actionName
  | .routine => likeMatch "routine:%".toList row.actionName
  | .notRoutine => !likeMatch "routine:%".toList row.actionName
  | .executedFrom t => t ≤ row.executedAt
  | .executedTo t => row.executedAt ≤ t

end AuditCondition

/-- The conditions that a predicate appends. -/
def applyPredicateToSql (predicate : AuditFilterPredicate) : List AuditCondition :=
  if predicate.routinePrefixOnly then [.routine]
  else
    (if predicate.actionNames.isEmpty then [] else [.actionIn predicate.actionNames]) ++
    (predicate.connector.toList.map .connectorIs) ++
    if predicate.excludeMapped then
      [.actionNotIn EXACT_MAPPED_ACTION_NAMES, .notRoutine, .connectorIsNot PERMISSIONS_CHANGE_CONNECTOR] ++
        PREFIX_EXCLUSION_PATTERNS.map .actionNotLike
    else []

/-! ## The query -/

structure AuditFilters where
  userId : List Char
  connector : Option (List Char) := none
  actionType : Option (List Char) := none
  eventType : Option (List Char) := none
  after : Option Nat := none
  before : Option Nat := none

/-- An argument that is given and not empty. -/
def given (value : Option (List Char)) : List (List Char) := value.toList.filter fun v => !v.isEmpty

/-- `_audit_filter_conditions`, with the conditions of the predicate. -/
def filterConditions (filters : AuditFilters) (predicate : List AuditCondition) : List AuditCondition :=
  [.userIs filters.userId] ++ (given filters.connector).map .connectorIs ++
    (given filters.actionType).map (fun t => .actionLike ('%' :: t ++ ['%'])) ++ predicate ++
    filters.after.toList.map .executedFrom ++ filters.before.toList.map .executedTo

def auditFilterConditions (filters : AuditFilters) : List AuditCondition :=
  match given filters.eventType with
  | [] => filterConditions filters []
  | eventType :: _ =>
    match actionNamesForEventType eventType with
    | none => []
    | some predicate => filterConditions filters (applyPredicateToSql predicate)

/-- `" AND ".join(..)`. -/
def joinAnd : List (List Char) → List Char
  | [] => []
  | [t] => t
  | t :: rest => t ++ " AND ".toList ++ joinAnd rest

structure SqlQuery where
  text : List Char
  params : List AuditParam

/-- The query of `get_audit`; nothing when an event type has no predicate. -/
def getAuditQuery (filters : AuditFilters) (limit offset : Nat) : Option SqlQuery :=
  let conditions := auditFilterConditions filters
  if !(given filters.eventType).isEmpty && conditions.isEmpty then none
  else
    some
      { text := ("SELECT id, action_name, connector, mode, input_summary, result_summary, " ++
            "reverse_token, reverse_action, executed_at, reversed_at, scope FROM audit_log WHERE ").toList ++
          joinAnd (conditions.map AuditCondition.text) ++
          " ORDER BY executed_at DESC LIMIT %s OFFSET %s".toList
        params := conditions.flatMap AuditCondition.params ++ [.number limit, .number offset] }

/-- How many parameters a query takes; nothing if a percent sign is neither doubled nor a placeholder. -/
def placeholders : List Char → Option Nat
  | [] => some 0
  | '%' :: 's' :: rest => (placeholders rest).map (· + 1)
  | '%' :: '%' :: rest => placeholders rest
  | '%' :: _ => none
  | _ :: rest => placeholders rest

def SqlQuery.IsValid (q : SqlQuery) : Prop := placeholders q.text = some q.params.length

/-! ## What is asked of the two directions -/

/-- The type is the one asked for, or in the category of at most two segments that is asked for. -/
def Reads (derived eventType : List Char) : Prop :=
  derived = eventType ∨ eventType.count '.' ≤ 1 ∧ (eventType ++ ['.']).isPrefixOf derived = true

instance (derived eventType : List Char) : Decidable (Reads derived eventType) :=
  inferInstanceAs (Decidable (_ ∨ _ ∧ _))

/-- Queries with the event type are valid, and its predicate selects the rows that derive it. -/
structure ReadsBothWays (row : AuditRow) (eventType : List Char) (predicate : AuditFilterPredicate) : Prop where
  valid : ∀ filters limit offset q, filters.eventType = some eventType → getAuditQuery filters limit offset = some q →
    q.IsValid
  selects : (∀ c ∈ applyPredicateToSql predicate, c.holds row = true) ↔ Reads (deriveEventType row.actionName) eventType

/-- The event types whose query has the literal pattern of the routines. -/
def RoutineType (eventType : List Char) : Prop :=
  eventType = "action".toList ∨ eventType = "action.routine".toList ∨
    eventType = "action.routine.executed".toList ∨ eventType = "action.executed".toList

def PermissionsType (eventType : List Char) : Prop :=
  eventType = "auth.permissions".toList ∨ eventType = "auth.permissions.changed".toList

/-- The event type needs no literal pattern; for the permissions the connector is the one of the changes exactly
when the name is; the category of all of `auth` is not asked about a permissions change, and no category about
a name of its namespaces that is not listed. -/
def Readable (row : AuditRow) (eventType : List Char) : Prop :=
  ¬ RoutineType eventType ∧
  (PermissionsType eventType →
    (row.connector = PERMISSIONS_CHANGE_CONNECTOR ↔ permissionsPrefix.isPrefixOf row.actionName = true)) ∧
  (eventType = "auth".toList → permissionsPrefix.isPrefixOf row.actionName = false) ∧
  ∀ ns ∈ NAMESPACE_PREFIXES, (eventType ++ ['.']).isPrefixOf ns.2 = true → ns.1.isPrefixOf row.actionName = true →
    row.actionName = ns.1 ∨ row.actionName ∈ EXACT_MAPPED_ACTION_NAMES

end Lumogis.AuditTaxonomy
