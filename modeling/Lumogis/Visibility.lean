import Lumogis.Lib.Predicate
import Lumogis.Projection
import Lumogis.QdrantFilter

/-!
# Visibility

The read-side rule of the memory scopes and its three encodings: `visible_filter` for Postgres,
`visible_cypher_fragment` for FalkorDB and `visible_qdrant_filter`, which the vector store compiles
once more. Each encoding accepts the items that `Visible` describes (`visibility_filters_agree`);
without shared access the Qdrant filter for `shared` asks for a reserved owner instead of `FALSE`.
-/

namespace Lumogis

open Predicate

inductive Role where
  | admin | user
  deriving DecidableEq

structure UserContext where
  userId : String
  isAuthenticated : Bool
  role : Role
  /-- `none`: resolved from `users.allows_shared`. -/
  allowsShared : Option Bool
  deriving DecidableEq

structure UserRow where
  id : String
  allowsShared : Bool

def getAllowsShared (users : List UserRow) (userId : String) : Bool :=
  match users.find? (·.id = userId) with
  | none => true
  | some row => row.allowsShared

/-- `role` defaults to `admin`, so only an authenticated admin bypasses `allows_shared`. -/
def effectiveAllowsShared (users : List UserRow) (user : UserContext) : Bool :=
  if user.role = .admin ∧ user.isAuthenticated = true then true
  else
    match user.allowsShared with
    | some allowsShared => allowsShared
    | none => getAllowsShared users user.userId

/-- `ValueError`: the scope filter that was given is not one of the three scopes. -/
structure InvalidScopeFilter where
  scopeFilter : String
  deriving DecidableEq

def validateScopeFilter : Option String → Except InvalidScopeFilter (Option Scope)
  | none => .ok none
  | some scopeFilter =>
    if scopeFilter = "personal" then .ok (some .personal)
    else if scopeFilter = "shared" then .ok (some .shared)
    else if scopeFilter = "system" then .ok (some .system)
    else .error ⟨scopeFilter⟩

/-! ## Items -/

inductive Column where
  | scope | userId

def Column.text : Column → String
  | .scope => "scope"
  | .userId => "user_id"

/-- What is stored of an item: `NULL` or a missing property is `none`. -/
structure Item where
  userId : Option String
  scope : Option String
  rest : Payload

def Item.col (item : Item) : Column → Option String
  | .scope => item.scope
  | .userId => item.userId

/-- The payload of the item's point. -/
def Item.payload (item : Item) : Payload := fun key =>
  if key = "scope" then item.scope.toList.map .str
  else if key = "user_id" then item.userId.toList.map .str
  else item.rest key

@[simp] theorem Item.mem_payload_scope {item : Item} {s : String} :
    .str s ∈ item.payload "scope" ↔ item.scope = some s := by
  simp [Item.payload]

@[simp] theorem Item.mem_payload_userId {item : Item} {s : String} :
    .str s ∈ item.payload "user_id" ↔ item.userId = some s := by
  simp [Item.payload]

/-! ## Postgres -/

def quoted (s : String) : String := "'" ++ s ++ "'"

/-- A lone comparison gets the parentheses that `AND` and `OR` write themselves. -/
def parenthesised {C P : Type} (d : Dialect C P String) (p : Pred C P String) : String :=
  match p with
  | .and _ _ | .or _ _ => p.text d
  | _ => "(" ++ p.text d ++ ")"

/-- A parameter is the position of its `%s`. -/
def sqlDialect : Dialect Column Nat String where
  col := Column.text
  par _ := "%s"
  lit := quoted
  inList vs := "(" ++ ",".intercalate (vs.map quoted) ++ ")"

structure SqlFilter where
  clause : Pred Column Nat String
  params : List String

def SqlFilter.text (f : SqlFilter) : String := parenthesised sqlDialect f.clause

def SqlFilter.Accepts (f : SqlFilter) (item : Item) : Prop :=
  f.clause.Accepts item.col (f.params[·]?)

instance (f : SqlFilter) (item : Item) : Decidable (f.Accepts item) :=
  inferInstanceAs (Decidable (f.clause.Accepts _ _))

def visibleFilter (users : List UserRow) (user : UserContext) (scopeFilter : Option String) :
    Except InvalidScopeFilter SqlFilter := do
  let sf ← validateScopeFilter scopeFilter
  let me := user.userId
  let allowsShared := effectiveAllowsShared users user
  match sf with
  | some .personal =>
    return ⟨.and (.eqLit .scope "personal") (.eqParam .userId 0), [me]⟩
  | some .shared =>
    if !allowsShared then return ⟨.false, []⟩
    else return ⟨.eqLit .scope "shared", []⟩
  | some .system => return ⟨.eqLit .scope "system", []⟩
  | none =>
    if allowsShared then
      return ⟨.or (.and (.eqLit .scope "personal") (.eqParam .userId 0))
        (.inLits .scope ["shared", "system"]), [me]⟩
    else
      return ⟨.or (.and (.eqLit .scope "personal") (.eqParam .userId 0))
        (.eqLit .scope "system"), [me]⟩

/-! ## Qdrant -/

def visibleQdrantFilter (users : List UserRow) (user : UserContext) (scopeFilter : Option String) :
    Except InvalidScopeFilter FilterDict := do
  let sf ← validateScopeFilter scopeFilter
  let me := user.userId
  let allowsShared := effectiveAllowsShared users user
  match sf with
  | some .personal =>
    return .mustOf [.clause "scope" (.str "personal"), .clause "user_id" (.str me)]
  | some .shared =>
    if !allowsShared then
      return .mustOf [.clause "user_id" (.str "__no_shared_access__")]
    else return .mustOf [.clause "scope" (.str "shared")]
  | some .system => return .mustOf [.clause "scope" (.str "system")]
  | none =>
    if allowsShared then
      return .shouldOf [
        .mustOf [.clause "scope" (.str "personal"), .clause "user_id" (.str me)],
        .clauseAny "scope" [.str "shared", .str "system"]]
    else
      return .shouldOf [
        .mustOf [.clause "scope" (.str "personal"), .clause "user_id" (.str me)],
        .clause "scope" (.str "system")]

/-! ## FalkorDB -/

/-- A property of the node or relationship that the variable `node` stands for. -/
structure PropertyRef where
  node : String
  column : Column

def cypherDialect : Dialect PropertyRef String String where
  col r := r.node ++ "." ++ r.column.text
  par p := "$" ++ p
  lit := quoted
  inList vs := "[" ++ ",".intercalate (vs.map quoted) ++ "]"

structure CypherFragment where
  fragment : Pred PropertyRef String String
  params : List (String × String)

def CypherFragment.text (f : CypherFragment) : String := parenthesised cypherDialect f.fragment

/-- `bound` is what the query's variables stand for. -/
def CypherFragment.Accepts (f : CypherFragment) (bound : String → Option Item) : Prop :=
  f.fragment.Accepts (fun r => (bound r.node).bind (·.col r.column)) (f.params.lookup ·)

def visibleCypherFragment (users : List UserRow) (user : UserContext) (node : String)
    (scopeFilter : Option String) : Except InvalidScopeFilter CypherFragment := do
  let sf ← validateScopeFilter scopeFilter
  let me := user.userId
  let a := node
  let allowsShared := effectiveAllowsShared users user
  match sf with
  | some .personal =>
    return ⟨.and (.eqLit ⟨a, .scope⟩ "personal") (.eqParam ⟨a, .userId⟩ "vis_me"),
      [("vis_me", me)]⟩
  | some .shared =>
    if !allowsShared then return ⟨.false, []⟩
    else return ⟨.eqLit ⟨a, .scope⟩ "shared", []⟩
  | some .system => return ⟨.eqLit ⟨a, .scope⟩ "system", []⟩
  | none =>
    if allowsShared then
      return ⟨.or (.and (.eqLit ⟨a, .scope⟩ "personal") (.eqParam ⟨a, .userId⟩ "vis_me"))
        (.inLits ⟨a, .scope⟩ ["shared", "system"]), [("vis_me", me)]⟩
    else
      return ⟨.or (.and (.eqLit ⟨a, .scope⟩ "personal") (.eqParam ⟨a, .userId⟩ "vis_me"))
        (.eqLit ⟨a, .scope⟩ "system"), [("vis_me", me)]⟩

/-! ## The texts -/

/-- The five clauses of the source. -/
def visibleFilterText (allowsShared : Bool) : Option Scope → String
  | some .personal => "(scope = 'personal' AND user_id = %s)"
  | some .shared => if allowsShared then "(scope = 'shared')" else "(FALSE)"
  | some .system => "(scope = 'system')"
  | none =>
    if allowsShared then
      "((scope = 'personal' AND user_id = %s) OR scope IN ('shared','system'))"
    else "((scope = 'personal' AND user_id = %s) OR scope = 'system')"

def visibleCypherText (allowsShared : Bool) (a : String) : Option Scope → String
  | some .personal => "(" ++ a ++ ".scope = 'personal' AND " ++ a ++ ".user_id = $vis_me)"
  | some .shared => if allowsShared then "(" ++ a ++ ".scope = 'shared')" else "(FALSE)"
  | some .system => "(" ++ a ++ ".scope = 'system')"
  | none =>
    if allowsShared then
      "((" ++ a ++ ".scope = 'personal' AND " ++ a ++ ".user_id = $vis_me) OR " ++ a ++
        ".scope IN ['shared','system'])"
    else
      "((" ++ a ++ ".scope = 'personal' AND " ++ a ++ ".user_id = $vis_me) OR " ++ a ++
        ".scope = 'system')"

variable {users : List UserRow} {user : UserContext} {scopeFilter : Option String}
  {sf : Option Scope} {node : String}

/-- The rendered clause is the source's, and its placeholders are the positions of the parameters
in order. -/
theorem visibleFilter_text (h : validateScopeFilter scopeFilter = .ok sf) :
    ∃ f, visibleFilter users user scopeFilter = .ok f ∧
      f.text = visibleFilterText (effectiveAllowsShared users user) sf ∧
      f.clause.params = List.range f.params.length := by
  rw [visibleFilter, h]
  rcases sf with _ | _ | _ | _ <;> cases effectiveAllowsShared users user <;>
    exact ⟨_, rfl, rfl, rfl⟩

theorem visibleCypherFragment_text (h : validateScopeFilter scopeFilter = .ok sf) :
    ∃ f, visibleCypherFragment users user node scopeFilter = .ok f ∧
      f.text = visibleCypherText (effectiveAllowsShared users user) node sf ∧
      f.fragment.params ⊆ f.params.map Prod.fst := by
  rw [visibleCypherFragment, h]
  rcases sf with _ | _ | _ | _ <;> cases effectiveAllowsShared users user <;>
    refine ⟨_, rfl, ?_, by simp [Pred.params]⟩ <;>
    simp [CypherFragment.text, parenthesised, Pred.text, cypherDialect, Column.text, quoted,
      visibleCypherText, String.append_assoc] <;> rfl

/-! ## Agreement -/

/-- The rule: the scope filter, if any, names the item's scope, and the scope lets the user read the
item. -/
def Visible (allowsShared : Bool) (me : String) (sf : Option Scope) (item : Item) : Prop :=
  ∃ scope : Scope, item.scope = some scope.name ∧ (∀ s ∈ sf, s = scope) ∧
    match scope with
    | .personal => item.userId = some me
    | .shared => allowsShared = true
    | .system => True

/-- The Qdrant filter for `shared` without shared access: the items of a reserved owner. -/
def NoSharedAccess (allowsShared : Bool) (sf : Option Scope) (item : Item) : Prop :=
  sf = some .shared ∧ allowsShared = false ∧ item.userId = some "__no_shared_access__"

section Rule

variable {allowsShared : Bool} {me : String} {item : Item}

theorem visible_some {s : Scope} :
    Visible allowsShared me (some s) item ↔ item.scope = some s.name ∧
      match s with
      | .personal => item.userId = some me
      | .shared => allowsShared = true
      | .system => True := by
  constructor
  · rintro ⟨scope, hs, hf, h⟩
    cases hf s rfl
    exact ⟨hs, h⟩
  · rintro ⟨hs, h⟩
    exact ⟨s, hs, fun s' hs' => by cases hs'; rfl, h⟩

theorem visible_none :
    Visible allowsShared me none item ↔
      item.scope = some "personal" ∧ item.userId = some me ∨
      item.scope = some "shared" ∧ allowsShared = true ∨ item.scope = some "system" := by
  constructor
  · rintro ⟨scope, hs, -, h⟩
    cases scope with
    | personal => exact .inl ⟨hs, h⟩
    | shared => exact .inr (.inl ⟨hs, h⟩)
    | system => exact .inr (.inr hs)
  · rintro (⟨hs, h⟩ | ⟨hs, h⟩ | hs)
    · exact ⟨.personal, hs, by simp, h⟩
    · exact ⟨.shared, hs, by simp, h⟩
    · exact ⟨.system, hs, by simp, trivial⟩

end Rule

theorem visibleFilter_accepts (user : UserContext) (h : validateScopeFilter scopeFilter = .ok sf) :
    ∃ f, visibleFilter users user scopeFilter = .ok f ∧ ∀ item,
      f.Accepts item ↔ Visible (effectiveAllowsShared users user) user.userId sf item := by
  rw [visibleFilter, h]
  rcases sf with _ | _ | _ | _ <;> cases effectiveAllowsShared users user <;>
    refine ⟨_, rfl, fun item => ?_⟩ <;>
    simp [SqlFilter.Accepts, visible_some, visible_none, Item.col, Scope.name, or_assoc]

theorem visibleCypherFragment_accepts (user : UserContext) (h : validateScopeFilter scopeFilter = .ok sf) :
    ∃ f, visibleCypherFragment users user node scopeFilter = .ok f ∧ ∀ item bound,
      bound node = some item →
      (f.Accepts bound ↔ Visible (effectiveAllowsShared users user) user.userId sf item) := by
  rw [visibleCypherFragment, h]
  rcases sf with _ | _ | _ | _ <;> cases effectiveAllowsShared users user <;>
    refine ⟨_, rfl, fun item bound hb => ?_⟩ <;>
    simp [CypherFragment.Accepts, visible_some, visible_none, Item.col, Scope.name, or_assoc, hb]

theorem entry_mustOf_values (kvs : List (String × PayloadValue)) :
    (FilterDict.mustOf (kvs.map fun kv => .clause kv.1 kv.2)).Entry :=
  .must fun e he => by
    obtain ⟨kv, -, rfl⟩ := List.mem_map.mp he
    exact .clause (.value _ _)

theorem entry_shouldOf_values (kvs : List (String × PayloadValue)) {b : FilterDict}
    (hb : b.Clause) :
    (FilterDict.shouldOf [.mustOf (kvs.map fun kv => .clause kv.1 kv.2), b]).Entry := by
  refine .should (by simp) fun b' hb' => ?_
  rcases List.mem_pair.mp hb' with rfl | rfl
  · refine .must fun c hc => ?_
    obtain ⟨kv, -, rfl⟩ := List.mem_map.mp hc
    exact .value _ _
  · exact .clause hb

theorem visibleQdrantFilter_entry (user : UserContext) (h : validateScopeFilter scopeFilter = .ok sf) :
    ∃ d, visibleQdrantFilter users user scopeFilter = .ok d ∧ d.Entry ∧ d.key = none := by
  rw [visibleQdrantFilter, h]
  rcases sf with _ | _ | _ | _ <;> cases effectiveAllowsShared users user
  case none.false => exact ⟨_, rfl, entry_shouldOf_values [(_, _), (_, _)] (.value _ _), rfl⟩
  case none.true => exact ⟨_, rfl, entry_shouldOf_values [(_, _), (_, _)] (.any _ _), rfl⟩
  case some.personal.false | some.personal.true =>
    exact ⟨_, rfl, entry_mustOf_values [(_, _), (_, _)], rfl⟩
  all_goals exact ⟨_, rfl, entry_mustOf_values [(_, _)], rfl⟩

theorem visibleQdrantFilter_means {d : FilterDict} (h : validateScopeFilter scopeFilter = .ok sf)
    (hd : visibleQdrantFilter users user scopeFilter = .ok d) (item : Item) :
    d.means item.payload = true ↔
      Visible (effectiveAllowsShared users user) user.userId sf item ∨
      NoSharedAccess (effectiveAllowsShared users user) sf item := by
  rw [visibleQdrantFilter, h] at hd
  rcases sf with _ | _ | _ | _ <;> cases hs : effectiveAllowsShared users user <;>
    simp only [hs] at hd <;> cases hd <;>
    simp [visible_some, visible_none, NoSharedAccess, Scope.name, or_assoc]

/-! ## Narrowing -/

/-- `d` under parent `must` lists, the innermost first: each one has entries before it and entries
after it. -/
def narrowed (d : FilterDict) : List (List FilterDict × List FilterDict) → FilterDict
  | [] => d
  | (before, after) :: outer => narrowed (.mustOf (before ++ d :: after)) outer

/-- `_merge_file_path_filter`. -/
def mergeFilePathFilter (baseFilter : FilterDict) (filePath : String) : FilterDict :=
  .mustOf [baseFilter, .clause "file_path" (.str filePath)]

theorem narrowed_entry {d : FilterDict} {levels : List (List FilterDict × List FilterDict)}
    (hd : d.Entry) (h : ∀ l ∈ levels, ∀ e ∈ l.1 ++ l.2, e.Entry) : (narrowed d levels).Entry := by
  induction levels generalizing d with
  | nil => exact hd
  | cons l outer ih =>
    refine ih (.must fun e he => ?_) fun l' hl' => h l' (List.mem_cons_of_mem _ hl')
    have hl := h l List.mem_cons_self
    simp only [List.mem_append, List.mem_cons] at he hl
    rcases he with he | rfl | he
    · exact hl e (.inl he)
    · exact hd
    · exact hl e (.inr he)

theorem narrowed_key {d : FilterDict} {levels : List (List FilterDict × List FilterDict)}
    (hd : d.key = none) : (narrowed d levels).key = none := by
  induction levels generalizing d with
  | nil => exact hd
  | cons l outer ih => exact ih rfl

theorem narrowed_means {d : FilterDict} {levels : List (List FilterDict × List FilterDict)}
    {payload : Payload} :
    (narrowed d levels).means payload = true ↔
      d.means payload = true ∧ ∀ l ∈ levels, ∀ e ∈ l.1 ++ l.2, e.means payload = true := by
  induction levels generalizing d with
  | nil => simp [narrowed]
  | cons l outer ih =>
    rw [narrowed, ih, FilterDict.means_mustOf]
    simp only [List.mem_append, List.mem_cons, forall_eq_or_imp]
    constructor
    · rintro ⟨hl, ho⟩
      exact ⟨hl d (.inr (.inl rfl)), fun e he => hl e (he.imp_right .inr), ho⟩
    · rintro ⟨hd, hl, ho⟩
      refine ⟨fun e he => ?_, ho⟩
      rcases he with he | rfl | he
      · exact hl e (.inl he)
      · exact hd
      · exact hl e (.inr he)

/-- An invalid scope filter is refused by all three. For a valid one the SQL clause and the Cypher
fragment accept the visible items, and the compiled Qdrant filter those and, asked for `shared`
without shared access, the items of the reserved owner. Under parent `must` lists, at any depth,
the compiled filter accepts the intersection. -/
theorem visibility_filters_agree (users : List UserRow) (user : UserContext)
    (scopeFilter : Option String) (node : String) :
    match validateScopeFilter scopeFilter with
    | .error e =>
      visibleFilter users user scopeFilter = .error e ∧
      visibleCypherFragment users user node scopeFilter = .error e ∧
      visibleQdrantFilter users user scopeFilter = .error e
    | .ok sf => ∃ sql cypher qdrant compiled,
      visibleFilter users user scopeFilter = .ok sql ∧
      visibleCypherFragment users user node scopeFilter = .ok cypher ∧
      visibleQdrantFilter users user scopeFilter = .ok qdrant ∧
      buildFilter qdrant = .ok compiled ∧
      (∀ item,
        (sql.Accepts item ↔
          Visible (effectiveAllowsShared users user) user.userId sf item) ∧
        (∀ bound, bound node = some item → (cypher.Accepts bound ↔
          Visible (effectiveAllowsShared users user) user.userId sf item)) ∧
        (compiled.accepts item.payload = true ↔
          Visible (effectiveAllowsShared users user) user.userId sf item ∨
          NoSharedAccess (effectiveAllowsShared users user) sf item)) ∧
      ∀ levels : List (List FilterDict × List FilterDict),
        (∀ l ∈ levels, ∀ e ∈ l.1 ++ l.2, e.Entry) →
        ∃ c, buildFilter (narrowed qdrant levels) = .ok c ∧ ∀ item : Item,
          c.accepts item.payload = true ↔ compiled.accepts item.payload = true ∧
            ∀ l ∈ levels, ∀ e ∈ l.1 ++ l.2, e.means item.payload = true := by
  cases h : validateScopeFilter scopeFilter with
  | error e =>
    have hs : visibleFilter users user scopeFilter = .error e := by rw [visibleFilter, h]; rfl
    have hc : visibleCypherFragment users user node scopeFilter = .error e := by
      rw [visibleCypherFragment, h]; rfl
    have hq : visibleQdrantFilter users user scopeFilter = .error e := by
      rw [visibleQdrantFilter, h]; rfl
    exact ⟨hs, hc, hq⟩
  | ok sf =>
    obtain ⟨sql, hsql, sql_iff⟩ := visibleFilter_accepts user h
    obtain ⟨cypher, hcypher, cypher_iff⟩ := visibleCypherFragment_accepts user h
    obtain ⟨qdrant, hqdrant, hentry, hkey⟩ := visibleQdrantFilter_entry user h
    obtain ⟨compiled, hcompiled, compiled_eq⟩ := buildFilter_compiles hentry hkey
    refine ⟨sql, cypher, qdrant, compiled, hsql, hcypher, hqdrant, hcompiled, fun item => ?_,
      fun levels hl => ?_⟩
    · refine ⟨sql_iff item, cypher_iff item, ?_⟩
      rw [compiled_eq]
      exact visibleQdrantFilter_means h hqdrant item
    · obtain ⟨c, hc, c_eq⟩ :=
        buildFilter_compiles (narrowed_entry hentry hl) (narrowed_key hkey)
      exact ⟨c, hc, fun item => by rw [c_eq, compiled_eq, narrowed_means]⟩

/-- The three encodings accept `item` if and only if `accepted`. -/
def AllAccept (users : List UserRow) (user : UserContext) (scopeFilter : Option String)
    (node : String) (item : Item) (accepted : Prop) : Prop :=
  ∀ sql cypher qdrant compiled, visibleFilter users user scopeFilter = .ok sql →
    visibleCypherFragment users user node scopeFilter = .ok cypher →
    visibleQdrantFilter users user scopeFilter = .ok qdrant → buildFilter qdrant = .ok compiled →
    (sql.Accepts item ↔ accepted) ∧ (cypher.Accepts (fun _ => some item) ↔ accepted) ∧
      (compiled.accepts item.payload = true ↔ accepted)

def memberWithoutShared : UserContext := ⟨"alice", true, .user, some false⟩

def sharedItem : Item := ⟨some "bob", some "shared", fun _ => []⟩

def reservedOwnerItem : Item := ⟨some "__no_shared_access__", some "personal", fun _ => []⟩

/-- A member without shared access does not see the shared item of another, whichever scopes of
her own items are permitted; and on the reserved owner's item the encodings differ. -/
theorem withoutShared_narrower :
    (∀ permitted, ¬ AllAccept [] memberWithoutShared none "n" sharedItem
      (sharedItem.userId = some "alice" ∧ permitted ∨
        sharedItem.scope = some "shared" ∨ sharedItem.scope = some "system")) ∧
    ∀ accepted, ¬ AllAccept [] memberWithoutShared (some "shared") "n" reservedOwnerItem
      accepted := by
  constructor
  · intro permitted h
    obtain ⟨hsql, -, -⟩ := h _ _ _ _ rfl rfl rfl rfl
    have rejected : ¬ SqlFilter.Accepts ⟨.or (.and (.eqLit .scope "personal") (.eqParam .userId 0))
      (.eqLit .scope "system"), ["alice"]⟩ sharedItem := by decide
    exact rejected (hsql.mpr (.inr (.inl rfl)))
  · intro accepted h
    obtain ⟨hsql, -, hqdrant⟩ := h _ _ _ _ rfl rfl rfl rfl
    have rejected : ¬ SqlFilter.Accepts ⟨.false, []⟩ reservedOwnerItem := by decide
    exact rejected (hsql.mpr (hqdrant.mp (by decide)))

end Lumogis
