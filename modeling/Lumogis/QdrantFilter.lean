import Mathlib.Init

/-!
# QdrantFilter

The portable filter dictionaries of the vector store port, the filters of Qdrant, and the compiler
between them, `_build_filter` of `qdrant_store.py`. On the dictionaries that its docstring supports
the compiled filter accepts what the dictionary means (`mustEntryToFilter_accepts`,
`buildFilter_accepts`). The compiler gives `should` precedence over a `must` beside it, and drops a
field clause at the top.
-/

namespace Lumogis

inductive PayloadValue where
  | str (s : String)
  | int (n : Int)
  | bool (b : Bool)
  deriving DecidableEq

/-- The values that a point's payload has under a key: none, one, or the elements of an array. -/
abbrev Payload := String → List PayloadValue

/-! ## Portable dictionaries -/

/-- The dictionary under `"match"`, with its keys other than `"value"` and `"any"`. -/
structure MatchDict where
  value : Option PayloadValue
  any : Option (List PayloadValue)
  otherKeys : List String

/-- A filter dictionary: each of the four keys that the compiler looks for, if it is there. -/
inductive FilterDict where
  | mk (key : Option String) (matchDict : Option MatchDict) (must should : Option (List FilterDict))

namespace FilterDict

def key : FilterDict → Option String
  | mk k _ _ _ => k

def must : FilterDict → Option (List FilterDict)
  | mk _ _ es _ => es

/-- `{"key": k, "match": {"value": v}}`. -/
def clause (k : String) (v : PayloadValue) : FilterDict :=
  mk (some k) (some ⟨some v, none, []⟩) none none

/-- `{"key": k, "match": {"any": vs}}`. -/
def clauseAny (k : String) (vs : List PayloadValue) : FilterDict :=
  mk (some k) (some ⟨none, some vs, []⟩) none none

/-- `{"must": es}`. -/
def mustOf (es : List FilterDict) : FilterDict := mk none none (some es) none

/-- `{"should": bs}`. -/
def shouldOf (bs : List FilterDict) : FilterDict := mk none none none (some bs)

end FilterDict

/-! ## Qdrant filters -/

inductive FieldMatch where
  | matchValue (v : PayloadValue)
  | matchAny (vs : List PayloadValue)

def FieldMatch.accepts (payload : List PayloadValue) : FieldMatch → Bool
  | .matchValue v => payload.contains v
  | .matchAny vs => vs.any payload.contains

/-- `FieldCondition` and `Filter`. A list that the source leaves out is empty. -/
inductive Condition where
  | field (key : String) (m : FieldMatch)
  | filter (must should : List Condition)

mutual

/-- Every `must` condition holds, and some `should` condition if there are any. -/
def Condition.accepts (payload : Payload) : Condition → Bool
  | .field k m => m.accepts (payload k)
  | .filter must should =>
    acceptsAll payload must && (should.isEmpty || acceptsAny payload should)

def acceptsAll (payload : Payload) : List Condition → Bool
  | [] => true
  | c :: cs => c.accepts payload && acceptsAll payload cs

def acceptsAny (payload : Payload) : List Condition → Bool
  | [] => false
  | c :: cs => c.accepts payload || acceptsAny payload cs

end

theorem acceptsAll_iff {payload : Payload} {cs : List Condition} :
    acceptsAll payload cs = true ↔ ∀ c ∈ cs, c.accepts payload = true := by
  induction cs with
  | nil => simp [acceptsAll]
  | cons c cs ih => simp [acceptsAll, ih]

theorem acceptsAny_iff {payload : Payload} {cs : List Condition} :
    acceptsAny payload cs = true ↔ ∃ c ∈ cs, c.accepts payload = true := by
  induction cs with
  | nil => simp [acceptsAny]
  | cons c cs ih => simp [acceptsAny, ih]

/-! ## The compiler -/

inductive FilterErr where
  | keyError (key : String)
  /-- `ValueError`, "Unsupported Qdrant match dict keys" with the keys that were there. -/
  | unsupportedMatch (keys : List String)
  deriving DecidableEq

def fieldConditionFromClause : FilterDict → Except FilterErr Condition
  | .mk none _ _ _ => .error (.keyError "key")
  | .mk (some _) none _ _ => .error (.keyError "match")
  | .mk (some k) (some m) _ _ =>
    match m.value, m.any with
    | some v, _ => .ok (.field k (.matchValue v))
    | none, some vs => .ok (.field k (.matchAny vs))
    | none, none => .error (.unsupportedMatch m.otherKeys)

def shouldBranchToFilter (branch : FilterDict) : Except FilterErr Condition :=
  match branch.must with
  | some clauses => do return .filter (← clauses.mapM fieldConditionFromClause) []
  | none => do return .filter [← fieldConditionFromClause branch] []

mutual

def buildFilter : FilterDict → Except FilterErr Condition
  | .mk _ _ _ (some branches) => do return .filter [] (← branches.mapM shouldBranchToFilter)
  | .mk _ _ (some entries) none => do return .filter (← mustEntriesToFilters entries) []
  | .mk _ _ none none => return .filter [] []

/-- `_must_entry_to_filter` of each entry: a field clause, or a nested filter. -/
def mustEntriesToFilters : List FilterDict → Except FilterErr (List Condition)
  | [] => return []
  | entry :: entries => do
    let condition ←
      if entry.key.isSome then fieldConditionFromClause entry else buildFilter entry
    return condition :: (← mustEntriesToFilters entries)

end

def mustEntryToFilter (entry : FilterDict) : Except FilterErr Condition :=
  if entry.key.isSome then fieldConditionFromClause entry else buildFilter entry

/-! ## What a dictionary means -/

def MatchDict.means (payload : List PayloadValue) (m : MatchDict) : Bool :=
  (m.value.elim true payload.contains) && (m.any.elim true fun vs => vs.any payload.contains)

mutual

/-- The conjunction of the parts that are there: the field clause, all of `must`, some of
`should`. -/
def FilterDict.means (payload : Payload) : FilterDict → Bool
  | .mk k m must should =>
    (match k, m with
      | some k, some m => m.means (payload k)
      | _, _ => true) &&
    (match must with
      | some es => meansAll payload es
      | none => true) &&
    (match should with
      | some bs => meansAny payload bs
      | none => true)

def meansAll (payload : Payload) : List FilterDict → Bool
  | [] => true
  | d :: ds => d.means payload && meansAll payload ds

def meansAny (payload : Payload) : List FilterDict → Bool
  | [] => false
  | d :: ds => d.means payload || meansAny payload ds

end

theorem meansAll_iff {payload : Payload} {ds : List FilterDict} :
    meansAll payload ds = true ↔ ∀ d ∈ ds, d.means payload = true := by
  induction ds with
  | nil => simp [meansAll]
  | cons d ds ih => simp [meansAll, ih]

theorem meansAny_iff {payload : Payload} {ds : List FilterDict} :
    meansAny payload ds = true ↔ ∃ d ∈ ds, d.means payload = true := by
  induction ds with
  | nil => simp [meansAny]
  | cons d ds ih => simp [meansAny, ih]

namespace FilterDict

variable {payload : Payload} {k : String} {v : PayloadValue} {vs : List PayloadValue}
  {es bs : List FilterDict}

@[simp] theorem means_clause : (clause k v).means payload = true ↔ v ∈ payload k := by
  simp [clause, means, MatchDict.means]

@[simp] theorem means_clauseAny :
    (clauseAny k vs).means payload = true ↔ ∃ v ∈ vs, v ∈ payload k := by
  simp [clauseAny, means, MatchDict.means]

@[simp] theorem means_mustOf :
    (mustOf es).means payload = true ↔ ∀ d ∈ es, d.means payload = true := by
  simp [mustOf, means, meansAll_iff]

@[simp] theorem means_shouldOf :
    (shouldOf bs).means payload = true ↔ ∃ d ∈ bs, d.means payload = true := by
  simp [shouldOf, means, meansAny_iff]

end FilterDict

/-! ## Supported shapes -/

inductive FilterDict.Clause : FilterDict → Prop where
  | value (k : String) (v : PayloadValue) : Clause (clause k v)
  | any (k : String) (vs : List PayloadValue) : Clause (clauseAny k vs)

/-- An arm of `should`: a field clause, or a nested `must` of field clauses. -/
inductive FilterDict.Branch : FilterDict → Prop where
  | clause {b : FilterDict} (h : b.Clause) : Branch b
  | must {cs : List FilterDict} (h : ∀ c ∈ cs, c.Clause) : Branch (mustOf cs)

/-- An element of `must`: a field clause, or a nested filter of any depth. -/
inductive FilterDict.Entry : FilterDict → Prop where
  | clause {d : FilterDict} (h : d.Clause) : Entry d
  | must {es : List FilterDict} (h : ∀ e ∈ es, Entry e) : Entry (mustOf es)
  | should {bs : List FilterDict} (hne : bs ≠ []) (h : ∀ b ∈ bs, b.Branch) : Entry (shouldOf bs)

/-- The compiler succeeded with a condition that accepts what the dictionary means. -/
def CompilesTo (result : Except FilterErr Condition) (d : FilterDict) : Prop :=
  ∃ c, result = .ok c ∧ ∀ payload, c.accepts payload = d.means payload

theorem mapM_compiles {f : FilterDict → Except FilterErr Condition} {ds : List FilterDict}
    (h : ∀ d ∈ ds, CompilesTo (f d) d) :
    ∃ cs, ds.mapM f = .ok cs ∧ cs.isEmpty = ds.isEmpty ∧ ∀ payload,
      acceptsAll payload cs = meansAll payload ds ∧
      acceptsAny payload cs = meansAny payload ds := by
  induction ds with
  | nil => exact ⟨[], rfl, rfl, fun _ => ⟨rfl, rfl⟩⟩
  | cons d ds ih =>
    obtain ⟨c, hc, hd⟩ := h d List.mem_cons_self
    obtain ⟨cs, hcs, -, hds⟩ := ih fun d' hd' => h d' (List.mem_cons_of_mem _ hd')
    refine ⟨c :: cs, by simp [List.mapM_cons, hc, hcs]; rfl, rfl, fun payload => ?_⟩
    simp [acceptsAll, acceptsAny, meansAll, meansAny, hd, hds]

theorem fieldConditionFromClause_compiles {d : FilterDict} (h : d.Clause) :
    CompilesTo (fieldConditionFromClause d) d := by
  cases h with
  | value k v =>
    exact ⟨_, rfl, fun payload => by
      simp [Condition.accepts, FieldMatch.accepts, FilterDict.clause, FilterDict.means,
        MatchDict.means]⟩
  | any k vs =>
    exact ⟨_, rfl, fun payload => by
      simp [Condition.accepts, FieldMatch.accepts, FilterDict.clauseAny, FilterDict.means,
        MatchDict.means]⟩

theorem map_ok {ε α β : Type} (f : α → β) (a : α) :
    f <$> (.ok a : Except ε α) = .ok (f a) := rfl

theorem shouldBranchToFilter_compiles {b : FilterDict} (h : b.Branch) :
    CompilesTo (shouldBranchToFilter b) b := by
  cases h with
  | clause h =>
    obtain ⟨c, hc, hb⟩ := fieldConditionFromClause_compiles h
    have hm : b.must = none := by cases h <;> rfl
    refine ⟨.filter [c] [], by simp only [shouldBranchToFilter, hm, hc]; rfl, fun payload => ?_⟩
    simp [Condition.accepts, acceptsAll, hb]
  | @must cs h =>
    obtain ⟨conds, hc, -, hb⟩ := mapM_compiles fun c hc => fieldConditionFromClause_compiles (h c hc)
    refine ⟨.filter conds [], ?_, fun payload => ?_⟩
    · simp [shouldBranchToFilter, FilterDict.mustOf, FilterDict.must, hc, map_ok]
    · simp [Condition.accepts, FilterDict.mustOf, FilterDict.means, (hb payload).1]

theorem mustEntriesToFilters_eq (es : List FilterDict) :
    mustEntriesToFilters es = es.mapM mustEntryToFilter := by
  induction es with
  | nil => simp [mustEntriesToFilters]
  | cons e es ih =>
    rw [mustEntriesToFilters, List.mapM_cons, mustEntryToFilter, ih]
    split <;> simp

theorem buildFilter_mustOf {es : List FilterDict}
    (h : ∀ e ∈ es, CompilesTo (mustEntryToFilter e) e) :
    CompilesTo (buildFilter (.mustOf es)) (.mustOf es) := by
  obtain ⟨cs, hcs, -, hes⟩ := mapM_compiles h
  refine ⟨.filter cs [], ?_, fun payload => ?_⟩
  · simp [FilterDict.mustOf, buildFilter, mustEntriesToFilters_eq, hcs, map_ok]
  · simp [Condition.accepts, FilterDict.mustOf, FilterDict.means, (hes payload).1]

theorem buildFilter_shouldOf {bs : List FilterDict} (hne : bs ≠ []) (h : ∀ b ∈ bs, b.Branch) :
    CompilesTo (buildFilter (.shouldOf bs)) (.shouldOf bs) := by
  obtain ⟨cs, hcs, he, hbs⟩ := mapM_compiles fun b hb => shouldBranchToFilter_compiles (h b hb)
  have hcs' : cs.isEmpty = false := by cases bs <;> simp_all
  refine ⟨.filter [] cs, ?_, fun payload => ?_⟩
  · simp [FilterDict.shouldOf, buildFilter, hcs, map_ok]
  · simp [Condition.accepts, acceptsAll, hcs', FilterDict.shouldOf, FilterDict.means,
      (hbs payload).2]

theorem mustEntryToFilter_compiles {d : FilterDict} (h : d.Entry) :
    CompilesTo (mustEntryToFilter d) d := by
  induction h with
  | @clause d h =>
    have hk : d.key.isSome = true := by cases h <;> rfl
    rw [mustEntryToFilter, if_pos hk]
    exact fieldConditionFromClause_compiles h
  | must h ih => exact buildFilter_mustOf ih
  | should hne h => exact buildFilter_shouldOf hne h

/-- At the top a field clause alone is no filter, so `d` has no key. -/
theorem buildFilter_compiles {d : FilterDict} (h : d.Entry) (hk : d.key = none) :
    CompilesTo (buildFilter d) d := by
  have := mustEntryToFilter_compiles h
  rwa [mustEntryToFilter, hk] at this

-- A `must` beside `should` is dropped.
example : buildFilter (.mk none none (some [.clause "user_id" (.str "alice")])
    (some [.clause "scope" (.str "shared")])) =
    .ok (.filter [] [.filter [.field "scope" (.matchValue (.str "shared"))] []]) := by rfl

end Lumogis
