import Mathlib.Data.List.Infix

/-!
# LogRedaction

`_redact`: the values under sensitive keys of a log event become `<redacted>`, at any depth. A container
under a sensitive key is walked like any other, and forgets the key: what it holds is replaced only under
a sensitive key of its own. The secrets are gone if and only if no sensitive key has a scalar below it
with another container, or another key that is not sensitive, in between (`redact_exact_iff`). What is
under no sensitive key stays in its place, and a second pass changes nothing.
-/

namespace Lumogis

/-- A scalar is what is no dict, list or tuple; of the scalars only texts are told apart. -/
inductive LogScalar (A : Type) where
  | text (s : List Char)
  | other (a : A)

inductive LogValue (K A : Type) where
  | scalar (a : LogScalar A)
  | dict (items : List (K × LogValue K A))
  | list (items : List (LogValue K A))
  | tuple (items : List (LogValue K A))

variable {K A : Type}

/-! ## The code -/

def redactKeywords : List String :=
  ["password", "secret", "token", "api_key", "authorization", "cookie", "jwt", "bearer"]

def redactAllowlist : List String :=
  ["user_id", "mcp_user_id", "mcp_token_id", "request_id", "audit_id"]

def redacted : LogScalar A := .text "<redacted>".toList

/-- `_is_sensitive_key`; `lowered key` is `str(key).lower()`, and nothing where `str` raises. -/
def isSensitiveKey (lowered : K → Option String) (key : K) : Bool :=
  match lowered key with
  | none => false
  | some name =>
    if redactAllowlist.contains name then false
    else redactKeywords.any fun kw => kw.toList <:+: name.toList

/-- `_redact_value`, with the value as the walk leaves it. -/
def redactValue (value walked : LogValue K A) : LogValue K A :=
  match value with
  | .scalar _ => .scalar redacted
  | _ => walked

section
variable (lowered : K → Option String)

mutual

/-- `_redact_walk`. -/
def redactWalk : LogValue K A → LogValue K A
  | .scalar a => .scalar a
  | .dict items => .dict (redactItems items)
  | .list items => .list (redactElements items)
  | .tuple items => .tuple (redactElements items)

def redactItems : List (K × LogValue K A) → List (K × LogValue K A)
  | [] => []
  | (k, v) :: rest =>
    (k, if isSensitiveKey lowered k then redactValue v (redactWalk v) else redactWalk v) :: redactItems rest

def redactElements : List (LogValue K A) → List (LogValue K A)
  | [] => []
  | v :: rest => redactWalk v :: redactElements rest

end

/-- `_redact`. -/
def redact : LogValue K A → LogValue K A
  | .dict items => .dict (redactItems lowered items)
  | v => v

end

/-! ## Places -/

/-- A step from a container into one of its values. -/
inductive LogStep (K : Type) where
  | key (k : K)
  | index (i : Nat)

def LogValue.get? [DecidableEq K] : LogValue K A → LogStep K → Option (LogValue K A)
  | .dict items, .key k => (items.find? fun p => p.1 = k).map Prod.snd
  | .list items, .index i => items[i]?
  | .tuple items, .index i => items[i]?
  | _, _ => none

/-- The value at the end of a path. -/
def LogValue.at? [DecidableEq K] : LogValue K A → List (LogStep K) → Option (LogValue K A)
  | v, [] => some v
  | v, step :: path => (v.get? step).bind fun w => w.at? path

/-- A value without what its containers hold. -/
inductive LogShape (K A : Type) where
  | scalar (a : LogScalar A)
  | dict (keys : List K)
  | list (length : Nat)
  | tuple (length : Nat)

def LogValue.shape : LogValue K A → LogShape K A
  | .scalar a => .scalar a
  | .dict items => .dict (items.map Prod.fst)
  | .list items => .list items.length
  | .tuple items => .tuple items.length

section
variable (lowered : K → Option String)

/-- The step goes through a sensitive key. -/
def LogStep.isSensitive : LogStep K → Bool
  | .key k => isSensitiveKey lowered k
  | .index _ => false

/-- The path goes through a sensitive key. -/
def throughSensitive (path : List (LogStep K)) : Bool := path.any (LogStep.isSensitive lowered)

/-- The last step of the path goes through a sensitive key. -/
def atSensitive (path : List (LogStep K)) : Bool := path.getLast?.any (LogStep.isSensitive lowered)

end

/-! ## The walk -/

section
variable {lowered : K → Option String}

theorem redactItems_eq_map (items : List (K × LogValue K A)) : redactItems lowered items =
    items.map fun p => (p.1, if isSensitiveKey lowered p.1 then redactValue p.2 (redactWalk lowered p.2)
      else redactWalk lowered p.2) := by
  induction items with
  | nil => rfl
  | cons p rest ih => rw [redactItems, ih, List.map_cons]

theorem redactElements_eq_map (items : List (LogValue K A)) :
    redactElements lowered items = items.map (redactWalk lowered) := by
  induction items with
  | nil => rfl
  | cons v rest ih => rw [redactElements, ih, List.map_cons]

/-- What a value becomes behind the step. -/
def redactBehind (lowered : K → Option String) (step : LogStep K) (v : LogValue K A) : LogValue K A :=
  if step.isSensitive lowered then redactValue v (redactWalk lowered v) else redactWalk lowered v

theorem redactBehind_of_insensitive {step : LogStep K} (h : step.isSensitive lowered = false)
    (v : LogValue K A) : redactBehind lowered step v = redactWalk lowered v := by
  simp [redactBehind, h]

theorem redactBehind_container {v : LogValue K A} (h : ∀ a, v ≠ .scalar a) (step : LogStep K) :
    redactBehind lowered step v = redactWalk lowered v := by
  cases v with
  | scalar a => exact absurd rfl (h a)
  | dict items => simp [redactBehind, redactValue]
  | list items => simp [redactBehind, redactValue]
  | tuple items => simp [redactBehind, redactValue]

theorem get?_redactWalk [DecidableEq K] (v : LogValue K A) (step : LogStep K) :
    (redactWalk lowered v).get? step = (v.get? step).map (redactBehind lowered step) := by
  cases v with
  | scalar a => cases step <;> rfl
  | dict items =>
    cases step with
    | index i => rfl
    | key k =>
      rw [redactWalk, LogValue.get?, LogValue.get?, redactItems_eq_map]
      induction items with
      | nil => rfl
      | cons p rest ih =>
        rw [List.map_cons, List.find?_cons, List.find?_cons]
        by_cases hk : p.1 = k
        · subst hk
          simp only [decide_true, Option.map_some]
          rfl
        · simpa [hk] using ih
  | list items =>
    cases step with
    | key k => rfl
    | index i =>
      rw [redactWalk, LogValue.get?, LogValue.get?, redactElements_eq_map, List.getElem?_map]
      rfl
  | tuple items =>
    cases step with
    | key k => rfl
    | index i =>
      rw [redactWalk, LogValue.get?, LogValue.get?, redactElements_eq_map, List.getElem?_map]
      rfl

theorem at?_scalar [DecidableEq K] (a : LogScalar A) (step : LogStep K) (path : List (LogStep K)) :
    (LogValue.scalar a).at? (step :: path) = none := by
  cases step <;> rfl

/-- What is at the end of a path is replaced if it is a scalar and the last step sensitive, and walked
otherwise: the walk does not know how it came there. -/
theorem at?_redactWalk [DecidableEq K] (path : List (LogStep K)) (step : LogStep K) (v : LogValue K A) :
    (redactWalk lowered v).at? (path ++ [step]) = (v.at? (path ++ [step])).map (redactBehind lowered step) := by
  induction path generalizing v with
  | nil =>
    rw [List.nil_append, LogValue.at?, LogValue.at?, get?_redactWalk]
    cases v.get? step <;> rfl
  | cons first path ih =>
    rw [List.cons_append, LogValue.at?, LogValue.at?, get?_redactWalk]
    cases v.get? first with
    | none => rfl
    | some w =>
      rw [Option.map_some, Option.bind_some, Option.bind_some]
      by_cases hscalar : ∃ a, w = .scalar a
      · obtain ⟨a, rfl⟩ := hscalar
        -- No path leads on from a scalar, whatever it becomes.
        have hnone : ∀ b : LogScalar A, (LogValue.scalar b : LogValue K A).at? (path ++ [step]) = none := by
          intro b
          cases path with
          | nil => exact at?_scalar b step []
          | cons next path => exact at?_scalar b next (path ++ [step])
        have hbehind : ∃ b, redactBehind lowered first (LogValue.scalar a : LogValue K A) = .scalar b := by
          rw [redactBehind]
          split
          · exact ⟨_, rfl⟩
          · exact ⟨a, rfl⟩
        obtain ⟨b, hb⟩ := hbehind
        rw [hb, hnone b, hnone a]
        rfl
      · rw [redactBehind_container (fun a ha => hscalar ⟨a, ha⟩), ih]

theorem shape_redactWalk (v : LogValue K A) : (redactWalk lowered v).shape = v.shape := by
  cases v with
  | scalar a => rfl
  | dict items => simp [redactWalk, LogValue.shape, redactItems_eq_map, Function.comp_def]
  | list items => simp [redactWalk, LogValue.shape, redactElements_eq_map]
  | tuple items => simp [redactWalk, LogValue.shape, redactElements_eq_map]

/-! ### A second pass -/

theorem redactValue_redactValue (v w : LogValue K A) :
    redactValue (redactValue v (redactWalk lowered v)) w = redactValue v w := by
  cases v <;> rfl

mutual

theorem redactWalk_redactWalk (v : LogValue K A) :
    redactWalk lowered (redactWalk lowered v) = redactWalk lowered v := by
  cases v with
  | scalar a => rfl
  | dict items => rw [redactWalk, redactWalk, redactItems_redactItems]
  | list items => rw [redactWalk, redactWalk, redactElements_redactElements]
  | tuple items => rw [redactWalk, redactWalk, redactElements_redactElements]

theorem redactItems_redactItems (items : List (K × LogValue K A)) :
    redactItems lowered (redactItems lowered items) = redactItems lowered items := by
  cases items with
  | nil => rfl
  | cons p rest =>
    obtain ⟨k, v⟩ := p
    have hwalk := redactWalk_redactWalk v
    rw [redactItems, redactItems, redactItems_redactItems rest]
    by_cases hk : isSensitiveKey lowered k = true
    · rw [if_pos hk, if_pos hk, redactValue_redactValue]
      cases v with
      | scalar a => rfl
      | dict items => simp only [redactValue, hwalk]
      | list items => simp only [redactValue, hwalk]
      | tuple items => simp only [redactValue, hwalk]
    · rw [if_neg hk, if_neg hk, hwalk]

theorem redactElements_redactElements (items : List (LogValue K A)) :
    redactElements lowered (redactElements lowered items) = redactElements lowered items := by
  cases items with
  | nil => rfl
  | cons v rest =>
    rw [redactElements, redactElements, redactElements_redactElements rest, redactWalk_redactWalk v]

end

end

/-! ## Complete, minimal and once -/

/-- No secret is left, the rest is in its place, and a second pass changes nothing. -/
structure RedactsExactly [DecidableEq K] (lowered : K → Option String) (event : List (K × LogValue K A)) :
    Prop where
  complete : ∀ path a, (LogValue.dict event).at? path = some (.scalar a) → throughSensitive lowered path →
    (redact lowered (.dict event)).at? path = some (.scalar redacted)
  minimal : ∀ path, throughSensitive lowered path = false →
    ((redact lowered (.dict event)).at? path).map LogValue.shape =
      ((LogValue.dict event).at? path).map LogValue.shape
  once : redact lowered (redact lowered (.dict event)) = redact lowered (.dict event)

/-- Below a sensitive key every scalar is itself under a sensitive key, or replaced already. -/
def NoSecretBelow [DecidableEq K] (lowered : K → Option String) (event : List (K × LogValue K A)) : Prop :=
  ∀ path a, (LogValue.dict event).at? path = some (.scalar a) → throughSensitive lowered path →
    atSensitive lowered path ∨ a = redacted

theorem redact_scalar_at? [DecidableEq K] {lowered : K → Option String} {event : List (K × LogValue K A)}
    {path : List (LogStep K)} {a : LogScalar A} (h : (LogValue.dict event).at? path = some (.scalar a)) :
    (redact lowered (.dict event)).at? path =
      some (.scalar (if atSensitive lowered path then redacted else a)) := by
  rcases List.eq_nil_or_concat path with rfl | ⟨q, step, rfl⟩
  · cases h
  · rw [List.concat_eq_append] at h ⊢
    have hwalk : (redactWalk lowered (.dict event)).at? (q ++ [step]) =
        ((LogValue.dict event).at? (q ++ [step])).map (redactBehind lowered step) := at?_redactWalk q step _
    rw [h, Option.map_some] at hwalk
    refine hwalk.trans ?_
    cases hs : step.isSensitive lowered <;> simp [atSensitive, redactBehind, redactValue, redactWalk, hs]

theorem redact_minimal [DecidableEq K] {lowered : K → Option String} {event : List (K × LogValue K A)}
    {path : List (LogStep K)} (h : throughSensitive lowered path = false) :
    ((redact lowered (.dict event)).at? path).map LogValue.shape =
      ((LogValue.dict event).at? path).map LogValue.shape := by
  rcases List.eq_nil_or_concat path with rfl | ⟨q, step, rfl⟩
  · have hshape : (redactWalk lowered (.dict event)).shape = (LogValue.dict event).shape := shape_redactWalk _
    exact congrArg some hshape
  · rw [List.concat_eq_append] at h ⊢
    have hstep : step.isSensitive lowered = false := by
      simp only [throughSensitive, List.any_append, List.any_cons, List.any_nil, Bool.or_false,
        Bool.or_eq_false_iff] at h
      exact h.2
    have hwalk : (redactWalk lowered (.dict event)).at? (q ++ [step]) =
        ((LogValue.dict event).at? (q ++ [step])).map (redactBehind lowered step) := at?_redactWalk q step _
    have hsame : ∀ v : LogValue K A, (redactBehind lowered step v).shape = v.shape := by
      intro v
      rw [redactBehind_of_insensitive hstep, shape_redactWalk]
    calc ((redact lowered (.dict event)).at? (q ++ [step])).map LogValue.shape
        = (((LogValue.dict event).at? (q ++ [step])).map (redactBehind lowered step)).map LogValue.shape :=
          congrArg _ hwalk
      _ = ((LogValue.dict event).at? (q ++ [step])).map LogValue.shape := by
          rw [Option.map_map]
          exact Option.map_congr fun v _ => hsame v

theorem redact_exact_iff [DecidableEq K] (lowered : K → Option String) (event : List (K × LogValue K A)) :
    RedactsExactly lowered event ↔ NoSecretBelow lowered event := by
  constructor
  · intro h path a ha hthrough
    have hgone := h.complete path a ha hthrough
    rw [redact_scalar_at? ha] at hgone
    cases hat : atSensitive lowered path with
    | true => exact .inl rfl
    | false =>
      rw [hat] at hgone
      exact .inr (by simpa using hgone)
  · intro h
    refine ⟨?_, fun path hpath => redact_minimal hpath, ?_⟩
    · intro path a ha hthrough
      rw [redact_scalar_at? ha]
      rcases h path a ha hthrough with hat | rfl
      · rw [if_pos hat]
      · rw [ite_self]
    · exact congrArg LogValue.dict (redactItems_redactItems event)

/-- `{"password": ["hunter2"]}` is left as it is. -/
theorem redact_keeps_listed_secret :
    ¬ ∀ event : List (String × LogValue String Unit), RedactsExactly some event := by
  intro h
  have hgone := (h [("password", .list [.scalar (.text "hunter2".toList)])]).complete
    [.key "password", .index 0] _ rfl (by decide)
  cases hgone

end Lumogis
