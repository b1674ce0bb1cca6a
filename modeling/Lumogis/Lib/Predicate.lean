import Mathlib.Init

/-!
# Lib.Predicate

Boolean predicates over the columns of a record, as query languages write them after `WHERE`, in
three-valued logic: a comparison with an absent value is unknown, and a record is accepted when the
predicate is true, not when it is unknown. `Pred.Accepts` has one simp lemma for each constructor,
so that acceptance reads as a two-valued statement about the columns.
-/

namespace Predicate

/-- A predicate over columns `C`, with parameters `P` to be bound to values of `V`. -/
inductive Pred (C P V : Type) where
  | false
  | eqLit (c : C) (v : V)
  | eqParam (c : C) (p : P)
  | inLits (c : C) (vs : List V)
  | and (p q : Pred C P V)
  | or (p q : Pred C P V)

def and3 : Option Bool → Option Bool → Option Bool
  | some false, _ => some false
  | _, some false => some false
  | some true, b => b
  | none, _ => none

def or3 : Option Bool → Option Bool → Option Bool
  | some true, _ => some true
  | _, some true => some true
  | some false, b => b
  | none, _ => none

theorem and3_eq_true {a b : Option Bool} :
    and3 a b = some true ↔ a = some true ∧ b = some true := by
  rcases a with _ | _ | _ <;> rcases b with _ | _ | _ <;> simp [and3]

theorem or3_eq_true {a b : Option Bool} :
    or3 a b = some true ↔ a = some true ∨ b = some true := by
  rcases a with _ | _ | _ <;> rcases b with _ | _ | _ <;> simp [or3]

variable {C P V : Type} [DecidableEq V]

/-- Equality, unknown when a side is absent. -/
def eq3 (a b : Option V) : Option Bool :=
  a.bind fun x => b.map fun y => x = y

theorem eq3_eq_true {a b : Option V} : eq3 a b = some true ↔ ∃ v, a = some v ∧ b = some v := by
  cases a <;> cases b <;> simp [eq3, eq_comm]

namespace Pred

def eval (col : C → Option V) (par : P → Option V) : Pred C P V → Option Bool
  | .false => some Bool.false
  | .eqLit c v => eq3 (col c) (some v)
  | .eqParam c p => eq3 (col c) (par p)
  | .inLits c vs => (col c).map fun v => v ∈ vs
  | .and p q => and3 (p.eval col par) (q.eval col par)
  | .or p q => or3 (p.eval col par) (q.eval col par)

def Accepts (col : C → Option V) (par : P → Option V) (p : Pred C P V) : Prop :=
  p.eval col par = some true

variable {col : C → Option V} {par : P → Option V}

instance (p : Pred C P V) : Decidable (p.Accepts col par) :=
  inferInstanceAs (Decidable (p.eval col par = some true))

@[simp] theorem accepts_false : ¬ (Pred.false : Pred C P V).Accepts col par := by
  simp [Accepts, eval]

@[simp] theorem accepts_eqLit {c : C} {v : V} :
    (eqLit c v : Pred C P V).Accepts col par ↔ col c = some v := by
  simp [Accepts, eval, eq3_eq_true]

@[simp] theorem accepts_eqParam {c : C} {p : P} :
    (eqParam c p : Pred C P V).Accepts col par ↔ ∃ v, col c = some v ∧ par p = some v := by
  simp [Accepts, eval, eq3_eq_true]

@[simp] theorem accepts_inLits {c : C} {vs : List V} :
    (inLits c vs : Pred C P V).Accepts col par ↔ ∃ v ∈ vs, col c = some v := by
  simp [Accepts, eval, and_comm]

@[simp] theorem accepts_and {p q : Pred C P V} :
    (and p q).Accepts col par ↔ p.Accepts col par ∧ q.Accepts col par :=
  and3_eq_true

@[simp] theorem accepts_or {p q : Pred C P V} :
    (or p q).Accepts col par ↔ p.Accepts col par ∨ q.Accepts col par :=
  or3_eq_true

/-- The parameters, from left to right. -/
def params : Pred C P V → List P
  | .false | .eqLit _ _ | .inLits _ _ => []
  | .eqParam _ p => [p]
  | .and p q | .or p q => p.params ++ q.params

end Pred

/-- How a query language writes a predicate. -/
structure Dialect (C P V : Type) where
  col : C → String
  par : P → String
  lit : V → String
  inList : List V → String

def Pred.text (d : Dialect C P V) : Pred C P V → String
  | .false => "FALSE"
  | .eqLit c v => d.col c ++ " = " ++ d.lit v
  | .eqParam c p => d.col c ++ " = " ++ d.par p
  | .inLits c vs => d.col c ++ " IN " ++ d.inList vs
  | .and p q => "(" ++ p.text d ++ " AND " ++ q.text d ++ ")"
  | .or p q => "(" ++ p.text d ++ " OR " ++ q.text d ++ ")"

end Predicate
