import Mathlib.Data.List.Nodup

/-!
# Lib.CallBinding

How the arguments of a call are bound to the parameters of a function that has no defaults: positional
ones in order, the others by name. More arguments than positional parameters bind to nothing
(`bind_tooMany`), whatever the names are.
-/

namespace CallBinding

structure Signature where
  positional : List String
  keywordOnly : List String

inductive BindError where
  | unexpected (name : String)
  | multiple (name : String)
  | tooMany (takes given : Nat)
  | missing (names : List String)

namespace Signature

variable {V : Type}

def params (sig : Signature) : List String := sig.positional ++ sig.keywordOnly

/-- The parameters and their values, or the error of the call. -/
def bind (sig : Signature) (args : List V) (kwargs : List (String × V)) : Except BindError (List (String × V)) :=
  match kwargs.find? fun kw => decide (kw.1 ∉ sig.params) with
  | some kw => .error (.unexpected kw.1)
  | none =>
    match kwargs.find? fun kw => decide (kw.1 ∈ sig.positional.take args.length) with
    | some kw => .error (.multiple kw.1)
    | none =>
      if sig.positional.length < args.length then .error (.tooMany sig.positional.length args.length)
      else
        let bound := sig.positional.zip args ++ kwargs
        match sig.params.filter fun p => decide (p ∉ bound.map Prod.fst) with
        | [] => .ok bound
        | p :: ps => .error (.missing (p :: ps))

theorem bind_tooMany {sig : Signature} {args : List V} (h : sig.positional.length < args.length)
    (kwargs : List (String × V)) : ∃ e, sig.bind args kwargs = .error e := by
  simp only [bind, if_pos h]
  split
  · exact ⟨_, rfl⟩
  · split
    · exact ⟨_, rfl⟩
    · exact ⟨_, rfl⟩

end Signature

end CallBinding
