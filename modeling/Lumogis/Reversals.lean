import Lumogis.Actions
import Mathlib.Logic.Function.Basic

/-!
# Reversals

Attempts to reverse one action, interleaved: the lookup, the reverse action and the mark are three steps
with nothing around them. The action is undone at most once in every run in which no attempt finds the
row unreversed while another one is between its lookup and its mark, and every mark lands
(`undone_at_most_once`). Two attempts that look first undo it twice (`overlap_undoes_twice`).
-/

namespace Lumogis.Actions

open Labelled

variable {J W : Type}

/-- How far an attempt is: it has found what to call, or the reverse action has succeeded. -/
inductive AttemptPhase (J : Type) where
  | idle
  | found (name : String) (input : ActionInput J) (userId : String)
  | succeeded
  | finished

/-- Between the lookup and the mark. -/
def AttemptPhase.InFlight : AttemptPhase J → Prop
  | .found _ _ _ => True
  | .succeeded => True
  | _ => False

structure ReverseState (J W : Type) extends ActionState J W where
  attempts : Nat → AttemptPhase J
  /-- How often the handler of the reverse action has completed successfully. No function reads it. -/
  completions : Nat

inductive ReverseLabel where
  | lookup (i : Nat) (userId : String) (fetched : Except String Nat)
  | execute (i : Nat) (lands : Bool)
  | mark (i : Nat) (lands : Bool)

/-- The handler ran and completed successfully. -/
def Executed.completes : Executed → Bool
  | .refused => false
  | .ran outcome => outcome.toResult.success

def ReverseState.setPhase (s : ReverseState J W) (i : Nat) (phase : AttemptPhase J) : ReverseState J W :=
  { s with attempts := Function.update s.attempts i phase }

@[simp] theorem setPhase_attempts (s : ReverseState J W) (i : Nat) (phase : AttemptPhase J) :
    (s.setPhase i phase).attempts = Function.update s.attempts i phase := rfl

section
variable (env : ActionEnv J W) (token : String)

/-- One step of `attempt_reverse(token)`. -/
def reverseStep : ReverseLabel → ReverseState J W → Option (ReverseState J W)
  | .lookup i userId fetched, s =>
    match s.attempts i with
    | .idle =>
      match lookupReverse env fetched token userId s.auditLog with
      | .error _ => some (s.setPhase i .finished)
      | .ok (name, input) => some (s.setPhase i (.found name input userId))
    | _ => none
  | .execute i lands, s =>
    match s.attempts i with
    | .found name input userId =>
      let (result, executed, t) := execute env lands name input userId s.toActionState
      let s := { s with
        toActionState := t
        completions := if executed.completes then s.completions + 1 else s.completions }
      match result with
      | .ok r => some (s.setPhase i (if r.success then .succeeded else .finished))
      | .error _ => some (s.setPhase i .finished)
    | _ => none
  | .mark i lands, s =>
    match s.attempts i with
    | .succeeded => some ({ s with toActionState := markReversed env lands token s.toActionState }.setPhase i .finished)
    | _ => none

/-- No attempt finds the row while another is between its lookup and its mark, and each mark lands. -/
def Undisturbed : ReverseLabel → ReverseState J W → Prop
  | .lookup _ userId fetched, s =>
    (∃ call, lookupReverse env fetched token userId s.auditLog = .ok call) → ∀ j, ¬ (s.attempts j).InFlight
  | .execute _ _, _ => True
  | .mark _ lands, _ => lands = true

end

/-- Before any attempt. -/
def ReverseState.start (w : W) (log : List (AuditRow J)) : ReverseState J W where
  world := w
  auditLog := log
  attempts := fun _ => .idle
  completions := 0

/-! ## One step -/

theorem execute_succeeds (env : ActionEnv J W) (lands : Bool) (name : String) (input : ActionInput J)
    (userId : String) (s : ActionState J W) :
    (execute env lands name input userId s).2.1.completes =
      match (execute env lands name input userId s).1 with
      | .ok r => r.success
      | .error _ => false := by
  have hassign : ∀ (spec : ActionSpec J W) (result : ActionResult) (w : W),
      (assignToken env spec result w).1.success = result.success := by
    intro spec result w
    simp only [assignToken]
    split <;> rfl
  simp only [execute]
  split
  · rfl
  · split
    · rfl
    · rfl
    · exact (hassign _ _ _).symm

theorem lookupReverse_marked {env : ActionEnv J W} {token : String} {log : List (AuditRow J)}
    (h : ∀ row ∈ log, row.reverseToken = some token → row.reversedAt.isSome = true) (fetched : Except String Nat)
    (userId : String) : ¬ ∃ call, lookupReverse env fetched token userId log = .ok call := by
  rintro ⟨call, hcall⟩
  simp only [lookupReverse] at hcall
  split at hcall
  · cases hcall
  · split at hcall
    · cases hcall
    · rename_i row hrow
      obtain ⟨hmem, hmatch⟩ := List.mem_filter.mp (List.mem_of_getElem? hrow)
      simp only [Bool.and_eq_true, decide_eq_true_eq] at hmatch
      rw [if_pos (h row hmem hmatch.1)] at hcall
      cases hcall

theorem markReversed_marks (env : ActionEnv J W) (token : String) (s : ActionState J W) :
    ∀ row ∈ (markReversed env true token s).auditLog, row.reverseToken = some token → row.reversedAt.isSome = true := by
  intro row hrow htoken
  simp only [markReversed, if_true] at hrow
  obtain ⟨old, -, rfl⟩ := List.mem_map.mp hrow
  split at htoken
  · rename_i hold
    rw [if_pos hold]
    rfl
  · rename_i hold
    exact absurd htoken hold

theorem lookup_cases {env : ActionEnv J W} {token userId : String} {fetched : Except String Nat} {i : Nat}
    {s t : ReverseState J W} (h : reverseStep env token (.lookup i userId fetched) s = some t) :
    s.attempts i = .idle ∧
      ((∃ name input, lookupReverse env fetched token userId s.auditLog = .ok (name, input) ∧
          t = s.setPhase i (.found name input userId)) ∨
        t = s.setPhase i .finished) := by
  simp only [reverseStep] at h
  split at h
  · rename_i hidle
    refine ⟨hidle, ?_⟩
    split at h
    · exact .inr (Option.some.inj h).symm
    · rename_i name input hlookup
      exact .inl ⟨name, input, hlookup, (Option.some.inj h).symm⟩
  · cases h

theorem execute_cases {env : ActionEnv J W} {token : String} {i : Nat} {lands : Bool} {s t : ReverseState J W}
    (h : reverseStep env token (.execute i lands) s = some t) :
    (∃ name input userId, s.attempts i = .found name input userId) ∧
      ((t.completions = s.completions + 1 ∧ t.attempts = Function.update s.attempts i .succeeded) ∨
        (t.completions = s.completions ∧ t.attempts = Function.update s.attempts i .finished)) := by
  simp only [reverseStep] at h
  split at h
  · rename_i name input userId hfound
    refine ⟨⟨name, input, userId, hfound⟩, ?_⟩
    have hsucceeds := execute_succeeds env lands name input userId s.toActionState
    split at h
    · rename_i r hr
      obtain rfl := Option.some.inj h
      rw [hr] at hsucceeds
      cases hr' : r.success with
      | true => simp [ReverseState.setPhase, hsucceeds, hr']
      | false => simp [ReverseState.setPhase, hsucceeds, hr']
    · rename_i e he
      obtain rfl := Option.some.inj h
      rw [he] at hsucceeds
      simp [ReverseState.setPhase, hsucceeds]
  · cases h

theorem mark_cases {env : ActionEnv J W} {token : String} {i : Nat} {lands : Bool} {s t : ReverseState J W}
    (h : reverseStep env token (.mark i lands) s = some t) :
    s.attempts i = .succeeded ∧ t.completions = s.completions ∧
      t.attempts = Function.update s.attempts i .finished ∧
      t.auditLog = (markReversed env lands token s.toActionState).auditLog := by
  simp only [reverseStep] at h
  split at h
  · rename_i hsucceeded
    obtain rfl := Option.some.inj h
    exact ⟨hsucceeded, rfl, rfl, rfl⟩
  · cases h

/-! ## The three stages of a run -/

/-- Nothing is undone; or it is, and the attempt that did it is about to mark; or every row is marked. -/
inductive Stage (token : String) (s : ReverseState J W) : Prop where
  | before (count : s.completions = 0) (none : ∀ j, s.attempts j ≠ .succeeded)
      (one : ∀ j k, (s.attempts j).InFlight → (s.attempts k).InFlight → j = k)
  | undone (i : Nat) (count : s.completions = 1) (at_i : s.attempts i = .succeeded)
      (others : ∀ j, j ≠ i → ¬ (s.attempts j).InFlight)
  | marked (count : s.completions = 1) (quiet : ∀ j, ¬ (s.attempts j).InFlight)
      (rows : ∀ row ∈ s.auditLog, row.reverseToken = some token → row.reversedAt.isSome = true)

theorem not_inFlight_update {attempts : Nat → AttemptPhase J} {i j : Nat} (h : j ≠ i → ¬ (attempts j).InFlight) :
    ¬ (Function.update attempts i .finished j).InFlight := by
  by_cases hj : j = i
  · subst hj
    rw [Function.update_self]
    exact id
  · rw [Function.update_of_ne hj]
    exact h hj

theorem stage_lookup {env : ActionEnv J W} {token userId : String} {fetched : Except String Nat} {i : Nat}
    {s t : ReverseState J W} (h : Stage token s) (ha : Undisturbed env token (.lookup i userId fetched) s)
    (hs : reverseStep env token (.lookup i userId fetched) s = some t) : Stage token t := by
  obtain ⟨hidle, hcases⟩ := lookup_cases hs
  have hout : ¬ (s.attempts i).InFlight := by
    rw [hidle]
    exact id
  rcases hcases with ⟨name, input, hlookup, rfl⟩ | rfl
  · have hquiet := ha ⟨_, hlookup⟩
    cases h with
    | before count none one =>
      refine .before count ?_ ?_
      · intro j
        by_cases hj : j = i
        · subst hj
          simp
        · simpa [Function.update_of_ne hj] using none j
      · have honly : ∀ j, ((s.setPhase i (.found name input userId)).attempts j).InFlight → j = i := by
          intro j hj
          by_contra hne
          rw [setPhase_attempts, Function.update_of_ne hne] at hj
          exact hquiet j hj
        intro j k hj hk
        rw [honly j hj, honly k hk]
    | undone k count at_k others =>
      refine absurd ?_ (hquiet k)
      rw [at_k]
      trivial
    | marked count quiet rows => exact absurd ⟨_, hlookup⟩ (lookupReverse_marked rows fetched userId)
  · cases h with
    | before count none one =>
      have hback : ∀ j, ((s.setPhase i .finished).attempts j).InFlight → (s.attempts j).InFlight := by
        intro j hj
        by_contra hnot
        exact not_inFlight_update (fun _ => hnot) hj
      refine .before count ?_ fun j k hj hk => one j k (hback j hj) (hback k hk)
      intro j
      by_cases hj : j = i
      · subst hj
        simp
      · simpa [Function.update_of_ne hj] using none j
    | undone k count at_k others =>
      have hne : k ≠ i := by
        rintro rfl
        rw [at_k] at hidle
        cases hidle
      refine .undone k count ?_ fun j hj => not_inFlight_update fun _ => others j hj
      rw [setPhase_attempts, Function.update_of_ne hne]
      exact at_k
    | marked count quiet rows => exact .marked count (fun j => not_inFlight_update fun _ => quiet j) rows

theorem stage_execute {env : ActionEnv J W} {token : String} {i : Nat} {lands : Bool} {s t : ReverseState J W}
    (h : Stage token s) (hs : reverseStep env token (.execute i lands) s = some t) : Stage token t := by
  obtain ⟨⟨name, input, userId, hfound⟩, hcases⟩ := execute_cases hs
  have hflight : (s.attempts i).InFlight := by
    rw [hfound]
    trivial
  cases h with
  | before count none one =>
    have hothers : ∀ j, j ≠ i → ¬ (s.attempts j).InFlight := fun j hj hin => hj (one j i hin hflight)
    rcases hcases with ⟨hcount, hattempts⟩ | ⟨hcount, hattempts⟩
    · refine .undone i (by rw [hcount, count]) ?_ ?_
      · rw [hattempts, Function.update_self]
      · intro j hj
        rw [hattempts, Function.update_of_ne hj]
        exact hothers j hj
    · have hquiet : ∀ j, ¬ (t.attempts j).InFlight := by
        intro j
        rw [hattempts]
        exact not_inFlight_update (hothers j)
      refine .before (by rw [hcount, count]) ?_ fun j k hj => absurd hj (hquiet j)
      intro j hj
      refine hquiet j ?_
      rw [hj]
      trivial
  | undone k count at_k others =>
    have hne : i ≠ k := by
      rintro rfl
      rw [at_k] at hfound
      cases hfound
    exact absurd hflight (others i hne)
  | marked count quiet rows => exact absurd hflight (quiet i)

theorem stage_mark {env : ActionEnv J W} {token : String} {i : Nat} {s t : ReverseState J W}
    (h : Stage token s) (hs : reverseStep env token (.mark i true) s = some t) : Stage token t := by
  obtain ⟨hsucceeded, hcount, hattempts, hlog⟩ := mark_cases hs
  cases h with
  | before count none one => exact absurd hsucceeded (none i)
  | undone k count at_k others =>
    have hk : i = k := by
      by_contra hne
      refine others i hne ?_
      rw [hsucceeded]
      trivial
    subst hk
    refine .marked (by rw [hcount, count]) ?_ ?_
    · intro j
      rw [hattempts]
      exact not_inFlight_update (others j)
    · rw [hlog]
      exact markReversed_marks env token s.toActionState
  | marked count quiet rows =>
    refine absurd ?_ (quiet i)
    rw [hsucceeded]
    trivial

/-! ## Runs -/

theorem stage_step {env : ActionEnv J W} {token : String} (l : ReverseLabel) (s t : ReverseState J W)
    (h : Stage token s) (ha : Undisturbed env token l s) (hs : reverseStep env token l s = some t) :
    Stage token t := by
  cases l with
  | lookup i userId fetched => exact stage_lookup h ha hs
  | execute i lands => exact stage_execute h hs
  | mark i lands =>
    obtain rfl : lands = true := ha
    exact stage_mark h hs

theorem stage_start (token : String) (w : W) (log : List (AuditRow J)) :
    Stage token (ReverseState.start w log) :=
  .before rfl (fun _ h => by cases h) fun _ _ h => absurd h id

/-- In every undisturbed run the reverse action completes at most once. -/
theorem undone_at_most_once (env : ActionEnv J W) (token : String) (w : W) (log : List (AuditRow J))
    (s : ReverseState J W)
    (h : Reaches (reverseStep env token) (Undisturbed env token) (ReverseState.start w log) s) :
    s.completions ≤ 1 := by
  have hstage := h.invariant (stage_start token w log) stage_step
  cases hstage with
  | before count => omega
  | undone _ count => omega
  | marked count => omega

/-! ### One note, reversed twice -/

/-- The log after one note was written. -/
def noteStart : ReverseState String Nat :=
  .start 1 (stateAfter noteEnv 0 [.execute "write_note" [("path", "a.md")] "alice" true]).auditLog

def oneReversal : List ReverseLabel := [.lookup 0 "alice" (.ok 0), .execute 0 true, .mark 0 true]

def overlappingReversals : List ReverseLabel :=
  [.lookup 0 "alice" (.ok 0), .lookup 1 "alice" (.ok 0), .execute 0 true, .execute 1 true]

theorem undone_at_most_once_note :
    (runTo (reverseStep noteEnv "token-1") oneReversal noteStart).completions ≤ 1 := by
  refine undone_at_most_once noteEnv "token-1" 1 _ _ (reaches_runTo (by decide) ?_)
  refine ⟨fun _ j => id, fun s₁ h₁ => ⟨trivial, fun s₂ h₂ => ⟨rfl, fun s₃ h₃ => trivial⟩⟩⟩

/-- The second attempt looks before the first one marks, and the note is deleted twice. -/
theorem overlap_undoes_twice : ¬ ∀ (env : ActionEnv String Nat) (token : String) (w : Nat)
    (log : List (AuditRow String)) (s : ReverseState String Nat),
    Reaches (reverseStep env token) (fun _ _ => True) (.start w log) s → s.completions ≤ 1 := by
  intro h
  have hreach : Reaches (reverseStep noteEnv "token-1") (fun _ _ => True) noteStart
      (runTo (reverseStep noteEnv "token-1") overlappingReversals noteStart) :=
    reaches_runTo (by decide) ⟨trivial, fun _ _ => ⟨trivial, fun _ _ => ⟨trivial, fun _ _ => ⟨trivial, fun _ _ => trivial⟩⟩⟩⟩
  exact absurd (h _ _ _ _ _ hreach) (by decide)

end Lumogis.Actions
