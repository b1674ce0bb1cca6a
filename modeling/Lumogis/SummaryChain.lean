import Lumogis.EntityWriteGuard
import Lumogis.Lib.Auxiliary
import Mathlib.Data.List.Infix

/-!
# SummaryChain

Calls of the guard by any number of callers, one database call at a time, beside the log of the
updates that took effect (`watched`). In every interleaving the commits and promotions of an entity
are a chain of versions, and a promotion publishes what the last staging call that names its version
has staged (`summary_updates_chain`). Staging makes no version, so a second staging call at the same
version takes the place of the first, and the promotion that follows publishes the second text
(`staged_text_replaced`).
-/

open Relation

namespace Lumogis

open Prog

/-- An update that took effect. -/
structure SummaryEntry (ι : Type) where
  caller : ι
  call : SummaryCall
  newVersion : Int
  /-- The entity's summary from then on. -/
  summary : String
  deriving DecidableEq

abbrev Watching (ι : Type) := SummaryStore × List (SummaryEntry ι)

section Calls

variable {ι : Type}

def SummaryCall.entry (i : ι) (call : SummaryCall) (newVersion : Int) (t : SummaryStore) :
    SummaryEntry ι :=
  { caller := i, call := call, newVersion := newVersion
    summary := ((t.entities call.entityId).map SummaryRow.summary).getD "" }

/-- The update, and its entry in the log. -/
def watchedStatement (i : ι) (call : SummaryCall) (whereScope : SqlFilter) (x : Watching ι) :
    Option Int × Watching ι :=
  match call.update whereScope x.1 with
  | (none, t) => (none, t, x.2)
  | (some newVersion, t) => (some newVersion, t, x.2 ++ [call.entry i newVersion t])

def watchedUpdate (i : ι) (call : SummaryCall) (scope : Scope) :
    Prog (Watching ι) SummaryErr GuardedWriteResult := do
  match scopeWhere scope call.caller with
  | .error e => .raise e
  | .ok whereScope =>
    let row ← act .lostConnection (watchedStatement i call whereScope)
    return updateResult row

def watched (strip : String → String) (i : ι) (call : SummaryCall) :
    Prog (Watching ι) SummaryErr GuardedWriteResult := do
  match ← (readEntitySummary strip call.entityId call.caller).lift with
  | none => return ⟨false, true, none⟩
  | some snapshot =>
    if snapshot.scope = .system then return ⟨false, false, none⟩
    else watchedUpdate i call snapshot.scope

/-- The log decides nothing. -/
theorem watched_erases (strip : String → String) (i : ι) (call : SummaryCall) :
    Erases (watched strip i call) (guardedWrite strip call) := by
  rw [watched, guardedWrite]
  refine (erases_lift _).bind fun snapshot => ?_
  cases snapshot with
  | none => rfl
  | some snapshot =>
    dsimp only
    by_cases hsys : snapshot.scope = .system
    · rw [if_pos hsys, if_pos hsys]
      rfl
    · rw [if_neg hsys, if_neg hsys, watchedUpdate, guardedUpdate]
      cases scopeWhere snapshot.scope call.caller with
      | error e => rfl
      | ok whereScope =>
        refine (erases_act fun s log => ?_).bind fun row => rfl
        simp only [watchedStatement]
        rcases call.update_cases whereScope s with h | ⟨r, _, _, h⟩ <;> rw [h] <;> exact ⟨rfl, rfl⟩

/-! ## The law -/

/-- Commits and promotions make a version. -/
def SummaryWrite.bumps : SummaryWrite → Bool
  | .commit _ | .promote => true
  | .stage _ => false

def SummaryEntry.makesVersion (e : Nat) (x : SummaryEntry ι) : Bool :=
  decide (x.call.entityId = e) && x.call.write.bumps

/-- The version that the last commit or promotion of entity `e` produced; before any, the version
of the row in `s₀`. -/
def versionAfter (s₀ : SummaryStore) (e : Nat) (log : List (SummaryEntry ι)) : Option Int :=
  log.foldl (fun v x => if x.makesVersion e then some x.newVersion else v)
    ((s₀.entities e).map SummaryRow.version)

/-- The text of a staging call on entity `e` that names version `v`. -/
def SummaryEntry.stagedText (e : Nat) (v : Int) (x : SummaryEntry ι) : Option String :=
  match x.call.write with
  | .stage text => if x.call.entityId = e ∧ x.call.readVersion = v then some text else none
  | .commit _ | .promote => none

/-- The text of the last staging call on `e` that names `v`; before any, the text that the row in
`s₀` has staged at that version. -/
def stagedAfter (s₀ : SummaryStore) (e : Nat) (v : Int) (log : List (SummaryEntry ι)) :
    Option String :=
  log.foldl (fun text x => (x.stagedText e v).or text)
    ((s₀.entities e).bind fun r => if r.version = v then r.stagedSummary else none)

/-- What is asked of an update that took effect after those of `before`. -/
structure Follows (s₀ : SummaryStore) (before : List (SummaryEntry ι)) (x : SummaryEntry ι) :
    Prop where
  expected : x.call.write.bumps = true →
    versionAfter s₀ x.call.entityId before = some x.call.readVersion
  produced : x.call.write.bumps = true → x.newVersion = x.call.readVersion + 1
  published : x.call.write = .promote →
    stagedAfter s₀ x.call.entityId x.call.readVersion before = some x.summary

section Own

variable [DecidableEq ι]

def ownEntries (i : ι) (log : List (SummaryEntry ι)) : List (SummaryEntry ι) :=
  log.filter fun x => decide (x.caller = i)

/-- A call that has returned `ok` is in the log once, with the version that it returned; one that
has not is not in the log. -/
def Recorded (i : ι) (call : SummaryCall) (r : GuardedWriteResult)
    (log : List (SummaryEntry ι)) : Prop :=
  match r.newVersion with
  | none => r.ok = false ∧ ownEntries i log = []
  | some v => r.ok = true ∧ ∃ text, ownEntries i log = [⟨i, call, v, text⟩]

structure SummaryLaw (s₀ : SummaryStore) (calls : ι → SummaryCall) (x : Watching ι)
    (ps : ι → Prog (Watching ι) SummaryErr GuardedWriteResult) : Prop where
  recorded : ∀ i r, ps i = .ret r → Recorded i (calls i) r x.2
  version : ∀ e, (x.1.entities e).map SummaryRow.version = versionAfter s₀ e x.2
  follows : ∀ before y, before ++ [y] <+: x.2 → Follows s₀ before y

end Own

/-! ## What every update keeps -/

structure SummaryInv (s₀ : SummaryStore) (x : Watching ι) : Prop where
  version : ∀ e, (x.1.entities e).map SummaryRow.version = versionAfter s₀ e x.2
  staged : ∀ e r text, x.1.entities e = some r → r.stagedSummary = some text →
    stagedAfter s₀ e r.version x.2 = some text
  follows : ∀ before y, before ++ [y] <+: x.2 → Follows s₀ before y

theorem SummaryInv.start (s₀ : SummaryStore) : SummaryInv s₀ ((s₀, []) : Watching ι) where
  version e := rfl
  staged e r text hr ht := by
    have hr : s₀.entities e = some r := hr
    simp [stagedAfter, hr, ht]
  follows before y h := by simp at h

theorem versionAfter_concat {s₀ : SummaryStore} {e : Nat} {log : List (SummaryEntry ι)}
    {x : SummaryEntry ι} : versionAfter s₀ e (log ++ [x]) =
      if x.makesVersion e then some x.newVersion else versionAfter s₀ e log := by
  simp [versionAfter, List.foldl_append]

theorem stagedAfter_concat {s₀ : SummaryStore} {e : Nat} {v : Int} {log : List (SummaryEntry ι)}
    {x : SummaryEntry ι} : stagedAfter s₀ e v (log ++ [x]) =
      (x.stagedText e v).or (stagedAfter s₀ e v log) := by
  simp [stagedAfter, List.foldl_append]

theorem SummaryInv.entry_follows {s₀ : SummaryStore} {x : Watching ι} {call : SummaryCall}
    {f : SqlFilter} {r : SummaryRow} (h : SummaryInv s₀ x)
    (hr : x.1.entities call.entityId = some r) (hm : call.matches_ f r = true) (i : ι) :
    Follows s₀ x.2 ⟨i, call, (call.write.set r).version, (call.write.set r).summary⟩ where
  expected hb := by
    have hv := h.version call.entityId
    rw [hr] at hv
    rw [← hv, ← SummaryCall.matches_version hm]
    rfl
  produced hb := by
    rw [← SummaryCall.matches_version hm]
    cases hw : call.write with
    | commit text => rfl
    | stage text => rw [hw] at hb; cases hb
    | promote => rfl
  published hw := by
    have hw : call.write = .promote := hw
    obtain ⟨text, ht⟩ := SummaryCall.matches_staged hm hw
    have hst := h.staged call.entityId r text hr ht
    rw [SummaryCall.matches_version hm] at hst
    simp only [hst, hw, SummaryWrite.set, ht, Option.getD_some]

theorem SummaryInv.updates {s₀ : SummaryStore} {x : Watching ι} {call : SummaryCall}
    {f : SqlFilter} {r : SummaryRow} (h : SummaryInv s₀ x)
    (hr : x.1.entities call.entityId = some r) (hm : call.matches_ f r = true) (i : ι) :
    SummaryInv s₀ (({ x.1 with
        entities := Function.update x.1.entities call.entityId (some (call.write.set r)) },
      x.2 ++ [⟨i, call, (call.write.set r).version, (call.write.set r).summary⟩]) : Watching ι) where
  version e := by
    rw [versionAfter_concat]
    by_cases he : call.entityId = e
    · subst he
      have hold := h.version call.entityId
      rw [hr] at hold
      simp only [Function.update_self, Option.map_some, SummaryEntry.makesVersion]
      cases hw : call.write with
      | commit text => simp [SummaryWrite.bumps]
      | stage text => simpa [SummaryWrite.bumps, SummaryWrite.set] using hold
      | promote => simp [SummaryWrite.bumps]
    · simp [SummaryEntry.makesVersion, he, Function.update_of_ne (Ne.symm he), h.version e]
  staged e r' text hr' ht := by
    rw [stagedAfter_concat]
    by_cases he : call.entityId = e
    · subst he
      simp only [Function.update_self, Option.some.injEq] at hr'
      subst hr'
      cases hw : call.write with
      | commit t => rw [hw] at ht; cases ht
      | stage t =>
        rw [hw] at ht
        cases ht
        simp [SummaryEntry.stagedText, hw, SummaryWrite.set, SummaryCall.matches_version hm]
      | promote => rw [hw] at ht; cases ht
    · simp only [Function.update_of_ne (Ne.symm he)] at hr'
      have hold := h.staged e r' text hr' ht
      cases hw : call.write <;> simp [SummaryEntry.stagedText, hw, he, hold]
  follows before y hy := by
    rcases List.prefix_concat_iff.mp hy with heq | hpre
    · obtain ⟨rfl, hxy⟩ := List.append_inj' heq rfl
      cases hxy
      exact h.entry_follows hr hm i
    · exact h.follows before y hpre

/-! ## Any interleaving -/

section Threads

variable [DecidableEq ι] {s₀ : SummaryStore} {strip : String → String} {i : ι} {call : SummaryCall}

/-- A move of caller `i`. -/
def CallerMove (s₀ : SummaryStore) (i : ι) (x y : Watching ι) : Prop :=
  (SummaryInv s₀ x → SummaryInv s₀ y) ∧ ∃ xs, y.2 = x.2 ++ xs ∧ ∀ e ∈ xs, e.caller = i

/-- A move of the others. -/
def OthersMove (i : ι) (x y : Watching ι) : Prop :=
  ∃ xs, y.2 = x.2 ++ xs ∧ ∀ e ∈ xs, e.caller ≠ i

theorem OthersMove.ownEntries {x y : Watching ι} (h : OthersMove i x y) :
    ownEntries i y.2 = ownEntries i x.2 := by
  obtain ⟨xs, hy, hxs⟩ := h
  have hnone : Lumogis.ownEntries i xs = [] := by simpa [Lumogis.ownEntries] using hxs
  rw [Lumogis.ownEntries, hy, List.filter_append]
  exact (congrArg _ hnone).trans (List.append_nil _)

theorem stable_own (P : List (SummaryEntry ι) → Prop) :
    Stable (OthersMove i) fun x => P (ownEntries i x.2) :=
  fun x y hr hp => by
    dsimp only at hp ⊢
    rw [hr.ownEntries]
    exact hp

/-- What a call has left in the log when it returns or raises. -/
def callPost (i : ι) (call : SummaryCall) (r : Except SummaryErr GuardedWriteResult)
    (x : Watching ι) : Prop :=
  match r with
  | .ok res => Recorded i call res x.2
  | .error _ => ownEntries i x.2 = []

theorem always_readEntitySummary (entityId : Nat) (caller : UserContext) :
    Always (fun s t => t = s) (readEntitySummary strip entityId caller) := by
  refine Always.bind (Always.bind (always_query fun _ => rfl) fun users => ?_) fun vis =>
    Always.bind (always_query fun _ => rfl) fun row => trivial
  cases visibleFilter users caller none with
  | ok f => trivial
  | error e => trivial

theorem sat_watchedUpdate (scope : Scope) {x : Watching ι} (hx : ownEntries i x.2 = []) :
    Sat (OthersMove i) (fun _ _ => True) (CallerMove s₀ i) (callPost i call)
      (watchedUpdate i call scope) x := by
  rw [watchedUpdate]
  cases scopeWhere scope call.caller with
  | error e => exact Sat.raise (stable_own (· = [])) hx fun _ h => h
  | ok whereScope =>
    refine Sat.act_bind (stable_own (· = [])) hx fun y hy _ => ?_
    rw [watchedStatement]
    rcases call.update_cases whereScope y.1 with h | ⟨r, hr, hm, h⟩
    · rw [h]
      exact ⟨⟨fun hi => hi, [], by simp, by simp⟩,
        Sat.ret (stable_own (· = [])) hy fun _ hz => ⟨rfl, hz⟩⟩
    · rw [h]
      simp only [SummaryCall.entry, Function.update_self, Option.map_some, Option.getD_some]
      refine ⟨⟨fun hi => hi.updates hr hm i, _, rfl, by simp⟩, ?_⟩
      refine Sat.ret (stable_own (∃ text, · = [⟨i, call, (call.write.set r).version, text⟩]))
        ⟨(call.write.set r).summary, ?_⟩ fun _ hz => ⟨rfl, hz⟩
      rw [ownEntries] at hy ⊢
      simp [List.filter_append, hy]

theorem sat_watched {x : Watching ι} (hx : ownEntries i x.2 = []) :
    Sat (OthersMove i) (fun _ _ => True) (CallerMove s₀ i) (callPost i call)
      (watched strip i call) x := by
  rw [watched]
  refine Sat.seq (P := fun y => ownEntries i y.2 = []) ?_ (fun snapshot y hy => ?_)
    fun _ _ hy => show ownEntries i _ = [] from hy
  · refine Sat.always (always_lift (always_readEntitySummary _ _)) (fun y z _ hyz _ => ?_)
      (stable_own (· = [])) (fun y z hy hyz _ => ?_) hx
    · obtain rfl : z = y := Prod.ext hyz.1 hyz.2
      exact ⟨fun hi => hi, [], by simp, by simp⟩
    · rw [hyz.2]
      exact hy
  · cases snapshot with
    | none => exact Sat.ret (stable_own (· = [])) hy fun _ hz => ⟨rfl, hz⟩
    | some snapshot =>
      dsimp only
      split
      · exact Sat.ret (stable_own (· = [])) hy fun _ hz => ⟨rfl, hz⟩
      · exact sat_watchedUpdate _ hy

/-- Any number of calls, in any interleaving. -/
theorem summary_updates_chain (strip : String → String) (calls : ι → SummaryCall)
    {s₀ : SummaryStore} {x : Watching ι}
    {ps : ι → Prog (Watching ι) SummaryErr GuardedWriteResult}
    (h : ReflTransGen (Step fun _ _ _ => True)
      ((s₀, []), fun i => watched strip i (calls i)) (x, ps)) : SummaryLaw s₀ calls x ps := by
  have hrg : ∀ i j : ι, i ≠ j → ∀ x y, CallerMove s₀ i x y → OthersMove j x y := by
    rintro i j hij x y ⟨_, xs, hy, hxs⟩
    exact ⟨xs, hy, fun e he hj => hij ((hxs e he).symm.trans hj)⟩
  have hsat : ∀ i : ι, Sat (OthersMove i) (fun _ _ => True) (CallerMove s₀ i) (callPost i (calls i))
      (watched strip i (calls i)) (s₀, []) := fun i => sat_watched rfl
  have hinv : SummaryInv s₀ x :=
    Sat.invariant hrg (fun i x y hxy => hxy.1) hsat (SummaryInv.start s₀) h
  refine ⟨fun i r hr => ?_, hinv.version, hinv.follows⟩
  exact Sat.done (r := .ok r) (Sat.par hrg hsat h i) hr

end Threads

/-- A promotion publishes the text of every staging call that names its version. -/
def PublishesNamed (log : List (SummaryEntry ι)) : Prop :=
  ∀ before x, before ++ [x] <+: log → x.call.write = .promote →
    ∀ y ∈ before, ∀ text, y.call.write = .stage text → y.call.entityId = x.call.entityId →
      y.call.readVersion = x.call.readVersion → x.summary = text

end Calls

namespace SummaryExample

inductive Writer where
  | first | second | promoter
  deriving DecidableEq

def alice : UserContext := ⟨"alice", true, .user, some true⟩

def row : SummaryRow := ⟨"alice", .personal, "PERSON", "", none, 1⟩

def store : SummaryStore := { entities := fun e => if e = 7 then some row else none, users := [] }

/-- Two drafts of one version, and its promotion. -/
def calls : Writer → SummaryCall
  | .first => ⟨.stage "first draft", 7, alice, 1⟩
  | .second => ⟨.stage "second draft", 7, alice, 1⟩
  | .promoter => ⟨.promote, 7, alice, 1⟩

def start : Watching Writer × (Writer → Prog (Watching Writer) SummaryErr GuardedWriteResult) :=
  ((store, []), fun i => watched id i (calls i))

/-- One call after the other, three database calls each. -/
def inTurn : List Writer :=
  List.replicate 3 .first ++ List.replicate 3 .second ++ List.replicate 3 .promoter

theorem log_inTurn : (schedule inTurn start).1.2 =
    [⟨.first, calls .first, 1, ""⟩, ⟨.second, calls .second, 1, ""⟩,
      ⟨.promoter, calls .promoter, 2, "second draft"⟩] := by decide

theorem reaches_inTurn : ReflTransGen (Step fun _ _ _ => True) start (schedule inTurn start) :=
  schedule_reaches (by simp [inTurn, List.replicate, Allowed])

end SummaryExample

open SummaryExample in
theorem summary_updates_chain_inTurn :
    SummaryLaw store calls (schedule inTurn start).1 (schedule inTurn start).2 :=
  summary_updates_chain id calls reaches_inTurn

open SummaryExample in
/-- The first text that was staged for version 1 is never published. -/
theorem staged_text_replaced :
    ∃ c, ReflTransGen (Step fun _ _ _ => True) start c ∧ ¬ PublishesNamed c.1.2 := by
  refine ⟨_, reaches_inTurn, fun h => ?_⟩
  rw [log_inTurn] at h
  have hfirst := h
    [⟨.first, calls .first, 1, ""⟩, ⟨.second, calls .second, 1, ""⟩]
    ⟨.promoter, calls .promoter, 2, "second draft"⟩ (List.prefix_refl _) rfl
    ⟨.first, calls .first, 1, ""⟩ List.mem_cons_self "first draft" rfl rfl rfl
  exact absurd hfirst (by decide)

end Lumogis
