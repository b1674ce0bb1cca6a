import Lumogis.Credentials
import Lumogis.Lib.Labelled
import Mathlib.Logic.Function.Basic

/-!
# CredentialRotation

Puts, deletes and sweeps of the credential tables by any number of threads, one statement at a time.
`last` keeps what the last put or delete of a key left there.

`rotation_keeps_updates`: a read gives what `last` says in every run in which no sweep updates a row
whose payload is another than the one it selected. The `UPDATE` is keyed by the primary key alone,
so a sweep that selected the row before a put takes the put back (`rotation_loses_put`).
-/

namespace Lumogis

open Prog Labelled

inductive SweepPhase (T : Type) where
  | idle
  /-- `rest` is what is still to be walked of the table selected, `tables` the tables after it. -/
  | walking (iv : CredKey → Nat) (actor : String) (rest : List (CredKey × CredRow T))
      (tables : List CredTable)

structure CredConfig (ι T P : Type) where
  store : CredStore T
  phase : ι → SweepPhase T
  /-- `none`: absent. `some none`: a row that does not decrypt. -/
  last : CredKey → Option (Option P)

inductive CredLabel (ι P : Type) where
  | put (i : ι) (iv : Nat) (key : CredKey) (payload : P) (actor : String)
  | delete (i : ι) (key : CredKey) (actor : String)
  | get (i : ι) (key : CredKey)
  | begin (i : ι) (iv : CredKey → Nat) (actor : String) (tables : List CredTable)
  | select (i : ι)
  | row (i : ι)
  | finish (i : ι)

/-- What reading the key's row gives. -/
def CredStore.payload {T P : Type} (env : CredEnv T P) (s : CredStore T) (key : CredKey) :
    Option (Option P) :=
  (s.rows.lookup key).map fun r => env.decryptPayload r.ciphertext

section System

variable {ι T P : Type} [DecidableEq ι]

def CredConfig.put (i : ι) (p : SweepPhase T) (store : CredStore T) (c : CredConfig ι T P) :
    CredConfig ι T P :=
  { c with store := store, phase := Function.update c.phase i p }

def CredConfig.record (key : CredKey) (payload : Option (Option P)) (c : CredConfig ι T P) :
    CredConfig ι T P :=
  { c with last := Function.update c.last key payload }

/-- The actor with which a table is walked. -/
def CredTable.sweepActor : CredTable → String → Except CredErr String
  | .user, actor => .ok actor
  | .household, actor | .system, actor => actorStrTiered actor

def credStep (env : CredEnv T P) : CredLabel ι P → CredConfig ι T P → Option (CredConfig ι T P)
  | .put i iv key payload actor, c =>
    match c.phase i with
    | .idle =>
      match (putRow env iv key payload actor).exec c.store with
      | some (.ok _, t) => some ((c.put i .idle t).record key (some (some payload)))
      | some (.error _, t) => some (c.put i .idle t)
      | none => none
    | _ => none
  | .delete i key actor, c =>
    match c.phase i with
    | .idle =>
      match (deleteRow key actor).exec c.store with
      | some (.ok _, t) => some ((c.put i .idle t).record key none)
      | some (.error _, t) => some (c.put i .idle t)
      | none => none
    | _ => none
  | .get i key, c =>
    match c.phase i with
    | .idle =>
      match (getRow env key).exec c.store with
      | some (_, t) => some (c.put i .idle t)
      | none => none
    | _ => none
  | .begin i iv actor tables, c =>
    match c.phase i with
    | .idle =>
      match actorStr actor with
      | .error _ => some (c.put i .idle c.store)
      | .ok actorClean =>
        some (c.put i (.walking iv actorClean [] (allCredTables.filter fun t => decide (t ∈ tables)))
          c.store)
    | _ => none
  | .select i, c =>
    match c.phase i with
    | .walking iv actor [] (table :: tables) =>
      match table.sweepActor actor with
      | .error _ => some (c.put i .idle c.store)
      | .ok _ => some (c.put i (.walking iv actor (c.store.select table) tables) c.store)
    | _ => none
  | .row i, c =>
    match c.phase i with
    | .walking iv actor (row :: rest) tables =>
      match (reencryptRow env iv actor .zero row).exec c.store with
      | some (_, t) => some (c.put i (.walking iv actor rest tables) t)
      | none => none
    | _ => none
  | .finish i, c =>
    match c.phase i with
    | .walking _ _ [] [] => some (c.put i .idle c.store)
    | _ => none

/-! ## The law and its condition -/

/-- What `get_payload` returns, or raises, for a row of payload `p`. -/
def readResult : Option (Option P) → Except CredErr (Option P)
  | none => .ok none
  | some none => .error .credentialUnavailable
  | some (some payload) => .ok (some payload)

/-- Reading a credential gives the payload of the last put, and nothing after a delete. -/
def ReadsLast (env : CredEnv T P) (c : CredConfig ι T P) : Prop :=
  ∀ key, requireRegistered env key.connector = .ok () →
    (getRow env key).exec c.store = some (readResult (c.last key), c.store)

def KeepsLast (env : CredEnv T P) (c : CredConfig ι T P) : Prop :=
  ∀ key, c.store.payload env key = c.last key

/-- An update of a sweep finds its row gone, or with the payload that it had when it was selected. -/
def PayloadUnchanged (env : CredEnv T P) (l : CredLabel ι P) (c : CredConfig ι T P) : Prop :=
  match l with
  | .row i =>
    match c.phase i with
    | .walking iv _ ((key, row) :: _) _ =>
      (resealed env (iv key) row).isSome = true →
        ∀ payload ∈ c.store.payload env key, payload = env.decryptPayload row.ciphertext
    | _ => True
  | _ => True

instance [DecidableEq P] (env : CredEnv T P) (l : CredLabel ι P) (c : CredConfig ι T P) :
    Decidable (PayloadUnchanged env l c) :=
  match l with
  | .row i =>
    match h : c.phase i with
    | .walking iv _ ((key, row) :: _) _ => decidable_of_iff
        ((resealed env (iv key) row).isSome = true →
          ∀ payload ∈ c.store.payload env key, payload = env.decryptPayload row.ciphertext)
        (by simp [PayloadUnchanged, h])
    | .idle | .walking _ _ [] _ => .isTrue (by simp [PayloadUnchanged, h])
  | .put _ _ _ _ _ | .delete _ _ _ | .get _ _ | .begin _ _ _ _ | .select _ | .finish _ =>
    .isTrue trivial

/-- No call is in progress. -/
structure CredStart (env : CredEnv T P) (c : CredConfig ι T P) : Prop where
  idle : ∀ i, c.phase i = .idle
  last : KeepsLast env c

/-! ## The statements -/

section Statements

variable {env : CredEnv T P} {s : CredStore T} {key key' : CredKey}

omit [DecidableEq ι]

theorem payload_upsert {token : T} {version : Nat} {actor : String} :
    (s.upsert key token version actor).payload env key' =
      if key' = key then some (env.decryptPayload token) else s.payload env key' := by
  by_cases h : key' = key
  · subst h
    simp [CredStore.payload, CredStore.upsert]
  · simp [CredStore.payload, CredStore.upsert, h, AList.lookup_insert_ne]

theorem payload_delete :
    (s.delete key).payload env key' = if key' = key then none else s.payload env key' := by
  by_cases h : key' = key
  · subst h
    simp [CredStore.payload, CredStore.delete]
  · simp [CredStore.payload, CredStore.delete, h, AList.lookup_erase_ne]

theorem payload_reseal {token : T} {version : Nat} {actor : String} :
    (s.reseal key token version actor).payload env key' =
      if key' = key then (s.payload env key).map fun _ => env.decryptPayload token
      else s.payload env key' := by
  rw [CredStore.reseal]
  cases hr : s.rows.lookup key with
  | none =>
    by_cases h : key' = key
    · subst h
      simp [CredStore.payload, hr]
    · simp [h]
  | some r =>
    by_cases h : key' = key
    · subst h
      simp [CredStore.payload, hr]
    · simp [CredStore.payload, h, AList.lookup_insert_ne]

theorem getRow_exec (h : requireRegistered env key.connector = .ok ()) :
    (getRow env key).exec s = some (readResult (s.payload env key), s) := by
  rw [getRow, h, ofExcept, CredStore.payload]
  simp only [exec_bind, pure_eq, exec_ret, exec_query, Option.bind_some, thenExec]
  cases s.rows.lookup key with
  | none => rfl
  | some r =>
    simp only [Option.map_some]
    cases env.decryptPayload r.ciphertext <;> rfl

theorem getRow_store {r : Except CredErr (Option P)} {t : CredStore T}
    (h : (getRow env key).exec s = some (r, t)) : t = s := by
  cases hreg : requireRegistered env key.connector with
  | error e =>
    rw [getRow, hreg] at h
    cases h
    rfl
  | ok u =>
    rw [getRow_exec hreg] at h
    cases h
    rfl

theorem putRow_exec (env : CredEnv T P) (iv : Nat) (key : CredKey) (payload : P) (actor : String)
    (s : CredStore T) :
    (∃ e, (putRow env iv key payload actor).exec s = some (.error e, s)) ∨
    ∃ r, (putRow env iv key payload actor).exec s =
      some (.ok r, s.upsert key (env.encryptPayload iv payload) env.currentKeyVersion actor) := by
  rw [putRow]
  cases requireRegistered env key.connector with
  | error e => exact .inl ⟨e, rfl⟩
  | ok u =>
    cases ha : key.table.actorStr actor with
    | error e => exact .inl ⟨e, rfl⟩
    | ok actorClean =>
      have hclean : actorClean = actor := by
        cases hk : key.table <;> rw [hk] at ha <;>
          simp only [CredTable.actorStr, actorStr, actorStrTiered] at ha <;>
          split at ha <;> cases ha <;> rfl
      subst hclean
      exact .inr ⟨_, rfl⟩

theorem deleteRow_exec (key : CredKey) (actor : String) (s : CredStore T) :
    (∃ e, (deleteRow key actor).exec s = some (.error e, s)) ∨
    ∃ r, (deleteRow key actor).exec s = some (.ok r, s.delete key) := by
  rw [deleteRow]
  cases validateFormat key.connector with
  | error e => exact .inl ⟨e, rfl⟩
  | ok u =>
    cases key.table.actorStr actor with
    | error e => exact .inl ⟨e, rfl⟩
    | ok actorClean => exact .inr ⟨_, rfl⟩

theorem reencryptRow_exec (env : CredEnv T P) (iv : CredKey → Nat) (actor : String)
    (counts : SweepCounts) (row : CredKey × CredRow T) (s : CredStore T) :
    ∃ r, (reencryptRow env iv actor counts row).exec s = some (.ok r,
      match resealed env (iv row.1) row.2 with
      | none => s
      | some token => s.reseal row.1 token env.currentKeyVersion actor) := by
  rw [reencryptRow]
  cases resealed env (iv row.1) row.2 with
  | none =>
    dsimp only
    split
    · exact ⟨_, rfl⟩
    · exact ⟨_, rfl⟩
  | some token => exact ⟨_, rfl⟩

theorem resealed_payload (hf : env.Sound) {iv : Nat} {row : CredRow T} {token : T}
    (h : resealed env iv row = some token) :
    env.decryptPayload token = env.decryptPayload row.ciphertext := by
  rw [resealed] at h
  split at h
  · cases h
  · exact hf.rotate iv _ _ (Option.filter_eq_some_iff.mp h).1

end Statements

/-! ## What a step keeps -/

section Steps

variable {env : CredEnv T P} {c c' : CredConfig ι T P} {i : ι}

theorem row_keeps_iff (hf : env.Sound) (h : KeepsLast env c)
    (hs : credStep env (.row i) c = some c') :
    KeepsLast env c' ↔ PayloadUnchanged env (.row i) c := by
  simp only [credStep] at hs
  split at hs
  · rename_i iv actor row rest tables hi
    obtain ⟨key, row⟩ := row
    obtain ⟨r, hexec⟩ := reencryptRow_exec env iv actor .zero (key, row) c.store
    rw [hexec] at hs
    dsimp only at hs
    cases hs
    have hkeeps : KeepsLast env (c.put i (.walking iv actor rest tables)
        (match resealed env (iv key) row with
        | none => c.store
        | some token => c.store.reseal key token env.currentKeyVersion actor)) ↔
        ∀ key', (match resealed env (iv key) row with
          | none => c.store
          | some token => c.store.reseal key token env.currentKeyVersion actor).payload env key' =
            c.last key' := Iff.rfl
    rw [hkeeps]
    simp only [PayloadUnchanged, hi]
    cases hres : resealed env (iv key) row with
    | none => exact ⟨fun _ hn => (by cases hn), fun _ => h⟩
    | some token =>
      simp only [payload_reseal, resealed_payload hf hres]
      constructor
      · intro hk _ payload hp
        have hkey := hk key
        rw [if_pos rfl, ← h key, Option.mem_def.mp hp] at hkey
        exact (Option.some.inj hkey).symm
      · intro hsame key'
        rw [← h key']
        split
        · rename_i hkey
          subst hkey
          cases hp : c.store.payload env key' with
          | none => rfl
          | some payload => rw [hsame rfl payload hp]; rfl
        · rfl
  · cases hs

theorem KeepsLast.next (hf : env.Sound) {l : CredLabel ι P} (h : KeepsLast env c)
    (ha : PayloadUnchanged env l c) (hs : credStep env l c = some c') : KeepsLast env c' := by
  cases l with
  | put i iv key payload actor =>
    simp only [credStep] at hs
    split at hs
    · rcases putRow_exec env iv key payload actor c.store with ⟨e, he⟩ | ⟨r, hr⟩
      · rw [he] at hs
        cases hs
        exact h
      · rw [hr] at hs
        cases hs
        intro key'
        show (c.store.upsert key _ _ _).payload env key' = Function.update c.last key _ key'
        rw [payload_upsert, hf.encrypt, Function.update_apply, h key']
    · cases hs
  | delete i key actor =>
    simp only [credStep] at hs
    split at hs
    · rcases deleteRow_exec key actor c.store with ⟨e, he⟩ | ⟨r, hr⟩
      · rw [he] at hs
        cases hs
        exact h
      · rw [hr] at hs
        cases hs
        intro key'
        show (c.store.delete key).payload env key' = Function.update c.last key none key'
        rw [payload_delete, Function.update_apply, h key']
    · cases hs
  | get i key =>
    simp only [credStep] at hs
    split at hs
    · split at hs
      · rename_i r t hr
        cases hs
        rw [getRow_store hr]
        exact h
      · cases hs
    · cases hs
  | begin i iv actor tables =>
    simp only [credStep] at hs
    split at hs
    · split at hs <;> cases hs <;> exact h
    · cases hs
  | select i =>
    simp only [credStep] at hs
    split at hs
    · split at hs <;> cases hs <;> exact h
    · cases hs
  | row i => exact (row_keeps_iff hf h hs).mpr ha
  | finish i =>
    simp only [credStep] at hs
    split at hs
    · cases hs
      exact h
    · cases hs

/-- What holds after every run whose sweeps update no row of another payload. -/
theorem rotation_keeps_updates (hf : env.Sound) {c₀ : CredConfig ι T P} (h₀ : CredStart env c₀)
    (h : Reaches (credStep env) (PayloadUnchanged env) c₀ c) : ReadsLast env c := by
  have hkeeps : KeepsLast env c :=
    h.invariant h₀.last fun _ _ _ hk ha hs => hk.next hf ha hs
  intro key hreg
  rw [getRow_exec hreg, hkeeps key]

end Steps

/-! ## The functions are runs -/

section Calls

variable {env : CredEnv T P} {c : CredConfig ι T P} {i : ι} {s : CredStore T}

/-- A run from `c` leads to a configuration with store `s` in which thread `i` is at `p`. -/
abbrev CredRunsTo (env : CredEnv T P) (c : CredConfig ι T P) (i : ι) (p : SweepPhase T)
    (s : CredStore T) : Prop :=
  RunsTo (credStep env) (fun _ _ => True) CredConfig.store c (fun c' => c'.phase i = p) s

theorem putRow_runs (h : CredRunsTo env c i .idle s) (iv : Nat) (key : CredKey) (payload : P)
    (actor : String) :
    wp (fun _ t => CredRunsTo env c i .idle t) (putRow env iv key payload actor) s := by
  rcases putRow_exec env iv key payload actor s with ⟨e, he⟩ | ⟨r, hr⟩
  · exact wp_iff.mpr ⟨_, _, he, h⟩
  · refine wp_iff.mpr ⟨_, _, hr, h.next (l := .put i iv key payload actor) fun c' hc' hs => ?_⟩
    subst hs
    simp only [credStep, hc', hr]
    exact ⟨trivial, _, rfl, Function.update_self .., rfl⟩

theorem deleteRow_runs (h : CredRunsTo env c i .idle s) (key : CredKey) (actor : String) :
    wp (fun _ t => CredRunsTo env c i .idle t) (deleteRow key actor) s := by
  rcases deleteRow_exec key actor s with ⟨e, he⟩ | ⟨r, hr⟩
  · exact wp_iff.mpr ⟨_, _, he, h⟩
  · refine wp_iff.mpr ⟨_, _, hr, h.next (l := .delete i key actor) fun c' hc' hs => ?_⟩
    subst hs
    simp only [credStep, hc', hr]
    exact ⟨trivial, _, rfl, Function.update_self .., rfl⟩

theorem sweepLoop_runs {iv : CredKey → Nat} {actor : String} {tables : List CredTable}
    {rows : List (CredKey × CredRow T)} (counts : SweepCounts)
    (h : CredRunsTo env c i (.walking iv actor rows tables) s) :
    wp (fun r t => (∃ n, r = .ok n) ∧ CredRunsTo env c i (.walking iv actor [] tables) t)
      (foldM (reencryptRow env iv actor) counts rows) s := by
  induction rows generalizing counts s with
  | nil => exact ⟨⟨counts, rfl⟩, h⟩
  | cons row rows ih =>
    obtain ⟨r, hr⟩ := reencryptRow_exec env iv actor counts row s
    obtain ⟨r', hr'⟩ := reencryptRow_exec env iv actor .zero row s
    rw [foldM, wp_bind]
    refine wp_iff.mpr ⟨_, _, hr, ih r (h.next (l := .row i) fun c' hc' hs => ?_)⟩
    subst hs
    simp only [credStep, hc', hr']
    exact ⟨trivial, _, rfl, Function.update_self .., rfl⟩

theorem sweepTable_runs {iv : CredKey → Nat} {actor : String} {table : CredTable}
    {tables : List CredTable} (ha : table.sweepActor actor = .ok actor)
    (h : CredRunsTo env c i (.walking iv actor [] (table :: tables)) s) :
    wp (fun r t => (∃ n, r = .ok n) ∧ CredRunsTo env c i (.walking iv actor [] tables) t)
      (reencryptTable env iv table actor) s := by
  rw [reencryptTable, wp_bind, wp_query]
  refine sweepLoop_runs _ (h.next (l := .select i) fun c' hc' hs => ?_)
  subst hs
  simp only [credStep, hc', ha]
  exact ⟨trivial, _, rfl, Function.update_self .., rfl⟩

/-- A tier that does not take the actor ends the call. -/
theorem reencryptTier_runs {iv : CredKey → Nat} {actor : String} {table : CredTable}
    {tables : List CredTable}
    (h : CredRunsTo env c i (.walking iv actor [] (table :: tables)) s) :
    wp (fun r t => match r with
      | .ok _ => CredRunsTo env c i (.walking iv actor [] tables) t
      | .error _ => CredRunsTo env c i .idle t)
      (reencryptTier env iv actor table) s := by
  have hok : table.sweepActor actor = .ok actor →
      wp (fun r t => match r with
        | .ok _ => CredRunsTo env c i (.walking iv actor [] tables) t
        | .error _ => CredRunsTo env c i .idle t) (reencryptTable env iv table actor) s := by
    intro ha
    refine (sweepTable_runs ha h).mono fun r t hr => ?_
    obtain ⟨⟨n, rfl⟩, hr⟩ := hr
    exact hr
  have htier : table.sweepActor actor = actorStrTiered actor →
      wp (fun r t => match r with
        | .ok _ => CredRunsTo env c i (.walking iv actor [] tables) t
        | .error _ => CredRunsTo env c i .idle t)
        (reencryptTierToCurrentVersion env iv table actor) s := by
    intro hsweep
    rw [reencryptTierToCurrentVersion]
    cases ha : actorStrTiered actor with
    | error e =>
      refine h.next (l := .select i) fun c' hc' hs => ?_
      subst hs
      simp only [credStep, hc', hsweep, ha]
      exact ⟨trivial, _, rfl, Function.update_self .., rfl⟩
    | ok actorClean =>
      obtain rfl : actorClean = actor := by
        simp only [actorStrTiered] at ha
        split at ha <;> cases ha
        rfl
      exact hok (hsweep.trans ha)
  cases table with
  | user => exact hok rfl
  | household => exact htier rfl
  | system => exact htier rfl

theorem reencryptAll_runs (h : CredRunsTo env c i .idle s) (iv : CredKey → Nat) (actor : String)
    (tables : List CredTable) :
    wp (fun _ t => CredRunsTo env c i .idle t) (reencryptAllToCurrentVersion env iv actor tables)
      s := by
  have hloop : ∀ (ts : List CredTable) (summary : SweepSummary) (s : CredStore T),
      CredRunsTo env c i (.walking iv actor [] ts) s →
      wp (fun _ t => CredRunsTo env c i .idle t)
        (foldM (fun summary table => do
          let counts ← reencryptTier env iv actor table
          return SweepSummary.with_ table counts summary) summary ts) s := by
    intro ts
    induction ts with
    | nil =>
      intro summary s hs
      refine hs.next (l := .finish i) fun c' hc' hcs => ?_
      subst hcs
      simp only [credStep, hc']
      exact ⟨trivial, _, rfl, Function.update_self .., rfl⟩
    | cons table ts ih =>
      intro summary s hs
      rw [foldM, wp_bind, wp_bind]
      refine (reencryptTier_runs hs).mono fun r t hr => ?_
      cases r with
      | ok counts => exact ih _ t hr
      | error e => exact hr
  rw [reencryptAllToCurrentVersion]
  cases ha : actorStr actor with
  | error e => exact h
  | ok actorClean =>
    obtain rfl : actorClean = actor := by
      simp only [actorStr] at ha
      split at ha <;> cases ha
      rfl
    refine hloop _ _ _ (h.next (l := .begin i iv actorClean tables) fun c' hc' hs => ?_)
    subst hs
    simp only [credStep, hc', ha]
    exact ⟨trivial, _, rfl, Function.update_self .., rfl⟩

end Calls

end System

namespace CredExample

/-- Tokens in the clear, beside their IV. -/
def env : CredEnv (Nat × String) String :=
  { registered := ["ntfy"], currentKeyVersion := 2
    encryptPayload := fun iv payload => (iv, payload)
    decryptPayload := fun token => some token.2
    rotate := fun iv token => some (iv, token.2)
    decrypts := fun _ => true }

theorem env_sound : env.Sound where
  encrypt _ _ := rfl
  rotate iv token token' h := by cases h; rfl

def key : CredKey := .user "ann" "ntfy"

/-- One row, sealed by the key before. -/
def start : CredConfig Bool (Nat × String) String :=
  { store := { rows := AList.singleton key ⟨(0, "old"), 1, "self", "self"⟩ }
    phase := fun _ => .idle
    last := fun k => if k = key then some (some "old") else none }

theorem start_idle : CredStart env start where
  idle _ := rfl
  last k := by
    by_cases hk : k = key
    · subst hk
      decide
    · have hnone : (AList.singleton key (⟨(0, "old"), 1, "self", "self"⟩ : CredRow (Nat × String))
          : AList fun _ : CredKey => CredRow (Nat × String)).lookup k = none := by
        rw [AList.lookup_eq_none, AList.mem_keys, AList.keys_singleton]
        simpa using hk
      simp [CredStore.payload, start, hnone, hk]

def reached (ls : List (CredLabel Bool String)) : CredConfig Bool (Nat × String) String :=
  (run (credStep env) ls start).getD start

theorem run_reached {ls : List (CredLabel Bool String)}
    (h : (run (credStep env) ls start).isSome = true) :
    run (credStep env) ls start = some (reached ls) := by
  obtain ⟨c, hc⟩ := Option.isSome_iff_exists.mp h
  rw [reached, hc]
  rfl

def selects : List (CredLabel Bool String) := [.begin true (fun _ => 7) "system" [.user], .select true]

def resumes : List (CredLabel Bool String) := [.row true, .finish true]

def puts : List (CredLabel Bool String) := [.put false 1 key "new" "self"]

end CredExample

open CredExample in
theorem reencryptAll_runs_user :
    wp (fun _ t => CredRunsTo env start true .idle t)
      (reencryptAllToCurrentVersion env (fun _ => 7) "system" [.user]) start.store :=
  reencryptAll_runs ⟨start, .start, rfl, rfl⟩ _ _ _

open CredExample in
theorem rotation_keeps_updates_inTurn : ReadsLast env (reached (selects ++ resumes ++ puts)) :=
  rotation_keeps_updates env_sound start_idle
    (run_reaches (run_reached (by decide)) (by decide))

open CredExample in
/-- The put falls between the `SELECT` and the `UPDATE` of the sweep. -/
theorem rotation_loses_put :
    ∃ c, Reaches (credStep env) (fun _ _ => True) start c ∧ (∀ i, c.phase i = .idle) ∧
      ¬ ReadsLast env c := by
  refine ⟨reached (selects ++ puts ++ resumes), run_reaches (run_reached (by decide)) ?_, ?_,
    fun h => ?_⟩
  · simp [selects, puts, resumes, Admitted]
  · intro i
    cases i <;> rfl
  · have hread := congrArg (Option.map Prod.fst) (h key (by decide))
    revert hread
    decide

end Lumogis
