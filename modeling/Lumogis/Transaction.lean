import Lumogis.PostgresStore
import Mathlib.Data.List.TakeWhile
import Mathlib.Tactic.SplitIfs

/-!
# Transaction

`PostgresStore.transaction()` under failing statements and lost connections.

A `Script` is one execution of a block's body: its calls, each with what the statement writes,
whether the statement fails and whether the server could be reached for a new connection; the
losses of the connection between them; and how the body ends. Every error is caught by the body,
which may end by raising it again.

The first `break` of a script is its first failing statement or loss. Up to it all writes are in
the block's transaction. From it on the connection is in one of the `Phase`s, and the next call
replaces it by an autocommit connection, on which each write is durable at once. So the writes
before the break are lost whatever happens, those after it stay whatever happens, and
`transaction_allOrNothing_iff` says when that agrees with how the block is left.
-/

namespace Lumogis

open Prog

inductive Event (W : Type) where
  | call (q : Stmt W) (up : Bool)
  | drop

structure Script (W : Type) where
  events : List (Event W)
  /-- The exception with which the body ends, if it does. -/
  raises : Option DbError

variable {W : Type}

def Event.run : Event W → PgM W Unit
  | .call q up => do
    let _ ← (storeExecute up q).attempt
    pure ()
  | .drop => dropConnection

def Script.body (sc : Script W) : PgM W Unit := do
  forEach Event.run sc.events
  match sc.raises with
  | none => pure ()
  | some e => .raise e

/-- If the block is left normally, what its calls have written is durable; if it is left by an
exception, nothing of it is. -/
def AllOrNothing (s t : Pg W) (r : Except DbError Unit) : Prop :=
  ∃ ws, t.acked = s.acked ++ ws ∧
    match r with
    | .ok _ => t.durable = s.durable ++ ws
    | .error _ => t.durable = s.durable

/-! ## Scripts -/

def Event.smooth : Event W → Bool
  | .call q _ => q.ok
  | .drop => false

def Event.write : Event W → List W
  | .call q _ => q.write.toList
  | .drop => []

/-- The connection after the first break. -/
inductive Phase where
  /-- The block's connection, its transaction aborted. -/
  | aborted
  /-- The block's connection, lost inside its transaction. -/
  | cut
  /-- The block's connection, lost before its transaction began. -/
  | cutIdle
  /-- Closed, and no new connection could be opened. -/
  | stranded
  /-- A new autocommit connection. -/
  | replaced
  /-- A new autocommit connection, lost again. -/
  | replacedLost
  deriving DecidableEq

namespace Phase

/-- The phase right after the first break; `began` says whether a call came before it. -/
def afterBreak (began : Bool) : Event W → Phase
  | .call _ _ => .aborted
  | .drop => if began then .cut else .cutIdle

def next : Phase → Event W → Phase
  | .replaced, .call _ _ => .replaced
  | _, .call _ up => if up then .replaced else .stranded
  | .aborted, .drop => .cut
  | .replaced, .drop => .replacedLost
  | p, .drop => p

/-- What a call writes in this phase: nothing if it finds no connection. -/
def writes : Phase → Event W → List W
  | _, .drop => []
  | .replaced, .call q _ => if q.ok then q.write.toList else []
  | _, .call q up => if up && q.ok then q.write.toList else []

/-- The `COMMIT` at the end of the block raises. -/
def commitRaises : Phase → Bool
  | .cut => true
  | .stranded => true
  | _ => false

def atEnd : Phase → List (Event W) → Phase
  | p, [] => p
  | p, e :: es => atEnd (p.next e) es

def lateWrites : Phase → List (Event W) → List W
  | _, [] => []
  | p, e :: es => p.writes e ++ lateWrites (p.next e) es

end Phase

/-- When the block keeps its promise: nothing breaks it; or it is left by an exception, of the body
or of `COMMIT`, and nothing was written after the break; or it is left normally, and nothing was
written before the break. -/
def Script.Safe (sc : Script W) : Prop :=
  let before := sc.events.takeWhile Event.smooth
  match sc.events.dropWhile Event.smooth with
  | [] => True
  | b :: rest =>
    let p := Phase.afterBreak (!before.isEmpty) b
    if sc.raises.isSome || (p.atEnd rest).commitRaises then
      p.lateWrites rest = []
    else
      before.flatMap Event.write = []

/-! ## Calls -/

/-- What one call of the store does to it. -/
def callStep (up : Bool) (q : Stmt W) (s : Pg W) : Pg W :=
  match s.executeStep probe with
  | (.ok _, s₁) => (s₁.executeStep q).2
  | (.error _, s₁) =>
    if up then (s₁.reconnected.executeStep q).2 else s₁.withConn s₁.conn.shut

theorem exec_ensureConn (up : Bool) (s : Pg W) :
    (ensureConn up).exec s = match s.executeStep probe with
      | (.ok _, s₁) => some (.ok (), s₁)
      | (.error _, s₁) =>
        if up then some (.ok (), s₁.reconnected)
        else some (.error .operational, s₁.withConn s₁.conn.shut) := by
  rw [ensureConn, Prog.tryCatch, exec_bind, exec_attempt, cursorExecute, exec_actE]
  rcases s.executeStep probe with ⟨r, s₁⟩
  cases r with
  | ok a => rfl
  | error e =>
    simp only [Option.map_some, Option.bind_some, thenExec]
    rw [exec_bind, exec_attempt, connClose, exec_act]
    simp only [Option.map_some, Option.bind_some, thenExec, connect, exec_actE]
    cases up <;> rfl

def Event.after : Event W → Pg W → Pg W
  | .call q up, s => callStep up q s
  | .drop, s => s.withConn s.conn.dropped

theorem exec_event_run (e : Event W) (s : Pg W) : e.run.exec s = some (.ok (), e.after s) := by
  cases e with
  | drop => rfl
  | call q up =>
    simp only [Event.run, Event.after, exec_bind, exec_attempt, storeExecute, exec_ensureConn,
      callStep]
    rcases s.executeStep probe with ⟨r, s₁⟩
    cases r with
    | ok a => simp [thenExec, cursorExecute, exec_actE]
    | error x => cases up <;> simp [thenExec, cursorExecute, exec_actE]

theorem exec_events (es : List (Event W)) (s : Pg W) :
    (forEach Event.run es).exec s = some (.ok (), es.foldl (fun s e => e.after s) s) := by
  induction es generalizing s with
  | nil => rfl
  | cons e es ih =>
    rw [forEach, exec_bind, exec_event_run]
    exact ih (e.after s)

/-! ## Before the break -/

/-- The block's own transaction: `ws` is written and pending. -/
structure Whole (d a ws : List W) (began : Bool) (s : Pg W) : Prop where
  conn : s.conn = { alive := true, closed := false, autocommit := false, inTxn := began,
                    failed := false, pending := ws }
  durable : s.durable = d
  acked : s.acked = a ++ ws

theorem Whole.step {d a ws : List W} {began : Bool} {s : Pg W} (h : Whole d a ws began s)
    {e : Event W} (he : e.smooth = true) : Whole d a (ws ++ e.write) true (e.after s) := by
  obtain ⟨hc, hd, ha⟩ := h
  cases e with
  | drop => cases he
  | call q up =>
    have hq : q.ok = true := he
    constructor
    · simp [Event.after, callStep, Pg.executeStep, hc, hq, probe, Event.write]
    · simp [Event.after, callStep, Pg.executeStep, hc, hq, probe, hd]
    · simp [Event.after, callStep, Pg.executeStep, hc, hq, probe, ha, Event.write]

theorem Whole.run {d a : List W} (es : List (Event W)) (hes : ∀ e ∈ es, e.smooth = true)
    {ws : List W} {began : Bool} {s : Pg W} (h : Whole d a ws began s) :
    Whole d a (ws ++ es.flatMap Event.write) (began || !es.isEmpty)
      (es.foldl (fun s e => e.after s) s) := by
  induction es generalizing ws began s with
  | nil => simpa using h
  | cons e es ih =>
    have := ih (fun x hx => hes x (by simp [hx])) (h.step (hes e (by simp)))
    simpa [List.append_assoc] using this

/-! ## From the break on -/

/-- The connections of a phase. -/
def Phase.Describes : Phase → Conn W → Prop
  | .aborted, c =>
    c.alive = true ∧ c.closed = false ∧ c.autocommit = false ∧ c.inTxn = true ∧ c.failed = true
  | .cut, c => c.alive = false ∧ c.closed = false ∧ c.autocommit = false ∧ c.inTxn = true
  | .cutIdle, c => c.alive = false ∧ c.closed = false ∧ c.autocommit = false ∧ c.inTxn = false
  | .stranded, c => c.closed = true
  | .replaced, c => c = .fresh
  | .replacedLost, c => c.alive = false ∧ c.closed = false ∧ c.autocommit = true ∧ c.inTxn = false

structure InPhase (d a before late : List W) (p : Phase) (s : Pg W) : Prop where
  conn : p.Describes s.conn
  durable : s.durable = d ++ late
  acked : s.acked = a ++ before ++ late

theorem Whole.break_ {d a ws : List W} {began : Bool} {s : Pg W} (h : Whole d a ws began s)
    {e : Event W} (he : e.smooth = false) :
    InPhase d a ws [] (Phase.afterBreak began e) (e.after s) := by
  obtain ⟨hc, hd, ha⟩ := h
  cases e with
  | drop =>
    cases began <;> constructor <;>
      simp [Phase.afterBreak, Phase.Describes, Event.after, Pg.withConn, Conn.dropped, hc, hd, ha]
  | call q up =>
    have hq : q.ok = false := he
    constructor <;>
      simp [Phase.afterBreak, Phase.Describes, Event.after, callStep, Pg.executeStep, Pg.withConn,
        probe, hc, hq, hd, ha]

/-- A call in any phase but `replaced` finds no usable connection. -/
theorem Phase.probe_fails {p : Phase} (hp : p ≠ .replaced) {s : Pg W} (h : p.Describes s.conn) :
    ∃ e c, s.executeStep probe = (.error e, s.withConn c) := by
  cases p with
  | replaced => exact absurd rfl hp
  | aborted =>
    obtain ⟨h1, h2, h3, h4, h5⟩ := h
    exact ⟨.inFailedTransaction, s.conn, by simp [Pg.executeStep, Pg.withConn, h1, h2, h3, h5]⟩
  | cut | cutIdle | replacedLost =>
    obtain ⟨h1, h2, h3, h4⟩ := h
    exact ⟨.operational, s.conn.shut, by simp [Pg.executeStep, h1, h2]⟩
  | stranded =>
    have h1 : s.conn.closed = true := h
    exact ⟨.interface, s.conn, by simp [Pg.executeStep, Pg.withConn, h1]⟩

theorem execute_fresh (q : Stmt W) {s : Pg W} (hc : s.conn = .fresh) :
    (s.executeStep q).2.conn = .fresh ∧
      (s.executeStep q).2.durable = s.durable ++ (if q.ok then q.write.toList else []) ∧
      (s.executeStep q).2.acked = s.acked ++ (if q.ok then q.write.toList else []) := by
  cases hq : q.ok <;> simp [Pg.executeStep, hc, Conn.fresh, hq]

theorem probe_fresh {s : Pg W} (hc : s.conn = .fresh) : s.executeStep probe = (.ok (), s) := by
  obtain ⟨c, _, _, _, _⟩ := s
  have hc' : c = .fresh := hc
  subst hc'
  simp [Pg.executeStep, Conn.fresh, probe]

theorem InPhase.step {d a before late : List W} {p : Phase} {s : Pg W}
    (h : InPhase d a before late p s) (e : Event W) :
    InPhase d a before (late ++ p.writes e) (p.next e) (e.after s) := by
  obtain ⟨hc, hd, ha⟩ := h
  cases e with
  | drop =>
    constructor
    · cases p <;> simp_all [Phase.Describes, Phase.next, Event.after, Pg.withConn, Conn.dropped,
        Conn.fresh]
    · cases p <;> simpa [Phase.writes, Event.after, Pg.withConn] using hd
    · cases p <;> simpa [Phase.writes, Event.after, Pg.withConn] using ha
  | call q up =>
    by_cases hp : p = .replaced
    · subst hp
      obtain ⟨h1, h2, h3⟩ := execute_fresh q (s := s) hc
      have hafter : Event.after (.call q up) s = (s.executeStep q).2 := by
        rw [Event.after, callStep, probe_fresh hc]
      rw [hafter]
      exact ⟨h1, by simp [Phase.writes, h2, hd], by simp [Phase.writes, h3, ha]⟩
    · obtain ⟨x, c, hprobe⟩ := Phase.probe_fails hp hc
      have hnext : p.next (.call q up) = if up then .replaced else .stranded := by
        cases p <;> first | rfl | exact absurd rfl hp
      have hwrites : p.writes (.call q up) = if up && q.ok then q.write.toList else [] := by
        cases p <;> first | rfl | exact absurd rfl hp
      rw [hnext, hwrites, Event.after, callStep, hprobe]
      cases up with
      | true =>
        obtain ⟨h1, h2, h3⟩ := execute_fresh q (s := (s.withConn c).reconnected) rfl
        simp only [if_true, Bool.true_and]
        exact ⟨h1, h2.trans (by simp [Pg.reconnected, Pg.withConn, hd]),
          h3.trans (by simp [Pg.reconnected, Pg.withConn, ha])⟩
      | false => exact ⟨rfl, by simpa [Pg.withConn] using hd, by simpa [Pg.withConn] using ha⟩

theorem InPhase.run {d a before : List W} (es : List (Event W)) {late : List W} {p : Phase}
    {s : Pg W} (h : InPhase d a before late p s) :
    InPhase d a before (late ++ p.lateWrites es) (p.atEnd es)
      (es.foldl (fun s e => e.after s) s) := by
  induction es generalizing late p s with
  | nil => simpa [Phase.lateWrites, Phase.atEnd] using h
  | cons e es ih =>
    have := ih (h.step e)
    simpa [Phase.lateWrites, Phase.atEnd, List.append_assoc] using this

/-! ## The end of the block -/

theorem exec_closeBlock_error {α : Type} (e : DbError) (s : Pg W) :
    ∃ x t, (closeBlock (.error e) : PgM W α).exec s = some (.error x, t) ∧
      t.durable = s.durable ∧ t.acked = s.acked := by
  have hroll : (s.rollbackStep).2.durable = s.durable ∧ (s.rollbackStep).2.acked = s.acked := by
    unfold Pg.rollbackStep
    dsimp only
    split_ifs <;> exact ⟨rfl, rfl⟩
  simp only [closeBlock, exec_bind, exec_attempt, connRollback, exec_actE, Option.map_some,
    Option.bind_some, thenExec, setAutocommit]
  generalize (s.rollbackStep).2 = s₁ at hroll
  unfold Pg.setAutocommitStep
  split_ifs
  · exact ⟨_, _, rfl, hroll⟩
  · exact ⟨_, _, rfl, hroll⟩
  · exact ⟨_, _, rfl, hroll⟩

theorem exec_closeBlock_ok {α : Type} {a : α} {s : Pg W} (hc : s.conn.closed = false)
    (ht : s.conn.inTxn = false) :
    ∃ t, (closeBlock (.ok a) : PgM W α).exec s = some (.ok a, t) ∧
      t.durable = s.durable ∧ t.acked = s.acked := by
  refine ⟨s.withConn { s.conn with autocommit := true }, ?_, rfl, rfl⟩
  simp [closeBlock, exec_bind, setAutocommit, exec_actE, Pg.setAutocommitStep, hc, ht, thenExec]

/-- `COMMIT` after a break makes nothing durable, and raises in the phases that say so. -/
theorem commit_after_break (block : Nat) {d a before late : List W} {p : Phase} {s : Pg W}
    (h : InPhase d a before late p s) :
    (s.commitStep block).2.durable = s.durable ∧ (s.commitStep block).2.acked = s.acked ∧
      if p.commitRaises then ∃ e, (s.commitStep block).1 = .error e
      else (s.commitStep block).1 = .ok () ∧ (s.commitStep block).2.conn.closed = false ∧
        (s.commitStep block).2.conn.inTxn = false := by
  have hc := h.conn
  cases p with
  | aborted =>
    obtain ⟨h1, h2, h3, h4, h5⟩ := hc
    simp [Pg.commitStep, h1, h2, h3, h4, h5, Phase.commitRaises, Pg.withConn, Conn.ended]
  | cut =>
    obtain ⟨h1, h2, h3, h4⟩ := hc
    simp [Pg.commitStep, h1, h2, h3, h4, Phase.commitRaises, Pg.withConn]
  | cutIdle =>
    obtain ⟨h1, h2, h3, h4⟩ := hc
    simp [Pg.commitStep, h2, h4, Phase.commitRaises]
  | stranded =>
    have h1 : s.conn.closed = true := hc
    simp [Pg.commitStep, h1, Phase.commitRaises]
  | replaced =>
    have h1 : s.conn = .fresh := hc
    simp [Pg.commitStep, h1, Conn.fresh, Phase.commitRaises]
  | replacedLost =>
    obtain ⟨h1, h2, h3, h4⟩ := hc
    simp [Pg.commitStep, h2, h3, h4, Phase.commitRaises]

theorem Whole.commit (block : Nat) {d a ws : List W} {began : Bool} {s : Pg W} (h : Whole d a ws began s)
    (hb : began = false → ws = []) :
    (s.commitStep block).1 = .ok () ∧ (s.commitStep block).2.durable = d ++ ws ∧ (s.commitStep block).2.acked = a ++ ws ∧
      (s.commitStep block).2.conn.closed = false ∧ (s.commitStep block).2.conn.inTxn = false := by
  obtain ⟨hc, hd, ha⟩ := h
  cases began with
  | true => simp [Pg.commitStep, hc, hd, ha, Conn.ended]
  | false => simp [Pg.commitStep, hc, hd, ha, hb rfl]

/-! ## The block -/

/-- A connection between blocks. -/
structure Pg.Idle (s : Pg W) : Prop where
  autocommit : s.conn.autocommit = true
  inTxn : s.conn.inTxn = false
  failed : s.conn.failed = false
  pending : s.conn.pending = []

/-- The block can be entered: the connection works or can be replaced. -/
def Pg.Enters (up : Bool) (s : Pg W) : Prop :=
  (s.conn.alive = true ∧ s.conn.closed = false) ∨ up = true

theorem exec_ensureConn_idle {up : Bool} {s : Pg W} (hi : s.Idle) (he : s.Enters up) :
    ∃ s', (ensureConn up).exec s = some (.ok (), s') ∧ s'.conn = .fresh ∧
      s'.durable = s.durable ∧ s'.acked = s.acked := by
  rw [exec_ensureConn]
  by_cases hc : s.conn.closed = true
  · have hup : up = true := by
      rcases he with h | h
      · rw [hc] at h; exact absurd h.2 (by decide)
      · exact h
    exact ⟨s.reconnected, by simp [Pg.executeStep, hc, hup], rfl, rfl, rfl⟩
  · have hc' : s.conn.closed = false := by simpa using hc
    by_cases hl : s.conn.alive = true
    · have hfresh : s.conn = .fresh := by
        obtain ⟨h1, h2, h3, h4⟩ := hi
        rcases hconn : s.conn with ⟨alive, closed, autocommit, inTxn, failed, pending⟩
        simp_all [Conn.fresh]
      rw [probe_fresh hfresh]
      exact ⟨s, rfl, hfresh, rfl, rfl⟩
    · have hl' : s.conn.alive = false := by simpa using hl
      have hup : up = true := by
        rcases he with h | h
        · exact absurd h.1 hl
        · exact h
      exact ⟨(s.withConn s.conn.shut).reconnected, by simp [Pg.executeStep, hc', hl', hup], rfl,
        rfl, rfl⟩

/-- The block's own part of the run: what is left to do after the body's calls. -/
def finish (block : Nat) (sc : Script W) (s : Pg W) : Option (Except DbError Unit × Pg W) :=
  match sc.raises with
  | some e => (closeBlock (.error e) : PgM W Unit).exec s
  | none => (closeBlock (s.commitStep block).1 : PgM W Unit).exec (s.commitStep block).2

theorem exec_storeTransaction {block : Nat} {up : Bool} {s s₀ : Pg W}
    (hens : (ensureConn up).exec s = some (.ok (), s₀)) (hc : s₀.conn = .fresh) (sc : Script W) :
    (storeTransaction block up sc.body).exec s =
      finish block sc (sc.events.foldl (fun s e => e.after s)
        (s₀.withConn { Conn.fresh with autocommit := false })) := by
  rw [storeTransaction, exec_bind, hens]
  simp only [Option.bind_some, thenExec, getAutocommit, exec_bind, exec_query, hc]
  simp only [Pg.withConn, Conn.fresh, Bool.not_true, Bool.false_eq_true, if_false, exec_bind,
    setAutocommit, exec_actE, Pg.setAutocommitStep, hc, Option.bind_some, thenExec, exec_attempt,
    Script.body, exec_events, connCommit]
  unfold finish
  cases sc.raises with
  | some e => rfl
  | none =>
    generalize sc.events.foldl _ _ = s'
    simp only [pure_eq, exec_ret, Option.bind_some, thenExec, exec_bind, exec_actE]
    rcases s'.commitStep block with ⟨r, t⟩
    cases r <;> rfl

theorem allOrNothing_iff {s t : Pg W} {r : Except DbError Unit} {ws : List W}
    (h : t.acked = s.acked ++ ws) :
    AllOrNothing s t r ↔ match r with
      | .ok _ => t.durable = s.durable ++ ws
      | .error _ => t.durable = s.durable := by
  constructor
  · rintro ⟨vs, hv, hr⟩
    have : vs = ws := List.append_cancel_left (hv.symm.trans h)
    rw [← this]
    exact hr
  · exact fun hr => ⟨ws, h, hr⟩

theorem finish_whole {block : Nat} (sc : Script W) {s s' : Pg W} {ws : List W} {began : Bool}
    (h : Whole s.durable s.acked ws began s') (hb : began = false → ws = []) :
    ∃ r t, finish block sc s' = some (r, t) ∧ AllOrNothing s t r := by
  unfold finish
  cases sc.raises with
  | some e =>
    obtain ⟨x, t, he, hd, ha⟩ := exec_closeBlock_error e s'
    refine ⟨_, t, he, (allOrNothing_iff (ha.trans h.acked)).mpr ?_⟩
    exact hd.trans h.durable
  | none =>
    obtain ⟨hok, hd, ha, hc, ht⟩ := h.commit block hb
    obtain ⟨t, he, hd', ha'⟩ := exec_closeBlock_ok hc ht
    refine ⟨_, t, by rw [hok]; exact he, (allOrNothing_iff (ha'.trans ha)).mpr ?_⟩
    exact hd'.trans hd

theorem finish_broken {block : Nat} (sc : Script W) {s s' : Pg W} {before late : List W} {p : Phase}
    (h : InPhase s.durable s.acked before late p s') :
    ∃ r t, finish block sc s' = some (r, t) ∧ (AllOrNothing s t r ↔
      if sc.raises.isSome || p.commitRaises then late = [] else before = []) := by
  have hacked : s'.acked = s.acked ++ (before ++ late) := by rw [h.acked, List.append_assoc]
  have herr {t : Pg W} {x : DbError} (hd : t.durable = s'.durable) (ha : t.acked = s'.acked) :
      AllOrNothing s t (.error x) ↔ late = [] := by
    rw [allOrNothing_iff (ha.trans hacked)]
    show t.durable = s.durable ↔ late = []
    rw [hd, h.durable]
    simp
  unfold finish
  cases sc.raises with
  | some e =>
    obtain ⟨x, t, he, hd, ha⟩ := exec_closeBlock_error e s'
    exact ⟨_, t, he, by simpa using herr hd ha⟩
  | none =>
    obtain ⟨hd, ha, hcase⟩ := commit_after_break block h
    cases hp : p.commitRaises with
    | true =>
      rw [hp, if_pos rfl] at hcase
      obtain ⟨e, hce⟩ := hcase
      obtain ⟨x, t, he, hd', ha'⟩ := exec_closeBlock_error e (s'.commitStep block).2
      exact ⟨_, t, by rw [hce]; exact he, by simpa using herr (hd'.trans hd) (ha'.trans ha)⟩
    | false =>
      rw [hp] at hcase
      obtain ⟨hok, hc, ht⟩ := hcase
      obtain ⟨t, he, hd', ha'⟩ := exec_closeBlock_ok hc ht
      refine ⟨_, t, by rw [hok]; exact he, ?_⟩
      rw [allOrNothing_iff (ha'.trans (ha.trans hacked))]
      show t.durable = s.durable ++ (before ++ late) ↔ _
      rw [hd', hd, h.durable, List.append_cancel_left_eq]
      simp

/-- `transaction()` is all-or-nothing for exactly the safe scripts. -/
theorem transaction_allOrNothing_iff (block : Nat) (up : Bool) (s : Pg W) (sc : Script W) (hi : s.Idle)
    (he : s.Enters up) :
    ∃ r t, (storeTransaction block up sc.body).exec s = some (r, t) ∧
      (AllOrNothing s t r ↔ sc.Safe) := by
  obtain ⟨s₀, hens, hconn, hd₀, ha₀⟩ := exec_ensureConn_idle hi he
  rw [exec_storeTransaction hens hconn]
  have hstart : Whole s.durable s.acked [] false
      (s₀.withConn { Conn.fresh with autocommit := false }) := ⟨rfl, hd₀, by simp [Pg.withConn, ha₀]⟩
  have hsmooth := hstart.run (sc.events.takeWhile Event.smooth) fun e hx => List.mem_takeWhile_imp hx
  have hsplit : sc.events.takeWhile Event.smooth ++ sc.events.dropWhile Event.smooth = sc.events :=
    List.takeWhile_append_dropWhile
  cases hdrop : sc.events.dropWhile Event.smooth with
  | nil =>
    rw [hdrop, List.append_nil] at hsplit
    rw [hsplit] at hsmooth
    have hb : (false || !sc.events.isEmpty) = false → [] ++ sc.events.flatMap Event.write = [] := by
      intro hb
      have : sc.events = [] := by simpa using hb
      simp [this]
    obtain ⟨r, t, hf, hall⟩ := finish_whole sc hsmooth hb
    exact ⟨r, t, hf, by simp [Script.Safe, hdrop, hall]⟩
  | cons b rest =>
    have hbreak : b.smooth = false := by
      have := List.dropWhile_get_zero_not Event.smooth sc.events (by rw [hdrop]; simp)
      simpa [hdrop] using this
    have hrun := (hsmooth.break_ hbreak).run rest
    rw [hdrop] at hsplit
    rw [← hsplit, List.foldl_append, List.foldl_cons]
    obtain ⟨r, t, hf, hall⟩ := finish_broken sc hrun
    refine ⟨r, t, hf, ?_⟩
    rw [hall]
    simp [Script.Safe, hdrop]

/-! ### A swallowed statement error -/

namespace SwallowedError

def start : Pg Nat := { conn := .fresh, generation := 0, durable := [], acked := [], committed := [] }

def writes (n : Nat) : Event Nat := .call ⟨some n, true⟩ true

def violation : Event Nat := .call ⟨some 0, false⟩ true

/-- The body catches the error of its second statement and goes on. -/
def script : Script Nat := { events := [writes 1, violation, writes 2], raises := none }

/-- Nothing was written before the error. -/
def harmless : Script Nat := { events := [violation, writes 2], raises := none }

theorem idle_start : start.Idle := ⟨rfl, rfl, rfl, rfl⟩

def afterwards : Pg Nat :=
  { conn := .fresh, generation := 1, durable := [2], acked := [1, 2], committed := [0] }

end SwallowedError

open SwallowedError in
/-- The block is left normally, its first `INSERT` is gone and its last one is durable. -/
theorem transaction_loses_write :
    start.Idle ∧ start.Enters true ∧
      (storeTransaction 0 true script.body).exec start = some (.ok (), afterwards) ∧
      ¬ AllOrNothing start afterwards (.ok ()) := by
  refine ⟨idle_start, .inr rfl, by decide, ?_⟩
  rintro ⟨ws, ha, hd⟩
  have hws : [1, 2] = ws := ha
  have hd' : [2] = ws := hd
  rw [← hws] at hd'
  exact absurd hd' (by decide)

open SwallowedError in
theorem transaction_allOrNothing_harmless :
    harmless.Safe ∧ ∃ r t, (storeTransaction 0 true harmless.body).exec start = some (r, t) ∧
      (AllOrNothing start t r ↔ harmless.Safe) :=
  ⟨by simp [harmless, Script.Safe, violation, writes, Event.smooth, Phase.afterBreak, Phase.atEnd,
      Phase.next, Phase.commitRaises],
    transaction_allOrNothing_iff 0 true start harmless idle_start (.inr rfl)⟩

end Lumogis
