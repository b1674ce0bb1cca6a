import Lumogis.PostgresStore
import Lumogis.Lib.Rely
import Mathlib.Tactic.SplitIfs

/-!
# SharedConnection

One `PostgresStore` under several threads. One caller runs blocks, of `transaction()` or of
`merge_entities`; any number of others call `execute` and `fetch_one`. All of them use the one
connection, and `autocommit` is a flag of that connection.

Every write carries the block it was issued in, or none. The store is `Sound` when the writes
acknowledged outside a block are exactly the durable ones outside a block, and no write of a block
is durable before the block issued its `COMMIT`, which it does after its last statement.

A call of an outside caller that lands inside a block becomes part of the block's transaction, so
the store is not `Sound` over all interleavings. It is over those where such calls keep out of the
blocks and no call finds the connection closed (`_ensure_conn` closes it when it finds the
transaction aborted).
-/

namespace Lumogis

open Prog Relation

/-- A write and the block it is issued in. -/
structure Entry (V : Type) where
  block : Option Nat
  value : V
  deriving DecidableEq

def Entry.outside {V : Type} (e : Entry V) : Bool := e.block.isNone

variable {V : Type}

def Stmt.tag (block : Option Nat) (q : Stmt V) : Stmt (Entry V) :=
  ⟨q.write.map (Entry.mk block), q.ok⟩

structure BlockCall (V : Type) where
  /-- `merge_entities` makes some of its calls on the connection it holds. -/
  held : Bool
  up : Bool
  stmt : Stmt V
  /-- The body goes on when the call raises. -/
  caught : Bool

inductive BlockKind where
  | transaction (up : Bool)
  | merge

structure Block (V : Type) where
  kind : BlockKind
  calls : List (BlockCall V)
  /-- The exception with which the body ends, if it does. -/
  raises : Option DbError

def BlockCall.execute (block : Nat) (held : Option Nat) (c : BlockCall V) : PgM (Entry V) Unit :=
  match held, c.held with
  | some generation, true => heldExecute generation (c.stmt.tag (some block))
  | _, _ => storeExecute c.up (c.stmt.tag (some block))

def BlockCall.run (block : Nat) (held : Option Nat) (c : BlockCall V) : PgM (Entry V) Unit :=
  if c.caught then
    (c.execute block held).tryCatch fun _ => pure ()
  else
    c.execute block held

def Block.body (block : Nat) (b : Block V) (held : Option Nat) : PgM (Entry V) Unit := do
  forEach (BlockCall.run block held) b.calls
  match b.raises with
  | none => pure ()
  | some e => .raise e

def Block.run (block : Nat) (b : Block V) : PgM (Entry V) Unit :=
  match b.kind with
  | .transaction up => storeTransaction block up (b.body block none)
  | .merge => mergeBlock block fun held => b.body block (some held)

/-- The caller of the blocks; it goes on after a block that raised. -/
def blockCaller (blocks : List (Block V)) : PgM (Entry V) Unit :=
  forEach (fun b => (b.1.run b.2).tryCatch fun _ => pure ()) blocks.zipIdx

/-- A caller outside any block. One that gives up after an error is one that is not scheduled
any more. -/
def outsideCaller (calls : List (Bool × Stmt V)) : PgM (Entry V) Unit :=
  forEach (fun c => (storeExecute c.1 (c.2.tag none)).tryCatch fun _ => pure ()) calls

def callers {κ : Type} (blocks : List (Block V)) (calls : κ → List (Bool × Stmt V)) :
    Option κ → PgM (Entry V) Unit
  | none => blockCaller blocks
  | some j => outsideCaller (calls j)

def Sound (s : Pg (Entry V)) : Prop :=
  s.durable.filter Entry.outside = s.acked.filter Entry.outside ∧
    ∀ e ∈ s.durable, ∀ n, e.block = some n → n ∈ s.committed

/-- A store whose connection has just been opened. -/
def Pg.opened : Pg V :=
  { conn := .fresh, generation := 0, durable := [], acked := [], committed := [] }

/-- The call finds the connection open, and with no block on it unless the caller is the block's. -/
def Undisturbed {κ : Type} (i : Option κ) (s _t : Pg (Entry V)) : Prop :=
  s.conn.closed = false ∧ (i.isSome → s.conn.autocommit = true)

instance {κ : Type} (i : Option κ) (s t : Pg (Entry V)) : Decidable (Undisturbed i s t) :=
  inferInstanceAs (Decidable (_ ∧ _))

/-! ## What a run keeps -/

structure Good (s : Pg (Entry V)) : Prop where
  sound : Sound s
  alive : s.conn.alive = !s.conn.closed
  idle : s.conn.autocommit = true → s.conn.inTxn = false ∧ s.conn.failed = false ∧ s.conn.pending = []

/-- The block caller is inside block `n`, on the connection of generation `g`. -/
structure InBlock (n g : Nat) (s : Pg (Entry V)) : Prop where
  good : Good s
  off : s.conn.autocommit = false
  generation : s.generation = g
  own : ∀ e ∈ s.conn.pending, e.block = some n
  begun : s.conn.inTxn = false → s.conn.pending = [] ∧ s.conn.failed = false

/-- A move of an outside caller. -/
def OutsideMove (s t : Pg (Entry V)) : Prop :=
  Good s → Good t ∧ t.generation = s.generation ∧ t.conn = s.conn ∧
    (s.conn.autocommit = false → t = s)

def BlockMove (s t : Pg (Entry V)) : Prop := Good s → Good t

/-- The block caller is between two blocks. -/
def Between (s : Pg (Entry V)) : Prop :=
  Good s ∧ (s.conn.closed = false → s.conn.autocommit = true)

theorem outsideMove_refl (s : Pg (Entry V)) : OutsideMove s s :=
  fun h => ⟨h, rfl, rfl, fun _ => rfl⟩

theorem OutsideMove.block {s t : Pg (Entry V)} (h : OutsideMove s t) : BlockMove s t :=
  fun hs => (h hs).1

theorem Good.stable_block : Stable BlockMove (Good (V := V)) := fun _ _ h hs => h hs

theorem InBlock.stable (n g : Nat) : Stable OutsideMove (InBlock (V := V) n g) := by
  intro s t h hs
  obtain ⟨-, -, -, hsame⟩ := h hs.good
  rw [hsame hs.off]
  exact hs

theorem InBlock.stable_idle (n g : Nat) :
    Stable OutsideMove fun s : Pg (Entry V) => InBlock n g s ∧ s.conn.inTxn = false := by
  intro s t h hs
  obtain ⟨-, -, -, hsame⟩ := h hs.1.good
  rw [hsame hs.1.off]
  exact hs

theorem Between.stable : Stable OutsideMove (Between (V := V)) := by
  intro s t h hs
  obtain ⟨hgood, -, hconn, -⟩ := h hs.1
  exact ⟨hgood, by rw [hconn]; exact hs.2⟩

/-! ### Calls outside a block -/

theorem Sound.write {s : Pg (Entry V)} (h : Sound s) (c : Conn (Entry V)) (q : Stmt V) :
    Sound { s with
      conn := c
      durable := s.durable ++ (q.tag none).write.toList
      acked := s.acked ++ (q.tag none).write.toList } := by
  obtain ⟨hd, hc⟩ := h
  refine ⟨by simp only [List.filter_append, hd], fun e he n hn => ?_⟩
  rcases List.mem_append.mp he with he | he
  · exact hc e he n hn
  · have hout : e.block = none := by
      cases hq : q.write with
      | none => simp [Stmt.tag, hq] at he
      | some v => simp [Stmt.tag, hq] at he; rw [he]
    rw [hout] at hn
    cases hn

theorem Good.execute_outside {s : Pg (Entry V)} (h : Good s) (hcl : s.conn.closed = false)
    (hauto : s.conn.autocommit = true) (q : Stmt V) :
    OutsideMove s (s.executeStep (q.tag none)).2 := by
  have halive : s.conn.alive = true := by rw [h.alive, hcl]; rfl
  simp only [Pg.executeStep, hcl, halive, hauto, if_true, Bool.false_eq_true, if_false,
    Bool.not_true]
  split_ifs
  · intro _
    exact ⟨⟨h.sound.write s.conn q, h.alive, h.idle⟩, rfl, rfl, fun hoff => by simp [hauto] at hoff⟩
  · exact outsideMove_refl s

theorem Good.probe_outside {s : Pg (Entry V)} (h : Good s) (hcl : s.conn.closed = false)
    (hauto : s.conn.autocommit = true) : s.executeStep probe = (.ok (), s) := by
  have halive : s.conn.alive = true := by rw [h.alive, hcl]; rfl
  simp [Pg.executeStep, hcl, halive, hauto, probe]

/-! ### Calls inside a block -/

theorem InBlock.execute {n g : Nat} {s : Pg (Entry V)} (h : InBlock n g s)
    (hcl : s.conn.closed = false) {q : Stmt (Entry V)} (hq : ∀ e ∈ q.write, e.block = some n) :
    InBlock n g (s.executeStep q).2 := by
  have halive : s.conn.alive = true := by rw [h.good.alive, hcl]; rfl
  have hfilter : q.write.toList.filter Entry.outside = [] := by
    cases hw : q.write with
    | none => rfl
    | some e => simp [Entry.outside, hq e (by simp [hw])]
  obtain ⟨⟨⟨hd, hc⟩, hal, hidle⟩, hoff, hgen, hown, hbegun⟩ := h
  simp only [Pg.executeStep, hcl, halive, hoff, Bool.false_eq_true, if_false, Bool.not_true]
  split_ifs with hfailed hok
  · exact ⟨⟨⟨hd, hc⟩, hal, hidle⟩, hoff, hgen, hown, hbegun⟩
  · refine ⟨⟨⟨by simp [hd, hfilter], hc⟩, rfl, by simp⟩, rfl, hgen, ?_, by simp⟩
    intro e he
    rcases List.mem_append.mp he with he | he
    · exact hown e he
    · exact hq e (by simpa using he)
  · exact ⟨⟨⟨hd, hc⟩, rfl, by simp [Pg.withConn]⟩, rfl, hgen, hown, by simp [Pg.withConn]⟩

theorem InBlock.close {n g : Nat} {s : Pg (Entry V)} (h : InBlock n g s) :
    InBlock n g (s.withConn s.conn.shut) :=
  ⟨⟨h.good.sound, rfl, fun hon => by simp [Pg.withConn, Conn.shut, Conn.dropped, h.off] at hon⟩,
    h.off, h.generation, by simp [Pg.withConn, Conn.shut, Conn.dropped],
    fun hb => ⟨rfl, (h.begun hb).2⟩⟩

/-- `COMMIT` succeeds, as a rollback when the transaction was aborted. -/
theorem InBlock.commit {n g : Nat} {s : Pg (Entry V)} (h : InBlock n g s)
    (hcl : s.conn.closed = false) :
    (s.commitStep n).1 = .ok () ∧ InBlock n g (s.commitStep n).2 ∧
      (s.commitStep n).2.conn.inTxn = false := by
  have halive : s.conn.alive = true := by rw [h.good.alive, hcl]; rfl
  obtain ⟨⟨⟨hd, hc⟩, hal, hidle⟩, hoff, hgen, hown, hbegun⟩ := h
  have hc' : ∀ e ∈ s.durable, ∀ m, e.block = some m → m ∈ s.committed ++ [n] :=
    fun e he m hm => List.mem_append_left _ (hc e he m hm)
  have hpending : s.conn.pending.filter Entry.outside = [] := by
    refine List.filter_eq_nil_iff.mpr fun e he => ?_
    simp [Entry.outside, hown e he]
  simp only [Pg.commitStep, hcl, halive, hoff, Bool.false_eq_true, if_false, Bool.not_true,
    Bool.false_or]
  by_cases hin : s.conn.inTxn = true
  · by_cases hf : s.conn.failed = true
    · simp only [hin, hf, Bool.not_true, Bool.false_eq_true, if_false, if_true]
      exact ⟨trivial, ⟨⟨⟨hd, hc'⟩, hal, by simp [Pg.withConn, Conn.ended, hoff]⟩, hoff, hgen,
        by simp [Pg.withConn, Conn.ended], fun _ => ⟨rfl, rfl⟩⟩, rfl⟩
    · simp only [hin, hf, Bool.not_true, Bool.false_eq_true, if_false]
      refine ⟨trivial, ⟨⟨⟨by simp [hd, hpending], ?_⟩, hal, by simp [Conn.ended, hoff]⟩, hoff, hgen,
        by simp [Conn.ended], fun _ => ⟨rfl, rfl⟩⟩, rfl⟩
      intro e he m hm
      rcases List.mem_append.mp he with he | he
      · exact hc' e he m hm
      · rw [hown e he] at hm
        cases hm
        simp
  · have hin' : s.conn.inTxn = false := by simpa using hin
    simp only [hin', Bool.not_false, if_true]
    exact ⟨trivial, ⟨⟨⟨hd, hc'⟩, hal, hidle⟩, hoff, hgen, hown, hbegun⟩, trivial⟩

theorem InBlock.rollback {n g : Nat} {s : Pg (Entry V)} (h : InBlock n g s)
    (hcl : s.conn.closed = false) :
    s.rollbackStep.1 = .ok () ∧ InBlock n g s.rollbackStep.2 ∧
      s.rollbackStep.2.conn.inTxn = false := by
  have halive : s.conn.alive = true := by rw [h.good.alive, hcl]; rfl
  simp only [Pg.rollbackStep, hcl, halive, h.off, Bool.false_eq_true, if_false, Bool.not_true,
    Bool.false_or]
  by_cases hin : s.conn.inTxn = true
  · simp only [hin, Bool.not_true, Bool.false_eq_true, if_false]
    exact ⟨trivial, ⟨⟨h.good.sound, h.good.alive, by simp [Pg.withConn, Conn.ended, h.off]⟩, h.off,
      h.generation, by simp [Pg.withConn, Conn.ended], fun _ => ⟨rfl, rfl⟩⟩, rfl⟩
  · have hin' : s.conn.inTxn = false := by simpa using hin
    simp only [hin', Bool.not_false, if_true]
    exact ⟨trivial, h, trivial⟩

theorem InBlock.leave {n g : Nat} {s : Pg (Entry V)} (h : InBlock n g s)
    (hcl : s.conn.closed = false) (hin : s.conn.inTxn = false) :
    (s.setAutocommitStep true).1 = .ok () ∧ Between (s.setAutocommitStep true).2 := by
  obtain ⟨hpending, hfailed⟩ := h.begun hin
  have halive : s.conn.alive = true := by rw [h.good.alive, hcl]; rfl
  simp only [Pg.setAutocommitStep, hcl, hin, Bool.false_eq_true, if_false]
  exact ⟨trivial, ⟨h.good.sound, halive, fun _ => ⟨rfl, hfailed, hpending⟩⟩, fun _ => rfl⟩

theorem Between.enter (n : Nat) {s : Pg (Entry V)} (h : Between s) (hcl : s.conn.closed = false) :
    (s.setAutocommitStep false).1 = .ok () ∧
      InBlock n s.generation (s.setAutocommitStep false).2 := by
  obtain ⟨hgood, hauto⟩ := h
  obtain ⟨hin, hfailed, hpending⟩ := hgood.idle (hauto hcl)
  have halive : s.conn.alive = true := by rw [hgood.alive, hcl]; rfl
  simp only [Pg.setAutocommitStep, hcl, hin, Bool.false_eq_true, if_false]
  exact ⟨trivial, ⟨hgood.sound, halive, fun hon => by simp [Pg.withConn] at hon⟩, rfl, rfl,
    by simp [Pg.withConn, hpending], fun _ => ⟨hpending, hfailed⟩⟩

/-! ### The block caller -/

section BlockCaller

variable {C : Pg (Entry V) → Pg (Entry V) → Prop}

theorem InBlock.sat_actE {n g : Nat} {Q : Except DbError Unit → Pg (Entry V) → Prop}
    {f : Pg (Entry V) → Except DbError Unit × Pg (Entry V)} {s : Pg (Entry V)}
    (hC : ∀ s t, C s t → s.conn.closed = false) (h : InBlock n g s)
    (hf : ∀ t, InBlock n g t → t.conn.closed = false →
      Good (f t).2 ∧ ∀ t', ReflTransGen OutsideMove (f t).2 t' → Q (f t).1 t') :
    Sat OutsideMove C BlockMove Q (actE .operational f) s := by
  refine Sat.actE (InBlock.stable n g) h fun t ht hc => ?_
  obtain ⟨hgood, hq⟩ := hf t ht (hC _ _ hc)
  exact ⟨fun _ => hgood, hq⟩

theorem InBlock.sat_statement {n g : Nat} {q : Stmt (Entry V)}
    (hC : ∀ s t, C s t → s.conn.closed = false) (hq : ∀ e ∈ q.write, e.block = some n)
    {s : Pg (Entry V)} (h : InBlock n g s) :
    Sat OutsideMove C BlockMove (fun _ => InBlock n g) (cursorExecute q) s := by
  refine InBlock.sat_actE hC h fun t ht hcl => ?_
  have hnext := ht.execute hcl hq
  exact ⟨hnext.good, fun t' ht' => (InBlock.stable n g).rtc ht' hnext⟩

theorem InBlock.sat_heldExecute {n g : Nat} {q : Stmt (Entry V)}
    (hC : ∀ s t, C s t → s.conn.closed = false) (hq : ∀ e ∈ q.write, e.block = some n)
    {s : Pg (Entry V)} (h : InBlock n g s) :
    Sat OutsideMove C BlockMove (fun _ => InBlock n g) (heldExecute g q) s := by
  refine InBlock.sat_actE hC h fun t ht hcl => ?_
  rw [heldStep, if_pos ht.generation]
  have hnext := ht.execute hcl hq
  exact ⟨hnext.good, fun t' ht' => (InBlock.stable n g).rtc ht' hnext⟩

/-- After `connClose` no call of a disturbed-free run follows: the connection stays closed. -/
theorem InBlock.sat_reconnect {n g : Nat} (up : Bool)
    (hC : ∀ s t, C s t → s.conn.closed = false) {s : Pg (Entry V)} (h : InBlock n g s) :
    Sat OutsideMove C BlockMove (fun _ => InBlock n g)
      (do let _ ← connClose.attempt; connect up : PgM (Entry V) Unit) s := by
  have hshut : Stable OutsideMove fun s : Pg (Entry V) => InBlock n g s ∧ s.conn.closed = true := by
    intro s t hst hs
    obtain ⟨-, -, hconn, -⟩ := hst hs.1.good
    exact ⟨InBlock.stable n g s t hst hs.1, by rw [hconn]; exact hs.2⟩
  refine Sat.bind (Sat.attempt (Sat.act (InBlock.stable n g) h fun t ht _ => ?_))
  refine ⟨fun _ => ht.close.good, fun t' ht' => ?_⟩
  have hclosed := hshut.rtc ht' ⟨ht.close, rfl⟩
  show Sat OutsideMove C BlockMove (fun _ => InBlock n g) (connect up) t'
  refine Sat.actE hshut hclosed fun v hv hc => ?_
  have hopen := hC _ _ hc
  rw [hv.2] at hopen
  cases hopen

theorem InBlock.sat_storeExecute {n g : Nat} (up : Bool) {q : Stmt (Entry V)}
    (hC : ∀ s t, C s t → s.conn.closed = false) (hq : ∀ e ∈ q.write, e.block = some n)
    {s : Pg (Entry V)} (h : InBlock n g s) :
    Sat OutsideMove C BlockMove (fun _ => InBlock n g) (storeExecute up q) s := by
  have hprobe : Sat OutsideMove C BlockMove (fun _ => InBlock n g) (ensureConn up) s := by
    refine Sat.tryCatch ((InBlock.sat_statement hC (by simp [probe]) h).mono fun r t ht => ?_)
      fun _ => InBlock.stable n g
    cases r with
    | ok a => exact ht
    | error e => exact InBlock.sat_reconnect up hC ht
  exact Sat.seq hprobe (fun _ t ht => InBlock.sat_statement hC hq ht) fun _ _ ht => ht

theorem Stmt.tag_own (n : Nat) (q : Stmt V) : ∀ e ∈ (q.tag (some n)).write, e.block = some n := by
  intro e he
  obtain ⟨v, -, rfl⟩ := Option.map_eq_some_iff.mp he
  rfl

theorem InBlock.sat_call {n g : Nat} {held : Option Nat} (hheld : ∀ g' ∈ held, g' = g)
    (hC : ∀ s t, C s t → s.conn.closed = false) (c : BlockCall V) {s : Pg (Entry V)}
    (h : InBlock n g s) :
    Sat OutsideMove C BlockMove (fun _ => InBlock n g) (c.run n held) s := by
  have hcall : Sat OutsideMove C BlockMove (fun _ => InBlock n g) (c.execute n held) s := by
    unfold BlockCall.execute
    cases held with
    | none => exact InBlock.sat_storeExecute c.up hC (Stmt.tag_own n c.stmt) h
    | some generation =>
      rw [hheld generation rfl]
      cases c.held with
      | false => exact InBlock.sat_storeExecute c.up hC (Stmt.tag_own n c.stmt) h
      | true => exact InBlock.sat_heldExecute hC (Stmt.tag_own n c.stmt) h
  rw [BlockCall.run]
  by_cases hcaught : c.caught = true
  · rw [if_pos hcaught]
    refine Sat.tryCatch (hcall.mono fun r t ht => ?_) fun _ => InBlock.stable n g
    cases r with
    | ok a => exact ht
    | error e => exact Sat.ret (InBlock.stable n g) ht fun _ h => h
  · rw [if_neg hcaught]
    exact hcall

theorem InBlock.sat_body {n g : Nat} {held : Option Nat} (hheld : ∀ g' ∈ held, g' = g)
    (hC : ∀ s t, C s t → s.conn.closed = false) (b : Block V) {s : Pg (Entry V)}
    (h : InBlock n g s) :
    Sat OutsideMove C BlockMove (fun _ => InBlock n g) (b.body n held) s := by
  have hcalls : Sat OutsideMove C BlockMove (fun _ => InBlock n g)
      (forEach (BlockCall.run n held) b.calls) s := by
    refine Sat.forEach (InBlock.stable n g) h (fun c _ t ht => ?_) fun _ h => h
    refine (InBlock.sat_call hheld hC c ht).mono fun r t' ht' => ?_
    cases r <;> exact ht'
  refine Sat.seq hcalls (fun _ t ht => ?_) fun _ _ ht => ht
  cases b.raises with
  | none => exact Sat.ret (InBlock.stable n g) ht fun _ h => h
  | some e => exact Sat.raise (InBlock.stable n g) ht fun _ h => h

/-! ### Entering and leaving a block

`f` is the step on the store's connection or, in `merge_entities`, on the held one; inside the
block that is the same step. -/

variable {n g : Nat} {f : Pg (Entry V) → Except DbError Unit × Pg (Entry V)} {s : Pg (Entry V)}

theorem InBlock.heldStep {h : Pg (Entry V) → Except DbError Unit × Pg (Entry V)}
    (hs : InBlock n g s) : heldStep g h s = h s := by
  rw [Lumogis.heldStep, if_pos hs.generation]

theorem InBlock.sat_commit {Q : Except DbError Unit → Pg (Entry V) → Prop}
    (hC : ∀ s t, C s t → s.conn.closed = false) (hf : ∀ t, InBlock n g t → f t = t.commitStep n)
    (h : InBlock n g s) (hQ : ∀ t, InBlock n g t → t.conn.inTxn = false → Q (.ok ()) t) :
    Sat OutsideMove C BlockMove Q (actE .operational f) s := by
  refine InBlock.sat_actE hC h fun t ht hcl => ?_
  obtain ⟨hok, hin, hend⟩ := ht.commit hcl
  rw [hf t ht, hok]
  refine ⟨hin.good, fun t' ht' => ?_⟩
  obtain ⟨hin', hend'⟩ := (InBlock.stable_idle n g).rtc ht' ⟨hin, hend⟩
  exact hQ t' hin' hend'

theorem InBlock.sat_rollback {Q : Except DbError Unit → Pg (Entry V) → Prop}
    (hC : ∀ s t, C s t → s.conn.closed = false) (hf : ∀ t, InBlock n g t → f t = t.rollbackStep)
    (h : InBlock n g s) (hQ : ∀ t, InBlock n g t → t.conn.inTxn = false → Q (.ok ()) t) :
    Sat OutsideMove C BlockMove Q (actE .operational f) s := by
  refine InBlock.sat_actE hC h fun t ht hcl => ?_
  obtain ⟨hok, hin, hend⟩ := ht.rollback hcl
  rw [hf t ht, hok]
  refine ⟨hin.good, fun t' ht' => ?_⟩
  obtain ⟨hin', hend'⟩ := (InBlock.stable_idle n g).rtc ht' ⟨hin, hend⟩
  exact hQ t' hin' hend'

theorem InBlock.sat_leave {Q : Except DbError Unit → Pg (Entry V) → Prop}
    (hC : ∀ s t, C s t → s.conn.closed = false)
    (hf : ∀ t, InBlock n g t → f t = t.setAutocommitStep true) (h : InBlock n g s)
    (hend : s.conn.inTxn = false) (hQ : ∀ t, Between t → Q (.ok ()) t) :
    Sat OutsideMove C BlockMove Q (actE .operational f) s := by
  refine Sat.actE (InBlock.stable_idle n g) ⟨h, hend⟩ fun t ht hc => ?_
  obtain ⟨hok, hout⟩ := ht.1.leave (hC _ _ hc) ht.2
  rw [hf t ht.1, hok]
  exact ⟨fun _ => hout.1, fun t' ht' => hQ t' (Between.stable.rtc ht' hout)⟩

theorem Between.sat_enter {Q : Except DbError Unit → Pg (Entry V) → Prop}
    (hC : ∀ s t, C s t → s.conn.closed = false) {P : Pg (Entry V) → Prop}
    (hst : Stable OutsideMove P) (hP : ∀ t, P t → Between t ∧ f t = t.setAutocommitStep false)
    (h : P s) (hQ : ∀ t t', P t → InBlock n t.generation t' → Q (.ok ()) t') :
    Sat OutsideMove C BlockMove Q (actE .operational f) s := by
  refine Sat.actE hst h fun t ht hc => ?_
  obtain ⟨hout, hft⟩ := hP t ht
  obtain ⟨hok, hin⟩ := hout.enter n (hC _ _ hc)
  rw [hft, hok]
  exact ⟨fun _ => hin.good, fun t' ht' => hQ t t' ht ((InBlock.stable n _).rtc ht' hin)⟩

/-- The body and the `COMMIT` of a block. -/
theorem InBlock.sat_work {held : Option Nat} (hheld : ∀ g' ∈ held, g' = g)
    (hC : ∀ s t, C s t → s.conn.closed = false) (hf : ∀ t, InBlock n g t → f t = t.commitStep n)
    (b : Block V) (h : InBlock n g s) {Q : Except DbError Unit → Pg (Entry V) → Prop}
    (hok : ∀ t, InBlock n g t → t.conn.inTxn = false → Q (.ok ()) t)
    (herr : ∀ e t, InBlock n g t → Q (.error e) t) :
    Sat OutsideMove C BlockMove Q
      (do let a ← b.body n held; actE .operational f; pure a : PgM (Entry V) Unit) s := by
  refine Sat.seq (InBlock.sat_body hheld hC b h) (fun _ t ht => ?_) herr
  refine Sat.bind (InBlock.sat_commit hC hf ht fun t' ht' hend => ?_)
  exact Sat.ret (InBlock.stable_idle n g) ⟨ht', hend⟩ fun v hv => hok v hv.1 hv.2

theorem InBlock.sat_closeBlock {r : Except DbError Unit}
    (hC : ∀ s t, C s t → s.conn.closed = false) (h : InBlock n g s)
    (hr : r = .ok () → s.conn.inTxn = false) :
    Sat OutsideMove C BlockMove (fun _ => Between) (closeBlock r) s := by
  cases r with
  | ok a =>
    refine Sat.bind (InBlock.sat_leave hC (fun _ _ => rfl) h (hr rfl) fun t ht => ?_)
    exact Sat.ret Between.stable ht fun _ h => h
  | error e =>
    refine Sat.bind (Sat.attempt (InBlock.sat_rollback hC (fun _ _ => rfl) h fun t ht hend => ?_))
    refine Sat.bind (InBlock.sat_leave hC (fun _ _ => rfl) ht hend fun t' ht' => ?_)
    exact Sat.raise Between.stable ht' fun _ h => h

theorem Between.sat_ensureConn {Q : Except DbError Unit → Pg (Entry V) → Prop} (up : Bool)
    (hC : ∀ s t, C s t → s.conn.closed = false) (h : Between s)
    (hQ : ∀ t, Between t → Q (.ok ()) t) :
    Sat OutsideMove C BlockMove Q (ensureConn up) s := by
  refine Sat.bind (Sat.attempt (Sat.actE Between.stable h fun t ht hc => ?_))
  have hcl := hC _ _ hc
  rw [ht.1.probe_outside hcl (ht.2 hcl)]
  refine ⟨fun h => h, fun t' ht' => ?_⟩
  exact Sat.ret Between.stable (Between.stable.rtc ht' ht) hQ

theorem Between.sat_transaction (up : Bool) (hC : ∀ s t, C s t → s.conn.closed = false)
    (b : Block V) (h : Between s) :
    Sat OutsideMove C BlockMove (fun _ => Between) (storeTransaction n up (b.body n none)) s := by
  refine Sat.bind (Between.sat_ensureConn up hC h fun t ht => ?_)
  refine Sat.query_bind Between.stable ht (fun _ h => h) fun t ht => ?_
  cases hauto : t.conn.autocommit with
  | false => exact Sat.raise Between.stable ht fun _ h => h
  | true =>
    refine Sat.bind (Between.sat_enter (n := n) hC Between.stable (fun t ht => ⟨ht, rfl⟩) ht
      fun t t' ht ht' => ?_)
    refine Sat.bind (Sat.attempt (InBlock.sat_work (by simp) hC (fun _ _ => rfl) b ht' ?_ ?_))
    · exact fun v hv hend => InBlock.sat_closeBlock hC hv fun _ => hend
    · exact fun e v hv => InBlock.sat_closeBlock hC hv fun h => by cases h

theorem InBlock.sat_closeMerge {r : Except DbError Unit}
    (hC : ∀ s t, C s t → s.conn.closed = false) (h : InBlock n g s)
    (hr : r = .ok () → s.conn.inTxn = false) :
    Sat OutsideMove C BlockMove (fun _ => Between) (closeMerge g r) s := by
  cases r with
  | ok a =>
    refine Sat.bind (InBlock.sat_leave hC (fun _ h => h.heldStep) h (hr rfl) fun t ht => ?_)
    exact Sat.ret Between.stable ht fun _ h => h
  | error e =>
    refine Sat.seq (P := Between) (Sat.tryFinally ?_ fun _ => Between.stable)
      (fun _ t ht => Sat.raise Between.stable ht fun _ h => h) fun _ _ ht => ht
    refine InBlock.sat_rollback hC (fun _ h => h.heldStep) h fun t ht hend => ?_
    exact InBlock.sat_leave hC (fun _ h => h.heldStep) ht hend fun _ h => h

theorem Between.sat_merge (hC : ∀ s t, C s t → s.conn.closed = false) (b : Block V)
    (h : Between s) :
    Sat OutsideMove C BlockMove (fun _ => Between)
      (mergeBlock n fun held => b.body n (some held)) s := by
  refine Sat.query_bind Between.stable h (fun _ h => h) fun t ht => ?_
  have hst : Stable OutsideMove fun v : Pg (Entry V) => Between v ∧ v.generation = t.generation := by
    intro v w hvw hv
    obtain ⟨-, hgen, -, -⟩ := hvw hv.1.1
    exact ⟨Between.stable v w hvw hv.1, by rw [hgen]; exact hv.2⟩
  refine Sat.bind (Sat.bind (Sat.attempt (Between.sat_enter (n := n) hC hst
    (fun v hv => ⟨hv.1, by rw [Lumogis.heldStep, if_pos hv.2]⟩) ⟨ht, rfl⟩ fun v w hv hw => ?_)))
  rw [hv.2] at hw
  refine Sat.ret (InBlock.stable n t.generation) hw fun x hx => ?_
  refine Sat.bind (Sat.attempt (InBlock.sat_work (by simp) hC (fun _ h => h.heldStep) b hx ?_ ?_))
  · exact fun y hy hend => InBlock.sat_closeMerge hC hy fun _ => hend
  · exact fun e y hy => InBlock.sat_closeMerge hC hy fun h => by cases h

theorem Between.sat_blockCaller (hC : ∀ s t, C s t → s.conn.closed = false)
    (blocks : List (Block V)) (h : Between s) :
    Sat OutsideMove C BlockMove (fun _ => Between) (blockCaller blocks) s := by
  refine Sat.forEach Between.stable h (fun b _ t ht => ?_) fun _ h => h
  have hrun : Sat OutsideMove C BlockMove (fun _ => Between) (b.1.run b.2) t := by
    unfold Block.run
    cases b.1.kind with
    | transaction up => exact Between.sat_transaction up hC b.1 ht
    | merge => exact Between.sat_merge hC b.1 ht
  refine Sat.tryCatch (hrun.mono fun r v hv => ?_) fun _ => Between.stable
  cases r with
  | ok a => exact hv
  | error e => exact Sat.ret Between.stable hv fun _ h => h

end BlockCaller

/-! ### The other callers -/

theorem Good.sat_outsideCaller {C : Pg (Entry V) → Pg (Entry V) → Prop}
    (hC : ∀ s t, C s t → s.conn.closed = false ∧ s.conn.autocommit = true)
    (calls : List (Bool × Stmt V)) {s : Pg (Entry V)} (h : Good s) :
    Sat BlockMove C OutsideMove (fun _ _ => True) (outsideCaller calls) s := by
  refine Sat.forEach Good.stable_block h (fun c _ t ht => ?_) fun _ _ => trivial
  have hensure : Sat BlockMove C OutsideMove (fun _ => Good) (ensureConn c.1) t := by
    refine Sat.bind (Sat.attempt (Sat.actE Good.stable_block ht fun v hv hc => ?_))
    obtain ⟨hcl, hauto⟩ := hC _ _ hc
    rw [hv.probe_outside hcl hauto]
    refine ⟨outsideMove_refl v, fun w hw => ?_⟩
    exact Sat.ret Good.stable_block (Good.stable_block.rtc hw hv) fun _ h => h
  have hcall : Sat BlockMove C OutsideMove (fun _ => Good) (storeExecute c.1 (c.2.tag none)) t := by
    refine Sat.seq hensure (fun _ v hv => ?_) fun _ _ h => h
    refine Sat.actE Good.stable_block hv fun w hw hc => ?_
    obtain ⟨hcl, hauto⟩ := hC _ _ hc
    have hmove := hw.execute_outside hcl hauto c.2
    exact ⟨hmove, fun x hx => Good.stable_block.rtc hx (hmove hw).1⟩
  refine Sat.tryCatch (hcall.mono fun r v hv => ?_) fun _ => Good.stable_block
  cases r with
  | ok a => exact hv
  | error e => exact Sat.ret Good.stable_block hv fun _ h => h

/-! ## The main result -/

theorem Good.opened : Good (Pg.opened : Pg (Entry V)) :=
  ⟨⟨rfl, by simp [Pg.opened]⟩, rfl, fun _ => ⟨rfl, rfl, rfl⟩⟩

/-- Whatever the blocks and the other callers do, the store is `Sound` after every run in which
each call finds the connection open and each call from outside finds no block on it. -/
theorem sharedConnection_sound {κ : Type} [DecidableEq κ] (blocks : List (Block V))
    (calls : κ → List (Bool × Stmt V)) {c : Pg (Entry V) × (Option κ → PgM (Entry V) Unit)}
    (h : ReflTransGen (Step Undisturbed) (Pg.opened, callers blocks calls) c) : Sound c.1 := by
  let R : Option κ → Pg (Entry V) → Pg (Entry V) → Prop := fun i =>
    if i = none then OutsideMove else BlockMove
  let G : Option κ → Pg (Entry V) → Pg (Entry V) → Prop := fun i =>
    if i = none then BlockMove else OutsideMove
  have hblock : ∀ i s t, G i s t → BlockMove s t := by
    intro i s t hG
    cases i with
    | none => exact hG
    | some j => exact OutsideMove.block hG
  have hrg : ∀ i j, i ≠ j → ∀ s t, G i s t → R j s t := by
    intro i j hij s t hG
    cases j with
    | some j => exact hblock i s t hG
    | none =>
      cases i with
      | none => exact absurd rfl hij
      | some i => exact hG
  have hthreads : ∀ i, Sat (R i) (Undisturbed i) (G i) (fun _ _ => True)
      (callers blocks calls i) Pg.opened := by
    intro i
    cases i with
    | none =>
      have hsat := Between.sat_blockCaller (C := Undisturbed (none : Option κ))
        (fun s t hc => hc.1) blocks ⟨Good.opened, fun _ => rfl⟩
      exact hsat.mono fun _ _ _ => trivial
    | some j =>
      exact Good.sat_outsideCaller (C := Undisturbed (some j)) (fun s t hc => ⟨hc.1, hc.2 rfl⟩)
        (calls j) Good.opened
  exact (Sat.invariant (Q := fun _ _ _ => True) hrg hblock hthreads Good.opened h).sound

/-- A block that commits one write, and a call from outside after it. -/
theorem sharedConnection_sound_inTurn :
    Sound (schedule [none, none, none, none, none, none, none, some (), some ()]
      (Pg.opened, callers [⟨.transaction true, [⟨false, true, ⟨some 2, true⟩, false⟩], none⟩]
        fun _ : Unit => [(true, ⟨some 1, true⟩)])).1 :=
  sharedConnection_sound _ _ (schedule_reaches (by decide))

/-- A call from outside that lands in a block is acknowledged and then rolled back with the block;
and one that fails there makes `_ensure_conn` replace the connection, so that the next write of
the block is durable although the block never commits. -/
theorem sharedConnection_loses_write :
    (∃ c : Pg (Entry Nat) × (Option Unit → PgM (Entry Nat) Unit),
      ReflTransGen (Step fun _ _ _ => True)
        (Pg.opened, callers [⟨.transaction true, [], some .statement⟩]
          fun _ => [(true, ⟨some 1, true⟩)]) c ∧
        c.1.acked = [⟨none, 1⟩] ∧ c.1.durable = [] ∧ ¬ Sound c.1) ∧
    ∃ c : Pg (Entry Nat) × (Option Unit → PgM (Entry Nat) Unit),
      ReflTransGen (Step fun _ _ _ => True)
        (Pg.opened, callers
          [⟨.transaction true, [⟨false, true, ⟨some 2, true⟩, false⟩], some .statement⟩]
          fun _ => [(true, ⟨none, false⟩)]) c ∧
        c.1.durable = [⟨some 0, 2⟩] ∧ c.1.committed = [] ∧ ¬ Sound c.1 := by
  refine ⟨⟨schedule [none, none, none, some (), some (), none, none] _,
      schedule_reaches (by decide), by decide, by decide, ?_⟩,
    ⟨schedule [none, none, none, some (), some (), none, none, none, none, none, none] _,
      schedule_reaches (by decide), by decide, by decide, ?_⟩⟩
  · intro h
    exact absurd h.1 (by decide)
  · intro h
    exact absurd (h.2 ⟨some 0, 2⟩ (by decide) 0 rfl) (by decide)

end Lumogis
