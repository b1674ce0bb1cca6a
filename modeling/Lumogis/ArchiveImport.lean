import Lumogis.Transaction
import Lumogis.UserArchive
import Mathlib.Data.List.Nodup

/-!
# ArchiveImport

The Postgres part of an import: the new user and every row of the archive, inserted in one
`transaction()` in which a failing `INSERT` is counted and passed over. Each row comes with what
becomes of its `INSERT`.

`import_receipt_true_iff` says for which archives the import either raises and leaves Postgres as
it was, or returns a receipt that counts the rows that are stored. A row that `ON CONFLICT DO
NOTHING` passes over is counted as inserted. After the first `INSERT` that the server refuses the
rows before it are lost and those after it are durable at once, and the receipt counts both.
-/

namespace Lumogis

open Prog

structure StoredRow where
  table : String
  row : ArchiveRow

/-- What becomes of the `INSERT` of a row. -/
inductive InsertFate where
  | stores
  /-- A unique key is taken. -/
  | conflicts
  /-- The server fails the statement. -/
  | refused
  /-- The client cannot write the statement, and does not send it. -/
  | unadaptable

structure ScriptedRow where
  row : ArchiveRow
  fate : InsertFate

inductive InsertEffect where
  | stores | skips | aborts | unadaptable
  deriving DecidableEq

def InsertFate.effect (onConflict : Bool) : InsertFate → InsertEffect
  | .stores => .stores
  | .conflicts => if onConflict then .skips else .aborts
  | .refused => .aborts
  | .unadaptable => .unadaptable

structure Insert where
  stored : StoredRow
  effect : InsertEffect

namespace Insert

def stmt (x : Insert) : Stmt StoredRow :=
  ⟨if x.effect = .stores then some x.stored else none, x.effect ≠ .aborts⟩

/-- The row counts as inserted. -/
def counted (x : Insert) : Bool := x.effect == .stores || x.effect == .skips

def stores (x : Insert) : Bool := x.effect == .stores

def aborts (x : Insert) : Bool := x.effect == .aborts

end Insert

/-- `meta.execute(sql, values)`. -/
def insertRow (x : Insert) : PgM StoredRow Unit :=
  if x.effect = .unadaptable then do
    ensureConn true
    .raise .programming
  else storeExecute true x.stmt

/-- The `INSERT` of a row, unless the row is passed over. -/
def ScriptedRow.insert (table : String) (onConflict : Bool) (scripted : ScriptedRow) :
    Option Insert :=
  let row := stripIdForSerialTable table scripted.row
  if row.insertable then some ⟨⟨table, row⟩, scripted.fate.effect onConflict⟩ else none

/-- How many rows count as inserted, and how many as skipped. -/
def insertRowsForTable (table : String) (rows : List ScriptedRow) (onConflict : Bool) :
    PgM StoredRow (Nat × Nat) :=
  foldM (fun counts scripted =>
    match scripted.insert table onConflict with
    | none => pure counts
    | some x => do
      match ← (insertRow x).attempt with
      | .ok () => pure (counts.1 + 1, counts.2)
      | .error _ => pure (counts.1, counts.2 + 1)) (0, 0) rows

structure ImportReceipt where
  newUserId : String
  /-- The tables of the archive, with the number of rows imported. -/
  sections : List (String × Nat)
  leafPkCollisions : List (String × Nat)

/-- An import, with what it meets. -/
structure ImportCall where
  /-- What refuses the import before it writes: the archive, the email, or a parent key in use. -/
  precheck : Option DbError
  newUserId : String
  email : String
  passwordHash : String
  role : String
  /-- What refuses the user: an email or a password that is not accepted, or an email in use. -/
  userRefusal : Option DbError
  userInserts : Bool
  exportingUserId : String
  /-- The rows of a table, where the archive has a section that can be read. -/
  tables : String → Option (List ScriptedRow)
  /-- What the steps after the transaction raise; a vector section may be malformed. -/
  later : Option DbError

namespace ImportCall

def userRow (call : ImportCall) : StoredRow :=
  ⟨"users", [("id", .text call.newUserId), ("email", .text call.email),
    ("password_hash", .text call.passwordHash), ("role", .text call.role),
    ("disabled", .json "false"), ("allows_shared", .json "true")]⟩

def createUser (call : ImportCall) : PgM StoredRow Unit :=
  match call.userRefusal with
  | some e => .raise e
  | none => do
    storeExecute true probe
    storeExecute true ⟨some call.userRow, call.userInserts⟩
    storeExecute true probe

/-- The rows of a section, rewritten to the new user. -/
def rewritten (call : ImportCall) (table : String) (rows : List ScriptedRow) : List ScriptedRow :=
  rows.map fun scripted =>
    { scripted with row := rewriteRow table call.exportingUserId call.newUserId scripted.row }

def importTable (call : ImportCall) (receipt : ImportReceipt) (table : String) :
    PgM StoredRow ImportReceipt :=
  match call.tables table with
  | none => pure receipt
  | some rows => do
    let (inserted, skipped) ←
      insertRowsForTable table (call.rewritten table rows) (table ∉ parentTableNames)
    pure { receipt with
      sections := receipt.sections ++ [(table, inserted)]
      leafPkCollisions := if skipped = 0 then receipt.leafPkCollisions
        else receipt.leafPkCollisions ++ [(table, skipped)] }

/-- The body of the transaction. -/
def body (call : ImportCall) : PgM StoredRow ImportReceipt := do
  call.createUser
  foldM call.importTable ⟨call.newUserId, [], []⟩ userExportTables

end ImportCall

def importUser (block : Nat) (call : ImportCall) : PgM StoredRow ImportReceipt :=
  match call.precheck with
  | some e => .raise e
  | none => do
    let receipt ← storeTransaction block true call.body
    match call.later with
    | some e => .raise e
    | none => pure receipt

/-! ## The law and its condition -/

def StoredRow.isOf (d : StoredRow) (table userId : String) : Bool :=
  d.table == table && d.row.get "user_id" == some (.text userId)

/-- The import raised and changed nothing, or its receipt counts the rows that are stored. -/
def ReceiptTrue (call : ImportCall) (s t : Pg StoredRow) : Except DbError ImportReceipt → Prop
  | .error _ => t.durable = s.durable
  | .ok receipt => ∀ sec ∈ receipt.sections,
      sec.2 = t.durable.countP fun d => d.isOf sec.1 call.newUserId

namespace ImportCall

def inserts (call : ImportCall) (table : String) : List Insert :=
  (call.rewritten table ((call.tables table).getD [])).filterMap
    (ScriptedRow.insert table (table ∉ parentTableNames))

/-- The `INSERT`s of the import in their order. -/
def allInserts (call : ImportCall) : List Insert := userExportTables.flatMap call.inserts

/-- The row is counted only if it is stored for the new user. -/
def Faithful (call : ImportCall) (x : Insert) : Prop :=
  x.counted = true → x.stores = true ∧ x.stored.row.get "user_id" = some (.text call.newUserId)

instance (call : ImportCall) (x : Insert) : Decidable (call.Faithful x) :=
  inferInstanceAs (Decidable (_ → _))

/-- The import ends before it inserts a row; or no `INSERT` is refused, each row that is counted is
stored for the new user, and nothing raises after the commit; or the rows before the first `INSERT`
refused are not counted, and those after it are as they should be. -/
def Honest (call : ImportCall) : Prop :=
  call.precheck.isSome ∨ call.userRefusal.isSome ∨ call.userInserts = false ∨
    match call.allInserts.dropWhile fun x => !x.aborts with
    | [] => call.later = none ∧ ∀ x ∈ call.allInserts, call.Faithful x
    | _ :: rest =>
      if call.later.isSome then ∀ x ∈ rest, x.stores = false
      else (∀ x ∈ call.allInserts.takeWhile fun x => !x.aborts, x.counted = false) ∧
        ∀ x ∈ rest, call.Faithful x

end ImportCall

/-! ## Calls inside the block -/

section Calls

variable {W : Type} {d a ws before late : List W} {began : Bool} {s : Pg W} {q : Stmt W}

theorem Whole.ensures (h : Whole d a ws began s) :
    ∃ t, (ensureConn true).exec s = some (.ok (), t) ∧ Whole d a ws true t := by
  rw [exec_ensureConn]
  refine ⟨(s.executeStep probe).2, ?_, ?_⟩
  · simp [Pg.executeStep, h.conn, probe]
  · constructor
    · simp [Pg.executeStep, h.conn, probe]
    · simp [Pg.executeStep, h.conn, probe, h.durable]
    · simp [Pg.executeStep, h.conn, probe, h.acked]

theorem Whole.executes (h : Whole d a ws began s) (hq : q.ok = true) :
    ∃ t, (storeExecute true q).exec s = some (.ok (), t) ∧
      Whole d a (ws ++ q.write.toList) true t := by
  obtain ⟨s', hs', h'⟩ := h.ensures
  refine ⟨(s'.executeStep q).2, ?_, ?_⟩
  · rw [storeExecute, exec_bind, hs']
    simp [thenExec, cursorExecute, exec_actE, Pg.executeStep, h'.conn, hq]
  · constructor
    · simp [Pg.executeStep, h'.conn, hq]
    · simp [Pg.executeStep, h'.conn, hq, h'.durable]
    · simp [Pg.executeStep, h'.conn, hq, h'.acked]

theorem Whole.refuses (h : Whole d a ws began s) (hq : q.ok = false) :
    ∃ t, (storeExecute true q).exec s = some (.error .statement, t) ∧
      InPhase d a ws [] .aborted t := by
  obtain ⟨s', hs', h'⟩ := h.ensures
  refine ⟨(s'.executeStep q).2, ?_, ?_⟩
  · rw [storeExecute, exec_bind, hs']
    simp [thenExec, cursorExecute, exec_actE, Pg.executeStep, h'.conn, hq]
  · constructor <;>
      simp [Phase.Describes, Pg.executeStep, Pg.withConn, h'.conn, hq, h'.durable, h'.acked]

/-- The transaction is lost: the first call from then on finds a new connection. -/
def Lost (d a before late : List W) (s : Pg W) : Prop :=
  InPhase d a before late .aborted s ∨ InPhase d a before late .replaced s

theorem Lost.ensures (h : Lost d a before late s) :
    ∃ t, (ensureConn true).exec s = some (.ok (), t) ∧ InPhase d a before late .replaced t := by
  rw [exec_ensureConn]
  rcases h with h | h
  · obtain ⟨e, c, hprobe⟩ := Phase.probe_fails (p := .aborted) (by decide) h.conn
    rw [hprobe]
    exact ⟨_, rfl, rfl, h.durable, h.acked⟩
  · rw [probe_fresh h.conn]
    exact ⟨_, rfl, h⟩

theorem Lost.executes (h : Lost d a before late s) (q : Stmt W) :
    ∃ r t, (storeExecute true q).exec s = some (r, t) ∧ (r = .ok () ↔ q.ok = true) ∧
      InPhase d a before (late ++ if q.ok then q.write.toList else []) .replaced t := by
  obtain ⟨s', hs', h'⟩ := h.ensures
  obtain ⟨hconn, hdurable, hacked⟩ := execute_fresh q h'.conn
  refine ⟨(s'.executeStep q).1, (s'.executeStep q).2, ?_, ?_, hconn, ?_, ?_⟩
  · rw [storeExecute, exec_bind, hs']
    simp [thenExec, cursorExecute, exec_actE]
  · have hc : s'.conn = .fresh := h'.conn
    cases hq : q.ok <;> simp [Pg.executeStep, hc, Conn.fresh, hq]
  · rw [hdurable, h'.durable, List.append_assoc]
  · rw [hacked, h'.acked, List.append_assoc]

end Calls

/-! ## The body -/

def storedRows (xs : List Insert) : List StoredRow := (xs.filter Insert.stores).map Insert.stored

theorem storedRows_append (xs ys : List Insert) :
    storedRows (xs ++ ys) = storedRows xs ++ storedRows ys := by
  simp [storedRows]

/-- The `INSERT`s in `done` have been made, after `user` was inserted. -/
def Importing (d a user : List StoredRow) (done : List Insert) (s : Pg StoredRow) : Prop :=
  match done.dropWhile fun x => !x.aborts with
  | [] => Whole d a (user ++ storedRows done) true s
  | _ :: rest =>
    Lost d a (user ++ storedRows (done.takeWhile fun x => !x.aborts)) (storedRows rest) s

section Body

variable {d a user : List StoredRow} {done : List Insert} {s : Pg StoredRow} {x : Insert}

theorem dropWhile_append {xs ys : List Insert} :
    (xs ++ ys).dropWhile (fun x => !x.aborts) =
      match xs.dropWhile fun x => !x.aborts with
      | [] => ys.dropWhile fun x => !x.aborts
      | b :: rest => b :: rest ++ ys := by
  rw [List.dropWhile_append]
  cases xs.dropWhile fun x => !x.aborts <;> rfl

theorem Insert.stmt_write (h : x.effect ≠ .unadaptable) :
    (if x.stmt.ok then x.stmt.write.toList else []) = storedRows [x] := by
  obtain ⟨stored, effect⟩ := x
  cases effect with
  | stores => rfl
  | skips => rfl
  | aborts => rfl
  | unadaptable => exact absurd rfl h

theorem Insert.stmt_ok (h : x.effect ≠ .unadaptable) : x.stmt.ok = true ↔ x.counted = true := by
  obtain ⟨stored, effect⟩ := x
  cases effect with
  | stores => simp [Insert.stmt, Insert.counted]
  | skips => simp [Insert.stmt, Insert.counted]
  | aborts => simp [Insert.stmt, Insert.counted]
  | unadaptable => exact absurd rfl h

theorem insertRow_whole {ws : List StoredRow} (h : Whole d a ws true s) :
    wp (fun r t => (r = .ok () ↔ x.counted = true) ∧
      if x.aborts then Lost d a ws [] t else Whole d a (ws ++ storedRows [x]) true t)
      (insertRow x) s := by
  rw [insertRow]
  by_cases he : x.effect = .unadaptable
  · rw [if_pos he]
    obtain ⟨t, ht, h'⟩ := h.ensures
    refine wp_iff.mpr ⟨.error .programming, t, by rw [exec_bind, ht]; rfl, ?_, ?_⟩
    · simp [Insert.counted, he]
    · simpa [Insert.aborts, storedRows, Insert.stores, he] using h'
  · rw [if_neg he]
    cases hok : x.stmt.ok with
    | true =>
      obtain ⟨t, ht, h'⟩ := h.executes hok
      have hcounted := (Insert.stmt_ok he).mp hok
      have haborts : x.aborts = false := by
        obtain ⟨stored, effect⟩ := x
        cases effect <;> first | rfl | cases hok
      have hwrite := Insert.stmt_write he
      rw [if_pos hok] at hwrite
      refine wp_iff.mpr ⟨_, t, ht, ⟨fun _ => hcounted, fun _ => rfl⟩, ?_⟩
      rwa [haborts, if_neg (by decide), ← hwrite]
    | false =>
      obtain ⟨t, ht, h'⟩ := h.refuses hok
      have hcounted : x.counted ≠ true := fun hc => by
        rw [(Insert.stmt_ok he).mpr hc] at hok
        cases hok
      have haborts : x.aborts = true := by
        obtain ⟨stored, effect⟩ := x
        cases effect <;> first | rfl | cases hok
      refine wp_iff.mpr ⟨_, t, ht, ⟨fun hr => (by cases hr), fun hc => absurd hc hcounted⟩, ?_⟩
      rw [if_pos haborts]
      exact .inl h'

theorem insertRow_lost {before late : List StoredRow} (h : Lost d a before late s) :
    wp (fun r t => (r = .ok () ↔ x.counted = true) ∧ Lost d a before (late ++ storedRows [x]) t)
      (insertRow x) s := by
  rw [insertRow]
  split
  · rename_i he
    obtain ⟨t, ht, h'⟩ := h.ensures
    refine wp_iff.mpr ⟨.error .programming, t, by rw [exec_bind, ht]; rfl, ?_, ?_⟩
    · simp [Insert.counted, he]
    · have hnone : storedRows [x] = [] := by simp [storedRows, Insert.stores, he]
      rw [hnone, List.append_nil]
      exact .inr h'
  · rename_i he
    obtain ⟨r, t, ht, hr, h'⟩ := h.executes x.stmt
    rw [Insert.stmt_write he] at h'
    exact wp_iff.mpr ⟨r, t, ht, hr.trans (Insert.stmt_ok he), .inr h'⟩

theorem insertRow_wp (h : Importing d a user done s) :
    wp (fun r t => (r = .ok () ↔ x.counted = true) ∧ Importing d a user (done ++ [x]) t)
      (insertRow x) s := by
  rw [Importing] at h
  split at h
  · rename_i hdrop
    have hall : ∀ y ∈ done, y.aborts = false := by
      intro y hy
      simpa using List.dropWhile_eq_nil_iff.mp hdrop y hy
    refine (insertRow_whole h).mono fun r t hr => ⟨hr.1, ?_⟩
    have ht := hr.2
    rw [Importing, dropWhile_append, hdrop]
    cases haborts : x.aborts with
    | true =>
      rw [haborts, if_pos rfl] at ht
      have htake : (done ++ [x]).takeWhile (fun y => !y.aborts) = done := by
        rw [List.takeWhile_append_of_pos (by simpa using hall)]
        simp [haborts]
      simp only [List.dropWhile_cons, haborts, Bool.not_true, Bool.false_eq_true, ↓reduceIte, htake]
      exact ht
    | false =>
      rw [haborts, if_neg (by decide)] at ht
      simp only [List.dropWhile_cons, haborts, Bool.not_false, ↓reduceIte, List.dropWhile_nil,
        storedRows_append, ← List.append_assoc]
      exact ht
  · rename_i b rest hdrop
    refine (insertRow_lost h).mono fun r t hr => ⟨hr.1, ?_⟩
    have htake : (done ++ [x]).takeWhile (fun y => !y.aborts) =
        done.takeWhile fun y => !y.aborts := by
      rw [List.takeWhile_append, if_neg]
      intro hlen
      have := congrArg List.length (List.takeWhile_append_dropWhile (p := fun y => !y.aborts)
        (l := done))
      rw [List.length_append, hlen, hdrop] at this
      simp at this
    rw [Importing, dropWhile_append, hdrop, htake]
    simp only [List.cons_append, storedRows_append]
    exact hr.2

theorem insertRowsForTable_wp (h : Importing d a user done s) (table : String)
    (rows : List ScriptedRow) (onConflict : Bool) :
    wp (fun r t => ∃ skipped, r = .ok
        ((rows.filterMap (ScriptedRow.insert table onConflict)).countP Insert.counted, skipped) ∧
        Importing d a user (done ++ rows.filterMap (ScriptedRow.insert table onConflict)) t)
      (insertRowsForTable table rows onConflict) s := by
  refine wp_foldM (fun ys counts t =>
    counts.1 = (ys.filterMap (ScriptedRow.insert table onConflict)).countP Insert.counted ∧
      Importing d a user (done ++ ys.filterMap (ScriptedRow.insert table onConflict)) t)
    ⟨rfl, by simpa using h⟩ (fun ys scripted counts t _ hi => ?_)
    fun counts t hi => ⟨counts.2, by rw [← hi.1], hi.2⟩
  cases hx : scripted.insert table onConflict with
  | none => simpa [hx] using hi
  | some x =>
    simp only [wp_bind, wp_attempt]
    refine (insertRow_wp hi.2).mono fun r t hr => ?_
    have hnext : Importing d a user
        (done ++ (ys ++ [scripted]).filterMap (ScriptedRow.insert table onConflict)) t := by
      simpa [hx] using hr.2
    cases r with
    | ok u =>
      have hcounted := hr.1.mp rfl
      exact ⟨by simp [hx, hcounted, hi.1], hnext⟩
    | error e =>
      have hcounted : x.counted = false := by
        by_contra hc
        have := hr.1.mpr (by simpa using hc)
        cases this
      exact ⟨by simp [hx, hcounted, hi.1], hnext⟩

end Body

namespace ImportCall

/-- The receipt's entry for a table. -/
def receiptSection (call : ImportCall) (table : String) : Option (String × Nat) :=
  (call.tables table).map fun _ => (table, (call.inserts table).countP Insert.counted)

theorem inserts_none {call : ImportCall} {table : String} (h : call.tables table = none) :
    call.inserts table = [] := by
  simp [inserts, h, rewritten]

theorem importTables_wp {call : ImportCall} {d a user : List StoredRow} {s : Pg StoredRow}
    (h : Importing d a user [] s) (tables : List String) :
    wp (fun r t => ∃ receipt, r = .ok receipt ∧
        receipt.sections = tables.filterMap call.receiptSection ∧
        Importing d a user (tables.flatMap call.inserts) t)
      (foldM call.importTable ⟨call.newUserId, [], []⟩ tables) s := by
  refine wp_foldM (fun ys receipt t => receipt.sections = ys.filterMap call.receiptSection ∧
    Importing d a user (ys.flatMap call.inserts) t) ⟨rfl, h⟩ (fun ys table receipt t _ hi => ?_)
    fun receipt t hi => ⟨receipt, rfl, hi⟩
  rw [importTable]
  cases hrows : call.tables table with
  | none => simpa [receiptSection, hrows, inserts_none hrows] using hi
  | some rows =>
    simp only [wp_bind]
    refine (insertRowsForTable_wp hi.2 table (call.rewritten table rows) _).mono fun r t hr => ?_
    obtain ⟨skipped, rfl, ht⟩ := hr
    refine ⟨?_, ?_⟩
    · simp [receiptSection, hrows, hi.1, inserts]
    · simpa [inserts, hrows] using ht

end ImportCall

/-! ## The transaction -/

section Block

variable {W α : Type} {s : Pg W} {block : Nat} {body : PgM W α}

theorem wp_storeTransaction {Q : Except DbError α → Pg W → Prop} (hi : s.Idle)
    (hbody : ∀ s', Whole s.durable s.acked [] false s' →
      wp (fun r t => match r with
        | .ok a => wp Q (closeBlock ((t.commitStep block).1.map fun _ => a)) (t.commitStep block).2
        | .error e => wp Q (closeBlock (.error e)) t) body s') :
    wp Q (storeTransaction block true body) s := by
  obtain ⟨s₀, hens, hconn, hdurable, hacked⟩ := exec_ensureConn_idle hi (.inr rfl)
  rw [storeTransaction, wp_bind]
  refine wp_iff.mpr ⟨_, _, hens, ?_⟩
  have hauto : s₀.conn.autocommit = true := by rw [hconn]; rfl
  have hset : s₀.setAutocommitStep false =
      (.ok (), s₀.withConn { Conn.fresh with autocommit := false }) := by
    simp [Pg.setAutocommitStep, hconn, Conn.fresh]
  simp only [seqPost, getAutocommit, wp_bind, wp_query, hauto, Bool.not_true, Bool.false_eq_true,
    ↓reduceIte, setAutocommit, wp_actE, hset, wp_attempt]
  refine (hbody (s₀.withConn { Conn.fresh with autocommit := false })
    ⟨rfl, hdurable, by simp [Pg.withConn, hacked]⟩).mono fun r t hr => ?_
  cases r with
  | error e => exact hr
  | ok a =>
    simp only [seqPost, connCommit, wp_bind, wp_actE, pure_eq, wp_ret]
    dsimp only at hr
    cases hcommit : (t.commitStep block).1 with
    | error e => rw [hcommit] at hr; exact hr
    | ok u => rw [hcommit] at hr; exact hr

theorem wp_closeBlock_error (e : DbError) :
    wp (fun r t => (∃ x, r = .error x) ∧ t.durable = s.durable)
      (closeBlock (.error e) : PgM W α) s := by
  obtain ⟨x, t, hexec, hdurable, -⟩ := exec_closeBlock_error (α := α) e s
  exact wp_iff.mpr ⟨_, t, hexec, ⟨x, rfl⟩, hdurable⟩

theorem wp_closeBlock_ok {a : α} {ws : List W} (hok : (s.commitStep block).1 = .ok ())
    (hdurable : (s.commitStep block).2.durable = ws)
    (hc : (s.commitStep block).2.conn.closed = false)
    (ht : (s.commitStep block).2.conn.inTxn = false) :
    wp (fun r t => r = .ok a ∧ t.durable = ws)
      (closeBlock ((s.commitStep block).1.map fun _ => a)) (s.commitStep block).2 := by
  obtain ⟨t, hexec, hd, -⟩ := exec_closeBlock_ok (a := a) hc ht
  rw [hok]
  exact wp_iff.mpr ⟨_, t, hexec, rfl, hd.trans hdurable⟩

end Block

/-- What the transaction leaves in the tables. -/
def kept (user : List StoredRow) (done : List Insert) : List StoredRow :=
  match done.dropWhile fun x => !x.aborts with
  | [] => user ++ storedRows done
  | _ :: rest => storedRows rest

theorem Lost.commits {W α : Type} {d a before late : List W} {s : Pg W} {block : Nat} {x : α}
    (h : Lost d a before late s) :
    wp (fun r t => r = .ok x ∧ t.durable = d ++ late)
      (closeBlock ((s.commitStep block).1.map fun _ => x)) (s.commitStep block).2 := by
  rcases h with h | h
  · obtain ⟨hd, -, hok, hc, ht⟩ := commit_after_break block h
    exact wp_closeBlock_ok hok (hd.trans h.durable) hc ht
  · obtain ⟨hd, -, hok, hc, ht⟩ := commit_after_break block h
    exact wp_closeBlock_ok hok (hd.trans h.durable) hc ht

theorem Importing.commits {d a user : List StoredRow} {done : List Insert} {s : Pg StoredRow}
    {block : Nat} {receipt : ImportReceipt} (h : Importing d a user done s) :
    wp (fun r t => r = .ok receipt ∧ t.durable = d ++ kept user done)
      (closeBlock ((s.commitStep block).1.map fun _ => receipt)) (s.commitStep block).2 := by
  rw [Importing] at h
  rw [kept]
  split at h
  · obtain ⟨hok, hd, -, hc, ht⟩ := h.commit block (by simp)
    exact wp_closeBlock_ok hok hd hc ht
  · exact h.commits

namespace ImportCall

variable {call : ImportCall} {s : Pg StoredRow} {block : Nat}

theorem createUser_wp {d a : List StoredRow} (h : Whole d a [] false s) :
    wp (fun r t => match r with
      | .ok _ => (call.userRefusal = none ∧ call.userInserts = true) ∧
          Importing d a [call.userRow] [] t
      | .error _ => (call.userRefusal.isSome ∨ call.userInserts = false) ∧ t.durable = d)
      call.createUser s := by
  rw [createUser]
  cases href : call.userRefusal with
  | some e => exact ⟨.inl rfl, h.durable⟩
  | none =>
    obtain ⟨t, ht, hselect⟩ := h.executes (q := probe) rfl
    rw [wp_bind]
    refine wp_iff.mpr ⟨_, t, ht, ?_⟩
    rw [seqPost, wp_bind]
    cases hins : call.userInserts with
    | false =>
      obtain ⟨t', ht', hlost⟩ := hselect.refuses (q := ⟨some call.userRow, false⟩) rfl
      exact wp_iff.mpr ⟨_, t', ht', .inr rfl, by simpa using hlost.durable⟩
    | true =>
      obtain ⟨t', ht', hwhole⟩ := hselect.executes (q := ⟨some call.userRow, true⟩) rfl
      refine wp_iff.mpr ⟨_, t', ht', ?_⟩
      obtain ⟨t'', ht'', hwhole'⟩ := hwhole.executes (q := probe) rfl
      exact wp_iff.mpr ⟨_, t'', ht'', ⟨rfl, rfl⟩, hwhole'⟩

theorem transaction_wp (hi : s.Idle) :
    wp (fun r t => match r with
      | .ok receipt => (call.userRefusal = none ∧ call.userInserts = true) ∧
          receipt.sections = userExportTables.filterMap call.receiptSection ∧
          t.durable = s.durable ++ kept [call.userRow] call.allInserts
      | .error _ => (call.userRefusal.isSome ∨ call.userInserts = false) ∧ t.durable = s.durable)
      (storeTransaction block true call.body) s := by
  refine wp_storeTransaction hi fun s' hs' => ?_
  rw [body, wp_bind]
  refine (createUser_wp hs').mono fun r t hr => ?_
  cases r with
  | error e =>
    refine (wp_closeBlock_error e).mono fun r' t' hr' => ?_
    obtain ⟨⟨x, rfl⟩, hd⟩ := hr'
    exact ⟨hr.1, hd.trans hr.2⟩
  | ok u =>
    refine (importTables_wp hr.2 userExportTables).mono fun r' t' hr' => ?_
    obtain ⟨receipt, rfl, hsections, himporting⟩ := hr'
    refine himporting.commits.mono fun r'' t'' hr'' => ?_
    obtain ⟨rfl, hd⟩ := hr''
    exact ⟨hr.1, hsections, hd⟩

end ImportCall

/-! ## Counting -/

theorem countP_eq_iff {α : Type} {p q : α → Bool} {l : List α}
    (h : ∀ x ∈ l, p x = true → q x = true) :
    l.countP q = l.countP p ↔ ∀ x ∈ l, q x = true → p x = true := by
  induction l with
  | nil => simp
  | cons x l ih =>
    have ih := ih fun y hy => h y (by simp [hy])
    have hle := List.countP_mono_left (p := p) (q := q) (l := l) fun y hy => h y (by simp [hy])
    have hx := h x (by simp)
    rw [List.countP_cons, List.countP_cons, List.forall_mem_cons, ← ih]
    cases hp : p x with
    | true => simp [hx hp]
    | false =>
      cases hq : q x with
      | true =>
        simp only [↓reduceIte, Bool.false_eq_true, forall_const, false_and, iff_false]
        omega
      | false => simp

namespace ImportCall

variable {call : ImportCall} {x : Insert}

/-- The row is counted under the table. -/
def countedIn (table : String) (x : Insert) : Bool := x.counted && x.stored.table == table

/-- The row is stored under the table for the new user. -/
def storedIn (call : ImportCall) (table : String) (x : Insert) : Bool :=
  x.stores && x.stored.isOf table call.newUserId

theorem inserts_table {table : String} (h : x ∈ call.inserts table) : x.stored.table = table := by
  obtain ⟨scripted, -, hx⟩ := List.mem_filterMap.mp h
  rw [ScriptedRow.insert] at hx
  split at hx <;> cases hx
  rfl

theorem allInserts_table (h : x ∈ call.allInserts) : x.stored.table ∈ userExportTables := by
  obtain ⟨table, ht, hx⟩ := List.mem_flatMap.mp h
  rw [inserts_table hx]
  exact ht

theorem countP_flatMap_inserts {tables : List String} (hnodup : tables.Nodup) {table : String}
    (h : table ∈ tables) :
    (tables.flatMap call.inserts).countP (countedIn table) =
      (call.inserts table).countP Insert.counted := by
  induction tables with
  | nil => cases h
  | cons t tables ih =>
    rw [List.flatMap_cons, List.countP_append]
    have hother : ∀ t', t' ≠ table → (call.inserts t').countP (countedIn table) = 0 := by
      intro t' ht'
      refine List.countP_eq_zero.mpr fun x hx => ?_
      simp [countedIn, inserts_table hx, ht']
    rw [List.nodup_cons] at hnodup
    by_cases ht : t = table
    · subst ht
      have hrest : (tables.flatMap call.inserts).countP (countedIn t) = 0 := by
        refine List.countP_eq_zero.mpr fun x hx => ?_
        obtain ⟨t', ht', hx⟩ := List.mem_flatMap.mp hx
        have hne : t' ≠ t := fun he => hnodup.1 (he ▸ ht')
        simp [countedIn, inserts_table hx, hne]
      rw [hrest, Nat.add_zero]
      exact List.countP_congr fun x hx => by simp [countedIn, inserts_table hx]
    · rw [hother t ht, Nat.zero_add]
      refine ih hnodup.2 ?_
      rcases List.mem_cons.mp h with rfl | h
      · exact absurd rfl ht
      · exact h

theorem countP_storedRows (xs : List Insert) (table : String) :
    (storedRows xs).countP (fun d => d.isOf table call.newUserId) =
      xs.countP (call.storedIn table) := by
  rw [storedRows, List.countP_map, List.countP_filter]
  refine List.countP_congr fun x _ => ?_
  simp [storedIn, Bool.and_comm]

theorem storedIn_counted {table : String} (h : call.storedIn table x = true) :
    countedIn table x = true := by
  simp only [storedIn, StoredRow.isOf, Bool.and_eq_true] at h
  simp only [countedIn, Insert.counted, Bool.and_eq_true, Bool.or_eq_true]
  exact ⟨.inl h.1, h.2.1⟩

theorem counts_iff {xs : List Insert} (hxs : ∀ x ∈ xs, x.stored.table ∈ userExportTables) :
    (∀ table ∈ userExportTables, xs.countP (countedIn table) = xs.countP (call.storedIn table)) ↔
      ∀ x ∈ xs, call.Faithful x := by
  have hiff := fun table => countP_eq_iff (p := call.storedIn table) (q := countedIn table)
    (l := xs) fun x _ => storedIn_counted
  simp only [hiff]
  constructor
  · intro h x hx hc
    have hstored := h x.stored.table (hxs x hx) x hx (by simp [countedIn, hc])
    simpa [storedIn, StoredRow.isOf] using hstored
  · intro h table _ x hx hc
    simp only [countedIn, Bool.and_eq_true, beq_iff_eq] at hc
    obtain ⟨hs, hu⟩ := h x hx hc.1
    simp [storedIn, StoredRow.isOf, hs, hu, hc.2]

theorem countedIn_zero_iff {xs : List Insert}
    (hxs : ∀ x ∈ xs, x.stored.table ∈ userExportTables) :
    (∀ table ∈ userExportTables, xs.countP (countedIn table) = 0) ↔
      ∀ x ∈ xs, x.counted = false := by
  simp only [List.countP_eq_zero]
  constructor
  · intro h x hx
    simpa [countedIn] using h x.stored.table (hxs x hx) x hx
  · intro h table _ x hx
    simp [countedIn, h x hx]

theorem countP_user {table : String} (ht : table ∈ userExportTables) (ds : List StoredRow) :
    ([call.userRow] ++ ds).countP (fun d => d.isOf table call.newUserId) =
      ds.countP fun d => d.isOf table call.newUserId := by
  have hne : ("users" == table) = false := by
    rw [beq_eq_false_iff_ne]
    exact fun he => users_not_exported (he ▸ ht)
  rw [List.countP_append, List.countP_singleton]
  simp [StoredRow.isOf, userRow, hne]

theorem kept_le (call : ImportCall) {table : String} (ht : table ∈ userExportTables)
    (xs : List Insert) :
    (kept [call.userRow] xs).countP (fun d => d.isOf table call.newUserId) ≤
      xs.countP (countedIn table) := by
  rw [kept]
  split
  · rw [countP_user ht, countP_storedRows]
    exact List.countP_mono_left fun x _ => storedIn_counted
  · rename_i b rest hdrop
    have hsub : rest.Sublist xs :=
      (List.sublist_cons_self b rest).trans (hdrop ▸ List.dropWhile_sublist _)
    rw [countP_storedRows]
    exact (List.countP_mono_left fun x _ => storedIn_counted).trans (hsub.countP_le (p := _))

theorem kept_iff {xs : List Insert} (hxs : ∀ x ∈ xs, x.stored.table ∈ userExportTables) :
    (∀ table ∈ userExportTables, xs.countP (countedIn table) =
        (kept [call.userRow] xs).countP fun d => d.isOf table call.newUserId) ↔
      match xs.dropWhile fun x => !x.aborts with
      | [] => ∀ x ∈ xs, call.Faithful x
      | _ :: rest => (∀ x ∈ xs.takeWhile fun x => !x.aborts, x.counted = false) ∧
          ∀ x ∈ rest, call.Faithful x := by
  rw [kept]
  have hsplit := List.takeWhile_append_dropWhile (p := fun x : Insert => !x.aborts) (l := xs)
  split
  · rw [← counts_iff hxs]
    exact forall₂_congr fun table ht => by rw [countP_user ht, countP_storedRows]
  · rename_i b rest hdrop
    rw [hdrop] at hsplit
    have hb : b.aborts = true := by
      have := List.dropWhile_get_zero_not (fun x : Insert => !x.aborts) xs (by rw [hdrop]; simp)
      simpa [hdrop] using this
    have hcb : ∀ table, countedIn table b = false := by
      intro table
      have he : b.effect = .aborts := by simpa [Insert.aborts] using hb
      simp [countedIn, Insert.counted, he]
    have hmem : ∀ x, x ∈ xs.takeWhile (fun x => !x.aborts) ∨ x ∈ rest →
        x.stored.table ∈ userExportTables := by
      intro x hx
      refine hxs x ?_
      rw [← hsplit]
      rcases hx with hx | hx
      · exact List.mem_append_left _ hx
      · exact List.mem_append_right _ (List.mem_cons_of_mem _ hx)
    rw [← countedIn_zero_iff fun x hx => hmem x (.inl hx),
      ← counts_iff fun x hx => hmem x (.inr hx), ← forall₂_and]
    refine forall₂_congr fun table _ => ?_
    have hcount : xs.countP (countedIn table) =
        (xs.takeWhile fun x => !x.aborts).countP (countedIn table) +
          rest.countP (countedIn table) := by
      conv_lhs => rw [← hsplit]
      rw [List.countP_append, List.countP_cons, hcb]
      simp
    have hle : rest.countP (call.storedIn table) ≤ rest.countP (countedIn table) :=
      List.countP_mono_left fun x _ => storedIn_counted
    rw [hcount, countP_storedRows]
    omega

theorem receipt_iff {s t : Pg StoredRow} {receipt : ImportReceipt}
    (hfresh : ∀ d ∈ s.durable, d.row.get "user_id" ≠ some (.text call.newUserId))
    (hsections : receipt.sections = userExportTables.filterMap call.receiptSection)
    (hdurable : t.durable = s.durable ++ kept [call.userRow] call.allInserts) :
    ReceiptTrue call s t (.ok receipt) ↔
      ∀ table ∈ userExportTables, call.allInserts.countP (countedIn table) =
        (kept [call.userRow] call.allInserts).countP fun d => d.isOf table call.newUserId := by
  have hold : ∀ table, s.durable.countP (fun d => d.isOf table call.newUserId) = 0 := by
    intro table
    refine List.countP_eq_zero.mpr fun d hd => ?_
    simp [StoredRow.isOf, hfresh d hd]
  have hcount : ∀ table, t.durable.countP (fun d => d.isOf table call.newUserId) =
      (kept [call.userRow] call.allInserts).countP fun d => d.isOf table call.newUserId := by
    intro table
    rw [hdurable, List.countP_append, hold, Nat.zero_add]
  simp only [ReceiptTrue, hsections, List.mem_filterMap, hcount]
  constructor
  · intro h table ht
    rw [allInserts, countP_flatMap_inserts userExportTables_nodup ht]
    cases hrows : call.tables table with
    | some rows =>
      exact h (table, (call.inserts table).countP Insert.counted)
        ⟨table, ht, by simp [receiptSection, hrows]⟩
    | none =>
      have hle := kept_le call ht call.allInserts
      rw [allInserts, countP_flatMap_inserts userExportTables_nodup ht, inserts_none hrows] at hle
      rw [inserts_none hrows]
      exact (Nat.le_zero.mp hle).symm
  · rintro h sec ⟨table, ht, hsec⟩
    obtain ⟨rows, -, rfl⟩ := Option.map_eq_some_iff.mp hsec
    rw [← countP_flatMap_inserts userExportTables_nodup ht]
    exact h table ht

theorem storedRows_eq_nil {xs : List Insert} :
    storedRows xs = [] ↔ ∀ x ∈ xs, x.stores = false := by
  simp [storedRows]

theorem kept_nil_iff {xs : List Insert} {user : StoredRow} :
    kept [user] xs = [] ↔
      match xs.dropWhile fun x => !x.aborts with
      | [] => False
      | _ :: rest => ∀ x ∈ rest, x.stores = false := by
  rw [kept]
  split
  · simp
  · exact storedRows_eq_nil

end ImportCall

namespace ImportCall

theorem honest_iff {call : ImportCall} (hpre : call.precheck = none)
    (hrefusal : call.userRefusal = none) (hinserts : call.userInserts = true) :
    call.Honest ↔ match call.allInserts.dropWhile fun x => !x.aborts with
      | [] => call.later = none ∧ ∀ x ∈ call.allInserts, call.Faithful x
      | _ :: rest =>
        if call.later.isSome then ∀ x ∈ rest, x.stores = false
        else (∀ x ∈ call.allInserts.takeWhile fun x => !x.aborts, x.counted = false) ∧
          ∀ x ∈ rest, call.Faithful x := by
  simp [Honest, hpre, hrefusal, hinserts]

end ImportCall

/-- For which imports the receipt is true. -/
theorem import_receipt_true_iff (block : Nat) (call : ImportCall) (s : Pg StoredRow) (hi : s.Idle)
    (hfresh : ∀ d ∈ s.durable, d.row.get "user_id" ≠ some (.text call.newUserId)) :
    ∃ r t, (importUser block call).exec s = some (r, t) ∧
      (ReceiptTrue call s t r ↔ call.Honest) := by
  refine wp_iff.mp ?_
  rw [importUser]
  cases hpre : call.precheck with
  | some e => simp [ReceiptTrue, ImportCall.Honest, hpre]
  | none =>
    rw [wp_bind]
    refine (call.transaction_wp hi).mono fun r t hr => ?_
    cases r with
    | error e =>
      refine ⟨fun _ => .inr ?_, fun _ => hr.2⟩
      rcases hr.1 with h | h
      · exact .inl h
      · exact .inr (.inl h)
    | ok receipt =>
      obtain ⟨⟨hrefusal, hinserts⟩, hsections, hdurable⟩ := hr
      rw [ImportCall.honest_iff hpre hrefusal hinserts]
      cases hlater : call.later with
      | some e =>
        have hnil : t.durable = s.durable ↔ kept [call.userRow] call.allInserts = [] := by
          rw [hdurable]
          exact List.append_right_eq_self
        show t.durable = s.durable ↔ _
        rw [hnil, ImportCall.kept_nil_iff]
        split <;> simp
      | none =>
        show ReceiptTrue call s t (.ok receipt) ↔ _
        rw [call.receipt_iff hfresh hsections hdurable,
          ImportCall.kept_iff fun x hx => ImportCall.allInserts_table hx]
        split <;> simp

namespace ImportExample

def start : Pg StoredRow :=
  { conn := .fresh, generation := 0, durable := [], acked := [], committed := [] }

theorem start_idle : start.Idle := ⟨rfl, rfl, rfl, rfl⟩

def note : ArchiveRow :=
  [("note_id", .text "n1"), ("text", .text "buy milk"), ("user_id", .text "ann")]

/-- A list where the column is JSONB: the server refuses the statement. -/
def signal : ArchiveRow :=
  [("signal_id", .text "s1"), ("topics", .json "[\"tea\"]"), ("user_id", .text "ann")]

/-- The import of a note and a signal. -/
def call (signalFate : InsertFate) : ImportCall :=
  { precheck := none, newUserId := "bob", email := "bob@home", passwordHash := "x", role := "user"
    userRefusal := none, userInserts := true, exportingUserId := "ann"
    tables := fun table =>
      if table = "notes" then some [⟨note, .stores⟩]
      else if table = "signals" then some [⟨signal, signalFate⟩]
      else none
    later := none }

end ImportExample

open ImportExample in
theorem import_receipt_true_both :
    ∃ r t, (importUser 0 (call .stores)).exec start = some (r, t) ∧
      ReceiptTrue (call .stores) start t r := by
  obtain ⟨r, t, hexec, hiff⟩ :=
    import_receipt_true_iff 0 (call .stores) start start_idle fun d hd => by cases hd
  refine ⟨r, t, hexec, hiff.mpr (.inr (.inr (.inr ?_)))⟩
  show (call .stores).later = none ∧
    ∀ x ∈ (call .stores).allInserts, (call .stores).Faithful x
  decide

open ImportExample in
/-- The note is counted, and lost with the transaction that the signal aborts. -/
theorem refused_row_falsifies_receipt :
    ∃ receipt t, (importUser 0 (call .refused)).exec start = some (.ok receipt, t) ∧
      ¬ ReceiptTrue (call .refused) start t (.ok receipt) := by
  refine ⟨⟨"bob", [("notes", 1), ("signals", 0)], [("signals", 1)]⟩, _, rfl, ?_⟩
  intro h
  have hnotes := h ("notes", 1) (by simp)
  revert hnotes
  decide

end Lumogis
