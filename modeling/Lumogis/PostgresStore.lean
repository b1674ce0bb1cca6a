import Lumogis.Lib.Prog

/-!
# PostgresStore

The metadata store's single connection. `Conn` is a psycopg2 connection together with its server
session, as far as they are documented:

* with `autocommit` off, the first statement opens a transaction, which stays open until `commit`
  or `rollback`;
* a failed statement aborts the open transaction: later statements fail, and `COMMIT` ends it as a
  rollback without an error;
* a session that ends, closed or lost, rolls its transaction back; the client notices a lost one
  at the next round trip and then counts the connection as closed;
* `commit` and `rollback` do nothing when no transaction was begun, and raise on a closed
  connection; `autocommit` cannot be set on a closed connection or inside a transaction.

A statement is known by what it writes and by whether it fails. Two histories go with the store:
`acked`, the writes whose call returned, and `committed`, the blocks that issued their `COMMIT`.
-/

namespace Lumogis

open Prog

inductive DbError where
  | interface | operational | inFailedTransaction | statement | programming | nestedTransaction
  | merge (message : String)
  deriving DecidableEq

structure Conn (W : Type) where
  alive : Bool
  closed : Bool
  autocommit : Bool
  /-- The client has begun a transaction. -/
  inTxn : Bool
  /-- The server has aborted it. -/
  failed : Bool
  pending : List W
  deriving DecidableEq

structure Pg (W : Type) where
  conn : Conn W
  /-- How often `self._conn` has been replaced. A replaced connection is closed. -/
  generation : Nat
  durable : List W
  acked : List W
  committed : List Nat
  deriving DecidableEq

structure Stmt (W : Type) where
  write : Option W
  ok : Bool

abbrev PgM (W α : Type) := Prog (Pg W) DbError α

namespace Conn

variable {W : Type}

/-- What `psycopg2.connect` followed by `conn.autocommit = True` gives. -/
def fresh : Conn W :=
  { alive := true, closed := false, autocommit := true, inTxn := false, failed := false,
    pending := [] }

/-- The session has ended on the server. -/
def dropped (c : Conn W) : Conn W := { c with alive := false, pending := [] }

/-- The client counts the connection as closed. -/
def shut (c : Conn W) : Conn W := { c.dropped with closed := true }

/-- The transaction is over. -/
def ended (c : Conn W) : Conn W := { c with inTxn := false, failed := false, pending := [] }

end Conn

section Psycopg

variable {W : Type}

def Pg.withConn (c : Conn W) (s : Pg W) : Pg W := { s with conn := c }

/-- `cur.execute(query, params)`. -/
def Pg.executeStep (q : Stmt W) (s : Pg W) : Except DbError Unit × Pg W :=
  let c := s.conn
  if c.closed then
    (.error .interface, s)
  else if !c.alive then
    (.error .operational, s.withConn c.shut)
  else if c.autocommit then
    if q.ok then
      (.ok (), { s with durable := s.durable ++ q.write.toList, acked := s.acked ++ q.write.toList })
    else
      (.error .statement, s)
  else if c.failed then
    (.error .inFailedTransaction, s)
  else if q.ok then
    (.ok (), { s with
      conn := { c with inTxn := true, pending := c.pending ++ q.write.toList }
      acked := s.acked ++ q.write.toList })
  else
    (.error .statement, s.withConn { c with inTxn := true, failed := true })

/-- `conn.commit()` at the end of a block. -/
def Pg.commitStep (block : Nat) (s₀ : Pg W) : Except DbError Unit × Pg W :=
  let s := { s₀ with committed := s₀.committed ++ [block] }
  let c := s.conn
  if c.closed then
    (.error .interface, s)
  else if c.autocommit || !c.inTxn then
    (.ok (), s)
  else if !c.alive then
    (.error .operational, s.withConn c.shut)
  else if c.failed then
    (.ok (), s.withConn c.ended)
  else
    (.ok (), { s with conn := c.ended, durable := s.durable ++ c.pending })

/-- `conn.rollback()`. -/
def Pg.rollbackStep (s : Pg W) : Except DbError Unit × Pg W :=
  let c := s.conn
  if c.closed then
    (.error .interface, s)
  else if c.autocommit || !c.inTxn then
    (.ok (), s)
  else if !c.alive then
    (.error .operational, s.withConn c.shut)
  else
    (.ok (), s.withConn c.ended)

/-- `conn.autocommit = b`. -/
def Pg.setAutocommitStep (b : Bool) (s : Pg W) : Except DbError Unit × Pg W :=
  if s.conn.closed then
    (.error .interface, s)
  else if s.conn.inTxn then
    (.error .programming, s)
  else
    (.ok (), s.withConn { s.conn with autocommit := b })

def cursorExecute (q : Stmt W) : PgM W Unit := actE .operational (Pg.executeStep q)

def connCommit (block : Nat) : PgM W Unit := actE .operational (Pg.commitStep block)

def connRollback : PgM W Unit := actE .operational Pg.rollbackStep

def setAutocommit (b : Bool) : PgM W Unit := actE .operational (Pg.setAutocommitStep b)

def getAutocommit : PgM W Bool := query .operational fun s => s.conn.autocommit

def connClose : PgM W Unit := act .operational fun s => ((), s.withConn s.conn.shut)

/-- The network takes the session away; no call of ours. -/
def dropConnection : PgM W Unit := act .operational fun s => ((), s.withConn s.conn.dropped)

end Psycopg

/-! ## The adapter -/

section Adapter

variable {W α : Type}

/-- `SELECT 1`. -/
def probe : Stmt W := ⟨none, true⟩

def Pg.reconnected (s : Pg W) : Pg W :=
  { s with conn := .fresh, generation := s.generation + 1 }

/-- `self._conn = self._connect()`; `up` says whether the server can be reached. -/
def connect (up : Bool) : PgM W Unit :=
  actE .operational fun s => if up then (.ok (), s.reconnected) else (.error .operational, s)

/-- Probes the connection and replaces it by a new autocommit one when the probe fails. -/
def ensureConn (up : Bool) : PgM W Unit :=
  (cursorExecute probe).tryCatch fun _ => do
    let _ ← connClose.attempt
    connect up

/-- `execute`, `fetch_one` and `fetch_all`: each ensures the connection and runs one statement. -/
def storeExecute (up : Bool) (q : Stmt W) : PgM W Unit := do
  ensureConn up
  cursorExecute q

/-- What follows the body of a block: switch autocommit on again, after a rollback if the block
failed. -/
def closeBlock (r : Except DbError α) : PgM W α :=
  match r with
  | .ok a => do
    setAutocommit true
    pure a
  | .error e => do
    let _ ← connRollback.attempt
    setAutocommit true
    .raise e

/-- `with store.transaction(): body`. -/
def storeTransaction (block : Nat) (up : Bool) (body : PgM W α) : PgM W α := do
  ensureConn up
  let autocommit ← getAutocommit
  if !autocommit then
    .raise .nestedTransaction
  else do
    setAutocommit false
    let r ← (do let a ← body; connCommit block; pure a : PgM W α).attempt
    closeBlock r

/-! ## The block of `merge_entities`

It toggles autocommit on the connection it finds in `ms._conn` when it starts, and keeps using
that connection; only its `fetch_one` and `execute` calls go through the store. -/

/-- A step on a connection held since `generation`; if the store has replaced it, it is closed. -/
def heldStep (generation : Nat) (f : Pg W → Except DbError Unit × Pg W) (s : Pg W) :
    Except DbError Unit × Pg W :=
  if s.generation = generation then f s else (.error .interface, s)

def heldExecute (generation : Nat) (q : Stmt W) : PgM W Unit :=
  actE .operational (heldStep generation (Pg.executeStep q))

def heldSetAutocommit (generation : Nat) (b : Bool) : PgM W Unit :=
  actE .operational (heldStep generation (Pg.setAutocommitStep b))

def closeMerge (held : Nat) (r : Except DbError α) : PgM W α :=
  match r with
  | .ok a => do
    heldSetAutocommit held true
    pure a
  | .error e => do
    (actE .operational (heldStep held Pg.rollbackStep)).tryFinally (heldSetAutocommit held true)
    .raise e

def mergeBlock (block : Nat) (body : Nat → PgM W α) : PgM W α := do
  let held ← query .operational fun s => s.generation
  (heldSetAutocommit held false).tryCatch fun _ =>
    .raise (.merge "entity_merge: failed to begin transaction")
  let r ← (do
    let a ← body held
    actE .operational (heldStep held (Pg.commitStep block))
    pure a : PgM W α).attempt
  closeMerge held r

end Adapter

end Lumogis
