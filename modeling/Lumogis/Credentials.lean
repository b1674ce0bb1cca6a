import Lumogis.Lib.Prog
import Mathlib.Data.List.AList
import Mathlib.Data.List.Sort

/-!
# Credentials

The encrypted connector credentials: one table per user and connector, and one per connector for
the household and for the instance. A put seals the payload under the primary key and upserts the
row; the sweep after a key rotation selects a table, seals each ciphertext anew, and updates the
row by its primary key.
-/

namespace Lumogis

open Prog

inductive CredTable where
  | user | household | system
  deriving DecidableEq

/-- A table and a primary key in it. -/
inductive CredKey where
  | user (userId connector : String)
  | household (connector : String)
  | system (connector : String)
  deriving DecidableEq

namespace CredKey

def table : CredKey → CredTable
  | .user _ _ => .user
  | .household _ => .household
  | .system _ => .system

def connector : CredKey → String
  | .user _ c | .household c | .system c => c

def userId : CredKey → String
  | .user u _ => u
  | .household _ | .system _ => ""

/-- `ORDER BY user_id ASC, connector ASC`; the tier tables have no `user_id`. -/
def le (a b : CredKey) : Bool :=
  decide (a.userId < b.userId) || (a.userId == b.userId && !decide (b.connector < a.connector))

end CredKey

/-- The columns of a row, less its times and the delivery pause. -/
structure CredRow (T : Type) where
  ciphertext : T
  keyVersion : Nat
  createdBy : String
  updatedBy : String

structure CredStore (T : Type) where
  rows : AList fun _ : CredKey => CredRow T

inductive CredErr where
  | lostConnection
  /-- `ValueError` of the actor, and of the connector's format. -/
  | invalidActor (actor : String)
  | invalidConnector (connector : String)
  | unknownConnector (connector : String)
  | credentialUnavailable
  deriving DecidableEq

/-- The registry, and the crypto of the process. The first argument of `encryptPayload` and of
`rotate` is the random IV. -/
structure CredEnv (T P : Type) where
  registered : List String
  currentKeyVersion : Nat
  encryptPayload : Nat → P → T
  /-- `none`: `CredentialUnavailable`. -/
  decryptPayload : T → Option P
  /-- `none`: `MultiFernet.rotate` raises. -/
  rotate : Nat → T → Option T
  /-- `MultiFernet.decrypt` returns. -/
  decrypts : T → Bool

/-- What is relied on of Fernet: a token decrypts to what was sealed, and its rotation to the same. -/
structure CredEnv.Sound {T P : Type} (env : CredEnv T P) : Prop where
  encrypt : ∀ iv payload, env.decryptPayload (env.encryptPayload iv payload) = some payload
  rotate : ∀ iv token token', env.rotate iv token = some token' →
    env.decryptPayload token' = env.decryptPayload token

abbrev CredM (T : Type) := Prog (CredStore T) CredErr

/-! ## Checks -/

def connectorMaxLen : Nat := 64

/-- `[a-z0-9_]`. -/
def isConnectorChar (c : Char) : Bool := c.isLower || c.isDigit || c == '_'

/-- A trailing newline, which the regex lets through, is left to the table's `CHECK`. -/
def validateFormat (connector : String) : Except CredErr Unit :=
  let cs := connector.toList
  if !cs.isEmpty && decide (cs.length ≤ connectorMaxLen) && cs.all isConnectorChar then .ok ()
  else .error (.invalidConnector connector)

def requireRegistered {T P : Type} (env : CredEnv T P) (connector : String) : Except CredErr Unit := do
  validateFormat connector
  if env.registered.contains connector then return else throw (.unknownConnector connector)

/-- `[A-Za-z0-9_\-]`. -/
def isActorChar (c : Char) : Bool := c.isAlphanum || c == '_' || c == '-'

/-- `admin:` and the admin's id. -/
def isAdminActor (actor : String) : Bool :=
  let cs := actor.toList
  let id := cs.drop 6
  cs.take 6 == "admin:".toList && !id.isEmpty && decide (id.length ≤ 64) && id.all isActorChar

def actorStr (actor : String) : Except CredErr String :=
  if actor == "self" || actor == "system" || isAdminActor actor then .ok actor
  else .error (.invalidActor actor)

def actorStrTiered (actor : String) : Except CredErr String :=
  if actor == "system" || isAdminActor actor then .ok actor else .error (.invalidActor actor)

def CredTable.actorStr : CredTable → String → Except CredErr String
  | .user => Lumogis.actorStr
  | .household | .system => actorStrTiered

def ofExcept {T α : Type} : Except CredErr α → CredM T α
  | .ok a => pure a
  | .error e => .raise e

/-! ## Statements -/

namespace CredStore

variable {T : Type}

/-- `INSERT ... ON CONFLICT DO UPDATE`: `created_by` stays that of the first write. -/
def upsert (key : CredKey) (ciphertext : T) (keyVersion : Nat) (actor : String) (s : CredStore T) :
    CredStore T :=
  let createdBy := ((s.rows.lookup key).map CredRow.createdBy).getD actor
  { s with rows := s.rows.insert key ⟨ciphertext, keyVersion, createdBy, actor⟩ }

def delete (key : CredKey) (s : CredStore T) : CredStore T := { s with rows := s.rows.erase key }

/-- `UPDATE ... SET ciphertext, key_version, updated_by WHERE` the primary key. -/
def reseal (key : CredKey) (ciphertext : T) (keyVersion : Nat) (actor : String) (s : CredStore T) :
    CredStore T :=
  match s.rows.lookup key with
  | none => s
  | some r => { s with rows := s.rows.insert key ⟨ciphertext, keyVersion, r.createdBy, actor⟩ }

/-- `SELECT ... ORDER BY` the primary key. -/
def select (table : CredTable) (s : CredStore T) : List (CredKey × CredRow T) :=
  let rows := s.rows.entries.filterMap fun e =>
    if e.1.table = table then some (e.1, e.2) else none
  rows.insertionSort fun a b => CredKey.le a.1 b.1 = true

end CredStore

section Functions

variable {T P : Type}

/-! ## Put, delete, get -/

structure CredRecord where
  key : CredKey
  createdBy : String
  updatedBy : String
  keyVersion : Nat

/-- The three puts differ in the table and in the actors that it takes. -/
def putRow (env : CredEnv T P) (iv : Nat) (key : CredKey) (payload : P) (actor : String) :
    CredM T CredRecord := do
  ofExcept (requireRegistered env key.connector)
  let actorClean ← ofExcept (key.table.actorStr actor)
  act .lostConnection fun s =>
    let t := s.upsert key (env.encryptPayload iv payload) env.currentKeyVersion actorClean
    (⟨key, ((t.rows.lookup key).map CredRow.createdBy).getD actorClean, actorClean,
      env.currentKeyVersion⟩, t)

def putPayload (env : CredEnv T P) (iv : Nat) (userId connector : String) (payload : P)
    (actor : String) : CredM T CredRecord :=
  putRow env iv (.user userId connector) payload actor

def householdPutPayload (env : CredEnv T P) (iv : Nat) (connector : String) (payload : P)
    (actor : String) : CredM T CredRecord :=
  putRow env iv (.household connector) payload actor

def systemPutPayload (env : CredEnv T P) (iv : Nat) (connector : String) (payload : P)
    (actor : String) : CredM T CredRecord :=
  putRow env iv (.system connector) payload actor

/-- `true` when a row was deleted. A connector that is no longer registered can be deleted. -/
def deleteRow (key : CredKey) (actor : String) : CredM T Bool := do
  ofExcept (validateFormat key.connector)
  let _ ← ofExcept (key.table.actorStr actor)
  act .lostConnection fun s => ((s.rows.lookup key).isSome, s.delete key)

def deletePayload (userId connector actor : String) : CredM T Bool :=
  deleteRow (.user userId connector) actor

def householdDeletePayload (connector actor : String) : CredM T Bool :=
  deleteRow (.household connector) actor

def systemDeletePayload (connector actor : String) : CredM T Bool :=
  deleteRow (.system connector) actor

def getRow (env : CredEnv T P) (key : CredKey) : CredM T (Option P) := do
  ofExcept (requireRegistered env key.connector)
  match ← query .lostConnection fun s => s.rows.lookup key with
  | none => return none
  | some row =>
    match env.decryptPayload row.ciphertext with
    | none => .raise .credentialUnavailable
    | some payload => return some payload

def getPayload (env : CredEnv T P) (userId connector : String) : CredM T (Option P) :=
  getRow env (.user userId connector)

def householdGetPayload (env : CredEnv T P) (connector : String) : CredM T (Option P) :=
  getRow env (.household connector)

def systemGetPayload (env : CredEnv T P) (connector : String) : CredM T (Option P) :=
  getRow env (.system connector)

/-! ## The sweep -/

structure SweepCounts where
  rotated : Nat
  skipped : Nat
  failed : Nat

def SweepCounts.zero : SweepCounts := ⟨0, 0, 0⟩

def SweepCounts.add (a b : SweepCounts) : SweepCounts :=
  ⟨a.rotated + b.rotated, a.skipped + b.skipped, a.failed + b.failed⟩

/-- The new token of a row, `none` when the row is not to be updated. -/
def resealed (env : CredEnv T P) (iv : Nat) (row : CredRow T) : Option T :=
  if row.keyVersion = env.currentKeyVersion then none
  else (env.rotate iv row.ciphertext).filter env.decrypts

/-- One round of the loop over what was selected. -/
def reencryptRow (env : CredEnv T P) (iv : CredKey → Nat) (actor : String) (counts : SweepCounts)
    (row : CredKey × CredRow T) : CredM T SweepCounts := do
  match resealed env (iv row.1) row.2 with
  | none =>
    if row.2.keyVersion = env.currentKeyVersion then
      return { counts with skipped := counts.skipped + 1 }
    else return { counts with failed := counts.failed + 1 }
  | some newToken =>
    match ← (act .lostConnection fun s =>
      ((), s.reseal row.1 newToken env.currentKeyVersion actor)).attempt with
    | .error _ => return { counts with failed := counts.failed + 1 }
    | .ok _ => return { counts with rotated := counts.rotated + 1 }

/-- The two sweeps, over the per-user table and over a tier's, are alike. -/
def reencryptTable (env : CredEnv T P) (iv : CredKey → Nat) (table : CredTable) (actor : String) :
    CredM T SweepCounts := do
  let rows ← query .lostConnection (CredStore.select table)
  foldM (reencryptRow env iv actor) .zero rows

def reencryptUserTable (env : CredEnv T P) (iv : CredKey → Nat) (actorClean : String) :
    CredM T SweepCounts :=
  reencryptTable env iv .user actorClean

/-- The tier's entry point takes fewer actors than the rotation's. -/
def reencryptTierToCurrentVersion (env : CredEnv T P) (iv : CredKey → Nat) (table : CredTable)
    (actor : String) : CredM T SweepCounts := do
  let actorClean ← ofExcept (actorStrTiered actor)
  reencryptTable env iv table actorClean

def reencryptHouseholdToCurrentVersion (env : CredEnv T P) (iv : CredKey → Nat) (actor : String) :
    CredM T SweepCounts :=
  reencryptTierToCurrentVersion env iv .household actor

def reencryptSystemToCurrentVersion (env : CredEnv T P) (iv : CredKey → Nat) (actor : String) :
    CredM T SweepCounts :=
  reencryptTierToCurrentVersion env iv .system actor

structure SweepSummary where
  totals : SweepCounts
  /-- A table that was not walked is left out. -/
  byTier : List (CredTable × SweepCounts)

def SweepSummary.with_ (table : CredTable) (counts : SweepCounts) (s : SweepSummary) : SweepSummary :=
  { totals := s.totals.add counts, byTier := s.byTier ++ [(table, counts)] }

def reencryptTier (env : CredEnv T P) (iv : CredKey → Nat) (actor : String) (table : CredTable) :
    CredM T SweepCounts :=
  match table with
  | .user => reencryptUserTable env iv actor
  | .household => reencryptHouseholdToCurrentVersion env iv actor
  | .system => reencryptSystemToCurrentVersion env iv actor

/-- The tables are walked in this order, whatever order they are asked for in. -/
def allCredTables : List CredTable := [.user, .household, .system]

def reencryptAllToCurrentVersion (env : CredEnv T P) (iv : CredKey → Nat) (actor : String)
    (tables : List CredTable) : CredM T SweepSummary := do
  let actorClean ← ofExcept (actorStr actor)
  foldM (fun summary table => do
      let counts ← reencryptTier env iv actorClean table
      return SweepSummary.with_ table counts summary)
    ⟨.zero, []⟩ (allCredTables.filter fun t => decide (t ∈ tables))

end Functions

end Lumogis
