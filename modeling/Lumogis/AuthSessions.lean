import Lumogis.Lib.Prog
import Lumogis.Lib.Table

/-!
# AuthSessions

Browser sessions: the tables `auth_sessions` and `users`, the rotation of refresh tokens with its
reuse detection, and the calls that revoke every session of a user.

All of them share one connection: a transaction is a mode of that connection, every statement sees
what the earlier ones have written, and a rollback restores what was there when the transaction
began. A second `transaction()` while one is open raises. Times are in seconds.
-/

namespace Lumogis

open Prog

structure AuthSessionRow where
  id : String
  userId : String
  familyId : String
  refreshTokenHash : String
  expiresAt : Nat
  revokedAt : Option Nat
  deviceLabel : String
  ipHash : String
  uaHash : String
  deriving DecidableEq

structure AuthUserRow where
  id : String
  passwordHash : String
  disabled : Bool
  tokenVersion : Nat

structure AuthTables where
  authSessions : List AuthSessionRow
  users : List AuthUserRow

structure AuthStore where
  tables : AuthTables
  /-- What a rollback restores, while a transaction is open. -/
  saved : Option AuthTables
  now : Nat
  /-- How many `uuid4` values have been drawn. -/
  drawn : Nat

inductive AuthErr where
  | database
  | nestedTransaction
  | uniqueViolation
  /-- `RefreshError`, "invalid refresh token". -/
  | refresh
  /-- `RefreshReuseError`, "refresh token reused". -/
  | refreshReuse
  | passwordPolicy
  | runtime (message : String)
  deriving DecidableEq

abbrev AuthM (α : Type) := Prog AuthStore AuthErr α

structure AuthEnv where
  /-- The `n`th `uuid4().hex`. -/
  uuid4 : Nat → String
  /-- SHA-256, in hexadecimal digits. -/
  hashRefreshPlaintext : String → String
  mintRefreshToken : (userId jti : String) → (now : Nat) → String
  validPassword : String → Bool
  hashPassword : String → String

namespace AuthStore

def setTables (t : AuthTables) (s : AuthStore) : AuthStore := { s with tables := t }

def setSessions (rows : List AuthSessionRow) (s : AuthStore) : AuthStore :=
  s.setTables { s.tables with authSessions := rows }

def updateUser (userId : String) (f : AuthUserRow → AuthUserRow) (s : AuthStore) : AuthStore :=
  s.setTables { s.tables with users := Table.updateWhere (·.id = userId) f s.tables.users }

/-- `UPDATE auth_sessions SET revoked_at = NOW() WHERE p AND revoked_at IS NULL`. -/
def revokeWhere (p : AuthSessionRow → Bool) (s : AuthStore) : AuthStore :=
  s.setSessions (Table.updateWhere (fun r => p r && r.revokedAt.isNone)
    (fun r => { r with revokedAt := some s.now }) s.tables.authSessions)

end AuthStore

namespace AuthSessions

/-! ## Statements -/

def beginTransaction : AuthM Unit :=
  actE .database fun s =>
    if s.saved.isSome then (.error .nestedTransaction, s)
    else (.ok (), { s with saved := some s.tables })

def commit : AuthM Unit := act .database fun s => ((), { s with saved := none })

def rollback : AuthM Unit :=
  act .database fun s => ((), { s with tables := s.saved.getD s.tables, saved := none })

/-- `with ms.transaction(): body`. -/
def transaction {α : Type} (body : AuthM α) : AuthM α := do
  beginTransaction
  match ← (do let a ← body; commit; pure a : AuthM α).attempt with
  | .ok a => pure a
  | .error e => do
    rollback
    .raise e

def selectSession (jti userId : String) : AuthM (Option AuthSessionRow) :=
  query .database fun s =>
    s.tables.authSessions.find? fun r => r.id == jti && r.userId == userId

def selectTokenVersion (userId : String) : AuthM (Option Nat) :=
  query .database fun s => (s.tables.users.find? (·.id == userId)).map AuthUserRow.tokenVersion

def insertSession (row : AuthSessionRow) : AuthM Unit :=
  actE .database fun s =>
    if s.tables.authSessions.any (·.id == row.id) then (.error .uniqueViolation, s)
    else (.ok (), s.setSessions (s.tables.authSessions ++ [row]))

def revokeById (sessionId : String) : AuthM Unit :=
  act .database fun s => ((), s.revokeWhere (·.id == sessionId))

def revokeFamily (familyId : String) : AuthM Unit :=
  act .database fun s => ((), s.revokeWhere (·.familyId == familyId))

def revokeAllActiveInTransactionForUser (userId : String) : AuthM Unit :=
  act .database fun s => ((), s.revokeWhere (·.userId == userId))

/-- `token_version + 1`, returned if the row is there. -/
def bumpTokenVersion (userId : String) : AuthM (Option Nat) :=
  act .database fun s =>
    ((s.tables.users.find? (·.id == userId)).map (·.tokenVersion + 1),
      s.updateUser userId fun r => { r with tokenVersion := r.tokenVersion + 1 })

def updatePassword (userId pwHash : String) : AuthM Unit :=
  act .database fun s => ((), s.updateUser userId fun r =>
    { r with passwordHash := pwHash, tokenVersion := r.tokenVersion + 1 })

def updateDisabled (userId : String) : AuthM Unit :=
  act .database fun s => ((), s.updateUser userId fun r =>
    { r with disabled := true, tokenVersion := r.tokenVersion + 1 })

def uuid4 (env : AuthEnv) : AuthM String :=
  act .database fun s => (env.uuid4 s.drawn, { s with drawn := s.drawn + 1 })

def clock : AuthM Nat := query .database fun s => s.now

/-! ## Functions -/

def insertLoginSession (env : AuthEnv) (sessionId userId refreshJwt : String) (expiresAt : Nat)
    (deviceLabel ipHash uaHash : String) : AuthM String := do
  insertSession { id := sessionId, userId := userId, familyId := sessionId
                  refreshTokenHash := env.hashRefreshPlaintext refreshJwt
                  expiresAt := expiresAt, revokedAt := none
                  deviceLabel := deviceLabel, ipHash := ipHash, uaHash := uaHash }
  return sessionId

def handleReuse (sess : AuthSessionRow) : AuthM Unit := transaction (revokeFamily sess.familyId)

/-- The successor of `sess`. -/
def successor (env : AuthEnv) (sess : AuthSessionRow) (userId newId newRefresh : String)
    (expiresAt : Nat) : AuthSessionRow :=
  { id := newId, userId := userId, familyId := sess.familyId
    refreshTokenHash := env.hashRefreshPlaintext newRefresh
    expiresAt := expiresAt, revokedAt := none
    deviceLabel := sess.deviceLabel, ipHash := sess.ipHash, uaHash := sess.uaHash }

def rotateRefresh (env : AuthEnv) (userId jti refreshJwt : String) (refreshTtlSeconds : Nat) :
    AuthM (String × String × Nat) := do
  let now ← clock
  match ← selectSession jti userId with
  | none => .raise .refresh
  | some sess =>
    let presentedHash := env.hashRefreshPlaintext refreshJwt
    if sess.revokedAt.isSome then
      if presentedHash ≠ sess.refreshTokenHash then .raise .refresh
      else do
        handleReuse sess
        .raise .refreshReuse
    else if sess.expiresAt < now then .raise .refresh
    else if presentedHash ≠ sess.refreshTokenHash then .raise .refresh
    else
      match ← selectTokenVersion userId with
      | none => .raise .refresh
      | some tokenVersion => do
        let newId ← uuid4 env
        let now ← clock
        let newRefresh := env.mintRefreshToken userId newId now
        transaction do
          insertSession (successor env sess userId newId newRefresh (now + refreshTtlSeconds))
          revokeById jti
        return (newId, newRefresh, tokenVersion)

def bumpTokenVersionAndRevokeAllSessions (userId : String) : AuthM Nat :=
  transaction do
    match ← bumpTokenVersion userId with
    | none => .raise (.runtime "user row missing during token bump")
    | some newVer => do
      revokeAllActiveInTransactionForUser userId
      return newVer

/-- `_apply_new_password` of `users.py`. -/
def applyNewPassword (env : AuthEnv) (userId newPassword : String) : AuthM Unit :=
  if env.validPassword newPassword = false then .raise .passwordPolicy
  else
    transaction do
      updatePassword userId (env.hashPassword newPassword)
      revokeAllActiveInTransactionForUser userId

/-- `set_disabled(user_id, True)` of `users.py`. -/
def setDisabled (userId : String) : AuthM Unit :=
  transaction do
    revokeAllActiveInTransactionForUser userId
    updateDisabled userId

end AuthSessions

end Lumogis
