import Lumogis.Accounts
import Lumogis.Lib.Labelled
import Mathlib.Logic.Function.Basic

/-!
# Invites

`redeem_invite` and `revoke_invite`, one statement at a time, over any number of callers, any of
whose statements may fail. All of them share one connection:

* a transaction is a mode of the connection, and a statement of another caller that is executed
  meanwhile becomes part of it;
* a failed statement aborts the open transaction, and the next statement of anybody finds the
  connection broken and replaces it: what the transaction has written is lost, and the statement
  that follows commits by itself;
* `NOW()` is the time of the transaction's first statement.
-/

namespace Lumogis

/-- A row of `user_invites`, under its `id`. -/
structure InviteRow where
  tokenPrefix : String
  tokenHash : String
  role : Role
  allowsShared : Bool
  expiresAt : Nat
  usedAt : Option Nat
  usedBy : Option String
  revokedAt : Option Nat

namespace InviteRow

/-- `used_at IS NULL AND revoked_at IS NULL`. -/
def unspent (r : InviteRow) : Bool := r.usedAt.isNone && r.revokedAt.isNone

/-- `unspent` and `expires_at > NOW()`. -/
def active (now : Nat) (r : InviteRow) : Bool := r.unspent && decide (now < r.expiresAt)

end InviteRow

/-- A user and the invite that they were created from. -/
structure Origin where
  invite : String
  user : String
  createdAt : Nat
  deriving DecidableEq

structure InviteTables where
  invites : AList fun _ : String => InviteRow
  users : Users
  /-- Which users were created from invites. -/
  origins : List Origin

namespace InviteTables

/-- `UPDATE user_invites SET f WHERE id = %s AND p`. -/
def updateInvite (id : String) (p : InviteRow → Bool) (f : InviteRow → InviteRow)
    (t : InviteTables) : InviteTables :=
  match t.invites.lookup id with
  | some r => if p r then { t with invites := t.invites.insert id (f r) } else t
  | none => t

end InviteTables

structure InviteEnv where
  lower : String → String
  sha256 : String → String
  /-- `validate_user_email`: the normalised address. -/
  validateEmail : String → Option String
  validPassword : String → Bool
  hashPassword : String → String

/-- `_parse_plaintext`. -/
def parsePlaintext (env : InviteEnv) (plaintext : String) : Option (String × String) :=
  let tag := "linv_".toList
  let body := plaintext.toList.drop tag.length
  if tag.isPrefixOf plaintext.toList = false then none
  else if body.length < 16 then none
  else some (String.ofList (body.take 16), env.sha256 plaintext)

/-- What a redemption has in hand once the invite is found and the inputs are valid. -/
structure Redemption where
  invite : String
  user : String
  account : AccountRow

inductive RedeemStage where
  | found
  /-- Inside `with ms.transaction()`. -/
  | begun
  | checked
  | consumed
  | inserted
  /-- The block has raised. -/
  | raising
  | committed
  | auditing
  deriving DecidableEq

inductive RevokeStage where
  | selected
  | updated

inductive InvitePhase where
  | idle
  | redeem (r : Redemption) (stage : RedeemStage)
  | revoke (invite : String) (stage : RevokeStage)

/-- An open transaction. -/
structure InviteTxn (ι : Type) where
  /-- The caller that began it. -/
  owner : ι
  /-- What a rollback restores. -/
  saved : InviteTables
  /-- A statement has failed. -/
  failed : Bool
  /-- The time of the first statement. -/
  started : Option Nat

structure InviteConfig (ι : Type) where
  /-- What statements see. -/
  tables : InviteTables
  txn : Option (InviteTxn ι)
  now : Nat
  phase : ι → InvitePhase
  /-- Revocations that returned `True`. -/
  reported : List String
  /-- The users of redemptions that raised. -/
  raised : List String
  /-- The ids that `uuid4` has drawn. -/
  drawn : List String

/-- `ok` says whether the statement succeeds. -/
inductive InviteLabel (ι : Type) where
  | redeem (i : ι) (plaintext email password user : String) (ok : Bool)
  | begin (i : ι)
  | selectEmail (i : ι) (ok : Bool)
  | consume (i : ι) (ok : Bool)
  | insertUser (i : ι) (ok : Bool)
  | commit (i : ι) (ok : Bool)
  | rollback (i : ι)
  | selectUser (i : ι) (ok : Bool)
  | revoke (i : ι) (invite : String) (ok : Bool)
  | updateRevoked (i : ι) (ok : Bool)
  /-- The `INSERT` into `audit_log`; its failure is only logged. -/
  | audit (i : ι) (ok : Bool)
  | tick

section System

variable {ι : Type} [DecidableEq ι]

namespace InviteConfig

def move (i : ι) (p : InvitePhase) (c : InviteConfig ι) : InviteConfig ι :=
  { c with phase := Function.update c.phase i p }

/-- A redemption raises. -/
def raise (i : ι) (user : String) (c : InviteConfig ι) : InviteConfig ι :=
  { c with raised := user :: c.raised }.move i .idle

/-- What has been committed. -/
def durable (c : InviteConfig ι) : InviteTables :=
  match c.txn with
  | none => c.tables
  | some t => t.saved

/-- Ends the open transaction, if there is one, without its writes. -/
def undo (c : InviteConfig ι) : InviteConfig ι := { c with tables := c.durable, txn := none }

/-- `_ensure_conn`: an aborted transaction makes it replace the connection. -/
def ensureConn (c : InviteConfig ι) : InviteConfig ι :=
  match c.txn with
  | some t => if t.failed then c.undo else c
  | none => c

/-- `NOW()`. -/
def sqlNow (c : InviteConfig ι) : Nat :=
  match c.txn with
  | some t => t.started.getD c.now
  | none => c.now

/-- Sends a statement over a connection that has been ensured. -/
def send (ok : Bool) (c : InviteConfig ι) : InviteConfig ι :=
  { c with txn := c.txn.map fun t => { t with failed := !ok, started := some c.sqlNow } }

/-- The connection after `_ensure_conn` and a statement. -/
def statement (ok : Bool) (c : InviteConfig ι) : InviteConfig ι := c.ensureConn.send ok

def setTables (tables : InviteTables) (c : InviteConfig ι) : InviteConfig ι :=
  { c with tables := tables }

def commit (c : InviteConfig ι) : InviteConfig ι :=
  match c.txn with
  | some t => if t.failed then c.undo else { c with txn := none }
  | none => c

end InviteConfig

/-- Looks the invite up and checks the inputs. -/
def findInvite (env : InviteEnv) (plaintext email password user : String) (c : InviteConfig ι) :
    Option Redemption :=
  (parsePlaintext env plaintext).bind fun parsed =>
    (c.tables.invites.entries.find? fun e =>
      e.2.tokenPrefix == parsed.1 && e.2.active c.sqlNow).bind fun e =>
      if parsed.2 = e.2.tokenHash then
        (env.validateEmail email).bind fun normalised =>
          if env.validPassword password then
            some { invite := e.1, user := user
                   account := { email := normalised, passwordHash := env.hashPassword password
                                role := e.2.role, disabled := false, tokenVersion := 1
                                allowsShared := e.2.allowsShared } }
          else none
      else none

/-- The `UPDATE` that consumes the invite. -/
def consumeInvite (r : Redemption) (now : Nat) : InviteTables → InviteTables :=
  InviteTables.updateInvite r.invite (·.active now)
    fun row => { row with usedAt := some now, usedBy := some r.user }

/-- It has a row to consume. -/
def consumable (r : Redemption) (now : Nat) (t : InviteTables) : Bool :=
  match t.invites.lookup r.invite with
  | some row => row.active now
  | none => false

/-- `users.id` and `users.email` are unique. -/
def insertable (r : Redemption) (t : InviteTables) : Bool :=
  (t.users.lookup r.user).isNone && t.users.entries.all fun e => e.2.email != r.account.email

def insertUser (r : Redemption) (now : Nat) (t : InviteTables) : InviteTables :=
  { t with
    users := t.users.insert r.user r.account
    origins := { invite := r.invite, user := r.user, createdAt := now } :: t.origins }

def revokeInvite (invite : String) (now : Nat) : InviteTables → InviteTables :=
  InviteTables.updateInvite invite (·.unspent) fun row => { row with revokedAt := some now }

def inviteStep (env : InviteEnv) : InviteLabel ι → InviteConfig ι → Option (InviteConfig ι)
  | .redeem i plaintext email password user ok, c =>
    match c.phase i with
    | .idle =>
      if user ∈ c.drawn then none
      else if (parsePlaintext env plaintext).isNone then some c
      else
        let e := c.ensureConn
        match if ok then findInvite env plaintext email password user e else none with
        | none => some (e.send ok)
        | some r => some ({ e.send ok with drawn := user :: c.drawn }.move i (.redeem r .found))
    | _ => none
  | .begin i, c =>
    match c.phase i with
    | .redeem r .found =>
      let e := c.ensureConn
      match e.txn with
      -- "nested transactions not supported"
      | some _ => some (e.raise i r.user)
      | none =>
        let txn := { owner := i, saved := e.tables, failed := false, started := none }
        some ({ e with txn := some txn }.move i (.redeem r .begun))
    | _ => none
  | .selectEmail i ok, c =>
    match c.phase i with
    | .redeem r .begun =>
      let e := c.ensureConn
      let existing := e.tables.users.entries.any fun u =>
        env.lower u.2.email == env.lower r.account.email
      some ((e.send ok).move i (.redeem r (if ok && !existing then .checked else .raising)))
    | _ => none
  | .consume i ok, c =>
    match c.phase i with
    | .redeem r .checked =>
      let e := c.ensureConn
      if ok && consumable r e.sqlNow e.tables then
        some (((e.send true).setTables (consumeInvite r e.sqlNow e.tables)).move i
          (.redeem r .consumed))
      else some ((e.send ok).move i (.redeem r .raising))
    | _ => none
  | .insertUser i ok, c =>
    match c.phase i with
    | .redeem r .consumed =>
      let e := c.ensureConn
      if ok && insertable r e.tables then
        some (((e.send true).setTables (insertUser r e.sqlNow e.tables)).move i
          (.redeem r .inserted))
      else some ((e.send false).move i (.redeem r .raising))
    | _ => none
  | .commit i ok, c =>
    match c.phase i with
    | .redeem r .inserted =>
      some (if ok then c.commit.move i (.redeem r .committed) else c.move i (.redeem r .raising))
    | _ => none
  | .rollback i, c =>
    match c.phase i with
    | .redeem r .raising => some (c.undo.raise i r.user)
    | _ => none
  | .selectUser i ok, c =>
    match c.phase i with
    | .redeem r .committed =>
      let e := c.ensureConn
      if ok && (e.tables.users.lookup r.user).isSome then
        some ((e.send ok).move i (.redeem r .auditing))
      else some ((e.send ok).raise i r.user)
    | _ => none
  | .revoke i invite ok, c =>
    match c.phase i with
    | .idle =>
      let e := c.ensureConn
      if ok && (e.tables.invites.lookup invite).any InviteRow.unspent then
        some ((e.send ok).move i (.revoke invite .selected))
      else some (e.send ok)
    | _ => none
  | .updateRevoked i ok, c =>
    match c.phase i with
    | .revoke invite .selected =>
      let e := c.ensureConn
      if ok then
        some (((e.send true).setTables (revokeInvite invite e.sqlNow e.tables)).move i
          (.revoke invite .updated))
      else some ((e.send false).move i .idle)
    | _ => none
  | .audit i ok, c =>
    match c.phase i with
    | .redeem _ .auditing => some ((c.statement ok).move i .idle)
    | .revoke invite .updated =>
      some ({ c.statement ok with reported := invite :: c.reported }.move i .idle)
    | _ => none
  | .tick, c => some { c with now := c.now + 1 }

end System

end Lumogis
