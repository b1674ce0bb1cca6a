import Lumogis.Lib.Fault
import Lumogis.Lib.Table
import Mathlib.Data.List.AList
import Mathlib.Data.List.DropRight
import Mathlib.Data.List.SplitOn

/-!
# Permissions

Ask/Do permissions: the table `connector_permissions`, the cache in front of it, and the functions of
`permissions.py` that read and change them. One cache slot for each `(user_id, connector)` holds the
mode and the granted scopes. A reader that misses the cache selects the row and stores what it
found; a change writes the row and then drops the slot.
-/

namespace Lumogis

open Prog

/-- `(user_id, connector)`. -/
abbrev PermKey := String × String

structure PermRow where
  userId : String
  connector : String
  mode : String
  scopes : List String

def PermRow.key (r : PermRow) : PermKey := (r.userId, r.connector)

/-- The mode and the granted scopes. -/
structure Perm where
  mode : String
  scopes : List String
  deriving DecidableEq

structure ActionLogRow where
  userId : String
  connector : String
  actionType : String
  mode : String
  allowed : Bool

structure PermStore where
  connectorPermissions : List PermRow
  actionLog : List ActionLogRow
  /-- `_perm_cache`, in the memory of the process. -/
  permCache : AList fun _ : PermKey => Perm

inductive PermErr where
  | database
  | type (message : String)
  /-- `ValueError`, "Invalid mode" with the mode that was given. -/
  | invalidMode (mode : String)
  /-- `ValueError`, "invalid scope" with the scope that was given. -/
  | invalidScope (raw : String)

abbrev PermM (α : Type) := Prog PermStore PermErr α

def defaultMode : String := "ASK"

def validModes : List String := ["ASK", "DO"]

/-! ## Statements and cache operations -/

/-- The row's mode and scopes, or the default without a row. -/
def permOf (rows : List PermRow) (key : PermKey) : Perm :=
  match rows.find? fun r => r.key = key with
  | some row => ⟨row.mode, row.scopes⟩
  | none => ⟨defaultMode, []⟩

/-- `INSERT ... ON CONFLICT (user_id, connector) DO UPDATE SET f`. -/
def upsertPerm (row : PermRow) (f : PermRow → PermRow) (rows : List PermRow) : List PermRow :=
  if rows.any fun r => r.key = row.key then Table.updateWhere (fun r => r.key = row.key) f rows
  else rows ++ [row]

namespace PermStore

def perm (s : PermStore) (key : PermKey) : Perm := permOf s.connectorPermissions key

def cached (s : PermStore) (key : PermKey) : Option Perm := s.permCache.lookup key

def setRows (rows : List PermRow) (s : PermStore) : PermStore := { s with connectorPermissions := rows }

def fill (key : PermKey) (value : Perm) (s : PermStore) : PermStore :=
  { s with permCache := s.permCache.insert key value }

def drop (key : PermKey) (s : PermStore) : PermStore :=
  { s with permCache := s.permCache.erase key }

def log (row : ActionLogRow) (s : PermStore) : PermStore :=
  { s with actionLog := s.actionLog ++ [row] }

end PermStore

namespace Permissions

def cacheGet (key : PermKey) : PermM (Option Perm) := query .database fun s => s.cached key

def selectPerm (key : PermKey) : PermM Perm := query .database fun s => s.perm key

def cachePut (key : PermKey) (value : Perm) : PermM Unit :=
  act .database fun s => ((), s.fill key value)

def cachePop (key : PermKey) : PermM Unit := act .database fun s => ((), s.drop key)

def cacheKeys : PermM (List PermKey) := query .database fun s => s.permCache.keys

def upsertMode (key : PermKey) (mode : String) : PermM Unit :=
  act .database fun s => ((), s.setRows (upsertPerm ⟨key.1, key.2, mode, []⟩
    (fun r => { r with mode := mode }) s.connectorPermissions))

def upsertScopes (key : PermKey) (scopes : List String) : PermM Unit :=
  act .database fun s => ((), s.setRows (upsertPerm ⟨key.1, key.2, defaultMode, scopes⟩
    (fun r => { r with scopes := scopes }) s.connectorPermissions))

def deleteRow (key : PermKey) : PermM Unit :=
  act .database fun s =>
    ((), s.setRows (Table.deleteWhere (fun r => r.key = key) s.connectorPermissions))

def insertActionLog (row : ActionLogRow) : PermM Unit := act .database fun s => ((), s.log row)

/-! ## Functions -/

def requireUser (name userId : String) : PermM Unit :=
  if userId = "" then .raise (.type (name ++ ": user_id (keyword-only) is required")) else pure ()

def loadPerm (userId connector : String) : PermM Perm := do
  match ← cacheGet (userId, connector) with
  | some cached => pure cached
  | none =>
    let value ← selectPerm (userId, connector)
    cachePut (userId, connector) value
    pure value

def getConnectorMode (userId connector : String) : PermM String := do
  requireUser "get_connector_mode" userId
  return (← loadPerm userId connector).mode

def getGrantedScopes (userId connector : String) : PermM (List String) := do
  requireUser "get_granted_scopes" userId
  return (← loadPerm userId connector).scopes

/-- A failure to log is logged, not raised. -/
def logAction (row : ActionLogRow) : PermM Unit := do
  requireUser "log_action" row.userId
  match ← (insertActionLog row).attempt with
  | .ok () => pure ()
  | .error _ => pure ()

def checkPermission (connector actionType : String) (isWrite : Bool) (userId : String) :
    PermM Bool := do
  requireUser "check_permission" userId
  let mode ← getConnectorMode userId connector
  let allowed := !(isWrite && mode == "ASK")
  logAction ⟨userId, connector, actionType, mode, allowed⟩
  return allowed

def invalidateCache (userId connector : String) : PermM Unit := cachePop (userId, connector)

/-- The keys are those of a snapshot. -/
def clearCacheForUser (userId : String) : PermM Unit := do
  let keys ← cacheKeys
  forEach cachePop (keys.filter fun key => key.1 == userId)

def setConnectorMode (userId connector mode : String) : PermM Unit := do
  requireUser "set_connector_mode" userId
  if mode ∉ validModes then .raise (.invalidMode mode)
  else
    upsertMode (userId, connector) mode
    invalidateCache userId connector

def deleteUserPermission (userId connector : String) : PermM Unit := do
  requireUser "delete_user_permission" userId
  deleteRow (userId, connector)
  invalidateCache userId connector

/-- What `str.strip` removes. -/
def isPySpace (c : Char) : Bool :=
  (0x09 ≤ c.toNat && c.toNat ≤ 0x0d) || (0x1c ≤ c.toNat && c.toNat ≤ 0x20) ||
    (0x2000 ≤ c.toNat && c.toNat ≤ 0x200a) ||
    [0x85, 0xa0, 0x1680, 0x2028, 0x2029, 0x202f, 0x205f, 0x3000].contains c.toNat

def strip (s : String) : String :=
  String.ofList ((s.toList.dropWhile isPySpace).rdropWhile isPySpace)

theorem strip_strip (s : String) : strip (strip s) = strip s := by
  have hdrop : ((s.toList.dropWhile isPySpace).rdropWhile isPySpace).dropWhile isPySpace =
      (s.toList.dropWhile isPySpace).rdropWhile isPySpace := by
    have hpre := List.rdropWhile_prefix isPySpace (s.toList.dropWhile isPySpace)
    rw [List.dropWhile_eq_self_iff]
    intro hlen hblank
    have hhead := List.dropWhile_get_zero_not isPySpace s.toList (hlen.trans_le hpre.length_le)
    rw [List.get_eq_getElem] at hhead
    rw [hpre.getElem] at hblank
    exact hhead hblank
  rw [strip, strip, String.toList_ofList, hdrop, List.rdropWhile_idempotent]

/-- `[a-z0-9_]+`. -/
def isScopeWord (w : List Char) : Bool :=
  !w.isEmpty && w.all fun c => ('a' ≤ c && c ≤ 'z') || ('0' ≤ c && c ≤ '9') || c == '_'

/-- `[a-z0-9_]+:[a-z0-9_]+`. -/
def isScope (s : String) : Bool :=
  match s.toList.splitOn ':' with
  | [area, verb] => isScopeWord area && isScopeWord verb
  | _ => false

/-- Stripped, checked and without repetitions, in the order of the first occurrences. -/
def normaliseScopes (scopes : List String) : Except PermErr (List String) :=
  scopes.foldlM (fun out raw =>
    let s := strip raw
    if isScope s = false then .error (.invalidScope raw)
    else if s ∈ out then .ok out else .ok (out ++ [s])) []

def grantScopes (userId connector : String) (scopes : List String) : PermM Unit := do
  requireUser "grant_scopes" userId
  match normaliseScopes scopes with
  | .error e => .raise e
  | .ok clean =>
    upsertScopes (userId, connector) clean
    invalidateCache userId connector

end Permissions

end Lumogis
