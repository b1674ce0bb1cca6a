import Lumogis.Store
import Mathlib.Algebra.Group.Nat.Defs

/-!
# ShareLock

The per-document advisory lock. It is held by a session of its own; when the session cannot be
opened or the lock call fails, the body runs without the lock.
-/

namespace Lumogis

open Prog

/-- `int(document_id) & 0x7FFFFFFF`. -/
def advisoryKey2 (documentId : Nat) : Nat := documentId % 2 ^ 31

def Store.lockFree (key : Nat) (s : Store) : Bool := s.locks.all fun l => l.1 != key

/-- The session that holds the lock, if any. -/
def Store.lockOwner (key : Nat) (s : Store) : Option Nat :=
  (s.locks.find? fun l => l.1 == key).map Prod.snd

/-- `SELECT pg_advisory_lock(...)`: waits until no session holds the key. -/
def pgAdvisoryLock (sess key : Nat) : M Unit :=
  await .database (Store.lockFree key) fun s => { s with locks := (key, sess) :: s.locks }

def pgAdvisoryUnlock (sess key : Nat) : M Unit :=
  act .database fun s => ((), { s with locks := s.locks.filter fun l => l != (key, sess) })

/-- `conn.close()` on the lock session: the server drops every lock the session holds. -/
def closeSession (sess : Nat) : M Unit :=
  act .database fun s => ((), { s with locks := s.locks.filter fun l => l.2 != sess })

/-- `with share_document_lock(document_id): body`. -/
def shareDocumentLock {α : Type} (sess documentId : Nat) (body : M α) : M α := do
  match ← (pgAdvisoryLock sess (advisoryKey2 documentId)).attempt with
  | .error _ => do
    let _ ← (closeSession sess).attempt
    body
  | .ok _ =>
    body.tryFinally do
      let _ ← (pgAdvisoryUnlock sess (advisoryKey2 documentId)).attempt
      let _ ← (closeSession sess).attempt
      pure ()

end Lumogis
