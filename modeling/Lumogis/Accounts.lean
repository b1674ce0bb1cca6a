import Lumogis.Visibility
import Mathlib.Data.List.AList
import Mathlib.Data.List.NodupEquivFin

/-!
# Accounts

The table `users` as the account code reads and changes it, and the bounded cache with a time to
live that `auth.py` keeps twice, of token versions and of session verdicts. Times are in seconds.
-/

namespace Lumogis

/-- A row of `users`, under its `id`. -/
structure AccountRow where
  email : String
  passwordHash : String
  role : Role
  disabled : Bool
  tokenVersion : Nat
  allowsShared : Bool

abbrev Users := AList fun _ : String => AccountRow

namespace AccountRow

/-- `role = 'admin' AND disabled = FALSE`. -/
def activeAdmin (r : AccountRow) : Bool := r.role == .admin && !r.disabled

/-- `token_version + 1`. -/
def bump (r : AccountRow) : AccountRow := { r with tokenVersion := r.tokenVersion + 1 }

end AccountRow

namespace Users

/-- `UPDATE users SET f WHERE id = user_id`. -/
def update (userId : String) (f : AccountRow → AccountRow) (users : Users) : Users :=
  match users.lookup userId with
  | none => users
  | some r => users.insert userId (f r)

/-- The statement of `update_role`. -/
def updateRole (userId : String) (role : Role) : Users → Users :=
  update userId fun r => { r with role := role }

/-- `UPDATE users SET disabled = TRUE, token_version = token_version + 1`. -/
def disable (userId : String) : Users → Users :=
  update userId fun r => { r.bump with disabled := true }

def enable (userId : String) : Users → Users :=
  update userId fun r => { r with disabled := false }

def updatePassword (userId pwHash : String) : Users → Users :=
  update userId fun r => { r.bump with passwordHash := pwHash }

def delete (userId : String) (users : Users) : Users := users.erase userId

def countAdmins (users : Users) : Nat := (users.entries.filter fun e => e.2.activeAdmin).length

def HasActiveAdmin (users : Users) : Prop :=
  ∃ userId r, users.lookup userId = some r ∧ r.activeAdmin = true

theorem lookup_update {userId u : String} {f : AccountRow → AccountRow} {users : Users} :
    (users.update userId f).lookup u =
      if u = userId then (users.lookup u).map f else users.lookup u := by
  rw [update]
  by_cases hu : u = userId
  · subst hu
    rw [if_pos rfl]
    cases h : users.lookup u with
    | none => exact h
    | some r => exact AList.lookup_insert _
  · rw [if_neg hu]
    cases users.lookup userId with
    | none => rfl
    | some r => exact AList.lookup_insert_ne hu

theorem lookup_delete {userId u : String} {users : Users} :
    (users.delete userId).lookup u = if u = userId then none else users.lookup u := by
  rw [delete]
  split
  · rename_i hu
    rw [hu]
    exact AList.lookup_erase _ _
  · rename_i hu
    exact AList.lookup_erase_ne hu

end Users

/-! ## The caches of `auth.py` -/

/-- `_TTLVersionLRU`, of token versions, and `_TTLSidLRU`, of verdicts: what they hold is stored
with the time of the `put`, most recently used first. -/
structure TTLLRU (α : Type) where
  maxsize : Nat
  data : AList fun _ : String => α × Nat

namespace TTLLRU

variable {α : Type} {ttl now : Nat} {k k' : String} {a b : α} {e : α × Nat} {c : TTLLRU α}

def getFresh (ttl now : Nat) (k : String) (c : TTLLRU α) : Option α × TTLLRU α :=
  if ttl = 0 then (none, c)
  else
    match c.data.lookup k with
    | none => (none, c)
    | some (a, ts) =>
      if ttl < now - ts then (none, { c with data := c.data.erase k })
      else (some a, { c with data := c.data.insert k (a, ts) })

/-- The most recently used entries. -/
def trim (c : TTLLRU α) : TTLLRU α :=
  { c with data := ⟨c.data.entries.take c.maxsize,
      c.data.nodupKeys.sublist (List.take_sublist c.maxsize c.data.entries)⟩ }

def put (now : Nat) (k : String) (a : α) (c : TTLLRU α) : TTLLRU α :=
  trim { c with data := c.data.insert k (a, now) }

def invalidate (k : String) (c : TTLLRU α) : TTLLRU α := { c with data := c.data.erase k }

/-- What is stored under a key, fresh or not. -/
def held (c : TTLLRU α) (k : String) : Option α := (c.data.lookup k).map Prod.fst

theorem lookup_invalidate :
    (c.invalidate k).data.lookup k' = if k' = k then none else c.data.lookup k' := by
  rw [invalidate]
  split
  · rename_i h
    rw [h]
    exact AList.lookup_erase _ _
  · rename_i h
    exact AList.lookup_erase_ne h

theorem held_invalidate : (c.invalidate k).held k' = if k' = k then none else c.held k' := by
  rw [held, lookup_invalidate]
  split
  · rfl
  · rfl

theorem lookup_trim (h : c.trim.data.lookup k = some e) : c.data.lookup k = some e := by
  rw [← Option.mem_def, AList.mem_lookup_iff] at h ⊢
  exact List.mem_of_mem_take h

/-- A `put` changes one key, and may drop keys. -/
theorem lookup_put (h : (c.put now k a).data.lookup k' = some e) :
    (if k' = k then some (a, now) else c.data.lookup k') = some e := by
  have hput := lookup_trim h
  split
  · rename_i hk
    rwa [hk, AList.lookup_insert] at hput
  · rename_i hk
    rwa [AList.lookup_insert_ne hk] at hput

theorem held_put (h : (c.put now k a).held k' = some b) :
    (if k' = k then some a else c.held k') = some b := by
  rw [held, Option.map_eq_some_iff] at h
  obtain ⟨e, he, rfl⟩ := h
  have hput := lookup_put he
  split
  · rename_i hk
    rw [if_pos hk] at hput
    rw [← Option.some.inj hput]
  · rename_i hk
    rw [if_neg hk] at hput
    rw [held, hput]
    rfl

theorem getFresh_hit (h : (c.getFresh ttl now k).1 = some a) :
    (∃ ts, c.data.lookup k = some (a, ts) ∧ ttl ≠ 0 ∧ now - ts ≤ ttl) ∧
      ∀ k', (c.getFresh ttl now k).2.data.lookup k' = c.data.lookup k' := by
  rw [getFresh] at h ⊢
  split at h
  · cases h
  · rename_i httl
    rw [if_neg httl]
    cases hlookup : c.data.lookup k with
    | none => rw [hlookup] at h; cases h
    | some e =>
      obtain ⟨a', ts⟩ := e
      rw [hlookup] at h
      simp only at h ⊢
      split at h
      · cases h
      · rename_i hfresh
        cases h
        refine ⟨⟨ts, rfl, httl, Nat.le_of_not_lt hfresh⟩, fun k' => ?_⟩
        rw [if_neg hfresh]
        by_cases hk : k' = k
        · subst hk
          rw [AList.lookup_insert, hlookup]
        · rw [AList.lookup_insert_ne hk]

theorem getFresh_of_lookup {ts : Nat} (h : c.data.lookup k = some (a, ts)) (httl : ttl ≠ 0)
    (hfresh : now - ts ≤ ttl) : (c.getFresh ttl now k).1 = some a := by
  rw [getFresh, if_neg httl, h]
  simp only [if_neg (Nat.not_lt.mpr hfresh)]

theorem held_of_hit (h : (c.getFresh ttl now k).1 = some a) : c.held k = some a := by
  obtain ⟨⟨ts, hlookup, -⟩, -⟩ := getFresh_hit h
  rw [held, hlookup]
  rfl

theorem getFresh_miss (h : (c.getFresh ttl now k).1 = none) :
    (c.getFresh ttl now k).2 = c ∨ (c.getFresh ttl now k).2 = c.invalidate k := by
  rw [getFresh] at h ⊢
  split at h
  · rename_i httl
    rw [if_pos httl]
    exact .inl rfl
  · rename_i httl
    rw [if_neg httl]
    cases hlookup : c.data.lookup k with
    | none => exact .inl rfl
    | some e =>
      obtain ⟨a', ts⟩ := e
      rw [hlookup] at h
      simp only at h ⊢
      split at h
      · rename_i hold
        rw [if_pos hold]
        exact .inr rfl
      · cases h

theorem lookup_getFresh (h : (c.getFresh ttl now k).2.data.lookup k' = some e) :
    c.data.lookup k' = some e := by
  cases hit : (c.getFresh ttl now k).1 with
  | some a => rwa [(getFresh_hit hit).2] at h
  | none =>
    rcases getFresh_miss hit with he | he
    · rwa [he] at h
    · rw [he, lookup_invalidate] at h
      split at h
      · cases h
      · exact h

end TTLLRU

end Lumogis
