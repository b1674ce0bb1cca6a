import Lumogis.Accounts
import Lumogis.Lib.Labelled
import Mathlib.Logic.Function.Basic

/-!
# LastAdmin

`patch_user` and `delete_user` of the admin routes, one SQL statement at a time and in any order.
Each reads the target, counts the active admins to refuse a change that would leave none, and changes
the row in later statements, when the count may have changed. The statements of a transaction are
seen as they are executed, since every request uses one connection.

`GuardHolds`: a row that is demoted, disabled or deleted would still pass the count. A run of such
steps keeps an active admin (`active_admin_remains`).
-/

namespace Lumogis

open Labelled

/-- A `PATCH` request; the display name is not modelled further. -/
structure PatchCall where
  caller : String
  userId : String
  role : Option Role
  disabled : Option Bool
  displayName : Option String

structure DeleteCall where
  caller : String
  userId : String

/-- The last active admin, as the routes judge it by the row that they have read. -/
def isLastActiveAdmin (users : Users) (target : AccountRow) : Bool :=
  target.activeAdmin && users.countAdmins == 1

namespace PatchCall

def newRole (call : PatchCall) (target : AccountRow) : Role := call.role.getD target.role

def newDisabled (call : PatchCall) (target : AccountRow) : Bool := call.disabled.getD target.disabled

def willBeActiveAdmin (call : PatchCall) (target : AccountRow) : Bool :=
  call.newRole target == .admin && call.newDisabled target == false

def isEmpty (call : PatchCall) : Bool :=
  call.role.isNone && call.disabled.isNone && call.displayName.isNone

/-- The checks that follow the first `SELECT`. -/
def refused (call : PatchCall) (users : Users) (target : AccountRow) : Bool :=
  isLastActiveAdmin users target && !call.willBeActiveAdmin target ||
    call.disabled == some true && call.userId == call.caller

end PatchCall

namespace DeleteCall

def refused (call : DeleteCall) (users : Users) (target : AccountRow) : Bool :=
  isLastActiveAdmin users target || call.userId == call.caller

end DeleteCall

inductive AdminPhase where
  | idle
  /-- The target has been read. -/
  | patchRead (call : PatchCall) (target : AccountRow)
  | patchAllowed (call : PatchCall) (target : AccountRow)
  /-- The role has been written, if it changes. -/
  | patchRole (call : PatchCall) (target : AccountRow)
  /-- The transaction of `set_disabled(user_id, True)` is open. -/
  | disabling (userId : String)
  | disabled (userId : String)
  | deleteRead (call : DeleteCall) (target : AccountRow)
  | deleteAllowed (call : DeleteCall)
  /-- `services.users.delete_user` has found the row. -/
  | deleting (userId : String)

structure AdminConfig (ι : Type) where
  users : Users
  inTransaction : Bool
  phase : ι → AdminPhase

inductive AdminLabel (ι : Type) where
  | patch (i : ι) (call : PatchCall)
  | delete (i : ι) (call : DeleteCall)
  /-- Counts the admins, if the target is an active one, and checks. -/
  | check (i : ι)
  | writeRole (i : ι)
  | begin (i : ι)
  | writeDisabled (i : ι)
  | commit (i : ι)
  /-- The `SELECT` of `services.users.delete_user`. -/
  | reread (i : ι)
  | deleteRow (i : ι)

section System

variable {ι : Type} [DecidableEq ι]

def AdminConfig.move (i : ι) (p : AdminPhase) (c : AdminConfig ι) : AdminConfig ι :=
  { c with phase := Function.update c.phase i p }

def adminStep : AdminLabel ι → AdminConfig ι → Option (AdminConfig ι)
  | .patch i call, c =>
    match c.phase i with
    | .idle =>
      match c.users.lookup call.userId with
      | none => some c
      | some target => some (if call.isEmpty then c else c.move i (.patchRead call target))
    | _ => none
  | .delete i call, c =>
    match c.phase i with
    | .idle =>
      match c.users.lookup call.userId with
      | none => some c
      | some target => some (c.move i (.deleteRead call target))
    | _ => none
  | .check i, c =>
    match c.phase i with
    | .patchRead call target => some (c.move i
        (if call.refused c.users target then .idle else .patchAllowed call target))
    | .deleteRead call target => some (c.move i
        (if call.refused c.users target then .idle else .deleteAllowed call))
    | _ => none
  | .writeRole i, c =>
    match c.phase i with
    | .patchAllowed call target =>
      let users :=
        if call.newRole target = target.role then c.users
        else c.users.updateRole call.userId (call.newRole target)
      some ({ c with users := users }.move i (.patchRole call target))
    | _ => none
  | .begin i, c =>
    match c.phase i with
    | .patchRole call target =>
      if call.newDisabled target = target.disabled then some (c.move i .idle)
      else if call.newDisabled target then
        -- a second `transaction()` raises
        if c.inTransaction then some (c.move i .idle)
        else some ({ c with inTransaction := true }.move i (.disabling call.userId))
      else some ({ c with users := c.users.enable call.userId }.move i .idle)
    | _ => none
  | .writeDisabled i, c =>
    match c.phase i with
    | .disabling userId =>
      some ({ c with users := c.users.disable userId }.move i (.disabled userId))
    | _ => none
  | .commit i, c =>
    match c.phase i with
    | .disabled _ => some ({ c with inTransaction := false }.move i .idle)
    | _ => none
  | .reread i, c =>
    match c.phase i with
    | .deleteAllowed call => some (c.move i
        (if (c.users.lookup call.userId).isSome then .deleting call.userId else .idle))
    | _ => none
  | .deleteRow i, c =>
    match c.phase i with
    | .deleting userId => some ({ c with users := c.users.delete userId }.move i .idle)
    | _ => none

/-! ## The condition -/

/-- The user whose row the next statement of the thread demotes, disables or deletes. -/
def AdminPhase.removes : AdminLabel ι → AdminPhase → Option String
  | .writeRole _, .patchAllowed call target =>
    if call.newRole target ≠ target.role ∧ call.newRole target = .user then some call.userId else none
  | .writeDisabled _, .disabling userId => some userId
  | .deleteRow _, .deleting userId => some userId
  | _, _ => none

def AdminLabel.thread : AdminLabel ι → ι
  | .patch i _ | .delete i _ | .check i | .writeRole i | .begin i | .writeDisabled i | .commit i
  | .reread i | .deleteRow i => i

/-- The row that the statement takes an admin's rights from is not the last active admin's. -/
def GuardHolds (l : AdminLabel ι) (c : AdminConfig ι) : Prop :=
  ∀ userId ∈ (c.phase l.thread).removes l, ∀ row ∈ c.users.lookup userId,
    isLastActiveAdmin c.users row = false

instance (l : AdminLabel ι) (c : AdminConfig ι) : Decidable (GuardHolds l c) :=
  inferInstanceAs (Decidable (∀ userId ∈ (c.phase l.thread).removes l,
    ∀ row ∈ c.users.lookup userId, isLastActiveAdmin c.users row = false))

end System

/-! ## What a statement keeps -/

namespace Users

variable {users : Users} {userId : String} {r : AccountRow}

theorem exists_mem_ne {α : Type} {l : List α} {x : α} (hnodup : l.Nodup) (hx : x ∈ l)
    (hlength : l.length ≠ 1) : ∃ y ∈ l, y ≠ x := by
  cases l with
  | nil => cases hx
  | cons a rest =>
    cases rest with
    | nil => exact absurd rfl hlength
    | cons b rest =>
      by_cases ha : a = x
      · subst ha
        refine ⟨b, by simp, fun hb => ?_⟩
        simp [hb] at hnodup
      · exact ⟨a, by simp, ha⟩

theorem exists_other (hr : users.lookup userId = some r) (hadmin : r.activeAdmin = true)
    (hlast : isLastActiveAdmin users r = false) :
    ∃ u r', u ≠ userId ∧ users.lookup u = some r' ∧ r'.activeAdmin = true := by
  have hmem : (⟨userId, r⟩ : Sigma fun _ : String => AccountRow) ∈
      users.entries.filter fun e => e.2.activeAdmin :=
    List.mem_filter.mpr ⟨AList.mem_lookup_iff.mp hr, hadmin⟩
  have hcount : (users.entries.filter fun e => e.2.activeAdmin).length ≠ 1 := by
    intro h
    rw [isLastActiveAdmin, hadmin, countAdmins, h] at hlast
    cases hlast
  have hnodup : (users.entries.filter fun e => e.2.activeAdmin).Nodup :=
    (List.NodupKeys.nodup users.nodupKeys).filter _
  obtain ⟨e, he, hne⟩ := exists_mem_ne hnodup hmem hcount
  obtain ⟨hentry, hactive⟩ := List.mem_filter.mp he
  have hlookup := AList.mem_lookup_iff.mpr hentry
  refine ⟨e.1, e.2, fun hu => hne ?_, hlookup, hactive⟩
  obtain ⟨u, r'⟩ := e
  cases hu
  cases hr.symm.trans hlookup
  rfl

theorem HasActiveAdmin.update (h : users.HasActiveAdmin) {f : AccountRow → AccountRow}
    (hf : ∀ r, users.lookup userId = some r → r.activeAdmin = true → (f r).activeAdmin = true) :
    (users.update userId f).HasActiveAdmin := by
  obtain ⟨u, r, hr, hadmin⟩ := h
  by_cases hu : u = userId
  · subst hu
    exact ⟨u, f r, by rw [lookup_update, if_pos rfl, hr]; rfl, hf r hr hadmin⟩
  · exact ⟨u, r, by rw [lookup_update, if_neg hu, hr], hadmin⟩

theorem HasActiveAdmin.others (h : users.HasActiveAdmin)
    (hlast : ∀ row ∈ users.lookup userId, isLastActiveAdmin users row = false) :
    ∃ u r, u ≠ userId ∧ users.lookup u = some r ∧ r.activeAdmin = true := by
  obtain ⟨u, r, hr, hadmin⟩ := h
  by_cases hu : u = userId
  · subst hu
    exact exists_other hr hadmin (hlast r hr)
  · exact ⟨u, r, hu, hr, hadmin⟩

theorem HasActiveAdmin.of_others {users' : Users}
    (h : ∃ u r, u ≠ userId ∧ users.lookup u = some r ∧ r.activeAdmin = true)
    (hkeep : ∀ u, u ≠ userId → users'.lookup u = users.lookup u) : users'.HasActiveAdmin := by
  obtain ⟨u, r, hu, hr, hadmin⟩ := h
  exact ⟨u, r, by rw [hkeep u hu, hr], hadmin⟩

end Users

section Runs

variable {ι : Type} [DecidableEq ι] {c t : AdminConfig ι} {s₀ : AdminConfig ι}

theorem activeAdmin_step {l : AdminLabel ι} (h : c.users.HasActiveAdmin) (ha : GuardHolds l c)
    (hs : adminStep l c = some t) : t.users.HasActiveAdmin := by
  cases l with
  | patch i call =>
    simp only [adminStep] at hs
    split at hs
    · split at hs
      · cases hs
        exact h
      · cases hs
        split
        · exact h
        · exact h
    · cases hs
  | delete i call =>
    simp only [adminStep] at hs
    split at hs
    · split at hs
      · cases hs
        exact h
      · cases hs
        exact h
    · cases hs
  | check i =>
    simp only [adminStep] at hs
    split at hs
    · cases hs
      exact h
    · cases hs
      exact h
    · cases hs
  | writeRole i =>
    simp only [adminStep] at hs
    split at hs
    · rename_i call target hi
      cases hs
      show Users.HasActiveAdmin (if _ then _ else _)
      split
      · exact h
      · rename_i hrole
        cases hnew : call.newRole target with
        | admin =>
          refine h.update fun r _ hadmin => ?_
          simp only [AccountRow.activeAdmin] at hadmin ⊢
          simp_all
        | user =>
          refine Users.HasActiveAdmin.of_others (h.others (ha call.userId ?_)) fun u hu => ?_
          · rw [hnew] at hrole
            simp [AdminLabel.thread, hi, AdminPhase.removes, hrole, hnew]
          · rw [Users.updateRole, Users.lookup_update, if_neg hu]
    · cases hs
  | begin i =>
    simp only [adminStep] at hs
    split at hs
    · split at hs
      · cases hs
        exact h
      · split at hs
        · split at hs
          · cases hs
            exact h
          · cases hs
            exact h
        · cases hs
          refine h.update fun r _ hadmin => ?_
          simp only [AccountRow.activeAdmin] at hadmin ⊢
          simp_all
    · cases hs
  | writeDisabled i =>
    simp only [adminStep] at hs
    split at hs
    · rename_i userId hi
      cases hs
      refine Users.HasActiveAdmin.of_others (h.others (ha userId ?_)) fun u hu => ?_
      · simp [AdminLabel.thread, hi, AdminPhase.removes]
      · show (c.users.disable userId).lookup u = _
        rw [Users.disable, Users.lookup_update, if_neg hu]
    · cases hs
  | commit i =>
    simp only [adminStep] at hs
    split at hs
    · cases hs
      exact h
    · cases hs
  | reread i =>
    simp only [adminStep] at hs
    split at hs
    · cases hs
      exact h
    · cases hs
  | deleteRow i =>
    simp only [adminStep] at hs
    split at hs
    · rename_i userId hi
      cases hs
      refine Users.HasActiveAdmin.of_others (h.others (ha userId ?_)) fun u hu => ?_
      · simp [AdminLabel.thread, hi, AdminPhase.removes]
      · show (c.users.delete userId).lookup u = _
        rw [Users.lookup_delete, if_neg hu]
    · cases hs

/-- In a run whose guards hold there is an active admin throughout. -/
theorem active_admin_remains (h : Reaches adminStep GuardHolds s₀ c)
    (hs : s₀.users.HasActiveAdmin) : c.users.HasActiveAdmin :=
  h.invariant hs fun _ _ _ hi ha ht => activeAdmin_step hi ha ht

end Runs

namespace AdminExample

def admin (email : String) : AccountRow :=
  { email := email, passwordHash := "", role := .admin, disabled := false, tokenVersion := 1
    allowsShared := true }

/-- Two admins. -/
def start : AdminConfig Bool :=
  { users := (AList.singleton "alice" (admin "alice@home.example")).insert "bob"
      (admin "bob@home.example")
    inTransaction := false, phase := fun _ => .idle }

def reached (ls : List (AdminLabel Bool)) : AdminConfig Bool :=
  (run adminStep ls start).getD start

theorem run_reached {ls : List (AdminLabel Bool)} (h : (run adminStep ls start).isSome = true) :
    run adminStep ls start = some (reached ls) := by
  obtain ⟨c, hc⟩ := Option.isSome_iff_exists.mp h
  rw [reached, hc]
  rfl

/-- `caller` demotes `userId`. -/
def demote (caller userId : String) : PatchCall :=
  { caller := caller, userId := userId, role := some .user, disabled := none, displayName := none }

/-- Bob is demoted, and the demotion of alice is then refused. -/
def inTurn : List (AdminLabel Bool) :=
  [.patch false (demote "alice" "bob"), .check false, .writeRole false, .begin false,
    .patch true (demote "bob" "alice"), .check true]

/-- Both requests count two admins before either writes. -/
def crossed : List (AdminLabel Bool) :=
  [.patch false (demote "alice" "bob"), .patch true (demote "bob" "alice"), .check false, .check true,
    .writeRole false, .writeRole true]

end AdminExample

section Examples

open AdminExample

theorem active_admin_remains_inTurn : (AdminExample.reached inTurn).users.HasActiveAdmin :=
  active_admin_remains (run_reaches (AdminExample.run_reached (by decide)) (by decide))
    ⟨"alice", admin "alice@home.example", rfl, rfl⟩

/-- The two demotions leave no admin. -/
theorem crossed_demotions : AdminExample.start.users.HasActiveAdmin ∧
    ∃ c, Reaches adminStep (fun _ _ => True) AdminExample.start c ∧ ¬ c.users.HasActiveAdmin := by
  refine ⟨⟨"alice", admin "alice@home.example", rfl, rfl⟩, AdminExample.reached crossed,
    run_reaches (AdminExample.run_reached (by decide)) (by decide), ?_⟩
  rintro ⟨u, r, hr, hadmin⟩
  have hmem : r ∈ (AdminExample.reached crossed).users.entries.map fun e => e.2 :=
    List.mem_map.mpr ⟨⟨u, r⟩, AList.mem_lookup_iff.mp hr, rfl⟩
  have hnone : ∀ r ∈ (AdminExample.reached crossed).users.entries.map fun e => e.2,
      r.activeAdmin = false := by decide
  rw [hnone r hmem] at hadmin
  cases hadmin

end Examples

end Lumogis
