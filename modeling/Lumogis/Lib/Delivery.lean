import Mathlib.Data.List.Nodup
import Mathlib.Data.List.Sort

/-!
# Lib.Delivery

A log that reaches a copy by way of a list of pending items. The copy is in step when the log is the
delivered items followed by the pending ones. Items are pending in the order of the log, and none is
delivered or pending twice (`Sound`).

From a sound state a step keeps the copy in step only if it delivers the oldest pending item and drops
none: that is what `deliver`, `lose` and `overwrite` say of the steps one by one.

A copy that is read in the order of a key has one reading exactly if no two of its items have the same
key (`readings_eq_iff`).
-/

namespace Delivery

variable {α κ : Type}

/-- The delivered items, then the pending ones. -/
def InStep (log delivered pending : List α) : Prop := log = delivered ++ pending

structure Sound (log delivered pending : List α) : Prop where
  /-- Pending in the order of the log. -/
  order : pending.Sublist log
  once : (delivered ++ pending).Nodup
  log : log.Nodup

variable {log delivered pending before after new : List α} {m : α}

/-- What is pending lies in the part of the log that is not delivered. -/
theorem Sound.sublist_of_append {rest : List α} (h : Sound (delivered ++ rest) delivered pending) :
    pending.Sublist rest := by
  obtain ⟨first, last, rfl, hfirst, hlast⟩ := List.sublist_append_iff.mp h.order
  have hnone : first = [] := by
    refine List.eq_nil_iff_forall_not_mem.mpr fun x hx => ?_
    exact (List.nodup_append.mp h.once).2.2 x (hfirst.subset hx) x (List.mem_append_left _ hx) rfl
  rw [hnone]
  exact hlast

/-- The copy stays in step if the item is the oldest pending one. -/
theorem deliver (h : Sound log delivered (before ++ m :: after)) :
    InStep log (delivered ++ [m]) (before ++ after) ↔
      InStep log delivered (before ++ m :: after) ∧ before = [] := by
  constructor
  · intro hstep
    have hlog : log = delivered ++ m :: (before ++ after) := by
      rw [hstep, List.append_assoc]
      rfl
    rw [hlog] at h
    have hsub := h.sublist_of_append
    have heq : before ++ m :: after = m :: (before ++ after) := by
      refine hsub.eq_of_length ?_
      simp only [List.length_append, List.length_cons]
      omega
    refine ⟨by rw [InStep, hlog, heq], ?_⟩
    cases before with
    | nil => rfl
    | cons x xs =>
      -- the head of the pending items would be `m`, which stands behind it
      have hx : x = m := (List.cons.inj heq).1
      have hnodup := (List.nodup_append.mp h.once).2.1
      rw [hx] at hnodup
      exact absurd (List.mem_append_right xs List.mem_cons_self) (List.nodup_cons.mp hnodup).1
  · rintro ⟨hstep, rfl⟩
    rw [InStep, hstep, List.append_assoc]
    rfl

/-- A pending item that is dropped is missing for good. -/
theorem lose (h : Sound log delivered (before ++ m :: after)) : ¬ InStep log delivered (before ++ after) := by
  intro hstep
  rw [hstep] at h
  have hlength := h.sublist_of_append.length_le
  simp only [List.length_append, List.length_cons] at hlength
  omega

/-- So are pending items that give way to new ones. -/
theorem overwrite {kept dropped : List α} (h : Sound log delivered (kept ++ dropped)) (hsome : dropped ≠ []) :
    ¬ InStep (log ++ new) delivered (kept ++ new) := by
  intro hstep
  have hlog : log = delivered ++ kept := by
    rw [InStep, ← List.append_assoc] at hstep
    exact List.append_cancel_right hstep
  rw [hlog] at h
  have hlength := h.sublist_of_append.length_le
  have hpos := List.length_pos_iff.mpr hsome
  rw [List.length_append] at hlength
  omega

theorem write : InStep (log ++ new) delivered (pending ++ new) ↔ InStep log delivered pending := by
  rw [InStep, InStep, ← List.append_assoc, List.append_left_inj]

theorem inStep_nil : InStep log delivered [] ↔ log = delivered := by
  rw [InStep, List.append_nil]

/-! ## What stays sound -/

theorem Sound.nil : Sound ([] : List α) [] [] := ⟨List.Sublist.refl _, List.nodup_nil, List.nodup_nil⟩

theorem Sound.deliver (h : Sound log delivered (before ++ m :: after)) :
    Sound log (delivered ++ [m]) (before ++ after) where
  order := (List.Sublist.append_left (List.sublist_cons_self _ _) _).trans h.order
  once := by
    refine (List.Perm.nodup_iff ?_).mp h.once
    rw [List.append_assoc]
    exact List.Perm.append_left _ List.perm_middle
  log := h.log

theorem Sound.drop {pending' : List α} (h : Sound log delivered pending) (hsub : pending'.Sublist pending) :
    Sound log delivered pending' where
  order := hsub.trans h.order
  once := h.once.sublist (List.Sublist.append_left hsub _)
  log := h.log

theorem Sound.write (h : Sound log delivered pending) (hnew : new.Nodup)
    (hfresh : ∀ x ∈ new, x ∉ log ∧ x ∉ delivered) : Sound (log ++ new) delivered (pending ++ new) where
  order := h.order.append (List.Sublist.refl _)
  once := by
    rw [← List.append_assoc]
    refine List.Nodup.append h.once hnew fun x hx hx' => ?_
    rcases List.mem_append.mp hx with hd | hp
    · exact (hfresh x hx').2 hd
    · exact (hfresh x hx').1 (h.order.subset hp)
  log := List.Nodup.append h.log hnew fun x hx hx' => (hfresh x hx').1 hx

/-! ## Readings in the order of a key -/

section Readings

variable [LinearOrder κ] (key : α → κ)

/-- The items in an order of their keys; those with one key in any order. -/
def Reading (items out : List α) : Prop := out.Perm items ∧ out.Pairwise fun a b => key a ≤ key b

variable {key}

/-- Items that lie in the strict order of their keys are read in that order. -/
theorem Reading.eq {items out : List α} (h : Reading key items out)
    (hitems : items.Pairwise fun a b => key a < key b) : out = items := by
  have hkeys : (items.map key).Nodup := List.pairwise_map.mpr (hitems.imp fun hab => ne_of_lt hab)
  have hle : items.Pairwise fun a b => key a ≤ key b := hitems.imp fun hab => le_of_lt hab
  refine List.Perm.eq_of_pairwise ?_ h.2 hle h.1
  intro a b ha hb hab hba
  exact List.inj_on_of_nodup_map hkeys (h.1.subset ha) hb (le_antisymm hab hba)

theorem reading_self {items : List α} (h : items.Pairwise fun a b => key a ≤ key b) : Reading key items items :=
  ⟨List.Perm.refl _, h⟩

/-- All readings show the log exactly if the items do and no two have the same key. -/
theorem readings_eq_iff {β : Type} {show' : α → β} {items : List α} {log : List β}
    (hsorted : items.Pairwise fun a b => key a ≤ key b) (hnodup : (items.map show').Nodup) :
    (∀ out, Reading key items out → out.map show' = log) ↔
      items.map show' = log ∧ items.Pairwise fun a b => key a < key b := by
  constructor
  · intro h
    refine ⟨h items (reading_self hsorted), ?_⟩
    induction items generalizing log with
    | nil => exact List.Pairwise.nil
    | cons x xs ih =>
      obtain ⟨hx, hxs⟩ := List.pairwise_cons.mp hsorted
      have hall := h (x :: xs) (reading_self hsorted)
      have hrest : xs.Pairwise fun a b => key a < key b := by
        refine @ih (xs.map show') hxs (List.nodup_cons.mp hnodup).2 fun out hout => ?_
        have hcons := h (x :: out) ⟨List.Perm.cons x hout.1, List.pairwise_cons.mpr
          ⟨fun b hb => hx b (hout.1.subset hb), hout.2⟩⟩
        rw [← hall] at hcons
        exact (List.cons.inj hcons).2
      refine List.pairwise_cons.mpr ⟨fun b hb => ?_, hrest⟩
      cases xs with
      | nil => cases hb
      | cons y ys =>
        obtain ⟨hy, hys⟩ := List.pairwise_cons.mp hxs
        have hxy : key x < key y := by
          refine lt_of_le_of_ne (hx y List.mem_cons_self) fun heq => ?_
          -- with one key the first two could be read the other way round
          have hswap := h (y :: x :: ys) ⟨List.Perm.swap x y ys, List.pairwise_cons.mpr
            ⟨fun b hb => ?_, List.pairwise_cons.mpr ⟨fun b hb => hx b (List.mem_cons_of_mem _ hb), hys⟩⟩⟩
          · rw [← hall] at hswap
            refine (List.nodup_cons.mp hnodup).1 ?_
            have hfirst : show' y = show' x := (List.cons.inj hswap).1
            rw [← hfirst]
            exact List.mem_map_of_mem List.mem_cons_self
          · rcases List.mem_cons.mp hb with rfl | hb
            · exact heq.ge
            · exact hy b hb
        rcases List.mem_cons.mp hb with rfl | hb
        · exact hxy
        · exact lt_of_lt_of_le hxy (hy b hb)
  · rintro ⟨hlog, hstrict⟩ out hout
    rw [hout.eq hstrict, hlog]

end Readings

end Delivery
