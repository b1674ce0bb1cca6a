import Mathlib.Data.List.Basic
import Mathlib.Data.List.Nodup

/-!
# Lib.Table

Tables and point collections as lists of rows: the row operations of a database statement, and
what they do to membership.

A table whose rows have a key drawn from a sequence is `Keyed`; `Rewrites R` relates it to the table
after a statement that keeps its keys and moves each row along `R`.
-/

namespace Table

variable {α κ : Type}

/-- `DELETE ... WHERE p`. -/
def deleteWhere (p : α → Bool) (t : List α) : List α := t.filter fun r => !p r

/-- `UPDATE ... SET f WHERE p`. -/
def updateWhere (p : α → Bool) (f : α → α) (t : List α) : List α :=
  t.map fun r => if p r then f r else r

/-- Writes the row under its key; a row stored under that key is replaced. -/
def upsert [DecidableEq κ] (key : α → κ) (r : α) (t : List α) : List α :=
  t.filter (fun x => decide (key x ≠ key r)) ++ [r]

@[simp] theorem mem_deleteWhere {p : α → Bool} {t : List α} {r : α} :
    r ∈ deleteWhere p t ↔ r ∈ t ∧ p r = false := by
  simp [deleteWhere]

theorem mem_of_mem_deleteWhere {p : α → Bool} {t : List α} {r : α} (h : r ∈ deleteWhere p t) :
    r ∈ t := (mem_deleteWhere.mp h).1

@[simp] theorem mem_updateWhere {p : α → Bool} {f : α → α} {t : List α} {r : α} :
    r ∈ updateWhere p f t ↔ (∃ x ∈ t, p x = true ∧ f x = r) ∨ (r ∈ t ∧ p r = false) := by
  simp only [updateWhere, List.mem_map]
  constructor
  · rintro ⟨x, hx, rfl⟩
    by_cases hp : p x = true
    · exact .inl ⟨x, hx, hp, by simp [hp]⟩
    · exact .inr (by simp [hp, hx])
  · rintro (⟨x, hx, hp, rfl⟩ | ⟨hr, hp⟩)
    · exact ⟨x, hx, by simp [hp]⟩
    · exact ⟨r, hr, by simp [hp]⟩

@[simp] theorem mem_upsert [DecidableEq κ] {key : α → κ} {r x : α} {t : List α} :
    x ∈ upsert key r t ↔ (x ∈ t ∧ key x ≠ key r) ∨ x = r := by
  simp [upsert]

theorem deleteWhere_eq_self {p : α → Bool} {t : List α} (h : ∀ r ∈ t, p r = false) : deleteWhere p t = t := by
  rw [deleteWhere, List.filter_eq_self]
  intro r hr
  rw [h r hr]
  rfl

theorem deleteWhere_congr {p q : α → Bool} {t : List α} (h : ∀ r ∈ t, p r = q r) : deleteWhere p t = deleteWhere q t := by
  refine List.filter_congr fun r hr => ?_
  rw [h r hr]

theorem deleteWhere_deleteWhere {p q : α → Bool} {t : List α} :
    deleteWhere q (deleteWhere p t) = deleteWhere (fun r => p r || q r) t := by
  rw [deleteWhere, deleteWhere, deleteWhere, List.filter_filter]
  refine List.filter_congr fun r _ => ?_
  rw [Bool.not_or, Bool.and_comm]

theorem filter_deleteWhere_self {p : α → Bool} {t : List α} : (deleteWhere p t).filter p = [] := by
  rw [deleteWhere, List.filter_filter]
  simp

/-- An update that keeps `q` keeps the rows that satisfy it in place. -/
theorem filter_updateWhere_of_not {p q : α → Bool} {f : α → α} {t : List α}
    (h : ∀ r ∈ t, p r = true → q r = false ∧ q (f r) = false) :
    (updateWhere p f t).filter q = t.filter q := by
  induction t with
  | nil => rfl
  | cons r t ih =>
    have ih' := ih fun x hx => h x (by simp [hx])
    simp only [updateWhere, List.map_cons, List.filter_cons] at ih' ⊢
    by_cases hp : p r = true
    · obtain ⟨h1, h2⟩ := h r (by simp) hp
      simp only [hp, if_true, h1, h2]
      simpa using ih'
    · simp only [hp, if_false, Bool.false_eq_true]
      rw [ih']

theorem updateWhere_eq_self {p : α → Bool} {f : α → α} {t : List α} (h : ∀ r ∈ t, p r = false) :
    updateWhere p f t = t := by
  rw [updateWhere]
  refine (List.map_congr_left fun r hr => ?_).trans (List.map_id t)
  simp [h r hr]

theorem find?_updateWhere {p q : α → Bool} {f : α → α} {t : List α} (h : ∀ r, q (f r) = q r) :
    (updateWhere p f t).find? q = (t.find? q).map fun r => if p r then f r else r := by
  induction t with
  | nil => rfl
  | cons r t ih =>
    have hq : q (if p r then f r else r) = q r := by split <;> simp [h]
    simp only [updateWhere, List.map_cons, List.find?_cons] at ih ⊢
    rw [hq]
    cases q r with
    | true => rfl
    | false => exact ih

/-- An update that keeps the keys. -/
theorem map_updateWhere {κ : Type} {key : α → κ} {p : α → Bool} {f : α → α} {t : List α}
    (h : ∀ r, key (f r) = key r) : (updateWhere p f t).map key = t.map key := by
  rw [updateWhere, List.map_map]
  refine List.map_congr_left fun r _ => ?_
  simp only [Function.comp]
  split
  · exact h r
  · rfl

/-- A row is found by its key. -/
theorem find?_of_nodup [BEq κ] [LawfulBEq κ] {key : α → κ} {t : List α} (h : (t.map key).Nodup) {r : α} (hr : r ∈ t) :
    t.find? (fun x => key x == key r) = some r := by
  cases hfind : t.find? fun x => key x == key r with
  | none =>
    have hno := List.find?_eq_none.mp hfind r hr
    simp at hno
  | some x =>
    have hkey : key x = key r := by simpa using List.find?_some hfind
    rw [List.inj_on_of_nodup_map h (List.mem_of_find?_eq_some hfind) hr hkey]

/-- The keys of the rows that a join keeps come in the order of the keys that it started from. -/
theorem map_filterMap_sublist {β : Type} {f : α → Option β} {g : β → κ} {key : α → κ} {t : List α}
    (h : ∀ r x, f r = some x → g x = key r) : ((t.filterMap f).map g).Sublist (t.map key) := by
  induction t with
  | nil => exact List.Sublist.refl _
  | cons r t ih =>
    rw [List.filterMap_cons, List.map_cons]
    cases hr : f r with
    | none => exact ih.cons _
    | some x =>
      rw [List.map_cons, h r x hr]
      exact ih.cons_cons _

theorem filterMap_take {β : Type} {f : α → Option β} {t : List α} (h : ∀ r ∈ t, (f r).isSome) (n : Nat) :
    (t.take n).filterMap f = (t.filterMap f).take n := by
  induction t generalizing n with
  | nil => simp
  | cons r t ih =>
    rw [List.forall_mem_cons] at h
    obtain ⟨x, hx⟩ := Option.isSome_iff_exists.mp h.1
    cases n with
    | zero => simp
    | succ n => simp [hx, ih h.2]

/-! ## Writing several rows -/

section Upserts

variable [DecidableEq κ] {key : α → κ} {q : α → Bool} {r : α} {rows t : List α}

/-- Writes the rows one after the other. -/
def upsertAll (key : α → κ) (rows t : List α) : List α := rows.foldl (fun t r => upsert key r t) t

theorem filter_upsert (hq : q r = true) : (upsert key r t).filter q = upsert key r (t.filter q) := by
  simp only [upsert, List.filter_append, List.filter_filter, List.filter_singleton, hq, cond_true, Bool.and_comm]

theorem filter_upsertAll (hq : ∀ r ∈ rows, q r = true) :
    (upsertAll key rows t).filter q = upsertAll key rows (t.filter q) := by
  induction rows generalizing t with
  | nil => rfl
  | cons r rows ih =>
    rw [List.forall_mem_cons] at hq
    exact (ih hq.2).trans (congrArg (upsertAll key rows) (filter_upsert hq.1))

theorem mem_upsertAll_of_apart {x : α} (h : ∀ r ∈ rows, key x ≠ key r) : x ∈ upsertAll key rows t ↔ x ∈ t := by
  induction rows generalizing t with
  | nil => rfl
  | cons r rows ih =>
    rw [List.forall_mem_cons] at h
    refine (ih h.2).trans ?_
    rw [mem_upsert]
    constructor
    · rintro (⟨hx, -⟩ | rfl)
      · exact hx
      · exact absurd rfl h.1
    · exact fun hx => .inl ⟨hx, h.1⟩

theorem upsert_keys_nodup (h : (t.map key).Nodup) : ((upsert key r t).map key).Nodup := by
  rw [upsert, List.map_append, List.nodup_append]
  refine ⟨h.sublist (List.filter_sublist.map key), by simp, ?_⟩
  intro a ha b hb
  obtain ⟨x, hx, rfl⟩ := List.mem_map.mp ha
  obtain rfl : b = key r := by simpa using hb
  simpa using (List.mem_filter.mp hx).2

theorem upsertAll_keys_nodup (h : (t.map key).Nodup) : ((upsertAll key rows t).map key).Nodup := by
  induction rows generalizing t with
  | nil => exact h
  | cons r rows ih => exact ih (upsert_keys_nodup h)

/-- Rows under new and different keys are all kept. -/
theorem upsertAll_of_nodup (h : ((t ++ rows).map key).Nodup) : upsertAll key rows t = t ++ rows := by
  induction rows generalizing t with
  | nil => simp [upsertAll]
  | cons r rows ih =>
    have hfilter : t.filter (fun x => decide (key x ≠ key r)) = t := by
      refine List.filter_eq_self.mpr fun x hx => ?_
      rw [List.map_append, List.nodup_append] at h
      simpa using h.2.2 (key x) (List.mem_map_of_mem hx) (key r) (by simp)
    rw [List.append_cons] at h ⊢
    show upsertAll key rows (upsert key r t) = _
    rw [upsert, hfilter, ih h]

/-- An empty table holds the rows written to it exactly when no two of them have one key. -/
theorem upsertAll_perm_iff : (upsertAll key rows []).Perm rows ↔ (rows.map key).Nodup := by
  constructor
  · intro h
    exact (h.map key).nodup_iff.mp (upsertAll_keys_nodup List.nodup_nil)
  · intro h
    rw [upsertAll_of_nodup (by simpa using h)]
    exact .refl rows

end Upserts

/-! ## Keys -/

section Keys

variable {key : α → Nat} {next id : Nat} {s t : List α} {r : α} {R : α → α → Prop}

def lookup (key : α → Nat) (t : List α) (id : Nat) : Option α := t.find? fun r => key r == id

theorem lookup_key (h : lookup key t id = some r) : key r = id := by
  simpa using List.find?_some h

theorem lookup_mem (h : lookup key t id = some r) : r ∈ t := List.mem_of_find?_eq_some h

/-- `key` is a primary key, and `next` the value that its sequence gives next. -/
structure Keyed (key : α → Nat) (next : Nat) (t : List α) : Prop where
  nodup : (t.map key).Nodup
  fresh : ∀ r ∈ t, key r < next

theorem Keyed.lookup (h : Keyed key next t) (hr : r ∈ t) : lookup key t (key r) = some r := by
  obtain ⟨x, hx⟩ : ∃ x, Table.lookup key t (key r) = some x := by
    rw [← Option.isSome_iff_exists]
    exact List.find?_isSome.mpr ⟨r, hr, by simp⟩
  rw [hx, List.inj_on_of_nodup_map h.nodup (lookup_mem hx) hr (lookup_key hx)]

theorem lookup_append {x : α} (h : lookup key t id = some r) : lookup key (t ++ [x]) id = some r := by
  rw [lookup, List.find?_append]
  rw [lookup] at h
  simp [h]

theorem lookup_append_none {x : α} (hold : lookup key t id = none)
    (h : lookup key (t ++ [x]) id = some r) : r = x := by
  rw [lookup, List.find?_append] at h
  rw [lookup] at hold
  rw [hold, Option.none_or] at h
  simpa using List.mem_of_find?_eq_some h

theorem Keyed.append {x : α} (h : Keyed key next t) (hx : key x = next) :
    Keyed key (next + 1) (t ++ [x]) where
  nodup := by
    rw [List.map_append, List.nodup_append]
    refine ⟨h.nodup, by simp, ?_⟩
    intro a ha b hb
    obtain ⟨y, hy, rfl⟩ := List.mem_map.mp ha
    have hlt := h.fresh y hy
    simp only [List.map_cons, List.map_nil, List.mem_singleton] at hb
    omega
  fresh r hr := by
    rw [List.mem_append, List.mem_singleton] at hr
    rcases hr with hr | rfl
    · have hlt := h.fresh r hr
      omega
    · omega

/-- The two tables have the same keys, and `R` relates each row of the one to the row of the other
under its key. -/
structure Rewrites (key : α → Nat) (R : α → α → Prop) (s t : List α) : Prop where
  row : ∀ id, Option.Rel R (lookup key s id) (lookup key t id)
  keys : t.map key = s.map key

theorem Rewrites.later (h : Rewrites key R s t) (hr : lookup key s id = some r) :
    ∃ r', lookup key t id = some r' ∧ R r r' := by
  have hrel := h.row id
  rw [hr] at hrel
  generalize lookup key t id = x at hrel
  cases hrel with
  | some hR => exact ⟨_, rfl, hR⟩

theorem Rewrites.earlier (h : Rewrites key R s t) (hr : lookup key t id = some r) :
    ∃ r', lookup key s id = some r' ∧ R r' r := by
  have hrel := h.row id
  rw [hr] at hrel
  generalize lookup key s id = x at hrel
  cases hrel with
  | some hR => exact ⟨_, rfl, hR⟩

theorem Rewrites.absent (h : Rewrites key R s t) : lookup key t id = none ↔ lookup key s id = none := by
  have hrel := h.row id
  generalize lookup key s id = x at hrel
  generalize lookup key t id = y at hrel
  cases hrel with
  | none => exact Iff.rfl
  | some _ => exact ⟨fun h => (by cases h), fun h => (by cases h)⟩

theorem rewrites_updateWhere {p : α → Bool} {f : α → α} (hf : ∀ r, key (f r) = key r) :
    Rewrites key (fun r r' => r' = if p r then f r else r) t (updateWhere p f t) where
  row id := by
    have hrow : lookup key (updateWhere p f t) id =
        (lookup key t id).map fun r => if p r then f r else r :=
      find?_updateWhere fun r => by simp [hf]
    rw [hrow]
    cases lookup key t id with
    | none => exact .none
    | some r => exact .some rfl
  keys := map_updateWhere hf

theorem rewrites_refl : Rewrites key (fun r r' => r' = r) t t where
  row id := by
    cases lookup key t id with
    | none => exact .none
    | some r => exact .some rfl
  keys := rfl

/-- Tables that agree on what `g` keeps of their rows, the key included. -/
theorem rewrites_map {β : Type} {g : α → β} {k : β → Nat} (hkey : ∀ r, k (g r) = key r)
    (h : t.map g = s.map g) : Rewrites key (fun r r' => g r' = g r) s t where
  row id := by
    rw [lookup, lookup]
    induction s generalizing t with
    | nil => cases List.map_eq_nil_iff.mp h; exact .none
    | cons x xs ih =>
      obtain ⟨y, ys, rfl, hxy, hrest⟩ := List.map_eq_cons_iff.mp h
      have hid : key y = key x := by rw [← hkey y, hxy, hkey x]
      simp only [List.find?_cons, hid]
      cases key x == id with
      | true => exact .some hxy
      | false => exact ih hrest
  keys := by
    have hkeys := congrArg (List.map k) h
    simpa only [List.map_map, Function.comp_def, hkey] using hkeys

theorem Keyed.rewrites (h : Keyed key next s) (hr : Rewrites key R s t) : Keyed key next t where
  nodup := by rw [hr.keys]; exact h.nodup
  fresh r hrt := by
    have hmem : key r ∈ t.map key := List.mem_map_of_mem hrt
    rw [hr.keys] at hmem
    obtain ⟨x, hx, he⟩ := List.mem_map.mp hmem
    rw [← he]
    exact h.fresh x hx

end Keys

end Table
