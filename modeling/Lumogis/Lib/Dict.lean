import Mathlib.Data.List.Nodup
import Mathlib.Data.List.Induction

/-!
# Lib.Dict

Dictionaries that remember the order in which their keys were first set: setting a key that is there
replaces its value and leaves its place, setting another one appends it.

`Dict.accumulate` builds such a dictionary from a list, one element at a time, each under its key. What
ends up under a key depends on the elements with that key alone, in their order (`get?_accumulate`).
-/

/-- The keys are distinct and stand in the order in which they were first set. -/
structure Dict (κ ν : Type) where
  items : List (κ × ν)
  nodup : (items.map Prod.fst).Nodup

namespace Dict

variable {κ ν α : Type} [DecidableEq κ]

def empty : Dict κ ν := ⟨[], List.nodup_nil⟩

def setItem : List (κ × ν) → κ → ν → List (κ × ν)
  | [], k, v => [(k, v)]
  | item :: items, k, v => if item.1 = k then (k, v) :: items else item :: setItem items k v

theorem keys_setItem (items : List (κ × ν)) (k : κ) (v : ν) :
    (setItem items k v).map Prod.fst
      = if k ∈ items.map Prod.fst then items.map Prod.fst else items.map Prod.fst ++ [k] := by
  induction items with
  | nil => simp [setItem]
  | cons item items ih =>
    by_cases hk : item.1 = k
    · simp [setItem, hk]
    · have hk' : k ≠ item.1 := fun h => hk h.symm
      simp only [setItem, if_neg hk, List.map_cons, ih, List.mem_cons, hk', false_or]
      split <;> rfl

def set (d : Dict κ ν) (k : κ) (v : ν) : Dict κ ν where
  items := setItem d.items k v
  nodup := by
    rw [keys_setItem]
    split
    · exact d.nodup
    · rename_i hk
      exact d.nodup.append (List.nodup_singleton k) (by simpa using hk)

def get? (d : Dict κ ν) (k : κ) : Option ν := (d.items.find? (·.1 = k)).map Prod.snd

def keys (d : Dict κ ν) : List κ := d.items.map Prod.fst

def values (d : Dict κ ν) : List ν := d.items.map Prod.snd

theorem find?_setItem (items : List (κ × ν)) (k q : κ) (v : ν) :
    (setItem items k v).find? (·.1 = q)
      = if q = k then some (k, v) else items.find? (·.1 = q) := by
  induction items with
  | nil => by_cases hq : q = k <;> simp [setItem, hq, eq_comm]
  | cons item items ih =>
    by_cases hk : item.1 = k
    · by_cases hq : q = k
      · simp [setItem, hk, hq]
      · have hq' : k ≠ q := fun h => hq h.symm
        simp [setItem, hk, hq, hq']
    · by_cases hq : item.1 = q
      · have hqk : q ≠ k := fun h => hk (hq.trans h)
        simp [setItem, hq, hqk]
      · simp [setItem, hk, hq, ih]

theorem get?_set (d : Dict κ ν) (k q : κ) (v : ν) :
    (d.set k v).get? q = if q = k then some v else d.get? q := by
  simp only [get?, set, find?_setItem]
  split <;> rfl

theorem get?_eq_some_iff (d : Dict κ ν) (k : κ) (v : ν) : d.get? k = some v ↔ (k, v) ∈ d.items := by
  unfold get?
  constructor
  · intro h
    obtain ⟨item, hfind, hv⟩ := Option.map_eq_some_iff.mp h
    have hk : item.1 = k := by simpa using List.find?_some hfind
    rw [← hk, ← hv]
    exact List.mem_of_find?_eq_some hfind
  · intro h
    obtain ⟨item, hfind⟩ : ∃ item, d.items.find? (·.1 = k) = some item :=
      Option.isSome_iff_exists.mp (List.find?_isSome.mpr ⟨(k, v), h, by simp⟩)
    have hk : item.1 = k := by simpa using List.find?_some hfind
    have hsame : item = (k, v) :=
      List.inj_on_of_nodup_map d.nodup (List.mem_of_find?_eq_some hfind) h hk
    rw [hfind, hsame]
    rfl

theorem mem_keys_iff (d : Dict κ ν) (k : κ) : k ∈ d.keys ↔ (d.get? k).isSome := by
  rw [Option.isSome_iff_exists]
  simp only [get?_eq_some_iff, keys, List.mem_map, Prod.exists]
  constructor
  · rintro ⟨k', v, h, rfl⟩
    exact ⟨v, h⟩
  · rintro ⟨v, h⟩
    exact ⟨k, v, h, rfl⟩

theorem mem_values_iff (d : Dict κ ν) (v : ν) : v ∈ d.values ↔ ∃ k, d.get? k = some v := by
  simp only [get?_eq_some_iff, values, List.mem_map, Prod.exists]
  constructor
  · rintro ⟨k, v', h, rfl⟩
    exact ⟨k, h⟩
  · rintro ⟨k, h⟩
    exact ⟨k, v, h, rfl⟩

/-- The keys that do not satisfy `p`. -/
def without (d : Dict κ ν) (p : κ → Bool) : Dict κ ν where
  items := d.items.filter fun item => !p item.1
  nodup := d.nodup.sublist (List.filter_sublist.map _)

theorem get?_without (d : Dict κ ν) (p : κ → Bool) (k : κ) :
    (d.without p).get? k = if p k then none else d.get? k := by
  apply Option.ext
  intro v
  rw [get?_eq_some_iff, without, List.mem_filter]
  split
  · rename_i hp
    simp [hp]
  · rename_i hp
    simp [hp, get?_eq_some_iff]

/-! ## Adding all of another dictionary -/

/-- What both hold is taken from `e`. -/
def update (d e : Dict κ ν) : Dict κ ν := e.items.foldl (fun d item => d.set item.1 item.2) d

theorem get?_foldl_set (items : List (κ × ν)) (k : κ) (h : (items.map Prod.fst).Nodup) :
    ∀ d : Dict κ ν, (items.foldl (fun d item => d.set item.1 item.2) d).get? k
      = ((items.find? (·.1 = k)).map Prod.snd).or (d.get? k) := by
  induction items with
  | nil => intro d; rfl
  | cons item items ih =>
    intro d
    rw [List.map_cons, List.nodup_cons] at h
    rw [List.foldl_cons, ih h.2, get?_set]
    by_cases hk : item.1 = k
    · have hnone : items.find? (·.1 = k) = none := by
        rw [List.find?_eq_none]
        intro other hother heq
        have hkey : other.1 = item.1 := (of_decide_eq_true heq).trans hk.symm
        exact h.1 (hkey ▸ List.mem_map_of_mem hother)
      simp [hnone, hk]
    · have hk' : k ≠ item.1 := fun h => hk h.symm
      simp [hk, hk']

theorem get?_update (d e : Dict κ ν) (k : κ) : (d.update e).get? k = (e.get? k).or (d.get? k) :=
  get?_foldl_set e.items k e.nodup d

/-! ## Building a dictionary from a list -/

variable (key : α → κ) (f : Option ν → α → ν)

def accumulate (xs : List α) : Dict κ ν :=
  xs.foldl (fun d x => d.set (key x) (f (d.get? (key x)) x)) empty

theorem get?_foldl (xs : List α) (k : κ) :
    ∀ d : Dict κ ν, (xs.foldl (fun d x => d.set (key x) (f (d.get? (key x)) x)) d).get? k
      = (xs.filter (key · = k)).foldl (fun o x => some (f o x)) (d.get? k) := by
  induction xs with
  | nil => intro d; rfl
  | cons x xs ih =>
    intro d
    rw [List.foldl_cons, ih, get?_set]
    by_cases hk : key x = k
    · simp [hk]
    · have hk' : k ≠ key x := fun h => hk h.symm
      simp [hk, hk']

/-- What is under a key comes from the elements with that key. -/
theorem get?_accumulate (xs : List α) (k : κ) :
    (accumulate key f xs).get? k
      = (xs.filter (key · = k)).foldl (fun o x => some (f o x)) none :=
  get?_foldl key f xs k empty

theorem foldl_isSome (xs : List α) : ∀ o : Option ν,
    (xs.foldl (fun o x => some (f o x)) o).isSome = (o.isSome || !xs.isEmpty) := by
  induction xs with
  | nil => intro o; simp
  | cons x xs ih => intro o; rw [List.foldl_cons, ih]; simp

theorem mem_keys_accumulate (xs : List α) (k : κ) :
    k ∈ (accumulate key f xs).keys ↔ ∃ x ∈ xs, key x = k := by
  rw [mem_keys_iff, get?_accumulate, foldl_isSome]
  simp [List.filter_eq_nil_iff]

/-- Where each element's own value replaces the one before, that of the last one stays. -/
theorem get?_accumulate_replace (g : α → ν) (xs : List α) (k : κ) :
    (accumulate key (fun _ x => g x) xs).get? k = (xs.filter (key · = k)).getLast?.map g := by
  rw [get?_accumulate]
  generalize xs.filter (key · = k) = ys
  induction ys using List.reverseRecOn with
  | nil => rfl
  | append_singleton ys y _ => simp

/-- Where each element replaces the value, the last one stays. -/
theorem get?_accumulate_last (xs : List α) (k : κ) :
    (accumulate key (fun _ x => x) xs).get? k = (xs.filter (key · = k)).getLast? := by
  rw [get?_accumulate_replace key fun x => x]
  simp

/-- Where each element is appended to the list under its key, the group of the key is there. -/
theorem get?_accumulate_group (xs : List α) (k : κ) :
    (accumulate key (fun (group : Option (List α)) x => group.getD [] ++ [x]) xs).get? k
      = if xs.filter (key · = k) = [] then none else some (xs.filter (key · = k)) := by
  rw [get?_accumulate]
  generalize xs.filter (key · = k) = ys
  induction ys using List.reverseRecOn with
  | nil => rfl
  | append_singleton ys y ih =>
    rw [List.foldl_append, ih]
    by_cases hys : ys = [] <;> simp [hys]

end Dict
