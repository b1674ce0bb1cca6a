import Lumogis.Lib.Labelled
import Lumogis.Permissions
import Mathlib.Data.Fintype.Basic

/-!
# PermissionRuns

Permission calls as a system: any number of threads, each somewhere in a read, a change or a clear,
one statement or cache operation at a time. `past` keeps every value that a key's row has had, and
`returned` the oldest of them that a check may use once the changes that have returned are taken
into account.

`changes_take_effect`: in every run in which no reader stores in a slot a value that was selected
before a change, or a clear, that has already dropped the slot, every check uses a value that the
row had at the last change returned before the check began, or later. A reader that stores such a
value keeps the old mode in force (`staleStore_keeps_mode`).
-/

namespace Lumogis

open Prog Labelled Permissions

/-- A statement that changes a row. -/
inductive PermChange where
  | mode (key : PermKey) (mode : String)
  | scopes (key : PermKey) (clean : List String)
  | delete (key : PermKey)

def PermChange.key : PermChange → PermKey
  | .mode key _ => key
  | .scopes key _ => key
  | .delete key => key

def PermChange.statement : PermChange → PermM Unit
  | .mode key m => upsertMode key m
  | .scopes key clean => upsertScopes key clean
  | .delete key => Permissions.deleteRow key

inductive PermPhase where
  | idle
  /-- The cache had no slot. `since` is what the check may use when it begins. -/
  | missed (key : PermKey) (since : Nat)
  /-- The row has been selected, with the value at position `version` of its past. -/
  | loaded (key : PermKey) (since : Nat) (value : Perm) (version : Nat)
  /-- The row has been changed, and the slot is to be dropped. -/
  | written (key : PermKey) (version : Nat)
  /-- Slots of the snapshot that are still to be dropped; `marks` is where the rows stood then. -/
  | clearing (userId : String) (marks : PermKey → Nat) (rest : List PermKey)

structure PermUse where
  key : PermKey
  since : Nat
  value : Perm
  deriving DecidableEq

structure PermConfig (ι : Type) where
  store : PermStore
  phase : ι → PermPhase
  /-- The values that the key's row has had, the first one first. -/
  past : PermKey → List Perm
  returned : PermKey → Nat
  uses : List PermUse

inductive PermLabel (ι : Type) where
  | get (i : ι) (key : PermKey)
  | select (i : ι) (fate : Fate)
  | put (i : ι)
  | write (i : ι) (change : PermChange) (fate : Fate)
  | pop (i : ι)
  | clear (i : ι) (userId : String)
  | clearPop (i : ι)
  | clearReturn (i : ι)
  | log (i : ι) (row : ActionLogRow) (fate : Fate)

section System

variable {ι : Type} [DecidableEq ι]

namespace PermConfig

def put (i : ι) (p : PermPhase) (store : PermStore) (c : PermConfig ι) : PermConfig ι :=
  { c with store := store, phase := Function.update c.phase i p }

def use (u : PermUse) (c : PermConfig ι) : PermConfig ι := { c with uses := u :: c.uses }

/-- The position of the value that the row has now. -/
def current (c : PermConfig ι) (key : PermKey) : Nat := (c.past key).length - 1

def record (key : PermKey) (value : Perm) (c : PermConfig ι) : PermConfig ι :=
  { c with past := Function.update c.past key (c.past key ++ [value]) }

/-- A change of the keys in `p` has returned. -/
def return_ (p : PermKey → Bool) (version : PermKey → Nat) (c : PermConfig ι) : PermConfig ι :=
  { c with returned := fun k => if p k then max (c.returned k) (version k) else c.returned k }

end PermConfig

def permStep : PermLabel ι → PermConfig ι → Option (PermConfig ι)
  | .get i key, c =>
    match c.phase i, c.store.cached key with
    | .idle, some value => some (c.use ⟨key, c.returned key, value⟩)
    | .idle, none => some (c.put i (.missed key (c.returned key)) c.store)
    | _, _ => none
  | .select i fate, c =>
    match c.phase i with
    | .missed key since =>
      match (selectPerm key).execFates [fate] c.store with
      | some (.ok value, t) => some (c.put i (.loaded key since value (c.current key)) t)
      | some (.error _, t) => some (c.put i .idle t)
      | none => none
    | _ => none
  | .put i, c =>
    match c.phase i with
    | .loaded key since value _ =>
      some ((c.put i .idle (c.store.fill key value)).use ⟨key, since, value⟩)
    | _ => none
  | .write i change fate, c =>
    match c.phase i, change.statement.execFates [fate] c.store with
    | .idle, some (.ok (), t) =>
      some ((c.put i (.written change.key (c.past change.key).length) t).record change.key
        (t.perm change.key))
    | .idle, some (.error _, t) => some ((c.put i .idle t).record change.key (t.perm change.key))
    | _, _ => none
  | .pop i, c =>
    match c.phase i with
    | .written key version =>
      some ((c.put i .idle (c.store.drop key)).return_ (· == key) fun _ => version)
    | _ => none
  | .clear i userId, c =>
    match c.phase i with
    | .idle =>
      some (c.put i (.clearing userId c.current
        (c.store.permCache.keys.filter fun key => key.1 == userId)) c.store)
    | _ => none
  | .clearPop i, c =>
    match c.phase i with
    | .clearing userId marks (key :: rest) =>
      some (c.put i (.clearing userId marks rest) (c.store.drop key))
    | _ => none
  | .clearReturn i, c =>
    match c.phase i with
    | .clearing userId marks [] => some ((c.put i .idle c.store).return_ (·.1 == userId) marks)
    | _ => none
  | .log i row fate, c =>
    match c.phase i, (insertActionLog row).execFates [fate] c.store with
    | .idle, some (_, t) => some (c.put i .idle t)
    | _, _ => none

/-! ## The law and its condition -/

/-- The row had `value` at position `low` of its past or later. -/
def PermConfig.Had (c : PermConfig ι) (key : PermKey) (low : Nat) (value : Perm) : Prop :=
  ∃ version, low ≤ version ∧ (c.past key)[version]? = some value

omit [DecidableEq ι] in
theorem PermConfig.had_iff {c : PermConfig ι} {key : PermKey} {low : Nat} {value : Perm} :
    c.Had key low value ↔ value ∈ (c.past key).drop low := by
  rw [List.mem_iff_getElem?]
  simp only [List.getElem?_drop]
  constructor
  · rintro ⟨version, hlow, hv⟩
    exact ⟨version - low, by rwa [Nat.add_sub_cancel' hlow]⟩
  · rintro ⟨n, hn⟩
    exact ⟨low + n, Nat.le_add_right _ _, hn⟩

instance (c : PermConfig ι) (key : PermKey) (low : Nat) (value : Perm) :
    Decidable (c.Had key low value) :=
  decidable_of_iff _ PermConfig.had_iff.symm

/-- No check has used a value older than the changes that had returned when it began. -/
def ChangesTakeEffect (c : PermConfig ι) : Prop :=
  ∀ u ∈ c.uses, c.Had u.key u.since u.value

instance (c : PermConfig ι) : Decidable (ChangesTakeEffect c) :=
  inferInstanceAs (Decidable (∀ u ∈ c.uses, c.Had u.key u.since u.value))

/-- A clear that has passed the slot began no later than `version`. -/
def PermPhase.ClearedBy (key : PermKey) (version : Nat) : PermPhase → Prop
  | .clearing userId marks rest => key.1 = userId → key ∉ rest → marks key ≤ version
  | _ => True

instance (key : PermKey) (version : Nat) (p : PermPhase) : Decidable (p.ClearedBy key version) :=
  match p with
  | .clearing userId marks rest =>
    inferInstanceAs (Decidable (key.1 = userId → key ∉ rest → marks key ≤ version))
  | .idle | .missed _ _ | .loaded _ _ _ _ | .written _ _ => .isTrue trivial

/-- A reader that stores a value selected it after every change of the key that has returned, and
after the start of every clear that has passed the key's slot. -/
def SelectedLast (l : PermLabel ι) (c : PermConfig ι) : Prop :=
  match l with
  | .put i =>
    match c.phase i with
    | .loaded key _ _ version =>
      c.returned key ≤ version ∧ ∀ k, (c.phase k).ClearedBy key version
    | _ => True
  | _ => True

instance [Fintype ι] (l : PermLabel ι) (c : PermConfig ι) : Decidable (SelectedLast l c) :=
  match l with
  | .put i =>
    match h : c.phase i with
    | .loaded key _ _ version => decidable_of_iff
        (c.returned key ≤ version ∧ ∀ k, (c.phase k).ClearedBy key version) (by simp [SelectedLast, h])
    | .idle | .missed _ _ | .written _ _ | .clearing _ _ _ => .isTrue (by simp [SelectedLast, h])
  | .get _ _ | .select _ _ | .write _ _ _ | .pop _ | .clear _ _ | .clearPop _ | .clearReturn _
  | .log _ _ _ => .isTrue trivial

/-- No call is in progress, and what the cache holds is what the rows say. -/
structure PermStart (c : PermConfig ι) : Prop where
  idle : ∀ i, c.phase i = .idle
  cached : ∀ key value, c.store.cached key = some value → value = c.store.perm key
  past : ∀ key, c.past key = [c.store.perm key]
  returned : ∀ key, c.returned key = 0
  uses : c.uses = []

/-- What is known of a thread in the middle of a call. -/
def PhaseOk (c : PermConfig ι) : PermPhase → Prop
  | .idle => True
  | .missed key since => since ≤ c.returned key
  | .loaded key since value version => since ≤ version ∧ (c.past key)[version]? = some value
  | .written key version => version < (c.past key).length
  | .clearing userId marks rest =>
    (∀ key, marks key < (c.past key).length) ∧
      ∀ key value, key.1 = userId → key ∉ rest → c.store.cached key = some value →
        c.Had key (marks key) value

structure PermInv (c : PermConfig ι) : Prop where
  last : ∀ key, (c.past key).getLast? = some (c.store.perm key)
  bound : ∀ key, c.returned key < (c.past key).length
  phase : ∀ i, PhaseOk c (c.phase i)
  cached : ∀ key value, c.store.cached key = some value → c.Had key (c.returned key) value
  uses : ChangesTakeEffect c

/-! ## What a step does -/

theorem permOf_append {rows : List PermRow} {row : PermRow} {key : PermKey} (h : key ≠ row.key) :
    permOf (rows ++ [row]) key = permOf rows key := by
  simp [permOf, List.find?_append, Ne.symm h]

theorem permOf_updateWhere {rows : List PermRow} {key key' : PermKey} {f : PermRow → PermRow}
    (hf : ∀ r, (f r).key = r.key) (h : key' ≠ key) :
    permOf (Table.updateWhere (fun r => r.key = key) f rows) key' = permOf rows key' := by
  rw [permOf, Table.find?_updateWhere fun r => by rw [hf], permOf]
  cases hr : rows.find? fun r => decide (r.key = key') with
  | none => rfl
  | some r =>
    have hkey : r.key = key' := by simpa using List.find?_some hr
    simp [hkey, h]

theorem permOf_deleteWhere {rows : List PermRow} {key key' : PermKey} (h : key' ≠ key) :
    permOf (Table.deleteWhere (fun r => r.key = key) rows) key' = permOf rows key' := by
  have hfind : (Table.deleteWhere (fun r => r.key = key) rows).find? (fun r => decide (r.key = key'))
      = rows.find? fun r => decide (r.key = key') := by
    rw [Table.deleteWhere, List.find?_filter]
    congr 1
    funext r
    by_cases hr : r.key = key'
    · simp [hr, h]
    · simp [hr]
  rw [permOf, hfind, permOf]

theorem permOf_upsertPerm {rows : List PermRow} {row : PermRow} {key : PermKey}
    {f : PermRow → PermRow} (hf : ∀ r, (f r).key = r.key) (h : key ≠ row.key) :
    permOf (upsertPerm row f rows) key = permOf rows key := by
  unfold upsertPerm
  split
  · exact permOf_updateWhere hf h
  · exact permOf_append h

def PermChange.rows : PermChange → List PermRow → List PermRow
  | .mode key m => upsertPerm ⟨key.1, key.2, m, []⟩ fun r => { r with mode := m }
  | .scopes key clean => upsertPerm ⟨key.1, key.2, defaultMode, clean⟩ fun r => { r with scopes := clean }
  | .delete key => Table.deleteWhere fun r => r.key = key

theorem PermChange.statement_eq (change : PermChange) : change.statement =
    act .database fun s => ((), s.setRows (change.rows s.connectorPermissions)) := by
  cases change <;> rfl

theorem PermChange.permOf_rows {change : PermChange} {rows : List PermRow} {key : PermKey}
    (h : key ≠ change.key) : permOf (change.rows rows) key = permOf rows key := by
  cases change with
  | mode k m => exact permOf_upsertPerm (fun _ => rfl) h
  | scopes k clean => exact permOf_upsertPerm (fun _ => rfl) h
  | delete k => exact permOf_deleteWhere h

theorem PermChange.frame {change : PermChange} {fate : Fate} {s t : PermStore}
    {r : Except PermErr Unit} (h : change.statement.execFates [fate] s = some (r, t)) :
    t.permCache = s.permCache ∧ ∀ key, key ≠ change.key → t.perm key = s.perm key := by
  rw [change.statement_eq, execFates_act] at h
  cases fate with
  | ok => cases h; exact ⟨rfl, fun _ hk => change.permOf_rows hk⟩
  | lost => cases h; exact ⟨rfl, fun _ _ => rfl⟩
  | late => cases h; exact ⟨rfl, fun _ hk => change.permOf_rows hk⟩

/-! ## What a run keeps -/

omit [DecidableEq ι] in
theorem PermStart.inv {c : PermConfig ι} (h : PermStart c) : PermInv c where
  last key := by rw [h.past]; rfl
  bound key := by rw [h.past, h.returned]; exact Nat.zero_lt_one
  phase i := by rw [h.idle i]; trivial
  cached key value hv := ⟨0, by rw [h.returned], by rw [h.past, h.cached key value hv]; rfl⟩
  uses u hu := by rw [h.uses] at hu; cases hu

section Growth

variable {c c' : PermConfig ι} {key : PermKey} {low low' : Nat} {value : Perm}

omit [DecidableEq ι]

theorem PermInv.current_eq (h : PermInv c) (key : PermKey) :
    (c.past key)[c.current key]? = some (c.store.perm key) := by
  rw [← h.last key, List.getLast?_eq_getElem?]
  rfl

theorem PermInv.returned_le (h : PermInv c) (key : PermKey) : c.returned key ≤ c.current key :=
  Nat.le_sub_one_of_lt (h.bound key)

theorem prefix_getElem? {α : Type} {l l' : List α} {n : Nat} {a : α} (h : l <+: l')
    (ha : l[n]? = some a) : l'[n]? = some a := by
  obtain ⟨t, rfl⟩ := h
  rw [List.getElem?_append_left (List.getElem?_eq_some_iff.mp ha).1, ha]

theorem PermConfig.Had.mono (h : c.Had key low value) (hpast : ∀ k, c.past k <+: c'.past k) :
    c'.Had key low value := by
  obtain ⟨version, hlow, hv⟩ := h
  exact ⟨version, hlow, prefix_getElem? (hpast key) hv⟩

theorem PermConfig.Had.max (h : c.Had key low value) (h' : c.Had key low' value) :
    c.Had key (max low low') value := by
  rcases Nat.le_total low low' with hm | hm
  · rwa [Nat.max_eq_right hm]
  · rwa [Nat.max_eq_left hm]

theorem PhaseOk.mono {p : PermPhase} (h : PhaseOk c p) (hpast : ∀ k, c.past k <+: c'.past k)
    (hreturned : ∀ k, c.returned k ≤ c'.returned k)
    (hcached : ∀ k v, c'.store.cached k = some v → c.store.cached k = some v) : PhaseOk c' p := by
  cases p with
  | idle => trivial
  | missed key since => exact h.trans (hreturned key)
  | loaded key since value version => exact ⟨h.1, prefix_getElem? (hpast key) h.2⟩
  | written key version => exact lt_of_lt_of_le h (hpast key).length_le
  | clearing userId marks rest =>
    exact ⟨fun key => lt_of_lt_of_le (h.1 key) (hpast key).length_le,
      fun key value hu hr hv => (h.2 key value hu hr (hcached key value hv)).mono hpast⟩

end Growth

/-- A step of thread `i` that fills no slot. The law is kept if its own phase, the slots and its
uses are right. -/
theorem PermInv.step {c c' : PermConfig ι} {i : ι} {p : PermPhase} (h : PermInv c)
    (hphase : c'.phase = Function.update c.phase i p) (hp : PhaseOk c' p)
    (hpast : ∀ k, c.past k <+: c'.past k) (hreturned : ∀ k, c.returned k ≤ c'.returned k)
    (hdrop : ∀ k v, c'.store.cached k = some v → c.store.cached k = some v)
    (hlast : ∀ k, (c'.past k).getLast? = some (c'.store.perm k))
    (hbound : ∀ k, c'.returned k < (c'.past k).length)
    (hcached : ∀ k v, c'.store.cached k = some v → c'.Had k (c'.returned k) v)
    (huses : c'.uses = c.uses) : PermInv c' where
  last := hlast
  bound := hbound
  phase k := by
    rw [hphase]
    by_cases hk : k = i
    · subst hk
      simpa using hp
    · rw [Function.update_of_ne hk]
      exact (h.phase k).mono hpast hreturned hdrop
  cached := hcached
  uses u hu := (h.uses u (huses ▸ hu)).mono hpast

section Steps

variable {c c' : PermConfig ι} {i : ι}

omit [DecidableEq ι] in
theorem PermInv.use {u : PermUse} (h : PermInv c) (hu : c.Had u.key u.since u.value) :
    PermInv (c.use u) where
  last := h.last
  bound := h.bound
  phase k := (h.phase k).mono (fun _ => List.prefix_rfl) (fun _ => le_rfl) fun _ _ hv => hv
  cached := h.cached
  uses v hv := by
    rcases List.mem_cons.mp hv with rfl | hv
    · exact hu
    · exact h.uses v hv

theorem PermInv.moves {p : PermPhase} {store : PermStore} (h : PermInv c)
    (hp : PhaseOk (c.put i p store) p)
    (hrows : store.connectorPermissions = c.store.connectorPermissions)
    (hcache : store.permCache = c.store.permCache) : PermInv (c.put i p store) := by
  have hperm : ∀ k, store.perm k = c.store.perm k := fun k => by
    rw [PermStore.perm, PermStore.perm, hrows]
  have hcached : ∀ k, store.cached k = c.store.cached k := fun k => by
    rw [PermStore.cached, PermStore.cached, hcache]
  exact h.step rfl hp (fun _ => List.prefix_rfl) (fun _ => le_rfl)
    (fun k v hv => (hcached k).symm.trans hv) (fun k => (h.last k).trans (congrArg some (hperm k).symm))
    h.bound (fun k v hv => h.cached k v ((hcached k).symm.trans hv)) rfl

theorem PermInv.writes {p : PermPhase} {store : PermStore} {key : PermKey} (h : PermInv c)
    (hp : p = .idle ∨ p = .written key (c.past key).length)
    (hcache : store.permCache = c.store.permCache)
    (hother : ∀ k, k ≠ key → store.perm k = c.store.perm k) :
    PermInv ((c.put i p store).record key (store.perm key)) := by
  have hpast : ∀ k, c.past k <+: Function.update c.past key (c.past key ++ [store.perm key]) k := by
    intro k
    by_cases hk : k = key
    · subst hk
      simp
    · simp [Function.update_of_ne hk]
  have hcached : ∀ k, store.cached k = c.store.cached k := fun k => by
    rw [PermStore.cached, PermStore.cached, hcache]
  refine h.step rfl ?_ hpast (fun _ => le_rfl) (fun k v hv => (hcached k).symm.trans hv)
    (fun k => ?_) (fun k => lt_of_lt_of_le (h.bound k) (hpast k).length_le)
    (fun k v hv => (h.cached k v ((hcached k).symm.trans hv)).mono hpast) rfl
  · rcases hp with rfl | rfl
    · trivial
    · simp [PhaseOk, PermConfig.record, PermConfig.put]
  · by_cases hk : k = key
    · subst hk
      simp [PermConfig.record, PermConfig.put]
    · simp [PermConfig.record, PermConfig.put, Function.update_of_ne hk, hother k hk, h.last k]

omit [DecidableEq ι] in
theorem PermStore.cached_drop {s : PermStore} {key k : PermKey} {v : Perm}
    (h : (s.drop key).cached k = some v) : k ≠ key ∧ s.cached k = some v := by
  by_cases hk : k = key
  · subst hk
    simp [PermStore.cached, PermStore.drop] at h
  · refine ⟨hk, ?_⟩
    rw [← h]
    exact (AList.lookup_erase_ne hk).symm

theorem PermInv.drops {p : PermPhase} (key : PermKey) (h : PermInv c)
    (hp : PhaseOk (c.put i p (c.store.drop key)) p) : PermInv (c.put i p (c.store.drop key)) :=
  h.step rfl hp (fun _ => List.prefix_rfl) (fun _ => le_rfl)
    (fun _ _ hv => (PermStore.cached_drop hv).2) h.last h.bound
    (fun k v hv => h.cached k v (PermStore.cached_drop hv).2) rfl

omit [DecidableEq ι] in
theorem PermInv.returns {p : PermKey → Bool} {version : PermKey → Nat} (h : PermInv c)
    (hbound : ∀ k, p k = true → version k < (c.past k).length)
    (hcached : ∀ k v, p k = true → c.store.cached k = some v → c.Had k (version k) v) :
    PermInv (c.return_ p version) where
  last := h.last
  bound k := by
    simp only [PermConfig.return_]
    split
    · rename_i hk
      exact Nat.max_lt.mpr ⟨h.bound k, hbound k hk⟩
    · exact h.bound k
  phase k := by
    refine (h.phase k).mono (fun _ => List.prefix_rfl) (fun k => ?_) fun _ _ hv => hv
    simp only [PermConfig.return_]
    split
    · exact le_max_left _ _
    · exact le_rfl
  cached k v hv := by
    have hold := h.cached k v hv
    simp only [PermConfig.return_]
    split
    · rename_i hk
      exact hold.max (hcached k v hk hv)
    · exact hold
  uses := h.uses

theorem PermInv.fills {key : PermKey} {since version : Nat} {value : Perm} (h : PermInv c)
    (hi : c.phase i = .loaded key since value version) (ha : SelectedLast (.put i) c) :
    PermInv (c.put i .idle (c.store.fill key value)) := by
  simp only [SelectedLast, hi] at ha
  have hload : since ≤ version ∧ (c.past key)[version]? = some value := by
    have := h.phase i
    rwa [hi] at this
  have hcached : ∀ k v, (c.store.fill key value).cached k = some v →
      k = key ∧ v = value ∨ c.store.cached k = some v := by
    intro k v hv
    by_cases hk : k = key
    · subst hk
      simp only [PermStore.cached, PermStore.fill, AList.lookup_insert, Option.some.injEq] at hv
      exact .inl ⟨rfl, hv.symm⟩
    · rw [PermStore.cached, PermStore.fill, AList.lookup_insert_ne hk] at hv
      exact .inr hv
  refine ⟨h.last, h.bound, fun k => ?_, fun k v hv => ?_, h.uses⟩
  · by_cases hk : k = i
    · subst hk
      simp [PermConfig.put, PhaseOk]
    · have hold := h.phase k
      have hphase : (c.put i .idle (c.store.fill key value)).phase k = c.phase k := by
        simp [PermConfig.put, Function.update_of_ne hk]
      rw [hphase]
      cases hp : c.phase k with
      | idle => trivial
      | missed key' since' => rw [hp] at hold; exact hold
      | loaded key' since' value' version' => rw [hp] at hold; exact hold
      | written key' version' => rw [hp] at hold; exact hold
      | clearing userId marks rest =>
        rw [hp] at hold
        refine ⟨hold.1, fun key' v hu hr hv => ?_⟩
        rcases hcached key' v hv with ⟨rfl, rfl⟩ | hv
        · have hcleared := ha.2 k
          rw [hp] at hcleared
          exact ⟨version, hcleared hu hr, hload.2⟩
        · exact hold.2 key' v hu hr hv
  · rcases hcached k v hv with ⟨rfl, rfl⟩ | hv
    · exact ⟨version, ha.1, hload.2⟩
    · exact h.cached k v hv

/-! ### Each label -/

theorem PermInv.next {l : PermLabel ι} (h : PermInv c) (ha : SelectedLast l c)
    (hs : permStep l c = some c') : PermInv c' := by
  cases l with
  | get i key =>
    simp only [permStep] at hs
    split at hs
    · rename_i value _ hv
      cases hs
      exact h.use (h.cached key value hv)
    · cases hs
      exact h.moves le_rfl rfl rfl
    · cases hs
  | select i fate =>
    simp only [permStep] at hs
    split at hs
    · rename_i key since hi
      rw [selectPerm, query, execFates_act] at hs
      have hsince : since ≤ c.returned key := by
        have := h.phase i
        rwa [hi] at this
      cases fate with
      | ok =>
        cases hs
        exact h.moves ⟨hsince.trans (h.returned_le key), h.current_eq key⟩ rfl rfl
      | lost => cases hs; exact h.moves trivial rfl rfl
      | late => cases hs; exact h.moves trivial rfl rfl
    · cases hs
  | put i =>
    simp only [permStep] at hs
    split at hs
    · rename_i key since value version hi
      cases hs
      have hload := h.phase i
      rw [hi] at hload
      exact (h.fills hi ha).use ⟨version, hload⟩
    · cases hs
  | write i change fate =>
    simp only [permStep] at hs
    split at hs
    · rename_i t _ hr
      cases hs
      exact h.writes (.inr rfl) (PermChange.frame hr).1 (PermChange.frame hr).2
    · rename_i t _ hr
      cases hs
      exact h.writes (.inl rfl) (PermChange.frame hr).1 (PermChange.frame hr).2
    · cases hs
  | pop i =>
    simp only [permStep] at hs
    split at hs
    · rename_i key version hi
      cases hs
      have hver := h.phase i
      rw [hi] at hver
      refine (h.drops (i := i) (p := .idle) key trivial).returns (fun k hk => ?_)
        fun k v hk hv => ?_
      · rw [beq_iff_eq.mp hk]
        exact hver
      · exact absurd (beq_iff_eq.mp hk) (PermStore.cached_drop hv).1
    · cases hs
  | clear i userId =>
    simp only [permStep] at hs
    split at hs
    · cases hs
      refine h.moves ⟨fun key => ?_, fun key v hu hr hv => ?_⟩ rfl rfl
      · have := h.bound key
        simp only [PermConfig.current, PermConfig.put]
        omega
      · -- a slot that is not in the snapshot is empty
        exfalso
        refine hr (List.mem_filter.mpr ⟨?_, by simpa using hu⟩)
        exact AList.mem_keys.mp (AList.lookup_isSome.mp (Option.isSome_of_eq_some hv))
    · cases hs
  | clearPop i =>
    simp only [permStep] at hs
    split at hs
    · rename_i userId marks key rest hi
      cases hs
      have hold := h.phase i
      rw [hi] at hold
      refine h.drops _ ⟨hold.1, fun k v hu hr hv => ?_⟩
      obtain ⟨hne, hv⟩ := PermStore.cached_drop hv
      exact hold.2 k v hu (by simp [hne, hr]) hv
    · cases hs
  | clearReturn i =>
    simp only [permStep] at hs
    split at hs
    · rename_i userId marks hi
      cases hs
      have hold := h.phase i
      rw [hi] at hold
      refine (h.moves (i := i) (p := .idle) trivial rfl rfl).returns (fun k _ => hold.1 k)
        fun k v hk hv => hold.2 k v (beq_iff_eq.mp hk) (by simp) hv
    · cases hs
  | log i row fate =>
    simp only [permStep] at hs
    rw [insertActionLog, execFates_act] at hs
    split at hs
    · rename_i r t _ hr
      cases hs
      cases fate <;> (cases hr; exact h.moves trivial rfl rfl)
    · cases hs

/-- What holds after every run whose readers store what they selected last. -/
theorem changes_take_effect {c₀ c : PermConfig ι} (h₀ : PermStart c₀)
    (h : Reaches permStep SelectedLast c₀ c) : ChangesTakeEffect c :=
  (h.invariant h₀.inv fun _ _ _ hi ha hs => hi.next ha hs).uses

end Steps

/-! ## The functions are runs -/

section Calls

variable {c : PermConfig ι} {i : ι} {s : PermStore}

/-- A run from `c` leads to a configuration with store `t` in which thread `i` is between calls. -/
abbrev PermRunsTo (c : PermConfig ι) (i : ι) (P : PermConfig ι → Prop) (t : PermStore) : Prop :=
  RunsTo permStep (fun _ _ => True) PermConfig.store c (fun c' => c'.phase i = .idle ∧ P c') t

theorem loadPerm_runs (h : PermRunsTo c i (fun _ => True) s) (userId connector : String) :
    wp (fun r t => ∃ value, r = .ok value ∧
      PermRunsTo c i (fun c' => ∃ since, ⟨(userId, connector), since, value⟩ ∈ c'.uses) t)
      (loadPerm userId connector) s := by
  rw [loadPerm, wp_bind, cacheGet, wp_query]
  cases hc : s.cached (userId, connector) with
  | some value =>
    refine ⟨value, rfl, h.next (l := .get i (userId, connector)) fun c' hc' hs => ⟨trivial, ?_⟩⟩
    subst hs
    simp only [permStep, hc'.1, hc]
    exact ⟨_, rfl, ⟨hc'.1, _, List.mem_cons_self⟩, rfl⟩
  | none =>
    have hmissed : RunsTo permStep (fun _ _ => True) PermConfig.store c
        (fun c' => ∃ since, c'.phase i = .missed (userId, connector) since) s := by
      refine h.next (l := .get i (userId, connector)) fun c' hc' hs => ⟨trivial, ?_⟩
      subst hs
      simp only [permStep, hc'.1, hc]
      exact ⟨_, rfl, ⟨_, Function.update_self ..⟩, rfl⟩
    have hloaded : RunsTo permStep (fun _ _ => True) PermConfig.store c
        (fun c' => ∃ since version, c'.phase i = .loaded (userId, connector) since
          (s.perm (userId, connector)) version) s := by
      refine hmissed.next (l := .select i .ok) fun c' hc' hs => ⟨trivial, ?_⟩
      obtain ⟨since, hc'⟩ := hc'
      subst hs
      simp only [permStep, hc', selectPerm, query, execFates_act]
      exact ⟨_, rfl, ⟨_, _, Function.update_self ..⟩, rfl⟩
    simp only [seqPost, wp_bind, selectPerm, wp_query, cachePut, wp_act]
    refine ⟨_, rfl, hloaded.next (l := .put i) fun c' hc' hs => ⟨trivial, ?_⟩⟩
    obtain ⟨since, version, hc'⟩ := hc'
    subst hs
    simp only [permStep, hc']
    exact ⟨_, rfl, ⟨Function.update_self .., _, List.mem_cons_self⟩, rfl⟩

theorem change_runs (h : PermRunsTo c i (fun _ => True) s) (change : PermChange) :
    wp (fun _ t => PermRunsTo c i (fun _ => True) t)
      (change.statement >>= fun _ => cachePop change.key) s := by
  have hwritten : RunsTo permStep (fun _ _ => True) PermConfig.store c
      (fun c' => ∃ version, c'.phase i = .written change.key version)
      (s.setRows (change.rows s.connectorPermissions)) := by
    refine h.next (l := .write i change .ok) fun c' hc' hs => ⟨trivial, ?_⟩
    subst hs
    simp only [permStep, hc'.1, change.statement_eq, execFates_act]
    exact ⟨_, rfl, ⟨_, Function.update_self ..⟩, rfl⟩
  simp only [wp_bind, change.statement_eq, wp_act, cachePop, seqPost]
  refine hwritten.next (l := .pop i) fun c' hc' hs => ⟨trivial, ?_⟩
  obtain ⟨version, hc'⟩ := hc'
  rw [← hs]
  simp only [permStep, hc']
  exact ⟨_, rfl, ⟨Function.update_self .., trivial⟩, rfl⟩

theorem clearLoop_runs (userId : String) {keys : List PermKey}
    (h : RunsTo permStep (fun _ _ => True) PermConfig.store c
      (fun c' => ∃ marks, c'.phase i = .clearing userId marks keys) s) :
    wp (fun _ t => PermRunsTo c i (fun _ => True) t) (forEach cachePop keys) s := by
  induction keys generalizing s with
  | nil =>
    refine h.next (l := .clearReturn i) fun c' hc' hs => ⟨trivial, ?_⟩
    obtain ⟨marks, hc'⟩ := hc'
    subst hs
    simp only [permStep, hc']
    exact ⟨_, rfl, ⟨Function.update_self .., trivial⟩, rfl⟩
  | cons key keys ih =>
    rw [forEach, wp_bind, cachePop, wp_act]
    refine ih (h.next (l := .clearPop i) fun c' hc' hs => ⟨trivial, ?_⟩)
    obtain ⟨marks, hc'⟩ := hc'
    subst hs
    simp only [permStep, hc']
    exact ⟨_, rfl, ⟨marks, Function.update_self ..⟩, rfl⟩

theorem clearCacheForUser_runs (h : PermRunsTo c i (fun _ => True) s) (userId : String) :
    wp (fun _ t => PermRunsTo c i (fun _ => True) t) (clearCacheForUser userId) s := by
  rw [clearCacheForUser, wp_bind, cacheKeys, wp_query]
  refine clearLoop_runs userId (h.next (l := .clear i userId) fun c' hc' hs => ⟨trivial, ?_⟩)
  subst hs
  simp only [permStep, hc'.1]
  exact ⟨_, rfl, ⟨_, Function.update_self ..⟩, rfl⟩

theorem logAction_runs {P : PermConfig ι → Prop} (h : PermRunsTo c i P s) (row : ActionLogRow)
    (hP : ∀ c' t, P c' → P (c'.put i .idle t)) :
    wp (fun _ t => PermRunsTo c i P t) (logAction row) s := by
  rw [logAction, requireUser]
  split
  · exact h
  · simp only [pure_eq, wp_bind, wp_ret, seqPost, wp_attempt, insertActionLog, wp_act]
    refine h.next (l := .log i row .ok) fun c' hc' hs => ⟨trivial, ?_⟩
    subst hs
    simp only [permStep, hc'.1, insertActionLog, execFates_act]
    exact ⟨_, rfl, ⟨Function.update_self .., hP _ _ hc'.2⟩, rfl⟩

omit [DecidableEq ι] in
theorem wp_requireUser {α : Type} {name userId : String} {p : PermM α}
    {Q : Except PermErr α → PermStore → Prop} (he : ∀ e, Q (.error e) s) (hp : wp Q p s) :
    wp Q (requireUser name userId >>= fun _ => p) s := by
  rw [requireUser]
  split
  · exact he _
  · exact hp

/-- A check answers by the mode of a use that is recorded. -/
theorem checkPermission_runs (h : PermRunsTo c i (fun _ => True) s)
    (connector actionType : String) (isWrite : Bool) (userId : String) :
    wp (fun r t => PermRunsTo c i (fun c' => ∀ allowed, r = .ok allowed →
        ∃ u ∈ c'.uses, u.key = (userId, connector) ∧
          allowed = !(isWrite && u.value.mode == "ASK")) t)
      (checkPermission connector actionType isWrite userId) s := by
  have herror : ∀ e : PermErr, PermRunsTo c i (fun c' => ∀ allowed,
      (.error e : Except PermErr Bool) = .ok allowed → ∃ u ∈ c'.uses,
        u.key = (userId, connector) ∧ allowed = !(isWrite && u.value.mode == "ASK")) s :=
    fun e => h.mono fun c' hc' => ⟨hc'.1, fun _ he => by cases he⟩
  rw [checkPermission, getConnectorMode]
  refine wp_requireUser herror (wp_bind.mpr (wp_requireUser herror ?_))
  rw [wp_bind]
  refine (loadPerm_runs h userId connector).mono fun r t hr => ?_
  obtain ⟨value, rfl, ht⟩ := hr
  simp only [seqPost, pure_eq, wp_ret, wp_bind]
  let P : PermConfig ι → Prop := fun c' => ∃ since, ⟨(userId, connector), since, value⟩ ∈ c'.uses
  refine (logAction_runs (P := P) ht _ fun c' t hc' => by exact hc').mono fun r t ht => ?_
  cases r with
  | ok u =>
    refine ht.mono fun c' hc' => ⟨hc'.1, fun allowed ha => ?_⟩
    obtain ⟨since, hu⟩ := hc'.2
    cases ha
    exact ⟨_, hu, rfl, rfl⟩
  | error e => exact ht.mono fun c' hc' => ⟨hc'.1, fun _ he => by cases he⟩

theorem setConnectorMode_runs (h : PermRunsTo c i (fun _ => True) s)
    (userId connector mode : String) :
    wp (fun _ t => PermRunsTo c i (fun _ => True) t) (setConnectorMode userId connector mode) s := by
  refine wp_requireUser (fun _ => h) ?_
  split
  · exact h
  · exact change_runs h (.mode (userId, connector) mode)

theorem deleteUserPermission_runs (h : PermRunsTo c i (fun _ => True) s)
    (userId connector : String) :
    wp (fun _ t => PermRunsTo c i (fun _ => True) t) (deleteUserPermission userId connector) s :=
  wp_requireUser (fun _ => h) (change_runs h (.delete (userId, connector)))

theorem grantScopes_runs (h : PermRunsTo c i (fun _ => True) s) (userId connector : String)
    (scopes : List String) :
    wp (fun _ t => PermRunsTo c i (fun _ => True) t) (grantScopes userId connector scopes) s := by
  refine wp_requireUser (fun _ => h) ?_
  split
  · exact h
  · rename_i clean _
    exact change_runs h (.scopes (userId, connector) clean)

end Calls

end System

namespace PermissionExample

def key : PermKey := ("alice", "files")

/-- The row says `DO`. -/
def start : PermConfig (Fin 2) :=
  let store : PermStore :=
    { connectorPermissions := [⟨"alice", "files", "DO", []⟩], actionLog := [], permCache := ∅ }
  { store := store, phase := fun _ => .idle, past := fun k => [store.perm k]
    returned := fun _ => 0, uses := [] }

theorem start_idle : PermStart start where
  idle _ := rfl
  cached _ _ hv := by cases hv
  past _ := rfl
  returned _ := rfl
  uses := rfl

def reached (ls : List (PermLabel (Fin 2))) : PermConfig (Fin 2) := (run permStep ls start).getD start

theorem run_reached {ls : List (PermLabel (Fin 2))} (h : (run permStep ls start).isSome = true) :
    run permStep ls start = some (reached ls) := by
  obtain ⟨c, hc⟩ := Option.isSome_iff_exists.mp h
  rw [reached, hc]
  rfl

end PermissionExample

section Runs

open PermissionExample

theorem checkPermission_runs_start :
    wp (fun r t => PermRunsTo start 0 (fun c' => ∀ allowed, r = .ok allowed →
        ∃ u ∈ c'.uses, u.key = key ∧ allowed = !(true && u.value.mode == "ASK")) t)
      (checkPermission "files" "write_file" true "alice") start.store :=
  checkPermission_runs ⟨start, .start, ⟨rfl, trivial⟩, rfl⟩ "files" "write_file" true "alice"

/-- The mode is changed to `ASK` while nobody reads, and the next check uses `ASK`. -/
theorem changes_take_effect_quiet : ChangesTakeEffect (reached [.get 0 key, .select 0 .ok, .put 0,
      .write 1 (.mode key "ASK") .ok, .pop 1, .get 0 key, .select 0 .ok, .put 0]) ∧
    (reached [.get 0 key, .select 0 .ok, .put 0, .write 1 (.mode key "ASK") .ok, .pop 1,
      .get 0 key, .select 0 .ok, .put 0]).uses = [⟨key, 1, ⟨"ASK", []⟩⟩, ⟨key, 0, ⟨"DO", []⟩⟩] :=
  ⟨changes_take_effect start_idle (run_reaches (run_reached (by decide)) (by decide)), by decide⟩

/-- A reader selects `DO`, the mode is changed to `ASK` and the slot dropped, the reader stores
`DO`: the checks that begin now use `DO`. -/
theorem staleStore_keeps_mode : ∃ c, Reaches permStep (fun _ _ => True) start c ∧
    c.uses.head? = some ⟨key, 1, ⟨"DO", []⟩⟩ ∧ c.store.perm key = ⟨"ASK", []⟩ ∧
    ¬ ChangesTakeEffect c :=
  ⟨reached [.get 0 key, .select 0 .ok, .write 1 (.mode key "ASK") .ok, .pop 1, .put 0, .get 1 key],
    run_reaches (run_reached (by decide)) (by decide), by decide, by decide, by decide⟩

end Runs

end Lumogis
