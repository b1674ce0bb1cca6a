import Lumogis.CaptureOutbox
import Mathlib.Algebra.BigOperators.Group.List.Basic
import Mathlib.Data.List.Perm.Basic

/-!
# OutboxRuns

Any number of calls of the outbox at once: `addTextUrlOutboxItem`, `addAudioOutboxItem`,
`discardOutboxItem` and `syncOutbox`, interleaved await by await, with store operations and requests
that may fail.

The index is read, changed and written back across awaits, and the limits on voice clips are checked
before the writes that they protect. In every run in which no call undoes what another has done in
between (`Orderly`), every item whose add has resolved is listed until it is let go, and the limits
hold: `outbox_keeps`.
-/

namespace Lumogis

open Prog Relation

inductive OutboxCall where
  | addTextUrl (newId : String) (input : TextUrlInput)
  | addAudio (newCaptureId newAttachmentId : String) (input : AudioInput)
  | discard (localCaptureId : String)
  | sync

inductive OutboxResult where
  | added (item : CaptureOutboxItemMeta)
  | discarded
  | synced (result : SyncResult)

variable {ι σ α β : Type}

def OutboxCall.run [DecidableEq ι] (env : OutboxEnv) (server : CaptureServer σ) (i : ι) :
    OutboxCall → OutboxM ι σ OutboxResult
  | .addTextUrl newId input => do
    let item ← addTextUrlOutboxItem env i newId input
    pure (.added item)
  | .addAudio newCaptureId newAttachmentId input => do
    let item ← addAudioOutboxItem env i newCaptureId newAttachmentId input
    pure (.added item)
  | .discard id => do
    note fun s => { s with discarded := id :: s.discarded }
    discardOutboxItem i id
    pure .discarded
  | .sync => do
    let result ← syncOutbox env server i
    pure (.synced result)

def TextUrlInput.item (env : OutboxEnv) (newId : String) (input : TextUrlInput) :
    CaptureOutboxItemMeta :=
  { localCaptureId := newId, kind := .textUrl input.kind, title := trimmed env input.title
    text := trimmed env input.text, url := trimmed env input.url, tags := nonEmptyTags input.tags
    status := .localPending, lastError := none }

/-- The item that the call adds. -/
def OutboxCall.item (env : OutboxEnv) : OutboxCall → Option CaptureOutboxItemMeta
  | .addTextUrl newId input => some (input.item env newId)
  | .addAudio newCaptureId newAttachmentId input =>
    some (input.item env newCaptureId newAttachmentId)
  | _ => none

/-- The same capture, whatever became of its sync. -/
def CaptureOutboxItemMeta.SameCapture (m m' : CaptureOutboxItemMeta) : Prop :=
  { m with status := m'.status, lastError := m'.lastError } = m'

/-- `newId()` returns no id twice. -/
def FreshIds (env : OutboxEnv) (calls : ι → OutboxCall) : Prop :=
  ∀ i j m m', (calls i).item env = some m → (calls j).item env = some m' →
    m.localCaptureId = m'.localCaptureId → m = m'

def OutboxState.start (server₀ : σ) (storeFates : List (Option OutboxError))
    (requestFates : List RequestFate) : OutboxState ι σ :=
  { index := [], record := fun _ => none, blob := fun _ => none, server := server₀
    storeFates := storeFates, requestFates := requestFates, captured := [], uploaded := []
    discarded := [], seen := fun _ => [], counted := fun _ => none }

/-! ## The law and its condition -/

/-- The server has acknowledged the item. -/
def Synced (s : OutboxState ι σ) (m : CaptureOutboxItemMeta) : Prop :=
  m.localCaptureId ∈ s.captured ∧ ∀ att ∈ m.kind.localAttachmentId, att ∈ s.uploaded

/-- A discard of the item was asked for, or it is synced. -/
def LetGo (s : OutboxState ι σ) (m : CaptureOutboxItemMeta) : Prop :=
  m.localCaptureId ∈ s.discarded ∨ Synced s m

def outboxItems (s : OutboxState ι σ) : List CaptureOutboxItemMeta := s.index.filterMap s.record

/-- The size of a voice clip whose record is stored. -/
def clipSize (s : OutboxState ι σ) (id : String) : Option Nat :=
  (s.record id).bind fun m => if countsTowardVoiceCap m then some m.kind.sizeBytes else none

/-- What call `i` does undoes nothing that others did in between. -/
structure Orderly (i : ι) (s t : OutboxState ι σ) : Prop where
  /-- Ids that came into the index since the call read it stay. -/
  joined : ∀ id ∈ s.index, id ∉ s.seen i → id ∈ t.index
  /-- Ids that left the index since the call read it stay away. -/
  left : ∀ id ∈ s.seen i, id ∉ s.index → id ∉ t.index
  /-- A clip that comes to be listed is one that the call adds, and there are no more others than
  the call counted. -/
  clips : ∀ id ∈ t.index, (clipSize t id).isSome → (id ∈ s.index → clipSize s id = none) →
    ∃ n total, s.counted i = some (n, total) ∧ voiceClips (outboxItems s) ≤ n ∧
      voiceBytes (outboxItems s) ≤ total

instance [DecidableEq ι] (i : ι) (s t : OutboxState ι σ) : Decidable (Orderly i s t) :=
  decidable_of_iff ((∀ id ∈ s.index, id ∉ s.seen i → id ∈ t.index) ∧
    (∀ id ∈ s.seen i, id ∉ s.index → id ∉ t.index) ∧
    ∀ id ∈ t.index, (clipSize t id).isSome → (id ∈ s.index → clipSize s id = none) →
      ∃ c ∈ s.counted i, voiceClips (outboxItems s) ≤ c.1 ∧ voiceBytes (outboxItems s) ≤ c.2)
    ⟨fun h => ⟨h.1, h.2.1, fun id hid hclip hnew => by
        obtain ⟨c, hc, hn, htotal⟩ := h.2.2 id hid hclip hnew
        exact ⟨c.1, c.2, hc, hn, htotal⟩⟩,
      fun h => ⟨h.joined, h.left, fun id hid hclip hnew => by
        obtain ⟨n, total, hc, hn, htotal⟩ := h.clips id hid hclip hnew
        exact ⟨(n, total), hc, hn, htotal⟩⟩⟩

/-! ## What the list shows -/

theorem listItems_exec {s : OutboxState ι σ} {ids : List String} {out : List CaptureOutboxItemMeta}
    (h : s.storeFates = []) :
    ((foldM listItem out ids).exec s).map Prod.fst = some (.ok (out ++ ids.filterMap s.record)) := by
  induction ids generalizing out s with
  | nil => simp [foldM]
  | cons id ids ih =>
    have hnext : s.nextStoreFate.storeFates = [] := by simp [OutboxState.nextStoreFate, h]
    have hround : (listItem out id).exec s = some (.ok (out ++ (s.record id).toList), s.nextStoreFate) := by
      rw [listItem, exec_bind, getMeta, storeOp, exec_actE]
      simp only [h, List.head?_nil]
      rfl
    rw [foldM, exec_bind, hround]
    refine (ih hnext).trans ?_
    rw [List.append_assoc]
    cases hm : s.record id with
    | none => simp [OutboxState.nextStoreFate, hm]
    | some m => simp [OutboxState.nextStoreFate, hm]

theorem listOutboxItems_exec [DecidableEq ι] {i : ι} {s : OutboxState ι σ} (h : s.storeFates = []) :
    ((listOutboxItems i).exec s).map Prod.fst = some (.ok (outboxItems s)) := by
  rw [listOutboxItems, exec_bind, readIndex, storeOp, exec_actE]
  simp only [h, List.head?_nil]
  exact listItems_exec (s := (s.noteSeen i).nextStoreFate)
    (by simp [OutboxState.nextStoreFate, OutboxState.noteSeen, h])

/-- The clips in the index, each with the weight of its size. -/
def weigh (w : Option Nat → Nat) (s : OutboxState ι σ) : Nat :=
  (s.index.map fun id => w (clipSize s id)).sum

def clipOne (size : Option Nat) : Nat := if size.isSome then 1 else 0

def clipBytes (size : Option Nat) : Nat := size.getD 0

theorem voiceClips_eq (s : OutboxState ι σ) : voiceClips (outboxItems s) = weigh clipOne s := by
  rw [outboxItems, voiceClips, weigh]
  induction s.index with
  | nil => rfl
  | cons id ids ih =>
    cases hm : s.record id with
    | none => simp [List.filterMap_cons_none hm, clipSize, hm, ih, clipOne]
    | some m =>
      by_cases hcounts : countsTowardVoiceCap m = true
      · simp [List.filterMap_cons_some hm, clipSize, hm, hcounts, ih, clipOne, Nat.add_comm]
      · simp [List.filterMap_cons_some hm, clipSize, hm, hcounts, ih, clipOne]

theorem voiceBytes_eq (s : OutboxState ι σ) : voiceBytes (outboxItems s) = weigh clipBytes s := by
  rw [outboxItems, voiceBytes, weigh]
  induction s.index with
  | nil => rfl
  | cons id ids ih =>
    cases hm : s.record id with
    | none => simp [List.filterMap_cons_none hm, clipSize, hm, ih, clipBytes]
    | some m =>
      by_cases hcounts : countsTowardVoiceCap m = true
      · simp [List.filterMap_cons_some hm, clipSize, hm, hcounts, ih, clipBytes]
      · simp [List.filterMap_cons_some hm, clipSize, hm, hcounts, ih, clipBytes]

/-! ## What every call keeps -/

/-- The item is one that a call adds. -/
def Known (env : OutboxEnv) (calls : ι → OutboxCall) (m : CaptureOutboxItemMeta) : Prop :=
  ∃ i b, (calls i).item env = some b ∧ m.SameCapture b

def Gone (env : OutboxEnv) (calls : ι → OutboxCall) (s : OutboxState ι σ) (id : String) : Prop :=
  id ∈ s.discarded ∨ ∃ m, Known env calls m ∧ m.localCaptureId = id ∧ Synced s m

def RecordsOk (env : OutboxEnv) (calls : ι → OutboxCall) (s : OutboxState ι σ) : Prop :=
  ∀ id m, s.record id = some m → m.localCaptureId = id ∧ Known env calls m ∧ m.status.isPending = true

def WithinLimits (s : OutboxState ι σ) : Prop :=
  voiceClips (outboxItems s) ≤ maxPendingVoiceClips ∧
    voiceBytes (outboxItems s) ≤ maxLocalVoiceBytesTotal

structure OutboxInv (env : OutboxEnv) (calls : ι → OutboxCall) (s : OutboxState ι σ) : Prop where
  nodup : s.index.Nodup
  records : RecordsOk env calls s
  /-- Who has counted adds a clip, and has found room for it. -/
  counted : ∀ i n total, s.counted i = some (n, total) → n < maxPendingVoiceClips ∧
    ∃ b, (calls i).item env = some b ∧ total + b.kind.sizeBytes ≤ maxLocalVoiceBytesTotal
  limits : WithinLimits s

/-- Nothing is lost but what is let go. -/
structure Grows (env : OutboxEnv) (calls : ι → OutboxCall) (s t : OutboxState ι σ) : Prop where
  discarded : s.discarded ⊆ t.discarded
  captured : s.captured ⊆ t.captured
  uploaded : s.uploaded ⊆ t.uploaded
  index : ∀ id ∈ s.index, id ∈ t.index ∨ Gone env calls t id
  record : ∀ id, (s.record id).isSome → (t.record id).isSome ∨ Gone env calls t id

section Runs

variable {env : OutboxEnv} {server : CaptureServer σ} {calls : ι → OutboxCall} {s t : OutboxState ι σ}
  {i : ι}

theorem CaptureOutboxItemMeta.SameCapture.localCaptureId {m m' : CaptureOutboxItemMeta}
    (h : m.SameCapture m') : m.localCaptureId = m'.localCaptureId := by
  rw [← h]

theorem CaptureOutboxItemMeta.SameCapture.kind {m m' : CaptureOutboxItemMeta} (h : m.SameCapture m') :
    m.kind = m'.kind := by
  rw [← h]

theorem Synced.grows {m : CaptureOutboxItemMeta} (h : Synced s m) (hc : s.captured ⊆ t.captured)
    (hu : s.uploaded ⊆ t.uploaded) : Synced t m :=
  ⟨hc h.1, fun att hatt => hu (h.2 att hatt)⟩

theorem Gone.grows {id : String} (h : Gone env calls s id) (hd : s.discarded ⊆ t.discarded)
    (hc : s.captured ⊆ t.captured) (hu : s.uploaded ⊆ t.uploaded) : Gone env calls t id := by
  rcases h with h | ⟨m, hm, hid, hs⟩
  · exact .inl (hd h)
  · exact .inr ⟨m, hm, hid, hs.grows hc hu⟩

theorem Grows.gone {id : String} (h : Grows env calls s t) (hg : Gone env calls s id) :
    Gone env calls t id :=
  hg.grows h.discarded h.captured h.uploaded

theorem Known.unique (hfresh : FreshIds env calls) {m m' : CaptureOutboxItemMeta}
    (h : Known env calls m) (h' : Known env calls m') (hid : m.localCaptureId = m'.localCaptureId) :
    ∃ b, m.SameCapture b ∧ m'.SameCapture b := by
  obtain ⟨i, b, hb, hm⟩ := h
  obtain ⟨j, b', hb', hm'⟩ := h'
  have hbb : b = b' := hfresh i j b b' hb hb' (by
    rw [← hm.localCaptureId, ← hm'.localCaptureId, hid])
  exact ⟨b, hm, hbb ▸ hm'⟩

theorem clipSize_eq_some {id : String} {size : Nat} (h : clipSize s id = some size) :
    ∃ m, s.record id = some m ∧ m.kind.sizeBytes = size := by
  obtain ⟨m, hm, hsize⟩ := Option.bind_eq_some_iff.mp h
  split at hsize
  · exact ⟨m, hm, Option.some.inj hsize⟩
  · cases hsize

theorem clipSize_unique (hfresh : FreshIds env calls) (hs : RecordsOk env calls s)
    (ht : RecordsOk env calls t) {id : String} {n n' : Nat} (h : clipSize s id = some n)
    (h' : clipSize t id = some n') : n = n' := by
  obtain ⟨m, hm, rfl⟩ := clipSize_eq_some h
  obtain ⟨m', hm', rfl⟩ := clipSize_eq_some h'
  obtain ⟨hid, hknown, -⟩ := hs id m hm
  obtain ⟨hid', hknown', -⟩ := ht id m' hm'
  obtain ⟨b, hb, hb'⟩ := hknown.unique hfresh hknown' (hid.trans hid'.symm)
  rw [hb.kind, hb'.kind]

/-! ### The limits -/

theorem sum_map_le {f g : String → Nat} {l l' : List String} (hnodup : l.Nodup)
    (h : ∀ x ∈ l, f x ≠ 0 → x ∈ l' ∧ f x ≤ g x) : (l.map f).sum ≤ (l'.map g).sum := by
  induction l generalizing l' with
  | nil => simp
  | cons a l ih =>
    obtain ⟨ha, hnodup⟩ := List.nodup_cons.mp hnodup
    rw [List.map_cons, List.sum_cons]
    by_cases hfa : f a = 0
    · rw [hfa, Nat.zero_add]
      exact ih hnodup fun x hx => h x (List.mem_cons_of_mem a hx)
    · obtain ⟨hmem, hle⟩ := h a List.mem_cons_self hfa
      have hrest : (l.map f).sum ≤ ((l'.erase a).map g).sum := by
        refine ih hnodup fun x hx hfx => ?_
        obtain ⟨hx', hlex⟩ := h x (List.mem_cons_of_mem a hx) hfx
        have hne : x ≠ a := by
          rintro rfl
          exact ha hx
        exact ⟨(List.mem_erase_of_ne hne).mpr hx', hlex⟩
      have hperm := ((List.perm_cons_erase hmem).map g).sum_eq
      rw [List.map_cons, List.sum_cons] at hperm
      omega

theorem sum_map_le_add {f g : String → Nat} {l l' : List String} (own : String) (hnodup : l.Nodup)
    (h : ∀ x ∈ l, x ≠ own → f x ≠ 0 → x ∈ l' ∧ f x ≤ g x) :
    (l.map f).sum ≤ (l'.map g).sum + f own := by
  by_cases hown : own ∈ l
  · have hrest : ((l.erase own).map f).sum ≤ (l'.map g).sum := by
      refine sum_map_le (hnodup.erase own) fun x hx hfx => ?_
      obtain ⟨hne, hmem⟩ := hnodup.mem_erase_iff.mp hx
      exact h x hmem hne hfx
    have hperm := ((List.perm_cons_erase hown).map f).sum_eq
    rw [List.map_cons, List.sum_cons] at hperm
    omega
  · have hrest : (l.map f).sum ≤ (l'.map g).sum := by
      refine sum_map_le hnodup fun x hx hfx => h x hx ?_ hfx
      rintro rfl
      exact hown hx
    omega

theorem weigh_le {w : Option Nat → Nat} (hw : w none = 0) (hnodup : t.index.Nodup)
    (h : ∀ id ∈ t.index, (clipSize t id).isSome → id ∈ s.index ∧ clipSize t id = clipSize s id) :
    weigh w t ≤ weigh w s := by
  refine sum_map_le hnodup fun id hid hne => ?_
  cases hc : clipSize t id with
  | none =>
    rw [hc] at hne
    exact absurd hw hne
  | some n =>
    obtain ⟨hids, heq⟩ := h id hid (by rw [hc]; rfl)
    exact ⟨hids, Nat.le_of_eq (by rw [← hc, heq])⟩

theorem weigh_le_add {w : Option Nat → Nat} (hw : w none = 0) (own : String) (hnodup : t.index.Nodup)
    (h : ∀ id ∈ t.index, id ≠ own → (clipSize t id).isSome →
      id ∈ s.index ∧ clipSize t id = clipSize s id) :
    weigh w t ≤ weigh w s + w (clipSize t own) := by
  refine sum_map_le_add own hnodup fun id hid hown hne => ?_
  cases hc : clipSize t id with
  | none =>
    rw [hc] at hne
    exact absurd hw hne
  | some n =>
    obtain ⟨hids, heq⟩ := h id hid hown (by rw [hc]; rfl)
    exact ⟨hids, Nat.le_of_eq (by rw [← hc, heq])⟩

theorem OutboxInv.limits_move (hfresh : FreshIds env calls) (h : OutboxInv env calls s)
    (hord : Orderly i s t) (hnodup : t.index.Nodup) (hrecords : RecordsOk env calls t) (own : String)
    (hown : ∀ b, (calls i).item env = some b → own = b.localCaptureId)
    (hmove : ∀ id ∈ t.index, id ≠ own → (clipSize t id).isSome →
      id ∈ s.index ∧ (clipSize s id).isSome) : WithinLimits t := by
  have hsame : ∀ id, (clipSize t id).isSome → (clipSize s id).isSome → clipSize t id = clipSize s id := by
    intro id ht hs
    obtain ⟨n, hn⟩ := Option.isSome_iff_exists.mp ht
    obtain ⟨n', hn'⟩ := Option.isSome_iff_exists.mp hs
    rw [hn, hn', clipSize_unique hfresh hrecords h.records hn hn']
  have hmoved : ∀ id ∈ t.index, id ≠ own → (clipSize t id).isSome →
      id ∈ s.index ∧ clipSize t id = clipSize s id := by
    intro id hid hne hsome
    obtain ⟨hids, hsomes⟩ := hmove id hid hne hsome
    exact ⟨hids, hsame id hsome hsomes⟩
  have hlimits := h.limits
  rw [WithinLimits, voiceClips_eq, voiceBytes_eq] at hlimits ⊢
  by_cases hnew : own ∈ t.index ∧ (clipSize t own).isSome ∧ (own ∈ s.index → clipSize s own = none)
  · -- the clip that the call adds: the call has counted the others
    obtain ⟨hmem, hclip, hold⟩ := hnew
    obtain ⟨n, total, hcounted, hn, htotal⟩ := hord.clips own hmem hclip hold
    obtain ⟨hroom, b, hb, hbytes⟩ := h.counted i n total hcounted
    rw [voiceClips_eq] at hn
    rw [voiceBytes_eq] at htotal
    obtain ⟨size, hsize⟩ := Option.isSome_iff_exists.mp hclip
    have hsizeb : size = b.kind.sizeBytes := by
      obtain ⟨m, hm, rfl⟩ := clipSize_eq_some hsize
      obtain ⟨hid, hknown, -⟩ := hrecords own m hm
      obtain ⟨b', hmb', hbb'⟩ := hknown.unique hfresh ⟨i, b, hb, rfl⟩ (hid.trans (hown b hb))
      rw [hmb'.kind, hbb'.kind]
    have hcount := weigh_le_add (w := clipOne) rfl own hnodup hmoved
    have hsum := weigh_le_add (w := clipBytes) rfl own hnodup hmoved
    rw [hsize] at hcount hsum
    simp only [clipOne, clipBytes, Option.isSome_some, if_true, Option.getD_some] at hcount hsum
    constructor
    · omega
    · omega
  · have hkept : ∀ id ∈ t.index, (clipSize t id).isSome →
        id ∈ s.index ∧ clipSize t id = clipSize s id := by
      intro id hid hsome
      by_cases hid' : id = own
      · subst hid'
        rw [not_and, not_and, Classical.not_imp] at hnew
        obtain ⟨hids, hsomes⟩ := hnew hid hsome
        exact ⟨hids, hsame id hsome (Option.isSome_iff_ne_none.mpr hsomes)⟩
      · exact hmoved id hid hid' hsome
    exact ⟨Nat.le_trans (weigh_le rfl hnodup hkept) hlimits.1,
      Nat.le_trans (weigh_le rfl hnodup hkept) hlimits.2⟩

/-! ### Calls beside each other -/

def OutboxGuar (env : OutboxEnv) (calls : ι → OutboxCall) (i : ι) (s t : OutboxState ι σ) : Prop :=
  OutboxInv env calls s → OutboxInv env calls t ∧ Grows env calls s t ∧ ∀ j ≠ i, t.seen j = s.seen j

def OutboxRely (env : OutboxEnv) (calls : ι → OutboxCall) (i : ι) (s t : OutboxState ι σ) : Prop :=
  OutboxInv env calls s → OutboxInv env calls t ∧ Grows env calls s t ∧ t.seen i = s.seen i

/-- What is so stays so when nothing is lost. -/
def Lasting (env : OutboxEnv) (calls : ι → OutboxCall) (A : OutboxState ι σ → Prop) : Prop :=
  ∀ s t, Grows env calls s t → A s → A t

theorem Lasting.const (p : Prop) : Lasting (σ := σ) env calls fun _ => p := fun _ _ _ h => h

theorem Lasting.and {A B : OutboxState ι σ → Prop} (hA : Lasting env calls A)
    (hB : Lasting env calls B) : Lasting env calls fun s => A s ∧ B s :=
  fun s t h hs => ⟨hA s t h hs.1, hB s t h hs.2⟩

theorem Lasting.gone (id : String) : Lasting (σ := σ) env calls fun s => Gone env calls s id :=
  fun _ _ h hs => h.gone hs

theorem Lasting.indexed (id : String) :
    Lasting (σ := σ) env calls fun s => id ∈ s.index ∨ Gone env calls s id := by
  intro _ _ h hs
  rcases hs with hs | hs
  · exact h.index id hs
  · exact .inr (h.gone hs)

theorem Lasting.recorded (id : String) :
    Lasting (σ := σ) env calls fun s => (s.record id).isSome ∨ Gone env calls s id := by
  intro _ _ h hs
  rcases hs with hs | hs
  · exact h.record id hs
  · exact .inr (h.gone hs)

def OutboxHolds (env : OutboxEnv) (calls : ι → OutboxCall) (A : OutboxState ι σ → Prop)
    (s : OutboxState ι σ) : Prop :=
  OutboxInv env calls s ∧ A s

theorem Lasting.stable {A : OutboxState ι σ → Prop} (h : Lasting env calls A) (i : ι) :
    Stable (OutboxRely env calls i) (OutboxHolds env calls A) := by
  intro s t hr hs
  obtain ⟨hinv, hgrows, -⟩ := hr hs.1
  exact ⟨hinv, h s t hgrows hs.2⟩

/-- Where `A` holds, `p` keeps it, whatever the other calls do; when `p` returns `a`, then `B a`. -/
def OutboxSpec (env : OutboxEnv) (calls : ι → OutboxCall) (i : ι) (A : OutboxState ι σ → Prop)
    (p : OutboxM ι σ α) (B : α → OutboxState ι σ → Prop) : Prop :=
  Lasting env calls A → ∀ s, OutboxHolds env calls A s →
    Sat (OutboxRely env calls i) (Orderly i) (OutboxGuar env calls i)
      (okElse (fun a => OutboxHolds env calls fun t => A t ∧ B a t) (OutboxHolds env calls A)) p s

variable {A A' : OutboxState ι σ → Prop} {B : α → OutboxState ι σ → Prop}

theorem OutboxSpec.ret {a : α} (hB : Lasting env calls (B a)) (h : ∀ s, A s → B a s) :
    OutboxSpec env calls i A (.ret a) B := by
  intro hA s hs
  exact Sat.ret ((hA.and hB).stable i) ⟨hs.1, hs.2, h s hs.2⟩ fun _ ht => ht

theorem OutboxSpec.raise {e : OutboxError} : OutboxSpec env calls i A (.raise e) B :=
  fun hA _ hs => Sat.raise (hA.stable i) hs fun _ ht => ht

theorem OutboxSpec.bind {C : β → OutboxState ι σ → Prop} {p : OutboxM ι σ α} {f : α → OutboxM ι σ β}
    (hp : OutboxSpec env calls i A p B) (hB : ∀ a, Lasting env calls (B a))
    (hf : ∀ a, OutboxSpec env calls i (fun s => A s ∧ B a s) (f a) C) : OutboxSpec env calls i A (p >>= f) C := by
  intro hA s hs
  refine Sat.bind ((hp hA s hs).mono fun r t ht => ?_)
  cases r with
  | error e => exact ht
  | ok a =>
    refine (hf a (hA.and (hB a)) t ht).mono fun r' t' ht' => ?_
    cases r' with
    | error e => exact ⟨ht'.1, ht'.2.1⟩
    | ok b => exact ⟨ht'.1, ht'.2.1.1, ht'.2.2⟩

theorem OutboxSpec.mono {B' : α → OutboxState ι σ → Prop} {p : OutboxM ι σ α}
    (hp : OutboxSpec env calls i A p B) (h : ∀ a s, A s → B a s → B' a s) : OutboxSpec env calls i A p B' := by
  intro hA s hs
  refine (hp hA s hs).mono fun r t ht => ?_
  cases r with
  | error e => exact ht
  | ok a => exact ⟨ht.1, ht.2.1, h a t ht.2.1 ht.2.2⟩

theorem OutboxSpec.attempt {p : OutboxM ι σ α} (hp : OutboxSpec env calls i A p B) :
    OutboxSpec env calls i A p.attempt fun r s => ∀ a, r = .ok a → B a s := by
  intro hA s hs
  refine Sat.attempt ((hp hA s hs).mono fun r t ht => ?_)
  cases r with
  | error e => exact ⟨ht.1, ht.2, fun a ha => by cases ha⟩
  | ok a =>
    refine ⟨ht.1, ht.2.1, fun b hb => ?_⟩
    cases hb
    exact ht.2.2

theorem OutboxSpec.tryCatch {p : OutboxM ι σ α} {h : OutboxError → OutboxM ι σ α}
    (hp : OutboxSpec env calls i A p B) (hB : ∀ a, Lasting env calls (B a))
    (hh : ∀ e, OutboxSpec env calls i A (h e) B) : OutboxSpec env calls i A (p.tryCatch h) B := by
  intro hA s hs
  refine Sat.tryCatch ((hp hA s hs).mono fun r t ht => ?_) fun a => (hA.and (hB a)).stable i
  cases r with
  | ok a => exact ht
  | error e => exact hh e hA t ht

theorem OutboxSpec.soft {p : OutboxM ι σ Unit} (hp : OutboxSpec env calls i A p fun _ _ => True) :
    OutboxSpec env calls i A (soft p) fun _ _ => True :=
  hp.tryCatch (fun _ => Lasting.const True) fun _ => OutboxSpec.ret (Lasting.const True) fun _ _ => trivial

theorem OutboxSpec.foldM {f : β → α → OutboxM ι σ β} {I : β → Prop} {xs : List α} {b : β} (hb : I b)
    (h : ∀ b, ∀ x ∈ xs, I b → OutboxSpec env calls i A (f b x) fun b' _ => I b') :
    OutboxSpec env calls i A (foldM f b xs) fun b' _ => I b' := by
  induction xs generalizing b with
  | nil => exact OutboxSpec.ret (Lasting.const (I b)) fun _ _ => hb
  | cons x xs ih =>
    intro hA s hs
    refine Sat.bind ((h b x List.mem_cons_self hb hA s hs).mono fun r t ht => ?_)
    cases r with
    | error e => exact ht
    | ok b' => exact ih ht.2.2 (fun b y hy => h b y (List.mem_cons_of_mem x hy)) hA t ⟨ht.1, ht.2.1⟩

/-! ### Awaits -/

section Awaits

theorem OutboxInv.congr (h : OutboxInv env calls s) (hindex : t.index = s.index)
    (hrecord : t.record = s.record) (hcounted : t.counted = s.counted) : OutboxInv env calls t := by
  have hitems : outboxItems t = outboxItems s := by rw [outboxItems, outboxItems, hindex, hrecord]
  refine ⟨hindex ▸ h.nodup, ?_, ?_, ?_⟩
  · rw [RecordsOk, hrecord]
    exact h.records
  · rw [hcounted]
    exact h.counted
  · rw [WithinLimits, hitems]
    exact h.limits

variable [DecidableEq ι]

omit [DecidableEq ι] in
theorem OutboxGuar.aside (hindex : t.index = s.index) (hrecord : t.record = s.record)
    (hcounted : t.counted = s.counted) (hdiscarded : s.discarded ⊆ t.discarded)
    (hcaptured : s.captured ⊆ t.captured) (huploaded : s.uploaded ⊆ t.uploaded)
    (hseen : ∀ j ≠ i, t.seen j = s.seen j) : OutboxGuar env calls i s t := by
  refine fun h => ⟨h.congr hindex hrecord hcounted, ⟨hdiscarded, hcaptured, huploaded, ?_, ?_⟩, hseen⟩
  · intro id hid
    exact .inl (hindex ▸ hid)
  · intro id hid
    exact .inl (hrecord ▸ hid)

omit [DecidableEq ι] in
theorem OutboxGuar.rely {j : ι} (h : OutboxGuar env calls i s t) (hne : i ≠ j) :
    OutboxRely env calls j s t := by
  intro hinv
  obtain ⟨hinv', hgrows, hseen⟩ := h hinv
  exact ⟨hinv', hgrows, hseen j hne.symm⟩

/-- An operation on the store; `P` may say what the call has read. -/
theorem storeOp_sat {f : OutboxState ι σ → α × OutboxState ι σ} {P : OutboxState ι σ → Prop}
    {Q : α → OutboxState ι σ → Prop} (hP : Stable (OutboxRely env calls i) P)
    (hQ : ∀ a, Stable (OutboxRely env calls i) (Q a))
    (h : ∀ t, P t → Orderly i t (f t).2.nextStoreFate →
      OutboxGuar env calls i t (f t).2.nextStoreFate ∧ Q (f t).1 (f t).2.nextStoreFate)
    (hs : P s) : Sat (OutboxRely env calls i) (Orderly i) (OutboxGuar env calls i) (okElse Q P)
      (storeOp f) s := by
  refine Sat.actE hP hs fun t ht hord => ?_
  have hfail : OutboxGuar env calls i t t.nextStoreFate :=
    .aside rfl rfl rfl (fun _ h => h) (fun _ h => h) (fun _ h => h) fun _ _ => rfl
  have hkeep : P t.nextStoreFate := by
    refine hP t _ (fun hinv => ?_) ht
    obtain ⟨hinv', hgrows, -⟩ := hfail hinv
    exact ⟨hinv', hgrows, rfl⟩
  split at hord
  · exact ⟨hfail, fun t' ht' => hP.rtc ht' hkeep⟩
  · obtain ⟨hguar, hq⟩ := h t ht hord
    exact ⟨hguar, fun t' ht' => (hQ _).rtc ht' hq⟩

theorem storeOp_spec {f : OutboxState ι σ → α × OutboxState ι σ} (hB : ∀ a, Lasting env calls (B a))
    (hf : ∀ t, (f t).2.index = t.index ∧ (f t).2.record = t.record ∧ (f t).2.counted = t.counted ∧
      (f t).2.discarded = t.discarded ∧ (f t).2.captured = t.captured ∧
      (f t).2.uploaded = t.uploaded ∧ ∀ j ≠ i, (f t).2.seen j = t.seen j)
    (h : ∀ t, OutboxInv env calls t → A t → B (f t).1 (f t).2.nextStoreFate) :
    OutboxSpec env calls i A (storeOp f) B := by
  intro hA s hs
  refine storeOp_sat (hA.stable i) (fun a => (hA.and (hB a)).stable i) (fun t ht _ => ?_) hs
  obtain ⟨hindex, hrecord, hcounted, hdiscarded, hcaptured, huploaded, hseen⟩ := hf t
  have hguar : OutboxGuar env calls i t (f t).2.nextStoreFate :=
    .aside hindex hrecord hcounted (hdiscarded ▸ fun _ h => h) (hcaptured ▸ fun _ h => h)
      (huploaded ▸ fun _ h => h) hseen
  obtain ⟨hinv, hgrows, -⟩ := hguar ht.1
  exact ⟨hguar, hinv, hA t _ hgrows ht.2, h t ht.1 ht.2⟩

theorem changeIndex_spec (hfresh : FreshIds env calls) {g : List String → List String} (own : String)
    (hown : ∀ b, (calls i).item env = some b → own = b.localCaptureId)
    (hnodup : ∀ idx, idx.Nodup → (g idx).Nodup) (hadd : ∀ idx, ∀ x ∈ g idx, x ∈ idx ∨ x = own)
    (hkeep : ∀ t, A t → ∀ idx, ∀ x ∈ idx, x ∈ g idx ∨ Gone env calls t x)
    {B : Unit → OutboxState ι σ → Prop} (hB : ∀ u, Lasting env calls (B u))
    (h : ∀ t idx, t.index = g idx → B () t) :
    OutboxSpec env calls i A (do
      let idx ← readIndex i
      writeIndex (g idx)) B := by
  intro hA s hs
  have hread : ∀ idx : List String, Stable (OutboxRely env calls i) fun t : OutboxState ι σ =>
      OutboxHolds env calls A t ∧ t.seen i = idx ∧ idx.Nodup := by
    intro idx t t' hr ht
    obtain ⟨-, -, hseen⟩ := hr ht.1.1
    exact ⟨hA.stable i t t' hr ht.1, hseen.trans ht.2.1, ht.2.2⟩
  refine Sat.bind ((storeOp_sat (hA.stable i) hread (fun t ht _ => ?_) hs).mono fun r t ht => ?_)
  · have hguar : OutboxGuar env calls i t (t.noteSeen i).nextStoreFate :=
      .aside rfl rfl rfl (fun _ h => h) (fun _ h => h) (fun _ h => h) fun j hj =>
        Function.update_of_ne hj _ _
    obtain ⟨hinv, hgrows, -⟩ := hguar ht.1
    exact ⟨hguar, ⟨hinv, hA t _ hgrows ht.2⟩, Function.update_self .., ht.1.nodup⟩
  · cases r with
    | error e => exact ht
    | ok idx =>
      refine (storeOp_sat (hread idx) (fun u => (hA.and (hB u)).stable i) (fun v hv hord => ?_)
        ht).mono fun r t ht => ?_
      · -- the write: what others have put in or taken out since the read is as they left it
        obtain ⟨⟨hinv, hAv⟩, hseen, hidx⟩ := hv
        have hguar : OutboxGuar env calls i v { v with index := g idx }.nextStoreFate := by
          refine fun _ => ⟨⟨hnodup idx hidx, hinv.records, hinv.counted, ?_⟩,
            ⟨fun _ h => h, fun _ h => h, fun _ h => h, ?_, fun _ h => .inl h⟩, fun _ _ => rfl⟩
          · refine hinv.limits_move hfresh hord (hnodup idx hidx) hinv.records own hown ?_
            intro id hid hne hclip
            refine ⟨?_, hclip⟩
            rcases hadd idx id hid with hmem | hmem
            · by_contra hout
              exact hord.left id (hseen ▸ hmem) hout hid
            · exact absurd hmem hne
          · intro id hid
            by_cases hmem : id ∈ idx
            · rcases hkeep v hAv idx id hmem with h | h
              · exact .inl h
              · exact .inr (h.grows (fun _ h => h) (fun _ h => h) fun _ h => h)
            · exact .inl (hord.joined id hid (hseen ▸ hmem))
        obtain ⟨hinv', hgrows, -⟩ := hguar hinv
        exact ⟨hguar, hinv', hA v _ hgrows hAv, h _ idx rfl⟩
      · cases r with
        | error e => exact ht.1
        | ok u => exact ht

theorem appendToIndex_spec (hfresh : FreshIds env calls) {id : String}
    (hown : ∀ b, (calls i).item env = some b → id = b.localCaptureId) :
    OutboxSpec env calls i A (appendToIndex i id) fun _ s => id ∈ s.index ∨ Gone env calls s id := by
  refine changeIndex_spec hfresh (g := fun idx => if id ∈ idx then idx else idx ++ [id]) id hown
    (fun idx hidx => ?_) (fun idx x hx => ?_) (fun t _ idx x hx => ?_) (fun _ => Lasting.indexed id)
    fun t idx ht => ?_
  · split
    · exact hidx
    · rename_i hmem
      rw [List.nodup_append]
      exact ⟨hidx, List.pairwise_singleton _ id, fun a ha b hb hab => hmem (by
        rw [List.mem_singleton] at hb
        exact hb ▸ hab ▸ ha)⟩
  · split at hx
    · exact .inl hx
    · simpa using hx
  · split
    · exact .inl hx
    · exact .inl (List.mem_append_left _ hx)
  · rw [ht]
    split
    · exact .inl ‹_›
    · exact .inl (by simp)

theorem removeFromIndex_spec (hfresh : FreshIds env calls) {id : String}
    (hitem : (calls i).item env = none) (hgone : ∀ s, A s → Gone env calls s id) :
    OutboxSpec env calls i A (removeFromIndex i id) fun _ _ => True := by
  refine changeIndex_spec hfresh (g := fun idx => idx.filter (· != id)) id
    (fun b hb => ?_) (fun idx hidx => hidx.filter _) (fun idx x hx => ?_) (fun t ht idx x hx => ?_)
    (fun _ => Lasting.const True) fun _ _ _ => trivial
  · rw [hitem] at hb
    cases hb
  · exact .inl (List.mem_filter.mp hx).1
  · by_cases hid : x = id
    · exact .inr (hid ▸ hgone t ht)
    · exact .inl (List.mem_filter.mpr ⟨hx, by simpa using hid⟩)

theorem getMeta_spec (id : String) :
    OutboxSpec env calls i A (getMeta id) fun m _ => ∀ m' ∈ m, Known env calls m' ∧ m'.status.isPending = true := by
  refine storeOp_spec (fun _ => Lasting.const _) (fun _ => ⟨rfl, rfl, rfl, rfl, rfl, rfl, fun _ _ => rfl⟩)
    fun t hinv _ m hm => ?_
  obtain ⟨-, hknown, hpending⟩ := hinv.records id m hm
  exact ⟨hknown, hpending⟩

theorem setBlob_spec (id : String) (b : Option AudioBlob) :
    OutboxSpec env calls i A (storeOp fun s => ((), s.setBlob id b)) fun _ _ => True :=
  storeOp_spec (fun _ => Lasting.const True) (fun _ => ⟨rfl, rfl, rfl, rfl, rfl, rfl, fun _ _ => rfl⟩)
    fun _ _ _ => trivial

/-- The items are those of calls, and pending. -/
def AllKnown (env : OutboxEnv) (calls : ι → OutboxCall) (items : List CaptureOutboxItemMeta) : Prop :=
  ∀ m ∈ items, Known env calls m ∧ m.status.isPending = true

theorem listOutboxItems_spec :
    OutboxSpec env calls i A (listOutboxItems i) fun items _ => AllKnown env calls items := by
  refine OutboxSpec.bind (B := fun _ _ => True) ?_ (fun _ => Lasting.const True) fun ids => ?_
  · refine storeOp_spec (fun _ => Lasting.const True) (fun t => ⟨rfl, rfl, rfl, rfl, rfl, rfl, ?_⟩)
      fun _ _ _ => trivial
    intro j hj
    exact Function.update_of_ne hj _ _
  · refine OutboxSpec.foldM (I := AllKnown env calls) (fun m hm => by cases hm) fun out id _ hout => ?_
    refine OutboxSpec.bind (getMeta_spec id) (fun _ => Lasting.const _) fun raw => ?_
    refine OutboxSpec.ret (Lasting.const _) fun s hs m hm => ?_
    rcases List.mem_append.mp hm with hm | hm
    · exact hout m hm
    · exact hs.2 m (Option.mem_toList.mp hm)

theorem OutboxInv.setRecord (hfresh : FreshIds env calls) {id : String}
    {m : Option CaptureOutboxItemMeta} (h : OutboxInv env calls s)
    (hm : ∀ m' ∈ m, m'.localCaptureId = id ∧ Known env calls m' ∧ m'.status.isPending = true)
    (hown : ∀ b, (calls i).item env = some b → id = b.localCaptureId)
    (hord : Orderly i s (s.setRecord id m).nextStoreFate) :
    OutboxInv env calls (s.setRecord id m).nextStoreFate := by
  have hrecords : RecordsOk env calls (s.setRecord id m).nextStoreFate := by
    intro id' m' hm'
    by_cases hid : id' = id
    · subst hid
      have hself : (s.setRecord id' m).nextStoreFate.record id' = m := Function.update_self ..
      exact hm m' (hself.symm.trans hm')
    · exact h.records id' m' ((Function.update_of_ne hid _ _).symm.trans hm')
  refine ⟨h.nodup, hrecords, h.counted, h.limits_move hfresh hord h.nodup hrecords id hown ?_⟩
  intro id' hid' hne hclip
  refine ⟨hid', ?_⟩
  have hsame : (s.setRecord id m).nextStoreFate.record id' = s.record id' :=
    Function.update_of_ne hne _ _
  rw [clipSize, hsame] at hclip
  exact hclip

theorem saveMeta_spec (hfresh : FreshIds env calls) {m : CaptureOutboxItemMeta}
    (hm : Known env calls m) (hpending : m.status.isPending = true)
    (hown : ∀ b, (calls i).item env = some b → m.localCaptureId = b.localCaptureId) :
    OutboxSpec env calls i A (saveMeta m) fun _ s =>
      (s.record m.localCaptureId).isSome ∨ Gone env calls s m.localCaptureId := by
  refine OutboxSpec.tryCatch ?_ (fun _ => Lasting.recorded _) fun e => OutboxSpec.raise
  intro hA s hs
  refine storeOp_sat (hA.stable i) (fun u => (hA.and (Lasting.recorded _)).stable i)
    (fun t ht hord => ?_) hs
  have hguar : OutboxGuar env calls i t (t.setRecord m.localCaptureId (some m)).nextStoreFate := by
    refine fun _ => ⟨ht.1.setRecord hfresh (fun m' hm' => ?_) hown hord,
      ⟨fun _ h => h, fun _ h => h, fun _ h => h, fun _ h => .inl h, fun id hid => .inl ?_⟩,
      fun _ _ => rfl⟩
    · cases hm'
      exact ⟨rfl, hm, hpending⟩
    · by_cases hid' : id = m.localCaptureId
      · subst hid'
        simp [OutboxState.nextStoreFate, OutboxState.setRecord]
      · simpa [OutboxState.nextStoreFate, OutboxState.setRecord, Function.update_of_ne hid'] using hid
  obtain ⟨hinv, hgrows, -⟩ := hguar ht.1
  refine ⟨hguar, hinv, hA t _ hgrows ht.2, .inl ?_⟩
  simp [OutboxState.nextStoreFate, OutboxState.setRecord]

theorem delRecord_spec (hfresh : FreshIds env calls) {id : String}
    (hitem : (calls i).item env = none) (hgone : ∀ s, A s → Gone env calls s id) :
    OutboxSpec env calls i A (storeOp fun s => ((), s.setRecord id none)) fun _ _ => True := by
  intro hA s hs
  refine storeOp_sat (hA.stable i) (fun u => (hA.and (Lasting.const True)).stable i)
    (fun t ht hord => ?_) hs
  have hguar : OutboxGuar env calls i t (t.setRecord id none).nextStoreFate := by
    refine fun _ => ⟨ht.1.setRecord hfresh (fun m' hm' => by cases hm') (fun b hb => ?_) hord,
      ⟨fun _ h => h, fun _ h => h, fun _ h => h, fun _ h => .inl h, fun id' hid' => ?_⟩,
      fun _ _ => rfl⟩
    · rw [hitem] at hb
      cases hb
    · by_cases hid : id' = id
      · exact .inr (hid ▸ (hgone t ht.2).grows (fun _ h => h) (fun _ h => h) fun _ h => h)
      · refine .inl ?_
        simpa [OutboxState.nextStoreFate, OutboxState.setRecord, Function.update_of_ne hid] using hid'
  obtain ⟨hinv, hgrows, -⟩ := hguar ht.1
  exact ⟨hguar, hinv, hA t _ hgrows ht.2, trivial⟩

theorem discardOutboxItem_spec (hfresh : FreshIds env calls) {id : String}
    (hitem : (calls i).item env = none) (hgone : ∀ s, A s → Gone env calls s id) :
    OutboxSpec env calls i A (discardOutboxItem i id) fun _ _ => True := by
  have hTrue : ∀ _ : Unit, Lasting (σ := σ) env calls fun _ => True := fun _ => Lasting.const True
  refine OutboxSpec.bind (getMeta_spec id) (fun _ => Lasting.const _) fun m => ?_
  refine OutboxSpec.bind (B := fun _ _ => True) ?_ hTrue fun _ => ?_
  · rw [discardBlob]
    split
    · exact (setBlob_spec _ none).soft
    · exact OutboxSpec.ret (Lasting.const True) fun _ _ => trivial
  · refine OutboxSpec.bind (delRecord_spec hfresh hitem fun s hs => hgone s hs.1.1).soft hTrue fun _ => ?_
    exact removeFromIndex_spec hfresh hitem fun s hs => hgone s hs.1.1.1

/-! ### The operations -/

/-- What is known of an item whose add has resolved. -/
def Added (env : OutboxEnv) (calls : ι → OutboxCall) (i : ι) (m : CaptureOutboxItemMeta)
    (s : OutboxState ι σ) : Prop :=
  (calls i).item env = some m ∧ (m.localCaptureId ∈ s.index ∨ Gone env calls s m.localCaptureId) ∧
    ((s.record m.localCaptureId).isSome ∨ Gone env calls s m.localCaptureId)

omit [DecidableEq ι] in
theorem Lasting.added (m : CaptureOutboxItemMeta) :
    Lasting (σ := σ) env calls (Added env calls i m) :=
  (Lasting.const _).and ((Lasting.indexed _).and (Lasting.recorded _))

theorem storeItem_spec (hfresh : FreshIds env calls) {m : CaptureOutboxItemMeta}
    (hitem : (calls i).item env = some m) (hpending : m.status.isPending = true) :
    OutboxSpec env calls i A (do
      appendToIndex i m.localCaptureId
      saveMeta m) fun _ s => Added env calls i m s := by
  have hown : ∀ b, (calls i).item env = some b → m.localCaptureId = b.localCaptureId := by
    intro b hb
    rw [hitem] at hb
    cases hb
    rfl
  intro hA s hs
  refine Sat.bind ((appendToIndex_spec hfresh hown hA s hs).mono fun r t ht => ?_)
  cases r with
  | error e => exact ht
  | ok u =>
    refine (saveMeta_spec hfresh ⟨i, m, hitem, rfl⟩ hpending hown (hA.and (Lasting.indexed _)) t
      ht).mono fun r v hv => ?_
    cases r with
    | error e => exact ⟨hv.1, hv.2.1⟩
    | ok u => exact ⟨hv.1, hv.2.1.1, hitem, hv.2.1.2, hv.2.2⟩

theorem addTextUrlOutboxItem_spec (hfresh : FreshIds env calls) {newId : String}
    {input : TextUrlInput} (hcall : calls i = .addTextUrl newId input) :
    OutboxSpec env calls i A (addTextUrlOutboxItem env i newId input) fun m s => Added env calls i m s := by
  have hitem : (calls i).item env = some (input.item env newId) := by
    rw [hcall]
    rfl
  rw [addTextUrlOutboxItem]
  split
  · exact OutboxSpec.raise
  · have hstore := OutboxSpec.bind (C := fun m s => Added env calls i m s) (f := fun _ => .ret (input.item env newId))
      (storeItem_spec (A := A) hfresh hitem rfl) (fun _ => Lasting.added _)
      fun _ => OutboxSpec.ret (Lasting.added _) fun s hs => hs.2
    rw [bind_assoc] at hstore
    exact hstore

theorem storeAudioItem_spec (hfresh : FreshIds env calls) {newCaptureId newAttachmentId : String}
    {input : AudioInput} (hcall : calls i = .addAudio newCaptureId newAttachmentId input) :
    OutboxSpec env calls i A (storeAudioItem env i newCaptureId newAttachmentId input)
      fun m s => Added env calls i m s := by
  have hitem : (calls i).item env = some (input.item env newCaptureId newAttachmentId) := by
    rw [hcall]
    rfl
  have hTrue : ∀ _ : Unit, Lasting (σ := σ) env calls fun _ => True := fun _ => Lasting.const True
  refine OutboxSpec.bind ((setBlob_spec _ _).tryCatch hTrue fun e => OutboxSpec.raise) hTrue fun _ => ?_
  refine OutboxSpec.bind (B := fun _ s => Added env calls i (input.item env newCaptureId newAttachmentId) s)
    ?_ (fun _ => Lasting.added _) fun _ => OutboxSpec.ret (Lasting.added _) fun s hs => hs.2
  refine OutboxSpec.tryCatch (storeItem_spec hfresh hitem rfl) (fun _ => Lasting.added _) fun e => ?_
  exact OutboxSpec.bind (setBlob_spec _ none).soft hTrue fun _ => OutboxSpec.raise

theorem noteCounted_spec {n total : Nat} {b : CaptureOutboxItemMeta}
    (hitem : (calls i).item env = some b) (hn : n < maxPendingVoiceClips)
    (htotal : total + b.kind.sizeBytes ≤ maxLocalVoiceBytesTotal) :
    OutboxSpec env calls i A (note fun s => s.noteCounted i n total) fun _ _ => True := by
  intro hA s hs
  refine Sat.act (hA.stable i) hs fun t ht _ => ?_
  have hguar : OutboxGuar env calls i t (t.noteCounted i n total) := by
    refine fun h => ⟨⟨h.nodup, h.records, fun j n' total' hj => ?_, h.limits⟩,
      ⟨fun _ h => h, fun _ h => h, fun _ h => h, fun _ h => .inl h, fun _ h => .inl h⟩, fun _ _ => rfl⟩
    by_cases hji : j = i
    · subst hji
      have hself : (t.noteCounted j n total).counted j = some (n, total) := Function.update_self ..
      rw [hself] at hj
      cases hj
      exact ⟨hn, b, hitem, htotal⟩
    · exact h.counted j n' total' ((Function.update_of_ne hji _ _).symm.trans hj)
  obtain ⟨hinv, hgrows, -⟩ := hguar ht.1
  refine ⟨hguar, fun t' ht' => ?_⟩
  exact ((hA.and (Lasting.const True)).stable i).rtc ht' ⟨hinv, hA t _ hgrows ht.2, trivial⟩

theorem addAudioOutboxItem_spec (hfresh : FreshIds env calls) {newCaptureId newAttachmentId : String}
    {input : AudioInput} (hcall : calls i = .addAudio newCaptureId newAttachmentId input) :
    OutboxSpec env calls i A (addAudioOutboxItem env i newCaptureId newAttachmentId input)
      fun m s => Added env calls i m s := by
  have hitem : (calls i).item env = some (input.item env newCaptureId newAttachmentId) := by
    rw [hcall]
    rfl
  have hTrue : ∀ _ : Nat, Lasting (σ := σ) env calls fun _ => True := fun _ => Lasting.const True
  simp only [addAudioOutboxItem]
  split
  · exact OutboxSpec.raise
  · split
    · exact OutboxSpec.raise
    · refine OutboxSpec.bind (B := fun _ _ => True) ?_ hTrue fun n => ?_
      · exact listOutboxItems_spec.bind (fun _ => Lasting.const _) fun _ =>
          OutboxSpec.ret (Lasting.const True) fun _ _ => trivial
      · split
        · exact OutboxSpec.raise
        · rename_i hn
          refine OutboxSpec.bind (B := fun _ _ => True) ?_ hTrue fun total => ?_
          · exact listOutboxItems_spec.bind (fun _ => Lasting.const _) fun _ =>
              OutboxSpec.ret (Lasting.const True) fun _ _ => trivial
          · split
            · exact OutboxSpec.raise
            · rename_i htotal
              refine OutboxSpec.bind (noteCounted_spec hitem (Nat.not_le.mp hn) (Nat.not_lt.mp htotal))
                (fun _ => Lasting.const True) fun _ => ?_
              exact storeAudioItem_spec hfresh hcall

omit [DecidableEq ι] in
theorem Lasting.captured (id : String) : Lasting (σ := σ) env calls fun s => id ∈ s.captured :=
  fun _ _ h hs => h.captured hs

omit [DecidableEq ι] in
theorem Lasting.uploaded (m : CaptureOutboxItemMeta) :
    Lasting (σ := σ) env calls fun s => ∀ att ∈ m.kind.localAttachmentId, att ∈ s.uploaded :=
  fun _ _ h hs att hatt => h.uploaded (hs att hatt)

theorem outboxRequest_spec {f : σ → Except OutboxError α × σ} {ack : OutboxState ι σ → OutboxState ι σ}
    (hB : ∀ a, Lasting env calls (B a))
    (hack : ∀ t, (ack t).index = t.index ∧ (ack t).record = t.record ∧ (ack t).counted = t.counted ∧
      (ack t).discarded = t.discarded ∧ (ack t).seen = t.seen ∧ t.captured ⊆ (ack t).captured ∧
      t.uploaded ⊆ (ack t).uploaded)
    (h : ∀ a t, B a (ack t).nextRequestFate) : OutboxSpec env calls i A (outboxRequest f ack) B := by
  intro hA s hs
  refine Sat.actE (hA.stable i) hs fun t ht _ => ?_
  have hfail : ∀ t' : OutboxState ι σ, OutboxGuar env calls i t t' → OutboxGuar env calls i t t' ∧
      ∀ v, ReflTransGen (OutboxRely env calls i) t' v → OutboxHolds env calls A v := by
    refine fun t' hguar => ⟨hguar, fun v hv => (hA.stable i).rtc hv ?_⟩
    obtain ⟨hinv, hgrows, -⟩ := hguar ht.1
    exact ⟨hinv, hA t t' hgrows ht.2⟩
  split
  · exact hfail _ (.aside rfl rfl rfl (fun _ h => h) (fun _ h => h) (fun _ h => h) fun _ _ => rfl)
  · exact hfail _ (.aside rfl rfl rfl (fun _ h => h) (fun _ h => h) (fun _ h => h) fun _ _ => rfl)
  · split
    · obtain ⟨hindex, hrecord, hcounted, hdiscarded, hseen, hcaptured, huploaded⟩ :=
        hack { t with server := (f t.server).2 }
      have hguar : OutboxGuar env calls i t
          (ack { t with server := (f t.server).2 }).nextRequestFate :=
        .aside hindex hrecord hcounted (fun _ h => hdiscarded.symm ▸ h) hcaptured huploaded
          fun j _ => congrFun hseen j
      obtain ⟨hinv, hgrows, -⟩ := hguar ht.1
      exact ⟨hguar, fun v hv => ((hA.and (hB _)).stable i).rtc hv
        ⟨hinv, hA t _ hgrows ht.2, h _ _⟩⟩
    · exact hfail _ (.aside rfl rfl rfl (fun _ h => h) (fun _ h => h) (fun _ h => h) fun _ _ => rfl)

theorem loadBlob_spec (m : CaptureOutboxItemMeta) :
    OutboxSpec env calls i A (loadBlob m) fun _ _ => True := by
  rw [loadBlob]
  split
  · exact OutboxSpec.ret (Lasting.const True) fun _ _ => trivial
  · refine OutboxSpec.tryCatch ?_ (fun _ => Lasting.const True) fun e =>
      OutboxSpec.ret (Lasting.const True) fun _ _ => trivial
    exact storeOp_spec (fun _ => Lasting.const True)
      (fun _ => ⟨rfl, rfl, rfl, rfl, rfl, rfl, fun _ _ => rfl⟩) fun _ _ _ => trivial

theorem uploadClip_spec (m : CaptureOutboxItemMeta) (captureId : String) :
    OutboxSpec env calls i A (uploadClip server m captureId)
      fun _ s => ∀ att ∈ m.kind.localAttachmentId, att ∈ s.uploaded := by
  have hlast : Lasting env calls fun s : OutboxState ι σ => ∀ att ∈ m.kind.localAttachmentId, att ∈ s.uploaded :=
    Lasting.uploaded m
  rw [uploadClip]
  split
  · rename_i hk
    rw [hk] at hlast ⊢
    exact OutboxSpec.ret hlast fun s _ att hatt => by cases hatt
  · rename_i att mimeType size hk
    rw [hk] at hlast ⊢
    refine OutboxSpec.bind (loadBlob_spec m) (fun _ => Lasting.const True) fun b => ?_
    cases b with
    | none => exact OutboxSpec.raise
    | some blob =>
      refine outboxRequest_spec (fun _ => hlast)
        (fun t => ⟨rfl, rfl, rfl, rfl, rfl, fun _ h => h, fun _ h => List.mem_cons_of_mem _ h⟩)
        fun _ t att' hatt => ?_
      cases hatt
      exact List.mem_cons_self

theorem pushItem_spec (hfresh : FreshIds env calls) {m : CaptureOutboxItemMeta}
    (hitem : (calls i).item env = none) (hm : Known env calls m) :
    OutboxSpec env calls i A (pushItem env server i m) fun _ _ => True := by
  rw [pushItem]
  split
  · exact OutboxSpec.raise
  · refine OutboxSpec.bind (B := fun _ s => m.localCaptureId ∈ s.captured) ?_ (fun _ => Lasting.captured _)
      fun captureId => ?_
    · exact outboxRequest_spec (fun _ => Lasting.captured _)
        (fun t => ⟨rfl, rfl, rfl, rfl, rfl, fun _ h => List.mem_cons_of_mem _ h, fun _ h => h⟩)
        fun _ _ => List.mem_cons_self
    · refine OutboxSpec.bind (uploadClip_spec m captureId) (fun _ => Lasting.uploaded m) fun _ => ?_
      exact discardOutboxItem_spec hfresh hitem fun s hs => .inr ⟨m, hm, rfl, hs.1.2, hs.2⟩

theorem syncItem_spec (hfresh : FreshIds env calls) {item : CaptureOutboxItemMeta} {acc : SyncResult}
    (hitem : (calls i).item env = none) (hm : Known env calls item) :
    OutboxSpec env calls i A (syncItem env server i acc item) fun _ _ => True := by
  have hown : ∀ b, (calls i).item env = some b → item.localCaptureId = b.localCaptureId := by
    intro b hb
    rw [hitem] at hb
    cases hb
  have hknown : ∀ status lastError,
      Known env calls { item with status := status, lastError := lastError } := by
    intro status lastError
    obtain ⟨j, b, hb, hsame⟩ := hm
    exact ⟨j, b, hb, hsame⟩
  refine OutboxSpec.bind (saveMeta_spec hfresh (hknown _ _) rfl hown) (fun _ => Lasting.recorded _)
    fun _ => ?_
  refine OutboxSpec.bind (B := fun _ _ => True) ((pushItem_spec hfresh hitem (hknown _ _)).attempt.mono
    fun _ _ _ _ => trivial) (fun _ => Lasting.const True) fun r => ?_
  cases r with
  | ok u => exact OutboxSpec.ret (Lasting.const True) fun _ _ => trivial
  | error e =>
    refine OutboxSpec.bind (saveMeta_spec hfresh (hknown _ _) rfl hown) (fun _ => Lasting.recorded _)
      fun _ => ?_
    exact OutboxSpec.ret (Lasting.const True) fun _ _ => trivial

theorem syncOutbox_spec (hfresh : FreshIds env calls) (hitem : (calls i).item env = none) :
    OutboxSpec env calls i A (syncOutbox env server i) fun _ _ => True := by
  intro hA s hs
  refine Sat.bind ((listOutboxItems_spec hA s hs).mono fun r t ht => ?_)
  cases r with
  | error e => exact ht
  | ok items =>
    have hloop : OutboxSpec env calls i A (foldM (syncItem env server i) { synced := 0, failed := 0, errors := [] }
        (items.filter fun m => m.status.isPending)) fun _ _ => True := by
      refine OutboxSpec.foldM (I := fun _ => True) trivial fun acc m hm _ => ?_
      exact syncItem_spec hfresh hitem (ht.2.2 m (List.mem_filter.mp hm).1).1
    exact hloop hA t ⟨ht.1, ht.2.1⟩

theorem discard_spec (hfresh : FreshIds env calls) (id : String) (hitem : (calls i).item env = none) :
    OutboxSpec env calls i A (do
      note fun s => { s with discarded := id :: s.discarded }
      discardOutboxItem i id) fun _ _ => True := by
  refine OutboxSpec.bind (B := fun _ s => Gone env calls s id) ?_ (fun _ => Lasting.gone id) fun _ =>
    discardOutboxItem_spec hfresh hitem fun s hs => hs.2
  intro hA s hs
  refine Sat.act (hA.stable i) hs fun t ht _ => ?_
  have hguar : OutboxGuar env calls i t { t with discarded := id :: t.discarded } :=
    .aside rfl rfl rfl (fun _ h => List.mem_cons_of_mem _ h) (fun _ h => h) (fun _ h => h)
      fun _ _ => rfl
  obtain ⟨hinv, hgrows, -⟩ := hguar ht.1
  refine ⟨hguar, fun t' ht' => ((hA.and (Lasting.gone id)).stable i).rtc ht'
    ⟨hinv, hA t _ hgrows ht.2, .inl List.mem_cons_self⟩⟩

/-- What is known when a call has returned. -/
def ReturnOk (env : OutboxEnv) (calls : ι → OutboxCall) (i : ι) :
    OutboxResult → OutboxState ι σ → Prop
  | .added m, s => Added env calls i m s
  | _, _ => True

theorem run_spec (hfresh : FreshIds env calls) (i : ι) :
    OutboxSpec env calls i (fun _ => True) ((calls i).run env server i) (ReturnOk env calls i) := by
  have hTrue : Lasting (σ := σ) env calls fun _ => True := Lasting.const True
  cases hcall : calls i with
  | addTextUrl newId input =>
    exact OutboxSpec.bind (addTextUrlOutboxItem_spec hfresh hcall) (fun m => Lasting.added m) fun m =>
      OutboxSpec.ret (Lasting.added m) fun s hs => hs.2
  | addAudio newCaptureId newAttachmentId input =>
    exact OutboxSpec.bind (addAudioOutboxItem_spec hfresh hcall) (fun m => Lasting.added m) fun m =>
      OutboxSpec.ret (Lasting.added m) fun s hs => hs.2
  | discard id =>
    have hitem : (calls i).item env = none := by
      rw [hcall]
      rfl
    have hstep := OutboxSpec.bind (C := ReturnOk env calls i) (f := fun _ => .ret .discarded)
      (discard_spec (A := fun _ => True) hfresh id hitem) (fun _ => hTrue)
      fun _ => OutboxSpec.ret hTrue fun _ _ => trivial
    rw [bind_assoc] at hstep
    exact hstep
  | sync =>
    have hitem : (calls i).item env = none := by
      rw [hcall]
      rfl
    exact OutboxSpec.bind (syncOutbox_spec hfresh hitem) (fun _ => hTrue) fun r =>
      OutboxSpec.ret hTrue fun _ _ => trivial

end Awaits

/-! ## The main result -/

theorem outboxInv_start {server₀ : σ} {storeFates : List (Option OutboxError)}
    {requestFates : List RequestFate} :
    OutboxInv env calls (OutboxState.start server₀ storeFates requestFates) where
  nodup := List.nodup_nil
  records := fun _ _ hm => by cases hm
  counted := fun _ _ _ h => by cases h
  limits := ⟨Nat.zero_le _, Nat.zero_le _⟩

/-- The calls in a run that nothing has happened in yet. -/
def outboxCalls (env : OutboxEnv) (server : CaptureServer σ) [DecidableEq ι] (calls : ι → OutboxCall)
    (i : ι) : OutboxM ι σ OutboxResult :=
  (calls i).run env server i

/-- In every state of an orderly run the list shows each item whose add has resolved, unless it was
let go, and is within the limits on voice clips. -/
theorem outbox_keeps [DecidableEq ι] (hfresh : FreshIds env calls) {server₀ : σ}
    {storeFates : List (Option OutboxError)} {requestFates : List RequestFate}
    {c : OutboxState ι σ × (ι → OutboxM ι σ OutboxResult)}
    (h : ReflTransGen (Step Orderly)
      (OutboxState.start server₀ storeFates requestFates, outboxCalls env server calls) c) (k : ι) :
    ∃ items, ((listOutboxItems k).exec { c.1 with storeFates := [] }).map Prod.fst = some (.ok items) ∧
      (∀ i m, c.2 i = .ret (.added m) → LetGo c.1 m ∨ ∃ m' ∈ items, m'.SameCapture m) ∧
      voiceClips items ≤ maxPendingVoiceClips ∧ voiceBytes items ≤ maxLocalVoiceBytesTotal := by
  have hrg : ∀ i j, i ≠ j → ∀ s t, OutboxGuar (σ := σ) env calls i s t → OutboxRely env calls j s t :=
    fun i j hij s t hG => hG.rely hij
  have hthreads : ∀ i, Sat (OutboxRely env calls i) (Orderly i) (OutboxGuar env calls i)
      (okElse (fun a => OutboxHolds env calls fun t => True ∧ ReturnOk env calls i a t)
        (OutboxHolds env calls fun _ => True)) (outboxCalls env server calls i)
      (OutboxState.start server₀ storeFates requestFates) :=
    fun i => run_spec hfresh i (Lasting.const True) _ ⟨outboxInv_start, trivial⟩
  have hsat := Sat.par hrg hthreads h
  have hinv : OutboxInv env calls c.1 :=
    Sat.invariant hrg (fun i s t hG hs => (hG hs).1) hthreads outboxInv_start h
  refine ⟨outboxItems c.1, listOutboxItems_exec rfl, fun i m hm => ?_, hinv.limits⟩
  have hended : Ended (c.2 i) (.ok (.added m)) := hm
  obtain ⟨-, -, hitem, hindex, hrecord⟩ := (hsat i).done hended
  have hletGo : Gone env calls c.1 m.localCaptureId → LetGo c.1 m := by
    rintro (hd | ⟨m', hm', hid, hs⟩)
    · exact .inl hd
    · refine .inr ?_
      obtain ⟨b, hb', hb⟩ := hm'.unique hfresh ⟨i, m, hitem, rfl⟩ hid
      rw [Synced, hb'.kind, hb'.localCaptureId] at hs
      rw [Synced, hb.kind, hb.localCaptureId]
      exact hs
  rcases hindex with hindex | hgone
  · rcases hrecord with hrecord | hgone
    · obtain ⟨m', hm'⟩ := Option.isSome_iff_exists.mp hrecord
      obtain ⟨hid, hknown, -⟩ := hinv.records _ m' hm'
      obtain ⟨j, b, hb, hsame⟩ := hknown
      have hbm : b = m := hfresh j i b m hb hitem (hsame.localCaptureId.symm.trans hid)
      exact .inr ⟨m', List.mem_filterMap.mpr ⟨_, hindex, hm'⟩, hbm ▸ hsame⟩
    · exact .inl (hletGo hgone)
  · exact .inl (hletGo hgone)

end Runs

namespace OutboxExample

def deviceEnv : OutboxEnv :=
  { trim := id, mebibytes := toString, formatCaptureErrorMessage := fun _ detail => detail }

/-- The server takes whatever it is sent. -/
def openServer : CaptureServer Unit :=
  { createCapture := fun r s => (.ok r.clientId, s)
    uploadCaptureAttachment := fun _ _ s => (.ok (), s) }

def noteOf (text : String) : TextUrlInput :=
  { kind := .text, title := none, text := some text, url := none, tags := none }

def clip : AudioInput :=
  { blob := ⟨1000, "voice"⟩, mimeType := "audio/webm", title := none, text := none, url := none
    tags := none }

/-- A note and a voice clip. -/
def mixed : Bool → OutboxCall
  | false => .addTextUrl "a" (noteOf "milk")
  | true => .addAudio "b" "clip-b" clip

def notes : Bool → OutboxCall
  | false => .addTextUrl "a" (noteOf "milk")
  | true => .addTextUrl "b" (noteOf "bread")

abbrev outboxStart (calls : Bool → OutboxCall) :
    OutboxState Bool Unit × (Bool → OutboxM Bool Unit OutboxResult) :=
  (OutboxState.start () [] [], outboxCalls deviceEnv openServer calls)

/-- The clip is counted while the note is being stored. -/
def mixedRun : OutboxState Bool Unit × (Bool → OutboxM Bool Unit OutboxResult) :=
  schedule [true, false, false, true, false, true, true, true, true, true] (outboxStart mixed)

/-- Both notes read the empty index. -/
def lossyRun : OutboxState Bool Unit × (Bool → OutboxM Bool Unit OutboxResult) :=
  schedule [false, true, false, true, false, true] (outboxStart notes)

theorem mixed_fresh : FreshIds deviceEnv mixed := by
  intro i j m m' hm hm' hid
  cases i <;> cases j <;> cases hm <;> cases hm' <;> first | rfl | exact absurd hid (by decide)

end OutboxExample

section Examples

open OutboxExample

theorem outbox_keeps_mixed :
    ∃ items, ((listOutboxItems true).exec { mixedRun.1 with storeFates := [] }).map Prod.fst =
        some (.ok items) ∧
      (∀ i m, mixedRun.2 i = .ret (.added m) →
        LetGo mixedRun.1 m ∨ ∃ m' ∈ items, m'.SameCapture m) ∧
      voiceClips items ≤ maxPendingVoiceClips ∧ voiceBytes items ≤ maxLocalVoiceBytesTotal := by
  have hrun : Allowed Orderly [true, false, false, true, false, true, true, true, true, true]
      (outboxStart mixed) := by decide +kernel
  exact outbox_keeps mixed_fresh (schedule_reaches hrun) true

/-- The note whose id was overwritten in the index is not listed, though its add has resolved. -/
theorem adds_lose_note :
    ReflTransGen (Step fun _ _ _ => True) (outboxStart notes) lossyRun ∧
      lossyRun.2 false = .ret (.added ((noteOf "milk").item deviceEnv "a")) ∧
        ¬ LetGo lossyRun.1 ((noteOf "milk").item deviceEnv "a") ∧
          ((listOutboxItems false).exec { lossyRun.1 with storeFates := [] }).map Prod.fst =
            some (.ok [(noteOf "bread").item deviceEnv "b"]) := by
  have hrun : Allowed (fun (_ : Bool) (_ _ : OutboxState Bool Unit) => True)
      [false, true, false, true, false, true] (outboxStart notes) := by decide +kernel
  refine ⟨schedule_reaches hrun, rfl, ?_, rfl⟩
  rintro (h | ⟨h, -⟩)
  · exact absurd h List.not_mem_nil
  · exact absurd h List.not_mem_nil

end Examples

end Lumogis
