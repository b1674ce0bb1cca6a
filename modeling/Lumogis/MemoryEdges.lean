import Lumogis.Lib.Labelled
import Lumogis.MemoryWrites

/-!
# MemoryEdges

Runs of the memory tools, beside the log of which memory asserted which edge.

`edges_follow_memories`: an edge is active exactly when an active memory has asserted it, after every
run in which no memory asserts an edge whose row is archived and none is archived that is the
evidence of an edge another active memory asserts; a step that does either breaks the law. The row
of an edge keeps its first evidence and is never made active again, so forgetting one of two
memories that assert an edge archives it (`shared_edge_archived`).
-/

namespace Lumogis

open Prog Labelled

inductive MemoryOp where
  | remember (userId bank content : String) (tags : List String) (metadata : Metadata)
  | update (userId : String) (memoryId : Nat) (content : String) (tags : List String)
      (metadata : Metadata)
  | forget (userId : String) (memoryId : Nat)
  | wait (seconds : Nat)

structure MemoryConfig where
  store : MemoryStore
  /-- A memory, and an edge that it asserted. -/
  asserted : List (Nat × EdgeKey)

/-- The memory that an update supersedes, when it is not refused. -/
def MemoryStore.superseded (env : MemoryEnv) (userId : String) (memoryId : Nat)
    (metadata : Metadata) (s : MemoryStore) : Option MemoryRow :=
  (s.memory memoryId userId).filter fun old => old.validUntil.isNone &&
    decide (env.jsonSize (supersedingMetadata env memoryId metadata) ≤ maxMetadataBytes)

namespace MemoryOp

/-- The edges that the operation's new memory asserts. -/
def keys (env : MemoryEnv) (s : MemoryStore) : MemoryOp → List EdgeKey
  | remember userId bank content _ _ => assertedEdges env userId bank s.uuids content
  | update userId memoryId content _ metadata =>
    match s.superseded env userId memoryId metadata with
    | some old => assertedEdges env userId old.bank s.uuids content
    | none => []
  | forget _ _ | wait _ => []

/-- The memory that the operation archives. -/
def archives (env : MemoryEnv) (s : MemoryStore) : MemoryOp → Option Nat
  | update userId memoryId _ _ metadata => (s.superseded env userId memoryId metadata).map MemoryRow.id
  | forget userId memoryId => (s.memory memoryId userId).map MemoryRow.id
  | remember _ _ _ _ _ | wait _ => none

end MemoryOp

def memoryStep (env : MemoryEnv) (op : MemoryOp) (c : MemoryConfig) : Option MemoryConfig :=
  let asserted := c.asserted ++ (op.keys env c.store).map fun key => (c.store.uuids, key)
  match op with
  | .remember userId bank content tags metadata =>
    ((addMemory env userId bank content tags metadata).exec c.store).map fun x => ⟨x.2, asserted⟩
  | .update userId memoryId content tags metadata =>
    ((updateObservation env userId memoryId content tags metadata).exec c.store).map fun x =>
      ⟨x.2, asserted⟩
  | .forget userId memoryId =>
    ((forget userId memoryId).exec c.store).map fun x => ⟨x.2, asserted⟩
  | .wait seconds => some ⟨{ c.store with now := c.store.now + seconds }, asserted⟩

/-! ## The law and its condition -/

def MemoryStore.Active (s : MemoryStore) (memoryId : Nat) : Prop :=
  ∃ r ∈ s.memories, r.id = memoryId ∧ r.validUntil = none

instance (s : MemoryStore) (memoryId : Nat) : Decidable (s.Active memoryId) :=
  inferInstanceAs (Decidable (∃ r ∈ s.memories, _))

def MemoryStore.ActiveEdge (s : MemoryStore) (key : EdgeKey) : Prop :=
  ∃ e ∈ s.entityEdges, e.key = key ∧ e.validUntil = none

/-- An edge is active if and only if an active memory has asserted it. -/
def EdgesFollow (c : MemoryConfig) : Prop :=
  ∀ key, c.store.ActiveEdge key ↔ ∃ m, c.store.Active m ∧ (m, key) ∈ c.asserted

/-- No edge that the operation asserts has an archived row. -/
def NoneArchived (env : MemoryEnv) (op : MemoryOp) (c : MemoryConfig) : Prop :=
  ∀ e ∈ c.store.entityEdges, e.key ∈ op.keys env c.store → e.validUntil = none

/-- No edge of which the memory to be archived is the evidence is asserted by another active memory,
the operation's new one included. -/
def SoleEvidence (env : MemoryEnv) (op : MemoryOp) (c : MemoryConfig) : Prop :=
  ∀ m ∈ op.archives env c.store, ∀ e ∈ c.store.entityEdges, e.validUntil = none →
    e.evidenceId = some m →
      e.key ∉ op.keys env c.store ∧ ∀ a ∈ c.asserted, a.2 = e.key → c.store.Active a.1 → a.1 = m

def Untangled (env : MemoryEnv) (op : MemoryOp) (c : MemoryConfig) : Prop :=
  NoneArchived env op c ∧ SoleEvidence env op c

instance (env : MemoryEnv) (op : MemoryOp) (c : MemoryConfig) : Decidable (Untangled env op c) :=
  inferInstanceAs (Decidable (
    (∀ e ∈ c.store.entityEdges, e.key ∈ op.keys env c.store → e.validUntil = none) ∧
    ∀ m ∈ op.archives env c.store, ∀ e ∈ c.store.entityEdges, e.validUntil = none →
      e.evidenceId = some m → e.key ∉ op.keys env c.store ∧
        ∀ a ∈ c.asserted, a.2 = e.key → c.store.Active a.1 → a.1 = m))

/-- The law holds, and the evidence of an active edge is an active memory that asserted it. -/
structure MemoryInv (c : MemoryConfig) : Prop where
  keyed : Table.Keyed MemoryRow.id c.store.uuids c.store.memories
  unique : (c.store.entityEdges.map EntityEdgeRow.key).Nodup
  asserted : ∀ a ∈ c.asserted, a.1 < c.store.uuids
  follow : EdgesFollow c
  evidence : ∀ e ∈ c.store.entityEdges, e.validUntil = none →
    ∃ r ∈ c.store.memories, e.evidenceId = some r.id ∧ r.validUntil = none ∧
      r.userId = e.key.userId ∧ (r.id, e.key) ∈ c.asserted
  /-- A memory asserts edges of its own user. -/
  owner : ∀ r ∈ c.store.memories, ∀ key, (r.id, key) ∈ c.asserted → key.userId = r.userId

/-! ## Asserting -/

section Asserting

variable {userId : String} {keys : List EdgeKey} {c c' : MemoryConfig}

/-- A new memory, and a row for each edge that it asserts. -/
structure Asserting (userId : String) (keys : List EdgeKey) (c c' : MemoryConfig) : Prop where
  memories : ∃ r : MemoryRow, r.id = c.store.uuids ∧ r.userId = userId ∧ r.validUntil = none ∧
    c'.store.memories = c.store.memories ++ [r]
  edges : EdgesStored c.store.uuids keys c.store.entityEdges c'.store.entityEdges
  asserted : c'.asserted = c.asserted ++ keys.map fun key => (c.store.uuids, key)
  uuids : c.store.uuids < c'.store.uuids
  owner : ∀ key ∈ keys, key.userId = userId

theorem Asserting.active (h : Asserting userId keys c c') {m : Nat} :
    c'.store.Active m ↔ c.store.Active m ∨ m = c.store.uuids := by
  obtain ⟨r, hid, -, hv, hmem⟩ := h.memories
  simp only [MemoryStore.Active, hmem, List.mem_append, List.mem_singleton]
  constructor
  · rintro ⟨x, hx | rfl, hxid, hxv⟩
    · exact .inl ⟨x, hx, hxid, hxv⟩
    · exact .inr (hxid.symm.trans hid)
  · rintro (⟨x, hx, hxid, hxv⟩ | rfl)
    · exact ⟨x, .inl hx, hxid, hxv⟩
    · exact ⟨r, .inr rfl, hid, hv⟩

theorem Asserting.mem_asserted (h : Asserting userId keys c c') {m : Nat} {key : EdgeKey} :
    (m, key) ∈ c'.asserted ↔ (m, key) ∈ c.asserted ∨ m = c.store.uuids ∧ key ∈ keys := by
  rw [h.asserted, List.mem_append, List.mem_map]
  constructor
  · rintro (ha | ⟨k, hk, he⟩)
    · exact .inl ha
    · cases he
      exact .inr ⟨rfl, hk⟩
  · rintro (ha | ⟨rfl, hk⟩)
    · exact .inl ha
    · exact .inr ⟨key, hk, rfl⟩

theorem MemoryInv.edge_inj (h : MemoryInv c) {e e' : EntityEdgeRow}
    (he : e ∈ c.store.entityEdges) (he' : e' ∈ c.store.entityEdges) (hk : e.key = e'.key) : e = e' :=
  List.inj_on_of_nodup_map h.unique he he' hk

theorem Asserting.archived (ha : Asserting userId keys c c') (h : MemoryInv c)
    {e : EntityEdgeRow} (he : e ∈ c.store.entityEdges) (hv : e.validUntil ≠ none) :
    ∀ e' ∈ c'.store.entityEdges, e'.key = e.key → e'.validUntil ≠ none := by
  intro e' he' hk
  have heq : e' = e := List.inj_on_of_nodup_map (ha.edges.unique h.unique) he' (ha.edges.kept e he) hk
  rw [heq]
  exact hv

theorem Asserting.activeEdge (ha : Asserting userId keys c c') (h : MemoryInv c)
    (hk : ∀ e ∈ c.store.entityEdges, e.key ∈ keys → e.validUntil = none) {key : EdgeKey} :
    c'.store.ActiveEdge key ↔ c.store.ActiveEdge key ∨ key ∈ keys := by
  constructor
  · rintro ⟨e, he, rfl, hv⟩
    rcases ha.edges.added e he with hold | ⟨hkey, -⟩
    · exact .inl ⟨e, hold, rfl, hv⟩
    · exact .inr hkey
  · rintro (⟨e, he, rfl, hv⟩ | hkey)
    · exact ⟨e, ha.edges.kept e he, rfl, hv⟩
    · obtain ⟨e, he, rfl⟩ := ha.edges.stored key hkey
      refine ⟨e, he, rfl, ?_⟩
      rcases ha.edges.added e he with hold | ⟨-, -, -, hv⟩
      · exact hk e hold hkey
      · exact hv

theorem Asserting.nodup (ha : Asserting userId keys c c') (h : MemoryInv c) :
    (c'.store.memories.map MemoryRow.id).Nodup := by
  obtain ⟨r, hid, -, -, hmem⟩ := ha.memories
  rw [hmem]
  exact (h.keyed.append hid).nodup

theorem MemoryInv.asserts (h : MemoryInv c) (ha : Asserting userId keys c c')
    (hk : ∀ e ∈ c.store.entityEdges, e.key ∈ keys → e.validUntil = none) : MemoryInv c' := by
  obtain ⟨r, hid, hu, hv, hmem⟩ := ha.memories
  constructor
  · rw [hmem]
    have happ := h.keyed.append (x := r) hid
    exact ⟨happ.nodup, fun x hx => Nat.lt_of_lt_of_le (happ.fresh x hx) ha.uuids⟩
  · exact ha.edges.unique h.unique
  · intro a haa
    rcases ha.mem_asserted.mp haa with hold | ⟨hid, -⟩
    · exact Nat.lt_trans (h.asserted a hold) ha.uuids
    · rw [hid]
      exact ha.uuids
  · intro key
    rw [ha.activeEdge h hk, h.follow key]
    constructor
    · rintro (⟨m, hm, hma⟩ | hkey)
      · exact ⟨m, ha.active.mpr (.inl hm), ha.mem_asserted.mpr (.inl hma)⟩
      · exact ⟨c.store.uuids, ha.active.mpr (.inr rfl), ha.mem_asserted.mpr (.inr ⟨rfl, hkey⟩)⟩
    · rintro ⟨m, hm, hma⟩
      rcases ha.mem_asserted.mp hma with hold | ⟨rfl, hkey⟩
      · rcases ha.active.mp hm with hact | rfl
        · exact .inl ⟨m, hact, hold⟩
        · exact absurd (h.asserted _ hold) (Nat.lt_irrefl _)
      · exact .inr hkey
  · intro e he hev
    rcases ha.edges.added e he with hold | ⟨hkey, -, hevid, -⟩
    · obtain ⟨x, hx, hrest⟩ := h.evidence e hold hev
      exact ⟨x, by simp [hmem, hx], hrest.1, hrest.2.1, hrest.2.2.1,
        ha.mem_asserted.mpr (.inl hrest.2.2.2)⟩
    · exact ⟨r, by simp [hmem], by rw [hevid, hid], hv, hu.trans (ha.owner _ hkey).symm,
        ha.mem_asserted.mpr (.inr ⟨hid, hkey⟩)⟩
  · intro x hx key hxa
    rw [hmem, List.mem_append, List.mem_singleton] at hx
    rcases ha.mem_asserted.mp hxa with hold | ⟨hxid, hkey⟩
    · rcases hx with hx | rfl
      · exact h.owner x hx key hold
      · rw [hid] at hold
        exact absurd (h.asserted _ hold) (Nat.lt_irrefl _)
    · rcases hx with hx | rfl
      · have hlt := h.keyed.fresh x hx
        omega
      · exact (ha.owner key hkey).trans hu.symm

end Asserting

/-! ## Archiving -/

section Archiving

variable {userId : String} {memoryId : Nat} {c : MemoryConfig}

/-- What archiving a memory and its edges leaves. -/
def MemoryConfig.archive (memoryId : Nat) (userId : String) (c : MemoryConfig) : MemoryConfig :=
  { c with store := (c.store.archiveMemory memoryId userId).archiveEdges memoryId userId }

/-- No edge of which the memory is the evidence is asserted by another active one. -/
def MemoryConfig.Sole (memoryId : Nat) (c : MemoryConfig) : Prop :=
  ∀ e ∈ c.store.entityEdges, e.validUntil = none → e.evidenceId = some memoryId →
    ∀ a ∈ c.asserted, a.2 = e.key → c.store.Active a.1 → a.1 = memoryId

theorem active_archive (hk : (c.store.memories.map MemoryRow.id).Nodup) {r : MemoryRow}
    (hr : r ∈ c.store.memories)
    (hid : r.id = memoryId) (hu : r.userId = userId) {m : Nat} :
    (c.archive memoryId userId).store.Active m ↔ c.store.Active m ∧ m ≠ memoryId := by
  simp only [MemoryStore.Active, MemoryConfig.archive, MemoryStore.archiveEdges,
    MemoryStore.archiveMemory, Table.mem_updateWhere]
  constructor
  · rintro ⟨x, (⟨y, -, -, rfl⟩ | ⟨hx, hp⟩), hxid, hxv⟩
    · cases hxv
    · refine ⟨⟨x, hx, hxid, hxv⟩, ?_⟩
      rintro rfl
      obtain rfl := List.inj_on_of_nodup_map hk hx hr (hxid.trans hid.symm)
      simp [hid, hu, hxv] at hp
  · rintro ⟨⟨x, hx, hxid, hxv⟩, hne⟩
    refine ⟨x, .inr ⟨hx, ?_⟩, hxid, hxv⟩
    simp [hxid, hne]

theorem mem_archive_edges {e : EntityEdgeRow} (hv : e.validUntil = none) :
    e ∈ (c.archive memoryId userId).store.entityEdges ↔ e ∈ c.store.entityEdges ∧
      ¬ (e.evidenceId = some memoryId ∧ e.key.userId = userId) := by
  simp only [MemoryConfig.archive, MemoryStore.archiveEdges, MemoryStore.archiveMemory,
    Table.mem_updateWhere]
  constructor
  · rintro (⟨x, -, -, rfl⟩ | ⟨he, hp⟩)
    · cases hv
    · refine ⟨he, ?_⟩
      rintro ⟨hevid, hu⟩
      simp [hevid, hu, hv] at hp
  · rintro ⟨he, hn⟩
    refine .inr ⟨he, ?_⟩
    simpa [hv] using hn

theorem MemoryInv.archives (h : MemoryInv c) {r : MemoryRow} (hr : r ∈ c.store.memories)
    (hid : r.id = memoryId) (hu : r.userId = userId) (hs : c.Sole memoryId) :
    MemoryInv (c.archive memoryId userId) := by
  have hrow : ∀ x ∈ (c.archive memoryId userId).store.memories,
      ∃ y ∈ c.store.memories, y.id = x.id ∧ y.userId = x.userId := by
    intro x hx
    simp only [MemoryConfig.archive, MemoryStore.archiveEdges, MemoryStore.archiveMemory,
      Table.mem_updateWhere] at hx
    rcases hx with ⟨y, hy, -, rfl⟩ | ⟨hx, -⟩
    · exact ⟨y, hy, rfl, rfl⟩
    · exact ⟨x, hx, rfl, rfl⟩
  have hkeep : ∀ e ∈ c.store.entityEdges, e.validUntil = none →
      (e ∈ (c.archive memoryId userId).store.entityEdges ↔ e.evidenceId ≠ some memoryId) := by
    intro e he hv
    rw [mem_archive_edges hv]
    refine ⟨fun hn hevid => hn.2 ⟨hevid, ?_⟩, fun hn => ⟨he, fun hboth => hn hboth.1⟩⟩
    obtain ⟨x, hx, hxe, -, hxu, -⟩ := h.evidence e he hv
    have hxr : x = r := List.inj_on_of_nodup_map h.keyed.nodup hx hr
      ((Option.some.inj (hxe.symm.trans hevid)).trans hid.symm)
    rw [← hxu, hxr, hu]
  constructor
  · refine h.keyed.rewrites (R := fun x y => y = if x.id == memoryId && x.userId == userId &&
      x.validUntil.isNone then { x with validUntil := some c.store.now } else x) ?_
    exact Table.rewrites_updateWhere fun _ => rfl
  · have hkeys : (c.archive memoryId userId).store.entityEdges.map EntityEdgeRow.key =
        c.store.entityEdges.map EntityEdgeRow.key := Table.map_updateWhere fun _ => rfl
    rw [hkeys]
    exact h.unique
  · exact h.asserted
  · intro key
    constructor
    · rintro ⟨e, he, rfl, hv⟩
      have hold := ((mem_archive_edges hv).mp he).1
      obtain ⟨x, hx, hxe, hxv, -, hxa⟩ := h.evidence e hold hv
      refine ⟨x.id, (active_archive h.keyed.nodup hr hid hu).mpr ⟨⟨x, hx, rfl, hxv⟩, fun heq => ?_⟩, hxa⟩
      exact (hkeep e hold hv).mp he (hxe.trans (congrArg some heq))
    · rintro ⟨m, hm, hma⟩
      obtain ⟨hact, hne⟩ := (active_archive h.keyed.nodup hr hid hu).mp hm
      obtain ⟨e, he, hek, hv⟩ := (h.follow key).mpr ⟨m, hact, hma⟩
      refine ⟨e, (hkeep e he hv).mpr fun hevid => hne ?_, hek, hv⟩
      exact hs e he hv hevid (m, key) hma hek.symm hact
  · intro e he hv
    have hold := ((mem_archive_edges hv).mp he).1
    obtain ⟨x, hx, hxe, hxv, hxu, hxa⟩ := h.evidence e hold hv
    refine ⟨x, ?_, hxe, hxv, hxu, hxa⟩
    have hne : x.id ≠ memoryId := fun heq =>
      (hkeep e hold hv).mp he (hxe.trans (congrArg some heq))
    simp [MemoryConfig.archive, MemoryStore.archiveEdges, MemoryStore.archiveMemory, hx, hne]
  · intro x hx key hxa
    obtain ⟨y, hy, hyid, hyu⟩ := hrow x hx
    rw [← hyu]
    exact h.owner y hy key (by rw [hyid]; exact hxa)

theorem MemoryInv.archive_follow_iff (h : MemoryInv c) {r : MemoryRow} (hr : r ∈ c.store.memories)
    (hid : r.id = memoryId) (hu : r.userId = userId) :
    EdgesFollow (c.archive memoryId userId) ↔ c.Sole memoryId := by
  refine ⟨fun hf e he hv hevid a ha hkey hact => ?_, fun hs => (h.archives hr hid hu hs).follow⟩
  by_contra hne
  obtain ⟨e', he', hk', hv'⟩ :=
    (hf e.key).mpr ⟨a.1, (active_archive h.keyed.nodup hr hid hu).mpr ⟨hact, hne⟩, by rw [← hkey]; exact ha⟩
  obtain ⟨hold, hn⟩ := (mem_archive_edges hv').mp he'
  obtain rfl := h.edge_inj hold he hk'
  obtain ⟨x, hx, hxe, -, hxu, -⟩ := h.evidence e' he hv
  have hxr : x = r := List.inj_on_of_nodup_map h.keyed.nodup hx hr
    ((Option.some.inj (hxe.symm.trans hevid)).trans hid.symm)
  exact hn ⟨hevid, by rw [← hxu, hxr, hu]⟩

end Archiving

/-! ## Each operation -/

section Steps

variable {env : MemoryEnv} {c c' : MemoryConfig} {userId : String} {memoryId : Nat}

theorem memory_some {s : MemoryStore} {r : MemoryRow} (h : s.memory memoryId userId = some r) :
    r ∈ s.memories ∧ r.id = memoryId ∧ r.userId = userId := by
  refine ⟨List.mem_of_find?_eq_some h, ?_⟩
  simpa using List.find?_some h

theorem assertedEdges_owner {bank content : String} {key : EdgeKey}
    (h : key ∈ assertedEdges env userId bank memoryId content) : key.userId = userId := by
  obtain ⟨rel, -, hrel⟩ := List.mem_filterMap.mp h
  rw [ExtractedRelation.edge?] at hrel
  obtain ⟨srcId, -, hrel⟩ := Option.bind_eq_some_iff.mp hrel
  obtain ⟨dstId, -, hrel⟩ := Option.bind_eq_some_iff.mp hrel
  cases hrel
  rfl

theorem archiveMemory_exec (h : MemoryInv c) {r : MemoryRow} (hr : c.store.memory memoryId userId = some r) :
    (archiveMemory memoryId userId).exec c.store =
      some (.ok r.validUntil.isNone, c.store.archiveMemory memoryId userId) := by
  obtain ⟨hmem, hid, hu⟩ := memory_some hr
  rw [archiveMemory, getMemory, exec_bind, exec_query, Option.bind_some, thenExec, hr]
  dsimp only
  cases hv : r.validUntil with
  | none => rfl
  | some t =>
    have hsame : c.store.archiveMemory memoryId userId = c.store := by
      rw [MemoryStore.archiveMemory, Table.updateWhere_eq_self]
      intro x hx
      by_contra hp
      simp only [Bool.not_eq_false, Bool.and_eq_true, beq_iff_eq] at hp
      have hxr : x = r :=
        List.inj_on_of_nodup_map h.keyed.nodup hx hmem (hp.1.1.trans hid.symm)
      rw [hxr, hv] at hp
      cases hp.2
    rw [hsame]
    rfl

theorem superseded_some {s : MemoryStore} {metadata : Metadata} {old : MemoryRow}
    (h : s.superseded env userId memoryId metadata = some old) :
    s.memory memoryId userId = some old ∧ old.validUntil = none ∧
      env.jsonSize (supersedingMetadata env memoryId metadata) ≤ maxMetadataBytes := by
  obtain ⟨hmem, hp⟩ := Option.filter_eq_some_iff.mp h
  simpa [hmem] using hp

theorem updateObservation_refused (content : String) (tags : List String) {metadata : Metadata}
    {s : MemoryStore} (h : s.superseded env userId memoryId metadata = none) :
    ∃ e, (updateObservation env userId memoryId content tags metadata).exec s =
      some (.error e, s) := by
  rw [updateObservation, getMemory, exec_bind, exec_query, Option.bind_some, thenExec]
  cases hm : s.memory memoryId userId with
  | none => exact ⟨_, rfl⟩
  | some old =>
    dsimp only
    rw [MemoryStore.superseded, hm] at h
    cases hv : old.validUntil with
    | some t => exact ⟨_, rfl⟩
    | none =>
      by_cases hsize : maxMetadataBytes < env.jsonSize (supersedingMetadata env memoryId metadata)
      · simp only [Option.isSome_none, Bool.false_eq_true, if_false, if_pos hsize]
        exact ⟨_, rfl⟩
      · simp [hv, Nat.le_of_not_lt hsize] at h

theorem addMemory_asserting (env : MemoryEnv) (userId bank content : String) (tags : List String)
    (metadata : Metadata) (c : MemoryConfig) :
    ∃ r t, (addMemory env userId bank content tags metadata).exec c.store = some (.ok r, t) ∧
      Asserting userId (assertedEdges env userId bank c.store.uuids content) c
        ⟨t, c.asserted ++ (assertedEdges env userId bank c.store.uuids content).map
          fun key => (c.store.uuids, key)⟩ := by
  obtain ⟨r, t, he, -, hu, hmem, hst⟩ :=
    addMemory_exec env userId bank content tags metadata c.store
  refine ⟨r, t, he, ?_⟩
  constructor
  · exact ⟨_, rfl, rfl, rfl, hmem⟩
  · exact hst
  · rfl
  · exact hu
  · exact fun key hk => assertedEdges_owner hk

theorem MemoryInv.assert_follow_iff {keys : List EdgeKey} (h : MemoryInv c)
    (ha : Asserting userId keys c c') :
    EdgesFollow c' ↔ ∀ e ∈ c.store.entityEdges, e.key ∈ keys → e.validUntil = none := by
  refine ⟨fun hf e he hk => ?_, fun hk => (h.asserts ha hk).follow⟩
  by_contra hv
  obtain ⟨e', he', hk', hv'⟩ := (hf e.key).mpr
    ⟨c.store.uuids, ha.active.mpr (.inr rfl), ha.mem_asserted.mpr (.inr ⟨rfl, hk⟩)⟩
  exact ha.archived h he hv e' he' hk' hv'

theorem forget_step (h : MemoryInv c) (hs : memoryStep env (.forget userId memoryId) c = some c') :
    (c.store.memory memoryId userId = none ∧ c' = c) ∨
    ∃ r, c.store.memory memoryId userId = some r ∧ c' = c.archive memoryId userId := by
  rw [memoryStep, forget, getMemory, exec_bind, exec_query, Option.bind_some, thenExec] at hs
  cases hr : c.store.memory memoryId userId with
  | none =>
    rw [hr] at hs
    simp only [exec_raise, Option.map_some, MemoryOp.keys, List.map_nil, List.append_nil] at hs
    cases hs
    exact .inl ⟨rfl, rfl⟩
  | some r =>
    rw [hr] at hs
    simp only [exec_bind, archiveMemory_exec h hr, Option.bind_some, thenExec,
      archiveEdgesForMemory, exec_act, pure_eq, exec_ret, Option.map_some, MemoryOp.keys,
      List.map_nil, List.append_nil] at hs
    cases hs
    exact .inr ⟨r, rfl, rfl⟩

theorem update_step {content : String} {tags : List String} {metadata : Metadata}
    (hs : memoryStep env (.update userId memoryId content tags metadata) c = some c') :
    (c.store.superseded env userId memoryId metadata = none ∧ c' = c) ∨
    ∃ old c₁, c.store.superseded env userId memoryId metadata = some old ∧
      Asserting userId (assertedEdges env userId old.bank c.store.uuids content) c c₁ ∧
      c' = c₁.archive memoryId userId := by
  cases hold : c.store.superseded env userId memoryId metadata with
  | none =>
    obtain ⟨e, he⟩ := updateObservation_refused content tags hold
    simp only [memoryStep, he, Option.map_some, MemoryOp.keys, hold, List.map_nil,
      List.append_nil] at hs
    cases hs
    exact .inl ⟨rfl, rfl⟩
  | some old =>
    obtain ⟨hrow, hv, hsize⟩ := superseded_some hold
    obtain ⟨r, t, he, ha⟩ := addMemory_asserting env userId old.bank content tags
      (supersedingMetadata env memoryId metadata) c
    have hrow' : t.memory memoryId userId = some old := by
      obtain ⟨x, -, -, -, hmem⟩ := ha.memories
      rw [MemoryStore.memory] at hrow ⊢
      rw [hmem, List.find?_append, hrow]
      rfl
    have hexec : (updateObservation env userId memoryId content tags metadata).exec c.store =
        some (.ok ⟨memoryId, r.memoryId, r.entityIds, r.relationIds⟩,
          (t.archiveMemory memoryId userId).archiveEdges memoryId userId) := by
      simp only [updateObservation, archiveMemory, archiveEdgesForMemory, getMemory, exec_bind,
        exec_query, Option.bind_some, thenExec, hrow, hv, Option.isSome_none, Bool.false_eq_true,
        if_false, if_neg (Nat.not_lt.mpr hsize), he, hrow', exec_act, pure_eq, exec_ret]
    simp only [memoryStep, hexec, Option.map_some, MemoryOp.keys, hold] at hs
    cases hs
    exact .inr ⟨old, _, rfl, ha, rfl⟩

theorem update_follow_iff {old : MemoryRow} {keys : List EdgeKey} {c₁ : MemoryConfig}
    (h : MemoryInv c) (hr : c.store.memory memoryId userId = some old)
    (ha : Asserting userId keys c c₁) :
    (EdgesFollow (c₁.archive memoryId userId) ↔
      (∀ e ∈ c.store.entityEdges, e.key ∈ keys → e.validUntil = none) ∧
      ∀ e ∈ c.store.entityEdges, e.validUntil = none → e.evidenceId = some memoryId →
        e.key ∉ keys ∧ ∀ a ∈ c.asserted, a.2 = e.key → c.store.Active a.1 → a.1 = memoryId) ∧
    (EdgesFollow (c₁.archive memoryId userId) → MemoryInv (c₁.archive memoryId userId)) := by
  obtain ⟨hmem, hid, hu⟩ := memory_some hr
  obtain ⟨x, hxid, -, -, hmem₁⟩ := ha.memories
  have hold₁ : old ∈ c₁.store.memories := by rw [hmem₁]; simp [hmem]
  have hlt : memoryId < c.store.uuids := by rw [← hid]; exact h.keyed.fresh old hmem
  have hkeys : EdgesFollow (c₁.archive memoryId userId) →
      ∀ e ∈ c.store.entityEdges, e.key ∈ keys → e.validUntil = none := by
    intro hf e he hk
    by_contra hv
    have hnew : (c₁.archive memoryId userId).store.Active c.store.uuids :=
      (active_archive (ha.nodup h) hold₁ hid hu).mpr ⟨ha.active.mpr (.inr rfl), by omega⟩
    obtain ⟨e', he', hk', hv'⟩ := (hf e.key).mpr
      ⟨c.store.uuids, hnew, ha.mem_asserted.mpr (.inr ⟨rfl, hk⟩)⟩
    exact ha.archived h he hv e' ((mem_archive_edges hv').mp he').1 hk' hv'
  have hsole : c₁.Sole memoryId ↔
      ∀ e ∈ c.store.entityEdges, e.validUntil = none → e.evidenceId = some memoryId →
        e.key ∉ keys ∧ ∀ a ∈ c.asserted, a.2 = e.key → c.store.Active a.1 → a.1 = memoryId := by
    constructor
    · intro hs e he hv hevid
      have he₁ := ha.edges.kept e he
      refine ⟨fun hk => ?_, fun a haa hkey hact => ?_⟩
      · have heq := hs e he₁ hv hevid (c.store.uuids, e.key)
          (ha.mem_asserted.mpr (.inr ⟨rfl, hk⟩)) rfl (ha.active.mpr (.inr rfl))
        dsimp only at heq
        omega
      · exact hs e he₁ hv hevid a (ha.mem_asserted.mpr (.inl haa)) hkey (ha.active.mpr (.inl hact))
    · intro hs e he₁ hv hevid a haa hkey hact
      rcases ha.edges.added e he₁ with he | ⟨-, -, hnew, -⟩
      · obtain ⟨hk, hothers⟩ := hs e he hv hevid
        rcases ha.mem_asserted.mp haa with haa | ⟨-, hak⟩
        · have hne : a.1 ≠ c.store.uuids := Nat.ne_of_lt (h.asserted a haa)
          exact hothers a haa hkey ((ha.active.mp hact).resolve_right hne)
        · exact absurd (hkey ▸ hak) hk
      · rw [hevid] at hnew
        cases hnew
        omega
  constructor
  · constructor
    · intro hf
      have hinv := h.asserts ha (hkeys hf)
      exact ⟨hkeys hf, hsole.mp ((hinv.archive_follow_iff hold₁ hid hu).mp hf)⟩
    · rintro ⟨hk, hs⟩
      exact ((h.asserts ha hk).archive_follow_iff hold₁ hid hu).mpr (hsole.mpr hs)
  · intro hf
    have hinv := h.asserts ha (hkeys hf)
    exact hinv.archives hold₁ hid hu ((hinv.archive_follow_iff hold₁ hid hu).mp hf)

theorem memoryStep_follow_iff (h : MemoryInv c) {op : MemoryOp} (hs : memoryStep env op c = some c') :
    (EdgesFollow c' ↔ Untangled env op c) ∧ (EdgesFollow c' → MemoryInv c') := by
  cases op with
  | remember userId bank content tags metadata =>
    obtain ⟨r, t, he, ha⟩ := addMemory_asserting env userId bank content tags metadata c
    simp only [memoryStep, he, Option.map_some] at hs
    cases hs
    have hiff := h.assert_follow_iff ha
    refine ⟨?_, fun hf => h.asserts ha (hiff.mp hf)⟩
    rw [MemoryOp.keys, hiff, Untangled, NoneArchived, SoleEvidence]
    simp [MemoryOp.keys, MemoryOp.archives]
  | update userId memoryId content tags metadata =>
    rcases update_step hs with ⟨hnone, rfl⟩ | ⟨old, c₁, hold, ha, rfl⟩
    · refine ⟨⟨fun _ => ?_, fun _ => h.follow⟩, fun _ => h⟩
      simp [Untangled, NoneArchived, SoleEvidence, MemoryOp.keys, MemoryOp.archives, hnone]
    · obtain ⟨hrow, -, -⟩ := superseded_some hold
      have hiff := update_follow_iff h hrow ha
      refine ⟨hiff.1.trans ?_, hiff.2⟩
      simp [Untangled, NoneArchived, SoleEvidence, MemoryOp.keys, MemoryOp.archives, hold,
        (memory_some hrow).2.1]
  | forget userId memoryId =>
    rcases forget_step h hs with ⟨hnone, rfl⟩ | ⟨r, hr, rfl⟩
    · refine ⟨⟨fun _ => ?_, fun _ => h.follow⟩, fun _ => h⟩
      simp [Untangled, NoneArchived, SoleEvidence, MemoryOp.keys, MemoryOp.archives, hnone]
    · obtain ⟨hmem, hid, hu⟩ := memory_some hr
      have hiff := h.archive_follow_iff hmem hid hu
      refine ⟨hiff.trans ?_, fun hf => h.archives hmem hid hu (hiff.mp hf)⟩
      simp [Untangled, NoneArchived, SoleEvidence, MemoryOp.keys, MemoryOp.archives, hr, hid,
        MemoryConfig.Sole]
  | wait seconds =>
    simp only [memoryStep, MemoryOp.keys, List.map_nil, List.append_nil] at hs
    cases hs
    refine ⟨⟨fun _ => ?_, fun _ => h.follow⟩, fun _ => ⟨h.1, h.2, h.3, h.4, h.5, h.6⟩⟩
    simp [Untangled, NoneArchived, SoleEvidence, MemoryOp.keys, MemoryOp.archives]

/-- After every run whose operations meet the condition an edge is active exactly when an active
memory asserted it, and the next operation keeps this exactly when it meets the condition too. -/
theorem edges_follow_memories {c₀ : MemoryConfig} (h₀ : MemoryInv c₀)
    (h : Reaches (memoryStep env) (Untangled env) c₀ c) :
    EdgesFollow c ∧
      ∀ op c', memoryStep env op c = some c' → (EdgesFollow c' ↔ Untangled env op c) := by
  have hinv : MemoryInv c := h.invariant h₀ fun op s t hi hu hs =>
    (memoryStep_follow_iff hi hs).2 ((memoryStep_follow_iff hi hs).1.mpr hu)
  exact ⟨hinv.follow, fun op c' hs => (memoryStep_follow_iff hinv hs).1⟩

end Steps

namespace MemoryExample

/-- Every text says that `a` depends on `b`. -/
def env : MemoryEnv :=
  { jsonSize := fun _ => 2, quoted := fun _ => "", storeEntities := fun _ _ => []
    extractRelations := fun _ _ => [⟨"a", "b", .dependsOn⟩]
    resolveOrCreateEntity := fun _ _ name => if name = "a" then some 1 else some 2 }

def start : MemoryConfig := { store := ⟨[], [], 0, 0⟩, asserted := [] }

theorem start_inv : MemoryInv start where
  keyed := ⟨List.nodup_nil, fun _ hr => by cases hr⟩
  unique := List.nodup_nil
  asserted _ ha := by cases ha
  follow key := by
    constructor
    · rintro ⟨e, he, -⟩
      cases he
    · rintro ⟨m, -, ha⟩
      cases ha
  evidence _ he := by cases he
  owner _ hr := by cases hr

def remembers : MemoryOp := .remember "ann" "coding" "a depends on b" [] []

def reached (ops : List MemoryOp) : MemoryConfig := (run (memoryStep env) ops start).getD start

theorem run_reached {ops : List MemoryOp} (h : (run (memoryStep env) ops start).isSome = true) :
    run (memoryStep env) ops start = some (reached ops) := by
  obtain ⟨c, hc⟩ := Option.isSome_iff_exists.mp h
  rw [reached, hc]
  rfl

end MemoryExample

open MemoryExample in
theorem edges_follow_memories_forgotten :
    EdgesFollow (reached [remembers, .forget "ann" 0]) ∧
      ∀ op c', memoryStep env op (reached [remembers, .forget "ann" 0]) = some c' →
        (EdgesFollow c' ↔ Untangled env op (reached [remembers, .forget "ann" 0])) :=
  edges_follow_memories start_inv (run_reaches (run_reached (by decide)) (by decide))

open MemoryExample in
/-- Two memories assert the edge. Forgetting the first archives it, and the second is active. -/
theorem shared_edge_archived :
    ∃ c, Reaches (memoryStep env) (fun _ _ => True) start c ∧ ¬ EdgesFollow c := by
  refine ⟨reached [remembers, remembers, .forget "ann" 0],
    run_reaches (run_reached (by decide)) (by simp [Admitted]), fun h => ?_⟩
  obtain ⟨e, he, -, hv⟩ :=
    (h ⟨"ann", "coding", 1, 2, .dependsOn⟩).mpr ⟨2, by decide, by decide⟩
  have hall : ∀ e ∈ (reached [remembers, remembers, .forget "ann" 0]).store.entityEdges,
      e.validUntil ≠ none := by decide
  exact hall e he hv

end Lumogis
