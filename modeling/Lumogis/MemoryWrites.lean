import Lumogis.Lib.Prog
import Lumogis.Lib.Table

/-!
# MemoryWrites

The memory tools: `add_memory`, `update_observation`, `forget`, over the tables `memories` and
`entity_edges`. An edge is one row per user, bank, endpoints and relation, and keeps the memory that
wrote it first as its evidence; archiving sets `valid_until`.

What a model extracts from a text, and which entity a name resolves to, is given by the environment.
-/

namespace Lumogis

open Prog

inductive RelationType where
  | dependsOn | partOf | decided | relatesTo | supersedes | decidedBy | implements | replaces
  | causedBy | discussedInSession | blockedBy | referencesIssue | calls
  deriving DecidableEq

/-- A JSON object, its values as their texts. -/
abbrev Metadata := List (String × String)

def Metadata.set (key value : String) (m : Metadata) : Metadata :=
  if m.any (·.1 == key) then m.map fun p => if p.1 == key then (key, value) else p
  else m ++ [(key, value)]

structure MemoryRow where
  id : Nat
  userId : String
  bank : String
  content : String
  tags : List String
  metadata : Metadata
  validUntil : Option Nat
  deriving DecidableEq

/-- The columns of the unique index. -/
structure EdgeKey where
  userId : String
  bank : String
  srcEntityId : Nat
  dstEntityId : Nat
  relationType : RelationType
  deriving DecidableEq

structure EntityEdgeRow where
  id : Nat
  key : EdgeKey
  evidenceId : Option Nat
  validUntil : Option Nat

structure MemoryStore where
  memories : List MemoryRow
  entityEdges : List EntityEdgeRow
  /-- The next value of `uuid4`. -/
  uuids : Nat
  now : Nat

inductive MemoryErr where
  | lostConnection
  /-- `RuntimeError`: no entity for the name. -/
  | unresolvedEntity (name : String)
  /-- `ValueError`s. -/
  | memoryNotFound
  | alreadySuperseded
  | metadataTooLarge

structure ExtractedRelation where
  srcName : String
  dstName : String
  relationType : RelationType

/-- Answers that may differ from one memory to the next. -/
structure MemoryEnv where
  /-- `len(json.dumps(metadata))`. -/
  jsonSize : Metadata → Nat
  quoted : Nat → String
  storeEntities : Nat → String → List Nat
  extractRelations : Nat → String → List ExtractedRelation
  /-- The entity of a name, for a user; `none` when it raises. -/
  resolveOrCreateEntity : Nat → String → String → Option Nat

abbrev MemoryM := Prog MemoryStore MemoryErr

def maxMetadataBytes : Nat := 4096

def memoryUuid : MemoryM Nat := act .lostConnection fun s => (s.uuids, { s with uuids := s.uuids + 1 })

/-! ## memories -/

def MemoryStore.memory (s : MemoryStore) (memoryId : Nat) (userId : String) : Option MemoryRow :=
  s.memories.find? fun r => r.id == memoryId && r.userId == userId

def storeMemory (userId bank content : String) (tags : List String) (metadata : Metadata) :
    MemoryM Nat := do
  let memoryId ← memoryUuid
  act .lostConnection fun s =>
    ((), { s with
      memories := s.memories ++ [⟨memoryId, userId, bank, content, tags, metadata, none⟩] })
  return memoryId

def getMemory (memoryId : Nat) (userId : String) : MemoryM (Option MemoryRow) :=
  query .lostConnection fun s => s.memory memoryId userId

/-- `UPDATE memories SET valid_until = now() WHERE ... AND valid_until IS NULL`. -/
def MemoryStore.archiveMemory (memoryId : Nat) (userId : String) (s : MemoryStore) : MemoryStore :=
  { s with
    memories := Table.updateWhere
      (fun r => r.id == memoryId && r.userId == userId && r.validUntil.isNone)
      (fun r => { r with validUntil := some s.now }) s.memories }

/-- `true` when the row was newly archived. -/
def archiveMemory (memoryId : Nat) (userId : String) : MemoryM Bool := do
  match ← getMemory memoryId userId with
  | none => return false
  | some row =>
    if row.validUntil.isSome then return false
    else
      act .lostConnection fun s => ((), s.archiveMemory memoryId userId)
      return true

/-! ## entity_edges -/

/-- `INSERT ... ON CONFLICT DO NOTHING`. -/
def MemoryStore.insertEdge (row : EntityEdgeRow) (s : MemoryStore) : MemoryStore :=
  if s.entityEdges.any fun e => e.key == row.key then s
  else { s with entityEdges := s.entityEdges ++ [row] }

/-- The id of the row, new or existing. The relation is one of the allowed by its type. -/
def storeEdge (key : EdgeKey) (evidenceId : Option Nat) : MemoryM Nat := do
  let edgeId ← memoryUuid
  act .lostConnection fun s => ((), s.insertEdge ⟨edgeId, key, evidenceId, none⟩)
  let row ← query .lostConnection fun s => s.entityEdges.find? fun e => e.key == key
  return (row.map EntityEdgeRow.id).getD edgeId

/-- `UPDATE entity_edges SET valid_until = now() WHERE evidence_id = ... AND valid_until IS NULL`. -/
def MemoryStore.archiveEdges (memoryId : Nat) (userId : String) (s : MemoryStore) : MemoryStore :=
  { s with
    entityEdges := Table.updateWhere
      (fun e => e.evidenceId == some memoryId && e.key.userId == userId && e.validUntil.isNone)
      (fun e => { e with validUntil := some s.now }) s.entityEdges }

def archiveEdgesForMemory (memoryId : Nat) (userId : String) : MemoryM Unit :=
  act .lostConnection fun s => ((), s.archiveEdges memoryId userId)

/-! ## The tools -/

structure AddMemoryResult where
  memoryId : Nat
  entityIds : List Nat
  relationIds : List Nat

def mcpMemoryMetadata (metadata : Metadata) : Metadata := metadata.set "source" "\"mcp\""

def resolveOrCreateEntity (env : MemoryEnv) (memoryId : Nat) (userId name : String) : MemoryM Nat :=
  match env.resolveOrCreateEntity memoryId userId name with
  | some entityId => pure entityId
  | none => .raise (.unresolvedEntity name)

def storeRelation (env : MemoryEnv) (userId bank : String) (memoryId : Nat)
    (rel : ExtractedRelation) : MemoryM Nat := do
  let srcId ← resolveOrCreateEntity env memoryId userId rel.srcName
  let dstId ← resolveOrCreateEntity env memoryId userId rel.dstName
  storeEdge ⟨userId, bank, srcId, dstId, rel.relationType⟩ (some memoryId)

/-- A relation that cannot be stored is skipped. -/
def addRelation (env : MemoryEnv) (userId bank : String) (memoryId : Nat) (relationIds : List Nat)
    (rel : ExtractedRelation) : MemoryM (List Nat) := do
  match ← (storeRelation env userId bank memoryId rel).attempt with
  | .ok relationId => return relationIds ++ [relationId]
  | .error _ => return relationIds

def addMemory (env : MemoryEnv) (userId bank content : String) (tags : List String)
    (metadata : Metadata) : MemoryM AddMemoryResult := do
  let memoryId ← storeMemory userId bank content tags (mcpMemoryMetadata metadata)
  let relationIds ← foldM (addRelation env userId bank memoryId) []
    (env.extractRelations memoryId content)
  return ⟨memoryId, env.storeEntities memoryId content, relationIds⟩

structure ForgetResult where
  memoryId : Nat
  archived : Bool

/-- A memory that is archived already is reported as archived. -/
def forget (userId : String) (memoryId : Nat) : MemoryM ForgetResult := do
  match ← getMemory memoryId userId with
  | none => .raise .memoryNotFound
  | some _ =>
    let _ ← archiveMemory memoryId userId
    archiveEdgesForMemory memoryId userId
    return ⟨memoryId, true⟩

structure UpdateResult where
  oldMemoryId : Nat
  newMemoryId : Nat
  entityIds : List Nat
  relationIds : List Nat

def supersedingMetadata (env : MemoryEnv) (memoryId : Nat) (metadata : Metadata) : Metadata :=
  metadata.set "supersedes" (env.quoted memoryId)

/-- The new memory is added before the old one is archived. -/
def updateObservation (env : MemoryEnv) (userId : String) (memoryId : Nat) (content : String)
    (tags : List String) (metadata : Metadata) : MemoryM UpdateResult := do
  match ← getMemory memoryId userId with
  | none => .raise .memoryNotFound
  | some old =>
    if old.validUntil.isSome then .raise .alreadySuperseded
    else if maxMetadataBytes < env.jsonSize (supersedingMetadata env memoryId metadata) then
      .raise .metadataTooLarge
    else
      let new ← addMemory env userId old.bank content tags (supersedingMetadata env memoryId metadata)
      let _ ← archiveMemory memoryId userId
      archiveEdgesForMemory memoryId userId
      return ⟨memoryId, new.memoryId, new.entityIds, new.relationIds⟩

/-! ## What the tools do to the tables -/

/-- The edge that a relation of a memory asserts, when both its ends resolve. -/
def ExtractedRelation.edge? (env : MemoryEnv) (userId bank : String) (memoryId : Nat)
    (rel : ExtractedRelation) : Option EdgeKey := do
  let srcId ← env.resolveOrCreateEntity memoryId userId rel.srcName
  let dstId ← env.resolveOrCreateEntity memoryId userId rel.dstName
  return ⟨userId, bank, srcId, dstId, rel.relationType⟩

def assertedEdges (env : MemoryEnv) (userId bank : String) (memoryId : Nat) (content : String) :
    List EdgeKey :=
  (env.extractRelations memoryId content).filterMap (ExtractedRelation.edge? env userId bank memoryId)

/-- `new` is `old` with a row for each edge of `keys`; the rows that were missing have evidence
`memoryId`. -/
structure EdgesStored (memoryId : Nat) (keys : List EdgeKey) (old new : List EntityEdgeRow) : Prop where
  kept : ∀ e ∈ old, e ∈ new
  added : ∀ e ∈ new, e ∈ old ∨ e.key ∈ keys ∧ (∀ o ∈ old, o.key ≠ e.key) ∧
    e.evidenceId = some memoryId ∧ e.validUntil = none
  stored : ∀ k ∈ keys, ∃ e ∈ new, e.key = k
  unique : (old.map EntityEdgeRow.key).Nodup → (new.map EntityEdgeRow.key).Nodup

variable {env : MemoryEnv} {userId bank content : String} {memoryId : Nat} {s : MemoryStore}

theorem EdgesStored.nil {edges : List EntityEdgeRow} : EdgesStored memoryId [] edges edges where
  kept _ h := h
  added _ h := .inl h
  stored _ h := by cases h
  unique h := h

theorem EdgesStored.insertEdge {keys : List EdgeKey} {old : List EntityEdgeRow} {key : EdgeKey} {id : Nat}
    (h : EdgesStored memoryId keys old s.entityEdges) :
    EdgesStored memoryId (keys ++ [key]) old
      (s.insertEdge ⟨id, key, some memoryId, none⟩).entityEdges := by
  rw [MemoryStore.insertEdge]
  cases hany : s.entityEdges.any fun e => e.key == key with
  | true =>
    obtain ⟨x, hx, hkey⟩ := List.any_eq_true.mp hany
    constructor
    · exact h.kept
    · intro e he
      refine (h.added e he).imp (fun hold => hold) fun ⟨hk, hrest⟩ => ⟨?_, hrest⟩
      simp [hk]
    · intro k hk
      rcases List.mem_append.mp hk with hk | hk
      · exact h.stored k hk
      · obtain rfl := List.mem_singleton.mp hk
        exact ⟨x, hx, by simpa using hkey⟩
    · exact h.unique
  | false =>
    have hnew : ∀ e ∈ s.entityEdges, e.key ≠ key := by simpa using hany
    simp only [Bool.false_eq_true, if_false]
    constructor
    · intro e he
      simp [h.kept e he]
    · intro e he
      rcases List.mem_append.mp he with he | he
      · refine (h.added e he).imp (fun hold => hold) fun ⟨hk, hrest⟩ => ⟨?_, hrest⟩
        simp [hk]
      · obtain rfl := List.mem_singleton.mp he
        exact .inr ⟨by simp, fun o ho => hnew o (h.kept o ho), rfl, rfl⟩
    · intro k hk
      rcases List.mem_append.mp hk with hk | hk
      · obtain ⟨e, he, hek⟩ := h.stored k hk
        exact ⟨e, by simp [he], hek⟩
      · obtain rfl := List.mem_singleton.mp hk
        exact ⟨⟨id, k, some memoryId, none⟩, by simp, rfl⟩
    · intro hold
      rw [List.map_append, List.nodup_append]
      refine ⟨h.unique hold, by simp, ?_⟩
      intro k hk k' hk'
      obtain ⟨e, he, rfl⟩ := List.mem_map.mp hk
      simp only [List.map_cons, List.map_nil, List.mem_singleton] at hk'
      rw [hk']
      exact hnew e he

@[simp] theorem MemoryStore.insertEdge_memories (row : EntityEdgeRow) :
    (s.insertEdge row).memories = s.memories := by
  rw [insertEdge]
  split <;> rfl

@[simp] theorem MemoryStore.insertEdge_uuids (row : EntityEdgeRow) :
    (s.insertEdge row).uuids = s.uuids := by
  rw [insertEdge]
  split <;> rfl

theorem storeRelation_exec (env : MemoryEnv) (userId bank : String) (memoryId : Nat)
    (rel : ExtractedRelation) (s : MemoryStore) :
    (rel.edge? env userId bank memoryId = none ∧
      ∃ e, (storeRelation env userId bank memoryId rel).exec s = some (.error e, s)) ∨
    ∃ key id, rel.edge? env userId bank memoryId = some key ∧
      (storeRelation env userId bank memoryId rel).exec s =
        some (.ok id, ({ s with uuids := s.uuids + 1 } : MemoryStore).insertEdge
          ⟨s.uuids, key, some memoryId, none⟩) := by
  rw [storeRelation, resolveOrCreateEntity, ExtractedRelation.edge?]
  cases env.resolveOrCreateEntity memoryId userId rel.srcName with
  | none => exact .inl ⟨rfl, _, rfl⟩
  | some srcId =>
    rw [resolveOrCreateEntity]
    cases env.resolveOrCreateEntity memoryId userId rel.dstName with
    | none => exact .inl ⟨rfl, _, rfl⟩
    | some dstId => exact .inr ⟨_, _, rfl, rfl⟩

theorem addRelation_wp {keys : List EdgeKey} {old : List EntityEdgeRow} {relationIds : List Nat}
    {rel : ExtractedRelation} (h : EdgesStored memoryId keys old s.entityEdges) :
    wp (fun r t => (∃ ids, r = .ok ids) ∧ t.memories = s.memories ∧ s.uuids ≤ t.uuids ∧
        EdgesStored memoryId (keys ++ (rel.edge? env userId bank memoryId).toList) old t.entityEdges)
      (addRelation env userId bank memoryId relationIds rel) s := by
  rw [addRelation, wp_bind, wp_attempt]
  rcases storeRelation_exec env userId bank memoryId rel s with ⟨hnone, e, he⟩ | ⟨key, id, hkey, he⟩
  · refine wp_iff.mpr ⟨_, _, he, ⟨_, rfl⟩, rfl, Nat.le_refl _, ?_⟩
    rw [hnone]
    simpa using h
  · refine wp_iff.mpr ⟨_, _, he, ⟨_, rfl⟩, by simp, by simp, ?_⟩
    rw [hkey]
    have hafter : EdgesStored memoryId keys old
        ({ s with uuids := s.uuids + 1 } : MemoryStore).entityEdges := h
    exact hafter.insertEdge

theorem addMemory_exec (env : MemoryEnv) (userId bank content : String) (tags : List String)
    (metadata : Metadata) (s : MemoryStore) :
    ∃ r t, (addMemory env userId bank content tags metadata).exec s = some (.ok r, t) ∧
      r.memoryId = s.uuids ∧ s.uuids < t.uuids ∧
      t.memories = s.memories ++
        [⟨s.uuids, userId, bank, content, tags, mcpMemoryMetadata metadata, none⟩] ∧
      EdgesStored s.uuids (assertedEdges env userId bank s.uuids content) s.entityEdges
        t.entityEdges := by
  have h : wp (fun r t => ∃ a, r = .ok a ∧ a.memoryId = s.uuids ∧ s.uuids < t.uuids ∧
      t.memories = s.memories ++
        [⟨s.uuids, userId, bank, content, tags, mcpMemoryMetadata metadata, none⟩] ∧
      EdgesStored s.uuids (assertedEdges env userId bank s.uuids content) s.entityEdges
        t.entityEdges) (addMemory env userId bank content tags metadata) s := by
    rw [addMemory, storeMemory, memoryUuid]
    simp only [wp_bind, wp_act, seqPost, pure_eq, wp_ret]
    refine wp_foldM (fun rels _ t => s.uuids < t.uuids ∧ t.memories = s.memories ++
        [⟨s.uuids, userId, bank, content, tags, mcpMemoryMetadata metadata, none⟩] ∧
        EdgesStored s.uuids (rels.filterMap (ExtractedRelation.edge? env userId bank s.uuids))
          s.entityEdges t.entityEdges) ?_ ?_ ?_
    · exact ⟨Nat.lt_succ_self _, rfl, .nil⟩
    · rintro rels rel ids t - ⟨hu, hm, hst⟩
      refine (addRelation_wp hst).mono ?_
      rintro r t' ⟨⟨ids', rfl⟩, hm', hu', hst'⟩
      refine ⟨Nat.lt_of_lt_of_le hu hu', hm'.trans hm, ?_⟩
      have heq : (rels ++ [rel]).filterMap (ExtractedRelation.edge? env userId bank s.uuids) =
          rels.filterMap (ExtractedRelation.edge? env userId bank s.uuids) ++
            (rel.edge? env userId bank s.uuids).toList := by
        rw [List.filterMap_append]
        cases hrel : rel.edge? env userId bank s.uuids <;> simp [hrel]
      rw [heq]
      exact hst'
    · intro ids t ht
      exact ⟨_, rfl, rfl, ht⟩
  obtain ⟨r, t, he, a, rfl, hrest⟩ := wp_iff.mp h
  exact ⟨a, t, he, hrest⟩

end Lumogis
