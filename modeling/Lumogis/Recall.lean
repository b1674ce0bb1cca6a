import Lumogis.MemoryWrites
import Lumogis.Permissions
import Lumogis.Lib.RankFusion
import Lumogis.Lib.Table
import Mathlib

/-!
# Lumogis.Recall

`services/recall.py`: the ranked lists of the four legs are fused, the fused memories are read from
Postgres, where those that have ended are dropped, and a reranker may order the best of them anew. Its
answer takes the place of all that was found, so that a recall returns as much as it found and may
return exactly when no reranker answers, or when its fan-in does not cut what is wanted
(`recall_returns_best`).

The times are those of the database clock. The arithmetic of the scores is that of the environment.
-/

namespace Lumogis

open RankFusion

inductive Strategy where
  | semantic | bm25 | graph | temporal
  deriving DecidableEq

/-- `_VALID_STRATEGIES`. -/
def validStrategies : List Strategy := [.semantic, .bm25, .graph, .temporal]

def Strategy.ofName : String → Option Strategy
  | "semantic" => some .semantic
  | "bm25" => some .bm25
  | "graph" => some .graph
  | "temporal" => some .temporal
  | _ => none

structure TimedMemory extends MemoryRow where
  validFrom : Nat
  deriving DecidableEq

structure RecallStore where
  memories : List TimedMemory
  entityEdges : List EntityEdgeRow
  /-- `id` is the primary key. -/
  ids_nodup : (memories.map fun m => m.id).Nodup

structure Candidate where
  text : String
  memoryId : Nat

/-- The port: the candidates by their relevance, at least as many as the limit allows. -/
structure Reranker where
  rerank : (query : String) → (candidates : List Candidate) → (limit : Nat) → List Candidate
  reorders : ∀ query candidates limit,
    ∃ (p : List Candidate) (k : Nat), p.Perm candidates ∧ limit ≤ k ∧ rerank query candidates limit = p.take k

structure RecallEnv (F : Type) where
  /-- The `memory_id`s of the hits in Qdrant, with the filter on the user and the bank. -/
  search : (query userId bank : String) → List (Option Nat)
  /-- `content_tsv @@ websearch_to_tsquery('english', query)`, and `ts_rank_cd`. -/
  tsMatches : (content query : String) → Bool
  tsRank : (content query : String) → Nat
  /-- `entity_ids_for_query`. -/
  seedEntities : (query userId : String) → List Nat
  /-- The leg raises, or is not done within its five seconds. -/
  legFails : Strategy → Bool
  reranker : Option Reranker
  /-- The reranker raises. -/
  rerankFails : Bool
  /-- `1.0 / n`. -/
  recip : Nat → F

structure RecallRequest where
  userId : String
  bank : String
  query : String
  limit : Int
  retrievalStrategies : List String
  asOf : Nat
  rerank : Bool
  deriving DecidableEq

def rrfK : Nat := 60

def candidateK : Nat := 50

def rerankFanin : Nat := 20

def maxLimit : Nat := 100

/-! ## Banks -/

def knownBanks : List String := ["coding", "personal", "default"]

def isCrossBank (bank : String) : Bool := bank == "*"

def validateBankForRecall (bank : String) : Option String :=
  let bank := Permissions.strip bank
  if isCrossBank bank || knownBanks.contains bank then some bank else none

/-- `AND bank = %s`, which a recall across the banks leaves out. -/
def inBank (bank rowBank : String) : Bool := isCrossBank bank || rowBank == bank

/-- `valid_until IS NULL OR valid_until >= as_of`. -/
def notEnded (asOf : Nat) (validUntil : Option Nat) : Bool := validUntil.all fun t => decide (asOf ≤ t)

/-! ## The legs -/

section Legs

variable {F : Type} (env : RecallEnv F) (store : RecallStore) (req : RecallRequest)

/-- `_leg_semantic`. -/
def legSemantic : List Nat := (env.search req.query req.userId req.bank).filterMap fun memoryId => memoryId

/-- `_leg_bm25`. -/
def legBm25 : List Nat :=
  let rows := store.memories.filter fun m =>
    m.userId == req.userId && inBank req.bank m.bank && notEnded req.asOf m.validUntil &&
      env.tsMatches m.content req.query
  let ordered := rows.mergeSort fun a b => decide (env.tsRank b.content req.query ≤ env.tsRank a.content req.query)
  (ordered.take candidateK).map fun m => m.id

def memoriesForEntities (entityIds : List Nat) : List Nat :=
  let rows := store.entityEdges.filter fun e =>
    e.key.userId == req.userId && inBank req.bank e.key.bank &&
      (entityIds.contains e.key.srcEntityId || entityIds.contains e.key.dstEntityId) &&
      notEnded req.asOf e.validUntil
  (rows.filterMap EntityEdgeRow.evidenceId).dedup

/-- `_leg_graph`. -/
def legGraph : List Nat :=
  let seedIds := env.seedEntities req.query req.userId
  if seedIds = [] then [] else memoriesForEntities store req seedIds

/-- `_leg_temporal`. -/
def legTemporal : List Nat :=
  let rows := store.memories.filter fun m =>
    m.userId == req.userId && inBank req.bank m.bank && notEnded req.asOf m.validUntil
  let ordered := rows.mergeSort fun a b => decide (b.validFrom ≤ a.validFrom)
  (ordered.take candidateK).map fun m => m.id

def leg : Strategy → List Nat
  | .semantic => legSemantic env req
  | .bm25 => legBm25 env store req
  | .graph => legGraph env store req
  | .temporal => legTemporal store req

/-- `_run_leg`. -/
def runLeg (s : Strategy) : List Nat := if env.legFails s then [] else leg env store req s

def requestedStrategies : List Strategy :=
  let requested := req.retrievalStrategies.filterMap Strategy.ofName
  if requested = [] then validStrategies else requested

def ranked (s : Strategy) : List Nat :=
  if s ∈ requestedStrategies req then runLeg env store req s else []

/-! ## Fusion and hydration -/

/-- What each leg gives to the ids of its list. -/
def rrfPosts (lists : Strategy → List Nat) : List (Post Nat Strategy F) :=
  validStrategies.flatMap fun s =>
    (lists s).zipIdx.map fun p => { item := p.1, source := s, weight := env.recip (rrfK + p.2) }

variable [Zero F] [Add F] [LinearOrder F]

/-- `_rrf`. -/
def rrf (lists : Strategy → List Nat) : List (Entry Nat Strategy F) := bestFirst (fuse (rrfPosts env lists))

omit [Zero F] [Add F] [LinearOrder F]

structure HydratedRow where
  memory : TimedMemory
  entityIds : List Nat

/-- `ARRAY_AGG(DISTINCT eid)` over the edges that have the memory as their evidence. -/
def entityIdsOf (memoryId : Nat) : List Nat :=
  let rows := store.entityEdges.filter fun e =>
    e.evidenceId == some memoryId && e.key.userId == req.userId && notEnded req.asOf e.validUntil
  (rows.flatMap fun e => [e.key.srcEntityId, e.key.dstEntityId]).dedup

/-- `_hydrate`. -/
def hydrate (ids : List Nat) : List HydratedRow :=
  let rows := store.memories.filter fun m =>
    ids.contains m.id && m.userId == req.userId && notEnded req.asOf m.validUntil
  (rows.filter fun m => inBank req.bank m.bank).map fun m => ⟨m, entityIdsOf store req m.id⟩

end Legs

/-! ## The recall -/

structure RecallResult (F : Type) where
  fused : Entry Nat Strategy F
  row : HydratedRow

structure RecalledMemory (F : Type) where
  id : Nat
  content : String
  entityIds : List Nat
  validFrom : Nat
  validUntil : Option Nat
  score : F
  sourceStrategies : List Strategy

def RecallResult.memory {F : Type} (r : RecallResult F) : RecalledMemory F where
  id := r.fused.item
  content := r.row.memory.content
  entityIds := r.row.entityIds
  validFrom := r.row.memory.validFrom
  validUntil := r.row.memory.validUntil
  score := r.fused.score
  sourceStrategies := r.fused.sources

def RecallResult.candidate {F : Type} (r : RecallResult F) : Candidate := ⟨r.row.memory.content, r.fused.item⟩

def clampLimit (limit : Int) : Nat := (max 1 (min limit maxLimit)).toNat

/-- The request with its bank as it is compared; `none` if nothing is searched. -/
def RecallRequest.accepted (req : RecallRequest) : Option RecallRequest :=
  if Permissions.strip req.query = "" then none
  else (validateBankForRecall req.bank).map fun bank => { req with bank := bank }

section Recall

variable {F : Type} [Zero F] [Add F] [LinearOrder F]
variable (env : RecallEnv F) (store : RecallStore) (req : RecallRequest)

/-- The fused ids that survive the hydration, in their order. -/
def recallResults : List (RecallResult F) :=
  let fused := rrf env (ranked env store req)
  let hydrated := hydrate store req (fused.map Entry.item)
  fused.filterMap fun e => (hydrated.find? fun row => row.memory.id == e.item).map fun row => ⟨e, row⟩

omit [Zero F] [Add F] [LinearOrder F] in
/-- The reranker that answers; `none` if the request or the configuration has none, or if it raises. -/
def answeringReranker : Option Reranker := if req.rerank && !env.rerankFails then env.reranker else none

omit [Zero F] [Add F] [LinearOrder F] in
/-- The results in the order of the answer. -/
def rerankedResults (results : List (RecallResult F)) : List (RecallResult F) :=
  (answeringReranker env req).elim results fun reranker =>
    let candidates := (results.take rerankFanin).map RecallResult.candidate
    (reranker.rerank req.query candidates (clampLimit req.limit)).filterMap fun c =>
      results.find? fun r => r.fused.item == c.memoryId

def recallMemories : List (RecalledMemory F) :=
  req.accepted.elim [] fun req =>
    ((rerankedResults env req (recallResults env store req)).take (clampLimit req.limit)).map RecallResult.memory

/-! ## What is found -/

omit [Zero F] [Add F] [LinearOrder F] in
/-- The memory is the user's, of the bank, and has not ended. -/
def recallable (m : TimedMemory) : Bool :=
  m.userId == req.userId && notEnded req.asOf m.validUntil && inBank req.bank m.bank

omit [Zero F] [Add F] [LinearOrder F] in
/-- The recallable memories that a leg lists. -/
def foundMemories : List TimedMemory :=
  store.memories.filter fun m =>
    recallable req m && validStrategies.any fun s => (ranked env store req s).contains m.id

omit [LinearOrder F] in
/-- A memory with what the legs give to it. -/
def resultOf (m : TimedMemory) : RecallResult F where
  fused := entryOf (rrfPosts env (ranked env store req)) m.id
  row := ⟨m, entityIdsOf store req m.id⟩

/-- The results are the memories that are found, the best first. -/
structure FoundInOrder (l : List TimedMemory) : Prop where
  perm : l.Perm (foundMemories env store req)
  results : recallResults env store req = l.map (resultOf env store req)
  ordered : l.Pairwise fun a b => (resultOf env store req b).fused.score ≤ (resultOf env store req a).fused.score

variable {env store req}

omit [Zero F] [Add F] [LinearOrder F] in
theorem mem_rrfPosts {lists : Strategy → List Nat} {id : Nat} :
    (∃ p ∈ rrfPosts env lists, p.item = id) ↔ ∃ s ∈ validStrategies, id ∈ lists s := by
  constructor
  · rintro ⟨p, hp, rfl⟩
    simp only [rrfPosts, List.mem_flatMap, List.mem_map] at hp
    obtain ⟨s, hs, q, hq, rfl⟩ := hp
    exact ⟨s, hs, List.fst_mem_of_mem_zipIdx hq⟩
  · rintro ⟨s, hs, hid⟩
    rw [← List.zipIdx_map_fst 0 (lists s)] at hid
    obtain ⟨q, hq, rfl⟩ := List.mem_map.mp hid
    exact ⟨_, List.mem_flatMap.mpr ⟨s, hs, List.mem_map_of_mem hq⟩, rfl⟩

omit [Zero F] [Add F] [LinearOrder F] in
theorem mem_hydrate {ids : List Nat} {row : HydratedRow} : row ∈ hydrate store req ids ↔
    row.memory ∈ store.memories ∧ row.memory.id ∈ ids ∧ recallable req row.memory = true ∧
      row.entityIds = entityIdsOf store req row.memory.id := by
  simp only [hydrate, List.mem_map, List.mem_filter, Bool.and_eq_true, List.contains_iff_mem, recallable]
  constructor
  · rintro ⟨m, ⟨⟨hm, ⟨hid, huser⟩, hvalid⟩, hbank⟩, rfl⟩
    exact ⟨hm, hid, ⟨⟨huser, hvalid⟩, hbank⟩, rfl⟩
  · rintro ⟨hm, hid, ⟨⟨huser, hvalid⟩, hbank⟩, hedges⟩
    refine ⟨row.memory, ⟨⟨hm, ⟨hid, huser⟩, hvalid⟩, hbank⟩, ?_⟩
    rw [← hedges]

omit [Zero F] [Add F] [LinearOrder F] in
theorem find_hydrate {ids : List Nat} {m : TimedMemory} (hm : m ∈ store.memories) (hid : m.id ∈ ids)
    (hrec : recallable req m = true) :
    (hydrate store req ids).find? (fun row => row.memory.id == m.id) = some ⟨m, entityIdsOf store req m.id⟩ := by
  have hrow : (⟨m, entityIdsOf store req m.id⟩ : HydratedRow) ∈ hydrate store req ids :=
    mem_hydrate.mpr ⟨hm, hid, hrec, rfl⟩
  have hnodup : ((hydrate store req ids).map fun row => row.memory.id).Nodup := by
    rw [hydrate, List.map_map]
    exact store.ids_nodup.sublist ((List.filter_sublist.trans List.filter_sublist).map fun m : TimedMemory => m.id)
  exact Table.find?_of_nodup hnodup hrow

theorem mem_rrf {lists : Strategy → List Nat} {e : Entry Nat Strategy F} (he : e ∈ rrf env lists) :
    e = entryOf (rrfPosts env lists) e.item ∧ ∃ s ∈ validStrategies, e.item ∈ lists s := by
  have hfuse : e ∈ fuse (rrfPosts env lists) := List.mem_mergeSort.mp he
  have hfused := fused_fuse (rrfPosts env lists)
  exact ⟨hfused.entries e hfuse, mem_rrfPosts.mp ((hfused.items e.item).mp (List.mem_map_of_mem hfuse))⟩

theorem rrf_item (env : RecallEnv F) {lists : Strategy → List Nat} {id : Nat} (h : ∃ s ∈ validStrategies, id ∈ lists s) :
    id ∈ (rrf env lists).map Entry.item := by
  have hfuse := (fused_fuse (rrfPosts env lists)).items id |>.mpr (mem_rrfPosts.mpr h)
  exact ((List.mergeSort_perm _ _).map Entry.item).mem_iff.mpr hfuse

theorem rrf_nodup (env : RecallEnv F) (lists : Strategy → List Nat) : ((rrf env lists).map Entry.item).Nodup :=
  ((List.mergeSort_perm _ _).map Entry.item).nodup_iff.mpr (fused_fuse _).nodup

omit [Zero F] [Add F] [LinearOrder F] in
theorem mem_foundMemories {m : TimedMemory} : m ∈ foundMemories env store req ↔
    m ∈ store.memories ∧ recallable req m = true ∧ ∃ s ∈ validStrategies, m.id ∈ ranked env store req s := by
  simp [foundMemories, List.any_eq_true]

theorem mem_recallResults {r : RecallResult F} : r ∈ recallResults env store req ↔
    ∃ m ∈ foundMemories env store req, r = resultOf env store req m := by
  simp only [recallResults, List.mem_filterMap, Option.map_eq_some_iff]
  constructor
  · rintro ⟨e, he, row, hfind, rfl⟩
    obtain ⟨hentry, hlisted⟩ := mem_rrf he
    have hid : row.memory.id = e.item := by simpa using List.find?_some hfind
    obtain ⟨hm, -, hrec, hedges⟩ := mem_hydrate.mp (List.mem_of_find?_eq_some hfind)
    refine ⟨row.memory, mem_foundMemories.mpr ⟨hm, hrec, hid ▸ hlisted⟩, ?_⟩
    rw [resultOf, hid, ← hentry, ← hid, ← hedges]
  · rintro ⟨m, hm, rfl⟩
    obtain ⟨hm, hrec, hlisted⟩ := mem_foundMemories.mp hm
    have hid := rrf_item env hlisted
    obtain ⟨e, he, hitem⟩ := List.mem_map.mp hid
    refine ⟨e, he, ⟨m, entityIdsOf store req m.id⟩, ?_, ?_⟩
    · rw [hitem]
      exact find_hydrate hm hid hrec
    · rw [resultOf, ← hitem, ← (mem_rrf he).1]

theorem recallResults_nodup : ((recallResults env store req).map fun r => r.fused.item).Nodup := by
  refine (rrf_nodup env (ranked env store req)).sublist (Table.map_filterMap_sublist ?_)
  intro e r h
  obtain ⟨row, -, rfl⟩ := Option.map_eq_some_iff.mp h
  rfl

theorem pairwise_recallResults (env : RecallEnv F) (store : RecallStore) (req : RecallRequest) :
    (recallResults env store req).Pairwise fun a b => b.fused.score ≤ a.fused.score := by
  refine (pairwise_bestFirst _).filterMap _ ?_
  intro a a' hle b hb b' hb'
  obtain ⟨row, -, rfl⟩ := Option.map_eq_some_iff.mp hb
  obtain ⟨row', -, rfl⟩ := Option.map_eq_some_iff.mp hb'
  exact hle

theorem found_in_order (env : RecallEnv F) (store : RecallStore) (req : RecallRequest) :
    ∃ l, FoundInOrder env store req l := by
  have hresult : ∀ r ∈ recallResults env store req, resultOf env store req r.row.memory = r := by
    intro r hr
    obtain ⟨m, -, rfl⟩ := mem_recallResults.mp hr
    rfl
  have hresults : recallResults env store req =
      ((recallResults env store req).map fun r => r.row.memory).map (resultOf env store req) := by
    rw [List.map_map]
    exact (List.map_id _).symm.trans (List.map_congr_left fun r hr => (hresult r hr).symm)
  refine ⟨(recallResults env store req).map fun r => r.row.memory, ?_, hresults, ?_⟩
  · have hnodup : ((recallResults env store req).map fun r => r.row.memory).Nodup := by
      apply List.Nodup.of_map fun m : TimedMemory => m.id
      rw [List.map_map]
      have hids : (recallResults env store req).map ((fun m : TimedMemory => m.id) ∘ fun r => r.row.memory) =
          (recallResults env store req).map fun r => r.fused.item :=
        List.map_congr_left fun r hr => congrArg (fun r => r.fused.item) (hresult r hr)
      rw [hids]
      exact recallResults_nodup
    have hfound : (foundMemories env store req).Nodup := (List.Nodup.of_map _ store.ids_nodup).filter _
    rw [List.perm_ext_iff_of_nodup hnodup hfound]
    intro m
    rw [List.mem_map]
    constructor
    · rintro ⟨r, hr, rfl⟩
      obtain ⟨m, hm, rfl⟩ := mem_recallResults.mp hr
      exact hm
    · intro hm
      exact ⟨_, mem_recallResults.mpr ⟨m, hm, rfl⟩, rfl⟩
  · have hpairwise := pairwise_recallResults env store req
    rw [hresults, List.pairwise_map] at hpairwise
    exact hpairwise

/-! ## The reranker -/

theorem rerankedResults_of_some (store : RecallStore) {reranker : Reranker} (h : answeringReranker env req = some reranker) :
    ∃ (p : List (RecallResult F)) (k : Nat), p.Perm ((recallResults env store req).take rerankFanin) ∧
      clampLimit req.limit ≤ k ∧ rerankedResults env req (recallResults env store req) = p.take k := by
  have hfind : ∀ r ∈ recallResults env store req,
      ((recallResults env store req).find? fun x => x.fused.item == r.candidate.memoryId) = some r := by
    intro r hr
    exact Table.find?_of_nodup recallResults_nodup hr
  obtain ⟨q, k, hperm, hk, hq⟩ := reranker.reorders req.query
    (((recallResults env store req).take rerankFanin).map RecallResult.candidate) (clampLimit req.limit)
  have hsome : ∀ c ∈ q, ((recallResults env store req).find? fun x => x.fused.item == c.memoryId).isSome := by
    intro c hc
    obtain ⟨r, hr, rfl⟩ := List.mem_map.mp (hperm.mem_iff.mp hc)
    rw [hfind r (List.mem_of_mem_take hr)]
    rfl
  refine ⟨q.filterMap fun c => (recallResults env store req).find? fun x => x.fused.item == c.memoryId, k, ?_, hk, ?_⟩
  · have hself : (((recallResults env store req).take rerankFanin).map RecallResult.candidate).filterMap
        (fun c => (recallResults env store req).find? fun x => x.fused.item == c.memoryId) =
        (recallResults env store req).take rerankFanin := by
      rw [List.filterMap_map]
      conv_rhs => rw [← List.filterMap_some (l := (recallResults env store req).take rerankFanin)]
      exact List.filterMap_congr fun r hr => hfind r (List.mem_of_mem_take hr)
    rw [← hself]
    exact hperm.filterMap _
  · simp only [rerankedResults, h, Option.elim_some, hq]
    exact Table.filterMap_take hsome k

/-- What is returned are the first of the memories that are found, in some order. -/
structure BestOfFound (env : RecallEnv F) (store : RecallStore) (req : RecallRequest)
    (out : List (RecalledMemory F)) : Prop where
  count : out.length = min (clampLimit req.limit) (foundMemories env store req).length
  distinct : (out.map fun m => m.id).Nodup
  recallable : ∀ m ∈ out, ∃ row ∈ store.memories, row.id = m.id ∧ recallable req row = true
  reordered : ∃ p : List TimedMemory, p.Perm (foundMemories env store req) ∧
    out = (p.take (clampLimit req.limit)).map fun m => (resultOf env store req m).memory
  best : answeringReranker env req = none → ∀ row ∈ foundMemories env store req, row.id ∉ out.map (fun m => m.id) →
    ∀ m ∈ out, (resultOf env store req row).memory.score ≤ m.score

def ReturnsBest (env : RecallEnv F) (store : RecallStore) (req : RecallRequest) : Prop :=
  (req.accepted = none → recallMemories env store req = []) ∧
    ∀ r, req.accepted = some r → BestOfFound env store r (recallMemories env store req)

theorem BestOfFound.of_perm {p : List TimedMemory} (hperm : p.Perm (foundMemories env store req))
    (hordered : answeringReranker env req = none →
      p.Pairwise fun a b => (resultOf env store req b).fused.score ≤ (resultOf env store req a).fused.score) :
    BestOfFound env store req
      ((p.take (clampLimit req.limit)).map fun m => (resultOf env store req m).memory) where
  count := by
    rw [List.length_map, List.length_take, hperm.length_eq]
  distinct := by
    have hids : (p.map fun m : TimedMemory => m.id).Nodup :=
      (hperm.map _).nodup_iff.mpr (store.ids_nodup.sublist (List.filter_sublist.map _))
    rw [List.map_map]
    exact hids.sublist ((List.take_sublist _ _).map _)
  recallable := by
    intro m hm
    obtain ⟨row, hrow, rfl⟩ := List.mem_map.mp hm
    obtain ⟨hmem, hrec, -⟩ := mem_foundMemories.mp (hperm.mem_iff.mp (List.mem_of_mem_take hrow))
    exact ⟨row, hmem, rfl, hrec⟩
  reordered := ⟨p, hperm, rfl⟩
  best := by
    intro hnone row hrow hout m hm
    obtain ⟨kept, hkept, rfl⟩ := List.mem_map.mp hm
    have hp := hperm.mem_iff.mpr hrow
    rw [← List.take_append_drop (clampLimit req.limit) p, List.mem_append] at hp
    rcases hp with hp | hp
    · exact absurd (List.mem_map_of_mem (List.mem_map_of_mem hp)) hout
    · exact score_le_of_cut (hordered hnone) _ hkept hp

theorem recall_of_accepted {r : RecallRequest} (h : req.accepted = some r) : recallMemories env store req =
    ((rerankedResults env r (recallResults env store r)).take (clampLimit r.limit)).map RecallResult.memory := by
  rw [recallMemories, h]
  rfl

theorem recall_of_none (env : RecallEnv F) (store : RecallStore) {r : RecallRequest} (h : req.accepted = some r) (hnone : answeringReranker env r = none) :
    BestOfFound env store r (recallMemories env store req) := by
  obtain ⟨l, hl⟩ := found_in_order env store r
  have hkept : rerankedResults env r (recallResults env store r) = l.map (resultOf env store r) := by
    rw [rerankedResults, hnone, hl.results]
    rfl
  rw [recall_of_accepted h, hkept, ← List.map_take, List.map_map]
  exact BestOfFound.of_perm hl.perm fun _ => hl.ordered

theorem recall_of_some (store : RecallStore) {r : RecallRequest} {reranker : Reranker} (h : req.accepted = some r)
    (hsome : answeringReranker env r = some reranker) :
    ∃ l p : List TimedMemory, l.Perm (foundMemories env store r) ∧ p.Perm (l.take rerankFanin) ∧
      recallMemories env store req = (p.take (clampLimit r.limit)).map fun m => (resultOf env store r m).memory := by
  obtain ⟨l, hl⟩ := found_in_order env store r
  obtain ⟨q, k, hperm, hk, hreranked⟩ := rerankedResults_of_some store hsome
  rw [hl.results, ← List.map_take] at hperm
  have hq : q = (q.map fun x => x.row.memory).map (resultOf env store r) := by
    rw [List.map_map]
    refine (List.map_id _).symm.trans (List.map_congr_left ?_)
    intro x hx
    obtain ⟨m, -, rfl⟩ := List.mem_map.mp (hperm.mem_iff.mp hx)
    rfl
  refine ⟨l, q.map fun x => x.row.memory, hl.perm, ?_, ?_⟩
  · have hmemories := hperm.map fun x => x.row.memory
    rw [List.map_map] at hmemories
    exact hmemories.trans (List.Perm.of_eq (List.map_id _))
  · rw [recall_of_accepted h, hreranked, List.take_take, Nat.min_eq_left hk]
    conv_lhs => rw [hq]
    rw [← List.map_take, List.map_map]
    rfl

theorem recall_length_of_some (env : RecallEnv F) (store : RecallStore) {r : RecallRequest} {reranker : Reranker} (h : req.accepted = some r)
    (hsome : answeringReranker env r = some reranker) :
    (recallMemories env store req).length =
      min (clampLimit r.limit) (min rerankFanin (foundMemories env store r).length) := by
  obtain ⟨l, p, hl, hp, hrecall⟩ := recall_of_some store h hsome
  rw [hrecall, List.length_map, List.length_take, hp.length_eq, List.length_take, hl.length_eq]

theorem recall_returns_best (env : RecallEnv F) (store : RecallStore) (req : RecallRequest) :
    ReturnsBest env store req ↔ ∀ r, req.accepted = some r →
      answeringReranker env r = none ∨ clampLimit r.limit ≤ rerankFanin ∨
        (foundMemories env store r).length ≤ rerankFanin := by
  constructor
  · rintro ⟨-, hbest⟩ r hr
    cases hanswer : answeringReranker env r with
    | none => exact Or.inl rfl
    | some reranker =>
      have hcount := (hbest r hr).count
      rw [recall_length_of_some env store hr hanswer] at hcount
      omega
  · intro hfits
    refine ⟨fun hnone => by rw [recallMemories, hnone]; rfl, ?_⟩
    intro r hr
    cases hanswer : answeringReranker env r with
    | none => exact recall_of_none env store hr hanswer
    | some reranker =>
      obtain ⟨l, p, hl, hp, hrecall⟩ := recall_of_some store hr hanswer
      have hshort : clampLimit r.limit ≤ rerankFanin ∨ l.length ≤ rerankFanin := by
        rw [hl.length_eq]
        exact (hfits r hr).resolve_left (by rw [hanswer]; exact Option.some_ne_none _)
      have hlen := hp.length_eq
      rw [List.length_take] at hlen
      have hall : (p ++ l.drop rerankFanin).Perm (foundMemories env store r) := by
        refine List.Perm.trans ?_ hl
        conv_rhs => rw [← List.take_append_drop rerankFanin l]
        exact hp.append_right _
      -- What was not asked about is beyond the limit, or there is none of it.
      have htake : (p ++ l.drop rerankFanin).take (clampLimit r.limit) = p.take (clampLimit r.limit) := by
        rw [List.take_append]
        have hrest : (l.drop rerankFanin).take (clampLimit r.limit - p.length) = [] := by
          rw [← List.length_eq_zero_iff, List.length_take, List.length_drop]
          omega
        rw [hrest, List.append_nil]
      rw [hrecall, ← htake]
      exact BestOfFound.of_perm hall fun hnone => absurd (hanswer.symm.trans hnone) (Option.some_ne_none _)

end Recall

/-! ## More than the fan-in -/

namespace Reranking

/-- Keeps the order. -/
def reranker : Reranker where
  rerank := fun _ candidates limit => candidates.take limit
  reorders := fun _ candidates limit => ⟨candidates, limit, List.Perm.refl _, le_refl _, rfl⟩

def env : RecallEnv ℚ where
  search := fun _ _ _ => []
  tsMatches := fun _ _ => false
  tsRank := fun _ _ => 0
  seedEntities := fun _ _ => []
  legFails := fun _ => false
  reranker := some reranker
  rerankFails := false
  recip := fun n => 1 / (n : ℚ)

def note (id : Nat) : TimedMemory where
  id := id
  userId := "ann"
  bank := "coding"
  content := "a note"
  tags := []
  metadata := []
  validUntil := none
  validFrom := id

def notes : List TimedMemory := (List.range 25).map note

def store : RecallStore where
  memories := notes
  entityEdges := []
  ids_nodup := by
    have hids : notes.map (fun m => m.id) = List.range 25 := by
      rw [notes, List.map_map]
      exact List.map_id _
    rw [hids]
    exact List.nodup_range

def request : RecallRequest where
  userId := "ann"
  bank := "coding"
  query := "notes"
  limit := 30
  retrievalStrategies := ["temporal"]
  asOf := 100
  rerank := true

theorem temporal_lists_notes {m : TimedMemory} (hm : m ∈ notes) : m.id ∈ ranked env store request .temporal := by
  have hrows : (store.memories.filter fun m => m.userId == request.userId && inBank request.bank m.bank &&
      notEnded request.asOf m.validUntil) = notes := by decide +kernel
  have hranked : ranked env store request .temporal = legTemporal store request := by
    rw [ranked, if_pos (by decide +kernel)]
    rfl
  rw [hranked, legTemporal, hrows, List.take_of_length_le]
  · exact List.mem_map_of_mem (List.mem_mergeSort.mpr hm)
  · rw [List.length_mergeSort]
    decide

/-- Of 25 memories, 30 are asked for and 20 are returned. -/
theorem recall_returns_twenty : ¬ ReturnsBest env store request := by
  rintro ⟨-, hbest⟩
  have haccepted : request.accepted = some request := by decide +kernel
  have hrecallable : ∀ m ∈ notes, recallable request m = true := by decide +kernel
  have hfound : foundMemories env store request = notes := by
    refine List.filter_eq_self.mpr ?_
    intro m hm
    rw [hrecallable m hm, Bool.true_and, List.any_eq_true]
    exact ⟨.temporal, by decide, List.contains_iff_mem.mpr (temporal_lists_notes hm)⟩
  have hshort := recall_length_of_some env store haccepted rfl
  have hcount := (hbest request haccepted).count
  rw [hshort, hfound] at hcount
  exact absurd hcount (by decide)

end Reranking

end Lumogis
