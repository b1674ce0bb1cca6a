import Lumogis.Lib.Zoom
import Lumogis.EntityMerge
import Lumogis.Permissions
import Mathlib.Data.List.Sort

/-!
# Deduplication

`run_deduplication_job`: one snapshot of the user's personal entities is blocked into candidate
pairs, the pairs are scored, and every scored pair whose two ids are in the snapshot is merged,
queued for review or ignored, one after the other.

The scorer is Splink where it works and a weighted sum of features where it fails; `DedupEnv` takes
both from outside. What Splink returns is a table with columns of its own. Probabilities are the
rationals that the doubles stand for.
-/

namespace Lumogis

open Prog

/-! ## State -/

/-- A row of `known_distinct_entity_pairs`, with the table's check. -/
structure KnownDistinctRow where
  userId : String
  entityIdA : String
  entityIdB : String
  canonical : entityIdA < entityIdB

abbrev Features := List (String × Rat)

structure DedupCandidateRow where
  runId : String
  userId : String
  entityIdA : String
  entityIdB : String
  matchProbability : Rat
  features : Features

structure DedupRunRow where
  runId : String
  userId : String
  finished : Bool
  candidateCount : Option Nat
  autoMerged : Option Nat
  queuedForReview : Option Nat
  knownDistinct : Option Nat
  errorMessage : Option String

structure DedupStore where
  store : Store
  knownDistinct : List KnownDistinctRow
  dedupCandidates : List DedupCandidateRow
  runs : List DedupRunRow

def DedupStore.main : Lens DedupStore Store :=
  { get := store
    put := fun s t => { t with store := s }
    get_put := fun _ _ => rfl
    put_put := fun _ _ _ => rfl
    put_get := fun _ => rfl }

abbrev DedupM (α : Type) := Prog DedupStore PyErr α

/-- The two ids of a pair. -/
abbrev IdPair := String × String

/-- A record handed to Splink: a candidate pair and what is computed for it. -/
structure PairRecord where
  entityIdA : String
  entityIdB : String
  features : Features

/-- A row of Splink's predictions; a column that is missing is `none`. -/
structure SplinkRow where
  uniqueIdA : Option String
  entityIdAL : Option String
  uniqueIdB : Option String
  entityIdAR : Option String
  matchProbability : Option Rat

structure DedupEnv where
  base : Env
  /-- The hits of one nearest-neighbour search among the points, with their scores; `none` when the
  embedding or the search fails. -/
  search : String → List EntPoint → Option (List (EntPoint × Rat))
  /-- The order in which a set of pairs is iterated. -/
  setOrder : List IdPair → List IdPair
  setOrder_perm : ∀ xs, (setOrder xs).Perm xs
  pairFeatures : EntityRow → EntityRow → Rat → Features
  /-- `none` when loading, training or predicting raises. -/
  splink : List PairRecord → Option (List SplinkRow)
  fallbackProbability : Features → Rat
  newRunId : Nat → String
  /-- `f"\x7bprob:.3f\x7d"`. -/
  format3f : Rat → String

/-! ## Blocking -/

/-- `sorted([a, b])`. -/
def sortedPair (a b : String) : IdPair := if a ≤ b then (a, b) else (b, a)

/-- The pairs of a sorted list, each in order. -/
def orderedPairs : List String → List IdPair
  | [] => []
  | x :: xs => xs.map (fun y => (x, y)) ++ orderedPairs xs

/-- The pairs of entities with the same key; an entity without a key is in none. -/
def blockPairs (key : EntityRow → Option String) (entities : List EntityRow) : List IdPair :=
  (entities.filterMap key).eraseDups.flatMap fun k =>
    orderedPairs (((entities.filter fun e => key e == some k).map EntityRow.entityId).insertionSort
      fun a b => a ≤ b)

def normaliseName (env : DedupEnv) (name : String) : String :=
  Permissions.strip (env.base.lower name)

def buildTypeBlocks (entities : List EntityRow) : List IdPair :=
  blockPairs (fun e => some e.entityType) entities

def attrPrefixLen : Nat := 2

def buildAttrBlocks (env : DedupEnv) (entities : List EntityRow) : List IdPair :=
  blockPairs (fun e =>
    let norm := normaliseName env e.name
    if norm.length < attrPrefixLen then none else some (String.ofList (norm.toList.take attrPrefixLen)))
    entities

def dedupEmbedText (e : EntityRow) : String :=
  if e.aliases = [] then e.name else e.name ++ ": " ++ ", ".intercalate (e.aliases.take 3)

/-- The filter of the search. -/
def EntPoint.isPersonalOf (userId : String) (pt : EntPoint) : Bool :=
  pt.userId == userId && pt.scope == some .personal

/-- The pairs that the search for one entity yields, with their scores. -/
def annPairs (env : DedupEnv) (userId : String) (points : List EntPoint) (entities : List EntityRow)
    (e : EntityRow) : List (IdPair × Rat) :=
  if e.name = "" then []
  else
    ((env.search (dedupEmbedText e) (points.filter (EntPoint.isPersonalOf userId))).getD []).filterMap
      fun hit =>
        if hit.1.entityId = "" ∨ hit.1.entityId = e.entityId then none
        else if entities.any fun n => n.entityId == hit.1.entityId then
          some (sortedPair e.entityId hit.1.entityId, hit.2)
        else none

/-- The searches of one run read the same points: nothing is written before the routing. -/
def buildAnnBlocks (env : DedupEnv) (userId : String) (points : List EntPoint)
    (entities : List EntityRow) : List (IdPair × Rat) :=
  entities.flatMap (annPairs env userId points entities)

/-- `cos_sims.get(pair, 0.0)`: the best score that was seen. -/
def cosSim (hits : List (IdPair × Rat)) (pair : IdPair) : Rat :=
  hits.foldl (fun best hit => if hit.1 = pair ∧ best < hit.2 then hit.2 else best) 0

def buildCandidates (env : DedupEnv) (userId : String) (points : List EntPoint)
    (entities : List EntityRow) (knownDistinct : List IdPair) : List IdPair :=
  (buildTypeBlocks entities ++ buildAttrBlocks env entities ++
    (buildAnnBlocks env userId points entities).map Prod.fst).eraseDups.filter
      fun p => !knownDistinct.contains p

/-! ## Scoring -/

structure ScoredPair where
  entityIdA : String
  entityIdB : String
  matchProbability : Rat
  features : Features

def findEntity (entities : List EntityRow) (entityId : String) : Option EntityRow :=
  entities.find? fun e => e.entityId == entityId

/-- The records of the candidate pairs. -/
def pairRecords (env : DedupEnv) (entities : List EntityRow) (hits : List (IdPair × Rat))
    (candidates : List IdPair) : List PairRecord :=
  (env.setOrder candidates).filterMap fun p =>
    match findEntity entities p.1, findEntity entities p.2 with
    | some a, some b =>
      some { entityIdA := p.1, entityIdB := p.2, features := env.pairFeatures a b (cosSim hits p) }
    | _, _ => none

/-- `x or y or ""` on two columns. -/
def firstNonEmpty (x y : Option String) : String :=
  match x.filter (· ≠ "") with
  | some v => v
  | none => y.getD ""

/-- One prediction; the ids are put in order, the features are those of the record with these ids. -/
def scoredRow (records : List PairRecord) (row : SplinkRow) : ScoredPair :=
  let p := sortedPair (firstNonEmpty row.uniqueIdA row.entityIdAL)
    (firstNonEmpty row.uniqueIdB row.entityIdAR)
  { entityIdA := p.1
    entityIdB := p.2
    matchProbability := row.matchProbability.getD 0
    features := ((records.find? fun r => r.entityIdA == p.1 && r.entityIdB == p.2).map
      PairRecord.features).getD [] }

def fallbackScore (env : DedupEnv) (records : List PairRecord) : List ScoredPair :=
  records.map fun r =>
    { entityIdA := r.entityIdA, entityIdB := r.entityIdB
      matchProbability := env.fallbackProbability r.features, features := r.features }

def scoreCandidatesWithSplink (env : DedupEnv) (entities : List EntityRow)
    (hits : List (IdPair × Rat)) (candidates : List IdPair) : List ScoredPair :=
  let records := pairRecords env entities hits candidates
  if records = [] then []
  else
    match env.splink records with
    | none => fallbackScore env records
    | some rows => rows.map (scoredRow records)

/-! ## Routing -/

/-- The double nearest to 0.85. -/
def autoMergeThreshold : Rat := 7656119366529843 / 9007199254740992

def reviewThreshold : Rat := 1 / 2

def minMentionCountForAutoMerge : Nat := 2

inductive RouteOutcome where
  | autoMerged | queued | ignored
  deriving DecidableEq

/-- The winner's id and the loser's. -/
def selectWinner (a b : EntityRow) : IdPair :=
  if b.mentionCount < a.mentionCount then (a.entityId, b.entityId)
  else if a.mentionCount < b.mentionCount then (b.entityId, a.entityId)
  else if a.entityId ≤ b.entityId then (a.entityId, b.entityId)
  else (b.entityId, a.entityId)

def Db.hasEntity (db : Db) (entityId : String) : Bool :=
  db.entities.any fun r => r.entityId == entityId

/-- `INSERT INTO dedup_candidates`, with the table's check and foreign keys. -/
def insertDedupCandidate (row : DedupCandidateRow) : DedupM Unit :=
  Prog.actE .database fun s =>
    if row.entityIdA < row.entityIdB ∧ s.store.db.hasEntity row.entityIdA ∧
        s.store.db.hasEntity row.entityIdB ∧ s.runs.any (fun r => r.runId == row.runId) then
      (.ok (), { s with dedupCandidates := s.dedupCandidates ++ [row] })
    else (.error .database, s)

def insertReview (row : ReviewRow) : M Unit :=
  statementE fun db =>
    if db.hasEntity row.candidateAId ∧ db.hasEntity row.candidateBId then
      .ok ((), { db with reviewQueue := db.reviewQueue ++ [row] })
    else .error .database

/-- Two inserts, each on its own: one that fails is logged. -/
def insertCandidateAndQueue (env : DedupEnv) (runId userId a b : String) (prob : Rat)
    (features : Features) : DedupM Unit := do
  let p := if b < a then (b, a) else (a, b)
  let _ ← (insertDedupCandidate
    { runId := runId, userId := userId, entityIdA := p.1, entityIdB := p.2
      matchProbability := prob, features := features }).attempt
  let _ ← ((insertReview
    { candidateAId := p.1, candidateBId := p.2
      reason := "Splink dedup prob=" ++ env.format3f prob
      userId := userId, scope := .personal }).zoom DedupStore.main).attempt
  pure ()

def mentionedEnough (a b : EntityRow) : Bool :=
  decide (minMentionCountForAutoMerge ≤ a.mentionCount) &&
    decide (minMentionCountForAutoMerge ≤ b.mentionCount)

/-- Whether the pair was merged; a merge that raises is logged. -/
def autoMerge (pg : PgTypes) (env : DedupEnv) (userId : String) (a b : EntityRow) : DedupM Bool :=
  if mentionedEnough a b then do
    let r ← ((mergeEntities pg env.base (selectWinner a b).1 (selectWinner a b).2 userId).zoom
      DedupStore.main).attempt
    pure (match r with
      | .ok _ => true
      | .error _ => false)
  else pure false

def routePair (pg : PgTypes) (env : DedupEnv) (runId userId : String) (a b : EntityRow) (prob : Rat)
    (features : Features) : DedupM RouteOutcome :=
  if autoMergeThreshold ≤ prob then do
    let merged ← autoMerge pg env userId a b
    if merged then pure .autoMerged
    else do
      insertCandidateAndQueue env runId userId a.entityId b.entityId prob features
      pure .queued
  else if reviewThreshold ≤ prob then do
    insertCandidateAndQueue env runId userId a.entityId b.entityId prob features
    pure .queued
  else pure .ignored

/-! ## run_deduplication_job -/

structure DedupSummary where
  runId : Option String
  candidateCount : Nat
  autoMerged : Nat
  queuedForReview : Nat

def DedupSummary.empty : DedupSummary :=
  { runId := none, candidateCount := 0, autoMerged := 0, queuedForReview := 0 }

/-- The store with the run's row. -/
def DedupStore.beginRun (env : DedupEnv) (userId : String) (s : DedupStore) : DedupStore :=
  { s with runs := s.runs ++ [
    { runId := env.newRunId s.runs.length, userId := userId, finished := false
      candidateCount := none, autoMerged := none, queuedForReview := none, knownDistinct := none
      errorMessage := none }] }

def insertRun (env : DedupEnv) (userId : String) : DedupM String :=
  Prog.act .database fun s => (env.newRunId s.runs.length, s.beginRun env userId)

def updateRunRow (runId : String) (f : DedupRunRow → DedupRunRow) : DedupM Unit :=
  Prog.act .database fun s =>
    ((), { s with runs := Table.updateWhere (fun r => r.runId == runId) f s.runs })

def updateRun (runId : String) (candidateCount autoMerged queuedForReview knownDistinct : Nat) :
    DedupM Unit :=
  updateRunRow runId fun r => { r with
    finished := true
    candidateCount := some candidateCount
    autoMerged := some autoMerged
    queuedForReview := some queuedForReview
    knownDistinct := some knownDistinct
    errorMessage := none }

def updateRunError (runId errorMessage : String) : DedupM Unit :=
  updateRunRow runId fun r => { r with finished := true, errorMessage := some errorMessage }

/-- The snapshot. -/
def EntityRow.isDedupSource (userId : String) (r : EntityRow) : Bool :=
  r.userId == userId && !r.isStaged && r.scope == .personal

def snapshot (userId : String) (s : DedupStore) : List EntityRow :=
  s.store.db.entities.filter (EntityRow.isDedupSource userId)

/-- The pairs the user marked; a row goes with either of its entities. -/
def distinctPairs (userId : String) (s : DedupStore) : List IdPair :=
  (s.knownDistinct.filter fun r => r.userId == userId && s.store.db.hasEntity r.entityIdA &&
    s.store.db.hasEntity r.entityIdB).map fun r => (r.entityIdA, r.entityIdB)

def RouteOutcome.count (o : RouteOutcome) (counts : Nat × Nat) : Nat × Nat :=
  match o with
  | .autoMerged => (counts.1 + 1, counts.2)
  | .queued => (counts.1, counts.2 + 1)
  | .ignored => counts

def routeItem (pg : PgTypes) (env : DedupEnv) (runId userId : String) (entities : List EntityRow)
    (counts : Nat × Nat) (item : ScoredPair) : DedupM (Nat × Nat) :=
  match findEntity entities item.entityIdA, findEntity entities item.entityIdB with
  | some a, some b => do
    let o ← routePair pg env runId userId a b item.matchProbability item.features
    pure (o.count counts)
  | _, _ => pure counts

def dedupBody (pg : PgTypes) (env : DedupEnv) (userId runId : String) : DedupM DedupSummary := do
  let entities ← Prog.query .database (snapshot userId)
  let knownDistinct ← Prog.query .database (distinctPairs userId)
  let points ← Prog.query .vectorStore fun s => s.store.entityPoints
  let candidates := buildCandidates env userId points entities knownDistinct
  let scored := scoreCandidatesWithSplink env entities (buildAnnBlocks env userId points entities)
    candidates
  let counts ← Prog.foldM (routeItem pg env runId userId entities) (0, 0) scored
  updateRun runId scored.length counts.1 counts.2 knownDistinct.length
  pure { runId := some runId, candidateCount := scored.length, autoMerged := counts.1
         queuedForReview := counts.2 }

def runDeduplicationJob (pg : PgTypes) (env : DedupEnv) (userId : String) : DedupM DedupSummary := do
  match ← (insertRun env userId).attempt with
  | .error _ => pure .empty
  | .ok runId => do
    match ← (dedupBody pg env userId runId).attempt with
    | .ok summary => pure summary
    | .error e => do
      let _ ← (updateRunError runId (String.ofList ((env.base.strError e).toList.take 1000))).attempt
      pure { DedupSummary.empty with runId := some runId }

end Lumogis
