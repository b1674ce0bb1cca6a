import Lumogis.Lib.Contraction
import Lumogis.Deduplication
import Lumogis.MergeComplete
import Lumogis.MergeProjections

/-!
# DedupDecisions

What a run of the deduplication job does with the user's decisions (`RespectsDecisions`).

The pairs are routed one by one against the snapshot. A merge names entities that are still there,
since `merge_entities` looks for both; but nobody asks whether a scored pair is a candidate, and the
decisions are only subtracted from the candidates: two pairs that may be merged can join two
entities that may not. `decisions_respected` says what has to hold of the scorer's output. As long
as the text of an id is no INTEGER literal no merge gets through, and the first of its two
conditions is all.
-/

namespace Lumogis

open Prog

/-! ## A run, pair by pair -/

/-- One routed pair, and the state in which it was routed. -/
structure RouteEvent where
  a : EntityRow
  b : EntityRow
  outcome : RouteOutcome
  before : DedupStore

/-- The rows of the snapshot that a scored pair names. -/
def namedRows (entities : List EntityRow) (item : ScoredPair) : Option (EntityRow × EntityRow) :=
  match findEntity entities item.entityIdA, findEntity entities item.entityIdB with
  | some a, some b => some (a, b)
  | _, _ => none

def routeTrace (pg : PgTypes) (env : DedupEnv) (runId userId : String) (entities : List EntityRow) :
    List ScoredPair → DedupStore → List RouteEvent
  | [], _ => []
  | item :: items, s =>
    match namedRows entities item with
    | none => routeTrace pg env runId userId entities items s
    | some (a, b) =>
      match (routePair pg env runId userId a b item.matchProbability item.features).exec s with
      | some (.ok o, t) =>
        { a := a, b := b, outcome := o, before := s } ::
          routeTrace pg env runId userId entities items t
      | _ => []

/-- The loser and the winner of a merge. -/
def mergeOf (a b : EntityRow) : IdPair := ((selectWinner a b).2, (selectWinner a b).1)

def RouteEvent.merge (e : RouteEvent) : Option IdPair :=
  if e.outcome = .autoMerged then some (mergeOf e.a e.b) else none

/-- The user has the entity. -/
def DedupStore.Has (userId entityId : String) (s : DedupStore) : Prop :=
  ∃ r ∈ s.store.db.entities, r.belongsTo userId entityId = true

/-- No merges join two entities marked as distinct; what is merged or queued is a candidate; a merge
names two entities of the user that exist. -/
structure RespectsDecisions (userId : String) (distinct candidates : List IdPair)
    (events : List RouteEvent) : Prop where
  apart : ∀ p ∈ distinct, ¬ Contraction.Joined (events.filterMap RouteEvent.merge) p.1 p.2
  candidates : ∀ e ∈ events, e.outcome ≠ .ignored → (e.a.entityId, e.b.entityId) ∈ candidates
  present : ∀ e ∈ events, e.outcome = .autoMerged →
    e.before.Has userId (mergeOf e.a e.b).1 ∧ e.before.Has userId (mergeOf e.a e.b).2

/-! ## What a merge leaves -/

theorem stays_sweepFileIndex {d : Db} (pg : PgTypes) (loser winner : String) :
    Stays d (sweepFileIndex pg loser winner) :=
  (stays_statementE _).bind fun _ => stays_statementE _

theorem stays_remapPublishedFrom {d : Db} (pg : PgTypes) (loser winner : String) :
    Stays d (remapPublishedFrom pg loser winner) := by
  refine (stays_sweepTable _ _ _ _ _).bind fun _ => ?_
  refine (stays_sweepTable _ _ _ _ _).bind fun _ => ?_
  refine (stays_sweepTable _ _ _ _ _).bind fun _ => ?_
  refine (stays_sweepFileIndex _ _ _).bind fun _ => ?_
  refine Stays.bind ((stays_execute _).bind fun _ => stays_statementE _) fun _ => ?_
  exact stays_sweepTable _ _ _ _ _

theorem stays_runPhaseA {d : Db} (pg : PgTypes) (winner loser userId : String) :
    Stays d (runPhaseA pg winner loser userId) := by
  have hfetch : ∀ role entityId, Stays d (do
      requireRow (notFoundForUser role entityId userId)
        (← fetchMergeEntity userId entityId) : M EntityRow) :=
    fun _ _ => (stays_select _).bind fun _ => stays_requireRow _ _
  refine (hfetch "winner" winner).bind fun w => ?_
  refine (hfetch "loser" loser).bind fun l => ?_
  refine (stays_statement _).bind fun _ => ?_
  refine (stays_statement _).bind fun _ => ?_
  refine (stays_statementE _).bind fun _ => ?_
  refine (stays_execute _).bind fun _ => ?_
  refine (stays_remapPublishedFrom _ _ _).bind fun _ => ?_
  refine (stays_execute _).bind fun _ => ?_
  exact fun _ hs => hs

theorem mergeTransaction_wp (pg : PgTypes) (winner loser userId : String) (s : Store) :
    wp (fun r t => ∀ e, r = .error e → t.db = s.db) (mergeTransaction pg winner loser userId) s := by
  rw [mergeTransaction, wp_bind, wp_tryCatch, beginTxn, wp_actE]
  cases hopen : s.openTxn with
  | some d => exact fun _ _ => rfl
  | none =>
    refine wp_tryCatch.mpr (wp_bind.mpr ((stays_select _ _ rfl).mono fun r t ht => ?_))
    have hrollback : ∀ (e : PyErr) (u : Store), u.openTxn = some s.db →
        wp (fun r t => ∀ e, r = .error e → t.db = s.db)
          (do rollbackTxn; .raise (mergeError winner loser e) : M (PhaseA × Option EntityRow)) u := by
      intro e u hu
      refine wp_bind.mpr (wp_act.mpr ?_)
      simp [hu]
    cases r with
    | error e => exact hrollback e t ht
    | ok pre =>
      refine wp_bind.mpr ((stays_runPhaseA pg winner loser userId t ht).mono fun r u hu => ?_)
      cases r with
      | error e => exact hrollback e u hu
      | ok a =>
        refine wp_bind.mpr ((stays_select _ u hu).mono fun r v hv => ?_)
        cases r with
        | error e => exact hrollback e v hv
        | ok post => exact wp_bind.mpr (wp_act.mpr fun _ h => by cases h)

theorem runPhaseB_wp {Q : Except PyErr Bool → Store → Prop} (hq : ∀ b t, Q (.ok b) t) (env : Env)
    (winner loser userId name : String) (aliases : List String) (s : Store) :
    wp Q (runPhaseB env winner loser userId name aliases) s := by
  refine wp_bind.mpr (wp_attempt.mpr (wp_bind.mpr (wp_act.mpr ?_)))
  exact wp_bind.mpr (wp_query.mpr (wp_act.mpr (hq _ _)))

theorem mergeEntities_wp (pg : PgTypes) (env : Env) (winner loser userId : String) (s : Store) :
    wp (fun r t => ∀ e, r = .error e → t.db = s.db) (mergeEntities pg env winner loser userId) s := by
  unfold mergeEntities
  split_ifs with h
  · exact fun _ _ => rfl
  · refine wp_bind.mpr ((mergeTransaction_wp pg winner loser userId s).mono fun r t ht => ?_)
    cases r with
    | error e => exact fun _ _ => ht e rfl
    | ok r =>
      refine wp_bind.mpr (runPhaseB_wp (fun b t => ?_) _ _ _ _ _ _ _)
      exact fun _ h => by cases h

theorem mergeEntities_winner (pg : PgTypes) (env : Env) (winner loser userId : String) (s : Store) :
    OnOk (fun _ _ => winner ≠ loser ∧ ∃ r ∈ s.db.entities, r.belongsTo userId winner = true)
      (mergeEntities pg env winner loser userId) s := by
  unfold mergeEntities
  split_ifs with hne
  · exact OnOk.raise
  · have hA : OnOk (fun _ _ => ∃ r ∈ s.db.entities, r.belongsTo userId winner = true)
        (mergeTransaction pg winner loser userId) s := by
      refine OnOk.bind ((beginTxn_ok _ s).mono fun _ t ht => ?_)
      refine OnOk.tryCatch (OnOk.bind (onOk_select ?_)) fun _ _ =>
        OnOk.bind (OnOk.of_forall fun _ _ => OnOk.raise)
      refine OnOk.bind (OnOk.bind ((fetchMergeEntity_ok "winner" winner userId t).mono ?_))
      rintro w u ⟨rfl, hw, hb⟩
      have hfound : ∃ r ∈ s.db.entities, r.belongsTo userId winner = true := ⟨w, ht.1 ▸ hw, hb⟩
      exact OnOk.of_forall fun _ _ => OnOk.of_forall fun _ _ => hfound
    exact OnOk.bind (hA.mono fun _ t hfound => OnOk.bind (OnOk.of_forall fun _ _ =>
      OnOk.ret ⟨hne, hfound⟩))

/-! ## What routing a pair leaves -/

section Route

variable {pg : PgTypes} {env : DedupEnv} {runId userId : String}

/-- Every entity of the later state was there before. -/
def DedupStore.Shrinks (userId : String) (s t : DedupStore) : Prop :=
  ∀ id, t.Has userId id → s.Has userId id

theorem DedupStore.Shrinks.of_entities {s t : DedupStore}
    (h : t.store.db.entities = s.store.db.entities) : s.Shrinks userId t := by
  rintro id ⟨r, hr, hb⟩
  exact ⟨r, h ▸ hr, hb⟩

theorem Absorbed.shrinks {loser : String} {s : DedupStore} {t : Store}
    (h : Absorbed loser userId s.store t) : s.Shrinks userId { s with store := t } := by
  rintro id ⟨r, hr, hb⟩
  obtain ⟨q, hq, hid, hu, -, -⟩ := h.sheds.rows r hr
  refine ⟨q, hq, ?_⟩
  rw [EntityRow.belongsTo, hid, hu] at hb
  exact hb

/-- What the outcome of a pair says. -/
structure Merges (userId : String) (a b : EntityRow) (s t : DedupStore) : Prop where
  often : mentionedEnough a b = true
  two : (mergeOf a b).1 ≠ (mergeOf a b).2
  loser : s.Has userId (mergeOf a b).1
  winner : s.Has userId (mergeOf a b).2
  gone : ¬ t.Has userId (mergeOf a b).1

theorem autoMerge_exec (pg : PgTypes) (env : DedupEnv) (userId : String) (a b : EntityRow)
    (s : DedupStore) :
    ∃ m t, (autoMerge pg env userId a b).exec s = some (.ok m, t) ∧ s.Shrinks userId t ∧
      (m = true → Merges userId a b s t ∧ pg.integer (mergeOf a b).1 ≠ none) := by
  unfold autoMerge
  by_cases hoften : mentionedEnough a b = true
  · rw [if_pos hoften]
    obtain ⟨r, t, hexec, herror⟩ := wp_iff.mp
      (mergeEntities_wp pg env.base (selectWinner a b).1 (selectWinner a b).2 userId s.store)
    rw [exec_bind, exec_attempt, exec_zoom]
    simp only [DedupStore.main, hexec, Option.map_some, Option.bind_some, thenExec]
    cases r with
    | error e =>
      refine ⟨false, _, rfl, DedupStore.Shrinks.of_entities ?_, fun h => by cases h⟩
      simp [herror e rfl]
    | ok r =>
      have hfaulty := Faulty.of_exec hexec
      have habs := (mergeEntities_absorbs _ _ _ _ _ _).faulty hfaulty
      obtain ⟨hne, hwinner⟩ := (mergeEntities_winner _ _ _ _ _ _).faulty hfaulty
      refine ⟨true, _, rfl, habs.shrinks, fun _ => ⟨⟨hoften, hne.symm, habs.was, hwinner, ?_⟩, ?_⟩⟩
      · rintro ⟨r', hr', hb⟩
        rw [mergeOf, habs.gone r' hr'] at hb
        cases hb
      · intro hnone
        obtain ⟨e, t', hexec', -⟩ := mergeEntities_fails env.base hnone (selectWinner a b).1 userId
          s.store
        rw [mergeOf, hexec] at hexec'
        cases hexec'
  · rw [if_neg hoften]
    exact ⟨false, s, rfl, fun _ h => h, fun h => by cases h⟩

theorem insertDedupCandidate_wp (row : DedupCandidateRow) (s : DedupStore) :
    wp (fun _ t => t.store = s.store) (insertDedupCandidate row) s := by
  refine wp_actE.mpr ?_
  split_ifs <;> rfl

theorem insertReview_wp (row : ReviewRow) (s : Store) :
    wp (fun _ t => t.db.entities = s.db.entities) (insertReview row) s := by
  refine wp_actE.mpr ?_
  by_cases h : s.db.hasEntity row.candidateAId ∧ s.db.hasEntity row.candidateBId
  · simp only [if_pos h]
  · simp only [if_neg h]

theorem insertCandidateAndQueue_exec (env : DedupEnv) (runId userId a b : String) (prob : Rat)
    (features : Features) (s : DedupStore) :
    ∃ t, (insertCandidateAndQueue env runId userId a b prob features).exec s = some (.ok (), t) ∧
      t.store.db.entities = s.store.db.entities := by
  have h : wp (fun r t => r = .ok () ∧ t.store.db.entities = s.store.db.entities)
      (insertCandidateAndQueue env runId userId a b prob features) s := by
    refine wp_bind.mpr (wp_attempt.mpr ((insertDedupCandidate_wp _ s).mono fun _ t ht => ?_))
    refine wp_bind.mpr (wp_attempt.mpr (wp_zoom.mpr ((insertReview_wp _ _).mono fun _ u hu => ?_)))
    exact ⟨rfl, hu.trans (congrArg (fun x : Store => x.db.entities) ht)⟩
  obtain ⟨r, t, he, rfl, ht⟩ := wp_iff.mp h
  exact ⟨t, he, ht⟩

theorem reviewThreshold_le_autoMergeThreshold : reviewThreshold ≤ autoMergeThreshold := by
  decide +kernel

theorem routePair_exec (pg : PgTypes) (env : DedupEnv) (runId userId : String) (a b : EntityRow)
    (prob : Rat) (features : Features) (s : DedupStore) :
    ∃ o t, (routePair pg env runId userId a b prob features).exec s = some (.ok o, t) ∧
      s.Shrinks userId t ∧ (o ≠ .ignored ↔ reviewThreshold ≤ prob) ∧
      (o = .autoMerged → autoMergeThreshold ≤ prob ∧ Merges userId a b s t ∧
        pg.integer (mergeOf a b).1 ≠ none) := by
  unfold routePair
  split_ifs with hauto hreview
  · have hreview : reviewThreshold ≤ prob := Rat.le_trans reviewThreshold_le_autoMergeThreshold hauto
    obtain ⟨m, t, hm, hshrinks, hmerges⟩ := autoMerge_exec pg env userId a b s
    rw [exec_bind, hm, Option.bind_some, thenExec]
    cases m with
    | true =>
      refine ⟨.autoMerged, t, rfl, hshrinks, by simp [hreview], fun _ => ⟨hauto, hmerges rfl⟩⟩
    | false =>
      obtain ⟨u, hu, hentities⟩ := insertCandidateAndQueue_exec env runId userId a.entityId
        b.entityId prob features t
      refine ⟨.queued, u, ?_, fun id hid => hshrinks id (DedupStore.Shrinks.of_entities hentities id
        hid), by simp [hreview], fun h => by cases h⟩
      rw [if_neg (by simp), exec_bind, hu]
      rfl
  · obtain ⟨u, hu, hentities⟩ := insertCandidateAndQueue_exec env runId userId a.entityId
      b.entityId prob features s
    refine ⟨.queued, u, ?_, DedupStore.Shrinks.of_entities hentities, by simp [hreview],
      fun h => by cases h⟩
    rw [exec_bind, hu]
    rfl
  · exact ⟨.ignored, s, rfl, fun _ h => h, by simp [hreview], fun h => by cases h⟩

/-! ## What a run leaves -/

variable {entities : List EntityRow} {items : List ScoredPair} {s : DedupStore}

theorem namedRows_some {item : ScoredPair} {a b : EntityRow}
    (h : namedRows entities item = some (a, b)) :
    a ∈ entities ∧ b ∈ entities ∧ a.entityId = item.entityIdA ∧ b.entityId = item.entityIdB := by
  unfold namedRows at h
  cases ha : findEntity entities item.entityIdA with
  | none => simp [ha] at h
  | some x =>
    cases hb : findEntity entities item.entityIdB with
    | none => simp [ha, hb] at h
    | some y =>
      rw [ha, hb] at h
      cases h
      have hx := List.find?_some ha
      have hy := List.find?_some hb
      exact ⟨List.mem_of_find?_eq_some ha, List.mem_of_find?_eq_some hb, by simpa using hx,
        by simpa using hy⟩

theorem routeTrace_cons (pg : PgTypes) (env : DedupEnv) (runId userId : String)
    (items : List ScoredPair) (s : DedupStore) {item : ScoredPair} {a b : EntityRow}
    (h : namedRows entities item = some (a, b)) :
    ∃ o t, routeTrace pg env runId userId entities (item :: items) s =
        { a := a, b := b, outcome := o, before := s } ::
          routeTrace pg env runId userId entities items t ∧
      (routePair pg env runId userId a b item.matchProbability item.features).exec s =
        some (.ok o, t) ∧
      s.Shrinks userId t ∧ (o ≠ .ignored ↔ reviewThreshold ≤ item.matchProbability) ∧
      (o = .autoMerged → autoMergeThreshold ≤ item.matchProbability ∧ Merges userId a b s t ∧
        pg.integer (mergeOf a b).1 ≠ none) := by
  obtain ⟨o, t, hexec, hspec⟩ := routePair_exec pg env runId userId a b item.matchProbability
    item.features s
  refine ⟨o, t, ?_, hexec, hspec⟩
  simp only [routeTrace, h, hexec]

theorem routeTrace_skip {item : ScoredPair} (h : namedRows entities item = none) :
    routeTrace pg env runId userId entities (item :: items) s =
      routeTrace pg env runId userId entities items s := by
  simp only [routeTrace, h]

/-- The pair that a scored pair may merge, going by the snapshot. -/
def autoPair (entities : List EntityRow) (item : ScoredPair) : Option IdPair :=
  match namedRows entities item with
  | some (a, b) =>
    if autoMergeThreshold ≤ item.matchProbability ∧ mentionedEnough a b = true then
      some (mergeOf a b)
    else none
  | none => none

theorem merges_sublist (pg : PgTypes) (env : DedupEnv) (runId userId : String)
    (entities : List EntityRow) (items : List ScoredPair) (s : DedupStore) :
    ((routeTrace pg env runId userId entities items s).filterMap RouteEvent.merge).Sublist
      (items.filterMap (autoPair entities)) := by
  induction items generalizing s with
  | nil => exact .slnil
  | cons item items ih =>
    cases hnamed : namedRows entities item with
    | none =>
      rw [routeTrace_skip hnamed, List.filterMap_cons_none (by simp [autoPair, hnamed])]
      exact ih s
    | some p =>
      obtain ⟨a, b⟩ := p
      obtain ⟨o, t, htrace, -, -, -, hmerges⟩ := routeTrace_cons pg env runId userId items s
        hnamed
      rw [htrace]
      by_cases ho : o = .autoMerged
      · obtain ⟨hprob, hm, -⟩ := hmerges ho
        rw [List.filterMap_cons_some (b := mergeOf a b) (by simp [RouteEvent.merge, ho]),
          List.filterMap_cons_some (b := mergeOf a b) (by simp [autoPair, hnamed, hprob, hm.often])]
        exact (ih t).cons_cons _
      · rw [List.filterMap_cons_none (by simp [RouteEvent.merge, ho])]
        exact (ih t).trans (List.Sublist.filterMap _ (List.sublist_cons_self item items))

theorem merges_present (pg : PgTypes) (env : DedupEnv) (runId userId : String)
    (entities : List EntityRow) (items : List ScoredPair) (s : DedupStore) :
    ∀ m ∈ (routeTrace pg env runId userId entities items s).filterMap RouteEvent.merge,
      s.Has userId m.1 ∧ s.Has userId m.2 := by
  induction items generalizing s with
  | nil => simp [routeTrace]
  | cons item items ih =>
    cases hnamed : namedRows entities item with
    | none =>
      rw [routeTrace_skip hnamed]
      exact ih s
    | some p =>
      obtain ⟨a, b⟩ := p
      obtain ⟨o, t, htrace, -, hshrinks, -, hmerges⟩ := routeTrace_cons pg env runId userId items s
        hnamed
      rw [htrace]
      intro m hm
      obtain ⟨e, he, hmerge⟩ := List.mem_filterMap.mp hm
      clear hm
      rcases List.mem_cons.mp he with rfl | he
      · by_cases ho : o = .autoMerged
        · obtain ⟨-, hm, -⟩ := hmerges ho
          rw [RouteEvent.merge, if_pos ho] at hmerge
          cases hmerge
          exact ⟨hm.loser, hm.winner⟩
        · rw [RouteEvent.merge, if_neg ho] at hmerge
          cases hmerge
      · obtain ⟨hl, hw⟩ := ih t m (List.mem_filterMap.mpr ⟨e, he, hmerge⟩)
        exact ⟨hshrinks _ hl, hshrinks _ hw⟩

theorem merges_gone (pg : PgTypes) (env : DedupEnv) (runId userId : String)
    (entities : List EntityRow) (items : List ScoredPair) (s : DedupStore) :
    Contraction.Gone ((routeTrace pg env runId userId entities items s).filterMap
      RouteEvent.merge) := by
  induction items generalizing s with
  | nil => exact ⟨by simp [routeTrace], by simp [routeTrace]⟩
  | cons item items ih =>
    cases hnamed : namedRows entities item with
    | none =>
      rw [routeTrace_skip hnamed]
      exact ih s
    | some p =>
      obtain ⟨a, b⟩ := p
      obtain ⟨o, t, htrace, -, -, -, hmerges⟩ := routeTrace_cons pg env runId userId items s hnamed
      rw [htrace]
      by_cases ho : o = .autoMerged
      · obtain ⟨-, hm, -⟩ := hmerges ho
        rw [List.filterMap_cons_some (b := mergeOf a b) (by simp [RouteEvent.merge, ho])]
        refine (ih t).cons hm.two fun m' hm' => ?_
        obtain ⟨hl, hw⟩ := merges_present pg env runId userId entities items t m' hm'
        exact ⟨fun h => hm.gone (h ▸ hl), fun h => hm.gone (h ▸ hw)⟩
      · rw [List.filterMap_cons_none (by simp [RouteEvent.merge, ho])]
        exact ih t

/-- Every scored pair that is probable enough and named by the snapshot is a candidate. -/
def OnlyCandidates (entities : List EntityRow) (candidates : List IdPair)
    (scored : List ScoredPair) : Prop :=
  ∀ item ∈ scored, (namedRows entities item).isSome = true →
    reviewThreshold ≤ item.matchProbability → (item.entityIdA, item.entityIdB) ∈ candidates

/-- No choice among the pairs that may be merged joins two entities marked as distinct. -/
def NoneLinked (entities : List EntityRow) (distinct : List IdPair) (scored : List ScoredPair) :
    Prop :=
  ∀ p ∈ distinct, Contraction.apart (scored.filterMap (autoPair entities)) p.1 p.2 = true

theorem trace_candidates_iff (pg : PgTypes) (env : DedupEnv) (runId userId : String)
    (entities : List EntityRow) (candidates : List IdPair) (items : List ScoredPair)
    (s : DedupStore) :
    (∀ e ∈ routeTrace pg env runId userId entities items s, e.outcome ≠ .ignored →
      (e.a.entityId, e.b.entityId) ∈ candidates) ↔ OnlyCandidates entities candidates items := by
  induction items generalizing s with
  | nil => simp [routeTrace, OnlyCandidates]
  | cons item items ih =>
    cases hnamed : namedRows entities item with
    | none =>
      rw [routeTrace_skip hnamed, ih s]
      simp [OnlyCandidates, hnamed]
    | some p =>
      obtain ⟨a, b⟩ := p
      obtain ⟨o, t, htrace, -, -, hprob, -⟩ := routeTrace_cons pg env runId userId items s hnamed
      obtain ⟨-, -, ha, hb⟩ := namedRows_some hnamed
      rw [htrace, List.forall_mem_cons, ih t, hprob, ha, hb]
      simp [OnlyCandidates, hnamed]

theorem trace_present (pg : PgTypes) (env : DedupEnv) (runId userId : String)
    (entities : List EntityRow) (items : List ScoredPair) (s : DedupStore) :
    ∀ e ∈ routeTrace pg env runId userId entities items s, e.outcome = .autoMerged →
      e.before.Has userId (mergeOf e.a e.b).1 ∧ e.before.Has userId (mergeOf e.a e.b).2 := by
  induction items generalizing s with
  | nil => simp [routeTrace]
  | cons item items ih =>
    cases hnamed : namedRows entities item with
    | none =>
      rw [routeTrace_skip hnamed]
      exact ih s
    | some p =>
      obtain ⟨a, b⟩ := p
      obtain ⟨o, t, htrace, -, -, -, hmerges⟩ := routeTrace_cons pg env runId userId items s hnamed
      rw [htrace, List.forall_mem_cons]
      refine ⟨fun ho => ?_, ih t⟩
      obtain ⟨-, hm, -⟩ := hmerges ho
      exact ⟨hm.loser, hm.winner⟩

theorem no_merges {entities : List EntityRow} (hpg : ∀ e ∈ entities, pg.integer e.entityId = none)
    (items : List ScoredPair) (s : DedupStore) :
    (routeTrace pg env runId userId entities items s).filterMap RouteEvent.merge = [] := by
  induction items generalizing s with
  | nil => rfl
  | cons item items ih =>
    cases hnamed : namedRows entities item with
    | none => rw [routeTrace_skip hnamed, ih s]
    | some p =>
      obtain ⟨a, b⟩ := p
      obtain ⟨o, t, htrace, -, -, -, hmerges⟩ := routeTrace_cons pg env runId userId items s hnamed
      obtain ⟨ha, hb, -, -⟩ := namedRows_some hnamed
      have ho : o ≠ .autoMerged := by
        intro ho
        refine (hmerges ho).2.2 ?_
        unfold mergeOf selectWinner
        split_ifs
        · exact hpg b hb
        · exact hpg a ha
        · exact hpg b hb
        · exact hpg a ha
      rw [htrace, List.filterMap_cons_none (by simp [RouteEvent.merge, ho]), ih t]

theorem routeItem_skip {item : ScoredPair} {counts : Nat × Nat}
    (h : namedRows entities item = none) :
    routeItem pg env runId userId entities counts item = pure counts := by
  rw [namedRows] at h
  rw [routeItem]
  cases ha : findEntity entities item.entityIdA with
  | none => rfl
  | some a =>
    cases hb : findEntity entities item.entityIdB with
    | none => rfl
    | some b => simp [ha, hb] at h

theorem routeItem_named {item : ScoredPair} {counts : Nat × Nat} {a b : EntityRow}
    (h : namedRows entities item = some (a, b)) :
    routeItem pg env runId userId entities counts item = (do
      let o ← routePair pg env runId userId a b item.matchProbability item.features
      pure (o.count counts)) := by
  rw [namedRows] at h
  rw [routeItem]
  cases ha : findEntity entities item.entityIdA with
  | none => simp [ha] at h
  | some a' =>
    cases hb : findEntity entities item.entityIdB with
    | none => simp [ha, hb] at h
    | some b' =>
      simp only [ha, hb, Option.some.injEq, Prod.mk.injEq] at h
      obtain ⟨rfl, rfl⟩ := h
      rfl

theorem routeItems_exec (pg : PgTypes) (env : DedupEnv) (runId userId : String)
    (entities : List EntityRow) (items : List ScoredPair) (counts : Nat × Nat) (s : DedupStore) :
    ∃ t, (Prog.foldM (routeItem pg env runId userId entities) counts items).exec s =
      some (.ok ((routeTrace pg env runId userId entities items s).foldl
        (fun counts e => e.outcome.count counts) counts), t) := by
  induction items generalizing counts s with
  | nil => exact ⟨s, rfl⟩
  | cons item items ih =>
    cases hnamed : namedRows entities item with
    | none =>
      rw [routeTrace_skip hnamed, Prog.foldM, exec_bind]
      rw [routeItem_skip hnamed]
      exact ih counts s
    | some p =>
      obtain ⟨a, b⟩ := p
      obtain ⟨o, t, htrace, hexec, -⟩ := routeTrace_cons pg env runId userId items s hnamed
      rw [htrace, Prog.foldM, exec_bind, routeItem_named hnamed, exec_bind, hexec]
      exact ih (o.count counts) t

end Route

/-! ## The job -/

section Job

variable {pg : PgTypes} {env : DedupEnv} {userId : String} {s : DedupStore}

/-- The candidate pairs of a job that starts in `s`. -/
def jobCandidates (env : DedupEnv) (userId : String) (s : DedupStore) : List IdPair :=
  buildCandidates env userId s.store.entityPoints (snapshot userId s) (distinctPairs userId s)

/-- The scorer's output. -/
def jobScored (env : DedupEnv) (userId : String) (s : DedupStore) : List ScoredPair :=
  scoreCandidatesWithSplink env (snapshot userId s)
    (buildAnnBlocks env userId s.store.entityPoints (snapshot userId s)) (jobCandidates env userId s)

/-- What the job routes, in order. -/
def jobEvents (pg : PgTypes) (env : DedupEnv) (userId : String) (s : DedupStore) :
    List RouteEvent :=
  routeTrace pg env (env.newRunId s.runs.length) userId (snapshot userId s) (jobScored env userId s)
    (s.beginRun env userId)

def jobSummary (pg : PgTypes) (env : DedupEnv) (userId : String) (s : DedupStore) : DedupSummary :=
  let counts := (jobEvents pg env userId s).foldl (fun counts e => e.outcome.count counts) (0, 0)
  { runId := some (env.newRunId s.runs.length)
    candidateCount := (jobScored env userId s).length
    autoMerged := counts.1
    queuedForReview := counts.2 }

theorem runDeduplicationJob_exec (pg : PgTypes) (env : DedupEnv) (userId : String) (s : DedupStore) :
    ∃ t, (runDeduplicationJob pg env userId).exec s =
      some (.ok (jobSummary pg env userId s), t) := by
  obtain ⟨t, ht⟩ := routeItems_exec pg env (env.newRunId s.runs.length) userId (snapshot userId s)
    (jobScored env userId s) (0, 0) (s.beginRun env userId)
  have hbody : ∃ t, (dedupBody pg env userId (env.newRunId s.runs.length)).exec
      (s.beginRun env userId) = some (.ok (jobSummary pg env userId s), t) := by
    rw [jobScored, jobCandidates] at ht
    simp only [dedupBody, exec_bind, exec_query, Option.bind_some, thenExec]
    erw [ht]
    exact ⟨_, rfl⟩
  obtain ⟨t, ht⟩ := hbody
  refine ⟨t, ?_⟩
  simp only [runDeduplicationJob, insertRun, exec_bind, exec_attempt, exec_act, Option.map_some,
    Option.bind_some, thenExec, ht, pure_eq, exec_ret]

/-- The first condition says exactly that nothing but candidates is merged or queued; with the
second, no merges of the run join two entities marked as distinct. Where no id's text is an INTEGER
literal, so that no merge gets through, the first is all. -/
theorem decisions_respected (pg : PgTypes) (env : DedupEnv) (userId : String) (s : DedupStore) :
    (∃ t, (runDeduplicationJob pg env userId).exec s =
      some (.ok (jobSummary pg env userId s), t)) ∧
    (OnlyCandidates (snapshot userId s) (jobCandidates env userId s) (jobScored env userId s) →
      NoneLinked (snapshot userId s) (distinctPairs userId s) (jobScored env userId s) →
      RespectsDecisions userId (distinctPairs userId s) (jobCandidates env userId s)
        (jobEvents pg env userId s)) ∧
    (RespectsDecisions userId (distinctPairs userId s) (jobCandidates env userId s)
        (jobEvents pg env userId s) →
      OnlyCandidates (snapshot userId s) (jobCandidates env userId s) (jobScored env userId s)) ∧
    ((∀ e ∈ snapshot userId s, pg.integer e.entityId = none) →
      (RespectsDecisions userId (distinctPairs userId s) (jobCandidates env userId s)
          (jobEvents pg env userId s) ↔
        OnlyCandidates (snapshot userId s) (jobCandidates env userId s)
          (jobScored env userId s))) := by
  have hcandidates := trace_candidates_iff pg env (env.newRunId s.runs.length) userId
    (snapshot userId s) (jobCandidates env userId s) (jobScored env userId s)
    (s.beginRun env userId)
  have hpresent := trace_present pg env (env.newRunId s.runs.length) userId (snapshot userId s)
    (jobScored env userId s) (s.beginRun env userId)
  refine ⟨runDeduplicationJob_exec pg env userId s, fun honly hnone => ?_,
    fun h => hcandidates.mp h.candidates, fun hpg => ⟨fun h => hcandidates.mp h.candidates,
      fun honly => ⟨fun p hp hjoined => ?_, hcandidates.mpr honly, hpresent⟩⟩⟩
  · refine ⟨fun p hp hjoined => ?_, hcandidates.mpr honly, hpresent⟩
    obtain ⟨r, hr, hr'⟩ := hjoined.mayBecome
      (merges_gone pg env (env.newRunId s.runs.length) userId _ _ _)
      (merges_sublist pg env (env.newRunId s.runs.length) userId _ _ _)
    exact Contraction.apart_iff.mp (hnone p hp) r hr hr'
  · -- nothing was merged, so two entities that have become one are the same
    rw [jobEvents, no_merges hpg] at hjoined
    obtain ⟨r, hx, hy⟩ := hjoined
    obtain ⟨row, -, rfl⟩ := List.mem_map.mp hp
    have hne : row.entityIdA ≠ row.entityIdB := fun h => by
      have := row.canonical
      rw [h] at this
      exact absurd this (String.lt_irrefl _)
    have hself : ∀ x y, Contraction.MergedInto ([] : List IdPair) x y → x = y := by
      intro x y h
      induction h with
      | refl => rfl
      | tail _ hm _ => cases hm
    exact hne ((hself _ _ hx).trans (hself _ _ hy).symm)

end Job

namespace DedupExample

def entity (entityId : String) (mentionCount : Nat) : EntityRow :=
  { MergeExample.entity entityId entityId with mentionCount := mentionCount }

/-- Four people; the user has said that `a` is not `c`. -/
def start : DedupStore :=
  { store := { Store.empty with
      db := { Db.empty with entities := [entity "a" 2, entity "b" 5, entity "c" 2, entity "d" 1] } }
    knownDistinct := [{ userId := "ann", entityIdA := "a", entityIdB := "c", canonical := by decide }]
    dedupCandidates := [], runs := [] }

/-- A scorer that returns the rows. -/
def env (rows : List SplinkRow) : DedupEnv :=
  { base := .plain .disabled, search := fun _ _ => none, setOrder := id
    setOrder_perm := fun _ => .refl _, pairFeatures := fun _ _ _ => [], splink := fun _ => some rows
    fallbackProbability := fun _ => 0, newRunId := fun _ => "run", format3f := fun _ => "" }

def row (a b : String) : SplinkRow :=
  { uniqueIdA := some a, entityIdAL := none, uniqueIdB := some b, entityIdAR := none
    matchProbability := some 1 }

/-- Two candidates, both certain. -/
def chained : DedupEnv := env [row "a" "b", row "b" "c"]

/-- The records of the candidates `a`, `b` and `c`, `d`, compared with one another: what is read of
the row are the first entities of both. -/
def astray : DedupEnv :=
  env [{ uniqueIdA := none, entityIdAL := some "a", uniqueIdB := none, entityIdAR := some "c"
         matchProbability := some (3 / 5) }]

theorem joined : Contraction.Joined [("a", "b"), ("c", "b")] "a" "c" :=
  ⟨"b", .single (by simp), .single (by simp)⟩

end DedupExample

open DedupExample in
/-- Where merges get through, two certain pairs merge `a` and `c` into `b`; and as Postgres reads
the ids, the marked pair itself is queued when a row of the scorer names it. -/
theorem marked_entities_joined :
    ¬ RespectsDecisions "ann" (distinctPairs "ann" start) (jobCandidates chained "ann" start)
        (jobEvents StrandExample.pg chained "ann" start) ∧
      ¬ RespectsDecisions "ann" (distinctPairs "ann" start) (jobCandidates astray "ann" start)
        (jobEvents MergeExample.pg astray "ann" start) := by
  constructor
  · intro h
    have hmerges : (jobEvents StrandExample.pg chained "ann" start).filterMap RouteEvent.merge =
        [("a", "b"), ("c", "b")] := by decide +kernel
    have hpair : ("a", "c") ∈ distinctPairs "ann" start := by decide +kernel
    have := h.apart _ hpair
    rw [hmerges] at this
    exact this joined
  · intro h
    have honly : OnlyCandidates (snapshot "ann" start) (jobCandidates astray "ann" start)
        (jobScored astray "ann" start) :=
      (trace_candidates_iff _ _ _ _ _ _ _ _).mp h.candidates
    revert honly
    unfold OnlyCandidates
    decide +kernel

open DedupExample in
/-- One certain pair, no chain. -/
theorem decisions_respected_once :
    (jobEvents StrandExample.pg (env [row "a" "b"]) "ann" start).filterMap RouteEvent.merge =
        [("a", "b")] ∧
      RespectsDecisions "ann" (distinctPairs "ann" start)
        (jobCandidates (env [row "a" "b"]) "ann" start)
        (jobEvents StrandExample.pg (env [row "a" "b"]) "ann" start) := by
  have honly : OnlyCandidates (snapshot "ann" start) (jobCandidates (env [row "a" "b"]) "ann" start)
      (jobScored (env [row "a" "b"]) "ann" start) := by
    unfold OnlyCandidates
    decide +kernel
  have hnone : NoneLinked (snapshot "ann" start) (distinctPairs "ann" start)
      (jobScored (env [row "a" "b"]) "ann" start) := by
    unfold NoneLinked
    decide +kernel
  exact ⟨by decide +kernel,
    (decisions_respected StrandExample.pg (env [row "a" "b"]) "ann" start).2.1 honly hnone⟩

end Lumogis
