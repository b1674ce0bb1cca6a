import Lumogis.Lib.Labelled
import Lumogis.DedupDecisions
import Lumogis.Frames

/-!
# FindableEntities

Whether the search of a user's personal entities finds each of them (`Findable`), over runs of
stored extractions, committed merges and document purges.

The id of a point is derived from a name, not from the entity: a stored extraction writes the point
of its name for the entity it was resolved to, and a merge the point of the winner's name, without a
scope. Either takes that point away from whatever entity had it. `Unshadowed` says that nobody
needs it; a purge takes only points of entities that it has deleted.
-/

namespace Lumogis

open Prog Labelled

/-- A personal entity of the user that is not staged and not a projection. -/
def EntityRow.isSettled (userId : String) (r : EntityRow) : Bool :=
  r.userId == userId && r.scope == .personal && r.publishedFrom == none && !r.isStaged

/-- The personal-scope search reaches the entity by this point. -/
def EntPoint.finds (userId entityId : String) (pt : EntPoint) : Bool :=
  pt.isPersonalOf userId && pt.entityId == entityId

/-- Every settled entity of the user is found. -/
def Findable (userId : String) (s : Store) : Prop :=
  ∀ r ∈ s.db.entities, r.isSettled userId = true →
    ∃ pt ∈ s.entityPoints, pt.finds userId r.entityId = true

/-! ## Operations -/

/-- One pass of the loop in `store_entities`, a merge, or a purge. -/
inductive EntityOp where
  | store (entity : ExtractedEntity) (evidenceId : String) (evidenceType : EvidenceType)
  | merge (winner loser : String)
  | purge (sess documentId : Nat)

/-- The operation run alone and without faults; a merge only when it commits. -/
def entityStep (pg : PgTypes) (env : Env) (userId : String) (op : EntityOp) (s : Store) :
    Option Store :=
  match op with
  | .store entity evidenceId evidenceType =>
    ((upsertEntity env entity evidenceId evidenceType userId).exec s).map Prod.snd
  | .merge winner loser =>
    match (mergeEntities pg env winner loser userId).exec s with
    | some (.ok _, t) => some t
    | _ => none
  | .purge sess documentId => ((purgeDocument env sess userId documentId).exec s).map Prod.snd

/-- The row that an extracted entity goes to; `none` when the drawn id is taken and the pass is
given up. -/
def placedId (env : Env) (entity : ExtractedEntity) (userId : String) (s : Store) : Option String :=
  match s.db.entities.find? (EntityRow.answersTo env userId entity.name) with
  | some old =>
    if resolveEntity entity (some old) = .merge then some old.entityId
    else if s.db.hasEntity (env.uuid4 s.uuidsDrawn) then none
    else some (env.uuid4 s.uuidsDrawn)
  | none => if s.db.hasEntity (env.uuid4 s.uuidsDrawn) then none else some (env.uuid4 s.uuidsDrawn)

/-- Every settled entity but the one is found by a point other than this. -/
def FoundWithout (userId exceptId pointId : String) (s : Store) : Prop :=
  ∀ r ∈ s.db.entities, r.isSettled userId = true → r.entityId ≠ exceptId →
    ∃ pt ∈ s.entityPoints, pt.finds userId r.entityId = true ∧ pt.id ≠ pointId

/-- `name` of the merge's winner. -/
def winnerName (userId winner : String) (s : Store) : String :=
  ((s.db.entities.find? (EntityRow.belongsTo userId winner)).map EntityRow.name).getD ""

/-- Nobody needs the point that the operation writes, the entity aside that it is written for with
its scope. -/
def Unshadowed (env : Env) (userId : String) (op : EntityOp) (s : Store) : Prop :=
  match op with
  | .store entity _ _ =>
    match placedId env entity userId s with
    | some id => FoundWithout userId id (entityPointId env userId entity.name) s
    | none => True
  | .merge winner loser =>
    FoundWithout userId loser (entityPointId env userId (winnerName userId winner s)) s
  | .purge _ _ => True

/-- An id has one name, personal points are published from nothing, and no purge is pending for
points of entities. -/
structure IndexReady (userId : String) (s : Store) : Prop where
  findable : Findable userId s
  oneName : ∀ r ∈ s.db.entities, ∀ r' ∈ s.db.entities, r.entityId = r'.entityId → r.name = r'.name
  personal : ∀ pt ∈ s.entityPoints, pt.scope = some .personal → pt.publishedFrom = none
  purged : ∀ t ∈ s.db.purgedDocuments, t.qdrantEntitiesDeleted = true

/-! ## Points -/

section Points

variable {userId id : String} {s t : Store} {p : EntPoint}

theorem finds_upsert {pts : List EntPoint} :
    (∃ pt ∈ Table.upsert EntPoint.id p pts, pt.finds userId id = true) ↔
      p.finds userId id = true ∨ ∃ pt ∈ pts, pt.finds userId id = true ∧ pt.id ≠ p.id := by
  constructor
  · rintro ⟨pt, hpt, hf⟩
    rcases Table.mem_upsert.mp hpt with ⟨hpt, hne⟩ | rfl
    · exact .inr ⟨pt, hpt, hf, hne⟩
    · exact .inl hf
  · rintro (hf | ⟨pt, hpt, hf, hne⟩)
    · exact ⟨p, Table.mem_upsert.mpr (.inr rfl), hf⟩
    · exact ⟨pt, Table.mem_upsert.mpr (.inl ⟨hpt, hne⟩), hf⟩

end Points

/-! ## Storing -/

section Storing

variable {env : Env} {entity : ExtractedEntity} {userId id : String} {s t : Store}

/-- The rows after an extracted entity went to `id`: that row was updated, or is new. -/
inductive PlacedRows (rows : List EntityRow) (id : String) : List EntityRow → Prop where
  | merged {old : EntityRow} {f : EntityRow → EntityRow} : old ∈ rows → old.entityId = id →
      (∀ r, (f r).entityId = r.entityId ∧ (f r).name = r.name) →
      PlacedRows rows id (Table.updateWhere (fun r => r.entityId == id) f rows)
  | inserted {row : EntityRow} : row.entityId = id → (∀ r ∈ rows, r.entityId ≠ id) →
      PlacedRows rows id (rows ++ [row])

theorem PlacedRows.mem_iff {rows rows' : List EntityRow} (h : PlacedRows rows id rows')
    {r : EntityRow} (hr : r.entityId ≠ id) : r ∈ rows' ↔ r ∈ rows := by
  cases h with
  | @merged old f hold hid hf =>
    rw [Table.mem_updateWhere]
    constructor
    · rintro (⟨x, -, hx, rfl⟩ | ⟨hm, -⟩)
      · rw [(hf x).1] at hr
        exact absurd (by simpa using hx) hr
      · exact hm
    · exact fun hm => .inr ⟨hm, by simpa using hr⟩
  | inserted hid hfresh =>
    rw [List.mem_append, List.mem_singleton]
    constructor
    · rintro (hm | rfl)
      · exact hm
      · exact absurd hid hr
    · exact .inl

/-- What a pass does before it writes the point. -/
structure Places (id : String) (s t : Store) : Prop where
  rows : PlacedRows s.db.entities id t.db.entities
  there : t.db.hasEntity id = true
  purged : t.db.purgedDocuments = s.db.purgedDocuments
  points : t.entityPoints = s.entityPoints

/-- What a pass that is given up leaves. -/
structure GivesUp (s t : Store) : Prop where
  rows : t.db.entities = s.db.entities
  purged : t.db.purgedDocuments = s.db.purgedDocuments
  points : t.entityPoints = s.entityPoints

theorem insertNewEntity_taken (h : s.db.hasEntity (env.uuid4 s.uuidsDrawn) = true) :
    wp (fun r t => (∃ e, r = .error e) ∧ GivesUp s t) (insertNewEntity env entity userId) s := by
  rw [insertNewEntity, wp_bind]
  refine wp_act.mpr (wp_bind.mpr (wp_actE.mpr ?_))
  rw [Db.hasEntity] at h
  simp only [h, if_true]
  exact ⟨⟨_, rfl⟩, rfl, rfl, rfl⟩

theorem insertNewEntity_free (h : s.db.hasEntity (env.uuid4 s.uuidsDrawn) = false) :
    wp (fun r t => r = .ok (env.uuid4 s.uuidsDrawn) ∧ Places (env.uuid4 s.uuidsDrawn) s t)
      (insertNewEntity env entity userId) s := by
  have hfresh : ∀ r ∈ s.db.entities, r.entityId ≠ env.uuid4 s.uuidsDrawn := by
    intro r hr he
    rw [Db.hasEntity, List.any_eq_false] at h
    exact h r hr (by simpa using he)
  rw [insertNewEntity, wp_bind]
  refine wp_act.mpr (wp_bind.mpr (wp_actE.mpr ?_))
  rw [Db.hasEntity] at h
  simp only [h, Bool.false_eq_true, if_false]
  exact ⟨rfl, .inserted rfl hfresh, by simp [Db.hasEntity], rfl, rfl⟩

theorem insertNewEntity_placed :
    wp (fun r t => (s.db.hasEntity (env.uuid4 s.uuidsDrawn) = true ∧ (∃ e, r = .error e) ∧
          GivesUp s t) ∨
        (s.db.hasEntity (env.uuid4 s.uuidsDrawn) = false ∧ r = .ok (env.uuid4 s.uuidsDrawn) ∧
          Places (env.uuid4 s.uuidsDrawn) s t))
      (insertNewEntity env entity userId) s := by
  cases h : s.db.hasEntity (env.uuid4 s.uuidsDrawn) with
  | true => exact (insertNewEntity_taken h).mono fun _ _ h => .inl ⟨rfl, h⟩
  | false => exact (insertNewEntity_free h).mono fun _ _ h => .inr ⟨rfl, h⟩

/-- Either the pass is given up and nothing has changed, or the entity went to its row. -/
def PassOutcome (env : Env) (entity : ExtractedEntity) (userId : String) (s : Store)
    (r : Except PyErr String) (t : Store) : Prop :=
  (placedId env entity userId s = none ∧ (∃ e, r = .error e) ∧ GivesUp s t) ∨
    ∃ id, placedId env entity userId s = some id ∧ r = .ok id ∧ Places id s t

theorem placeEntity_placed :
    wp (PassOutcome env entity userId s) (placeEntity env entity userId
      (s.db.entities.find? (EntityRow.answersTo env userId entity.name))) s := by
  have hnew : (∀ old, s.db.entities.find? (EntityRow.answersTo env userId entity.name) = some old →
      resolveEntity entity (some old) ≠ .merge) → ∀ r t,
      (s.db.hasEntity (env.uuid4 s.uuidsDrawn) = true ∧ (∃ e, r = .error e) ∧ GivesUp s t) ∨
        (s.db.hasEntity (env.uuid4 s.uuidsDrawn) = false ∧ r = .ok (env.uuid4 s.uuidsDrawn) ∧
          Places (env.uuid4 s.uuidsDrawn) s t) → PassOutcome env entity userId s r t := by
    intro hold r t h
    unfold PassOutcome placedId
    rcases h with ⟨hused, h⟩ | ⟨hfree, h⟩
    · refine .inl ⟨?_, h⟩
      split
      · rename_i old hfind
        rw [if_neg (hold old hfind), if_pos hused]
      · rw [if_pos hused]
    · refine .inr ⟨_, ?_, h⟩
      split
      · rename_i old hfind
        rw [if_neg (hold old hfind), if_neg (by simp [hfree])]
      · rw [if_neg (by simp [hfree])]
  unfold placeEntity
  cases hfind : s.db.entities.find? (EntityRow.answersTo env userId entity.name) with
  | none =>
    exact insertNewEntity_placed.mono (hnew fun old hold => by rw [hfind] at hold; cases hold)
  | some old =>
    have hmem : old ∈ s.db.entities := List.mem_of_find?_eq_some hfind
    cases hres : resolveEntity entity (some old) with
    | new =>
      refine insertNewEntity_placed.mono (hnew fun old' hold => ?_)
      rw [hfind] at hold
      cases hold
      simp [hres]
    | ambiguous =>
      have hnot : ∀ old', s.db.entities.find? (EntityRow.answersTo env userId entity.name) = some old' →
          resolveEntity entity (some old') ≠ .merge := by
        intro old' hold
        rw [hfind] at hold
        cases hold
        simp [hres]
      refine wp_bind.mpr (insertNewEntity_placed.mono fun r t ht => ?_)
      rcases ht with ⟨hused, ⟨e, rfl⟩, hg⟩ | ⟨hfree, rfl, hp⟩
      · exact hnew hnot _ _ (.inl ⟨hused, ⟨e, rfl⟩, hg⟩)
      · -- both candidates of the review are there
        have hne : old.entityId ≠ env.uuid4 s.uuidsDrawn := by
          intro he
          rw [Db.hasEntity, List.any_eq_false] at hfree
          exact hfree old hmem (by simpa using he)
        have hold : t.db.entities.any (fun r => r.entityId == old.entityId) = true :=
          List.any_eq_true.mpr ⟨old, (hp.rows.mem_iff hne).mpr hmem, by simp⟩
        have hboth : (t.db.entities.any (fun r => r.entityId == old.entityId) &&
            t.db.entities.any fun r => r.entityId == env.uuid4 s.uuidsDrawn) = true := by
          rw [hold, Bool.true_and]
          exact hp.there
        refine wp_bind.mpr (wp_actE.mpr ?_)
        simp only [hboth, if_true]
        exact hnew hnot _ _ (.inr ⟨hfree, rfl, hp.rows, hp.there, hp.purged, hp.points⟩)
    | merge =>
      refine wp_bind.mpr (wp_act.mpr (.inr ⟨old.entityId, ?_, rfl, ?_, ?_, rfl, rfl⟩))
      · simp [placedId, hfind, hres]
      · exact .merged hmem rfl fun r => ⟨rfl, rfl⟩
      · refine List.any_eq_true.mpr ⟨mergeExtracted env entity old old, ?_, by simp [mergeExtracted]⟩
        exact Table.mem_updateWhere.mpr (.inl ⟨old, hmem, by simp, rfl⟩)

/-- What a pass leaves. -/
structure Stores (env : Env) (entity : ExtractedEntity) (userId id : String) (s t : Store) : Prop where
  rows : PlacedRows s.db.entities id t.db.entities
  purged : t.db.purgedDocuments = s.db.purgedDocuments
  points : t.entityPoints = Table.upsert EntPoint.id (personalEntityPoint env entity id userId
    (env.embed (entityEmbedText entity))) s.entityPoints

theorem upsertEntity_stores (evidenceId : String) (evidenceType : EvidenceType) :
    wp (fun r t => (placedId env entity userId s = none ∧ GivesUp s t) ∨
        ∃ id, placedId env entity userId s = some id ∧ r = .ok id ∧ Stores env entity userId id s t)
      (upsertEntity env entity evidenceId evidenceType userId) s := by
  rw [upsertEntity, wp_bind]
  refine wp_query.mpr (wp_bind.mpr (placeEntity_placed.mono fun r t ht => ?_))
  rcases ht with ⟨hnone, ⟨e, rfl⟩, hg⟩ | ⟨id, hsome, rfl, hp⟩
  · exact .inl ⟨hnone, hg⟩
  · have hrelation : ∃ rs, Db.insertRelation
        { sourceId := id, relationType := evidenceType.relationType, evidenceType := evidenceType,
          evidenceId := evidenceId, userId := userId } t.db =
        .ok ((), { t.db with entityRelations := rs }) := by
      unfold Db.insertRelation
      split_ifs with hdup hsource
      · exact ⟨_, rfl⟩
      · exact ⟨_, rfl⟩
      · exact absurd hp.there hsource
    obtain ⟨rs, hrs⟩ := hrelation
    refine wp_bind.mpr (wp_actE.mpr ?_)
    simp only [hrs]
    refine wp_bind.mpr (wp_query.mpr (wp_bind.mpr (wp_act.mpr ?_)))
    exact .inr ⟨id, hsome, rfl, hp.rows, hp.purged, by rw [hp.points]⟩

theorem PlacedRows.oneName {rows rows' : List EntityRow} (h : PlacedRows rows id rows')
    (hone : ∀ r ∈ rows, ∀ r' ∈ rows, r.entityId = r'.entityId → r.name = r'.name) :
    ∀ r ∈ rows', ∀ r' ∈ rows', r.entityId = r'.entityId → r.name = r'.name := by
  intro r hr r' hr' he
  by_cases hid : r.entityId = id
  · cases h with
    | @merged old f hold _ hf =>
      have hkeeps : ∀ x ∈ Table.updateWhere (fun r => r.entityId == id) f rows,
          ∃ y ∈ rows, y.entityId = x.entityId ∧ y.name = x.name := by
        intro x hx
        rcases Table.mem_updateWhere.mp hx with ⟨y, hy, -, rfl⟩ | ⟨hx, -⟩
        · exact ⟨y, hy, (hf y).1.symm, (hf y).2.symm⟩
        · exact ⟨x, hx, rfl, rfl⟩
      obtain ⟨y, hy, hyid, hyname⟩ := hkeeps r hr
      obtain ⟨y', hy', hyid', hyname'⟩ := hkeeps r' hr'
      rw [← hyname, ← hyname']
      exact hone y hy y' hy' (by rw [hyid, hyid', he])
    | @inserted row hrow hfresh =>
      have hnew : ∀ x ∈ rows ++ [row], x.entityId = id → x = row := by
        intro x hx hxid
        rcases List.mem_append.mp hx with hx | hx
        · exact absurd hxid (hfresh x hx)
        · exact List.mem_singleton.mp hx
      rw [hnew r hr hid, hnew r' hr' (he ▸ hid)]
  · exact hone r ((h.mem_iff hid).mp hr) r' ((h.mem_iff (he ▸ hid)).mp hr') he

theorem personalEntityPoint_finds (vector : Embedding) :
    (personalEntityPoint env entity id userId vector).finds userId id = true := by
  simp [EntPoint.finds, EntPoint.isPersonalOf, personalEntityPoint]

theorem Stores.findable_iff (h : Stores env entity userId id s t) :
    Findable userId t ↔ FoundWithout userId id (entityPointId env userId entity.name) s := by
  unfold Findable FoundWithout
  rw [h.points]
  simp only [finds_upsert]
  constructor
  · intro hf r hr hset hne
    rcases hf r ((h.rows.mem_iff hne).mpr hr) hset with hnew | hold
    · simp only [EntPoint.finds, personalEntityPoint, Bool.and_eq_true, beq_iff_eq] at hnew
      exact absurd hnew.2.symm hne
    · exact hold
  · intro hf r hr hset
    by_cases hid : r.entityId = id
    · rw [hid]
      exact .inl (personalEntityPoint_finds _)
    · exact .inr (hf r ((h.rows.mem_iff hid).mp hr) hset hid)

theorem IndexReady.stores (h : IndexReady userId s) (hs : Stores env entity userId id s t)
    (hf : Findable userId t) : IndexReady userId t := by
  refine ⟨hf, hs.rows.oneName h.oneName, fun pt hpt hsc => ?_, fun x hx => h.purged x (hs.purged ▸ hx)⟩
  rw [hs.points] at hpt
  rcases Table.mem_upsert.mp hpt with ⟨hpt, -⟩ | rfl
  · exact h.personal pt hpt hsc
  · rfl

theorem IndexReady.givesUp (h : IndexReady userId s) (hg : GivesUp s t) : IndexReady userId t := by
  obtain ⟨hrows, hpurged, hpoints⟩ := hg
  constructor
  · intro r hr hset
    rw [hpoints]
    exact h.findable r (hrows ▸ hr) hset
  · rw [hrows]
    exact h.oneName
  · rw [hpoints]
    exact h.personal
  · rw [hpurged]
    exact h.purged

end Storing

/-! ## Merging -/

section Merging

variable {loser userId : String} {s t u : Store}

/-- The same entity, at another time. -/
def EntityRow.Same (r r' : EntityRow) : Prop :=
  r'.entityId = r.entityId ∧ r'.userId = r.userId ∧ r'.name = r.name ∧ r'.scope = r.scope ∧
    r'.isStaged = r.isStaged

/-- From `s` to `t` no entity has come in, and of those that are no projection only the loser has
gone. -/
structure Reduces (userId loser : String) (s t : Store) : Prop where
  back : ∀ r' ∈ t.db.entities, ∃ r ∈ s.db.entities, r.Same r' ∧
    (r'.publishedFrom = none → r.publishedFrom = none)
  forth : ∀ r ∈ s.db.entities, r.publishedFrom = none → r.belongsTo userId loser = false →
    ∃ r' ∈ t.db.entities, r.Same r' ∧ r'.publishedFrom = none
  purged : t.db.purgedDocuments = s.db.purgedDocuments
  points : t.entityPoints = s.entityPoints

namespace Reduces

theorem of_eq (hr : t.db.entities = s.db.entities) (hd : t.db.purgedDocuments = s.db.purgedDocuments)
    (hp : t.entityPoints = s.entityPoints) : Reduces userId loser s t := by
  constructor
  · intro r hr'
    exact ⟨r, hr ▸ hr', ⟨rfl, rfl, rfl, rfl, rfl⟩, fun h => h⟩
  · intro r hr' hpub _
    exact ⟨r, hr ▸ hr', ⟨rfl, rfl, rfl, rfl, rfl⟩, hpub⟩
  · exact hd
  · exact hp

theorem refl (s : Store) : Reduces userId loser s s := of_eq rfl rfl rfl

theorem trans (h : Reduces userId loser s t) (h' : Reduces userId loser t u) :
    Reduces userId loser s u := by
  constructor
  · intro r'' hr''
    obtain ⟨r', hr', ⟨hi', hu', hn', hs', hst'⟩, hp'⟩ := h'.back r'' hr''
    obtain ⟨r, hr, ⟨hi, hu, hn, hs, hst⟩, hp⟩ := h.back r' hr'
    exact ⟨r, hr, ⟨hi'.trans hi, hu'.trans hu, hn'.trans hn, hs'.trans hs, hst'.trans hst⟩,
      fun h => hp (hp' h)⟩
  · intro r hr hpub hnot
    obtain ⟨r', hr', ⟨hi, hu, hn, hs, hst⟩, hpub'⟩ := h.forth r hr hpub hnot
    have hnot' : r'.belongsTo userId loser = false := by
      rw [EntityRow.belongsTo, hi, hu]
      exact hnot
    obtain ⟨r'', hr'', ⟨hi', hu', hn', hs', hst'⟩, hpub''⟩ := h'.forth r' hr' hpub' hnot'
    exact ⟨r'', hr'', ⟨hi'.trans hi, hu'.trans hu, hn'.trans hn, hs'.trans hs, hst'.trans hst⟩, hpub''⟩
  · exact h'.purged.trans h.purged
  · exact h'.points.trans h.points

theorem of_updateWhere {p : EntityRow → Bool} {f : EntityRow → EntityRow}
    (hf : ∀ r : EntityRow, r.Same (f r)) (hpub : ∀ r, p r = true →
      ((f r).publishedFrom = none ↔ r.publishedFrom = none)) :
    Reduces userId loser s
      { s with db := { s.db with entities := Table.updateWhere p f s.db.entities } } := by
  refine ⟨fun r' hr' => ?_, fun r hr hnone hnot => ?_, rfl, rfl⟩
  · rcases Table.mem_updateWhere.mp hr' with ⟨r, hr, hp, rfl⟩ | ⟨hr, -⟩
    · exact ⟨r, hr, hf r, (hpub r hp).mp⟩
    · exact ⟨r', hr, ⟨rfl, rfl, rfl, rfl, rfl⟩, fun h => h⟩
  · by_cases hp : p r = true
    · exact ⟨f r, Table.mem_updateWhere.mpr (.inl ⟨r, hr, hp, rfl⟩), hf r, (hpub r hp).mpr hnone⟩
    · refine ⟨r, Table.mem_updateWhere.mpr (.inr ⟨hr, by simpa using hp⟩), ⟨rfl, rfl, rfl, rfl, rfl⟩,
        hnone⟩

theorem of_deleteEntities {p : EntityRow → Bool}
    (hp : ∀ r ∈ s.db.entities, r.publishedFrom = none → r.belongsTo userId loser = false →
      p r = false) :
    Reduces userId loser s { s with db := s.db.deleteEntities p } := by
  refine ⟨fun r' hr' => ?_, fun r hr hnone hnot => ?_, rfl, rfl⟩
  · exact ⟨r', (mem_deleteEntities hr').1, ⟨rfl, rfl, rfl, rfl, rfl⟩, fun h => h⟩
  · refine ⟨r, Table.mem_deleteWhere.mpr ⟨hr, ?_⟩, ⟨rfl, rfl, rfl, rfl, rfl⟩, hnone⟩
    simp [Db.entityGone, hp r hr hnone hnot, hnone]

end Reduces

theorem sweepEntities_reduces (winner : String) :
    Always (Reduces userId loser) (sweepEntities loser winner) := by
  refine Always.bind (always_execute fun s => Reduces.of_deleteEntities ?_) fun _ => ?_
  · intro r _ hnone _
    simp [Projecting.collides, EntityRow.projecting, hnone]
  · refine always_statementE Reduces.refl fun s a db h => ?_
    simp only [Projecting.remap] at h
    split_ifs at h
    cases h
    refine Reduces.of_updateWhere (fun r => ⟨rfl, rfl, rfl, rfl, rfl⟩) fun r hp => ?_
    have hp : r.publishedFrom = some loser := by simpa [EntityRow.projecting] using hp
    simp [EntityRow.projecting, hp]

theorem remapPublishedFrom_reduces (pg : PgTypes) (winner : String) :
    Always (Reduces userId loser) (remapPublishedFrom pg loser winner) :=
  remapPublishedFrom_always (fun _ _ h => Reduces.of_eq h.entities h.purged h.points) pg
    (sweepEntities_reduces winner)

theorem runPhaseA_reduces (pg : PgTypes) (winner : String) :
    Always (Reduces userId loser) (runPhaseA pg winner loser userId) := by
  have hfetch : ∀ role entityId, Always (Reduces userId loser) (do
      requireRow (notFoundForUser role entityId userId)
        (← fetchMergeEntity userId entityId) : M EntityRow) := by
    intro role entityId
    refine Always.bind (always_select Reduces.refl) fun r => ?_
    cases r <;> trivial
  refine Always.bind (hfetch "winner" winner) fun w => ?_
  refine Always.bind (hfetch "loser" loser) fun l => ?_
  refine Always.bind (always_statement fun s => Reduces.of_eq rfl rfl rfl) fun _ => ?_
  refine Always.bind (always_statement fun s => Reduces.of_eq rfl rfl rfl) fun _ => ?_
  refine Always.bind ((updateSessions_spares _ _ _ _).mono fun _ _ h =>
    Reduces.of_eq h.entities h.purged h.points) fun _ => ?_
  refine Always.bind (always_execute fun s => Reduces.of_updateWhere
    (fun _ => ⟨rfl, rfl, rfl, rfl, rfl⟩) fun _ _ => .rfl) fun _ => ?_
  refine Always.bind (remapPublishedFrom_reduces pg winner) fun _ => ?_
  refine Always.bind (always_execute fun s => Reduces.of_deleteEntities ?_) fun _ => trivial
  exact fun _ _ _ h => h

/-- The transaction of a merge that returns: its end, and the name that phase B goes by. -/
structure MergedRows (userId winner loser : String) (s : Store) (r : PhaseA × Option EntityRow)
    (t : Store) : Prop where
  reduces : Reduces userId loser s t
  gone : ∀ r ∈ t.db.entities, r.belongsTo userId loser = false
  name : (r.2.map EntityRow.name).getD "" = winnerName userId winner s

theorem mergeTransaction_rows (pg : PgTypes) (winner : String)
    (hone : ∀ r ∈ s.db.entities, ∀ r' ∈ s.db.entities, r.entityId = r'.entityId → r.name = r'.name) :
    OnOk (MergedRows userId winner loser s) (mergeTransaction pg winner loser userId) s := by
  refine OnOk.bind ((beginTxn_ok beginFailed s).mono ?_)
  rintro _ t ⟨hdb, hpoints⟩
  have hst : Reduces userId loser s t := Reduces.of_eq (by rw [hdb]) (by rw [hdb]) hpoints
  refine OnOk.tryCatch (OnOk.bind (onOk_select ?_)) fun _ _ => OnOk.bind (OnOk.of_forall
    fun _ _ => OnOk.raise)
  have habsorbs := runPhaseA_absorbs pg winner loser userId t
  have hreduces : OnOk (fun _ u => Reduces userId loser t u) (runPhaseA pg winner loser userId) t :=
    (runPhaseA_reduces pg winner).onOk Reduces.refl (fun _ _ _ => Reduces.trans) t
  refine OnOk.bind ((Post.and habsorbs hreduces).mono ?_)
  rintro r u ⟨ha, hr⟩ a rfl
  have hsu : Reduces userId loser s u := hst.trans (hr a rfl)
  refine OnOk.bind (onOk_select (OnOk.bind (OnOk.act (OnOk.ret ⟨?_, (ha a rfl).gone, ?_⟩))))
  · exact hsu.trans (Reduces.of_eq rfl rfl rfl)
  · rw [winnerName, ← hdb]
    cases hpost : u.db.entities.find? (EntityRow.belongsTo userId winner) with
    | none => simp
    | some p =>
      obtain ⟨q, hq, ⟨hi, hu, hn, -, -⟩, -⟩ := hsu.back p (List.mem_of_find?_eq_some hpost)
      have hbelongs : q.belongsTo userId winner = true := by
        have := List.find?_some hpost
        rw [EntityRow.belongsTo, hi, hu] at this
        exact this
      rw [hdb]
      cases hpre : s.db.entities.find? (EntityRow.belongsTo userId winner) with
      | none => exact absurd hbelongs (by simpa using List.find?_eq_none.mp hpre q hq)
      | some w =>
        have hw := List.find?_some hpre
        simp only [EntityRow.belongsTo, Bool.and_eq_true, beq_iff_eq] at hw hbelongs
        simp [hn, hone q hq w (List.mem_of_find?_eq_some hpre) (hbelongs.1.trans hw.1.symm)]

theorem runPhaseB_exec (env : Env) (winner loser userId name : String) (aliases : List String)
    (s : Store) :
    (runPhaseB env winner loser userId name aliases).exec s = some (.ok true, { s with
      entityPoints := Table.upsert EntPoint.id (winnerPoint env winner userId name aliases
        (env.embed (mergeEmbedText name aliases)))
          (Table.deleteWhere (EntPoint.ofEntity loser) s.entityPoints) }) := rfl

/-- A committed merge: the loser's points are gone, and the winner's has no scope. -/
structure CommittedMerge (env : Env) (userId winner loser : String) (s t : Store) : Prop where
  rows : ∃ u, Reduces userId loser s u ∧ t.db = u.db
  gone : ∀ r ∈ t.db.entities, r.belongsTo userId loser = false
  points : ∃ aliases v, t.entityPoints = Table.upsert EntPoint.id
    (winnerPoint env winner userId (winnerName userId winner s) aliases v)
    (Table.deleteWhere (EntPoint.ofEntity loser) s.entityPoints)

theorem mergeEntities_points {pg : PgTypes} {env : Env} {winner : String} {r : MergeResult}
    (hone : ∀ r ∈ s.db.entities, ∀ r' ∈ s.db.entities, r.entityId = r'.entityId → r.name = r'.name)
    (h : (mergeEntities pg env winner loser userId).exec s = some (.ok r, t)) :
    CommittedMerge env userId winner loser s t := by
  unfold mergeEntities at h
  split_ifs at h with hne
  · cases h
  rw [exec_bind] at h
  cases htxn : (mergeTransaction pg winner loser userId).exec s with
  | none => simp [htxn] at h
  | some x =>
    obtain ⟨x, u⟩ := x
    cases x with
    | error e => simp [htxn, thenExec] at h
    | ok x =>
      obtain ⟨hreduces, hgone, hname⟩ :=
        (mergeTransaction_rows pg winner hone).faulty (Faulty.of_exec htxn)
      rw [htxn, Option.bind_some, thenExec, exec_bind, runPhaseB_exec, Option.bind_some] at h
      cases h
      exact ⟨⟨u, hreduces, rfl⟩, hgone, _, _, by rw [← hreduces.points, ← hname]⟩

theorem EntityRow.Same.settled {r r' : EntityRow} (h : r.Same r') (hr : r.publishedFrom = none)
    (hr' : r'.publishedFrom = none) : r'.isSettled userId = r.isSettled userId := by
  obtain ⟨-, hu, -, hs, hst⟩ := h
  simp [EntityRow.isSettled, hu, hs, hst, hr, hr']

/-- After a committed merge an entity is found by the points that were neither the loser's nor the
one that was written. -/
theorem CommittedMerge.findable_iff {env : Env} {winner : String}
    (h : CommittedMerge env userId winner loser s t) :
    Findable userId t ↔
      FoundWithout userId loser (entityPointId env userId (winnerName userId winner s)) s := by
  obtain ⟨⟨u, hreduces, hdb⟩, hgone, aliases, v, hpoints⟩ := h
  have hp : ∀ e, (winnerPoint env winner userId (winnerName userId winner s) aliases v).finds
      userId e = false := by
    intro e
    simp [EntPoint.finds, EntPoint.isPersonalOf, winnerPoint]
  unfold Findable FoundWithout
  rw [hpoints, hdb]
  simp only [finds_upsert, hp, Bool.false_eq_true, false_or]
  constructor
  · intro hf r hr hset hne
    have hpub : r.publishedFrom = none := by
      simp only [EntityRow.isSettled, Bool.and_eq_true, beq_iff_eq] at hset
      exact hset.1.2
    obtain ⟨r', hr', hsame, hpub'⟩ := hreduces.forth r hr hpub (by simp [EntityRow.belongsTo, hne])
    obtain ⟨pt, hpt, hfind, hother⟩ := hf r' hr' (by rw [hsame.settled hpub hpub', hset])
    exact ⟨pt, (Table.mem_deleteWhere.mp hpt).1, by rw [← hsame.1, hfind], hother⟩
  · intro hf r' hr' hset
    obtain ⟨r, hr, hsame, hpub⟩ := hreduces.back r' hr'
    have hset' := hset
    simp only [EntityRow.isSettled, Bool.and_eq_true, beq_iff_eq] at hset'
    have hne : r.entityId ≠ loser := by
      intro he
      have := hgone r' (hdb ▸ hr')
      simp [EntityRow.belongsTo, hsame.1, he, hset'.1.1.1] at this
    obtain ⟨pt, hpt, hfind, hother⟩ :=
      hf r hr (by rw [← hsame.settled (hpub hset'.1.2) hset'.1.2, hset]) hne
    refine ⟨pt, Table.mem_deleteWhere.mpr ⟨hpt, ?_⟩, by rw [hsame.1, hfind], hother⟩
    simp only [EntPoint.finds, Bool.and_eq_true, beq_iff_eq] at hfind
    simp [EntPoint.ofEntity, hfind.2, hne]

theorem IndexReady.merged {env : Env} {winner : String} (h : IndexReady userId s)
    (hm : CommittedMerge env userId winner loser s t) (hf : Findable userId t) :
    IndexReady userId t := by
  obtain ⟨⟨u, hreduces, hdb⟩, -, aliases, v, hpoints⟩ := hm
  refine ⟨hf, ?_, fun pt hpt hsc => ?_, fun x hx => ?_⟩
  · intro r hr r' hr' he
    rw [hdb] at hr hr'
    obtain ⟨q, hq, ⟨hi, -, hn, -, -⟩, -⟩ := hreduces.back r hr
    obtain ⟨q', hq', ⟨hi', -, hn', -, -⟩, -⟩ := hreduces.back r' hr'
    rw [hn, hn']
    exact h.oneName q hq q' hq' (by rw [← hi, ← hi', he])
  · rw [hpoints] at hpt
    rcases Table.mem_upsert.mp hpt with ⟨hpt, -⟩ | rfl
    · exact h.personal pt (Table.mem_of_mem_deleteWhere hpt) hsc
    · cases hsc
  · rw [hdb, hreduces.purged] at hx
    exact h.purged x hx

end Merging

/-! ## Purging -/

section Purging

variable {env : Env} {userId : String} {s t : Store}

/-- Entities have only gone. -/
structure Thins (userId : String) (d d' : Db) : Prop where
  rows : ∀ r ∈ d'.entities, r.isSettled userId = true → r ∈ d.entities
  names : ∀ r ∈ d'.entities, ∃ q ∈ d.entities, q.entityId = r.entityId ∧ q.name = r.name

namespace Thins

variable {d d' d'' : Db}

theorem of_subset (h : ∀ r ∈ d'.entities, r ∈ d.entities) : Thins userId d d' :=
  ⟨fun r hr _ => h r hr, fun r hr => ⟨r, h r hr, rfl, rfl⟩⟩

theorem refl (d : Db) : Thins userId d d := of_subset fun _ h => h

theorem trans (h : Thins userId d d') (h' : Thins userId d' d'') : Thins userId d d'' := by
  constructor
  · intro r hr hset
    exact h.rows r (h'.rows r hr hset) hset
  · intro r hr
    obtain ⟨q, hq, hi, hn⟩ := h'.names r hr
    obtain ⟨p, hp, hi', hn'⟩ := h.names q hq
    exact ⟨p, hp, hi'.trans hi, hn'.trans hn⟩

theorem deleteEntities (p : EntityRow → Bool) : Thins userId d (d.deleteEntities p) :=
  of_subset fun _ hr => (mem_deleteEntities hr).1

theorem downgradeEntities (ids : List String) : Thins userId d (d.downgradeEntities ids) := by
  constructor
  · intro r hr hset
    rcases Table.mem_updateWhere.mp hr with ⟨q, -, hp, rfl⟩ | ⟨hr, -⟩
    · -- only shared rows are updated
      simp only [Bool.and_eq_true, beq_iff_eq] at hp
      simp [EntityRow.isSettled, hp.1] at hset
    · exact hr
  · intro r hr
    rcases Table.mem_updateWhere.mp hr with ⟨q, hq, -, rfl⟩ | ⟨hr, -⟩
    · exact ⟨q, hq, rfl, rfl⟩
    · exact ⟨r, hr, rfl, rfl⟩

end Thins

/-- What some statements of a purge have done to the tables: the entities of `gone` are deleted. -/
structure Purging (userId : String) (gone : List String) (s t : Store) : Prop where
  thins : Thins userId s.db t.db
  gone : ∀ r ∈ t.db.entities, r.isSettled userId = true → r.entityId ∉ gone
  points : t.entityPoints = s.entityPoints
  purged : t.db.purgedDocuments = s.db.purgedDocuments

namespace Purging

variable {gone : List String} {Q : Except PyErr Unit → Store → Prop} {f : Db → Db}

theorem start (s : Store) : Purging userId [] s s :=
  ⟨Thins.refl _, fun _ _ _ => by simp, rfl, rfl⟩

theorem next (h : Purging userId gone s t) (ht : Thins userId t.db (f t.db))
    (hd : (f t.db).purgedDocuments = t.db.purgedDocuments) :
    Purging userId gone s { t with db := f t.db } :=
  ⟨h.thins.trans ht, fun r hr hset => h.gone r (ht.rows r hr hset) hset, h.points, hd.trans h.purged⟩

theorem execute (h : Purging userId gone s t) (ht : Thins userId t.db (f t.db))
    (hd : (f t.db).purgedDocuments = t.db.purgedDocuments)
    (hq : ∀ u, Purging userId gone s u → Q (.ok ()) u) : wp Q (execute f) t :=
  wp_act.mpr (hq _ (h.next ht hd))

theorem executeUnless {c : Prop} [Decidable c] (h : Purging userId gone s t)
    (ht : Thins userId t.db (f t.db)) (hd : (f t.db).purgedDocuments = t.db.purgedDocuments)
    (hq : ∀ u, Purging userId gone s u → Q (.ok ()) u) :
    wp Q (if c then pure () else Lumogis.execute f : M Unit) t := by
  split_ifs
  · exact hq t h
  · exact h.execute ht hd hq

theorem deleteOrphans {orphans : List String} (h : Purging userId [] s t)
    (hq : ∀ u, Purging userId orphans s u → Q (.ok ()) u) :
    wp Q (if orphans = [] then pure () else Lumogis.execute (Db.deleteEntities fun r =>
      orphans.contains r.entityId && r.userId == userId && r.scope == .personal) : M Unit) t := by
  split_ifs with hnil
  · exact hq t (hnil ▸ h)
  · refine wp_act.mpr (hq _ ⟨h.thins.trans (Thins.deleteEntities _), fun r hr hset hmem => ?_,
      h.points, h.purged⟩)
    have hkept := (mem_deleteEntities hr).2
    simp only [EntityRow.isSettled, Bool.and_eq_true, beq_iff_eq] at hset
    simp [hmem, hset.1.1.1, hset.1.1.2] at hkept

end Purging

/-- What the transaction of a purge leaves. -/
structure PurgedRows (userId : String) (documentId : Nat) (gone : List String) (s t : Store) :
    Prop where
  thins : Thins userId s.db t.db
  gone : ∀ r ∈ t.db.entities, r.isSettled userId = true → r.entityId ∉ gone
  points : t.entityPoints = s.entityPoints
  purged : ∀ x ∈ t.db.purgedDocuments, x ∈ s.db.purgedDocuments ∨
    x.isOf userId documentId = true

theorem Purging.insertTombstone {gone : List String} {documentId : Nat} {row : TombstoneRow}
    (h : Purging userId gone s t) (hu : row.userId = userId) (hd : row.documentId = documentId) :
    PurgedRows userId documentId gone s { t with db := t.db.insertTombstone row } := by
  unfold Db.insertTombstone
  split_ifs
  · exact ⟨h.thins, h.gone, h.points, fun x hx => .inl (h.purged ▸ hx)⟩
  · refine ⟨h.thins.trans (Thins.of_subset fun _ hr => hr), h.gone, h.points, fun x hx => ?_⟩
    rcases List.mem_append.mp hx with hx | hx
    · exact .inl (h.purged ▸ hx)
    · rw [List.mem_singleton.mp hx]
      exact .inr (by simp [TombstoneRow.isOf, hu, hd])

theorem purgeRows_wp (documentId : Nat) (filePath : String) (chunkCount : Nat) :
    wp (fun r t => ∃ gone, r = .ok gone ∧ PurgedRows userId documentId gone.1 s t)
      (purgeRows userId documentId filePath chunkCount) s := by
  have hsame : ∀ {d d' : Db}, d'.entities = d.entities → Thins userId d d' :=
    fun h => Thins.of_subset fun _ hr => h ▸ hr
  refine wp_bind.mpr ((Purging.start s).execute (hsame rfl) rfl fun s₁ h₁ => ?_)
  refine wp_bind.mpr (wp_query.mpr (wp_bind.mpr (wp_query.mpr ?_)))
  generalize splitRetractAndDowngrade _ = plan
  generalize Db.orphanEntities filePath userId _ = orphans
  refine wp_bind.mpr (h₁.execute (hsame rfl) rfl fun s₂ h₂ => ?_)
  refine wp_bind.mpr (h₂.deleteOrphans fun s₃ h₃ => ?_)
  refine wp_bind.mpr (h₃.executeUnless (Thins.deleteEntities _) rfl fun s₄ h₄ => ?_)
  refine wp_bind.mpr (h₄.executeUnless (Thins.downgradeEntities _) rfl fun s₅ h₅ => ?_)
  refine wp_bind.mpr (h₅.execute (hsame rfl) rfl fun s₆ h₆ => ?_)
  exact wp_bind.mpr (wp_act.mpr ⟨_, rfl, h₆.insertTombstone rfl rfl⟩)

/-! ### The store arms -/

theorem retryStoreArm_wp {label : String} {arm : M Unit} {P : Store → Prop}
    (harm : ∀ s, P s → wp (fun _ t => P t) arm s) (attempts : Nat) :
    ∀ s, P s → wp (fun r t => (∃ x, r = .ok x) ∧ P t) (retryStoreArm env label arm attempts) s := by
  induction attempts with
  | zero =>
    intro s hs
    exact ⟨⟨_, rfl⟩, hs⟩
  | succ n ih =>
    intro s hs
    refine wp_bind.mpr (wp_attempt.mpr ((harm s hs).mono fun r t ht => ?_))
    cases r with
    | ok _ => exact ⟨⟨_, rfl⟩, ht⟩
    | error e =>
      refine wp_bind.mpr ((ih t ht).mono fun r u hu => ?_)
      obtain ⟨⟨x, rfl⟩, hu⟩ := hu
      exact ⟨⟨_, rfl⟩, hu⟩

theorem retryStoreArm_ok {label : String} {arm : M Unit} {P : Store → Prop}
    (harm : wp (fun r t => r = .ok () ∧ P t) arm s) (attempts : Nat) :
    wp (fun r t => r = .ok (true, []) ∧ P t) (retryStoreArm env label arm (attempts + 1)) s := by
  refine wp_bind.mpr (wp_attempt.mpr (harm.mono fun r t ht => ?_))
  obtain ⟨rfl, ht⟩ := ht
  exact ⟨rfl, ht⟩

theorem unlessDone_wp {done : Bool} {arm : M (Bool × List String)}
    {Q : Except PyErr (Bool × List String) → Store → Prop}
    (hskip : done = true → Q (.ok (true, [])) s) (harm : done = false → wp Q arm s) :
    wp Q (unlessDone done arm) s := by
  cases done
  · exact harm rfl
  · exact hskip rfl

/-- Neither tables nor points of entities have changed. -/
def SameIndex (s t : Store) : Prop := t.db = s.db ∧ t.entityPoints = s.entityPoints

theorem qdrantArm_wp (filePath : String) (chunkCount documentId : Nat) (skip : Bool) :
    SameIndex s t → wp (fun _ u => SameIndex s u)
      (qdrantArm env userId filePath chunkCount documentId skip) t := by
  have hdelete : ∀ (p : DocPoint → Bool) (t : Store), SameIndex s t →
      wp (fun _ u => SameIndex s u) (deleteDocuments p) t := fun _ _ h => wp_act.mpr h
  intro h
  have hclear : wp (fun _ u => SameIndex s u)
      (if skip then pure () else clearPurgedPath env userId filePath chunkCount : M Unit) t := by
    split_ifs
    · exact h
    · refine wp_bind.mpr ((hdelete _ t h).mono fun r u hu => ?_)
      cases r with
      | error e => exact hu
      | ok _ =>
        refine wp_forEach (fun _ u => SameIndex s u) hu (fun ys i u _ hu => ?_) fun _ hu => hu
        refine (hdelete _ u hu).mono fun r v hv => ?_
        cases r <;> exact hv
  refine wp_bind.mpr (hclear.mono fun r u hu => ?_)
  cases r with
  | error e => exact hu
  | ok _ => exact hdelete _ u hu

theorem runQdrantArm_wp (filePath : String) (chunkCount documentId : Nat) (skip : Bool)
    (h : SameIndex s t) : wp (fun r u => (∃ x, r = .ok x) ∧ SameIndex s u)
      (runQdrantArm env userId filePath chunkCount documentId skip) t :=
  retryStoreArm_wp (fun _ => qdrantArm_wp filePath chunkCount documentId skip) _ t h

theorem runGraphArm_wp (skip : Bool) (h : SameIndex s t) :
    wp (fun r u => (∃ x, r = .ok x) ∧ SameIndex s u) (runGraphArm env skip) t := by
  unfold runGraphArm
  split_ifs
  · exact ⟨⟨_, rfl⟩, h⟩
  · exact retryStoreArm_wp (fun _ hs => wp_query.mpr hs) _ t h

/-- The points that a purge of `gone` spares. -/
structure Spares (userId : String) (gone : List String) (s t : Store) : Prop where
  fewer : ∀ pt ∈ t.entityPoints, pt ∈ s.entityPoints
  kept : ∀ pt ∈ s.entityPoints, pt.publishedFrom = none → pt.entityId ∉ gone → pt ∈ t.entityPoints

theorem Spares.refl (gone : List String) (s : Store) : Spares userId gone s s :=
  ⟨fun _ h => h, fun _ h _ _ => h⟩

theorem runQdrantEntityArm_wp (gone : List String) :
    wp (fun r t => r = .ok (true, []) ∧ t.db = s.db ∧ Spares userId gone s t)
      (runQdrantEntityArm env userId gone) s := by
  unfold runQdrantEntityArm
  split_ifs with hnil
  · exact ⟨rfl, rfl, Spares.refl _ _⟩
  · refine retryStoreArm_ok ?_ 2
    refine wp_bind.mpr (wp_act.mpr (wp_act.mpr ⟨rfl, rfl, ?_, ?_⟩))
    · intro pt hpt
      exact Table.mem_of_mem_deleteWhere (Table.mem_of_mem_deleteWhere hpt)
    · intro pt hpt hpub hnot
      refine Table.mem_deleteWhere.mpr ⟨Table.mem_deleteWhere.mpr ⟨hpt, ?_⟩, ?_⟩
      · simp [EntPoint.isAny, hnot]
      · simp [EntPoint.publishedFromAny, hpub]

/-- The entities whose points are still to be deleted. -/
def PurgeResult.pending (r : PurgeResult) : List String :=
  if r.qdrantEntitiesDeleted then [] else r.orphanEntityIds

/-- What the store arms leave: the tombstone of the document, if any, has the arm of its entities
done. -/
structure Armed (userId : String) (documentId : Nat) (gone : List String) (s t : Store) : Prop where
  entities : t.db.entities = s.db.entities
  spares : Spares userId gone s t
  purged : ∀ x ∈ t.db.purgedDocuments, x.qdrantEntitiesDeleted = true ∨
    x ∈ s.db.purgedDocuments ∧ x.isOf userId documentId = false

theorem runStoreArms_wp (documentId : Nat) (filePath : String) (chunkCount : Nat)
    (result : PurgeResult) :
    wp (fun _ t => Armed userId documentId result.pending s t)
      (runStoreArms env userId documentId filePath chunkCount result) s := by
  have h₀ : SameIndex s s := ⟨rfl, rfl⟩
  refine wp_bind.mpr (wp_query.mpr ?_)
  refine wp_bind.mpr ((unlessDone_wp (fun _ => ⟨⟨_, rfl⟩, h₀⟩) fun _ =>
    runQdrantArm_wp filePath chunkCount documentId _ h₀).mono ?_)
  rintro _ s₁ ⟨⟨x, rfl⟩, h₁⟩
  refine wp_bind.mpr ((unlessDone_wp (fun _ => ⟨⟨_, rfl⟩, h₁⟩) fun _ => runGraphArm_wp _ h₁).mono ?_)
  rintro _ s₂ ⟨⟨y, rfl⟩, hdb, hpoints⟩
  have harm : wp (fun r t => r = .ok (true, []) ∧ t.db = s₂.db ∧ Spares userId result.pending s₂ t)
      (unlessDone result.qdrantEntitiesDeleted
        (runQdrantEntityArm env userId result.orphanEntityIds)) s₂ := by
    refine unlessDone_wp (fun _ => ⟨rfl, rfl, Spares.refl _ _⟩) fun hdone => ?_
    rw [PurgeResult.pending, if_neg (by simp [hdone])]
    exact runQdrantEntityArm_wp _
  refine wp_bind.mpr (harm.mono ?_)
  rintro _ s₃ ⟨rfl, hdb', hspares⟩
  refine wp_bind.mpr (wp_act.mpr ⟨?_, ⟨?_, ?_⟩, fun z hz => ?_⟩)
  · rw [← hdb, ← hdb']
  · exact fun pt hpt => hpoints ▸ hspares.fewer pt hpt
  · exact fun pt hpt => hspares.kept pt (hpoints ▸ hpt)
  · rcases Table.mem_updateWhere.mp hz with ⟨w, -, -, rfl⟩ | ⟨hz, hp⟩
    · exact .inl rfl
    · exact .inr ⟨by rw [← hdb, ← hdb']; exact hz, hp⟩

/-! ### purge_document -/

/-- From `s` to `t` entities have only gone, with their points and the projections of others. -/
structure Purges (userId : String) (s t : Store) : Prop where
  thins : Thins userId s.db t.db
  fewer : ∀ pt ∈ t.entityPoints, pt ∈ s.entityPoints
  kept : ∀ pt ∈ s.entityPoints, pt.isPersonalOf userId = true → pt.publishedFrom = none →
    (∃ r ∈ t.db.entities, r.isSettled userId = true ∧ r.entityId = pt.entityId) →
      pt ∈ t.entityPoints
  purged : (∀ x ∈ s.db.purgedDocuments, x.qdrantEntitiesDeleted = true) →
    ∀ x ∈ t.db.purgedDocuments, x.qdrantEntitiesDeleted = true

theorem Purges.ready (h : Purges userId s t) (hs : IndexReady userId s) : IndexReady userId t := by
  constructor
  · intro r hr hset
    obtain ⟨pt, hpt, hfind⟩ := hs.findable r (h.thins.rows r hr hset) hset
    have hfind' := hfind
    simp only [EntPoint.finds, EntPoint.isPersonalOf, Bool.and_eq_true, beq_iff_eq] at hfind'
    refine ⟨pt, h.kept pt hpt ?_ (hs.personal pt hpt hfind'.1.2) ⟨r, hr, hset, hfind'.2.symm⟩, hfind⟩
    simp [EntPoint.isPersonalOf, hfind'.1]
  · intro r hr r' hr' he
    obtain ⟨q, hq, hi, hn⟩ := h.thins.names r hr
    obtain ⟨q', hq', hi', hn'⟩ := h.thins.names r' hr'
    rw [← hn, ← hn']
    exact hs.oneName q hq q' hq' (by rw [hi, hi', he])
  · exact fun pt hpt => hs.personal pt (h.fewer pt hpt)
  · exact h.purged hs.purged

theorem deleteSharedEntityPoints_wp (ids : List String) :
    wp (fun r t => r = .ok () ∧ t.db = s.db ∧ (∀ pt ∈ t.entityPoints, pt ∈ s.entityPoints) ∧
        ∀ pt ∈ s.entityPoints, pt.scope = some .personal → pt ∈ t.entityPoints)
      (deleteSharedEntityPoints userId ids) s := by
  unfold deleteSharedEntityPoints
  split_ifs
  · exact ⟨rfl, rfl, fun _ h => h, fun _ h _ => h⟩
  · refine wp_bind.mpr (wp_attempt.mpr (wp_act.mpr ⟨rfl, rfl, ?_, ?_⟩))
    · exact fun pt hpt => Table.mem_of_mem_deleteWhere hpt
    · exact fun pt hpt hsc => Table.mem_deleteWhere.mpr ⟨hpt, by simp [hsc]⟩

theorem Purges.refl (s : Store) : Purges userId s s :=
  ⟨Thins.refl _, fun _ h => h, fun _ h _ _ _ => h, fun h => h⟩

theorem purgeDocumentLocked_wp (documentId : Nat) (filePath : String) (chunkCount : Nat) :
    wp (fun _ t => Purges userId s t)
      (purgeDocumentLocked env userId documentId filePath chunkCount) s := by
  refine wp_bind.mpr (wp_attempt.mpr (transaction_wp (fun _ => Purges.refl s)
    ((purgeRows_wp documentId filePath chunkCount).mono ?_)))
  rintro _ t ⟨gone, rfl, hrows⟩
  refine wp_bind.mpr ((deleteSharedEntityPoints_wp gone.2).mono ?_)
  rintro _ u ⟨rfl, hdb, hfewer, hkept⟩
  refine (runStoreArms_wp documentId filePath chunkCount _).mono fun _ v harmed => ?_
  have hentities : v.db.entities = t.db.entities := by rw [harmed.entities, hdb]
  constructor
  · exact hrows.thins.trans (Thins.of_subset fun _ hr => hentities ▸ hr)
  · intro pt hpt
    exact hrows.points ▸ hfewer pt (harmed.spares.fewer pt hpt)
  · intro pt hpt hpersonal hpub hlive
    obtain ⟨r, hr, hset, hid⟩ := hlive
    have hsc : pt.scope = some .personal := by
      simp only [EntPoint.isPersonalOf, Bool.and_eq_true, beq_iff_eq] at hpersonal
      exact hpersonal.2
    refine harmed.spares.kept pt (hkept pt (hrows.points ▸ hpt) hsc) hpub ?_
    rw [← hid]
    exact hrows.gone r (hentities ▸ hr) hset
  · intro hs x hx
    rcases harmed.purged x hx with h | ⟨hx, hnot⟩
    · exact h
    · rcases hrows.purged x (hdb ▸ hx) with hx | hx
      · exact hs x hx
      · rw [hx] at hnot
        cases hnot

theorem shareDocumentLock_exec {α : Type} {sess documentId : Nat} {body : M α} {r : Except PyErr α}
    (h : (shareDocumentLock sess documentId body).exec s = some (r, t)) :
    ∃ s' t', LockArm s s' ∧ body.exec s' = some (r, t') ∧ LockArm t' t := by
  unfold shareDocumentLock at h
  rw [exec_bind, exec_attempt] at h
  simp only [pgAdvisoryLock, await, exec] at h
  split at h
  · simp only [Option.map_some, Option.bind_some, thenExec, Prog.tryFinally, exec_bind,
      exec_attempt] at h
    cases hbody : body.exec { s with locks := (advisoryKey2 documentId, sess) :: s.locks } with
    | none => simp [hbody] at h
    | some x =>
      obtain ⟨x, t'⟩ := x
      have hend : some (x, { t' with
          locks := (t'.locks.filter fun l => l != (advisoryKey2 documentId, sess)).filter
            fun l => l.2 != sess }) = some (r, t) := by
        rw [← h, hbody]
        cases x <;> rfl
      cases hend
      exact ⟨_, t', ⟨_, rfl⟩, hbody, ⟨_, rfl⟩⟩
  · simp at h

theorem Purges.of_locks {s' t' : Store} (hs : LockArm s s') (ht : LockArm t' t)
    (h : Purges userId s' t') : Purges userId s t := by
  obtain ⟨_, rfl⟩ := hs
  obtain ⟨_, rfl⟩ := ht
  exact ⟨h.thins, h.fewer, h.kept, h.purged⟩

theorem handleMissingRow_exec {sess documentId : Nat} {r : Except PyErr PurgeResult}
    (hs : ∀ x ∈ s.db.purgedDocuments, x.qdrantEntitiesDeleted = true)
    (h : (handleMissingRow env sess userId documentId).exec s = some (r, t)) : Purges userId s t := by
  rw [handleMissingRow, exec_bind, select, exec_query, Option.bind_some, thenExec] at h
  cases hfind : s.db.purgedDocuments.find? (TombstoneRow.isOf userId documentId) with
  | none =>
    simp only [hfind] at h
    cases h
    exact Purges.refl s
  | some x =>
    have hdone := hs x (List.mem_of_find?_eq_some hfind)
    simp only [hfind] at h
    split_ifs at h
    · cases h
      exact Purges.refl s
    · obtain ⟨s', t', hlock, hbody, hunlock⟩ := shareDocumentLock_exec h
      have harmed := (runStoreArms_wp documentId x.filePath x.chunkCount _).exec hbody
      refine Purges.of_locks hlock hunlock ⟨Thins.of_subset fun r hr => harmed.entities ▸ hr,
        harmed.spares.fewer, fun pt hpt _ hpub _ => harmed.spares.kept pt hpt hpub ?_,
        fun hall z hz => ?_⟩
      · simp [PurgeResult.pending, hdone]
      · rcases harmed.purged z hz with h | ⟨hz, -⟩
        · exact h
        · exact hall z hz

theorem purgeDocument_exec {sess documentId : Nat} {r : Except PyErr PurgeResult}
    (hs : ∀ x ∈ s.db.purgedDocuments, x.qdrantEntitiesDeleted = true)
    (h : (purgeDocument env sess userId documentId).exec s = some (r, t)) : Purges userId s t := by
  rw [purgeDocument, exec_bind, fetchPersonalSource, select, exec_query, Option.bind_some,
    thenExec] at h
  cases hfind : s.db.fileIndex.find? (FileRow.isSource userId documentId) with
  | none =>
    simp only [hfind] at h
    exact handleMissingRow_exec hs h
  | some row =>
    simp only [hfind] at h
    obtain ⟨s', t', hlock, hbody, hunlock⟩ := shareDocumentLock_exec h
    exact Purges.of_locks hlock hunlock
      ((purgeDocumentLocked_wp documentId row.filePath row.chunkCount).exec hbody)

end Purging

/-! ## The main results -/

section Run

variable {pg : PgTypes} {env : Env} {userId : String} {s₀ s t : Store}

/-- After an operation every settled entity is found exactly when nobody needed the point that it
wrote, and then the next one starts from a state like this. -/
theorem entityStep_findable_iff (h : IndexReady userId s) {op : EntityOp}
    (hs : entityStep pg env userId op s = some t) :
    (Findable userId t ↔ Unshadowed env userId op s) ∧ (Findable userId t → IndexReady userId t) := by
  cases op with
  | store entity evidenceId evidenceType =>
    obtain ⟨⟨r, t⟩, hexec, rfl⟩ := Option.map_eq_some_iff.mp hs
    rcases (upsertEntity_stores evidenceId evidenceType).exec hexec with
      ⟨hnone, hgives⟩ | ⟨id, hsome, -, hstores⟩
    · have hready := h.givesUp hgives
      refine ⟨⟨fun _ => ?_, fun _ => hready.findable⟩, fun _ => hready⟩
      simp [Unshadowed, hnone]
    · refine ⟨?_, h.stores hstores⟩
      rw [hstores.findable_iff]
      simp [Unshadowed, hsome]
  | merge winner loser =>
    simp only [entityStep] at hs
    split at hs
    · rename_i r t' hexec
      cases hs
      have hmerged := mergeEntities_points h.oneName hexec
      exact ⟨hmerged.findable_iff, h.merged hmerged⟩
    · cases hs
  | purge sess documentId =>
    obtain ⟨⟨r, t⟩, hexec, rfl⟩ := Option.map_eq_some_iff.mp hs
    have hready := (purgeDocument_exec h.purged hexec).ready h
    exact ⟨⟨fun _ => trivial, fun _ => hready.findable⟩, fun _ => hready⟩

/-- In every run whose operations write no point that an entity needs, every settled entity is
found in every state; and the next operation keeps it so exactly when it does the same. -/
theorem entities_stay_findable (h₀ : IndexReady userId s₀)
    (h : Reaches (entityStep pg env userId) (Unshadowed env userId) s₀ s) :
    Findable userId s ∧ ∀ op t, entityStep pg env userId op s = some t →
      (Findable userId t ↔ Unshadowed env userId op s) := by
  have hready : IndexReady userId s := by
    refine h.invariant h₀ fun op s t hs hop hstep => ?_
    obtain ⟨hiff, hnext⟩ := entityStep_findable_iff hs hstep
    exact hnext (hiff.mpr hop)
  exact ⟨hready.findable, fun op t hstep => (entityStep_findable_iff hready hstep).1⟩

/-- `store_entities` takes one step for each entity that is kept. -/
theorem storeEntities_run (evidenceId : String) (evidenceType : EvidenceType)
    {entities : List ExtractedEntity} {r : Except PyErr (List String)}
    (h : (storeEntities env entities evidenceId evidenceType userId).exec s = some (r, t)) :
    run (entityStep pg env userId) ((scoreAndFilterEntities env entities).map fun e =>
      .store e evidenceId evidenceType) s = some t := by
  unfold storeEntities at h
  generalize scoreAndFilterEntities env entities = es at h ⊢
  generalize ([] : List String) = ids at h
  induction es generalizing ids s with
  | nil =>
    cases h
    rfl
  | cons e es ih =>
    rw [foldM, exec_bind, storeEntity, exec_bind, exec_attempt] at h
    cases hexec : (upsertEntity env e evidenceId evidenceType userId).exec s with
    | none => simp [hexec] at h
    | some x =>
      obtain ⟨x, u⟩ := x
      simp only [List.map_cons, run, entityStep, hexec, Option.map_some, Option.bind_some]
      rw [hexec] at h
      cases x with
      | ok id => exact ih (ids ++ [id]) h
      | error e => exact ih ids h

end Run

namespace FindExample

def env : Env := .plain .disabled

def extracted (name entityType tag : String) : ExtractedEntity :=
  { name := name, entityType := entityType, aliases := [], contextTags := [tag]
    extractionQuality := none, isStaged := none }

def stored (name entityType tag : String) : EntityOp :=
  .store (extracted name entityType tag) "/a.txt" .document

instance (userId exceptId pointId : String) (s : Store) :
    Decidable (FoundWithout userId exceptId pointId s) :=
  inferInstanceAs (Decidable (∀ r ∈ s.db.entities, r.isSettled userId = true → r.entityId ≠ exceptId →
    ∃ pt ∈ s.entityPoints, pt.finds userId r.entityId = true ∧ pt.id ≠ pointId))

instance (env : Env) (userId : String) :
    (op : EntityOp) → (s : Store) → Decidable (Unshadowed env userId op s)
  | .store entity _ _, s =>
    match h : placedId env entity userId s with
    | some id =>
      decidable_of_iff (FoundWithout userId id (entityPointId env userId entity.name) s)
        (by simp [Unshadowed, h])
    | none => .isTrue (by simp [Unshadowed, h])
  | .merge winner loser, s =>
    inferInstanceAs (Decidable
      (FoundWithout userId loser (entityPointId env userId (winnerName userId winner s)) s))
  | .purge _ _, _ => .isTrue trivial

instance (userId : String) (s : Store) : Decidable (Findable userId s) :=
  inferInstanceAs (Decidable (∀ r ∈ s.db.entities, r.isSettled userId = true →
    ∃ pt ∈ s.entityPoints, pt.finds userId r.entityId = true))

theorem ready_empty : IndexReady "ann" .empty :=
  ⟨by decide, by decide, by decide, by decide⟩

theorem ends_in {α : Type} {P : α → Prop} [DecidablePred P] {o : Option α}
    (h : o.any (fun x => decide (P x)) = true) : ∃ x, o = some x ∧ P x := by
  cases o with
  | none => cases h
  | some x => exact ⟨x, rfl, of_decide_eq_true h⟩

/-- Two names. -/
def apart : List EntityOp := [stored "Ada" "PERSON" "work", stored "Bob" "PERSON" "work"]

end FindExample

open FindExample in
/-- Two entities of one name share a point, and the second takes it; a committed merge writes the
winner's point without a scope. -/
theorem entity_not_found :
    IndexReady "ann" .empty ∧
      (∃ x, (storeEntities env [extracted "Mercury" "PLANET" "orbit",
          extracted "Mercury" "METAL" "liquid"] "/a.txt" .document "ann").exec .empty = some x ∧
        ¬ Findable "ann" x.2) ∧
      ∃ t, run (entityStep StrandExample.pg env "ann") (apart ++ [.merge "0" "1"]) .empty = some t ∧
        ¬ Findable "ann" t :=
  ⟨ready_empty, ends_in (by decide +kernel), ends_in (by decide +kernel)⟩

open FindExample in
theorem entities_stay_findable_apart :
    ∃ t, run (entityStep StrandExample.pg env "ann") apart .empty = some t ∧ Findable "ann" t := by
  obtain ⟨t, hrun, -⟩ : ∃ t, run (entityStep StrandExample.pg env "ann") apart .empty = some t ∧
      Findable "ann" t := ends_in (by decide +kernel)
  have hadmitted : Admitted (entityStep StrandExample.pg env "ann") (Unshadowed env "ann") apart
      .empty := by decide +kernel
  exact ⟨t, hrun, (entities_stay_findable ready_empty (run_reaches hrun hadmitted)).1⟩

end Lumogis
