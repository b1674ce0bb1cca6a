import Lumogis.Frames
import Lumogis.Lib.Labelled
import Mathlib.Data.List.ReduceOption

/-!
# DocumentRelations

Calls of `ingest_file` on one path, one after the other, without faults, and the `DOCUMENT`
relations of the path.

`Registry.placeAll` says which entities an extraction comes to, as a function of the owner's
entities alone; `storeEntities_wp`: that is what `store_entities` does. `relations_follow_document`:
a call that reads the file again leaves the relations to the entities of its extraction, or, when
the extraction failed, the ones that were there, if and only if the model answered with a list of
entities for a text that is not blank, or the path had no relations. `extract_entities` returns the
empty list when it fails, and the pruning takes that for a text that mentions nothing; and a blank
text does not reach the pruning (`relations_astray`).
-/

namespace Lumogis

open Prog Labelled

/-! ## Extraction -/

/-- What comes of asking the model for the entities of a text. -/
inductive ModelAnswer where
  /-- There is no model, or no credential for it. -/
  | unavailable
  | callFailed
  | notJson
  | notList
  /-- An item has a field of the wrong type. -/
  | invalidItem
  /-- A malformed item is `none`; it is skipped. -/
  | list (items : List (Option ExtractedEntity))

/-- `extract_entities`, of a text that is not blank. -/
def ModelAnswer.extracted : ModelAnswer → List ExtractedEntity
  | .list items => items.reduceOption
  | _ => []

def ModelAnswer.isList : ModelAnswer → Bool
  | .list _ => true
  | _ => false

/-- The entities as an extraction finds and leaves them: the rows, and how many ids were drawn. -/
structure Registry where
  rows : List EntityRow
  drawn : Nat

def Store.registry (s : Store) : Registry := ⟨s.db.entities, s.uuidsDrawn⟩

def newEntity (env : Env) (userId : String) (entity : ExtractedEntity) (entityId : String) :
    EntityRow :=
  { entityId := entityId
    name := entity.name
    entityType := entity.entityType
    aliases := entity.aliases.filter fun a => env.lower a != env.lower entity.name
    contextTags := entity.contextTags
    mentionCount := 1
    userId := userId
    extractionQuality := entity.extractionQuality
    isStaged := entity.isStaged.getD false
    scope := .personal
    publishedFrom := none
    shareOrigin := none
    graphProjectedAt := none }

def Registry.add (env : Env) (userId : String) (g : Registry) (entity : ExtractedEntity) :
    String × Registry :=
  (env.uuid4 g.drawn,
    { rows := g.rows ++ [newEntity env userId entity (env.uuid4 g.drawn)], drawn := g.drawn + 1 })

/-- The entity that an extracted one is: one it is merged into, or a new one. -/
def Registry.place (env : Env) (userId : String) (g : Registry) (entity : ExtractedEntity) :
    String × Registry :=
  let existing := g.rows.find? (EntityRow.answersTo env userId entity.name)
  match resolveEntity entity existing, existing with
  | .merge, some old =>
    (old.entityId, { g with
      rows := Table.updateWhere (fun r => r.entityId == old.entityId)
        (mergeExtracted env entity old) g.rows })
  | _, _ => g.add env userId entity

def Registry.placeNext (env : Env) (userId : String) (n : List String × Registry)
    (entity : ExtractedEntity) : List String × Registry :=
  (n.1 ++ [(n.2.place env userId entity).1], (n.2.place env userId entity).2)

def Registry.placeAll (env : Env) (userId : String) (g : Registry)
    (entities : List ExtractedEntity) : List String × Registry :=
  entities.foldl (Registry.placeNext env userId) ([], g)

/-- The entities of an extraction: what passes the quality gate, as entities of the owner. -/
def extractionIds (env : Env) (userId : String) (entities : List ExtractedEntity) (s : Store) :
    List String :=
  (s.registry.placeAll env userId (scoreAndFilterEntities env entities)).1

/-- The entities that the path has a `DOCUMENT` relation to. -/
def documentEntities (userId path : String) (s : Store) : List String :=
  (s.db.entityRelations.filter (RelationRow.ofDocument path userId)).map RelationRow.sourceId

/-- Ids that were not drawn yet are free, and only a `DOCUMENT` relation says that a document
mentions an entity. -/
structure EntitiesWf (env : Env) (s : Store) : Prop where
  fresh : ∀ n, s.uuidsDrawn ≤ n → ∀ r ∈ s.db.entities, r.entityId ≠ env.uuid4 n
  evidence : ∀ er ∈ s.db.entityRelations,
    er.relationType = EvidenceType.document.relationType → er.evidenceType = .document

section Storing

variable {env : Env} {userId path : String} {s t : Store}

theorem mem_documentEntities {e : String} : e ∈ documentEntities userId path s ↔
    ∃ er ∈ s.db.entityRelations, er.ofDocument path userId = true ∧ er.sourceId = e := by
  simp [documentEntities, and_assoc]

theorem insertRelation_documentEntities (userId path : String) {id : String} (h : EntitiesWf env s)
    (hid : s.db.entities.any (fun r => r.entityId == id) = true) :
    ∃ rs, s.db.insertRelation ⟨id, EvidenceType.document.relationType, .document, path, userId⟩ =
        .ok ((), { s.db with entityRelations := rs }) ∧
      EntitiesWf env { s with db := { s.db with entityRelations := rs } } ∧
      ∀ e, e ∈ documentEntities userId path { s with db := { s.db with entityRelations := rs } } ↔
        e ∈ documentEntities userId path s ∨ e = id := by
  simp only [Db.insertRelation, hid, if_true]
  split
  · -- the relation is there already, and it is a `DOCUMENT` relation
    rename_i hconflict
    refine ⟨_, rfl, h, fun e => ⟨.inl, fun he => he.elim (fun he => he) fun he => ?_⟩⟩
    obtain ⟨er, her, hkey⟩ := List.any_eq_true.mp hconflict
    simp only [Bool.and_eq_true, beq_iff_eq] at hkey
    refine mem_documentEntities.mpr ⟨er, her, ?_, hkey.1.1.1.trans he.symm⟩
    simp [RelationRow.ofDocument, hkey, h.evidence er her hkey.1.2]
  · refine ⟨_, rfl, ⟨h.fresh, fun er her htype => ?_⟩, fun e => ?_⟩
    · rcases List.mem_append.mp her with her | her
      · exact h.evidence er her htype
      · rw [List.mem_singleton.mp her]
    · simp only [mem_documentEntities, List.mem_append, List.mem_singleton]
      constructor
      · rintro ⟨er, her | rfl, hof, rfl⟩
        · exact .inl ⟨er, her, hof, rfl⟩
        · exact .inr rfl
      · rintro (⟨er, her, hof, rfl⟩ | rfl)
        · exact ⟨er, .inl her, hof, rfl⟩
        · exact ⟨_, .inr rfl, by simp [RelationRow.ofDocument], rfl⟩

/-- Ids that were not drawn yet are free. -/
def Registry.Fresh (env : Env) (g : Registry) : Prop :=
  ∀ n, g.drawn ≤ n → ∀ r ∈ g.rows, r.entityId ≠ env.uuid4 n

theorem mergeExtracted_entityId (entity : ExtractedEntity) (existing r : EntityRow) :
    (mergeExtracted env entity existing r).entityId = r.entityId := rfl

theorem Registry.add_fresh (hinj : Function.Injective env.uuid4) {g : Registry} (h : g.Fresh env)
    (entity : ExtractedEntity) : (g.add env userId entity).2.Fresh env := by
  intro n hn r hr
  simp only [Registry.add] at hn hr
  rcases List.mem_append.mp hr with hr | hr
  · exact h n (by omega) r hr
  · rw [List.mem_singleton.mp hr]
    intro he
    have := hinj he
    omega

/-- Where an extracted entity goes: it is merged into the row that the lookup finds and that shares
two tags with it, or added. -/
theorem Registry.place_cases (env : Env) (userId : String) (g : Registry)
    (entity : ExtractedEntity) :
    (∃ old, g.rows.find? (EntityRow.answersTo env userId entity.name) = some old ∧
      resolveEntity entity (some old) = .merge ∧
      g.place env userId entity = (old.entityId, { g with
        rows := Table.updateWhere (fun r => r.entityId == old.entityId)
          (mergeExtracted env entity old) g.rows })) ∨
    (∀ old, g.rows.find? (EntityRow.answersTo env userId entity.name) = some old →
        resolveEntity entity (some old) ≠ .merge) ∧
      g.place env userId entity = g.add env userId entity := by
  unfold Registry.place
  cases hfound : g.rows.find? (EntityRow.answersTo env userId entity.name) with
  | none =>
    refine .inr ⟨fun old hold => ?_, rfl⟩
    cases hold
  | some old =>
    by_cases hres : resolveEntity entity (some old) = .merge
    · exact .inl ⟨old, rfl, hres, by simp only [hres]⟩
    · refine .inr ⟨fun old' hold => ?_, ?_⟩
      · cases hold
        exact hres
      · dsimp only
        split
        · rename_i hmerge _
          exact absurd hmerge hres
        · rfl

theorem Registry.place_fresh (hinj : Function.Injective env.uuid4) {g : Registry} (h : g.Fresh env)
    (entity : ExtractedEntity) : (g.place env userId entity).2.Fresh env := by
  rcases g.place_cases env userId entity with ⟨old, -, -, hplace⟩ | ⟨-, hplace⟩
  · rw [hplace]
    intro n hn r hr
    rcases Table.mem_updateWhere.mp hr with ⟨x, hx, -, rfl⟩ | ⟨hx, -⟩
    · exact h n hn x hx
    · exact h n hn r hx
  · rw [hplace]
    exact add_fresh hinj h entity

/-- A statement on the entities: what it leaves, and the row it is about. -/
structure Placed (s : Store) (n : String × Registry) (t : Store) : Prop where
  registry : t.registry = n.2
  relations : t.db.entityRelations = s.db.entityRelations
  there : t.db.entities.any (fun r => r.entityId == n.1) = true

theorem insertNewEntity_wp (h : s.registry.Fresh env) (entity : ExtractedEntity) :
    wp (fun r t => r = .ok (env.uuid4 s.uuidsDrawn) ∧
        Placed s (s.registry.add env userId entity) t)
      (insertNewEntity env entity userId) s := by
  have hfree : (s.db.entities.any fun r => r.entityId == env.uuid4 s.uuidsDrawn) = false := by
    rw [List.any_eq_false]
    intro r hr he
    exact h _ (Nat.le_refl _) r hr (by simpa [Store.registry] using he)
  rw [insertNewEntity, wp_bind]
  refine wp_act.mpr ?_
  show wp _ _ _
  rw [wp_bind]
  refine wp_actE.mpr ?_
  simp only [hfree, Bool.false_eq_true, if_false]
  exact ⟨rfl, rfl, rfl, by simp [Registry.add, Store.registry]⟩

theorem placeEntity_wp (h : s.registry.Fresh env) (entity : ExtractedEntity) :
    wp (fun r t => r = .ok (s.registry.place env userId entity).1 ∧
        Placed s (s.registry.place env userId entity) t)
      (placeEntity env entity userId
        (s.db.entities.find? (EntityRow.answersTo env userId entity.name))) s := by
  unfold placeEntity Registry.place
  simp only [Store.registry]
  cases hfound : s.db.entities.find? (EntityRow.answersTo env userId entity.name) with
  | none => exact insertNewEntity_wp h entity
  | some old =>
    have hold : old ∈ s.db.entities := List.mem_of_find?_eq_some hfound
    cases resolveEntity entity (some old) with
    | new => exact insertNewEntity_wp h entity
    | ambiguous =>
      simp only
      refine wp_bind.mpr ((insertNewEntity_wp h entity).mono fun r t ht => ?_)
      obtain ⟨rfl, hpl⟩ := ht
      -- both candidates of the review are there
      have hrows := congrArg Registry.rows hpl.registry
      have hboth : (t.db.entities.any (fun r => r.entityId == old.entityId) &&
          t.db.entities.any (fun r => r.entityId == env.uuid4 s.uuidsDrawn)) = true := by
        rw [Bool.and_eq_true]
        refine ⟨List.any_eq_true.mpr ⟨old, ?_, by simp⟩, hpl.there⟩
        show old ∈ t.registry.rows
        rw [hrows]
        exact List.mem_append_left _ hold
      show wp _ _ _
      rw [wp_bind]
      refine wp_actE.mpr ?_
      simp only [hboth, if_true]
      exact ⟨rfl, hpl.registry, hpl.relations, hpl.there⟩
    | merge =>
      simp only
      refine wp_bind.mpr (wp_act.mpr ⟨rfl, rfl, rfl, ?_⟩)
      refine List.any_eq_true.mpr ⟨mergeExtracted env entity old old, ?_, by
        simp [mergeExtracted_entityId]⟩
      exact Table.mem_updateWhere.mpr (.inl ⟨old, hold, by simp, rfl⟩)

/-- What storing an extraction's entities one after the other leaves. -/
structure Stored (env : Env) (userId path : String) (s : Store) (n : List String × Registry)
    (t : Store) : Prop where
  registry : t.registry = n.2
  wf : EntitiesWf env t
  relations : ∀ e, e ∈ documentEntities userId path t ↔
    e ∈ documentEntities userId path s ∨ e ∈ n.1

theorem upsertEntity_wp (hinj : Function.Injective env.uuid4) (h : EntitiesWf env s)
    (entity : ExtractedEntity) :
    wp (fun r t => r = .ok (s.registry.place env userId entity).1 ∧
        Stored env userId path s ([(s.registry.place env userId entity).1],
          (s.registry.place env userId entity).2) t)
      (upsertEntity env entity path .document userId) s := by
  rw [upsertEntity, wp_bind]
  refine wp_query.mpr (wp_bind.mpr ((placeEntity_wp h.fresh entity).mono fun r t ht => ?_))
  obtain ⟨rfl, hpl⟩ := ht
  have hfresh : t.registry.Fresh env := by
    rw [hpl.registry]
    exact Registry.place_fresh hinj (g := s.registry) h.fresh entity
  have hwf : EntitiesWf env t := ⟨hfresh, fun er her => h.evidence er (hpl.relations ▸ her)⟩
  obtain ⟨rs, hinsert, hwf, hmem⟩ := insertRelation_documentEntities userId path hwf hpl.there
  show wp _ _ _
  rw [wp_bind]
  refine wp_actE.mpr ?_
  simp only [hinsert]
  show wp _ _ _
  rw [wp_bind]
  refine wp_query.mpr (wp_bind.mpr (wp_act.mpr ⟨rfl, hpl.registry, ⟨hwf.fresh, hwf.evidence⟩, fun e => ?_⟩))
  rw [List.mem_singleton]
  refine (hmem e).trans (or_congr_left ?_)
  simp only [mem_documentEntities, hpl.relations]

theorem storeEntities_wp (hinj : Function.Injective env.uuid4) (h : EntitiesWf env s)
    (path : String) (entities : List ExtractedEntity) :
    wp (fun r t => r = .ok (extractionIds env userId entities s) ∧
        Stored env userId path s
          (s.registry.placeAll env userId (scoreAndFilterEntities env entities)) t)
      (storeEntities env entities path .document userId) s := by
  refine wp_foldM (fun ys ids t => ids = (s.registry.placeAll env userId ys).1 ∧
    Stored env userId path s (s.registry.placeAll env userId ys) t) ?_ ?_ ?_
  · exact ⟨rfl, rfl, h, fun e => by simp [Registry.placeAll]⟩
  · rintro ys entity ids t - ⟨rfl, hst⟩
    have hnext : s.registry.placeAll env userId (ys ++ [entity]) =
        Registry.placeNext env userId (s.registry.placeAll env userId ys) entity := by
      simp [Registry.placeAll, List.foldl_append]
    refine wp_bind.mpr (wp_attempt.mpr ((upsertEntity_wp hinj hst.wf entity).mono fun r u hu => ?_))
    obtain ⟨rfl, hone⟩ := hu
    rw [hst.registry] at hone
    rw [hnext]
    refine ⟨by rw [hst.registry]; rfl, hone.registry, hone.wf, fun e => ?_⟩
    rw [hone.relations, hst.relations]
    simp [Registry.placeNext, or_assoc]
  · exact fun ids t ht => ⟨by rw [ht.1]; rfl, ht.2⟩

theorem pruneStale_wp (h : EntitiesWf env s) (hpath : path ≠ "") (huser : userId ≠ "")
    (keep : List String) :
    wp (fun r t => ∃ removed, r = .ok removed ∧
        (∀ e, e ∈ removed ↔ e ∈ documentEntities userId path s ∧ e ∉ keep) ∧
        (∀ e, e ∈ documentEntities userId path t ↔ e ∈ documentEntities userId path s ∧ e ∈ keep) ∧
        EntitiesWf env t)
      (pruneStaleDocumentEntityRelations path userId keep) s := by
  rw [pruneStaleDocumentEntityRelations, if_neg (by simp [hpath, huser]), wp_bind]
  refine wp_query.mpr ?_
  simp only [seqPost]
  have hstale : ∀ e, e ∈ (s.db.entityRelations.filter fun er =>
      er.ofDocument path userId && !keep.contains er.sourceId).map RelationRow.sourceId ↔
      e ∈ documentEntities userId path s ∧ e ∉ keep := fun e => by
    simp only [mem_documentEntities, List.mem_map, List.mem_filter, Bool.and_eq_true,
      Bool.not_eq_true', List.contains_eq_mem, decide_eq_false_iff_not]
    constructor
    · rintro ⟨er, ⟨her, hof, hkeep⟩, rfl⟩
      exact ⟨⟨er, her, hof, rfl⟩, hkeep⟩
    · rintro ⟨⟨er, her, hof, rfl⟩, hkeep⟩
      exact ⟨er, ⟨her, hof, hkeep⟩, rfl⟩
  generalize ((s.db.entityRelations.filter fun er => er.ofDocument path userId &&
    !keep.contains er.sourceId).map RelationRow.sourceId) = stale at hstale ⊢
  split
  · rename_i hnone
    rw [hnone] at hstale
    refine ⟨[], rfl, hstale, fun e => ⟨fun he => ⟨he, ?_⟩, And.left⟩, h⟩
    by_contra hkeep
    exact List.not_mem_nil ((hstale e).mpr ⟨he, hkeep⟩)
  · refine wp_bind.mpr (wp_act.mpr ⟨_, rfl, hstale, fun e => ?_, h.fresh, fun er her =>
      h.evidence er (Table.mem_of_mem_deleteWhere her)⟩)
    simp only [mem_documentEntities, Table.mem_deleteWhere, Bool.and_eq_false_iff,
      List.contains_eq_mem, decide_eq_false_iff_not]
    constructor
    · rintro ⟨er, ⟨her, hgone⟩, hof, rfl⟩
      refine ⟨⟨er, her, hof, rfl⟩, ?_⟩
      by_contra hkeep
      rcases hgone with hno | hno
      · rw [hof] at hno
        cases hno
      · exact hno ((hstale er.sourceId).mpr ⟨mem_documentEntities.mpr ⟨er, her, hof, rfl⟩, hkeep⟩)
    · rintro ⟨⟨er, her, hof, rfl⟩, hkeep⟩
      exact ⟨er, ⟨her, .inr fun hgone => ((hstale er.sourceId).mp hgone).2 hkeep⟩, hof, rfl⟩

theorem emitDocumentEntities_wp (hinj : Function.Injective env.uuid4) (h : EntitiesWf env s)
    {file : SourceFile} (hpath : file.path ≠ "") (huser : userId ≠ "") :
    wp (fun r t => ∃ removed, r = .ok removed ∧
        (∀ e, e ∈ removed ↔ e ∈ documentEntities userId file.path s ∧
          e ∉ extractionIds env userId file.entities s) ∧
        (∀ e, e ∈ documentEntities userId file.path t ↔
          e ∈ extractionIds env userId file.entities s) ∧
        EntitiesWf env t)
      (emitDocumentEntities env file userId) s := by
  refine wp_tryCatch.mpr (wp_bind.mpr ?_)
  refine wp_bind.mpr (wp_attempt.mpr (wp_query.mpr ?_))
  show wp _ _ _
  refine wp_bind.mpr ((storeEntities_wp hinj h file.path file.entities).mono fun r t ht => ?_)
  obtain ⟨rfl, hst⟩ := ht
  refine (pruneStale_wp hst.wf hpath huser _).mono fun r u hu => ?_
  obtain ⟨removed, rfl, hremoved, hkept, hwf⟩ := hu
  refine ⟨removed, rfl, fun e => (hremoved e).trans ?_, fun e => (hkept e).trans ?_, hwf⟩
  · rw [hst.relations]
    exact and_congr_left fun hne => or_iff_left hne
  · rw [hst.relations]
    exact and_iff_right_of_imp .inr

end Storing

/-! ## Calls -/

structure PathIngest where
  ext : String
  hash : String
  /-- What the extractor makes of the file. -/
  text : Except PyErr String
  answer : ModelAnswer
  force : Bool
  onProgress : Option (Stage → M Unit)

def PathIngest.file (path : String) (call : PathIngest) : SourceFile :=
  { path := path, ext := call.ext, hash := call.hash, text := call.text,
    entities := call.answer.extracted }

def ingestPath (env : Env) (userId path : String) (call : PathIngest) : M IngestResult :=
  ingestFile env (call.file path) userId call.force call.onProgress

def pathStep (env : Env) (userId path : String) (call : PathIngest) (s : Store) : Option Store :=
  ((ingestPath env userId path call).exec s).map Prod.snd

/-- The progress callback only writes to the job. -/
def PathIngest.Quiet (call : PathIngest) : Prop :=
  ∀ report, call.onProgress = some report → ∀ stage, Always JobArm (report stage)

/-- The call does not stop before it clears the path and reads the file again. -/
def PathIngest.rereads (env : Env) (userId path : String) (call : PathIngest) (s : Store) : Bool :=
  userId != "" && env.extractors.contains call.ext &&
    !ingestUnchanged (call.file path) call.force
      (s.db.fileIndex.find? (FileRow.isPersonalAt userId path))

/-- `chunk_text` and `extract_entities` find nothing in a blank text. -/
def PathIngest.blank (env : Env) (call : PathIngest) : Bool :=
  call.text.toOption.any fun text => env.chunkText text = []

/-- What the extraction of the text finds; `none` when it fails. -/
def PathIngest.extraction (env : Env) (call : PathIngest) : Option (List ExtractedEntity) :=
  if call.blank env then some [] else if call.answer.isList then some call.answer.extracted else none

/-- The relations after a call that has returned are the entities of the extraction, or the ones
before when it failed, and then none is passed on to the retraction of shared entities. -/
structure RelationsFollow (env : Env) (userId path : String) (call : PathIngest) (s : Store)
    (result : IngestResult) (t : Store) : Prop where
  found : ∀ entities, call.extraction env = some entities →
    ∀ e, e ∈ documentEntities userId path t ↔ e ∈ extractionIds env userId entities s
  kept : call.extraction env = none →
    (∀ e, e ∈ documentEntities userId path t ↔ e ∈ documentEntities userId path s) ∧
      result.removedDocumentEntityIds = []

/-- Entities and their relations are untouched. -/
structure SameEntities (s t : Store) : Prop where
  registry : t.registry = s.registry
  relations : t.db.entityRelations = s.db.entityRelations

theorem SameEntities.refl (s : Store) : SameEntities s s := ⟨rfl, rfl⟩

theorem SameEntities.trans (s t u : Store) (h : SameEntities s t) (h' : SameEntities t u) :
    SameEntities s u := ⟨h'.1.trans h.1, h'.2.trans h.2⟩

theorem SameEntities.of_documentArm (s t : Store) (h : DocumentArm s t) : SameEntities s t := by
  obtain ⟨ds, rfl⟩ := h
  exact ⟨rfl, rfl⟩

theorem SameEntities.of_jobArm (s t : Store) (h : JobArm s t) : SameEntities s t := by
  obtain ⟨js, rfl⟩ := h
  exact ⟨rfl, rfl⟩

section Calls

variable {env : Env} {userId path : String} {s t : Store} {call : PathIngest}

theorem SameEntities.documentEntities (h : SameEntities s t) :
    documentEntities userId path t = documentEntities userId path s := by
  rw [Lumogis.documentEntities, h.relations, Lumogis.documentEntities]

theorem SameEntities.extractionIds (h : SameEntities s t) (entities : List ExtractedEntity) :
    extractionIds env userId entities t = extractionIds env userId entities s := by
  rw [Lumogis.extractionIds, h.registry, Lumogis.extractionIds]

theorem EntitiesWf.same (h : EntitiesWf env s) (hs : SameEntities s t) : EntitiesWf env t where
  fresh n hn r hr := by
    have hrows := congrArg Registry.rows hs.registry
    have hdrawn := congrArg Registry.drawn hs.registry
    simp only [Store.registry] at hrows hdrawn
    exact h.fresh n (hdrawn ▸ hn) r (hrows ▸ hr)
  evidence er her := h.evidence er (hs.relations ▸ her)

/-- What a call that has returned leaves, when the text is not blank. -/
structure Emitted (env : Env) (userId path : String) (entities : List ExtractedEntity) (s : Store)
    (result : IngestResult) (t : Store) : Prop where
  removed : ∀ e, e ∈ result.removedDocumentEntityIds ↔
    e ∈ documentEntities userId path s ∧ e ∉ extractionIds env userId entities s
  relations : ∀ e, e ∈ documentEntities userId path t ↔ e ∈ extractionIds env userId entities s
  wf : EntitiesWf env t

theorem reportProgress_sameEntities (hquiet : call.Quiet) (stage : Stage) :
    Always SameEntities (reportProgress call.onProgress stage) :=
  (reportProgress_frame hquiet stage).mono SameEntities.of_jobArm

theorem finishIngest_outcome (hinj : Function.Injective env.uuid4) (h : EntitiesWf env s)
    (hpath : path ≠ "") (huser : userId ≠ "") (hquiet : call.Quiet) {existing : Option FileRow}
    {n : Nat × Nat} {r : Except PyErr IngestResult}
    (he : (finishIngest env (call.file path) userId existing call.onProgress n).exec s =
      some (r, t)) :
    (∃ e, r = .error e ∧ SameEntities s t) ∨
      ∃ result, r = .ok result ∧ Emitted env userId path call.answer.extracted s result t := by
  have hrow : Always SameEntities (if 0 < n.2 then
      (if existing.isSome then
        updateFileRow userId (call.file path).path fun r =>
          { r with chunkCount := n.1, fileType := (call.file path).ext }
      else
        pure ())
    else
      statementE (Db.upsertFile (call.file path).path (call.file path).hash (call.file path).ext
        n.1 userId)) := by
    split
    · split
      · exact always_execute fun _ => ⟨rfl, rfl⟩
      · trivial
    · refine always_statementE SameEntities.refl fun s a db hdb => ?_
      simp only [Db.upsertFile] at hdb
      split at hdb
      · cases hdb; exact ⟨rfl, rfl⟩
      · split at hdb
        · cases hdb
        · cases hdb; exact ⟨rfl, rfl⟩
  rw [finishIngest] at he
  rcases hrow.exec_bind SameEntities.refl SameEntities.trans he with ⟨e, hr, hs⟩ | ⟨_, u, -, hu, he⟩
  · exact .inl ⟨e, hr, hs⟩
  have hgraph : Always SameEntities
      (if graphFeatureEnabled env then reportProgress call.onProgress .graph else pure ()) := by
    split
    · exact reportProgress_sameEntities hquiet _
    · trivial
  rcases hgraph.exec_bind SameEntities.refl SameEntities.trans he with ⟨e, hr, hs⟩ | ⟨_, v, -, hv, he⟩
  · exact .inl ⟨e, hr, hu.trans _ _ _ hs⟩
  have hsv := hu.trans _ _ _ hv
  have hemit : wp (fun r t => ∃ result, r = .ok result ∧
      Emitted env userId path call.answer.extracted s result t)
      (do
        let removed ← emitDocumentEntities env (call.file path) userId
        pure { filePath := (call.file path).path, chunkCount := n.1, skipped := false,
               removedDocumentEntityIds := removed }) v := by
    refine wp_bind.mpr ((emitDocumentEntities_wp hinj (h.same hsv) hpath huser).mono fun r w hw => ?_)
    obtain ⟨removed, rfl, hremoved, hrelations, hwf⟩ := hw
    rw [hsv.documentEntities, hsv.extractionIds] at hremoved
    rw [hsv.extractionIds] at hrelations
    exact ⟨_, rfl, hremoved, hrelations, hwf⟩
  exact .inr (hemit.exec he)

theorem ingestChanged_outcome (hinj : Function.Injective env.uuid4) (h : EntitiesWf env s)
    (hpath : path ≠ "") (huser : userId ≠ "") (hquiet : call.Quiet) {existing : Option FileRow}
    {r : Except PyErr IngestResult}
    (he : (ingestChanged env (call.file path) userId existing call.onProgress).exec s =
      some (r, t)) :
    (∃ e, r = .error e ∧ SameEntities s t) ∨ ∃ result, r = .ok result ∧
      if call.blank env then result.removedDocumentEntityIds = [] ∧ SameEntities s t
      else Emitted env userId path call.answer.extracted s result t := by
  have hreport := reportProgress_sameEntities hquiet
  unfold ingestChanged at he
  rcases ((deleteDocumentVectorsForPath_frame env userId _ _).mono
    SameEntities.of_documentArm).exec_bind SameEntities.refl SameEntities.trans he with
    ⟨e, hr, hs⟩ | ⟨_, u, -, hu, he⟩
  · exact .inl ⟨e, hr, hs⟩
  rcases (hreport _).exec_bind SameEntities.refl SameEntities.trans he with
    ⟨e, hr, hs⟩ | ⟨_, v, -, hv, he⟩
  · exact .inl ⟨e, hr, hu.trans _ _ _ hs⟩
  have hsv := hu.trans _ _ _ hv
  cases htext : call.text with
  | error e =>
    simp only [PathIngest.file, htext, exec_raise, Option.some.injEq, Prod.mk.injEq] at he
    obtain ⟨rfl, rfl⟩ := he
    exact .inl ⟨e, rfl, hsv⟩
  | ok text =>
    have hblank : call.blank env = decide (env.chunkText text = []) := by
      simp [PathIngest.blank, htext, Except.toOption]
    simp only [PathIngest.file, htext] at he
    rcases (hreport _).exec_bind SameEntities.refl SameEntities.trans he with
      ⟨e, hr, hs⟩ | ⟨_, w, -, hw, he⟩
    · exact .inl ⟨e, hr, hsv.trans _ _ _ hs⟩
    have hsw := hsv.trans _ _ _ hw
    rw [hblank]
    by_cases hnone : env.chunkText text = []
    · -- the relations are left alone
      simp only [hnone, if_true, decide_true] at he ⊢
      cases existing with
      | none =>
        cases he
        exact .inr ⟨_, rfl, rfl, hsw⟩
      | some row =>
        have hupdate : Always SameEntities (updateFileRow userId path fun r : FileRow =>
            { r with chunkCount := 0, fileHash := call.hash, fileType := call.ext }) :=
          always_execute fun _ => ⟨rfl, rfl⟩
        rcases hupdate.exec_bind SameEntities.refl SameEntities.trans he with
          ⟨e, hr, hs⟩ | ⟨_, x, -, hx, he⟩
        · exact .inl ⟨e, hr, hsw.trans _ _ _ hs⟩
        · cases he
          exact .inr ⟨_, rfl, rfl, hsw.trans _ _ _ hx⟩
    · simp only [hnone, if_false, decide_false, Bool.false_eq_true] at he ⊢
      rcases (hreport _).exec_bind SameEntities.refl SameEntities.trans he with
        ⟨e, hr, hs⟩ | ⟨_, x, -, hx, he⟩
      · exact .inl ⟨e, hr, hsw.trans _ _ _ hs⟩
      have hsx := hsw.trans _ _ _ hx
      rcases ((ingestChunkedText_frame env userId path _ text _).mono
        SameEntities.of_documentArm).exec_bind SameEntities.refl SameEntities.trans he with
        ⟨e, hr, hs⟩ | ⟨n, y, -, hy, he⟩
      · exact .inl ⟨e, hr, hsx.trans _ _ _ hs⟩
      have hsy := hsx.trans _ _ _ hy
      have hfile : call.file path = ⟨path, call.ext, call.hash, .ok text, call.answer.extracted⟩ := by
        rw [PathIngest.file, htext]
      rw [← hfile] at he
      rcases finishIngest_outcome hinj (h.same hsy) hpath huser hquiet he with
        ⟨e, hr, hs⟩ | ⟨result, hr, hem⟩
      · exact .inl ⟨e, hr, hsy.trans _ _ _ hs⟩
      · refine .inr ⟨result, hr, fun e => ?_, fun e => ?_, hem.wf⟩
        · rw [hem.removed, hsy.documentEntities, hsy.extractionIds]
        · rw [hem.relations, hsy.extractionIds]

theorem ingestPath_outcome (hinj : Function.Injective env.uuid4) (h : EntitiesWf env s)
    (hpath : path ≠ "") (hquiet : call.Quiet) {r : Except PyErr IngestResult}
    (he : (ingestPath env userId path call).exec s = some (r, t)) :
    if call.rereads env userId path s then
      (∃ e, r = .error e ∧ SameEntities s t) ∨ ∃ result, r = .ok result ∧
        if call.blank env then result.removedDocumentEntityIds = [] ∧ SameEntities s t
        else Emitted env userId path call.answer.extracted s result t
    else SameEntities s t := by
  unfold ingestPath ingestFile at he
  by_cases huser : userId = ""
  · simp only [huser, if_true, exec_raise, Option.some.injEq, Prod.mk.injEq] at he
    obtain ⟨-, rfl⟩ := he
    have hreads : call.rereads env userId path s = false := by simp [PathIngest.rereads, huser]
    rw [hreads]
    exact .refl s
  rw [if_neg huser] at he
  by_cases hext : env.extractors.contains call.ext
  · rw [if_pos (by simpa [PathIngest.file] using hext), exec_bind] at he
    simp only [select, exec_query, Option.bind_some, thenExec] at he
    by_cases hskip : ingestUnchanged (call.file path) call.force
        (s.db.fileIndex.find? (FileRow.isPersonalAt userId path))
    · rw [if_pos (by simpa [PathIngest.file] using hskip)] at he
      cases he
      have hreads : call.rereads env userId path s = false := by simp [PathIngest.rereads, hskip]
      rw [hreads]
      exact .refl s
    · rw [if_neg (by simpa [PathIngest.file] using hskip)] at he
      have hreads : call.rereads env userId path s = true := by
        simp only [PathIngest.rereads, hext, hskip, Bool.not_false, Bool.and_true, bne_iff_ne]
        exact huser
      rw [if_pos hreads]
      exact ingestChanged_outcome hinj h hpath huser hquiet he
  · rw [if_neg (by simpa [PathIngest.file] using hext)] at he
    cases he
    have hno : env.extractors.contains call.ext = false := by simpa using hext
    have hreads : call.rereads env userId path s = false := by
      simp only [PathIngest.rereads, hno, Bool.and_false, Bool.false_and]
    rw [hreads]
    exact .refl s

theorem pathStep_wf (hinj : Function.Injective env.uuid4) (hpath : path ≠ "")
    (h : EntitiesWf env s) (hquiet : call.Quiet) (hs : pathStep env userId path call s = some t) :
    EntitiesWf env t := by
  obtain ⟨⟨r, t'⟩, he, rfl⟩ := Option.map_eq_some_iff.mp hs
  have hout := ingestPath_outcome hinj h hpath hquiet he
  split at hout
  · rcases hout with ⟨e, -, hsame⟩ | ⟨result, -, hout⟩
    · exact h.same hsame
    · split at hout
      · exact h.same hout.2
      · exact hout.wf
  · exact h.same hout

theorem extractionIds_nil : extractionIds env userId [] s = [] := rfl

theorem mem_iff_nil {l : List String} : (∀ e, e ∈ l ↔ e ∈ ([] : List String)) ↔ l = [] := by
  simp [List.eq_nil_iff_forall_not_mem]

/-- After every run on a path: what a call that reads the file again leaves of the relations. -/
theorem relations_follow_document {s₀ : Store} (hinj : Function.Injective env.uuid4)
    (h₀ : EntitiesWf env s₀) (hpath : path ≠ "")
    (hruns : Reaches (pathStep env userId path) (fun call _ => call.Quiet) s₀ s)
    (hquiet : call.Quiet) (hreads : call.rereads env userId path s = true)
    {r : Except PyErr IngestResult}
    (he : (ingestPath env userId path call).exec s = some (r, t)) :
    (∀ e, r = .error e → documentEntities userId path t = documentEntities userId path s) ∧
      ∀ result, r = .ok result → (RelationsFollow env userId path call s result t ↔
        (call.blank env = false ∧ call.answer.isList = true) ∨
          documentEntities userId path s = []) := by
  have h := hruns.invariant h₀ fun _ _ _ hi hq hs => pathStep_wf hinj hpath hi hq hs
  have hout := ingestPath_outcome hinj h hpath hquiet he
  rw [if_pos hreads] at hout
  rcases hout with ⟨e, rfl, hsame⟩ | ⟨result, rfl, hout⟩
  · exact ⟨fun _ _ => hsame.documentEntities, fun _ hr => (by cases hr)⟩
  refine ⟨fun _ hr => (by cases hr), fun _ hr => ?_⟩
  cases hr
  cases hblank : call.blank env with
  | true =>
    -- a blank text mentions nothing, and the relations stay
    rw [hblank, if_pos rfl] at hout
    have hex : call.extraction env = some [] := by simp [PathIngest.extraction, hblank]
    simp only [Bool.true_eq_false, false_and, false_or]
    rw [← mem_iff_nil, ← hout.2.documentEntities]
    constructor
    · exact fun hf => hf.found [] hex
    · refine fun hnil => ⟨fun entities hes => ?_, fun hno => by rw [hex] at hno; cases hno⟩
      rw [hex] at hes
      cases hes
      exact hnil
  | false =>
    rw [hblank, if_neg Bool.false_ne_true] at hout
    cases hlist : call.answer.isList with
    | true =>
      have hex : call.extraction env = some call.answer.extracted := by
        simp [PathIngest.extraction, hblank, hlist]
      simp only [and_self, true_or, iff_true]
      refine ⟨fun entities hes => ?_, fun hno => by rw [hex] at hno; cases hno⟩
      rw [hex] at hes
      cases hes
      exact hout.relations
    | false =>
      -- a failed extraction finds nothing, and the pruning drops every relation
      have hex : call.extraction env = none := by simp [PathIngest.extraction, hblank, hlist]
      have hnone : call.answer.extracted = [] := by
        cases hanswer : call.answer with
        | list items => simp [hanswer, ModelAnswer.isList] at hlist
        | _ => rfl
      have hgone := hout.relations
      rw [hnone, extractionIds_nil] at hgone
      simp only [Bool.false_eq_true, and_false, false_or]
      constructor
      · refine fun hf => mem_iff_nil.mp fun e => ?_
        rw [← (hf.kept hex).1 e]
        exact hgone e
      · refine fun hnil => ⟨fun entities hes => ?_, fun _ => ⟨fun e => ?_, ?_⟩⟩
        · rw [hex] at hes
          cases hes
        · rw [hnil]
          exact hgone e
        · refine mem_iff_nil.mp fun e => (hout.removed e).trans ?_
          simp [hnil]

end Calls

namespace RelationsExample

/-- Hashes are the texts. -/
def env : Env :=
  { Env.plain .inprocess with chunkText := fun text => if text = "" then [] else [text] }

def ingest (text : String) (answer : ModelAnswer) : PathIngest :=
  ⟨".txt", text, .ok text, answer, false, none⟩

theorem ingest_quiet (text : String) (answer : ModelAnswer) : (ingest text answer).Quiet :=
  fun _ h => by cases h

def ada : ExtractedEntity := ⟨"Ada", "PERSON", [], ["computing"], none, none⟩

def reached (calls : List PathIngest) : Store :=
  (run (pathStep env "alice" "/a.txt") calls .empty).getD .empty

/-- After a call that finds one entity. -/
def shared : Store := reached [ingest "x" (.list [some ada])]

theorem empty_wf : EntitiesWf env .empty where
  fresh _ _ _ hr := by cases hr
  evidence _ her := by cases her

theorem reaches_shared :
    Reaches (pathStep env "alice" "/a.txt") (fun call _ => call.Quiet) .empty shared :=
  run_reaches (show run _ [ingest "x" (.list [some ada])] _ = some shared from rfl)
    ⟨ingest_quiet _ _, fun _ _ => trivial⟩

end RelationsExample

section Runs

open RelationsExample

/-- The model finds nothing in the second text. -/
theorem relations_follow_document_dropped :
    documentEntities "alice" "/a.txt" (reached [ingest "x" (.list [some ada]),
      ingest "y" (.list [])]) = [] := by
  have h := (relations_follow_document repr_injective empty_wf (by decide) reaches_shared
    (ingest_quiet "y" (.list [])) (by decide)
    (show (ingestPath env "alice" "/a.txt" (ingest "y" (.list []))).exec shared =
      some (_, reached [ingest "x" (.list [some ada]), ingest "y" (.list [])]) from rfl)).2 _ rfl
  exact mem_iff_nil.mp ((h.mpr (.inl (by decide))).found [] rfl)

/-- The model fails on the second text, and the relation is dropped; or the second text is blank,
and it stays. -/
theorem relations_astray :
    (∃ s t result, Reaches (pathStep env "alice" "/a.txt") (fun call _ => call.Quiet) .empty s ∧
      (ingest "y" .callFailed).rereads env "alice" "/a.txt" s = true ∧
      (ingestPath env "alice" "/a.txt" (ingest "y" .callFailed)).exec s = some (.ok result, t) ∧
      ¬ RelationsFollow env "alice" "/a.txt" (ingest "y" .callFailed) s result t) ∧
    ∃ s t result, Reaches (pathStep env "alice" "/a.txt") (fun call _ => call.Quiet) .empty s ∧
      (ingest "" .callFailed).rereads env "alice" "/a.txt" s = true ∧
      (ingestPath env "alice" "/a.txt" (ingest "" .callFailed)).exec s = some (.ok result, t) ∧
      ¬ RelationsFollow env "alice" "/a.txt" (ingest "" .callFailed) s result t := by
  refine ⟨⟨shared, _, _, reaches_shared, by decide, rfl, fun h => ?_⟩,
    ⟨shared, _, _, reaches_shared, by decide, rfl, fun h => ?_⟩⟩
  · exact absurd (((h.kept rfl).1 "0").mpr (by decide)) (by decide)
  · exact absurd ((h.found [] rfl "0").mp (by decide)) (by decide)

end Runs

end Lumogis
