import Lumogis.Frames

/-!
# PurgeExactness

What the transaction of a document purge changes, row by row: which entities are garbage, which shared
projections go or lose their second justification, and what stays.
-/

namespace Lumogis

open Prog

/-- The tables once the orphans are deleted. -/
def Db.orphansDeleted (userId : String) (documentId : Nat) (filePath : String) (db : Db) : Db :=
  let db₁ := db.deleteFiles fun r => r.publishedFrom == some documentId
  let db₂ := { db₁ with
    entityRelations := Table.deleteWhere (RelationRow.ofDocument filePath userId) db₁.entityRelations }
  db₂.deleteEntities fun r =>
    (db₁.orphanEntities filePath userId).contains r.entityId && r.userId == userId && r.scope == .personal

/-- The tables that the transaction leaves. -/
def Db.purgedRows (userId : String) (documentId : Nat) (filePath : String) (chunkCount : Nat) (db : Db) : Db :=
  let db₁ := db.deleteFiles fun r => r.publishedFrom == some documentId
  let plan := splitRetractAndDowngrade (db₁.planRows filePath userId fun pe => db₁.mentions filePath userId pe.entityId)
  let db₅ := ((db.orphansDeleted userId documentId filePath).deleteProjections plan.retractIds).downgradeEntities plan.downgradeIds
  (db₅.deleteFiles (FileRow.isSource userId documentId)).insertTombstone
    { userId := userId
      documentId := documentId
      filePath := filePath
      chunkCount := chunkCount
      qdrantDeleted := false
      graphDeleted := false
      qdrantEntitiesDeleted := false
      orphanEntityIds := db₁.orphanEntities filePath userId
      errors := []
      resolved := false }

variable {userId filePath : String} {documentId chunkCount : Nat} {s : Store} {db : Db}

theorem deleteEntities_of_none {p : EntityRow → Bool} (h : ∀ r ∈ db.entities, p r = false) : db.deleteEntities p = db := by
  have hnone : db.entities.filter p = [] := List.filter_eq_nil_iff.mpr fun r hr => by simp [h r hr]
  have hgone : ∀ r ∈ db.entities, db.entityGone p r = false := by
    intro r hr
    simp [Db.entityGone, h r hr, hnone]
  have hnone' : db.entities.filter (Db.entityGone p db) = [] :=
    List.filter_eq_nil_iff.mpr fun r hr => by simp [hgone r hr]
  rw [Db.deleteEntities, hnone', Table.deleteWhere_eq_self hgone, Table.deleteWhere_eq_self (by simp), Table.deleteWhere_eq_self (by simp)]

theorem downgradeEntities_nil : db.downgradeEntities [] = db := by
  rw [Db.downgradeEntities, Table.updateWhere_eq_self (by simp)]

theorem wp_executeUnless {Q : Except PyErr Unit → Store → Prop} {c : Prop} [Decidable c] {f : Db → Db} (h : c → f s.db = s.db)
    (hq : Q (.ok ()) { s with db := f s.db }) : wp Q (if c then pure () else execute f : M Unit) s := by
  split_ifs with hc
  · rw [h hc] at hq
    exact hq
  · exact wp_act.mpr hq

theorem purgeRows_leaves : wp (fun r t => ∃ gone, r = .ok gone ∧
    t = { s with db := s.db.purgedRows userId documentId filePath chunkCount })
    (purgeRows userId documentId filePath chunkCount) s := by
  refine wp_bind.mpr (wp_act.mpr (wp_bind.mpr (wp_query.mpr (wp_bind.mpr (wp_query.mpr (wp_bind.mpr (wp_act.mpr ?_)))))))
  refine wp_bind.mpr (wp_executeUnless (fun hnil => deleteEntities_of_none fun r _ => by simp [hnil]) ?_)
  refine wp_bind.mpr (wp_executeUnless (fun hnil => deleteEntities_of_none fun r _ => by simp [hnil]) ?_)
  refine wp_bind.mpr (wp_executeUnless (fun hnil => by rw [hnil]; exact downgradeEntities_nil) ?_)
  exact wp_bind.mpr (wp_act.mpr (wp_bind.mpr (wp_act.mpr ⟨_, rfl, rfl⟩)))

theorem purgeTransaction_exec (h : s.openTxn = none) : ∃ gone,
    (transaction (purgeRows userId documentId filePath chunkCount)).exec s =
      some (.ok gone, { s with db := s.db.purgedRows userId documentId filePath chunkCount }) := by
  have hwp : wp (fun r t => ∃ gone, r = .ok gone ∧ t = { s with db := s.db.purgedRows userId documentId filePath chunkCount })
      (transaction (purgeRows userId documentId filePath chunkCount)) s := by
    refine transaction_wp (fun hopen => absurd h hopen) (purgeRows_leaves.mono fun r t hr => ?_)
    obtain ⟨gone, rfl, rfl⟩ := hr
    exact ⟨gone, rfl, by rw [h]⟩
  obtain ⟨r, t, hrun, gone, rfl, rfl⟩ := wp_iff.mp hwp
  exact ⟨gone, hrun⟩

/-! ## The law -/

/-- What the schema and the writers of projections keep: keys are unique, what is published is a personal row, and a
source has one projection in a scope. -/
structure PublishedOk (db : Db) : Prop where
  entityIds : (db.entities.map EntityRow.entityId).Nodup
  unpublished : ∀ r ∈ db.entities, r.scope = .personal → r.publishedFrom = none
  sources : ∀ r ∈ db.entities, ∀ q ∈ db.entities, r.publishedFrom = some q.entityId → q.scope = .personal
  projections : ∀ r ∈ db.entities, ∀ q ∈ db.entities, r.publishedFrom ≠ none → r.publishedFrom = q.publishedFrom →
    r.scope = q.scope → r = q
  files : ∀ r ∈ db.fileIndex, ∀ q ∈ db.fileIndex, r.publishedFrom = some q.id → q.publishedFrom = none

namespace Db

def holdsEntity (db : Db) (id : String) : Bool := db.entities.any (·.entityId == id)

/-- The document mentions the entity, and nothing else does. -/
def OnlyMentionedBy (db : Db) (filePath owner id : String) : Prop :=
  db.mentions filePath owner id = true ∧
    ∀ er ∈ db.entityRelations, er.sourceId = id → er.userId = owner → er.ofDocument filePath owner = true

/-- A shared row that no document accounts for alone. -/
def DirectlyShared (db : Db) (id : String) : Prop :=
  ∃ sh ∈ db.entities, sh.projects id .shared = true ∧
    (sh.shareOrigin = some .user ∨ sh.shareOrigin = some .multiple ∨ sh.shareOrigin = none)

/-- The document mentions the owner's entity, and no other document that is shared does. -/
def lastJustifies (db : Db) (documentId : Nat) (filePath owner id : String) : Bool :=
  db.entities.any (fun e => e.entityId == id && e.scope == .personal && e.userId == owner) &&
    db.mentions filePath owner id &&
    !(db.fileIndex.any fun sf => sf.publishedFrom != some documentId && (sf.scope == .shared && sf.userId == owner &&
      sf.filePath != filePath && db.mentions sf.filePath owner id))

/-- A shared row of this origin that loses its last document. -/
def losesDocument (db : Db) (documentId : Nat) (filePath owner : String) (origin : ShareOrigin) (r : EntityRow) : Bool :=
  r.scope == .shared && r.shareOrigin == some origin && r.publishedFrom.any (db.lastJustifies documentId filePath owner)

end Db

/-- What a purge of the document makes of the tables. -/
structure PurgedExactly (userId : String) (documentId : Nat) (filePath : String) (db db' : Db) : Prop where
  /-- An entity is deleted as an orphan only, and an orphan is, as far as every share of it says where it is from. -/
  personal : ∀ e ∈ db.entities, e.scope = .personal → e.userId = userId →
    (∀ sh ∈ db.entities, sh.projects e.entityId .shared = true → sh.shareOrigin ≠ none) →
    (db'.holdsEntity e.entityId = false ↔ db.OnlyMentionedBy filePath userId e.entityId ∧ ¬ db.DirectlyShared e.entityId)
  deleted : ∀ r ∈ db.entities, db'.holdsEntity r.entityId = false →
    (r.scope = .personal ∧ r.userId = userId ∧ db.OnlyMentionedBy filePath userId r.entityId) ∨
    (∃ e ∈ db.entities, r.publishedFrom = some e.entityId ∧ db'.holdsEntity e.entityId = false) ∨
    db.losesDocument documentId filePath userId .document r = true
  entities : db'.entities = (db.entities.filter fun r => db'.holdsEntity r.entityId).map fun r =>
    if db.losesDocument documentId filePath userId .multiple r then { r with shareOrigin := some .user } else r
  relations : db'.entityRelations = Table.deleteWhere (fun er => er.ofDocument filePath userId ||
    db.entities.any fun e => e.entityId == er.sourceId && !db'.holdsEntity e.entityId) db.entityRelations
  files : db'.fileIndex =
    Table.deleteWhere (fun r => r.publishedFrom == some documentId || r.isSource userId documentId) db.fileIndex

/-! ## The steps -/

theorem deleteFiles_published (h : PublishedOk db) :
    (db.deleteFiles fun r => r.publishedFrom == some documentId).fileIndex =
      Table.deleteWhere (fun r => r.publishedFrom == some documentId) db.fileIndex := by
  refine Table.deleteWhere_congr fun r hr => ?_
  have hnone : ((db.fileIndex.filter fun r => r.publishedFrom == some documentId).any
      fun g => r.publishedFrom == some g.id) = false := by
    rw [List.any_eq_false]
    intro g hg hsource
    obtain ⟨hg, hpub⟩ := List.mem_filter.mp hg
    have := h.files r hr g hg (by simpa using hsource)
    rw [this] at hpub
    cases hpub
  rw [hnone, Bool.or_false]

theorem mem_orphanEntities {id : String} : id ∈ db.orphanEntities filePath userId ↔
    ∃ e ∈ db.entities, e.entityId = id ∧ e.scope = .personal ∧ e.userId = userId ∧
      db.OnlyMentionedBy filePath userId id ∧
      ∀ sh ∈ db.entities, sh.projects id .shared = true → sh.shareOrigin ≠ some .user ∧ sh.shareOrigin ≠ some .multiple := by
  have hrelations : ∀ e : EntityRow, (db.entityRelations.any fun er => er.sourceId == e.entityId && er.userId == userId &&
      !(er.evidenceId == filePath && er.evidenceType == .document)) = false ↔
      ∀ er ∈ db.entityRelations, er.sourceId = e.entityId → er.userId = userId → er.ofDocument filePath userId = true := by
    intro e
    rw [List.any_eq_false]
    refine forall₂_congr fun er _ => ?_
    simp only [RelationRow.ofDocument, Bool.and_eq_true, beq_iff_eq, Bool.not_eq_true', Bool.and_eq_false_iff, beq_eq_false_iff_ne]
    tauto
  have hshares : ∀ e : EntityRow, (db.entities.any fun sh => sh.projects e.entityId .shared &&
      (sh.shareOrigin == some .user || sh.shareOrigin == some .multiple)) = false ↔
      ∀ sh ∈ db.entities, sh.projects e.entityId .shared = true →
        sh.shareOrigin ≠ some .user ∧ sh.shareOrigin ≠ some .multiple := by
    intro e
    rw [List.any_eq_false]
    refine forall₂_congr fun sh _ => ?_
    simp only [Bool.and_eq_true, Bool.or_eq_true, beq_iff_eq, not_and, not_or]
  simp only [Db.orphanEntities, List.mem_map, List.mem_filter, Bool.and_eq_true, Bool.not_eq_true', hrelations, hshares,
    beq_iff_eq, Db.OnlyMentionedBy]
  constructor
  · rintro ⟨e, ⟨he, ⟨⟨⟨huser, hscope⟩, hmentions⟩, honly⟩, hshare⟩, rfl⟩
    exact ⟨e, he, rfl, hscope, huser, ⟨hmentions, honly⟩, hshare⟩
  · rintro ⟨e, he, rfl, hscope, huser, ⟨hmentions, honly⟩, hshare⟩
    exact ⟨e, ⟨he, ⟨⟨⟨huser, hscope⟩, hmentions⟩, honly⟩, hshare⟩, rfl⟩

/-- The sources that the plan names for an origin. -/
def Db.plannedIds (db : Db) (filePath owner : String) (origin : ShareOrigin) : List String :=
  ((db.planRows filePath owner fun pe => db.mentions filePath owner pe.entityId).filter fun r =>
    !r.otherJustification && r.shareOrigin == some origin).map PlanRow.srcEntityId

theorem mem_plannedIds {origin : ShareOrigin} {i : String} : i ∈ db.plannedIds filePath userId origin ↔
    ∃ e ∈ db.entities, e.entityId = i ∧ e.scope = .personal ∧ e.userId = userId ∧ db.mentions filePath userId i = true ∧
      db.otherJustification filePath userId i = false ∧
      ∃ sh ∈ db.entities, sh.projects i .shared = true ∧ sh.shareOrigin = some origin := by
  simp only [Db.plannedIds, Db.planRows, List.mem_map, List.mem_filter, List.mem_flatMap, Bool.and_eq_true, beq_iff_eq,
    Bool.not_eq_true']
  constructor
  · rintro ⟨_, ⟨⟨e, ⟨he, ⟨hscope, huser⟩, hmentions⟩, sh, ⟨hsh, hprojects⟩, rfl⟩, hother, horigin⟩, rfl⟩
    exact ⟨e, he, rfl, hscope, huser, hmentions, hother, sh, hsh, hprojects, horigin⟩
  · rintro ⟨e, he, rfl, hscope, huser, hmentions, hother, sh, hsh, hprojects, horigin⟩
    exact ⟨_, ⟨⟨e, ⟨he, ⟨hscope, huser⟩, hmentions⟩, sh, ⟨hsh, hprojects⟩, rfl⟩, hother, horigin⟩, rfl⟩

theorem otherJustification_deleteFiles (h : PublishedOk db) (i : String) :
    (db.deleteFiles fun r => r.publishedFrom == some documentId).otherJustification filePath userId i =
      db.fileIndex.any fun sf => sf.publishedFrom != some documentId && (sf.scope == .shared && sf.userId == userId &&
        sf.filePath != filePath && db.mentions sf.filePath userId i) := by
  rw [Db.otherJustification, deleteFiles_published h, Table.deleteWhere, List.any_filter]
  rfl

/-- The shared rows of the planned sources, as far as they have the origin, are those that lose their last document. -/
theorem planned_eq (h : PublishedOk db) {origin : ShareOrigin} {r : EntityRow} (hr : r ∈ db.entities) :
    (r.scope == .shared && ((db.deleteFiles fun r => r.publishedFrom == some documentId).plannedIds filePath userId origin).any
      fun i => r.publishedFrom == some i) = db.losesDocument documentId filePath userId origin r := by
  have hlast : ∀ i, db.lastJustifies documentId filePath userId i = true ↔
      (∃ e ∈ db.entities, e.entityId = i ∧ e.scope = .personal ∧ e.userId = userId) ∧
        db.mentions filePath userId i = true ∧
        (db.deleteFiles fun r => r.publishedFrom == some documentId).otherJustification filePath userId i = false := by
    intro i
    rw [otherJustification_deleteFiles h]
    simp [Db.lastJustifies, and_assoc]
  rw [Bool.eq_iff_iff, Db.losesDocument]
  simp only [Bool.and_eq_true, beq_iff_eq, List.any_eq_true, Option.any_eq_true, hlast, mem_plannedIds]
  constructor
  · rintro ⟨hshared, i, ⟨e, he, hid, hscope, huser, hmentions, hother, sh, hsh, hprojects, horigin⟩, hpub⟩
    simp only [EntityRow.projects, Bool.and_eq_true, beq_iff_eq] at hprojects
    have hrow : sh = r := h.projections sh hsh r hr (by simp [hprojects.1]) (by rw [hprojects.1, hpub]) (by rw [hprojects.2, hshared])
    exact ⟨⟨hshared, hrow ▸ horigin⟩, i, hpub, ⟨e, he, hid, hscope, huser⟩, hmentions, hother⟩
  · rintro ⟨⟨hshared, horigin⟩, i, hpub, ⟨e, he, hid, hscope, huser⟩, hmentions, hother⟩
    exact ⟨hshared, i, ⟨e, he, hid, hscope, huser, hmentions, hother, r, hr, by simp [EntityRow.projects, hpub, hshared],
      horigin⟩, hpub⟩

/-! ## The effect -/

/-- The rows that go with the orphans. -/
def Db.withOrphans (db : Db) (filePath owner : String) (r : EntityRow) : Bool :=
  db.entityGone (fun r => (db.orphanEntities filePath owner).contains r.entityId && r.userId == owner && r.scope == .personal) r

def Db.purgesEntity (db : Db) (documentId : Nat) (filePath owner : String) (r : EntityRow) : Bool :=
  db.withOrphans filePath owner r || db.losesDocument documentId filePath owner .document r

theorem withOrphans_iff {r : EntityRow} : db.withOrphans filePath userId r = true ↔
    (r.entityId ∈ db.orphanEntities filePath userId ∧ r.userId = userId ∧ r.scope = .personal) ∨
      ∃ g ∈ db.entities, (g.entityId ∈ db.orphanEntities filePath userId ∧ g.userId = userId ∧ g.scope = .personal) ∧
        r.publishedFrom = some g.entityId := by
  simp [Db.withOrphans, Db.entityGone, and_assoc]

theorem entityGone_shared (h : PublishedOk db) {db' : Db} (hsub : ∀ r ∈ db'.entities, r ∈ db.entities) {p : EntityRow → Bool}
    (hp : ∀ r ∈ db.entities, p r = true → r.scope = .shared) {r : EntityRow} (hr : r ∈ db.entities) :
    db'.entityGone p r = p r := by
  have hnone : ((db'.entities.filter p).any fun g => r.publishedFrom == some g.entityId) = false := by
    rw [List.any_eq_false]
    intro g hg hsource
    obtain ⟨hg, hpg⟩ := List.mem_filter.mp hg
    have hpersonal := h.sources r hr g (hsub g hg) (by simpa using hsource)
    rw [hp g (hsub g hg) hpg] at hpersonal
    cases hpersonal
  rw [Db.entityGone, hnone, Bool.or_false]

theorem losesDocument_shared {origin : ShareOrigin} {r : EntityRow}
    (h : db.losesDocument documentId filePath userId origin r = true) : r.scope = .shared := by
  simp only [Db.losesDocument, Bool.and_eq_true, beq_iff_eq] at h
  exact h.1.1

theorem insertTombstone_entities (row : TombstoneRow) : (db.insertTombstone row).entities = db.entities := by
  unfold Db.insertTombstone
  split_ifs <;> rfl

theorem insertTombstone_relations (row : TombstoneRow) : (db.insertTombstone row).entityRelations = db.entityRelations := by
  unfold Db.insertTombstone
  split_ifs <;> rfl

theorem insertTombstone_files (row : TombstoneRow) : (db.insertTombstone row).fileIndex = db.fileIndex := by
  unfold Db.insertTombstone
  split_ifs <;> rfl

theorem retracted_eq (h : PublishedOk db) {r : EntityRow} (hr : r ∈ db.entities) :
    (db.orphansDeleted userId documentId filePath).entityGone (fun r => r.scope == .shared &&
      ((db.deleteFiles fun r => r.publishedFrom == some documentId).plannedIds filePath userId .document).any
        fun i => r.publishedFrom == some i) r = db.losesDocument documentId filePath userId .document r := by
  rw [entityGone_shared h (fun r hr => Table.mem_of_mem_deleteWhere hr) (fun r _ hp => ?_) hr, planned_eq h hr]
  simp only [Bool.and_eq_true, beq_iff_eq] at hp
  exact hp.1

theorem purgedRows_entities (h : PublishedOk db) :
    (db.purgedRows userId documentId filePath chunkCount).entities =
      (Table.deleteWhere (db.purgesEntity documentId filePath userId) db.entities).map fun r =>
        if db.losesDocument documentId filePath userId .multiple r then { r with shareOrigin := some .user } else r := by
  have hdeleted : ((db.orphansDeleted userId documentId filePath).deleteProjections
      ((db.deleteFiles fun r => r.publishedFrom == some documentId).plannedIds filePath userId .document)).entities =
        Table.deleteWhere (db.purgesEntity documentId filePath userId) db.entities := by
    refine Eq.trans (Table.deleteWhere_deleteWhere (p := db.withOrphans filePath userId)) (Table.deleteWhere_congr fun r hr => ?_)
    rw [Db.purgesEntity, retracted_eq h hr]
  have hstep : (db.purgedRows userId documentId filePath chunkCount).entities = Table.updateWhere
      (fun r => r.scope == .shared && ((db.deleteFiles fun r => r.publishedFrom == some documentId).plannedIds
        filePath userId .multiple).any fun i => r.publishedFrom == some i)
      (fun r => { r with shareOrigin := some .user })
      ((db.orphansDeleted userId documentId filePath).deleteProjections
        ((db.deleteFiles fun r => r.publishedFrom == some documentId).plannedIds filePath userId .document)).entities :=
    insertTombstone_entities _
  rw [hstep, hdeleted, Table.updateWhere]
  refine List.map_congr_left fun r hr => ?_
  rw [planned_eq h (Table.mem_of_mem_deleteWhere hr)]

theorem holdsEntity_purgedRows (h : PublishedOk db) {r : EntityRow} (hr : r ∈ db.entities) :
    (db.purgedRows userId documentId filePath chunkCount).holdsEntity r.entityId = !db.purgesEntity documentId filePath userId r := by
  have hid : ∀ q : EntityRow, (if db.losesDocument documentId filePath userId .multiple q
      then { q with shareOrigin := some .user } else q).entityId = q.entityId := by
    intro q
    split <;> rfl
  rw [Bool.eq_iff_iff, Db.holdsEntity, purgedRows_entities h, List.any_map, List.any_eq_true]
  simp only [Function.comp, hid, beq_iff_eq, Table.mem_deleteWhere, Bool.not_eq_true']
  constructor
  · rintro ⟨q, ⟨hq, hkept⟩, hqr⟩
    rwa [← List.inj_on_of_nodup_map h.entityIds hq hr hqr]
  · exact fun hkept => ⟨r, ⟨hr, hkept⟩, rfl⟩

theorem purgedRows_relations (h : PublishedOk db) : (db.purgedRows userId documentId filePath chunkCount).entityRelations =
    Table.deleteWhere (fun er => er.ofDocument filePath userId ||
      db.entities.any fun e => e.entityId == er.sourceId && db.purgesEntity documentId filePath userId e) db.entityRelations := by
  have hstep : (db.purgedRows userId documentId filePath chunkCount).entityRelations = Table.deleteWhere
      (fun er => ((Table.deleteWhere (db.withOrphans filePath userId) db.entities).filter
        ((db.orphansDeleted userId documentId filePath).entityGone (fun r => r.scope == .shared &&
          ((db.deleteFiles fun r => r.publishedFrom == some documentId).plannedIds filePath userId .document).any
            fun i => r.publishedFrom == some i))).any fun g => er.sourceId == g.entityId)
      (Table.deleteWhere (fun er => (db.entities.filter (db.withOrphans filePath userId)).any fun g => er.sourceId == g.entityId)
        (Table.deleteWhere (RelationRow.ofDocument filePath userId) db.entityRelations)) :=
    insertTombstone_relations _
  rw [hstep, Table.deleteWhere_deleteWhere, Table.deleteWhere_deleteWhere]
  refine Table.deleteWhere_congr fun er _ => ?_
  congr 1
  rw [Bool.eq_iff_iff]
  simp only [Bool.or_eq_true, List.any_eq_true, List.mem_filter, Table.mem_deleteWhere, Bool.and_eq_true, beq_iff_eq,
    Db.purgesEntity]
  constructor
  · rintro (⟨g, ⟨hg, hgone⟩, hid⟩ | ⟨g, ⟨⟨hg, -⟩, hgone⟩, hid⟩)
    · exact ⟨g, hg, hid.symm, .inl hgone⟩
    · exact ⟨g, hg, hid.symm, .inr (retracted_eq h hg ▸ hgone)⟩
  · rintro ⟨g, hg, hid, hgone⟩
    cases horphan : db.withOrphans filePath userId g with
    | true => exact .inl ⟨g, ⟨hg, horphan⟩, hid.symm⟩
    | false =>
      have hloses := hgone.resolve_left (by simp [horphan])
      exact .inr ⟨g, ⟨⟨hg, horphan⟩, (retracted_eq h hg).trans hloses⟩, hid.symm⟩

theorem purgedRows_files (h : PublishedOk db) : (db.purgedRows userId documentId filePath chunkCount).fileIndex =
    Table.deleteWhere (fun r => r.publishedFrom == some documentId || r.isSource userId documentId) db.fileIndex := by
  have hstep : (db.purgedRows userId documentId filePath chunkCount).fileIndex = Table.deleteWhere
      (fun r => r.isSource userId documentId || ((db.deleteFiles fun r => r.publishedFrom == some documentId).fileIndex.filter
        (FileRow.isSource userId documentId)).any fun g => r.publishedFrom == some g.id)
      (db.deleteFiles fun r => r.publishedFrom == some documentId).fileIndex :=
    insertTombstone_files _
  rw [hstep, deleteFiles_published h, Table.deleteWhere_deleteWhere]
  refine Table.deleteWhere_congr fun r hr => ?_
  -- what is published from the source has gone before it
  cases hpub : r.publishedFrom == some documentId with
  | true => rfl
  | false =>
    have hnone : ((Table.deleteWhere (fun r => r.publishedFrom == some documentId) db.fileIndex).filter
        (FileRow.isSource userId documentId)).any (fun g => r.publishedFrom == some g.id) = false := by
      rw [List.any_eq_false]
      intro g hg hsource
      have hid : g.id = documentId := by
        have := (List.mem_filter.mp hg).2
        simp only [FileRow.isSource, Bool.and_eq_true, beq_iff_eq] at this
        exact this.1.1
      rw [hid, hpub] at hsource
      cases hsource
    rw [hnone, Bool.or_false]

theorem purgedRows_exactly (h : PublishedOk db) :
    PurgedExactly userId documentId filePath db (db.purgedRows userId documentId filePath chunkCount) := by
  have hgone : ∀ r ∈ db.entities, (db.purgedRows userId documentId filePath chunkCount).holdsEntity r.entityId = false ↔
      db.purgesEntity documentId filePath userId r = true := by
    intro r hr
    rw [holdsEntity_purgedRows h hr, Bool.not_eq_false']
  constructor
  · intro e he hscope huser hknown
    rw [hgone e he, Db.purgesEntity, Bool.or_eq_true, withOrphans_iff, h.unpublished e he hscope, mem_orphanEntities]
    constructor
    · rintro ((⟨⟨-, -, -, -, -, honly, hshares⟩, -, -⟩ | ⟨g, -, -, hpub⟩) | hloses)
      · refine ⟨honly, ?_⟩
        rintro ⟨sh, hsh, hprojects, horigin | horigin | horigin⟩
        · exact (hshares sh hsh hprojects).1 horigin
        · exact (hshares sh hsh hprojects).2 horigin
        · exact hknown sh hsh hprojects horigin
      · cases hpub
      · cases hscope.symm.trans (losesDocument_shared hloses)
    · rintro ⟨honly, hdirect⟩
      refine .inl (.inl ⟨⟨e, he, rfl, hscope, huser, honly, fun sh hsh hprojects => ⟨fun horigin => ?_, fun horigin => ?_⟩⟩,
        huser, hscope⟩)
      · exact hdirect ⟨sh, hsh, hprojects, .inl horigin⟩
      · exact hdirect ⟨sh, hsh, hprojects, .inr (.inl horigin)⟩
  · intro r hr hno
    rw [hgone r hr, Db.purgesEntity, Bool.or_eq_true, withOrphans_iff] at hno
    rcases hno with (⟨horphan, huser, hscope⟩ | ⟨g, hg, hgone', hpub⟩) | hloses
    · obtain ⟨-, -, -, -, -, honly, -⟩ := mem_orphanEntities.mp horphan
      exact .inl ⟨hscope, huser, honly⟩
    · refine .inr (.inl ⟨g, hg, hpub, (hgone g hg).mpr ?_⟩)
      rw [Db.purgesEntity, withOrphans_iff.mpr (.inl hgone'), Bool.true_or]
    · exact .inr (.inr hloses)
  · rw [purgedRows_entities h, Table.deleteWhere]
    congr 1
    exact List.filter_congr fun r hr => (holdsEntity_purgedRows h hr).symm
  · rw [purgedRows_relations h]
    refine Table.deleteWhere_congr fun er _ => ?_
    congr 1
    rw [Bool.eq_iff_iff, List.any_eq_true, List.any_eq_true]
    refine exists_congr fun e => and_congr_right fun he => ?_
    rw [holdsEntity_purgedRows h he, Bool.not_not]
  · exact purgedRows_files h

/-- The transaction succeeds when none is open, and one that succeeds has had exactly this effect. -/
theorem purge_exactly (h : PublishedOk s.db) :
    (s.openTxn = none → ∃ gone t, (transaction (purgeRows userId documentId filePath chunkCount)).exec s = some (.ok gone, t)) ∧
    ∀ gone t, (transaction (purgeRows userId documentId filePath chunkCount)).exec s = some (.ok gone, t) →
      PurgedExactly userId documentId filePath s.db t.db := by
  have hwp : wp (fun r t => ∀ gone, r = .ok gone → PurgedExactly userId documentId filePath s.db t.db)
      (transaction (purgeRows userId documentId filePath chunkCount)) s := by
    refine transaction_wp (fun _ gone hgone => by cases hgone) (purgeRows_leaves.mono fun r t hr => ?_)
    obtain ⟨gone, rfl, rfl⟩ := hr
    exact fun _ _ => purgedRows_exactly h
  refine ⟨fun hidle => ?_, fun gone t hrun => hwp.exec hrun gone rfl⟩
  obtain ⟨gone, hrun⟩ := purgeTransaction_exec hidle
  exact ⟨gone, _, hrun⟩

namespace PurgedRowsExample

/-- A document of `ann` with its shared row, one entity that it mentions, and a shared row of the entity. -/
def store (origin : Option ShareOrigin) : Store :=
  let entity : EntityRow :=
    { entityId := "e", name := "Ada", entityType := "PERSON", aliases := [], contextTags := [], mentionCount := 1
      userId := "ann", extractionQuality := none, isStaged := false, scope := .personal, publishedFrom := none
      shareOrigin := none, graphProjectedAt := none }
  let file : FileRow :=
    { id := 1, filePath := "/a", fileHash := "h", fileType := ".txt", chunkCount := 0, ocrUsed := false
      userId := "ann", scope := .personal, publishedFrom := none }
  { Store.empty with
    db := { Db.empty with
      fileIndex := [file, { file with id := 2, scope := .shared, publishedFrom := some 1 }]
      entities := [entity,
        { entity with entityId := "sh", scope := .shared, publishedFrom := some "e", shareOrigin := origin }]
      entityRelations := [⟨"e", "MENTIONED_IN_DOCUMENT", .document, "/a", "ann"⟩] } }

def purged (origin : Option ShareOrigin) : Store :=
  (transaction (purgeRows "ann" 1 "/a" 0)).after (store origin)

theorem store_ok : PublishedOk (store (some .document)).db :=
  ⟨by decide, by decide, by decide, by decide, by decide⟩

end PurgedRowsExample

section Purge

open PurgedRowsExample

theorem purge_exactly_orphan :
    PurgedExactly "ann" 1 "/a" (store (some .document)).db (purged (some .document)).db ∧
      (purged (some .document)).db.entities = [] := by
  have hrun := exec_after (p := transaction (purgeRows "ann" 1 "/a" 0)) (s := store (some .document))
    (r := .ok (["e"], ["e"])) (by decide +kernel)
  exact ⟨(purge_exactly store_ok).2 _ _ hrun, by decide +kernel⟩

/-- A purge rewrites the shared row of an entity that is shared directly as well. An entity whose share is older than
its origin column is deleted, although nothing says that the document alone accounted for the share. -/
theorem direct_share_not_kept :
    (∃ r ∈ (store (some .multiple)).db.entities, (purged (some .multiple)).db.holdsEntity r.entityId = true ∧
      r ∉ (purged (some .multiple)).db.entities) ∧
    ∃ e ∈ (store none).db.entities, e.scope = .personal ∧ e.userId = "ann" ∧
      (store none).db.DirectlyShared e.entityId ∧ (purged none).db.holdsEntity e.entityId = false :=
  ⟨by decide +kernel, _, List.mem_cons_self, rfl, rfl,
    ⟨_, List.mem_cons_of_mem _ List.mem_cons_self, by decide, .inr (.inr rfl)⟩, by decide +kernel⟩

end Purge

end Lumogis
