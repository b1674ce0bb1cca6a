import Lumogis.EntityMerge
import Lumogis.Frames

/-!
# MergeProjections

Shared projections of entities over publishing, unpublishing and merging.

`unproject_entity` finds the point of a projection by the id that it computes from the entity it is
asked to unpublish; `project_entity` wrote it under the id computed from the entity that was then
published. `Linked` says that the two agree. A merge that repoints the projections of the loser to
the winner, or drops them where the winner has its own, leaves their points where they were:
`merge_strands_point`. While no merge takes a loser that is shared, everything that is published
stays unpublishable: `mergedProjections_unpublishable`.
-/

namespace Lumogis

open Prog Relation

/-- The entity has a shared projection, a row or a point. -/
def SharedEntity (s : Store) (entityId : String) : Prop :=
  (∃ r ∈ s.db.entities, r.projects entityId .shared = true) ∨
    ∃ pt ∈ s.entityPoints, pt.scope = some .shared ∧ pt.publishedFrom = some entityId

/-- One operation, run alone and without faults, with the merges done so far: the loser and the
winner of each. `C loser s` restricts the merges. -/
inductive EntityStep (pg : PgTypes) (env : Env) (C : String → Store → Prop) :
    Store × List (String × String) → Store × List (String × String) → Prop where
  | publish {s t : Store} {log : List (String × String)} {userId entityId : String}
      {r : Except PyErr EntityRow} : (publishEntity env userId entityId).exec s = some (r, t) →
      EntityStep pg env C (s, log) (t, log)
  | unpublish {s t : Store} {log : List (String × String)} {userId entityId : String}
      {r : Except PyErr Unit} : (unpublishEntity env userId entityId).exec s = some (r, t) →
      EntityStep pg env C (s, log) (t, log)
  | merge {s t : Store} {log : List (String × String)} {userId winner loser : String}
      {r : MergeResult} : C loser s →
      (mergeEntities pg env winner loser userId).exec s = some (.ok r, t) →
      EntityStep pg env C (s, log) (t, (loser, winner) :: log)

/-- Nothing is published yet, and an id is one user's. -/
structure NothingShared (s : Store) : Prop where
  keyed : ∀ r ∈ s.db.entities, ∀ r' ∈ s.db.entities, r.entityId = r'.entityId → r.userId = r'.userId
  rows : ∀ r ∈ s.db.entities, r.scope = .personal
  points : ∀ pt ∈ s.entityPoints, pt.scope ≠ some .shared

/-- By the merges of the log, the first entity has become the second. -/
def MergedInto (log : List (String × String)) : String → String → Prop :=
  ReflTransGen fun loser winner => (loser, winner) ∈ log

/-- The ids by which the shared projections are found are those they were written under, and
nothing of a merged entity is left. -/
structure Linked (env : Env) (log : List (String × String)) (s : Store) : Prop where
  keyed : ∀ r ∈ s.db.entities, ∀ r' ∈ s.db.entities, r.entityId = r'.entityId → r.userId = r'.userId
  rows : ∀ r ∈ s.db.entities, r.scope = .shared → ∀ e, r.publishedFrom = some e →
    r.entityId = projectionPointId env "entities" e .shared
  points : ∀ pt ∈ s.entityPoints, pt.scope = some .shared → ∃ e, pt.publishedFrom = some e ∧
    pt.id = projectionPointId env "entities" e .shared
  merged : ∀ m ∈ log, (∀ r ∈ s.db.entities, r.entityId = m.1 → r.scope ≠ .personal) ∧
    ∀ pt ∈ s.entityPoints, pt.scope = some .shared → pt.publishedFrom ≠ some m.1

theorem NothingShared.linked (env : Env) {s : Store} (h : NothingShared s) : Linked env [] s := by
  refine ⟨h.keyed, fun r hr hsh => ?_, fun pt hpt hsh => absurd hsh (h.points pt hpt), by simp⟩
  rw [h.rows r hr] at hsh
  cases hsh

/-! ## What the steps of a merge can do -/

/-- From `s` to `t` no entity and no shared point has come in, and `published_from` has changed
only where it was `l`. -/
structure Sheds (l : String) (s t : Store) : Prop where
  rows : ∀ r' ∈ t.db.entities, ∃ r ∈ s.db.entities, r'.entityId = r.entityId ∧
    r'.userId = r.userId ∧ r'.scope = r.scope ∧
    (r'.publishedFrom = r.publishedFrom ∨ r.publishedFrom = some l)
  points : ∀ pt ∈ t.entityPoints, pt.scope = some .shared → pt ∈ s.entityPoints

namespace Sheds

variable {l : String} {s t u : Store}

theorem of_subset (hr : ∀ r ∈ t.db.entities, r ∈ s.db.entities)
    (hp : ∀ pt ∈ t.entityPoints, pt.scope = some .shared → pt ∈ s.entityPoints) : Sheds l s t :=
  ⟨fun r h => ⟨r, hr r h, rfl, rfl, rfl, .inl rfl⟩, hp⟩

theorem refl (s : Store) : Sheds l s s := of_subset (fun _ h => h) fun _ h _ => h

theorem trans (h : Sheds l s t) (h' : Sheds l t u) : Sheds l s u := by
  refine ⟨fun r'' hr'' => ?_, fun pt hpt hsh => h.points pt (h'.points pt hpt hsh) hsh⟩
  obtain ⟨r', hr', hid', hu', hs', hp'⟩ := h'.rows r'' hr''
  obtain ⟨r, hr, hid, hu, hs, hp⟩ := h.rows r' hr'
  refine ⟨r, hr, hid'.trans hid, hu'.trans hu, hs'.trans hs, ?_⟩
  rcases hp' with hp' | hp'
  · rcases hp with hp | hp
    · exact .inl (hp'.trans hp)
    · exact .inr hp
  · rcases hp with hp | hp
    · exact .inr (hp ▸ hp')
    · exact .inr hp

theorem of_entities_eq (hr : t.db.entities = s.db.entities) (hp : t.entityPoints = s.entityPoints) :
    Sheds l s t :=
  of_subset (fun _ h => hr ▸ h) fun _ h _ => hp ▸ h

theorem of_updateWhere {p : EntityRow → Bool} {f : EntityRow → EntityRow}
    (hf : ∀ r, (f r).entityId = r.entityId ∧ (f r).userId = r.userId ∧ (f r).scope = r.scope)
    (hpub : ∀ r, p r = true → (f r).publishedFrom = r.publishedFrom ∨ r.publishedFrom = some l) :
    Sheds l s { s with db := { s.db with entities := Table.updateWhere p f s.db.entities } } := by
  refine ⟨fun r' hr' => ?_, fun _ h _ => h⟩
  rcases Table.mem_updateWhere.mp hr' with ⟨r, hr, hp, rfl⟩ | ⟨hr, -⟩
  · obtain ⟨hid, hu, hs⟩ := hf r
    exact ⟨r, hr, hid, hu, hs, hpub r hp⟩
  · exact ⟨r', hr, rfl, rfl, rfl, .inl rfl⟩

end Sheds

theorem mem_deleteEntities {p : EntityRow → Bool} {db : Db} {r : EntityRow}
    (h : r ∈ (db.deleteEntities p).entities) : r ∈ db.entities ∧ p r = false := by
  obtain ⟨hr, hg⟩ := Table.mem_deleteWhere.mp h
  simp only [Db.entityGone, Bool.or_eq_false_iff] at hg
  exact ⟨hr, hg.1⟩

/-- What a statement on the other tables leaves alone. -/
structure SparesEntities (s t : Store) : Prop where
  entities : t.db.entities = s.db.entities
  purged : t.db.purgedDocuments = s.db.purgedDocuments
  points : t.entityPoints = s.entityPoints

theorem SparesEntities.refl (s : Store) : SparesEntities s s := ⟨rfl, rfl, rfl⟩

theorem sweepTable_spares {α : Type} (t : Projecting α String) (rows : Db → List α)
    {put : List α → Db → Db} (hput : ∀ rs db, (put rs db).entities = db.entities ∧
      (put rs db).purgedDocuments = db.purgedDocuments) (loser winner : String) :
    Always SparesEntities (sweepTable t rows put loser winner) := by
  refine Always.bind (always_execute fun s => ⟨(hput _ _).1, (hput _ _).2, rfl⟩) fun _ => ?_
  refine always_statementE SparesEntities.refl fun s a db h => ?_
  cases hremap : t.remap loser winner (rows s.db) with
  | error e =>
    rw [hremap] at h
    cases h
  | ok rs =>
    rw [hremap] at h
    cases h
    exact ⟨(hput rs s.db).1, (hput rs s.db).2, rfl⟩

theorem sweepFileIndex_spares (pg : PgTypes) (loser winner : String) :
    Always SparesEntities (sweepFileIndex pg loser winner) := by
  refine Always.bind ?_ fun _ => ?_
  · refine always_statementE SparesEntities.refl fun s a db h => ?_
    cases hl : pg.integer loser with
    | none => simp [hl] at h
    | some n =>
      cases hw : pg.integer winner with
      | none => simp [hl, hw] at h
      | some k =>
        simp only [hl, hw] at h
        cases h
        exact ⟨rfl, rfl, rfl⟩
  · refine always_statementE SparesEntities.refl fun s a db h => ?_
    cases hl : pg.integer loser with
    | none => simp [hl] at h
    | some n =>
      cases hw : pg.integer winner with
      | none => simp [hl, hw] at h
      | some k =>
        simp only [hl, hw] at h
        cases hremap : FileRow.projecting.remap n k s.db.fileIndex with
        | error e => simp [hremap] at h
        | ok rs =>
          simp only [hremap] at h
          cases h
          exact ⟨rfl, rfl, rfl⟩

theorem remapPublishedFrom_always {φ : Store → Store → Prop}
    (hspares : ∀ s t, SparesEntities s t → φ s t) (pg : PgTypes) {loser winner : String}
    (hentities : Always φ (sweepEntities loser winner)) :
    Always φ (remapPublishedFrom pg loser winner) := by
  refine Always.bind ((sweepTable_spares _ _ ?_ _ _).mono hspares) fun _ => ?_
  · exact fun _ _ => ⟨rfl, rfl⟩
  refine Always.bind ((sweepTable_spares _ _ ?_ _ _).mono hspares) fun _ => ?_
  · exact fun _ _ => ⟨rfl, rfl⟩
  refine Always.bind ((sweepTable_spares _ _ ?_ _ _).mono hspares) fun _ => ?_
  · exact fun _ _ => ⟨rfl, rfl⟩
  refine Always.bind ((sweepFileIndex_spares _ _ _).mono hspares) fun _ => ?_
  refine Always.bind hentities fun _ => ?_
  refine (sweepTable_spares _ _ ?_ _ _).mono hspares
  exact fun _ _ => ⟨rfl, rfl⟩

theorem updateSessions_spares (pg : PgTypes) (winner loser userId : String) :
    Always SparesEntities (updateSessions pg winner loser userId) := by
  refine always_statementE SparesEntities.refl fun s a db h => ?_
  split_ifs at h
  cases h
  exact ⟨rfl, rfl, rfl⟩

theorem sweepEntities_sheds (loser winner : String) :
    Always (Sheds loser) (sweepEntities loser winner) := by
  refine Always.bind (always_execute fun s => ?_) fun _ => ?_
  · exact Sheds.of_subset (fun r hr => (mem_deleteEntities hr).1) fun _ h _ => h
  · refine always_statementE Sheds.refl fun s a db h => ?_
    simp only [Projecting.remap] at h
    split_ifs at h
    cases h
    exact Sheds.of_updateWhere (fun r => ⟨rfl, rfl, rfl⟩) fun r hp => .inr (beq_iff_eq.mp hp)

theorem remapPublishedFrom_sheds (pg : PgTypes) (loser winner : String) :
    Always (Sheds loser) (remapPublishedFrom pg loser winner) :=
  remapPublishedFrom_always (fun _ _ h => Sheds.of_entities_eq h.entities h.points) pg
    (sweepEntities_sheds loser winner)

/-- Phase A from `s`: the loser was there, and is no more. -/
structure Absorbed (loser userId : String) (s t : Store) : Prop where
  sheds : Sheds loser s t
  was : ∃ r ∈ s.db.entities, r.belongsTo userId loser = true
  gone : ∀ r ∈ t.db.entities, r.belongsTo userId loser = false

theorem Absorbed.of_entities_eq {loser userId : String} {s t u : Store}
    (h : Absorbed loser userId s t) (hr : u.db.entities = t.db.entities)
    (hp : ∀ pt ∈ u.entityPoints, pt.scope = some .shared → pt ∈ t.entityPoints) :
    Absorbed loser userId s u :=
  ⟨h.sheds.trans (Sheds.of_subset (fun _ h => hr ▸ h) hp), h.was, fun r hr' => h.gone r (hr ▸ hr')⟩

theorem fetchMergeEntity_ok (role entityId userId : String) (s : Store) :
    OnOk (fun r t => t = s ∧ r ∈ s.db.entities ∧ r.belongsTo userId entityId = true)
      (do requireRow (notFoundForUser role entityId userId)
            (← fetchMergeEntity userId entityId) : M EntityRow) s := by
  refine OnOk.bind (onOk_select ?_)
  cases hfind : s.db.entities.find? (EntityRow.belongsTo userId entityId) with
  | none => exact OnOk.raise
  | some r => exact OnOk.ret ⟨rfl, List.mem_of_find?_eq_some hfind, List.find?_some hfind⟩

theorem onOk_bind_sheds {α β : Type} {l : String} {s₀ s : Store} {Q : β → Store → Prop} {p : M α}
    {f : α → M β} (hp : Always (Sheds l) p) (h₀ : Sheds l s₀ s)
    (hf : ∀ a t, Sheds l s₀ t → OnOk Q (f a) t) : OnOk Q (p >>= f) s :=
  OnOk.bind ((hp.onOk Sheds.refl (fun _ _ _ => Sheds.trans) s).mono
    fun a t ht => hf a t (h₀.trans ht))

theorem updateSessions_sheds (l : String) (pg : PgTypes) (winner loser userId : String) :
    Always (Sheds l) (updateSessions pg winner loser userId) :=
  (updateSessions_spares pg winner loser userId).mono
    fun _ _ h => Sheds.of_entities_eq h.entities h.points

theorem updateWinner_sheds (l winner userId : String) (w e : EntityRow) :
    Always (Sheds l) (updateWinner winner userId w e) :=
  always_execute fun _ => Sheds.of_updateWhere (fun _ => ⟨rfl, rfl, rfl⟩) fun _ _ => .inl rfl

theorem runPhaseA_absorbs (pg : PgTypes) (winner loser userId : String) (s : Store) :
    OnOk (fun _ t => Absorbed loser userId s t) (runPhaseA pg winner loser userId) s := by
  refine OnOk.bind ((fetchMergeEntity_ok "winner" winner userId s).mono fun w t ht => ?_)
  obtain ⟨rfl, -, -⟩ := ht
  refine OnOk.bind ((fetchMergeEntity_ok "loser" loser userId t).mono fun l t' ht' => ?_)
  obtain ⟨rfl, hl, hbelongs⟩ := ht'
  refine onOk_bind_sheds (l := loser) (always_statement fun s => Sheds.of_entities_eq rfl rfl)
    (Sheds.refl t') fun moved s₁ h₁ => ?_
  refine onOk_bind_sheds (always_statement fun s => Sheds.of_entities_eq rfl rfl) h₁
    fun dropped s₂ h₂ => ?_
  refine onOk_bind_sheds (updateSessions_sheds _ _ _ _ _) h₂ fun updated s₃ h₃ => ?_
  refine onOk_bind_sheds (updateWinner_sheds _ _ _ _ _) h₃ fun _ s₄ h₄ => ?_
  refine onOk_bind_sheds (remapPublishedFrom_sheds pg loser winner) h₄ fun _ s₅ h₅ => ?_
  refine OnOk.bind (OnOk.act (OnOk.ret ?_))
  have hdelete : Sheds loser s₅
      { s₅ with db := s₅.db.deleteEntities (EntityRow.belongsTo userId loser) } :=
    Sheds.of_subset (fun r hr => (mem_deleteEntities hr).1) fun _ h _ => h
  exact ⟨h₅.trans hdelete, ⟨l, hl, hbelongs⟩, fun r hr => (mem_deleteEntities hr).2⟩

theorem runPhaseB_points (env : Env) (winner loser userId name : String) (aliases : List String) :
    Always (fun s t => t.db.entities = s.db.entities ∧
        ∀ pt ∈ t.entityPoints, pt.scope = some .shared → pt ∈ s.entityPoints)
      (runPhaseB env winner loser userId name aliases) := by
  refine Always.bind (Always.attempt ?_) fun _ => trivial
  refine Always.bind (always_act fun s => ⟨rfl, fun pt hpt _ => Table.mem_of_mem_deleteWhere hpt⟩)
    fun _ => ?_
  refine Always.bind (always_query fun s => ⟨rfl, fun _ h _ => h⟩) fun v => ?_
  refine always_act fun s => ⟨rfl, fun pt hpt hsh => ?_⟩
  rcases Table.mem_upsert.mp hpt with ⟨hpt, -⟩ | rfl
  · exact hpt
  · cases hsh

theorem beginTxn_ok (e : PyErr) (s : Store) :
    OnOk (fun _ t => t.db = s.db ∧ t.entityPoints = s.entityPoints)
      (beginTxn.tryCatch fun _ => .raise e) s := by
  refine OnOk.tryCatch (post_actE.mpr ⟨?_, fun _ hb => ?_, fun _ hb => ?_⟩) fun _ _ => OnOk.raise
  · intro a _
    cases s.openTxn <;> exact ⟨rfl, rfl⟩
  · cases hb
  · cases hb

theorem mergeTransaction_absorbs (pg : PgTypes) (winner loser userId : String) (s : Store) :
    OnOk (fun _ t => Absorbed loser userId s t) (mergeTransaction pg winner loser userId) s := by
  refine OnOk.bind ((beginTxn_ok _ s).mono fun _ t ht => ?_)
  obtain ⟨hdb, hpoints⟩ := ht
  refine OnOk.tryCatch (OnOk.bind (onOk_select ?_)) fun _ _ => OnOk.bind (OnOk.of_forall
    fun _ _ => OnOk.raise)
  refine OnOk.bind ((runPhaseA_absorbs pg winner loser userId t).mono fun a u hu => ?_)
  have hs : Absorbed loser userId s u :=
    ⟨(Sheds.of_entities_eq (by rw [hdb]) hpoints).trans hu.sheds, hdb ▸ hu.was, hu.gone⟩
  refine OnOk.bind (onOk_select (OnOk.bind (OnOk.act (OnOk.ret ?_))))
  exact hs.of_entities_eq rfl fun _ h _ => h

theorem mergeEntities_absorbs (pg : PgTypes) (env : Env) (winner loser userId : String)
    (s : Store) : OnOk (fun _ t => Absorbed loser userId s t)
      (mergeEntities pg env winner loser userId) s := by
  unfold mergeEntities
  split_ifs
  · exact OnOk.raise
  · refine OnOk.bind ((mergeTransaction_absorbs pg winner loser userId s).mono fun r t ht => ?_)
    have hB := (runPhaseB_points env winner loser userId ((r.2.map EntityRow.name).getD "")
      ((r.2.map EntityRow.aliases).getD [])).onOk (fun _ => ⟨rfl, fun _ h _ => h⟩)
      (fun _ _ _ h h' => ⟨h'.1.trans h.1, fun pt hpt hsh => h.2 pt (h'.2 pt hpt hsh) hsh⟩) t
    refine OnOk.bind (hB.mono fun _ u hu => OnOk.ret ?_)
    exact ht.of_entities_eq hu.1 hu.2

/-! ## The invariant -/

section Run

variable {env : Env} {log : List (String × String)} {s t : Store}

theorem Linked.merge {loser winner userId : String} (h : Linked env log s)
    (hshared : ¬ SharedEntity s loser) (hm : Absorbed loser userId s t) :
    Linked env ((loser, winner) :: log) t := by
  obtain ⟨hsheds, ⟨l, hl, hlb⟩, hgone⟩ := hm
  simp only [EntityRow.belongsTo, Bool.and_eq_true, beq_iff_eq] at hlb
  constructor
  · intro r₁ hr₁ r₂ hr₂ hid
    obtain ⟨q₁, hq₁, hid₁, hu₁, -, -⟩ := hsheds.rows r₁ hr₁
    obtain ⟨q₂, hq₂, hid₂, hu₂, -, -⟩ := hsheds.rows r₂ hr₂
    rw [hu₁, hu₂]
    exact h.keyed q₁ hq₁ q₂ hq₂ (by rw [← hid₁, ← hid₂, hid])
  · intro r hr hsh e he
    obtain ⟨q, hq, hid, -, hsc, hpub⟩ := hsheds.rows r hr
    rcases hpub with hpub | hpub
    · rw [hid]
      exact h.rows q hq (hsc ▸ hsh) e (hpub ▸ he)
    · -- a shared row of the loser: there was none
      refine absurd (.inl ⟨q, hq, ?_⟩) hshared
      simp [EntityRow.projects, hpub, ← hsc, hsh]
  · intro pt hpt hsh
    exact h.points pt (hsheds.points pt hpt hsh) hsh
  · intro m hm
    rcases List.mem_cons.mp hm with rfl | hm
    · refine ⟨fun r hr hid => ?_, fun pt hpt hsh hpub => ?_⟩
      · obtain ⟨q, hq, hid', hu, -, -⟩ := hsheds.rows r hr
        have huser : r.userId = userId := by
          rw [hu, h.keyed q hq l hl (by rw [← hid', hid, hlb.1]), hlb.2]
        have := hgone r hr
        simp [EntityRow.belongsTo, hid, huser] at this
      · exact hshared (.inr ⟨pt, hsheds.points pt hpt hsh, hsh, hpub⟩)
    · obtain ⟨hrows, hpoints⟩ := h.merged m hm
      refine ⟨fun r hr hid => ?_, fun pt hpt hsh => hpoints pt (hsheds.points pt hpt hsh) hsh⟩
      obtain ⟨q, hq, hid', -, hsc, -⟩ := hsheds.rows r hr
      rw [hsc]
      exact hrows q hq (hid' ▸ hid)

theorem Linked.of_rows (h : Linked env log s)
    (hr : ∀ r' ∈ t.db.entities, ∃ r ∈ s.db.entities, r'.entityId = r.entityId ∧
      r'.userId = r.userId ∧ r'.scope = r.scope ∧ r'.publishedFrom = r.publishedFrom)
    (hp : ∀ pt ∈ t.entityPoints, pt.scope = some .shared → pt ∈ s.entityPoints) :
    Linked env log t := by
  constructor
  · intro r₁ hr₁ r₂ hr₂ hid
    obtain ⟨q₁, hq₁, hid₁, hu₁, -, -⟩ := hr r₁ hr₁
    obtain ⟨q₂, hq₂, hid₂, hu₂, -, -⟩ := hr r₂ hr₂
    rw [hu₁, hu₂]
    exact h.keyed q₁ hq₁ q₂ hq₂ (by rw [← hid₁, ← hid₂, hid])
  · intro r' hr' hsh e he
    obtain ⟨r, hr, hid, -, hsc, hpub⟩ := hr r' hr'
    rw [hid]
    exact h.rows r hr (hsc ▸ hsh) e (hpub ▸ he)
  · exact fun pt hpt hsh => h.points pt (hp pt hpt hsh) hsh
  · intro m hm
    obtain ⟨hrows, hpoints⟩ := h.merged m hm
    refine ⟨fun r' hr' hid' => ?_, fun pt hpt hsh => hpoints pt (hp pt hpt hsh) hsh⟩
    obtain ⟨r, hr, hid, -, hsc, -⟩ := hr r' hr'
    rw [hsc]
    exact hrows r hr (hid ▸ hid')

theorem Linked.of_subset (h : Linked env log s) (hr : ∀ r ∈ t.db.entities, r ∈ s.db.entities)
    (hp : ∀ pt ∈ t.entityPoints, pt.scope = some .shared → pt ∈ s.entityPoints) :
    Linked env log t :=
  h.of_rows (fun r h => ⟨r, hr r h, rfl, rfl, rfl, rfl⟩) hp

theorem Linked.upsertPoint (h : Linked env log s) {src : EntityRow} (actor : String)
    (v : Embedding) (hsrc : ∀ m ∈ log, src.entityId ≠ m.1) :
    Linked env log { s with
      entityPoints := Table.upsert EntPoint.id (entityPoint env src .shared actor v)
        s.entityPoints } := by
  refine ⟨h.keyed, h.rows, fun pt hpt hsh => ?_, fun m hm => ?_⟩
  · rcases Table.mem_upsert.mp hpt with ⟨hpt, -⟩ | rfl
    · exact h.points pt hpt hsh
    · exact ⟨src.entityId, rfl, rfl⟩
  · obtain ⟨hrows, hpoints⟩ := h.merged m hm
    refine ⟨hrows, fun pt hpt hsh => ?_⟩
    rcases Table.mem_upsert.mp hpt with ⟨hpt, -⟩ | rfl
    · exact hpoints pt hpt hsh
    · exact fun he => hsrc m hm (Option.some.inj he)

theorem Linked.upsertRow (h : Linked env log s) {src r : EntityRow} {actor : String}
    {origin : ShareOrigin} {db : Db}
    (hdb : s.db.upsertEntityProjection (entityProjection env src .shared actor origin) src.entityId =
      .ok (r, db)) : Linked env log { s with db := db } := by
  simp only [Db.upsertEntityProjection] at hdb
  split at hdb
  · cases hdb
    refine h.of_rows (fun r' hr' => ?_) fun _ h _ => h
    rcases Table.mem_updateWhere.mp hr' with ⟨q, hq, -, rfl⟩ | ⟨hq, -⟩
    · exact ⟨q, hq, rfl, rfl, rfl, rfl⟩
    · exact ⟨r', hq, rfl, rfl, rfl, rfl⟩
  · split_ifs at hdb with hnew
    cases hdb
    simp only [Bool.and_eq_true, Bool.not_eq_true', List.any_eq_false, beq_iff_eq] at hnew
    have hfresh : ∀ q ∈ s.db.entities,
        q.entityId ≠ (entityProjection env src .shared actor origin).entityId :=
      fun q hq => hnew.2 q hq
    refine ⟨fun r₁ h₁ r₂ h₂ hid => ?_, fun q hq hsh e he => ?_, h.points, fun m hm => ?_⟩
    · rcases List.mem_append.mp h₁ with h₁ | h₁
      · rcases List.mem_append.mp h₂ with h₂ | h₂
        · exact h.keyed r₁ h₁ r₂ h₂ hid
        · rw [List.mem_singleton.mp h₂] at hid
          exact absurd hid (hfresh r₁ h₁)
      · rcases List.mem_append.mp h₂ with h₂ | h₂
        · rw [List.mem_singleton.mp h₁] at hid
          exact absurd hid.symm (hfresh r₂ h₂)
        · rw [List.mem_singleton.mp h₁, List.mem_singleton.mp h₂]
    · rcases List.mem_append.mp hq with hq | hq
      · exact h.rows q hq hsh e he
      · rw [List.mem_singleton.mp hq] at he ⊢
        cases he
        rfl
    · obtain ⟨hrows, hpoints⟩ := h.merged m hm
      refine ⟨fun q hq hid => ?_, hpoints⟩
      rcases List.mem_append.mp hq with hq | hq
      · exact hrows q hq hid
      · rw [List.mem_singleton.mp hq]
        exact fun hp => by cases hp

/-! ## The operations -/

theorem projectEntity_linked {src : EntityRow} (actor : String) (origin : ShareOrigin)
    (hsrc : ∀ m ∈ log, src.entityId ≠ m.1) :
    Always (fun s t => Linked env log s → Linked env log t)
      (projectEntity env src .shared actor origin) := by
  have hdelete : Always (fun s t => Linked env log s → Linked env log t) (deleteEntityPoints
      (EntPoint.hasId (projectionPointId env "entities" src.entityId .shared))) :=
    always_act fun s hs => hs.of_subset (fun _ h => h)
      fun pt hpt _ => Table.mem_of_mem_deleteWhere hpt
  refine Always.bind trivial fun _ => ?_
  split_ifs
  · trivial
  · refine Always.bind ?_ fun v => Always.bind ?_ fun _ => Always.tryCatch ?_ fun e => ?_
    · refine Always.bind (Always.attempt (always_query fun _ h => h)) fun r => ?_
      cases r <;> trivial
    · cases v with
      | none => trivial
      | some v => exact always_act fun s hs => hs.upsertPoint actor v hsrc
    · exact always_statementE (fun _ h => h) fun s r db hdb hs => hs.upsertRow hdb
    · exact Always.bind (Always.bind hdelete.attempt fun _ => trivial) fun _ => trivial

theorem publishEntity_linked {userId entityId : String} {r : Except PyErr EntityRow}
    (h : Linked env log s) (hrun : (publishEntity env userId entityId).exec s = some (r, t)) :
    Linked env log t := by
  have hpost : Post (fun _ t => Linked env log t) (publishEntity env userId entityId) s := by
    refine post_bind.mpr (post_query.mpr ⟨?_, h⟩)
    dsimp only
    cases hfind : s.db.entities.find? (EntityRow.isSource userId entityId) with
    | none => exact h
    | some src =>
      have hmem := List.mem_of_find?_eq_some hfind
      have hsrc := List.find?_some hfind
      simp only [EntityRow.isSource, Bool.and_eq_true, beq_iff_eq] at hsrc
      have hnot : ∀ m ∈ log, src.entityId ≠ m.1 :=
        fun m hm hid => (h.merged m hm).1 src hmem hid hsrc.2
      simp only [seqPost]
      cases entityPublishGuard src with
      | some e => exact h
      | none =>
        refine post_tryCatch.mpr (((projectEntity_linked userId .user hnot).post (fun _ h => h)
          (fun _ _ _ h h' hs => h' (h hs)) s).mono fun r t ht => ?_)
        cases r <;> exact ht h
  exact hpost.faulty (Faulty.of_exec hrun)

theorem unprojectEntity_linked (entityId : String) :
    Always (fun s t => Linked env log s → Linked env log t)
      (unprojectEntity env entityId .shared) := by
  refine Always.bind (always_statement fun s hs => ?_) fun _ => Always.bind (Always.bind
    (Always.attempt (always_act fun s hs => ?_)) fun _ => trivial) fun _ => trivial
  · exact hs.of_subset (fun r hr => (mem_deleteEntities hr).1) fun _ h _ => h
  · exact hs.of_subset (fun _ h => h) fun pt hpt _ => Table.mem_of_mem_deleteWhere hpt

theorem unpublishEntity_linked {userId entityId : String} {r : Except PyErr Unit}
    (h : Linked env log s) (hrun : (unpublishEntity env userId entityId).exec s = some (r, t)) :
    Linked env log t := by
  have hall : Always (fun s t => Linked env log s → Linked env log t)
      (unpublishEntity env userId entityId) := by
    refine Always.bind (always_select fun _ h => h) fun src => ?_
    cases src with
    | none => trivial
    | some src =>
      exact Always.tryCatch (Always.bind (unprojectEntity_linked entityId) fun _ => trivial)
        fun _ => trivial
  exact hall.exec (fun _ h => h) (fun _ _ _ h h' hs => h' (h hs)) hrun h

theorem unpublishEntity_points {userId entityId : String}
    (hrun : (unpublishEntity env userId entityId).exec s = some (.ok (), t)) :
    ∀ pt ∈ t.entityPoints, pt.id ≠ projectionPointId env "entities" entityId .shared := by
  simp only [unpublishEntity, unpublishOne, exec_bind, fetchPersonalEntity, select, exec_query,
    Option.bind_some, thenExec] at hrun
  cases hfind : s.db.entities.find? (EntityRow.isSource userId entityId) with
  | none =>
    rw [hfind] at hrun
    cases hrun
  | some src =>
    rw [hfind] at hrun
    simp [Prog.tryCatch, exec_bind, exec_attempt, thenExec, unprojectEntity, unprojectUuidPk,
      statement, qdrantDeleteSafe, deleteEntityPoints] at hrun
    subst hrun
    intro pt hpt
    obtain ⟨-, hid⟩ := Table.mem_deleteWhere.mp hpt
    simpa [EntPoint.hasId] using hid

/-! ## The main results -/

theorem EntityStep.linked {pg : PgTypes} {c c' : Store × List (String × String)}
    (hstep : EntityStep pg env (fun loser s => ¬ SharedEntity s loser) c c')
    (h : Linked env c.2 c.1) : Linked env c'.2 c'.1 := by
  cases hstep with
  | publish hrun => exact publishEntity_linked h hrun
  | unpublish hrun => exact unpublishEntity_linked h hrun
  | merge hshared hrun =>
    exact h.merge hshared ((mergeEntities_absorbs _ _ _ _ _ _).faulty (Faulty.of_exec hrun))

/-- In every run in which no merge takes a loser that is shared, the projection rows are stored
under the ids that unpublishing computes, and unpublishing an entity leaves no shared point of it
or of any entity that was merged into it. -/
theorem mergedProjections_unpublishable {pg : PgTypes} {s₀ s : Store} {log : List (String × String)}
    (h₀ : NothingShared s₀)
    (hrun : ReflTransGen (EntityStep pg env fun loser s => ¬ SharedEntity s loser) (s₀, [])
      (s, log)) :
    (∀ r ∈ s.db.entities, r.scope = .shared → ∀ e, r.publishedFrom = some e →
      r.entityId = projectionPointId env "entities" e .shared) ∧
    ∀ userId entityId t, (unpublishEntity env userId entityId).exec s = some (.ok (), t) →
      ∀ pt ∈ t.entityPoints, pt.scope = some .shared → ∀ e, pt.publishedFrom = some e →
        ¬ MergedInto log e entityId := by
  have hinv : ∀ c, ReflTransGen (EntityStep pg env fun loser s => ¬ SharedEntity s loser) (s₀, []) c →
      Linked env c.2 c.1 := by
    intro c hc
    induction hc with
    | refl => exact h₀.linked env
    | tail _ hstep ih => exact hstep.linked ih
  have hs : Linked env log s := hinv (s, log) hrun
  refine ⟨hs.rows, fun userId entityId t hunpub pt hpt hsh e he hinto => ?_⟩
  have ht := unpublishEntity_linked hs hunpub
  rcases ReflTransGen.cases_head hinto with rfl | ⟨e', hmerge, -⟩
  · obtain ⟨e', he', hid⟩ := ht.points pt hpt hsh
    rw [he] at he'
    cases he'
    exact unpublishEntity_points hunpub pt hpt hid
  · exact (ht.merged _ hmerge).2 pt hpt hsh he

end Run

namespace StrandExample

def env : Env := .plain .disabled

/-- Postgres as far as it lets the sweep of `file_index` through. -/
def pg : PgTypes := { integer := fun _ => some 0, uuidInTextArray := true }

def entity (entityId : String) : EntityRow :=
  { entityId := entityId, name := entityId, entityType := "PERSON", aliases := [],
    contextTags := [], mentionCount := 1, userId := "ann", extractionQuality := none,
    isStaged := false, scope := .personal, publishedFrom := none, shareOrigin := none,
    graphProjectedAt := none }

def start : Store := { Store.empty with db := { Db.empty with entities := [entity "a", entity "b"] } }

def sharedRow (e : String) : EntityRow := entityProjection env (entity e) .shared "ann" .user

def sharedPoint (e : String) : EntPoint := entityPoint env (entity e) .shared "ann" []

def published (e : String) : Store :=
  { start with
    db := { start.db with entities := [entity "a", entity "b", sharedRow e] }
    entityPoints := [sharedPoint e] }

/-- The winner's row and point after `b` was merged into `a`, with the shared row `r` and point
`pt` of before. -/
def merged (r : EntityRow) (pt : EntPoint) : Store :=
  { start with
    db := { start.db with entities := [{ entity "a" with mentionCount := 2 }, r] }
    entityPoints := [pt, winnerPoint env "a" "ann" "a" [] []] }

/-- The row published from `b` now says that it is published from `a`. -/
def repointed : EntityRow := { sharedRow "b" with publishedFrom := some "a" }

def unpublished : Store :=
  { merged repointed (sharedPoint "b") with
    db := { start.db with entities := [{ entity "a" with mentionCount := 2 }] } }

def mergeResult : MergeResult :=
  { winnerId := "a", loserId := "b", aliasesMerged := 0, relationsMoved := 0, sessionsUpdated := 0,
    qdrantCleaned := true }

theorem publish_runs (e : String) (he : e = "a" ∨ e = "b") :
    (publishEntity env "ann" e).exec start = some (.ok (sharedRow e), published e) := by
  rcases he with rfl | rfl <;> decide

theorem nothingShared_start : NothingShared start := by
  constructor <;> decide

end StrandExample

open StrandExample in
/-- `b` is published and merged into `a`; unpublishing `a` removes the row and leaves the point of
`b`, shared with the household. -/
theorem merge_strands_point :
    NothingShared start ∧
      ReflTransGen (EntityStep pg env fun _ _ => True) (start, [])
        (merged repointed (sharedPoint "b"), [("b", "a")]) ∧
      (unpublishEntity env "ann" "a").exec (merged repointed (sharedPoint "b")) =
        some (.ok (), unpublished) ∧
      MergedInto [("b", "a")] "b" "a" ∧
      sharedPoint "b" ∈ unpublished.entityPoints ∧ (sharedPoint "b").scope = some .shared ∧
      (sharedPoint "b").publishedFrom = some "b" := by
  refine ⟨nothingShared_start, ?_, by decide, .single (by simp), by decide, rfl, rfl⟩
  have hmerge : (mergeEntities pg env "a" "b" "ann").exec (published "b") =
      some (.ok mergeResult, merged repointed (sharedPoint "b")) := by decide
  exact (ReflTransGen.single (.publish (publish_runs "b" (.inr rfl)))).tail (.merge trivial hmerge)

open StrandExample in
/-- The winner is shared, the loser is not. -/
theorem mergedProjections_unpublishable_winner :
    ∃ t, (unpublishEntity env "ann" "a").exec (merged (sharedRow "a") (sharedPoint "a")) =
        some (.ok (), t) ∧
      ∀ pt ∈ t.entityPoints, pt.scope = some .shared → ∀ e, pt.publishedFrom = some e →
        ¬ MergedInto [("b", "a")] e "a" := by
  have hmerge : (mergeEntities pg env "a" "b" "ann").exec (published "a") =
      some (.ok mergeResult, merged (sharedRow "a") (sharedPoint "a")) := by decide
  have hloser : ¬ SharedEntity (published "a") "b" := by
    rintro (⟨r, hr, hproj⟩ | ⟨pt, hpt, hsh, hpub⟩)
    · revert r
      decide
    · revert pt
      decide
  exact ⟨_, rfl, (mergedProjections_unpublishable nothingShared_start
    ((ReflTransGen.single (.publish (publish_runs "a" (.inl rfl)))).tail
      (.merge hloser hmerge))).2 "ann" "a" _ rfl⟩

end Lumogis
