import Lumogis.EntityConstraints

/-!
# ConstraintRuns

Runs of the quality rules between changes of the tables.

`Tidy` is what the runs keep: at most one open violation for each entity and rule, and the ones of the
two rules for a user's entities under that user. From a tidy table every call books exactly what it
checks (`constraints_exact_run`).
-/

namespace Lumogis

namespace QualityDb

/-! ## A tidy table -/

/-- At most one open violation for each entity and rule, and those of the rules for a user's entities
under the user that the entity belongs to. -/
structure Tidy (db : QualityDb) : Prop where
  single : ∀ entityId rule, db.openCount entityId rule ≤ 1
  owned : ∀ v ∈ db.constraintViolations, v.resolvedAt = none →
    v.rule = .orphanEntity ∨ v.rule = .aliasUniqueness →
    ∀ e ∈ db.entities, e.entityId = v.entityId → v.userId = e.userId

/-- One open violation if the condition is violated, none if it holds. -/
def Booked (db : QualityDb) (entityId : String) (rule : ConstraintRule) (violated : Prop) : Prop :=
  (violated → db.openCount entityId rule = 1) ∧ (¬ violated → db.openCount entityId rule = 0)

/-- As many rows as `returned` were added. -/
def Inserted (db db' : QualityDb) (returned : Nat) : Prop :=
  db'.constraintViolations.length = db.constraintViolations.length + returned

theorem tidy_empty {db : QualityDb} (h : db.constraintViolations = []) : db.Tidy where
  single := by simp [openCount, h]
  owned := by simp [h]

/-! ### Batches -/

section

variable {db : QualityDb} {now : Int} {userId : String} {pairs : List (String × ConstraintRule)}

theorem foldl_checkPair_mem (acc : Nat × QualityDb) {v : ViolationRow}
    (hv : v ∈ (pairs.foldl (checkPair now userId) acc).2.constraintViolations)
    (hres : v.resolvedAt = none) :
    v ∈ acc.2.constraintViolations ∨ v.rule ∈ pairs.map Prod.snd := by
  induction pairs generalizing acc with
  | nil => exact .inl hv
  | cons pair pairs ih =>
    rw [List.foldl_cons] at hv
    rcases ih _ hv with hv | hrule
    · obtain ⟨n, db⟩ := acc
      rw [checkPair_eq] at hv
      split at hv
      · split at hv
        · exact .inl hv
        · rcases List.mem_append.mp hv with hv | hv
          · exact .inl hv
          · rw [List.mem_singleton] at hv
            exact .inr (by simp [hv])
      · obtain ⟨w, hw, rfl⟩ := List.mem_map.mp hv
        by_cases hopen : isOpen pair.1 pair.2 w
        · rw [if_pos hopen] at hres
          cases hres
        · rw [if_neg hopen]
          exact .inl hw
    · exact .inr (List.mem_cons_of_mem _ hrule)

theorem entities_of_graph {db' : QualityDb} (h : db'.graph = db.graph) : db'.entities = db.entities :=
  congrArg Prod.fst h

theorem mem_pairsOf {entityIds : List String} {p : String × ConstraintRule} :
    p ∈ pairsOf entityIds ↔ p.1 ∈ entityIds ∧ p.2 ∈ entityRules := by
  simp only [pairsOf, List.mem_flatMap, List.mem_map]
  constructor
  · rintro ⟨entityId, hid, rule, hrule, rfl⟩
    exact ⟨hid, hrule⟩
  · intro h
    exact ⟨p.1, h.1, p.2, h.2, rfl⟩

theorem Tidy.runBatchConstraints (h : db.Tidy) (entityIds : List String) :
    (runBatchConstraints now entityIds userId db).2.Tidy := by
  rw [runBatchConstraints_eq]
  refine ⟨fun entityId rule => ?_, fun v hv hres hrule e he hid => ?_⟩
  · have hcount := foldl_checkPair_openCount now userId (pairsOf entityIds)
      (entityId, rule) (0, db)
    have hone := h.single entityId rule
    rw [hcount]
    split
    · split
      · exact max_le le_rfl hone
      · omega
    · exact hone
  · rw [entities_of_graph (foldl_checkPair_graph _)] at he
    rcases foldl_checkPair_mem _ hv hres with hv | hin
    · exact h.owned v hv hres hrule e he hid
    · obtain ⟨p, hp, hpr⟩ := List.mem_map.mp hin
      have hentity := (mem_pairsOf.mp hp).2
      rw [hpr] at hentity
      rcases hrule with hrule | hrule <;> rw [hrule] at hentity <;> exact absurd hentity (by decide)

theorem runBatchConstraints_count_iff (now : Int) (entityIds : List String) (userId : String)
    (db : QualityDb) :
    Inserted db (runBatchConstraints now entityIds userId db).2
        (runBatchConstraints now entityIds userId db).1 ↔
      ((pairsOf entityIds).filter fun p => db.Violated p).Nodup ∧
        ∀ p ∈ (pairsOf entityIds).filter fun p => db.Violated p, db.openCount p.1 p.2 = 0 := by
  have hlength := (foldl_checkPair_length now userId (pairsOf entityIds) (0, db)).2
  rw [Inserted, runBatchConstraints_eq, foldl_checkPair_returns, List.countP_eq_length_filter,
    Nat.zero_add]
  exact hlength

theorem runBatchConstraints_booked (h : db.Tidy) {entityIds : List String} {entityId : String}
    {rule : ConstraintRule} (hid : entityId ∈ entityIds) (hrule : rule ∈ entityRules) :
    Booked (QualityDb.runBatchConstraints now entityIds userId db).2 entityId rule
      ((QualityDb.runBatchConstraints now entityIds userId db).2.Violated (entityId, rule)) := by
  have hcount := foldl_checkPair_openCount now userId (pairsOf entityIds)
    (entityId, rule) (0, db)
  have hone := h.single entityId rule
  rw [runBatchConstraints_eq, Booked, violated_congr (foldl_checkPair_graph _), hcount,
    if_pos (mem_pairsOf.mpr ⟨hid, hrule⟩)]
  constructor
  · intro hviolated
    rw [if_pos hviolated]
    exact Nat.max_eq_left hone
  · intro hholds
    rw [if_neg hholds]

end

/-! ### Rules for a user's entities -/

section

variable {db : QualityDb} {now : Int} {userId : String} {rule : ConstraintRule}
  {found : List (String × String)} {violating : List String} {violated : CheckedEntity → Prop}

/-- The two loops of a rule for a user's entities. -/
def bookAll (now : Int) (userId : String) (rule : ConstraintRule) (found : List (String × String))
    (violating : List String) (db : QualityDb) : Nat × QualityDb :=
  let r := found.foldl (openOnce rule userId) (0, db)
  (r.1, r.2.resolveOthers now userId rule violating)

theorem bookAll_graph : (bookAll now userId rule found violating db).2.graph = db.graph := by
  rw [bookAll, (resolveOthers_keeps _).1, foldl_openOnce_graph]

theorem bookAll_inserted : Inserted db (bookAll now userId rule found violating db).2
    (bookAll now userId rule found violating db).1 := by
  have hlength := foldl_openOnce_length rule userId found (0, db)
  rw [Inserted, bookAll, (resolveOthers_keeps _).2.1]
  exact hlength

/-- What `violating` holds are the entities of the user that the rule finds violated. -/
structure Finds (db : QualityDb) (userId : String) (violating : List String)
    (violated : CheckedEntity → Prop) : Prop where
  mem_iff : ∀ e ∈ db.entities, e.userId = userId → (e.entityId ∈ violating ↔ violated e)
  own : ∀ e ∈ db.entities, e.entityId ∈ violating → e.userId = userId

theorem bookAll_booked (h : db.Tidy) (hrule : rule = .orphanEntity ∨ rule = .aliasUniqueness)
    (hfinds : Finds db userId violating violated)
    (hfound : ∀ id, id ∈ found.map Prod.fst ↔ id ∈ violating) {e : CheckedEntity}
    (he : e ∈ db.entities) (huser : e.userId = userId) :
    Booked (bookAll now userId rule found violating db).2 e.entityId rule (violated e) := by
  have hone := h.single e.entityId rule
  have hloop : (found.foldl (openOnce rule userId) (0, db)).2.openCount e.entityId rule =
      if e.entityId ∈ violating then max 1 (db.openCount e.entityId rule)
      else db.openCount e.entityId rule := by
    rw [foldl_openOnce_openCount]
    simp [hfound]
  rw [Booked, bookAll, resolveOthers_openCount, ← hfinds.mem_iff e he huser, hloop]
  constructor
  · intro hin
    rw [if_neg (by simp [hin]), if_pos hin]
    exact Nat.max_eq_left hone
  · intro hout
    rw [if_neg hout]
    by_cases hzero : db.openCount e.entityId rule = 0
    · split
      · rfl
      · exact hzero
    · -- the open violation stands under the user, and is among those that are resolved
      have hopen : e.entityId ∈ (found.foldl (openOnce rule userId) (0, db)).2.openEntities userId rule := by
        have hpos : 0 < (found.foldl (openOnce rule userId) (0, db)).2.openCount e.entityId rule := by
          rw [hloop, if_neg hout]
          omega
        obtain ⟨v, hv, hvopen⟩ := List.countP_pos_iff.mp hpos
        obtain ⟨hid, hvrule, hres⟩ := isOpen_iff.mp hvopen
        refine mem_openEntities.mpr ⟨v, hv, ?_, hvopen⟩
        rcases foldl_openOnce_mem _ hv with hold | hnew
        · rw [h.owned v hold hres (hvrule ▸ hrule) e he hid.symm, huser]
        · exact hnew.1
      rw [if_pos ⟨⟨hopen, hout⟩, rfl⟩]

theorem Tidy.bookAll (h : db.Tidy) (hfinds : Finds db userId violating violated)
    (hfound : ∀ id, id ∈ found.map Prod.fst ↔ id ∈ violating) :
    (bookAll now userId rule found violating db).2.Tidy := by
  refine ⟨fun entityId r => ?_, fun v hv hres hrule e he hid => ?_⟩
  · have hone := h.single entityId r
    rw [QualityDb.bookAll, resolveOthers_openCount, foldl_openOnce_openCount]
    split
    · omega
    · split
      · exact max_le le_rfl hone
      · exact hone
  · rw [entities_of_graph bookAll_graph] at he
    rcases foldl_openOnce_mem _ ((resolveOthers_keeps _).2.2 v hv hres) with hold | hnew
    · exact h.owned v hold hres hrule e he hid
    · rw [hnew.1]
      exact (hfinds.own e he (hid ▸ (hfound _).mp hnew.2.2)).symm

theorem entity_unique {e e' : CheckedEntity} (he : e ∈ db.entities) (he' : e' ∈ db.entities)
    (h : e.entityId = e'.entityId) : e = e' :=
  List.inj_on_of_nodup_map db.entityKey he he' h

theorem finds_orphans (db : QualityDb) (now : Int) (userId : String) :
    Finds db userId (db.orphanIds now userId) fun e => db.isOrphan now userId e = true := by
  have hmem : ∀ e ∈ db.entities, e.entityId ∈ db.orphanIds now userId ↔
      db.isOrphan now userId e = true := by
    intro e he
    rw [orphanIds, List.mem_dedup, List.mem_map]
    constructor
    · intro h
      obtain ⟨e', he', hid⟩ := h
      rw [List.mem_filter] at he'
      exact entity_unique he'.1 he hid ▸ he'.2
    · intro h
      exact ⟨e, List.mem_filter.mpr ⟨he, h⟩, rfl⟩
  refine ⟨fun e he _ => hmem e he, fun e he hin => ?_⟩
  have horphan := (hmem e he).mp hin
  simp only [isOrphan, Bool.and_eq_true, decide_eq_true_eq] at horphan
  exact horphan.1.1.1.1

/-- The entity shares an alias with another personal entity of its user. -/
def SharesAlias (env : ConstraintEnv) (db : QualityDb) (e : CheckedEntity) : Prop :=
  e.scope = .personal ∧ ∃ e' ∈ db.entities, e'.entityId ≠ e.entityId ∧ e'.userId = e.userId ∧
    e'.scope = .personal ∧ ∃ a ∈ e.aliases, ∃ a' ∈ e'.aliases, a.map env.lower = a'.map env.lower

theorem mem_aliasRows {env : ConstraintEnv} {row : Option String × String} :
    row ∈ aliasRows env db userId ↔ ∃ e ∈ db.entities, e.userId = userId ∧ e.scope = .personal ∧
      e.entityId = row.2 ∧ ∃ a ∈ e.aliases, a.map env.lower = row.1 := by
  simp only [aliasRows, List.mem_flatMap, List.mem_filter, List.mem_map, Bool.and_eq_true,
    decide_eq_true_eq]
  constructor
  · rintro ⟨e, ⟨he, huser, hscope⟩, a, ha, rfl⟩
    exact ⟨e, he, huser, hscope, rfl, a, ha, rfl⟩
  · rintro ⟨e, he, huser, hscope, hid, a, ha, halias⟩
    exact ⟨e, ⟨he, huser, hscope⟩, a, ha, Prod.ext halias hid⟩

theorem one_lt_dedup_iff {ids : List String} {entityId : String} (h : entityId ∈ ids) :
    1 < ids.dedup.length ↔ ∃ other ∈ ids, other ≠ entityId := by
  constructor
  · intro hlen
    by_contra hno
    have hsub : ids.dedup ⊆ [entityId] := by
      intro other hother
      by_contra hne
      exact hno ⟨other, List.mem_dedup.mp hother, by simpa using hne⟩
    have hle := (List.subperm_of_subset (List.nodup_dedup ids) hsub).length_le
    simp at hle
    omega
  · intro hother
    obtain ⟨other, hother, hne⟩ := hother
    have hsub : [entityId, other] ⊆ ids.dedup := by
      intro x hx
      rw [List.mem_dedup]
      rcases List.mem_cons.mp hx with rfl | hx
      · exact h
      · rw [List.mem_singleton.mp hx]
        exact hother
    have hnodup : [entityId, other].Nodup := by simpa using hne.symm
    exact (List.subperm_of_subset hnodup hsub).length_le

theorem mem_dupeRows {env : ConstraintEnv} {entityId : String} :
    entityId ∈ (dupeRows env db userId).flatMap Prod.snd ↔
      ∃ a, (a, entityId) ∈ aliasRows env db userId ∧
        ∃ other, (a, other) ∈ aliasRows env db userId ∧ other ≠ entityId := by
  have hgroup : ∀ a x, x ∈ ((aliasRows env db userId).filter fun row => row.1 = a).map Prod.snd ↔
      (a, x) ∈ aliasRows env db userId := by
    intro a x
    rw [List.mem_map]
    constructor
    · rintro ⟨row, hrow, rfl⟩
      obtain ⟨hrow, ha⟩ := List.mem_filter.mp hrow
      rw [← of_decide_eq_true ha]
      exact hrow
    · intro hrow
      exact ⟨(a, x), List.mem_filter.mpr ⟨hrow, by simp⟩, rfl⟩
  rw [List.mem_flatMap]
  constructor
  · rintro ⟨group, hdupe, hid⟩
    obtain ⟨hin, hlen⟩ := List.mem_filter.mp hdupe
    obtain ⟨a, -, rfl⟩ := List.mem_map.mp hin
    obtain ⟨other, hother, hne⟩ := (one_lt_dedup_iff hid).mp (of_decide_eq_true hlen)
    exact ⟨a, (hgroup a entityId).mp hid, other, (hgroup a other).mp hother, hne⟩
  · rintro ⟨a, hrow, other, hother, hne⟩
    have hid := (hgroup a entityId).mpr hrow
    refine ⟨(a, _), List.mem_filter.mpr ⟨List.mem_map.mpr ⟨a, ?_, rfl⟩, ?_⟩, hid⟩
    · exact List.mem_dedup.mpr (List.mem_map.mpr ⟨(a, entityId), hrow, rfl⟩)
    · exact decide_eq_true ((one_lt_dedup_iff hid).mpr ⟨other, (hgroup a other).mpr hother, hne⟩)

theorem finds_shared (env : ConstraintEnv) (db : QualityDb) (userId : String) :
    Finds db userId ((dupeRows env db userId).flatMap Prod.snd) (SharesAlias env db) := by
  refine ⟨fun e he huser => ?_, fun e he hin => ?_⟩
  · rw [mem_dupeRows]
    constructor
    · intro h
      obtain ⟨a, hrow, other, hother, hne⟩ := h
      obtain ⟨e₁, he₁, huser₁, hscope₁, hid₁, a₁, ha₁, halias₁⟩ := mem_aliasRows.mp hrow
      obtain ⟨e₂, he₂, huser₂, hscope₂, hid₂, a₂, ha₂, halias₂⟩ := mem_aliasRows.mp hother
      obtain rfl := entity_unique he₁ he hid₁
      exact ⟨hscope₁, e₂, he₂, fun h => hne (hid₂.symm.trans h), huser₂.trans huser.symm, hscope₂,
        a₁, ha₁, a₂, ha₂, halias₁.trans halias₂.symm⟩
    · intro h
      obtain ⟨hscope, e', he', hne, huser', hscope', a, ha, a', ha', halias⟩ := h
      exact ⟨a.map env.lower, mem_aliasRows.mpr ⟨e, he, huser, hscope, rfl, a, ha, rfl⟩,
        e'.entityId, mem_aliasRows.mpr ⟨e', he', huser'.trans huser, hscope', rfl, a', ha', halias.symm⟩,
        hne⟩
  · obtain ⟨a, hrow, -⟩ := mem_dupeRows.mp hin
    obtain ⟨e', he', huser', -, hid', -⟩ := mem_aliasRows.mp hrow
    exact entity_unique he' he hid' ▸ huser'

theorem isOrphan_congr {db' : QualityDb} (h : db'.graph = db.graph) (e : CheckedEntity) :
    db'.isOrphan now userId e = db.isOrphan now userId e := by
  rw [isOrphan, isOrphan, show db'.entityRelations = db.entityRelations from congrArg Prod.snd h]

theorem sharesAlias_congr {env : ConstraintEnv} {db' : QualityDb} (h : db'.graph = db.graph)
    (e : CheckedEntity) : SharesAlias env db' e ↔ SharesAlias env db e := by
  rw [SharesAlias, SharesAlias, entities_of_graph h]

theorem checkOrphanEntities_eq : checkOrphanEntities now userId db =
    bookAll now userId .orphanEntity ((db.orphanIds now userId).map fun entityId =>
      (entityId, "Entity has zero edges and was created more than 7 days ago"))
      (db.orphanIds now userId) db := by
  rw [checkOrphanEntities, bookAll]
  simp only [List.foldl_map]

theorem checkAliasUniqueness_eq {env : ConstraintEnv}
    (h : env.uuidArraysAsText = false ∨ dupeRows env db userId = []) :
    checkAliasUniqueness env now userId db =
      bookAll now userId .aliasUniqueness ((dupeRows env db userId).flatMap fun group =>
        group.2.map fun entityId => (entityId, aliasDetail group))
        ((dupeRows env db userId).flatMap Prod.snd) db := by
  have hread : (env.uuidArraysAsText && !(dupeRows env db userId).isEmpty) = false := by
    rcases h with h | h <;> simp [h]
  rw [checkAliasUniqueness, bookAll, if_neg (by simp [hread])]
  simp only [List.foldl_flatMap, List.foldl_map]

end

end QualityDb

/-! ## Runs -/

/-- A change of the tables by others, or one call of a function. -/
inductive ConstraintEvent where
  | change (db : QualityDb)
  | batch (now : Int) (entityIds : List String) (userId : String)
  | orphans (now : Int) (userId : String)
  | aliases (now : Int) (userId : String)

namespace ConstraintEvent

open QualityDb

/-- What the call returns, and the tables after it. -/
def step (env : ConstraintEnv) (db : QualityDb) : ConstraintEvent → Nat × QualityDb
  | change db' => (0, db')
  | batch now entityIds userId => runBatchConstraints now entityIds userId db
  | orphans now userId => checkOrphanEntities now userId db
  | aliases now userId => checkAliasUniqueness env now userId db

def stateAfter (env : ConstraintEnv) (db : QualityDb) (events : List ConstraintEvent) : QualityDb :=
  events.foldl (fun db event => (step env db event).2) db

/-- After the call the pairs that it checks are booked exactly, and it returns how many rows it
inserted. -/
def Exact (env : ConstraintEnv) (db : QualityDb) (event : ConstraintEvent) : Prop :=
  match event with
  | change _ => True
  | batch _ entityIds _ =>
    (∀ entityId ∈ entityIds, ∀ rule ∈ entityRules, Booked (event.step env db).2 entityId rule
      ((event.step env db).2.Violated (entityId, rule))) ∧
    Inserted db (event.step env db).2 (event.step env db).1
  | orphans now userId =>
    (∀ e ∈ (event.step env db).2.entities, e.userId = userId →
      Booked (event.step env db).2 e.entityId .orphanEntity
        ((event.step env db).2.isOrphan now userId e = true)) ∧
    Inserted db (event.step env db).2 (event.step env db).1
  | aliases _ userId =>
    (∀ e ∈ (event.step env db).2.entities, e.userId = userId →
      Booked (event.step env db).2 e.entityId .aliasUniqueness
        (SharesAlias env (event.step env db).2 e)) ∧
    Inserted db (event.step env db).2 (event.step env db).1

/-- Others leave the table tidy. A batch finds no violation that is open already, or twice. Aliases are
read as lists, or none is shared. -/
def Sound (env : ConstraintEnv) (db : QualityDb) (event : ConstraintEvent) : Prop :=
  match event with
  | change db' => db'.Tidy
  | batch _ entityIds _ =>
    ((pairsOf entityIds).filter fun p => db.Violated p).Nodup ∧
      ∀ p ∈ (pairsOf entityIds).filter fun p => db.Violated p, db.openCount p.1 p.2 = 0
  | orphans _ _ => True
  | aliases _ userId => env.uuidArraysAsText = false ∨ dupeRows env db userId = []

variable {env : ConstraintEnv} {db : QualityDb} {event : ConstraintEvent}

theorem mem_found_shared {userId : String} (id : String) :
    id ∈ ((dupeRows env db userId).flatMap fun group =>
        group.2.map fun entityId => (entityId, aliasDetail group)).map Prod.fst ↔
      id ∈ (dupeRows env db userId).flatMap Prod.snd := by
  simp only [List.map_flatMap, List.map_map]
  simp

theorem tidy_step (h : db.Tidy) (hsound : event.Sound env db) : (event.step env db).2.Tidy := by
  cases event with
  | change db' => exact hsound
  | batch now entityIds userId => exact h.runBatchConstraints entityIds
  | orphans now userId =>
    rw [step, checkOrphanEntities_eq]
    exact h.bookAll (finds_orphans db now userId) (by simp)
  | aliases now userId =>
    rw [step, checkAliasUniqueness_eq hsound]
    exact h.bookAll (finds_shared env db userId) mem_found_shared

theorem exact_step (h : db.Tidy) (hsound : event.Sound env db) : event.Exact env db := by
  cases event with
  | change db' => exact trivial
  | batch now entityIds userId =>
    exact ⟨fun entityId hid rule hrule => runBatchConstraints_booked h hid hrule,
      (runBatchConstraints_count_iff now entityIds userId db).mpr hsound⟩
  | orphans now userId =>
    simp only [Exact, step, checkOrphanEntities_eq]
    refine ⟨fun e he huser => ?_, bookAll_inserted⟩
    rw [entities_of_graph bookAll_graph] at he
    rw [isOrphan_congr bookAll_graph]
    exact bookAll_booked h (.inl rfl) (finds_orphans db now userId) (by simp) he huser
  | aliases now userId =>
    simp only [Exact, step, checkAliasUniqueness_eq hsound]
    refine ⟨fun e he huser => ?_, bookAll_inserted⟩
    rw [entities_of_graph bookAll_graph] at he
    rw [Booked, sharesAlias_congr bookAll_graph]
    exact bookAll_booked h (.inr rfl) (finds_shared env db userId) mem_found_shared he huser

/-- The events of the list, each from the state that those before it leave, are as `P` says. -/
def Along (P : QualityDb → ConstraintEvent → Prop) (env : ConstraintEnv) (db : QualityDb)
    (events : List ConstraintEvent) : Prop :=
  ∀ before event after, events = before ++ event :: after → P (stateAfter env db before) event

theorem along_cons {P : QualityDb → ConstraintEvent → Prop} {events : List ConstraintEvent} :
    Along P env db (event :: events) ↔ P db event ∧ Along P env (event.step env db).2 events := by
  constructor
  · intro h
    refine ⟨h [] event events rfl, fun before next after hevents => ?_⟩
    exact h (event :: before) next after (by rw [hevents, List.cons_append])
  · intro h before next after hevents
    cases before with
    | nil =>
      obtain ⟨rfl, rfl⟩ := List.cons.inj hevents
      exact h.1
    | cons first before =>
      obtain ⟨rfl, hrest⟩ := List.cons.inj hevents
      exact h.2 before next after hrest

theorem along_nil {P : QualityDb → ConstraintEvent → Prop} : Along P env db [] := by
  intro before event after hevents
  simp at hevents

theorem tidy_stateAfter {events : List ConstraintEvent} (h : db.Tidy)
    (hsound : Along (Sound env) env db events) {before after : List ConstraintEvent}
    (hevents : events = before ++ after) : (stateAfter env db before).Tidy := by
  induction before using List.reverseRecOn generalizing after with
  | nil => exact h
  | append_singleton before event ih =>
    rw [List.append_assoc, List.singleton_append] at hevents
    rw [stateAfter, List.foldl_append]
    exact tidy_step (ih hevents) (hsound before event after hevents)

theorem constraints_exact_run {env : ConstraintEnv} {db : QualityDb} {events : List ConstraintEvent}
    (h : db.Tidy) (hsound : Along (Sound env) env db events) : Along (Exact env) env db events := by
  intro before event after hevents
  exact exact_step (tidy_stateAfter h hsound hevents) (hsound before event after hevents)

namespace ConstraintExample

def driver : ConstraintEnv := ⟨fun s => s, false⟩

/-- A person without a name. -/
def nameless : QualityDb where
  entities := [⟨"e1", " ", "PERSON", [some "ada"], "ann", false, .personal, 0⟩,
    ⟨"e2", "Ada", "CONCEPT", [some "ada"], "ann", false, .personal, 900000⟩]
  entityKey := by decide
  entityRelations := []
  constraintViolations := []

end ConstraintExample

open ConstraintExample in
theorem constraints_exact_nameless : Along (Exact driver) driver nameless
    [.batch 1000000 ["e1"] "ann", .orphans 1000001 "ann", .aliases 1000002 "ann"] := by
  refine constraints_exact_run (tidy_empty rfl) ?_
  rw [along_cons, along_cons, along_cons]
  exact ⟨by unfold Sound; decide, trivial, .inl rfl, along_nil⟩

open ConstraintExample in
/-- The second batch inserts nothing, and returns 2 again. -/
theorem batch_counts_again :
    (step driver (stateAfter driver nameless [.batch 1 ["e1"] "ann"]) (.batch 2 ["e1"] "ann")).1 = 2 ∧
    (stateAfter driver nameless [.batch 1 ["e1"] "ann"]).constraintViolations.length = 2 ∧
    (stateAfter driver nameless [.batch 1 ["e1"] "ann", .batch 2 ["e1"] "ann"]).constraintViolations.length
      = 2 ∧
    ¬ Along (Exact driver) driver nameless [.batch 1 ["e1"] "ann", .batch 2 ["e1"] "ann"] := by
  refine ⟨by decide, by decide, by decide, fun h => ?_⟩
  rw [along_cons, along_cons] at h
  have hcount := h.2.1.2
  revert hcount
  unfold Inserted
  decide

end ConstraintEvent

end Lumogis
