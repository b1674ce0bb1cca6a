import Lumogis.Publishing

/-!
# Lumogis.PublishLeaks

What a single fault leaves behind. A publish that raises is `requested`, which only reads, followed by the
writes of `projectDraft`; the point is taken back when the row cannot be written, but not when the upsert
itself raises after it took effect. An unpublish that succeeds has deleted the row, but it swallows the
failure of the point's deletion.
-/

namespace Lumogis.Publish

variable {α β : Type} {env : PublishEnv} {r : Resource} {pk actor : String} {body : PublishBody}
  {faults : PublishFaults} {s t : PublishStore}

/-! ## Runs -/

@[simp] theorem exec_pure (a : α) : (pure a : PublishM α).exec faults s = (.ok a, s) := rfl

@[simp] theorem exec_throw (e : PublishErr) : (throw e : PublishM α).exec faults s = (.error e, s) := rfl

theorem exec_bind (p : PublishM α) (f : α → PublishM β) : (p >>= f).exec faults s =
    match p.exec faults s with
    | (.ok a, t) => (f a).exec faults t
    | (.error e, t) => (.error e, t) := by
  show (ExceptT.bind (p faults) fun a => f a faults) s = _
  cases h : p.exec faults s with
  | mk x t =>
    replace h : p faults s = (x, t) := h
    simp only [ExceptT.bind, ExceptT.mk, bind, StateT.bind, h]
    cases x <;> rfl

theorem exec_tryCatch (p : PublishM α) (f : PublishErr → PublishM α) : (tryCatch p f).exec faults s =
    match p.exec faults s with
    | (.ok a, t) => (.ok a, t)
    | (.error e, t) => (f e).exec faults t := by
  show (ExceptT.tryCatch (p faults) fun e => f e faults) s = _
  cases h : p.exec faults s with
  | mk x t =>
    replace h : p faults s = (x, t) := h
    simp only [ExceptT.tryCatch, ExceptT.mk, bind, StateT.bind, h]
    cases x <;> rfl

theorem exec_remote {fate : PublishFaults → Prog.Fate} {e : PublishErr}
    {f : PublishStore → Except PublishErr α × PublishStore} : (remote fate e f).exec faults s =
      match fate faults with
      | .ok => f s
      | .lost => (.error e, s)
      | .late => (.error e, (f s).2) := rfl

/-- The store that a run leaves when it raises. -/
def raised (x : Except PublishErr α × PublishStore) : Option PublishStore :=
  match x.1 with
  | .ok _ => none
  | .error _ => some x.2

theorem raised_bind (p : PublishM α) (f : α → PublishM β) : raised ((p >>= f).exec faults s) =
    match p.exec faults s with
    | (.ok a, t) => raised ((f a).exec faults t)
    | (.error _, t) => some t := by
  rw [exec_bind]
  cases p.exec faults s with
  | mk x t => cases x <;> rfl

theorem raised_tryCatch_throw (p : PublishM α) (f : PublishErr → PublishErr) :
    raised ((tryCatch p fun e => throw (f e)).exec faults s) = raised (p.exec faults s) := by
  rw [exec_tryCatch]
  cases p.exec faults s with
  | mk x t => cases x <;> rfl

theorem raised_bind_pure (p : PublishM α) (f : α → β) :
    raised ((p >>= fun a => pure (f a)).exec faults s) = raised (p.exec faults s) := by
  rw [raised_bind]
  cases p.exec faults s with
  | mk x t => cases x <;> rfl

/-! ## Leaks -/

/-- The id of the row's shared point. -/
def pointId (env : PublishEnv) (r : Resource) (pk : String) : String :=
  projectionPointId env.toEnv r.collection.name pk .shared

def SharedRow (r : Resource) (pk : String) (s : PublishStore) : Prop :=
  ∃ row ∈ s.rows r, row.projects pk .shared = true

def SharedPoint (env : PublishEnv) (r : Resource) (pk : String) (s : PublishStore) : Prop :=
  ∃ pt ∈ s.points r.collection, pt.id = pointId env r pk ∧ pt.scope = some .shared

/-- A shared point without a shared row. -/
def Stray (env : PublishEnv) (r : Resource) (pk : String) (s : PublishStore) : Prop :=
  SharedPoint env r pk s ∧ ¬ SharedRow r pk s

/-- The caller's personal row is there. -/
def Owned (r : Resource) (pk actor : String) (s : PublishStore) : Prop :=
  ∃ row ∈ s.rows r, row.pk = pk ∧ row.userId = actor ∧ row.scope = .personal

/-! ## The writes of a publish -/

/-- What an insert does with no row of the projection there: the source is gone or the key is taken. -/
def Refused (env : PublishEnv) (r : Resource) (pk : String) (s : PublishStore) : Prop :=
  ¬ SharedRow r pk s ∧ (¬ (∃ row ∈ s.rows r, row.pk = pk) ∨
    ∃ row ∈ s.rows r, row.pk = projectionPk env.toEnv r.table pk .shared)

/-- The store without the points under the id. -/
def PublishStore.dropPoint (s : PublishStore) (c : Collection) (id : String) : PublishStore :=
  { s with points := Function.update s.points c (Table.deleteWhere (fun pt => pt.id == id) (s.points c)) }

def PublishStore.addPoint (s : PublishStore) (c : Collection) (pt : Point) : PublishStore :=
  { s with points := Function.update s.points c (Table.upsert Point.id pt (s.points c)) }

theorem exec_qdrantDeleteSafe (c : Collection) (id : String) : (qdrantDeleteSafe c id).exec faults s =
    (.ok (), if faults.deletePoint = .lost then s else s.dropPoint c id) := by
  rw [qdrantDeleteSafe, exec_tryCatch, exec_remote]
  cases faults.deletePoint <;> rfl

theorem not_sharedPoint_dropPoint : ¬ SharedPoint env r pk (s.dropPoint r.collection (pointId env r pk)) := by
  rintro ⟨pt, hpt, hid, -⟩
  rw [PublishStore.dropPoint] at hpt
  simp [Table.deleteWhere, hid] at hpt

theorem sharedRow_dropPoint {c : Collection} {id : String} : SharedRow r pk (s.dropPoint c id) ↔ SharedRow r pk s := Iff.rfl

theorem sharedPoint_addPoint (draft : Draft) (v : Embedding) :
    SharedPoint env r pk (s.addPoint r.collection (draft.point env r pk .shared actor v)) :=
  ⟨draft.point env r pk .shared actor v, by simp [PublishStore.addPoint], rfl, rfl⟩

theorem sharedRow_addPoint {c : Collection} {pt : Point} : SharedRow r pk (s.addPoint c pt) ↔ SharedRow r pk s := Iff.rfl

theorem upsertProjection_refused {row : Row} {adopt : Row → Row} (hscope : row.scope = .shared)
    (hpk : row.pk = projectionPk env.toEnv r.table pk .shared) :
    (∃ e, upsertProjection pk row adopt (s.rows r) = .error e) ↔ Refused env r pk s := by
  unfold upsertProjection
  rw [hscope]
  cases h : (s.rows r).find? (Row.projects pk .shared) with
  | some old =>
    have hrow : SharedRow r pk s := ⟨old, List.mem_of_find?_eq_some h, List.find?_some h⟩
    simp [Refused, hrow]
  | none =>
    have hrow : ¬ SharedRow r pk s := by
      rintro ⟨row, hmem, hprojects⟩
      exact absurd hprojects (by simpa using List.find?_eq_none.mp h row hmem)
    have hkeys : ((s.rows r).any (fun x => x.pk == pk) && !(s.rows r).any fun x => x.pk == row.pk) = true ↔
        (∃ x ∈ s.rows r, x.pk = pk) ∧ ¬ ∃ x ∈ s.rows r, x.pk = row.pk := by
      simp
    dsimp only
    rw [Refused, ← hpk, and_iff_right hrow]
    split
    · rename_i hfree
      have hfree := hkeys.mp hfree
      simp only [reduceCtorEq, exists_false, false_iff, not_or, not_not]
      exact hfree
    · rename_i hfree
      rw [hkeys, not_and_or, not_not] at hfree
      simpa using hfree

theorem others_ok_of_single (h : faults.Single) (hdelete : faults.deletePoint ≠ .ok) :
    faults.fetch = .ok ∧ faults.insert = .ok ∧ faults.deleteRow = .ok := by
  unfold PublishFaults.Single at h
  simp only [List.filter_cons, List.filter_nil, decide_not, hdelete, decide_false, Bool.not_false, if_true] at h
  refine ⟨?_, ?_, ?_⟩ <;> by_contra hne <;> simp only [hne, decide_false, Bool.not_false, if_true] at h <;>
    split_ifs at h <;> simp at h

theorem raised_rollback (c : Collection) (id : String) (e : PublishErr) :
    raised ((qdrantDeleteSafe c id >>= fun _ => (throw e : PublishM α)).exec faults s) =
      some (if faults.deletePoint = .lost then s else s.dropPoint c id) := by
  rw [raised_bind, exec_qdrantDeleteSafe]
  rfl

theorem insertProjection_safe {row : Row} {adopt : Row → Row} (hscope : row.scope = .shared)
    (hpk : row.pk = projectionPk env.toEnv r.table pk .shared) (hsingle : faults.Single) :
    (∀ t, raised ((insertProjectionOrRollbackQdrant r (pointId env r pk) pk row adopt).exec faults s) = some t →
      ¬ Stray env r pk t) ↔ (Refused env r pk s → faults.deletePoint = .lost → ¬ SharedPoint env r pk s) := by
  rw [insertProjectionOrRollbackQdrant, exec_tryCatch, exec_remote]
  have hrefused := @upsertProjection_refused env r pk s row adopt hscope hpk
  cases hinsert : faults.insert with
  | ok =>
    cases hrow : upsertProjection pk row adopt (s.rows r) with
    | ok x =>
      have hnot : ¬ Refused env r pk s := by simpa [hrow] using hrefused
      exact ⟨fun _ h => absurd h hnot, fun _ t ht => by cases ht⟩
    | error e =>
      have hr : Refused env r pk s := hrefused.mp ⟨e, hrow⟩
      simp only [raised_rollback, Option.some.injEq, forall_eq']
      by_cases hdelete : faults.deletePoint = .lost
      · simp [hdelete, hr, Stray, hr.1]
      · rw [if_neg hdelete]
        exact ⟨fun _ _ h => absurd h hdelete, fun _ h => not_sharedPoint_dropPoint h.1⟩
  | lost | late =>
    have hdelete : faults.deletePoint = .ok := by
      by_contra hne
      simpa [hinsert] using (others_ok_of_single hsingle hne).2.1
    simp only [raised_rollback, hdelete, Option.some.injEq, forall_eq', reduceCtorEq, if_false]
    exact ⟨fun _ _ h => h.elim, fun _ h => not_sharedPoint_dropPoint h.1⟩

/-- When the writes of a publish that raise leave no stray point. -/
def WritesSafe (env : PublishEnv) (r : Resource) (pk : String) (faults : PublishFaults) (s : PublishStore)
    (draft : Draft) : Prop :=
  match env.embedder draft.text, faults.upsert with
  | none, _ => Refused env r pk s → faults.deletePoint = .lost → ¬ SharedPoint env r pk s
  | some _, .lost => ¬ Stray env r pk s
  | some _, .late => SharedRow r pk s
  | some _, .ok => Refused env r pk s → faults.deletePoint ≠ .lost

theorem projectDraft_safe {draft : Draft} (hsingle : faults.Single) :
    (∀ t, raised ((projectDraft env r pk .shared actor draft).exec faults s) = some t → ¬ Stray env r pk t) ↔
      WritesSafe env r pk faults s draft := by
  have hinsert : ∀ u, _ ↔ _ := fun u => @insertProjection_safe env r pk faults u (draft.row env r pk .shared actor)
    (draft.adopt (draft.row env r pk .shared actor)) rfl rfl hsingle
  rw [projectDraft, raised_bind, WritesSafe]
  cases hv : env.embedder draft.text with
  | none => exact hinsert s
  | some v =>
    rw [qdrantUpsertSafe, exec_remote]
    cases hupsert : faults.upsert with
    | lost => simp
    | late =>
      simp only [Option.some.injEq, forall_eq']
      have hpoint := @sharedPoint_addPoint env r pk actor s draft v
      constructor
      · intro h
        by_contra hrow
        exact h ⟨hpoint, hrow⟩
      · exact fun hrow h => h.2 hrow
    | ok =>
      have hpoint := @sharedPoint_addPoint env r pk actor s draft v
      refine (hinsert _).trans ?_
      exact ⟨fun h hr hdelete => h hr hdelete hpoint, fun h hr hdelete _ => h hr hdelete⟩

/-! ## The reads of a publish -/

/-- What the resource contributes, for a row that was found. -/
def draftOf (env : PublishEnv) (r : Resource) (src : Row) (sharedSummary : Option String) : PublishM Draft :=
  match r with
  | .notes => pure (noteDraft src)
  | .audioMemos => pure (audioMemoDraft src)
  | .sessions => do
    let summaryText ← sharedSummaryText src .shared sharedSummary
    pure (sessionDraft src summaryText)
  | .entities => pure (entityDraft src "user")
  | .signals => pure (signalDraft env src)

/-- A publish up to its first write. -/
def requested (env : PublishEnv) (r : Resource) (pk : String) (body : PublishBody) (actor : String) : PublishM Draft := do
  let _ ← validatePublishScope body
  match ← fetchUuidPk r pk actor with
  | none => throw (notFound r pk)
  | some src => do
    prePublish r src
    if r = .sessions then do
      let sharedSummary ← validateSharedSummary body
      draftOf env r src sharedSummary
    else
      draftOf env r src none

/-- A program that only reads. -/
def ReadOnly (p : PublishM α) : Prop := ∀ faults s, (p.exec faults s).2 = s

theorem ReadOnly.bind {p : PublishM α} {f : α → PublishM β} (hp : ReadOnly p) (hf : ∀ a, ReadOnly (f a)) :
    ReadOnly (p >>= f) := by
  intro faults s
  have hs := hp faults s
  rw [exec_bind]
  cases hrun : p.exec faults s with
  | mk x t =>
    rw [hrun] at hs
    obtain rfl : t = s := hs
    cases x with
    | ok a => exact hf a faults t
    | error e => rfl

theorem readOnly_query {fate : PublishFaults → Prog.Fate} {e : PublishErr} {f : PublishStore → α} :
    ReadOnly (remote fate e fun s => (.ok (f s), s)) := by
  intro faults s
  rw [exec_remote]
  cases fate faults <;> rfl

theorem sharedSummaryText_readOnly (src : Row) (sharedSummary : Option String) :
    ReadOnly (sharedSummaryText src .shared sharedSummary) := by
  unfold sharedSummaryText
  dsimp only
  split
  · exact fun _ _ => rfl
  · exact readOnly_query.bind fun _ _ _ => rfl

theorem draftOf_readOnly (src : Row) (sharedSummary : Option String) : ReadOnly (draftOf env r src sharedSummary) := by
  cases r with
  | sessions => exact (sharedSummaryText_readOnly src sharedSummary).bind fun _ _ _ => rfl
  | notes | audioMemos | entities | signals => exact fun _ _ => rfl

theorem requested_readOnly : ReadOnly (requested env r pk body actor) := by
  have hscope : ReadOnly (validatePublishScope body) := by
    unfold validatePublishScope
    split <;> exact fun _ _ => rfl
  have hsummary : ReadOnly (validateSharedSummary body) := by
    unfold validateSharedSummary
    split
    · exact fun _ _ => rfl
    · split <;> exact fun _ _ => rfl
    · exact fun _ _ => rfl
  refine hscope.bind fun _ => readOnly_query.bind fun src => ?_
  cases src with
  | none => exact fun _ _ => rfl
  | some src =>
    have hpre : ReadOnly (prePublish r src) := by
      unfold prePublish
      split <;> exact fun _ _ => rfl
    refine hpre.bind fun _ => ?_
    split
    · exact hsummary.bind fun ss => draftOf_readOnly src ss
    · exact draftOf_readOnly src none

theorem validateTargetScope_shared : validateTargetScope .shared = pure () := if_neg (by decide)

theorem projectSession_eq (src : Row) (sharedSummary : Option String) :
    projectSession env src .shared actor sharedSummary =
      draftOf env .sessions src sharedSummary >>= projectDraft env .sessions src.pk .shared actor := by
  simp only [projectSession, validateTargetScope_shared, draftOf, pure_bind, bind_assoc]

theorem project_eq (src : Row) :
    project env r src .shared actor = draftOf env r src none >>= projectDraft env r src.pk .shared actor := by
  cases r with
  | notes => simp only [project, projectNote, validateTargetScope_shared, draftOf, pure_bind]
  | audioMemos => simp only [project, projectAudioMemo, validateTargetScope_shared, draftOf, pure_bind]
  | sessions => exact projectSession_eq src none
  | entities =>
    rw [project, projectEntity, validateTargetScope_shared, pure_bind, if_neg (by decide), draftOf, pure_bind]
  | signals => simp only [project, projectSignal, validateTargetScope_shared, draftOf, pure_bind]

theorem raised_bind_congr {γ : Type} {p : PublishM α} {f : α → PublishM β} {g : α → PublishM γ}
    (h : ∀ a t, p.exec faults s = (.ok a, t) → raised ((f a).exec faults t) = raised ((g a).exec faults t)) :
    raised ((p >>= f).exec faults s) = raised ((p >>= g).exec faults s) := by
  rw [raised_bind, raised_bind]
  cases hrun : p.exec faults s with
  | mk x t =>
    cases x with
    | ok a => exact h a t hrun
    | error e => rfl

theorem validatePublishScope_ok {scope : Scope} (h : (validatePublishScope body).exec faults s = (.ok scope, t)) :
    scope = .shared := by
  unfold validatePublishScope at h
  split at h <;> cases h
  rfl

theorem fetchUuidPk_ok {src : Row} (h : (fetchUuidPk r pk actor).exec faults s = (.ok (some src), t)) :
    src ∈ s.rows r ∧ src.pk = pk ∧ src.userId = actor ∧ src.scope = .personal := by
  rw [fetchUuidPk, exec_remote] at h
  cases hfetch : faults.fetch with
  | ok =>
    simp only [hfetch] at h
    have hfind := Except.ok.inj (Prod.mk.inj h).1
    have hrow := List.find?_some hfind
    simp only [Bool.and_eq_true, beq_iff_eq] at hrow
    exact ⟨List.mem_of_find?_eq_some hfind, hrow.1.1, hrow.1.2, hrow.2⟩
  | lost | late =>
    simp only [hfetch] at h
    cases h

theorem raised_publish : raised ((publish env r pk body actor).exec faults s) =
    match ((requested env r pk body actor).exec faults s).1 with
    | .error _ => some s
    | .ok draft => raised ((projectDraft env r pk .shared actor draft).exec faults s) := by
  have hreads := (@requested_readOnly env r pk actor body) faults s
  suffices key : raised ((publish env r pk body actor).exec faults s) =
      raised ((requested env r pk body actor >>= projectDraft env r pk .shared actor).exec faults s) by
    rw [key, raised_bind]
    cases hrun : (requested env r pk body actor).exec faults s with
    | mk x t =>
      rw [hrun] at hreads
      obtain rfl : t = s := hreads
      cases x <;> rfl
  have hwrites : ∀ (src : Row) (sharedSummary : Option String) (t : PublishStore), src.pk = pk →
      raised ((draftOf env r src sharedSummary >>= projectDraft env r src.pk .shared actor).exec faults t) =
        raised ((draftOf env r src sharedSummary >>= projectDraft env r pk .shared actor).exec faults t) :=
    fun src _ t hpk => by rw [hpk]
  simp only [requested, bind_assoc]
  by_cases hr : r = .sessions
  · subst hr
    refine raised_bind_congr fun scope t hscope => ?_
    obtain rfl := validatePublishScope_ok hscope
    refine raised_bind_congr fun src u hsrc => ?_
    cases src with
    | none => rfl
    | some src =>
      dsimp only
      rw [bind_assoc]
      refine raised_bind_congr fun _ v _ => ?_
      rw [if_pos rfl, bind_assoc]
      refine raised_bind_congr fun ss w _ => ?_
      rw [raised_bind_pure, raised_tryCatch_throw, projectSession_eq]
      exact hwrites src ss w (fetchUuidPk_ok hsrc).2.1
  · have hpublish : publish env r pk body actor = publishOne env r pk body actor := by
      cases r with
      | sessions => exact absurd rfl hr
      | notes | audioMemos | entities | signals => rfl
    rw [hpublish, publishOne]
    refine raised_bind_congr fun scope t hscope => ?_
    obtain rfl := validatePublishScope_ok hscope
    refine raised_bind_congr fun src u hsrc => ?_
    cases src with
    | none => rfl
    | some src =>
      dsimp only
      rw [bind_assoc]
      refine raised_bind_congr fun _ v _ => ?_
      rw [if_neg hr, raised_bind_pure, raised_tryCatch_throw, project_eq]
      exact hwrites src none v (fetchUuidPk_ok hsrc).2.1

/-! ## Unpublishing -/

def PublishStore.dropRows (s : PublishStore) (r : Resource) (pk : String) : PublishStore :=
  { s with rows := Function.update s.rows r (Table.deleteWhere (Row.projects pk .shared) (s.rows r)) }

theorem not_sharedRow_dropRows : ¬ SharedRow r pk (s.dropRows r pk) := by
  rintro ⟨row, hrow, hprojects⟩
  simp [PublishStore.dropRows, Table.deleteWhere, hprojects] at hrow

theorem sharedPoint_dropRows : SharedPoint env r pk (s.dropRows r pk) ↔ SharedPoint env r pk s := Iff.rfl

theorem unproject_eq : unproject env r pk = unprojectUuidPk env r pk .shared := by
  cases r <;> rfl

theorem find_owned : (∃ src, (s.rows r).find? (fun row => row.pk == pk && row.userId == actor && row.scope == .personal) =
    some src) ↔ Owned r pk actor s := by
  rw [← Option.isSome_iff_exists, List.find?_isSome]
  simp [Owned, and_assoc]

theorem unproject_exec : (unproject env r pk).exec faults s =
    match faults.deleteRow with
    | .ok => (.ok (if (s.rows r).any (Row.projects pk .shared) then 1 else 0),
        if faults.deletePoint = .lost then s.dropRows r pk
        else (s.dropRows r pk).dropPoint r.collection (pointId env r pk))
    | .lost => (.error .database, s)
    | .late => (.error .database, s.dropRows r pk) := by
  rw [unproject_eq, unprojectUuidPk, exec_bind, exec_remote]
  cases faults.deleteRow with
  | ok =>
    dsimp only
    rw [exec_bind, exec_qdrantDeleteSafe]
    rfl
  | lost | late => rfl

theorem unpublishOne_ok_iff : (unpublishOne env r pk actor).exec faults s = (.ok (), t) ↔
    faults.fetch = .ok ∧ Owned r pk actor s ∧ faults.deleteRow = .ok ∧
      t = if faults.deletePoint = .lost then s.dropRows r pk
        else (s.dropRows r pk).dropPoint r.collection (pointId env r pk) := by
  rw [← find_owned, unpublishOne, exec_bind, fetchUuidPk, exec_remote]
  cases hfetch : faults.fetch with
  | ok =>
    dsimp only
    generalize (s.rows r).find? _ = found
    cases found with
    | none => simp [notFound]
    | some src =>
      dsimp only
      rw [exec_bind, exec_tryCatch, unproject_exec]
      cases hrow : faults.deleteRow with
      | ok => simp [eq_comm]
      | lost | late => simp
  | lost | late => simp

/-! ## Single faults -/

/-- Whether a publish that raises leaves no stray point: up to the first write there must be none already, and
from there on the writes must be safe. -/
def PublishSafe (env : PublishEnv) (r : Resource) (pk : String) (body : PublishBody) (actor : String)
    (faults : PublishFaults) (s : PublishStore) : Prop :=
  match ((requested env r pk body actor).exec faults s).1 with
  | .error _ => ¬ Stray env r pk s
  | .ok draft => WritesSafe env r pk faults s draft

/-- Whether an unpublish that succeeds leaves nothing: the deletion of a point that is there must go through. -/
def UnpublishSafe (env : PublishEnv) (r : Resource) (pk actor : String) (faults : PublishFaults) (s : PublishStore) : Prop :=
  Owned r pk actor s → faults.deletePoint = .lost → ¬ SharedPoint env r pk s

/-- With at most one fault, a publish that raises leaves no stray point and an unpublish that succeeds leaves
neither row nor point, exactly under `PublishSafe` and `UnpublishSafe`. -/
theorem publish_leaves_none (hsingle : faults.Single) :
    ((∀ e t, (publish env r pk body actor).exec faults s = (.error e, t) → ¬ Stray env r pk t) ↔
      PublishSafe env r pk body actor faults s) ∧
    ((∀ t, (unpublishOne env r pk actor).exec faults s = (.ok (), t) → ¬ SharedRow r pk t ∧ ¬ SharedPoint env r pk t) ↔
      UnpublishSafe env r pk actor faults s) := by
  constructor
  · have hraised : (∀ e t, (publish env r pk body actor).exec faults s = (.error e, t) → ¬ Stray env r pk t) ↔
        ∀ t, raised ((publish env r pk body actor).exec faults s) = some t → ¬ Stray env r pk t := by
      cases hrun : (publish env r pk body actor).exec faults s with
      | mk x u => cases x <;> simp [raised]
    rw [hraised, raised_publish, PublishSafe]
    split
    · simp
    · exact projectDraft_safe hsingle
  · simp only [unpublishOne_ok_iff, UnpublishSafe]
    constructor
    · intro h howned hdelete hpoint
      obtain ⟨hfetch, -, hrow⟩ := others_ok_of_single hsingle (by rw [hdelete]; decide)
      exact (h _ ⟨hfetch, howned, hrow, (if_pos hdelete).symm⟩).2 hpoint
    · rintro h t ⟨-, howned, -, rfl⟩
      by_cases hdelete : faults.deletePoint = .lost
      · rw [if_pos hdelete]
        exact ⟨not_sharedRow_dropRows, h howned hdelete⟩
      · rw [if_neg hdelete]
        exact ⟨not_sharedRow_dropRows, not_sharedPoint_dropPoint⟩

/-! ## A shared note -/

def leakEnv : PublishEnv :=
  { Env.plain .inprocess with
    embedder := fun _ => some []
    dumps := fun _ => ""
    message := fun _ => "" }

def noteRow : Row := { pk := "n", userId := "u", scope := .personal, publishedFrom := none, fields := [("text", .text "t")] }

/-- A note and, when it is shared, its projection. -/
def noteStore (shared : Bool) : PublishStore :=
  { rows := fun r => if r = .notes then noteRow ::
      (if shared then [(noteDraft noteRow).row leakEnv .notes "n" .shared "u"] else []) else []
    points := fun c => if c = .conversations ∧ shared then [(noteDraft noteRow).point leakEnv .notes "n" .shared "u" []]
      else [] }

theorem publish_leaves_none_insert : (∀ e t, (publish leakEnv .notes "n" .empty "u").exec
      { PublishFaults.none with insert := .lost } (noteStore false) = (.error e, t) → ¬ Stray leakEnv .notes "n" t) ∧
    ∀ t, (unpublishOne leakEnv .notes "n" "u").exec { PublishFaults.none with insert := .lost } (noteStore false) = (.ok (), t) →
      ¬ SharedRow .notes "n" t ∧ ¬ SharedPoint leakEnv .notes "n" t :=
  have h := @publish_leaves_none leakEnv .notes "n" "u" .empty { PublishFaults.none with insert := .lost } (noteStore false)
    (by unfold PublishFaults.Single; decide)
  ⟨h.1.mpr fun _ hlost => (by cases hlost), h.2.mpr fun _ hlost => (by cases hlost)⟩

theorem unpublished_point_remains : ¬ ∀ (env : PublishEnv) (r : Resource) (pk actor : String) (body : PublishBody)
    (faults : PublishFaults) (s : PublishStore), faults.Single →
      (∀ e t, (publish env r pk body actor).exec faults s = (.error e, t) → ¬ Stray env r pk t) ∧
      ∀ t, (unpublishOne env r pk actor).exec faults s = (.ok (), t) → ¬ SharedRow r pk t ∧ ¬ SharedPoint env r pk t := by
  intro h
  have hgone := (h leakEnv .notes "n" "u" .empty { PublishFaults.none with deletePoint := .lost } (noteStore true)
    (by unfold PublishFaults.Single; decide)).2 ((noteStore true).dropRows .notes "n") rfl
  exact hgone.2 ⟨(noteDraft noteRow).point leakEnv .notes "n" .shared "u" [], List.mem_cons_self, rfl, rfl⟩

end Lumogis.Publish
