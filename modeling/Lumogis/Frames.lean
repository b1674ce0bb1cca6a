import Lumogis.Lib.Fault
import Lumogis.SharingRoutes
import Lumogis.DocumentPurge
import Mathlib.Tactic.SplitIfs

/-!
# Frames

What the calls of each operation can touch. `EntityArm s t`: from `s` to `t` only entities, what
hangs off them, and entity points have changed; likewise `DocumentArm`, `JobArm` and `LockArm`.
-/

namespace Lumogis

open Prog

def EntityArm (s t : Store) : Prop :=
  ∃ es rs qs ps n, t = { s with
    db := { s.db with entities := es, entityRelations := rs, reviewQueue := qs }
    entityPoints := ps
    uuidsDrawn := n }

def DocumentArm (s t : Store) : Prop := ∃ ds, t = { s with documents := ds }

def JobArm (s t : Store) : Prop := ∃ js, t = { s with db := { s.db with userBatchJobs := js } }

def LockArm (s t : Store) : Prop := ∃ ls, t = { s with locks := ls }

theorem EntityArm.refl (s : Store) : EntityArm s s := ⟨_, _, _, _, _, rfl⟩

theorem DocumentArm.refl (s : Store) : DocumentArm s s := ⟨_, rfl⟩

/-! ## Rows of `file_index` -/

/-- The columns that no update of `file_index` sets. -/
def FileRow.SameKey (r' r : FileRow) : Prop :=
  r'.id = r.id ∧ r'.userId = r.userId ∧ r'.filePath = r.filePath ∧ r'.scope = r.scope ∧
    r'.publishedFrom = r.publishedFrom

/-! ## Statements -/

theorem always_select {α : Type} {φ : Store → Store → Prop} {f : Db → α} (h : ∀ s, φ s s) :
    Always φ (select f) := always_query h

theorem always_statement {α : Type} {φ : Store → Store → Prop} {f : Db → α × Db}
    (h : ∀ s : Store, φ s { s with db := (f s.db).2 }) : Always φ (statement f) := always_act h

theorem always_execute {φ : Store → Store → Prop} {f : Db → Db}
    (h : ∀ s : Store, φ s { s with db := f s.db }) : Always φ (execute f) := always_act h

theorem always_statementE {α : Type} {φ : Store → Store → Prop} {f : Db → Except PyErr (α × Db)}
    (hr : ∀ s, φ s s) (h : ∀ (s : Store) a db, f s.db = .ok (a, db) → φ s { s with db := db }) :
    Always φ (statementE f) := by
  refine always_actE fun s => ?_
  cases hf : f s.db with
  | ok x => exact h s x.1 x.2 hf
  | error e => exact hr s

theorem onOk_statement {α : Type} {Q : α → Store → Prop} {f : Db → α × Db} {s : Store}
    (h : Q (f s.db).1 { s with db := (f s.db).2 }) : OnOk Q (statement f) s := OnOk.act h

theorem onOk_select {α : Type} {Q : α → Store → Prop} {f : Db → α} {s : Store}
    (h : Q (f s.db) s) : OnOk Q (select f) s := OnOk.query h

theorem onOk_statementE {α : Type} {Q : α → Store → Prop} {f : Db → Except PyErr (α × Db)}
    {s : Store} (h : ∀ a db, f s.db = .ok (a, db) → Q a { s with db := db }) :
    OnOk Q (statementE f) s := by
  refine post_actE.mpr ⟨fun a ha => ?_, fun _ hb => ?_, fun _ hb => ?_⟩
  · cases hf : f s.db with
    | ok x =>
      rw [hf] at ha
      cases ha
      exact h x.1 x.2 hf
    | error e =>
      rw [hf] at ha
      cases ha
  · cases hb
  · cases hb

/-! ## Entities -/

theorem upsertEntityProjection_frame {row r : EntityRow} {src : String} {db db' : Db}
    (h : db.upsertEntityProjection row src = .ok (r, db')) :
    ∃ es, db' = { db with entities := es } := by
  simp only [Db.upsertEntityProjection] at h
  split at h
  · cases h; exact ⟨_, rfl⟩
  · split at h
    · cases h; exact ⟨_, rfl⟩
    · cases h

theorem embedText_frame (env : Env) (text : String) : Always EntityArm (embedText env text) :=
  always_query EntityArm.refl

theorem embedForProjection_frame (env : Env) (text : String) :
    Always EntityArm (embedForProjection env text) := by
  refine Always.bind (embedText_frame env text).attempt fun r => ?_
  cases r <;> trivial

theorem qdrantDeleteSafe_frame {φ : Store → Store → Prop} {delete : M Unit}
    (h : Always φ delete) : Always φ (qdrantDeleteSafe delete) :=
  Always.bind h.attempt fun _ => trivial

theorem upsertEntityPoint_frame (pt : EntPoint) : Always EntityArm (upsertEntityPoint pt) :=
  always_act fun _ => ⟨_, _, _, _, _, rfl⟩

theorem deleteEntityPoints_frame (p : EntPoint → Bool) :
    Always EntityArm (deleteEntityPoints p) := always_act fun _ => ⟨_, _, _, _, _, rfl⟩

theorem validateTargetScope_frame {φ : Store → Store → Prop} (sc : Scope) :
    Always φ (validateTargetScope sc) := by
  unfold validateTargetScope
  split <;> trivial

theorem projectEntity_frame (env : Env) (src : EntityRow) (sc : Scope) (actor : String)
    (o : ShareOrigin) : Always EntityArm (projectEntity env src sc actor o) := by
  refine Always.bind (validateTargetScope_frame sc) fun _ => ?_
  split
  · trivial
  · refine Always.bind (embedForProjection_frame env _) fun v => ?_
    refine Always.bind ?_ fun _ => ?_
    · cases v with
      | none => trivial
      | some v => exact upsertEntityPoint_frame _
    · refine Always.tryCatch (always_statementE EntityArm.refl fun s a db h => ?_) fun e => ?_
      · obtain ⟨es, rfl⟩ := upsertEntityProjection_frame h
        exact ⟨_, _, _, _, _, rfl⟩
      · exact Always.bind (qdrantDeleteSafe_frame (deleteEntityPoints_frame _)) fun _ => trivial

theorem unprojectEntity_frame (env : Env) (e : String) (sc : Scope) :
    Always EntityArm (unprojectEntity env e sc) :=
  Always.bind (always_statement fun _ => ⟨_, _, _, _, _, rfl⟩) fun _ =>
    Always.bind (qdrantDeleteSafe_frame (deleteEntityPoints_frame _)) fun _ => trivial

theorem applyEntityRetractionPlan_frame (env : Env) (plan : Plan) :
    Always EntityArm (applyEntityRetractionPlan env plan) := by
  refine Always.bind (Always.foldM (fun n e _ => ?_) 0) fun n => ?_
  · refine Always.bind (unprojectEntity_frame env e .shared).attempt fun r => ?_
    cases r <;> trivial
  · split
    · trivial
    · exact Always.bind (Always.attempt (always_execute fun _ => ⟨_, _, _, _, _, rfl⟩))
        fun _ => trivial

theorem retractDocumentEntities_frame (env : Env) (filePath owner : String) :
    Always EntityArm (retractDocumentEntities env filePath owner) := by
  unfold retractDocumentEntities
  split
  · trivial
  · exact Always.bind (always_select EntityArm.refl) fun _ => applyEntityRetractionPlan_frame env _

theorem retractRemovedEntitiesOnReingest_frame (env : Env) (filePath owner : String)
    (removed : List String) :
    Always EntityArm (retractRemovedEntitiesOnReingest env filePath owner removed) := by
  unfold retractRemovedEntitiesOnReingest
  split
  · trivial
  · refine Always.bind ?_ fun _ => applyEntityRetractionPlan_frame env _
    unfold planReingestRemovedEntityRetraction
    split
    · trivial
    · exact always_select EntityArm.refl

theorem cascadeShareDocumentEntities_frame (env : Env) (src : FileRow) (actor : String)
    (sc : Scope) : Always EntityArm (cascadeShareDocumentEntities env src actor sc) := by
  unfold cascadeShareDocumentEntities
  split
  · trivial
  · split
    · trivial
    · refine Always.bind (always_select EntityArm.refl) fun rows => ?_
      refine Always.foldM (fun n e _ => ?_) _
      refine Always.bind (projectEntity_frame env e sc actor .document).attempt fun r => ?_
      cases r <;> trivial

/-! ## Extraction -/

theorem insertNewEntity_frame (env : Env) (entity : ExtractedEntity) (userId : String) :
    Always EntityArm (insertNewEntity env entity userId) := by
  have huuid : Always EntityArm (freshUuid env) := always_act fun _ => ⟨_, _, _, _, _, rfl⟩
  refine Always.bind huuid fun id => Always.bind ?_ fun _ => trivial
  refine always_statementE EntityArm.refl fun s a db h => ?_
  split at h
  · cases h
  · cases h; exact ⟨_, _, _, _, _, rfl⟩

theorem placeEntity_frame (env : Env) (entity : ExtractedEntity) (userId : String)
    (existing : Option EntityRow) : Always EntityArm (placeEntity env entity userId existing) := by
  unfold placeEntity
  split
  · exact Always.bind (always_execute fun _ => ⟨_, _, _, _, _, rfl⟩) fun _ => trivial
  · refine Always.bind (insertNewEntity_frame env entity userId) fun id =>
      Always.bind ?_ fun _ => trivial
    refine always_statementE EntityArm.refl fun s a db h => ?_
    split at h
    · cases h; exact ⟨_, _, _, _, _, rfl⟩
    · cases h
  · exact insertNewEntity_frame env entity userId

theorem insertRelation_frame {er : RelationRow} {db db' : Db} {a : Unit}
    (h : db.insertRelation er = .ok (a, db')) : ∃ rs, db' = { db with entityRelations := rs } := by
  unfold Db.insertRelation at h
  split at h
  · cases h; exact ⟨_, rfl⟩
  · split at h
    · cases h; exact ⟨_, rfl⟩
    · cases h

theorem upsertEntity_frame (env : Env) (entity : ExtractedEntity) (evidenceId : String)
    (ty : EvidenceType) (userId : String) :
    Always EntityArm (upsertEntity env entity evidenceId ty userId) := by
  refine Always.bind (always_select EntityArm.refl) fun existing => ?_
  refine Always.bind (placeEntity_frame env entity userId existing) fun id => ?_
  refine Always.bind (always_statementE EntityArm.refl fun s a db h => ?_) fun _ => ?_
  · obtain ⟨rs, rfl⟩ := insertRelation_frame h
    exact ⟨_, _, _, _, _, rfl⟩
  · exact Always.bind (embedText_frame env _) fun v =>
      Always.bind (upsertEntityPoint_frame _) fun _ => trivial

theorem storeEntities_frame (env : Env) (entities : List ExtractedEntity) (evidenceId : String)
    (ty : EvidenceType) (userId : String) :
    Always EntityArm (storeEntities env entities evidenceId ty userId) := by
  refine Always.foldM (fun ids entity _ => ?_) []
  refine Always.bind (upsertEntity_frame env entity evidenceId ty userId).attempt fun r => ?_
  cases r <;> trivial

theorem pruneStale_frame (filePath owner : String) (keep : List String) :
    Always EntityArm (pruneStaleDocumentEntityRelations filePath owner keep) := by
  unfold pruneStaleDocumentEntityRelations
  split
  · trivial
  · refine Always.bind (always_select EntityArm.refl) fun removed => ?_
    split
    · trivial
    · exact Always.bind (always_execute fun _ => ⟨_, _, _, _, _, rfl⟩) fun _ => trivial

theorem emitDocumentEntities_frame (env : Env) (file : SourceFile) (userId : String) :
    Always EntityArm (emitDocumentEntities env file userId) := by
  refine Always.tryCatch ?_ fun _ => trivial
  refine Always.bind ?_ fun entities => ?_
  · refine Always.bind (Always.attempt (always_query EntityArm.refl)) fun r => ?_
    cases r <;> trivial
  · exact Always.bind (storeEntities_frame env entities file.path .document userId) fun ids =>
      pruneStale_frame _ _ _

/-! ## Chunks -/

theorem deleteDocuments_frame (p : DocPoint → Bool) : Always DocumentArm (deleteDocuments p) :=
  always_act fun _ => ⟨_, rfl⟩

theorem unprojectFileChunks_frame (src : Nat) (owner : String) (sc : Scope) :
    Always DocumentArm (unprojectFileChunks src owner sc) := by
  unfold unprojectFileChunks
  split
  · trivial
  · exact deleteDocuments_frame _

theorem chunkVector_frame {φ : Store → Store → Prop} (hr : ∀ s, φ s s) (env : Env)
    (pt : DocPoint) : Always φ (chunkVector env pt) := by
  unfold chunkVector
  cases pt.vector with
  | some v => trivial
  | none =>
    refine Always.bind (Always.attempt (always_query hr)) fun r => ?_
    cases r <;> trivial

theorem upsertDocument_frame (pt : DocPoint) : Always DocumentArm (upsertDocument pt) :=
  always_act fun _ => ⟨_, rfl⟩

theorem projectFileChunk_frame (env : Env) (src : FileRow) (sc : Scope) (n : Nat × Nat)
    (pt : DocPoint) : Always DocumentArm (projectFileChunk env src sc n pt) := by
  unfold projectFileChunk
  split
  · trivial
  · refine Always.bind (chunkVector_frame DocumentArm.refl env pt) fun v => ?_
    cases v with
    | none => trivial
    | some v =>
      cases pt.chunkIndex with
      | none => trivial
      | some ix =>
        refine Always.bind (upsertDocument_frame _).attempt fun r => ?_
        cases r <;> trivial

theorem projectFileChunks_frame (env : Env) (src : FileRow) (sc : Scope) :
    Always DocumentArm (projectFileChunks env src sc) := by
  unfold projectFileChunks
  split
  · trivial
  · exact Always.bind (always_query DocumentArm.refl) fun chunks =>
      Always.foldM (fun n pt _ => projectFileChunk_frame env src sc n pt) _

/-! ## Indexing -/

theorem deleteChunkPoint_frame (env : Env) (userId filePath : String) (i : Nat) :
    Always DocumentArm (deleteChunkPoint env userId filePath i) :=
  (deleteDocuments_frame _).attempt.bind fun _ => trivial

theorem deleteDocumentVectorsForPath_frame (env : Env) (userId filePath : String) (n : Nat) :
    Always DocumentArm (deleteDocumentVectorsForPath env userId filePath n) :=
  Always.bind (deleteDocuments_frame _) fun _ =>
    Always.forEach fun i _ => deleteChunkPoint_frame env userId filePath i

theorem ingestChunkedText_frame (env : Env) (userId filePath ext text : String)
    (chunks : List String) :
    Always DocumentArm (ingestChunkedText env userId filePath ext text chunks) := by
  refine Always.bind (Always.foldM (fun n chunk _ => ?_) _) fun rows => ?_
  · unfold sanitiseChunk
    split
    · exact Always.bind (deleteChunkPoint_frame env userId filePath chunk.2) fun _ => trivial
    · trivial
  · refine Always.bind ?_ fun vectors => ?_
    · split
      · trivial
      · exact always_query DocumentArm.refl
    · exact Always.bind (Always.forEach fun r _ => upsertDocument_frame _) fun _ => trivial

theorem reportProgress_frame {onProgress : Option (Stage → M Unit)}
    (h : ∀ report, onProgress = some report → ∀ stage, Always JobArm (report stage))
    (stage : Stage) : Always JobArm (reportProgress onProgress stage) := by
  cases onProgress with
  | none => trivial
  | some report => exact h report rfl stage

/-! ## Ids -/

theorem digitChar_injOn : ∀ a < 10, ∀ b < 10, Nat.digitChar a = Nat.digitChar b → a = b := by decide

theorem toDigits_injective {m n : Nat} (h : Nat.toDigits 10 m = Nat.toDigits 10 n) : m = n := by
  induction m using Nat.strongRecOn generalizing n with
  | ind m ih =>
    rw [Nat.toDigits_eq_if (by decide), Nat.toDigits_eq_if (by decide) (n := n)] at h
    split_ifs at h with hm hn hn
    · exact digitChar_injOn m hm n hn (by simpa using h)
    · have := congrArg List.length h
      simp at this
    · have := congrArg List.length h
      simp at this
    · obtain ⟨hdiv, hmod⟩ := List.append_inj' h rfl
      have hd := ih (m / 10) (by omega) hdiv
      have hr := digitChar_injOn (m % 10) (by omega) (n % 10) (by omega) (by simpa using hmod)
      omega

theorem repr_injective : Function.Injective Nat.repr := fun m n h => by
  have hlist : (Nat.repr m).toList = (Nat.repr n).toList := congrArg String.toList h
  rw [Nat.toList_repr, Nat.toList_repr] at hlist
  exact toDigits_injective hlist

theorem documentChunkPointId_injective {env : Env} (hinj : Function.Injective env.uuid5)
    {userId path : String} {i j : Nat}
    (h : documentChunkPointId env userId path i = documentChunkPointId env userId path j) :
    i = j := by
  exact repr_injective ((String.append_right_inj _).mp (hinj h))

/-! ## Jobs and locks -/

theorem updateIngestJobProgress_frame (jobId : Nat) (userId : String) (stage : Stage)
    (msg : Option String) : Always JobArm (updateIngestJobProgress jobId userId stage msg) := by
  refine always_statementE (fun _ => ⟨_, rfl⟩) fun s a db h => ?_
  split at h
  · cases h; exact ⟨_, rfl⟩
  · cases h

theorem closeSession_frame (sess : Nat) : Always LockArm (closeSession sess) :=
  always_act fun _ => ⟨_, rfl⟩

theorem shareDocumentLock_frame {α : Type} {φ : Store → Store → Prop} (sess d : Nat) {body : M α}
    (hl : ∀ s t, LockArm s t → φ s t) (h : Always φ body) :
    Always φ (shareDocumentLock sess d body) := by
  have hclose : Always φ (closeSession sess) := (closeSession_frame sess).mono hl
  have hunlock : Always φ (pgAdvisoryUnlock sess (advisoryKey2 d)) :=
    always_act fun _ => hl _ _ ⟨_, rfl⟩
  have hlock : Always φ (pgAdvisoryLock sess (advisoryKey2 d)) :=
    ⟨fun _ _ => hl _ _ ⟨_, rfl⟩, fun _ => trivial, trivial⟩
  refine Always.bind hlock.attempt fun r => ?_
  cases r with
  | error e => exact Always.bind hclose.attempt fun _ => h
  | ok _ =>
    exact Always.tryFinally h
      (Always.bind hunlock.attempt fun _ => Always.bind hclose.attempt fun _ => trivial)

theorem LockArm.refl (s : Store) : LockArm s s := ⟨_, rfl⟩

theorem LockArm.trans {s t u : Store} (h : LockArm s t) (h' : LockArm t u) : LockArm s u := by
  obtain ⟨_, rfl⟩ := h
  obtain ⟨_, rfl⟩ := h'
  exact ⟨_, rfl⟩

theorem onOk_shareDocumentLock {α : Type} {Q : α → Store → Prop} {sess d : Nat} {body : M α}
    {s : Store} (hbody : ∀ t, LockArm s t → OnOk Q body t)
    (hQ : ∀ a t t', LockArm t t' → Q a t → Q a t') :
    OnOk Q (shareDocumentLock sess d body) s := by
  have hfree {p : M Unit} (h : Always LockArm p) (t : Store) :
      OnOk (fun _ t' => LockArm t t') p.attempt t :=
    h.attempt.onOk LockArm.refl (fun _ _ _ => LockArm.trans) t
  have hlock : Always LockArm (pgAdvisoryLock sess (advisoryKey2 d)) :=
    ⟨fun _ _ => ⟨_, rfl⟩, fun _ => trivial, trivial⟩
  have hunlock : Always LockArm (pgAdvisoryUnlock sess (advisoryKey2 d)) :=
    always_act fun _ => ⟨_, rfl⟩
  refine OnOk.bind ((hfree hlock s).mono fun r t ht => ?_)
  cases r with
  | error e =>
    exact OnOk.bind ((hfree (closeSession_frame sess) t).mono fun _ t' ht' => hbody t' (ht.trans ht'))
  | ok _ =>
    refine OnOk.tryFinally ((hbody t ht).mono fun a t1 hq => ?_)
    refine OnOk.bind ((hfree hunlock t1).mono fun _ t2 h2 => ?_)
    refine OnOk.bind ((hfree (closeSession_frame sess) t2).mono fun _ t3 h3 => ?_)
    exact OnOk.ret (hQ a _ _ (h2.trans h3) hq)

/-! ## Transactions -/

/-- How `with ms.transaction()` passes on what its body ends in. -/
def txnPost {α : Type} (Q : Except PyErr α → Store → Prop) : Except PyErr α → Store → Prop
  | .ok a, t => Q (.ok a) { t with openTxn := none }
  | .error e, t => Q (.error e) { t with db := t.openTxn.getD t.db, openTxn := none }

theorem transaction_wp {α : Type} {Q : Except PyErr α → Store → Prop} {body : M α} {s : Store}
    (hnested : s.openTxn ≠ none → Q (.error nestedTransaction) s)
    (hbody : wp (txnPost Q) body { s with openTxn := some s.db }) : wp Q (transaction body) s := by
  refine wp_bind.mpr (wp_actE.mpr ?_)
  cases htxn : s.openTxn with
  | some d => exact hnested (by simp [htxn])
  | none =>
    refine wp_bind.mpr (wp_attempt.mpr (wp_bind.mpr (hbody.mono fun r t ht => ?_)))
    cases r with
    | ok a => exact wp_bind.mpr (wp_act.mpr ht)
    | error e => exact wp_bind.mpr (wp_attempt.mpr (wp_act.mpr ht))

end Lumogis
