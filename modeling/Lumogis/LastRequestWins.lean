import Lumogis.UnshareSound
import Lumogis.Documents
import Mathlib.Data.List.Nodup

/-!
# LastRequestWins

The owner's requests on one document against the workers of the job queue.

`QueueStep` is one step of the system: the owner's request, a worker claiming a job of the document,
running its handler (under any faults), completing it or failing it, or anything else that leaves
the document and its jobs alone. The last request decides whether the document ends up shared, as
long as no request is accepted while a job of the other kind is in flight (`lastRequest_wins`). A
request falls in with a job in flight only if that is of its own kind; a job of the other kind is
joined by a second one, and whichever handler runs last decides (`firstRequest_wins`).
-/

namespace Lumogis

open Prog Relation

def HasShared (d : Nat) (s : Store) : Prop := ∃ r ∈ s.db.fileIndex, r.projects d .shared = true

/-- The personal document is there. -/
def OwnDocument (u : String) (d : Nat) (s : Store) : Prop :=
  ∃ r ∈ s.db.fileIndex, r.isSource u d = true ∧ r.publishedFrom = none

/-- Where a worker is with a job of the document. -/
inductive WorkerPhase where
  | idle
  | claimed (kind : ShareKind)
  | returned (kind : ShareKind)
  | raised
  deriving DecidableEq

structure QueueState where
  store : Store
  phase : Nat → WorkerPhase
  /-- The last request that was accepted. -/
  last : Option ShareKind

def QueueState.start (s : Store) : QueueState := { store := s, phase := fun _ => .idle, last := none }

/-- The handler of the kind, in a worker whose lock session is `sess`. -/
def ShareKind.handler (env : Env) (sess : Nat) : ShareKind → String → Nat → Nat → M Unit
  | .share => handleShare env sess
  | .unshare => handleUnshare env sess

/-- What the rest of the system may do: it does not touch the document, whether it is shared, or its
jobs, and it respects the primary key of the job table. -/
structure Elsewhere (u : String) (d : Nat) (s t : Store) : Prop where
  document : OwnDocument u d s → OwnDocument u d t
  shared : HasShared d t ↔ HasShared d s
  jobs : t.db.userBatchJobs.filter (JobRow.forDocument u d) =
    s.db.userBatchJobs.filter (JobRow.forDocument u d)
  nodup : (s.db.userBatchJobs.map JobRow.id).Nodup → (t.db.userBatchJobs.map JobRow.id).Nodup
  fresh : (∀ j ∈ s.db.userBatchJobs, j.id < s.db.userBatchJobsSeq) →
    ∀ j ∈ t.db.userBatchJobs, j.id < t.db.userBatchJobsSeq

/-- `C kind s` restricts the requests that are accepted in `s`. -/
inductive QueueStep (env : Env) (u : String) (d : Nat) (C : ShareKind → Store → Prop) :
    QueueState → QueueState → Prop where
  | request {q : QueueState} {t : Store} {resp : ShareQueuedResponse} (kind : ShareKind) :
      C kind q.store → (kind.request u d).exec q.store = some (.ok resp, t) →
      QueueStep env u d C q { q with store := t, last := some kind }
  | claim {q : QueueState} {t : Store} {job : ClaimedJob} {worker : String} (kind : ShareKind) :
      (claimNext env worker).exec q.store = some (.ok (some job), t) →
      job.userId = u → job.payload = kind.payload d →
      QueueStep env u d C q
        { q with store := t, phase := Function.update q.phase job.id (.claimed kind) }
  | handle {q : QueueState} {t : Store} {sess id : Nat} {kind : ShareKind}
      {r : Except PyErr Unit} : q.phase id = .claimed kind →
      Faulty (kind.handler env sess u d id) q.store r t →
      QueueStep env u d C q { q with
        store := t
        phase := Function.update q.phase id (if r.isOk then .returned kind else .raised) }
  | complete {q : QueueState} {t : Store} {id : Nat} {kind : ShareKind} {r : Except PyErr Unit} :
      q.phase id = .returned kind → Faulty (complete id) q.store r t →
      QueueStep env u d C q { q with
        store := t
        phase := Function.update q.phase id (if r.isOk then .idle else .raised) }
  | fail {q : QueueState} {t : Store} {id : Nat} {error : String} {r : Except PyErr Unit} :
      q.phase id = .raised → Faulty (fail env id error env.maxAttempts) q.store r t →
      QueueStep env u d C q { q with store := t, phase := Function.update q.phase id .idle }
  | elsewhere {q : QueueState} {t : Store} : Elsewhere u d q.store t →
      QueueStep env u d C q { q with store := t }

/-- No job of the other kind is in flight for the document. -/
def NoOtherInFlight (u : String) (d : Nat) (kind : ShareKind) (s : Store) : Prop :=
  ∀ j ∈ s.db.userBatchJobs, j.forDocument u d = true → j.inFlight = true →
    j.payload = kind.payload d

/-! ## Jobs -/

/-- From `s` to `t` the job rows are the same but for columns that do not identify them, and each
status has moved along `ok`. -/
def JobsMove (ok : Nat → JobStatus → JobStatus → Prop) (s t : Store) : Prop :=
  ∃ g : JobRow → JobRow, (∀ j, (g j).id = j.id ∧ (g j).userId = j.userId ∧
      (g j).payload = j.payload ∧ ok j.id j.status (g j).status) ∧
    t.db.userBatchJobs = s.db.userBatchJobs.map g ∧ t.db.userBatchJobsSeq = s.db.userBatchJobsSeq

def SameStatus (_ : Nat) (x y : JobStatus) : Prop := y = x

theorem SameStatus.trans (i : Nat) (x y z : JobStatus) (h : SameStatus i x y)
    (h' : SameStatus i y z) : SameStatus i x z := Eq.trans h' h

theorem SameStatus.refl (i : Nat) (x : JobStatus) : SameStatus i x x := rfl

section JobsMove

variable {ok : Nat → JobStatus → JobStatus → Prop} {s t v : Store}

theorem JobsMove.of_eq (hr : ∀ i x, ok i x x) (hj : t.db.userBatchJobs = s.db.userBatchJobs)
    (hseq : t.db.userBatchJobsSeq = s.db.userBatchJobsSeq) : JobsMove ok s t :=
  ⟨id, fun j => ⟨rfl, rfl, rfl, hr _ _⟩, by rw [hj, List.map_id], hseq⟩

theorem JobsMove.trans (ht : ∀ i x y z, ok i x y → ok i y z → ok i x z) (h : JobsMove ok s t)
    (h' : JobsMove ok t v) : JobsMove ok s v := by
  obtain ⟨g, hg, hj, hseq⟩ := h
  obtain ⟨g', hg', hj', hseq'⟩ := h'
  refine ⟨g' ∘ g, fun j => ?_, by rw [hj', hj, List.map_map], hseq'.trans hseq⟩
  obtain ⟨h1, h2, h3, h4⟩ := hg j
  obtain ⟨h1', h2', h3', h4'⟩ := hg' (g j)
  rw [h1] at h4'
  exact ⟨h1'.trans h1, h2'.trans h2, h3'.trans h3, ht _ _ _ _ h4 h4'⟩

theorem JobsMove.of_update {p : JobRow → Bool} {f : JobRow → JobRow} (hr : ∀ i x, ok i x x)
    (hf : ∀ j, p j = true → (f j).id = j.id ∧ (f j).userId = j.userId ∧
      (f j).payload = j.payload ∧ ok j.id j.status (f j).status) :
    JobsMove ok s
      { s with db := { s.db with userBatchJobs := Table.updateWhere p f s.db.userBatchJobs } } := by
  refine ⟨fun j => if p j then f j else j, fun j => ?_, rfl, rfl⟩
  by_cases hp : p j = true
  · simp only [hp, if_true]
    exact hf j hp
  · simp only [hp]
    exact ⟨rfl, rfl, rfl, hr _ _⟩

theorem JobsMove.forward (h : JobsMove ok s t) {j : JobRow} (hj : j ∈ s.db.userBatchJobs) :
    ∃ j' ∈ t.db.userBatchJobs, j'.id = j.id ∧ j'.userId = j.userId ∧ j'.payload = j.payload ∧
      ok j.id j.status j'.status := by
  obtain ⟨g, hg, he, -⟩ := h
  exact ⟨g j, by rw [he]; exact List.mem_map_of_mem hj, hg j⟩

theorem JobsMove.backward (h : JobsMove ok s t) {j' : JobRow} (hj : j' ∈ t.db.userBatchJobs) :
    ∃ j ∈ s.db.userBatchJobs, j'.id = j.id ∧ j'.userId = j.userId ∧ j'.payload = j.payload ∧
      ok j.id j.status j'.status := by
  obtain ⟨g, hg, he, -⟩ := h
  rw [he] at hj
  obtain ⟨j, hjs, rfl⟩ := List.mem_map.mp hj
  exact ⟨j, hjs, hg j⟩

theorem JobsMove.ids (h : JobsMove ok s t) :
    t.db.userBatchJobs.map JobRow.id = s.db.userBatchJobs.map JobRow.id := by
  obtain ⟨g, hg, he, -⟩ := h
  rw [he, List.map_map]
  exact List.map_congr_left fun j _ => (hg j).1

end JobsMove

theorem forDocument_congr {u : String} {d : Nat} {j j' : JobRow} (hu : j'.userId = j.userId)
    (hp : j'.payload = j.payload) : j'.forDocument u d = j.forDocument u d := by
  simp [JobRow.forDocument, hu, hp]

theorem updateProgress_jobs {ok : Nat → JobStatus → JobStatus → Prop} (hr : ∀ i x, ok i x x)
    (jobId : Nat) (userId : String) (stage : Stage) (msg : Option String) :
    Always (JobsMove ok) (updateIngestJobProgress jobId userId stage msg) := by
  refine always_statementE (fun s => .of_eq hr rfl rfl) fun s a db h => ?_
  split at h
  · cases h
    exact JobsMove.of_update hr fun j _ => ⟨rfl, rfl, rfl, hr _ _⟩
  · cases h

/-! ## The handlers -/

/-- What a handler's call can do to the jobs and to the document. -/
structure HandlerMove (u : String) (d : Nat) (s t : Store) : Prop where
  jobs : JobsMove SameStatus s t
  document : OwnDocument u d s → OwnDocument u d t

section Handlers

variable {env : Env} {u : String} {d : Nat}

theorem HandlerMove.of_eq {s t : Store} (hj : t.db.userBatchJobs = s.db.userBatchJobs)
    (hseq : t.db.userBatchJobsSeq = s.db.userBatchJobsSeq)
    (hf : t.db.fileIndex = s.db.fileIndex) : HandlerMove u d s t :=
  ⟨.of_eq (fun _ _ => rfl) hj hseq, fun h => by unfold OwnDocument; rw [hf]; exact h⟩

theorem HandlerMove.refl (s : Store) : HandlerMove u d s s := .of_eq rfl rfl rfl

theorem HandlerMove.trans {s t v : Store} (h : HandlerMove u d s t) (h' : HandlerMove u d t v) :
    HandlerMove u d s v :=
  ⟨h.jobs.trans SameStatus.trans h'.jobs, fun hs => h'.document (h.document hs)⟩

theorem HandlerMove.of_entityArm (s t : Store) (h : EntityArm s t) : HandlerMove u d s t := by
  obtain ⟨_, _, _, _, _, rfl⟩ := h
  exact .of_eq rfl rfl rfl

theorem HandlerMove.of_documentArm (s t : Store) (h : DocumentArm s t) : HandlerMove u d s t := by
  obtain ⟨_, rfl⟩ := h
  exact .of_eq rfl rfl rfl

theorem HandlerMove.of_lockArm (s t : Store) (h : LockArm s t) : HandlerMove u d s t := by
  obtain ⟨_, rfl⟩ := h
  exact .of_eq rfl rfl rfl

theorem progress_handlerMove (jobId : Nat) (userId : String) (stage : Stage)
    (msg : Option String) :
    Always (HandlerMove u d) (updateIngestJobProgress jobId userId stage msg) := by
  refine always_statementE HandlerMove.refl fun s a db h => ?_
  split at h
  · cases h
    exact ⟨JobsMove.of_update (fun _ _ => rfl) fun j _ => ⟨rfl, rfl, rfl, rfl⟩, fun hs => hs⟩
  · cases h

theorem upsertFileProjection_document {row : FileRow} {src : Nat} {s : Store} {r : FileRow}
    {db : Db} (h : s.db.upsertFileProjection row src = .ok (r, db)) :
    HandlerMove u d s { s with db := db } := by
  simp only [Db.upsertFileProjection] at h
  split at h
  · cases h
    refine ⟨.of_eq (fun _ _ => rfl) rfl rfl, fun ⟨q, hq, hsrc, hpub⟩ => ?_⟩
    refine ⟨q, Table.mem_updateWhere.mpr (.inr ⟨hq, ?_⟩), hsrc, hpub⟩
    simp [FileRow.projects, hpub]
  · split_ifs at h
    cases h
    refine ⟨.of_eq (fun _ _ => rfl) rfl rfl, fun ⟨q, hq, hsrc, hpub⟩ => ?_⟩
    exact ⟨q, List.mem_append_left _ hq, hsrc, hpub⟩

theorem deleteFiles_document (s : Store) :
    HandlerMove u d s { s with db := s.db.deleteFiles (FileRow.projects d .shared) } := by
  refine ⟨.of_eq (fun _ _ => rfl) rfl rfl, fun ⟨q, hq, hsrc, hpub⟩ => ?_⟩
  refine ⟨q, Table.mem_deleteWhere.mpr ⟨hq, ?_⟩, hsrc, hpub⟩
  simp [FileRow.projects, hpub]

theorem projectFileWithStatus_handlerMove (src : FileRow) (actor : String) :
    Always (HandlerMove u d) (projectFileWithStatus env src .shared actor) := by
  refine Always.bind (validateTargetScope_frame _) fun _ => ?_
  split
  · trivial
  · refine Always.bind (always_statementE HandlerMove.refl fun s r db h =>
      upsertFileProjection_document h) fun row => ?_
    refine Always.bind ?_ fun _ => Always.bind ?_ fun n => trivial
    · rw [if_pos rfl]
      exact (unprojectFileChunks_frame _ _ _).mono HandlerMove.of_documentArm
    · exact (projectFileChunks_frame env src .shared).mono HandlerMove.of_documentArm

theorem unprojectFile_handlerMove : Always (HandlerMove u d) (unprojectFile env d .shared) := by
  refine Always.bind (always_statement deleteFiles_document) fun deleted => ?_
  cases deleted with
  | none => trivial
  | some row =>
    refine Always.bind ((unprojectFileChunks_frame _ _ _).mono HandlerMove.of_documentArm)
      fun _ => ?_
    split_ifs
    · exact Always.bind ((retractDocumentEntities_frame env _ _).mono HandlerMove.of_entityArm)
        fun _ => trivial
    · trivial

theorem shareLocked_handlerMove (jobId : Nat) :
    Always (HandlerMove u d) (shareLocked env u d jobId) := by
  refine Always.bind (always_select HandlerMove.refl) fun src => ?_
  cases src with
  | none => exact Always.bind (progress_handlerMove _ _ _ _) fun _ => trivial
  | some src =>
    refine Always.bind (projectFileWithStatus_handlerMove src u) fun r => ?_
    exact Always.bind ((cascadeShareDocumentEntities_frame env src u .shared).mono
      HandlerMove.of_entityArm) fun _ => trivial

theorem unshareLocked_handlerMove (jobId : Nat) :
    Always (HandlerMove u d) (unshareLocked env u d jobId) := by
  refine Always.bind (always_select HandlerMove.refl) fun src => ?_
  cases src with
  | none => exact Always.bind (progress_handlerMove _ _ _ _) fun _ => trivial
  | some src => exact Always.bind unprojectFile_handlerMove fun _ => trivial

theorem handler_move (sess jobId : Nat) (kind : ShareKind) :
    Always (HandlerMove u d) (kind.handler env sess u d jobId) := by
  cases kind with
  | share =>
    refine Always.bind (always_select HandlerMove.refl) fun src => ?_
    cases src with
    | none => exact progress_handlerMove _ _ _ _
    | some src =>
      refine Always.bind (progress_handlerMove _ _ _ _) fun _ => ?_
      refine Always.bind (shareDocumentLock_frame sess d HandlerMove.of_lockArm
        (shareLocked_handlerMove jobId)) fun r => ?_
      rcases r with _ | ⟨projected, failed⟩
      · trivial
      · dsimp only
        split_ifs <;> exact progress_handlerMove _ _ _ _
  | unshare =>
    refine Always.bind (always_select HandlerMove.refl) fun src => ?_
    cases src with
    | none => exact progress_handlerMove _ _ _ _
    | some src =>
      refine Always.bind (progress_handlerMove _ _ _ _) fun _ => ?_
      refine Always.bind (shareDocumentLock_frame sess d HandlerMove.of_lockArm
        (unshareLocked_handlerMove jobId)) fun r => ?_
      split_ifs
      · exact progress_handlerMove _ _ _ _
      · trivial

/-! ### What a handler that returns has done -/

/-- The file index stays as it is. -/
def SameFiles (s t : Store) : Prop := t.db.fileIndex = s.db.fileIndex

theorem SameFiles.onOk {α : Type} {p : M α} (h : Always SameFiles p) (s : Store) :
    OnOk (fun _ t => SameFiles s t) p s :=
  h.onOk (fun _ => rfl) (fun _ _ _ h h' => h'.trans h) s

theorem SameFiles.of_entityArm (s t : Store) (h : EntityArm s t) : SameFiles s t := by
  obtain ⟨_, _, _, _, _, rfl⟩ := h
  rfl

theorem SameFiles.of_documentArm (s t : Store) (h : DocumentArm s t) : SameFiles s t := by
  obtain ⟨_, rfl⟩ := h
  rfl

theorem SameFiles.of_jobArm (s t : Store) (h : JobArm s t) : SameFiles s t := by
  obtain ⟨_, rfl⟩ := h
  rfl

theorem SameFiles.of_lockArm (s t : Store) (h : LockArm s t) : SameFiles s t := by
  obtain ⟨_, rfl⟩ := h
  rfl

theorem SameFiles.hasShared {s t : Store} (h : SameFiles s t) : HasShared d t ↔ HasShared d s := by
  unfold HasShared
  rw [h]

theorem SameFiles.ownDocument {s t : Store} (h : SameFiles s t) (hs : OwnDocument u d s) :
    OwnDocument u d t := by
  unfold OwnDocument
  rw [h]
  exact hs

theorem OwnDocument.find {s : Store} (h : OwnDocument u d s) :
    ∃ src, s.db.fileIndex.find? (FileRow.isSource u d) = some src ∧ src.id = d := by
  obtain ⟨r, hr, hsrc, -⟩ := h
  cases hfind : s.db.fileIndex.find? (FileRow.isSource u d) with
  | none => exact absurd hsrc (List.find?_eq_none.mp hfind r hr)
  | some src =>
    have hprop := List.find?_some hfind
    simp only [FileRow.isSource, Bool.and_eq_true, beq_iff_eq] at hprop
    exact ⟨src, rfl, hprop.1.1⟩

theorem upsertFileProjection_shared {row r : FileRow} {src : Nat} {db db' : Db}
    (hrow : row.projects src .shared = true) (hscope : row.scope = .shared)
    (h : db.upsertFileProjection row src = .ok (r, db')) :
    ∃ r' ∈ db'.fileIndex, r'.projects src .shared = true := by
  simp only [Db.upsertFileProjection, hscope] at h
  split at h
  · rename_i old hfind
    cases h
    have hold := List.find?_some hfind
    refine ⟨_, Table.mem_updateWhere.mpr (.inl ⟨old, List.mem_of_find?_eq_some hfind, hold, rfl⟩),
      ?_⟩
    simpa [FileRow.projects] using hold
  · split_ifs at h
    cases h
    exact ⟨row, by simp, hrow⟩

theorem projectFileWithStatus_shared (src : FileRow) (actor : String) (s : Store) :
    OnOk (fun _ t => HasShared src.id t) (projectFileWithStatus env src .shared actor) s := by
  refine OnOk.bind (OnOk.of_forall fun _ t => ?_)
  split
  · exact OnOk.raise
  · refine OnOk.bind (onOk_statementE fun row db h => ?_)
    have hrow : HasShared src.id { t with db := db } :=
      upsertFileProjection_shared (by simp [FileRow.projects]) rfl h
    refine OnOk.bind ((SameFiles.onOk ?_ _).mono fun _ t₁ h₁ => ?_)
    · rw [if_pos rfl]
      exact (unprojectFileChunks_frame _ _ _).mono SameFiles.of_documentArm
    refine OnOk.bind ((SameFiles.onOk ((projectFileChunks_frame env src .shared).mono
      SameFiles.of_documentArm) t₁).mono fun n t₂ h₂ => OnOk.ret ?_)
    exact h₂.hasShared.mpr (h₁.hasShared.mpr hrow)

theorem shareLocked_shared (jobId : Nat) {s : Store} (h : OwnDocument u d s) :
    OnOk (fun _ t => HasShared d t) (shareLocked env u d jobId) s := by
  obtain ⟨src, hfind, hid⟩ := h.find
  refine OnOk.bind (onOk_select ?_)
  rw [hfind]
  refine OnOk.bind ((projectFileWithStatus_shared src u s).mono fun r t ht => ?_)
  refine OnOk.bind ((SameFiles.onOk ((cascadeShareDocumentEntities_frame env src u .shared).mono
    SameFiles.of_entityArm) t).mono fun _ t' ht' => OnOk.ret ?_)
  rw [hid] at ht
  exact ht'.hasShared.mpr ht

theorem unshareLocked_unshared (jobId : Nat) {s : Store} (h : OwnDocument u d s) :
    OnOk (fun _ t => ¬ HasShared d t) (unshareLocked env u d jobId) s := by
  obtain ⟨src, hfind, -⟩ := h.find
  refine OnOk.bind (onOk_select ?_)
  rw [hfind]
  refine OnOk.bind ((unprojectFile_rows s).mono fun _ t ht => OnOk.ret ?_)
  rintro ⟨r, hr, hproj⟩
  rw [ht r hr] at hproj
  cases hproj

theorem progress_sameFiles (jobId : Nat) (userId : String) (stage : Stage) (msg : Option String) :
    Always SameFiles (updateIngestJobProgress jobId userId stage msg) :=
  (updateIngestJobProgress_frame _ _ _ _).mono SameFiles.of_jobArm

theorem handler_ok (sess jobId : Nat) (kind : ShareKind) {s : Store} (h : OwnDocument u d s) :
    OnOk (fun _ t => HasShared d t ↔ kind = .share) (kind.handler env sess u d jobId) s := by
  obtain ⟨src, hfind, -⟩ := h.find
  cases kind with
  | share =>
    refine OnOk.bind (onOk_select ?_)
    rw [hfind]
    refine OnOk.bind ((SameFiles.onOk (progress_sameFiles _ _ _ _) s).mono fun _ t ht => ?_)
    refine OnOk.bind ((onOk_shareDocumentLock (Q := fun _ t => HasShared d t) (fun t' ht' => ?_)
      fun _ v w hvw hv => ?_).mono fun r t' ht' => ?_)
    · exact shareLocked_shared jobId
        ((SameFiles.of_lockArm t t' ht').ownDocument (ht.ownDocument h))
    · exact (SameFiles.of_lockArm v w hvw).hasShared.mpr hv
    · have hend : ∀ {p : M Unit}, Always SameFiles p →
          OnOk (fun _ t => HasShared d t ↔ ShareKind.share = .share) p t' :=
        fun hp => (SameFiles.onOk hp t').mono fun _ v hv => iff_of_true (hv.hasShared.mpr ht') rfl
      rcases r with _ | ⟨projected, failed⟩
      · exact OnOk.ret (iff_of_true ht' rfl)
      · dsimp only
        split_ifs <;> exact hend (progress_sameFiles _ _ _ _)
  | unshare =>
    refine OnOk.bind (onOk_select ?_)
    rw [hfind]
    refine OnOk.bind ((SameFiles.onOk (progress_sameFiles _ _ _ _) s).mono fun _ t ht => ?_)
    refine OnOk.bind ((onOk_shareDocumentLock (Q := fun _ t => ¬ HasShared d t) (fun t' ht' => ?_)
      fun _ v w hvw hv => ?_).mono fun r t' ht' => ?_)
    · exact unshareLocked_unshared jobId
        ((SameFiles.of_lockArm t t' ht').ownDocument (ht.ownDocument h))
    · exact fun hw => hv ((SameFiles.of_lockArm v w hvw).hasShared.mp hw)
    · split_ifs
      · refine (SameFiles.onOk (progress_sameFiles _ _ _ _) t').mono fun _ v hv => ?_
        exact iff_of_false (fun hs => ht' (hv.hasShared.mp hs)) (by simp)
      · exact OnOk.ret (iff_of_false ht' (by simp))

end Handlers

/-! ## The queue -/

section Queue

variable {env : Env} {u : String} {d : Nat} {s t : Store}

theorem inFlight_iff {j : JobRow} : j.inFlight = true ↔ j.status = .pending ∨ j.status = .running := by
  simp [JobRow.inFlight]

theorem forDocument_of_payload {j : JobRow} {kind : ShareKind} (hu : j.userId = u)
    (hp : j.payload = kind.payload d) : j.forDocument u d = true := by
  cases kind <;> simp [JobRow.forDocument, hu, hp, ShareKind.payload]

theorem ShareKind.payload_inj {k k' : ShareKind} (h : k.payload d = k'.payload d) : k = k' := by
  cases k <;> cases k' <;> first | rfl | cases h

def Became (id : Nat) (st : JobStatus) (i : Nat) (x y : JobStatus) : Prop :=
  y = x ∧ i ≠ id ∨ y = st ∧ i = id

theorem updateJob_move {id : Nat} {f : JobRow → JobRow} {st : JobStatus}
    (hf : ∀ j, (f j).id = j.id ∧ (f j).userId = j.userId ∧ (f j).payload = j.payload ∧
      (f j).status = st) : JobsMove (Became id st) s (s.updateJob id f) := by
  refine ⟨fun j => if j.id == id then f j else j, fun j => ?_, rfl, rfl⟩
  by_cases hid : j.id = id
  · simp only [hid, beq_self_eq_true, if_true]
    obtain ⟨h1, h2, h3, h4⟩ := hf j
    exact ⟨h1.trans hid, h2, h3, .inr ⟨h4, rfl⟩⟩
  · have hif : (if j.id == id then f j else j) = j := if_neg (by simpa using hid)
    dsimp only
    rw [hif]
    exact ⟨rfl, rfl, rfl, .inl ⟨rfl, hid⟩⟩

theorem claimNext_exec {worker : String} {job : ClaimedJob}
    (h : (claimNext env worker).exec s = some (.ok (some job), t)) :
    JobsMove (Became job.id .running) s t ∧ SameFiles s t ∧
      ∃ j ∈ s.db.userBatchJobs, j.id = job.id ∧ j.userId = job.userId ∧ j.payload = job.payload ∧
        j.status = .pending := by
  rw [claimNext, exec_act] at h
  cases hnext : s.nextEligible env with
  | none =>
    simp only [hnext] at h
    cases h
  | some j =>
    simp only [hnext, Option.some.injEq, Prod.mk.injEq, Except.ok.injEq] at h
    obtain ⟨rfl, rfl⟩ := h
    have hmem := List.argmin_mem (Option.mem_def.mpr hnext)
    obtain ⟨hj, helig⟩ := List.mem_filter.mp hmem
    simp only [JobRow.eligible, Bool.and_eq_true, beq_iff_eq] at helig
    exact ⟨updateJob_move fun j => ⟨rfl, rfl, rfl, rfl⟩, rfl, j, hj, rfl, rfl, rfl, helig.1.1⟩

theorem complete_post (id : Nat) (s : Store) :
    Post (fun r t => (t = s ∧ r.isOk = false ∨ JobsMove (Became id .done) s t) ∧ SameFiles s t)
      (complete id) s := by
  have hmove : JobsMove (Became id .done) s
      (s.updateJob id fun j => { j with status := .done, finishedAt := some s.now }) :=
    updateJob_move fun j => ⟨rfl, rfl, rfl, rfl⟩
  exact post_act.mpr ⟨⟨.inr hmove, rfl⟩, ⟨.inl ⟨rfl, rfl⟩, rfl⟩, ⟨.inr hmove, rfl⟩⟩

def FailStatus (id i : Nat) (x y : JobStatus) : Prop :=
  y = x ∨ i = id ∧ (x = .pending ∨ x = .running) ∧ (y = .pending ∨ y = .dead)

theorem FailStatus.trans (id i : Nat) (x y z : JobStatus) (h : FailStatus id i x y)
    (h' : FailStatus id i y z) : FailStatus id i x z := by
  rcases h with rfl | ⟨hi, hx, hy⟩
  · exact h'
  · rcases h' with rfl | ⟨-, -, hz⟩
    · exact .inr ⟨hi, hx, hy⟩
    · exact .inr ⟨hi, hx, hz⟩

theorem fail_move (id : Nat) (error : String) (maxAttempts : Nat) :
    Always (fun s t => JobsMove (FailStatus id) s t ∧ SameFiles s t)
      (fail env id error maxAttempts) := by
  have hr : ∀ i x, FailStatus id i x x := fun _ _ => .inl rfl
  have hprogress : ∀ jobId userId stage msg, Always (fun s t => JobsMove (FailStatus id) s t ∧
      SameFiles s t) (updateIngestJobProgress jobId userId stage msg) := fun _ _ _ _ =>
    (updateProgress_jobs hr _ _ _ _).and (progress_sameFiles _ _ _ _)
  refine Always.bind (always_select fun s => ⟨.of_eq hr rfl rfl, rfl⟩) fun j => ?_
  cases j with
  | none => trivial
  | some j =>
    refine Always.bind (always_act fun s => ⟨JobsMove.of_update hr fun j hj => ?_, rfl⟩)
      fun _ => ?_
    · simp only [JobRow.isRunning, Bool.and_eq_true, beq_iff_eq] at hj
      refine ⟨rfl, rfl, rfl, .inr ⟨hj.1, .inr hj.2, ?_⟩⟩
      simp only [JobRow.failed]
      split_ifs <;> simp
    · unfold maybeHandleIngestJobFailure
      split_ifs
      · trivial
      · exact hprogress _ _ _ _
      · exact hprogress _ _ _ _

theorem fail_post (id : Nat) (error : String) (maxAttempts : Nat) (s : Store) :
    Post (fun _ t => JobsMove (FailStatus id) s t ∧ SameFiles s t)
      (fail env id error maxAttempts) s :=
  (fail_move id error maxAttempts).post (fun _ => ⟨.of_eq (fun _ _ => .inl rfl) rfl rfl, rfl⟩)
    (fun _ _ _ h h' => ⟨h.1.trans (FailStatus.trans id) h'.1, h'.2.trans h.2⟩) s

/-- The entry of the document among the jobs in flight. -/
def inFlightEntry (u : String) (d : Nat) (s : Store) : Option JobRow :=
  (s.db.userBatchJobs.filter fun j => j.inFlight && j.forDocument u d).argmax JobRow.id

theorem fetchInflightShareJob_exec :
    (fetchInflightShareJob u d).exec s = some (.ok (inFlightEntry u d s), s) := rfl

theorem documentIsShared_exec : ∃ b, (documentIsShared u d).exec s = some (.ok b, s) := by
  rw [documentIsShared, exec_bind, fetchInflightShareJob_exec]
  simp only [Option.bind_some, thenExec]
  cases inFlightEntry u d s with
  | none => exact ⟨_, rfl⟩
  | some j => exact ⟨true, rfl⟩

theorem request_enqueues {kind : ShareKind} {resp : ShareQueuedResponse}
    (h : (kind.request u d).exec s = some (.ok resp, t)) :
    (enqueueShareJob u d kind).exec s = some (.ok resp, t) := by
  have hfetch : (fetchPersonalSource u d).exec s =
      some (.ok (s.db.fileIndex.find? (FileRow.isSource u d)), s) := rfl
  cases kind with
  | share =>
    rw [ShareKind.request, shareDocument, exec_bind, hfetch] at h
    simp only [Option.bind_some, thenExec] at h
    cases hfind : s.db.fileIndex.find? (FileRow.isSource u d) with
    | none => rw [hfind] at h; cases h
    | some src => rw [hfind] at h; exact h
  | unshare =>
    rw [ShareKind.request, unshareDocument, exec_bind, hfetch] at h
    simp only [Option.bind_some, thenExec] at h
    cases hfind : s.db.fileIndex.find? (FileRow.isSource u d) with
    | none => rw [hfind] at h; cases h
    | some src =>
      obtain ⟨b, hb⟩ := documentIsShared_exec (u := u) (d := d) (s := s)
      rw [hfind] at h
      simp only [exec_bind, hb, Option.bind_some, thenExec] at h
      cases b with
      | true => exact h
      | false => cases h

/-- The store after a job of the kind was enqueued. -/
def withJob (u : String) (d : Nat) (kind : ShareKind) (s : Store) : Store :=
  { s with
    db := { s.db with
      userBatchJobs := s.db.userBatchJobs ++
        [JobRow.enqueued s.db.userBatchJobsSeq s.now u (kind.payload d)]
      userBatchJobsSeq := s.db.userBatchJobsSeq + 1 } }

theorem enqueueShareJob_exec {kind : ShareKind} {resp : ShareQueuedResponse}
    (h : (enqueueShareJob u d kind).exec s = some (.ok resp, t)) :
    t = s ∧ (∃ j ∈ inFlightEntry u d s, j.payload = kind.payload d) ∨
      (∀ j ∈ inFlightEntry u d s, j.payload ≠ kind.payload d) ∧
        JobsMove SameStatus (withJob u d kind s) t ∧ SameFiles s t := by
  rw [enqueueShareJob, exec_bind, fetchInflightShareJob_exec] at h
  simp only [Option.bind_some, thenExec] at h
  cases hfilter : (inFlightEntry u d s).filter fun j => j.payload == kind.payload d with
  | some j =>
    rw [hfilter] at h
    cases h
    obtain ⟨hj, hp⟩ := Option.filter_eq_some_iff.mp hfilter
    exact .inl ⟨rfl, j, hj, by simpa using hp⟩
  | none =>
    rw [hfilter] at h
    have hnone : ∀ j ∈ inFlightEntry u d s, j.payload ≠ kind.payload d := by
      intro j hj hp
      rw [Option.filter_eq_none_iff] at hfilter
      exact hfilter j hj (by simpa using hp)
    have hrest : Always (fun s t => JobsMove SameStatus s t ∧ SameFiles s t) (do
        updateIngestJobProgress s.db.userBatchJobsSeq u .queued none
        pure { documentId := d, jobId := s.db.userBatchJobsSeq, shareStatus := kind.direction } :
          M ShareQueuedResponse) :=
      Always.bind ((updateProgress_jobs SameStatus.refl _ _ _ _).and (progress_sameFiles _ _ _ _))
        fun _ => trivial
    have hmove := hrest.exec (fun s => ⟨.of_eq SameStatus.refl rfl rfl, rfl⟩)
      (fun _ _ _ h h' => ⟨h.1.trans SameStatus.trans h'.1, h'.2.trans h.2⟩)
      (show _ = some (.ok resp, t) from h)
    exact .inr ⟨hnone, hmove.1, hmove.2⟩

/-! ### The invariant -/

/-- At most one job of the document is in flight, and it is the last request's. -/
structure InStep (u : String) (d : Nat) (s : Store) (last : Option ShareKind) : Prop where
  document : OwnDocument u d s
  nodup : (s.db.userBatchJobs.map JobRow.id).Nodup
  fresh : ∀ j ∈ s.db.userBatchJobs, j.id < s.db.userBatchJobsSeq
  single : ∀ j ∈ s.db.userBatchJobs, ∀ j' ∈ s.db.userBatchJobs, j.forDocument u d = true →
    j'.forDocument u d = true → j.inFlight = true → j'.inFlight = true → j.id = j'.id
  last : ∀ j ∈ s.db.userBatchJobs, j.forDocument u d = true → j.inFlight = true →
    ∃ kind ∈ last, j.payload = kind.payload d

/-- The worker has the job of the kind: it is running. -/
def Holds (u : String) (d : Nat) (s : Store) (id : Nat) (kind : ShareKind) : Prop :=
  ∃ j ∈ s.db.userBatchJobs, j.id = id ∧ j.userId = u ∧ j.payload = kind.payload d ∧
    j.status = .running

def AllDone (u : String) (d : Nat) (s : Store) : Prop :=
  ∀ j ∈ s.db.userBatchJobs, j.forDocument u d = true → j.status = .done

structure QueueInv (u : String) (d : Nat) (q : QueueState) : Prop where
  inStep : InStep u d q.store q.last
  claimed : ∀ id kind, q.phase id = .claimed kind → Holds u d q.store id kind
  returned : ∀ id kind, q.phase id = .returned kind →
    Holds u d q.store id kind ∧ (HasShared d q.store ↔ kind = .share)
  settled : AllDone u d q.store → ∀ kind ∈ q.last, (HasShared d q.store ↔ kind = .share)

theorem InStep.move {ok : Nat → JobStatus → JobStatus → Prop} {last : Option ShareKind}
    (h : InStep u d s last) (hm : JobsMove ok s t) (hdoc : OwnDocument u d t)
    (hok : ∀ j ∈ s.db.userBatchJobs, ∀ y, ok j.id j.status y → y = .pending ∨ y = .running →
      j.status = .pending ∨ j.status = .running) : InStep u d t last := by
  have hback : ∀ j' ∈ t.db.userBatchJobs, ∃ j ∈ s.db.userBatchJobs, j'.id = j.id ∧
      j'.payload = j.payload ∧ (j'.forDocument u d = true → j.forDocument u d = true) ∧
      (j'.inFlight = true → j.inFlight = true) := by
    intro j' hj'
    obtain ⟨j, hj, hid, hu, hp, hst⟩ := hm.backward hj'
    refine ⟨j, hj, hid, hp, fun hd => by rwa [← forDocument_congr hu hp], fun hf => ?_⟩
    exact inFlight_iff.mpr (hok j hj _ hst (inFlight_iff.mp hf))
  have hseq : t.db.userBatchJobsSeq = s.db.userBatchJobsSeq := hm.choose_spec.2.2
  constructor
  · exact hdoc
  · rw [hm.ids]
    exact h.nodup
  · intro j' hj'
    obtain ⟨j, hj, hid, -⟩ := hback j' hj'
    rw [hid, hseq]
    exact h.fresh j hj
  · intro j₁ h₁ j₂ h₂ hd₁ hd₂ hf₁ hf₂
    obtain ⟨k₁, hk₁, hid₁, -, hd₁', hf₁'⟩ := hback j₁ h₁
    obtain ⟨k₂, hk₂, hid₂, -, hd₂', hf₂'⟩ := hback j₂ h₂
    rw [hid₁, hid₂]
    exact h.single k₁ hk₁ k₂ hk₂ (hd₁' hd₁) (hd₂' hd₂) (hf₁' hf₁) (hf₂' hf₂)
  · intro j' hj' hd hf
    obtain ⟨j, hj, -, hp, hd', hf'⟩ := hback j' hj'
    rw [hp]
    exact h.last j hj (hd' hd) (hf' hf)

theorem Holds.inFlight {id : Nat} {kind : ShareKind} (h : Holds u d s id kind) :
    ∃ j ∈ s.db.userBatchJobs, j.id = id ∧ j.payload = kind.payload d ∧
      j.forDocument u d = true ∧ j.inFlight = true := by
  obtain ⟨j, hj, hid, hu, hp, hst⟩ := h
  exact ⟨j, hj, hid, hp, forDocument_of_payload hu hp, inFlight_iff.mpr (.inr hst)⟩

theorem InStep.holds_unique {last : Option ShareKind} (h : InStep u d s last) {id id' : Nat}
    {kind kind' : ShareKind} (hk : Holds u d s id kind) (hk' : Holds u d s id' kind') :
    id = id' := by
  obtain ⟨j, hj, rfl, -, hd, hf⟩ := hk.inFlight
  obtain ⟨j', hj', rfl, -, hd', hf'⟩ := hk'.inFlight
  exact h.single j hj j' hj' hd hd' hf hf'

theorem InStep.holds_last {last : Option ShareKind} (h : InStep u d s last) {id : Nat}
    {kind : ShareKind} (hk : Holds u d s id kind) : last = some kind := by
  obtain ⟨j, hj, -, hp, hd, hf⟩ := hk.inFlight
  obtain ⟨kind', hlast, hp'⟩ := h.last j hj hd hf
  rw [hp] at hp'
  rw [ShareKind.payload_inj hp']
  exact hlast

theorem Holds.not_allDone {id : Nat} {kind : ShareKind} (h : Holds u d s id kind) :
    ¬ AllDone u d s := by
  obtain ⟨j, hj, -, hu, hp, hst⟩ := h
  intro hall
  rw [hall j hj (forDocument_of_payload hu hp)] at hst
  cases hst

/-- A move that keeps the status of job `id` leaves it with its worker. -/
theorem Holds.move {ok : Nat → JobStatus → JobStatus → Prop} {id : Nat} {kind : ShareKind}
    (h : Holds u d s id kind) (hm : JobsMove ok s t)
    (hok : ∀ y, ok id .running y → y = .running) : Holds u d t id kind := by
  obtain ⟨j, hj, hid, hu, hp, hst⟩ := h
  obtain ⟨j', hj', hid', hu', hp', hst'⟩ := hm.forward hj
  rw [hid, hst] at hst'
  exact ⟨j', hj', hid'.trans hid, hu'.trans hu, hp'.trans hp, hok _ hst'⟩

/-! ### The steps -/

variable {q : QueueState}

theorem QueueInv.request {kind : ShareKind} {resp : ShareQueuedResponse} (h : QueueInv u d q)
    (hC : NoOtherInFlight u d kind q.store)
    (hrun : (kind.request u d).exec q.store = some (.ok resp, t)) :
    QueueInv u d { q with store := t, last := some kind } := by
  rcases enqueueShareJob_exec (request_enqueues hrun) with ⟨rfl, j, hj, -⟩ | ⟨hnone, hmove, hfiles⟩
  · -- falls in with the job in flight, which is of its kind
    have hmem := List.argmax_mem hj
    simp only [List.mem_filter, Bool.and_eq_true] at hmem
    obtain ⟨hjs, hf, hd⟩ := hmem
    refine ⟨⟨h.inStep.document, h.inStep.nodup, h.inStep.fresh, h.inStep.single,
      fun j hj hd hf => ⟨kind, rfl, hC j hj hd hf⟩⟩, h.claimed, h.returned, fun hall => ?_⟩
    rw [JobRow.inFlight, hall j hjs hd] at hf
    cases hf
  · -- no job was in flight; the new one is
    have hidle : ∀ j ∈ q.store.db.userBatchJobs, j.forDocument u d = true →
        j.inFlight = false := by
      intro j hj hd
      by_contra hf
      have hf' : j.inFlight = true := by simpa using hf
      cases hentry : inFlightEntry u d q.store with
      | none =>
        rw [inFlightEntry, List.argmax_eq_none] at hentry
        have hjmem : j ∈ q.store.db.userBatchJobs.filter
            (fun j => j.inFlight && j.forDocument u d) :=
          List.mem_filter.mpr ⟨hj, by simp [hf', hd]⟩
        rw [hentry] at hjmem
        cases hjmem
      | some k =>
        have hmem := List.argmax_mem (Option.mem_def.mpr hentry)
        simp only [List.mem_filter, Bool.and_eq_true] at hmem
        exact hnone k (Option.mem_def.mpr hentry) (hC k hmem.1 hmem.2.2 hmem.2.1)
    have hbusy : ∀ id kind', ¬ Holds u d q.store id kind' := by
      intro id kind' hk
      obtain ⟨j, hj, -, -, hd, hf⟩ := hk.inFlight
      rw [hidle j hj hd] at hf
      cases hf
    have hnew : (JobRow.enqueued q.store.db.userBatchJobsSeq q.store.now u
        (kind.payload d)).forDocument u d = true := forDocument_of_payload rfl rfl
    have hstep : InStep u d (withJob u d kind q.store) (some kind) := by
      constructor
      · exact h.inStep.document
      · simp only [withJob, List.map_append, List.map_cons, List.map_nil]
        refine List.nodup_append.mpr ⟨h.inStep.nodup, by simp, ?_⟩
        intro a ha b hb
        obtain ⟨j, hj, rfl⟩ := List.mem_map.mp ha
        rw [List.mem_singleton.mp hb]
        exact Nat.ne_of_lt (h.inStep.fresh j hj)
      · intro j hj
        rcases List.mem_append.mp hj with hj | hj
        · exact Nat.lt_succ_of_lt (h.inStep.fresh j hj)
        · rw [List.mem_singleton.mp hj]
          exact Nat.lt_succ_self _
      · intro j₁ h₁ j₂ h₂ hd₁ hd₂ hf₁ hf₂
        rcases List.mem_append.mp h₁ with h₁ | h₁
        · rw [hidle j₁ h₁ hd₁] at hf₁; cases hf₁
        · rcases List.mem_append.mp h₂ with h₂ | h₂
          · rw [hidle j₂ h₂ hd₂] at hf₂; cases hf₂
          · rw [List.mem_singleton.mp h₁, List.mem_singleton.mp h₂]
      · intro j hj hd hf
        rcases List.mem_append.mp hj with hj | hj
        · rw [hidle j hj hd] at hf; cases hf
        · rw [List.mem_singleton.mp hj]
          exact ⟨kind, rfl, rfl⟩
    refine ⟨hstep.move hmove (hfiles.ownDocument h.inStep.document) ?_,
      fun id k hk => absurd (h.claimed id k hk) (hbusy id k),
      fun id k hk => absurd (h.returned id k hk).1 (hbusy id k), fun hall => ?_⟩
    · rintro j - y rfl hy
      exact hy
    · obtain ⟨j', hj', -, hu', hp', hst'⟩ := hmove.forward
        (List.mem_append_right _ (List.mem_singleton.mpr rfl))
      have hdone := hall j' hj' ((forDocument_congr hu' hp').trans hnew)
      rw [hst'] at hdone
      cases hdone

theorem QueueInv.claim {job : ClaimedJob} {worker : String} {kind : ShareKind}
    (h : QueueInv u d q) (hrun : (claimNext env worker).exec q.store = some (.ok (some job), t))
    (hu : job.userId = u) (hp : job.payload = kind.payload d) :
    QueueInv u d
      { q with store := t, phase := Function.update q.phase job.id (.claimed kind) } := by
  obtain ⟨hmove, hfiles, j, hj, hid, hju, hjp, hpending⟩ := claimNext_exec hrun
  have hholds : Holds u d t job.id kind := by
    obtain ⟨j', hj', hid', hu', hp', hst'⟩ := hmove.forward hj
    refine ⟨j', hj', hid'.trans hid, hu'.trans (hju.trans hu), hp'.trans (hjp.trans hp), ?_⟩
    rcases hst' with ⟨-, hne⟩ | ⟨hst', -⟩
    · exact absurd hid hne
    · exact hst'
  have hother : ∀ id k, id ≠ job.id → Holds u d q.store id k → Holds u d t id k := by
    intro id k hne hk
    refine hk.move hmove fun y hy => ?_
    rcases hy with ⟨hy, -⟩ | ⟨-, he⟩
    · exact hy
    · exact absurd he hne
  refine ⟨h.inStep.move hmove (hfiles.ownDocument h.inStep.document) ?_, fun id k hk => ?_,
    fun id k hk => ?_, fun hall => absurd hall hholds.not_allDone⟩
  · intro k hk y hy hflight
    rcases hy with ⟨rfl, -⟩ | ⟨-, he⟩
    · exact hflight
    · rw [List.inj_on_of_nodup_map h.inStep.nodup hk hj (he.trans hid.symm)]
      exact .inl hpending
  · by_cases hne : id = job.id
    · subst hne
      simp only [Function.update_self, WorkerPhase.claimed.injEq] at hk
      rw [← hk]
      exact hholds
    · simp only [Function.update_of_ne hne] at hk
      exact hother id k hne (h.claimed id k hk)
  · by_cases hne : id = job.id
    · subst hne
      simp at hk
    · simp only [Function.update_of_ne hne] at hk
      obtain ⟨hk', hsh⟩ := h.returned id k hk
      exact ⟨hother id k hne hk', hfiles.hasShared.trans hsh⟩

theorem QueueInv.handle {sess id : Nat} {kind : ShareKind} {r : Except PyErr Unit}
    (h : QueueInv u d q) (hphase : q.phase id = .claimed kind)
    (hrun : Faulty (kind.handler env sess u d id) q.store r t) :
    QueueInv u d { q with
      store := t
      phase := Function.update q.phase id (if r.isOk then .returned kind else .raised) } := by
  have hmove : HandlerMove u d q.store t :=
    ((handler_move sess id kind).post HandlerMove.refl (fun _ _ _ => HandlerMove.trans)
      q.store).faulty hrun
  have hkeeps : ∀ id k, Holds u d q.store id k → Holds u d t id k :=
    fun id k hk => hk.move hmove.jobs fun y hy => hy
  have hbefore := h.claimed id kind hphase
  refine ⟨h.inStep.move hmove.jobs (hmove.document h.inStep.document) ?_, fun id' k hk => ?_,
    fun id' k hk => ?_, fun hall => absurd hall (hkeeps id kind hbefore).not_allDone⟩
  · rintro j - y rfl hy
    exact hy
  · by_cases hne : id' = id
    · subst hne
      cases r <;> simp [Except.isOk, Except.toBool] at hk
    · simp only [Function.update_of_ne hne] at hk
      exact hkeeps id' k (h.claimed id' k hk)
  · by_cases hne : id' = id
    · subst hne
      cases r with
      | error e => simp [Except.isOk, Except.toBool] at hk
      | ok a =>
        simp only [Function.update_self, Except.isOk, Except.toBool, if_true,
          WorkerPhase.returned.injEq] at hk
        subst hk
        exact ⟨hkeeps _ _ hbefore, (handler_ok sess id' kind h.inStep.document).faulty hrun⟩
    · -- no other worker has a job of the document
      simp only [Function.update_of_ne hne] at hk
      exact absurd (h.inStep.holds_unique (h.returned id' k hk).1 hbefore) hne

theorem QueueInv.complete {id : Nat} {kind : ShareKind} {r : Except PyErr Unit}
    (h : QueueInv u d q) (hphase : q.phase id = .returned kind)
    (hrun : Faulty (complete id) q.store r t) :
    QueueInv u d { q with
      store := t
      phase := Function.update q.phase id (if r.isOk then .idle else .raised) } := by
  obtain ⟨hcase, hfiles⟩ := (complete_post id q.store).faulty hrun
  obtain ⟨hholds, hshared⟩ := h.returned id kind hphase
  have hother : ∀ id' k, id' ≠ id → Holds u d q.store id' k → Holds u d t id' k := by
    intro id' k hne hk
    exact absurd (h.inStep.holds_unique hk hholds) hne
  have hstep : InStep u d t q.last := by
    rcases hcase with ⟨rfl, -⟩ | hmove
    · exact h.inStep
    · refine h.inStep.move hmove (hfiles.ownDocument h.inStep.document) fun j hj y hy hflight => ?_
      rcases hy with ⟨rfl, -⟩ | ⟨rfl, -⟩
      · exact hflight
      · rcases hflight with hflight | hflight <;> cases hflight
  refine ⟨hstep, fun id' k hk => ?_, fun id' k hk => ?_, fun _ k hlast => ?_⟩
  · by_cases hne : id' = id
    · subst hne
      cases r <;> simp [Except.isOk, Except.toBool] at hk
    · simp only [Function.update_of_ne hne] at hk
      exact hother id' k hne (h.claimed id' k hk)
  · by_cases hne : id' = id
    · subst hne
      cases r <;> simp [Except.isOk, Except.toBool] at hk
    · simp only [Function.update_of_ne hne] at hk
      obtain ⟨hk', hsh⟩ := h.returned id' k hk
      exact ⟨hother id' k hne hk', hfiles.hasShared.trans hsh⟩
  · have hkind := h.inStep.holds_last hholds
    rw [Option.mem_def.mp hlast] at hkind
    cases hkind
    exact hfiles.hasShared.trans hshared

theorem QueueInv.fail {id : Nat} {error : String} {r : Except PyErr Unit} (h : QueueInv u d q)
    (hphase : q.phase id = .raised)
    (hrun : Faulty (fail env id error env.maxAttempts) q.store r t) :
    QueueInv u d { q with store := t, phase := Function.update q.phase id .idle } := by
  obtain ⟨hmove, hfiles⟩ := (fail_post id error env.maxAttempts q.store).faulty hrun
  have hother : ∀ id' k, id' ≠ id → Holds u d q.store id' k → Holds u d t id' k := by
    intro id' k hne hk
    refine hk.move hmove fun y hy => ?_
    rcases hy with hy | ⟨he, -⟩
    · exact hy
    · exact absurd he hne
  refine ⟨h.inStep.move hmove (hfiles.ownDocument h.inStep.document) ?_, fun id' k hk => ?_,
    fun id' k hk => ?_, fun hall k hlast => ?_⟩
  · intro j hj y hy hflight
    rcases hy with rfl | ⟨-, hx, -⟩
    · exact hflight
    · exact hx
  · by_cases hne : id' = id
    · subst hne
      simp at hk
    · simp only [Function.update_of_ne hne] at hk
      exact hother id' k hne (h.claimed id' k hk)
  · by_cases hne : id' = id
    · subst hne
      simp at hk
    · simp only [Function.update_of_ne hne] at hk
      obtain ⟨hk', hsh⟩ := h.returned id' k hk
      exact ⟨hother id' k hne hk', hfiles.hasShared.trans hsh⟩
  · refine hfiles.hasShared.trans (h.settled (fun j hj hd => ?_) k hlast)
    obtain ⟨j', hj', -, hu', hp', hst'⟩ := hmove.forward hj
    have hdone := hall j' hj' ((forDocument_congr hu' hp').trans hd)
    rcases hst' with hst' | ⟨-, -, hst' | hst'⟩
    · rw [← hst', hdone]
    · rw [hst'] at hdone; cases hdone
    · rw [hst'] at hdone; cases hdone

theorem QueueInv.elsewhere (h : QueueInv u d q) (he : Elsewhere u d q.store t) :
    QueueInv u d { q with store := t } := by
  have hmem : ∀ j, j.forDocument u d = true →
      (j ∈ t.db.userBatchJobs ↔ j ∈ q.store.db.userBatchJobs) := by
    intro j hd
    have := congrArg (fun js => j ∈ js) he.jobs
    simpa [List.mem_filter, hd] using this
  have hholds : ∀ id k, Holds u d q.store id k → Holds u d t id k := by
    rintro id k ⟨j, hj, hid, hu, hp, hst⟩
    exact ⟨j, (hmem j (forDocument_of_payload hu hp)).mpr hj, hid, hu, hp, hst⟩
  refine ⟨⟨he.document h.inStep.document, he.nodup h.inStep.nodup, he.fresh h.inStep.fresh,
    fun j hj j' hj' hd hd' => ?_, fun j hj hd => ?_⟩, fun id k hk => hholds id k (h.claimed id k hk),
    fun id k hk => ?_, fun hall k hlast => ?_⟩
  · exact h.inStep.single j ((hmem j hd).mp hj) j' ((hmem j' hd').mp hj') hd hd'
  · exact h.inStep.last j ((hmem j hd).mp hj) hd
  · obtain ⟨hk', hsh⟩ := h.returned id k hk
    exact ⟨hholds id k hk', he.shared.trans hsh⟩
  · exact he.shared.trans (h.settled (fun j hj hd => hall j ((hmem j hd).mpr hj) hd) k hlast)

/-! ## The main results -/

/-- The document is there, and no job of it is in flight or dead. -/
structure QueueReady (u : String) (d : Nat) (s : Store) : Prop where
  document : OwnDocument u d s
  nodup : (s.db.userBatchJobs.map JobRow.id).Nodup
  fresh : ∀ j ∈ s.db.userBatchJobs, j.id < s.db.userBatchJobsSeq
  done : AllDone u d s

theorem QueueReady.inv (h : QueueReady u d s) : QueueInv u d (.start s) := by
  have hidle : ∀ j ∈ s.db.userBatchJobs, j.forDocument u d = true → j.inFlight = false := by
    intro j hj hd
    simp [JobRow.inFlight, h.done j hj hd]
  refine ⟨⟨h.document, h.nodup, h.fresh, fun j hj j' hj' hd hd' hf => ?_, fun j hj hd hf => ?_⟩,
    fun _ _ hk => ?_, fun _ _ hk => ?_, fun _ _ hk => ?_⟩
  · rw [hidle j hj hd] at hf; cases hf
  · rw [hidle j hj hd] at hf; cases hf
  · cases hk
  · cases hk
  · cases hk

theorem QueueStep.inv {q' : QueueState}
    (hstep : QueueStep env u d (NoOtherInFlight u d) q q') (h : QueueInv u d q) :
    QueueInv u d q' := by
  cases hstep with
  | request kind hC hrun => exact h.request hC hrun
  | claim kind hrun hu hp => exact h.claim hrun hu hp
  | handle hphase hrun => exact h.handle hphase hrun
  | complete hphase hrun => exact h.complete hphase hrun
  | fail hphase hrun => exact h.fail hphase hrun
  | elsewhere he => exact h.elsewhere he

/-- In every run in which no request is accepted while a job of the other kind is in flight: once
all jobs of the document are done, it is shared if and only if the last request was to share it. -/
theorem lastRequest_wins {s₀ : Store} (h₀ : QueueReady u d s₀)
    (hrun : ReflTransGen (QueueStep env u d (NoOtherInFlight u d)) (.start s₀) q)
    (hdone : AllDone u d q.store) {kind : ShareKind} (hlast : q.last = some kind) :
    HasShared d q.store ↔ kind = .share := by
  have hinv : ∀ q', ReflTransGen (QueueStep env u d (NoOtherInFlight u d)) (.start s₀) q' →
      QueueInv u d q' := by
    intro q' hq'
    induction hq' with
    | refl => exact h₀.inv
    | tail _ hstep ih => exact hstep.inv ih
  exact (hinv q hrun).settled hdone kind (Option.mem_def.mpr hlast)

end Queue

namespace QueueExample

def env : Env := .plain .disabled

def document : FileRow :=
  { id := 1, filePath := "/inbox/a.txt", fileHash := "h", fileType := ".txt", chunkCount := 0,
    ocrUsed := false, userId := "ann", scope := .personal, publishedFrom := none }

/-- One personal document, not shared, and no jobs. -/
def start : Store :=
  { Store.empty with db := { Db.empty with fileIndex := [document], fileIndexSeq := 2 } }

theorem ready_start : QueueReady "ann" 1 start := by
  refine ⟨⟨document, by decide, by decide, rfl⟩, by decide, by decide, ?_⟩
  intro j hj
  cases hj

def asked : Store := (shareDocument "ann" 1).after start

def response (jobId : Nat) (kind : ShareKind) : ShareQueuedResponse :=
  { documentId := 1, jobId := jobId, shareStatus := kind.direction }

theorem start_asked : (ShareKind.share.request "ann" 1).exec start =
    some (.ok (response 1 .share), asked) := exec_after (by decide)

def job (id : Nat) (kind : ShareKind) : ClaimedJob :=
  { id := id, userId := "ann", payload := kind.payload 1, attempt := 0 }

theorem job_userId (id : Nat) (kind : ShareKind) : (job id kind).userId = "ann" := rfl

theorem job_payload (id : Nat) (kind : ShareKind) : (job id kind).payload = kind.payload 1 := rfl

theorem handled {q : QueueState} {t : Store} (sess id : Nat) (kind : ShareKind)
    {C : ShareKind → Store → Prop} (hp : q.phase id = .claimed kind)
    (h : (kind.handler env sess "ann" 1 id).exec q.store = some (.ok (), t)) :
    QueueStep env "ann" 1 C q
      { q with store := t, phase := Function.update q.phase id (.returned kind) } :=
  .handle hp (Faulty.of_exec h)

theorem completed {q : QueueState} {t : Store} (id : Nat) (kind : ShareKind)
    {C : ShareKind → Store → Prop} (hp : q.phase id = .returned kind)
    (h : (complete id).exec q.store = some (.ok (), t)) :
    QueueStep env "ann" 1 C q { q with store := t, phase := Function.update q.phase id .idle } :=
  .complete hp (Faulty.of_exec h)

/-! A share request alone: its job runs and is done. -/

def claimed : Store := (claimNext env "w").after asked

def shared : Store := (handleShare env 7 "ann" 1 1).after claimed

def sharedDone : Store := (complete 1).after shared

/-! An unshare request while the share job is in flight: two workers have the jobs, and the unshare
handler gets the document's lock first. -/

def askedBoth : Store := (unshareDocument "ann" 1).after asked

def claimedOne : Store := (claimNext env "w").after askedBoth

def claimedBoth : Store := (claimNext env "v").after claimedOne

def ranUnshare : Store := (handleUnshare env 8 "ann" 1 2).after claimedBoth

def ranBoth : Store := (handleShare env 7 "ann" 1 1).after ranUnshare

def doneOne : Store := (complete 2).after ranBoth

def doneBoth : Store := (complete 1).after doneOne

/-- The workers when both jobs are claimed. -/
def bothClaimed : Nat → WorkerPhase :=
  Function.update (Function.update (fun _ => .idle) 1 (.claimed .share)) 2 (.claimed .unshare)

def bothReturned : Nat → WorkerPhase :=
  Function.update (Function.update bothClaimed 2 (.returned .unshare)) 1 (.returned .share)

def bothIdle : Nat → WorkerPhase := Function.update (Function.update bothReturned 2 .idle) 1 .idle

end QueueExample

open QueueExample in
/-- Both jobs end `done`, the last request was to unshare, and the document is shared. -/
theorem firstRequest_wins : QueueReady "ann" 1 start ∧
    ∃ q, ReflTransGen (QueueStep env "ann" 1 fun _ _ => True) (.start start) q ∧
      AllDone "ann" 1 q.store ∧ q.last = some .unshare ∧ HasShared 1 q.store := by
  have hunshare : (ShareKind.unshare.request "ann" 1).exec asked =
      some (.ok (response 2 .unshare), askedBoth) := exec_after (by decide)
  have hclaim₁ : (claimNext env "w").exec askedBoth =
      some (.ok (some (job 1 .share)), claimedOne) := exec_after (by decide)
  have hclaim₂ : (claimNext env "v").exec claimedOne =
      some (.ok (some (job 2 .unshare)), claimedBoth) := exec_after (by decide)
  have hrun₂ : (ShareKind.unshare.handler env 8 "ann" 1 2).exec claimedBoth =
      some (.ok (), ranUnshare) := exec_after (by decide)
  have hrun₁ : (ShareKind.share.handler env 7 "ann" 1 1).exec ranUnshare =
      some (.ok (), ranBoth) := exec_after (by decide)
  have hphase₂ : bothClaimed 2 = .claimed .unshare := by decide
  have hphase₁ : Function.update bothClaimed 2 (.returned .unshare) 1 = .claimed .share := by decide
  have hended₂ : bothReturned 2 = .returned .unshare := by decide
  have hended₁ : Function.update bothReturned 2 .idle 1 = .returned .share := by decide
  have hdone₂ : (complete 2).exec ranBoth = some (.ok (), doneOne) := exec_after (by decide)
  have hdone₁ : (complete 1).exec doneOne = some (.ok (), doneBoth) := exec_after (by decide)
  let Step : QueueState → QueueState → Prop := QueueStep env "ann" 1 fun _ _ => True
  have requests : ReflTransGen Step (.start start)
      { store := askedBoth, phase := fun _ => .idle, last := some .unshare } :=
    .tail (.single (.request .share trivial start_asked)) (.request .unshare trivial hunshare)
  have claims : ReflTransGen Step
      { store := askedBoth, phase := fun _ => .idle, last := some .unshare }
      { store := claimedBoth, phase := bothClaimed, last := some .unshare } :=
    .tail (.single (.claim .share hclaim₁ (job_userId 1 .share) (job_payload 1 .share)))
      (.claim .unshare hclaim₂ (job_userId 2 .unshare) (job_payload 2 .unshare))
  have handlers : ReflTransGen Step
      { store := claimedBoth, phase := bothClaimed, last := some .unshare }
      { store := ranBoth, phase := bothReturned, last := some .unshare } :=
    .tail (.single (handled 8 2 .unshare hphase₂ hrun₂)) (handled 7 1 .share hphase₁ hrun₁)
  have completions : ReflTransGen Step
      { store := ranBoth, phase := bothReturned, last := some .unshare }
      { store := doneBoth, phase := bothIdle, last := some .unshare } :=
    .tail (.single (completed 2 .unshare hended₂ hdone₂)) (completed 1 .share hended₁ hdone₁)
  refine ⟨ready_start, _, ((requests.trans claims).trans handlers).trans completions, ?_, rfl, ?_⟩
  · show ∀ j ∈ doneBoth.db.userBatchJobs, _
    decide
  · show ∃ r ∈ doneBoth.db.fileIndex, _
    decide

open QueueExample in
theorem lastRequest_wins_share : AllDone "ann" 1 sharedDone ∧ HasShared 1 sharedDone := by
  have hclaim : (claimNext env "w").exec asked =
      some (.ok (some (job 1 .share)), QueueExample.claimed) := exec_after (by decide)
  have hrun : (ShareKind.share.handler env 7 "ann" 1 1).exec QueueExample.claimed =
      some (.ok (), shared) := exec_after (by decide)
  have hcomplete : (complete 1).exec shared = some (.ok (), sharedDone) := exec_after (by decide)
  have hdone : AllDone "ann" 1 sharedDone := by
    show ∀ j ∈ sharedDone.db.userBatchJobs, _
    decide
  have hother : NoOtherInFlight "ann" 1 .share start := fun j hj => by cases hj
  let Step : QueueState → QueueState → Prop := QueueStep env "ann" 1 (NoOtherInFlight "ann" 1)
  let working : Nat → WorkerPhase := Function.update (fun _ => .idle) 1 (.claimed .share)
  let returned : Nat → WorkerPhase := Function.update working 1 (.returned .share)
  have hphase : working 1 = .claimed .share := by decide
  have hended : returned 1 = .returned .share := by decide
  have request : Step (.start start) { store := asked, phase := fun _ => .idle, last := some .share } :=
    .request .share hother start_asked
  have claim : Step { store := asked, phase := fun _ => .idle, last := some .share }
      { store := QueueExample.claimed, phase := working, last := some .share } :=
    .claim .share hclaim (job_userId 1 .share) (job_payload 1 .share)
  have handle : Step { store := QueueExample.claimed, phase := working, last := some .share }
      { store := shared, phase := returned, last := some .share } :=
    handled 7 1 .share hphase hrun
  have finish : Step { store := shared, phase := returned, last := some .share }
      { store := sharedDone, phase := Function.update returned 1 .idle, last := some .share } :=
    completed 1 .share hended hcomplete
  have hsteps : ReflTransGen Step (.start start)
      { store := sharedDone, phase := Function.update returned 1 .idle, last := some .share } :=
    (((ReflTransGen.single request).tail claim).tail handle).tail finish
  exact ⟨hdone, (lastRequest_wins ready_start hsteps hdone rfl).mpr rfl⟩

end Lumogis
