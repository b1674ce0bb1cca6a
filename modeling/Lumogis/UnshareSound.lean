import Lumogis.Frames

/-!
# UnshareSound

Unsharing a document by any sequence of attempts, whatever calls fail.

An attempt of the owner (the batch job, or the inline route) that starts `Tidy`, with the shared
row still there if a shared chunk is, and succeeds leaves nothing shared (`unshare_sound`). From
an untidy state it succeeds all the same and leaves the chunks (`unprojectFile_untidy`):
`unproject_file` reads the owner from the row it deletes, and a retry after a failed chunk delete
finds no row. The administrator's attempt counts what is left and needs no condition.
-/

namespace Lumogis

open Prog Relation

/-- Nothing of the document is shared any more. -/
structure NoShared (d : Nat) (s : Store) : Prop where
  rows : ∀ r ∈ s.db.fileIndex, r.projects d .shared = false
  points : ∀ pt ∈ s.documents, pt.sharedOf d = false

/-- The share of `d` is its owner's: rows and chunks carry the owner, and the personal source of
a shared row exists (the foreign key). -/
structure ShareOwned (u : String) (d : Nat) (s : Store) : Prop where
  rows : ∀ r ∈ s.db.fileIndex, r.projects d .shared = true →
    r.userId = u ∧ ∃ src ∈ s.db.fileIndex, src.isSource u d = true
  points : ∀ pt ∈ s.documents, pt.sharedOf d = true → pt.userId = u

/-- A shared chunk is there only together with the shared row. -/
def Tidy (d : Nat) (s : Store) : Prop :=
  (∃ pt ∈ s.documents, pt.sharedOf d = true) → ∃ r ∈ s.db.fileIndex, r.projects d .shared = true

/-- What an unshare does to the share of `d`, call by call. -/
def NoNewShare (d : Nat) (s t : Store) : Prop :=
  (t.db.fileIndex = s.db.fileIndex ∨ ∀ r ∈ t.db.fileIndex, r.projects d .shared = false) ∧
    ∀ pt ∈ t.documents, pt ∈ s.documents

section

variable {env : Env} {u : String} {d : Nat}

theorem NoNewShare.refl (s : Store) : NoNewShare d s s := ⟨.inl rfl, fun _ h => h⟩

theorem NoNewShare.trans {s t v : Store} (h : NoNewShare d s t) (h' : NoNewShare d t v) :
    NoNewShare d s v := by
  refine ⟨?_, fun pt hp => h.2 pt (h'.2 pt hp)⟩
  rcases h'.1 with he | hn
  · rw [he]; exact h.1
  · exact .inr hn

theorem NoNewShare.of_entityArm (s t : Store) (h : EntityArm s t) : NoNewShare d s t := by
  obtain ⟨_, _, _, _, _, rfl⟩ := h
  exact ⟨.inl rfl, fun _ h => h⟩

theorem NoNewShare.of_jobArm (s t : Store) (h : JobArm s t) : NoNewShare d s t := by
  obtain ⟨_, rfl⟩ := h
  exact ⟨.inl rfl, fun _ h => h⟩

theorem NoNewShare.of_lockArm (s t : Store) (h : LockArm s t) : NoNewShare d s t := by
  obtain ⟨_, rfl⟩ := h
  exact ⟨.inl rfl, fun _ h => h⟩

theorem NoNewShare.owned {s t : Store} (h : NoNewShare d s t) (hs : ShareOwned u d s) :
    ShareOwned u d t := by
  refine ⟨fun r hr hp => ?_, fun pt hpt => hs.points pt (h.2 pt hpt)⟩
  rcases h.1 with he | hn
  · rw [he] at hr ⊢; exact hs.rows r hr hp
  · rw [hn r hr] at hp; cases hp

theorem NoNewShare.noShared {s t : Store} (h : NoNewShare d s t) (hs : NoShared d s) :
    NoShared d t := by
  refine ⟨fun r hr => ?_, fun pt hpt => hs.points pt (h.2 pt hpt)⟩
  rcases h.1 with he | hn
  · exact hs.rows r (he ▸ hr)
  · exact hn r hr

/-! ## Taking the share down -/

theorem deleteFiles_rows (p : FileRow → Bool) (db : Db) :
    ∀ r ∈ (db.deleteFiles p).fileIndex, p r = false := by
  intro r hr
  have := (Table.mem_deleteWhere.mp hr).2
  simp only [Bool.or_eq_false_iff] at this
  exact this.1

theorem unprojectFile_frame : Always (NoNewShare d) (unprojectFile env d .shared) := by
  refine Always.bind (always_statement fun s => ⟨.inr (deleteFiles_rows _ _), fun _ h => h⟩)
    fun deleted => ?_
  cases deleted with
  | none => trivial
  | some row =>
    refine Always.bind ?_ fun _ => ?_
    · unfold unprojectFileChunks
      split
      · trivial
      · exact always_act fun s => ⟨.inl rfl, fun pt h => Table.mem_of_mem_deleteWhere h⟩
    · split
      · exact Always.bind ((retractDocumentEntities_frame env _ _).mono NoNewShare.of_entityArm)
          fun _ => trivial
      · trivial

theorem NoNewShare.onOk {α : Type} {p : M α} (h : Always (NoNewShare d) p) (s : Store) :
    OnOk (fun _ t => NoNewShare d s t) p s :=
  h.onOk NoNewShare.refl (fun _ _ _ => NoNewShare.trans) s

theorem unprojectFile_rows (s : Store) : OnOk
    (fun _ t => ∀ x ∈ t.db.fileIndex, x.projects d .shared = false)
    (unprojectFile env d .shared) s := by
  refine OnOk.bind (onOk_statement ?_)
  have hframe : Always (NoNewShare d) (unprojectFile env d .shared) := unprojectFile_frame
  refine (NoNewShare.onOk (hframe.2.1 s) _).mono fun _ t ht => ?_
  rcases ht.1 with he | hn
  · rw [he]; exact deleteFiles_rows _ _
  · exact hn

theorem unprojectFile_tidy {s : Store} (hu : u ≠ "") (ho : ShareOwned u d s) (ht : Tidy d s) :
    OnOk (fun _ t => NoShared d t) (unprojectFile env d .shared) s := by
  have hrows := deleteFiles_rows (FileRow.projects d .shared) s.db
  refine OnOk.bind (onOk_statement ?_)
  dsimp only
  cases hf : s.db.fileIndex.find? (FileRow.projects d .shared) with
  | none =>
    have hno : ∀ pt ∈ s.documents, pt.sharedOf d = false := by
      intro pt hpt
      by_contra hc
      obtain ⟨r, hr, hp⟩ := ht ⟨pt, hpt, by simpa using hc⟩
      exact List.find?_eq_none.mp hf r hr hp
    exact OnOk.ret ⟨hrows, hno⟩
  | some row =>
    have hrow : row.userId = u :=
      (ho.rows row (List.mem_of_find?_eq_some hf) (List.find?_some hf)).1
    have hne : ¬ row.userId = "" := by rw [hrow]; exact hu
    refine OnOk.bind ?_
    rw [unprojectFileChunks, if_neg hne]
    refine OnOk.act ?_
    -- the chunk delete matches on the owner, and every shared chunk carries the owner
    have hgone : NoShared d { s with
        db := s.db.deleteFiles (FileRow.projects d .shared)
        documents := Table.deleteWhere (DocPoint.projects d row.userId .shared) s.documents } := by
      refine ⟨hrows, fun pt hpt => ?_⟩
      obtain ⟨hpt, hp⟩ := Table.mem_deleteWhere.mp hpt
      by_contra hc
      have hs : pt.sharedOf d = true := by simpa using hc
      have hpu := ho.points pt hpt hs
      simp only [DocPoint.sharedOf, Bool.and_eq_true] at hs
      simp [DocPoint.projects, hpu, hrow, hs.1, hs.2] at hp
    split
    · refine OnOk.bind ((NoNewShare.onOk
        ((retractDocumentEntities_frame env _ _).mono NoNewShare.of_entityArm) _).mono
        fun _ t h => OnOk.ret (h.noShared hgone))
    · exact OnOk.ret hgone

/-! ## Attempts -/

/-- The ways to unshare a document: the batch job, `DELETE /files/{id}/publish`, and the
administrator. -/
inductive UnshareAttempt where
  | job (sess jobId : Nat)
  | inline
  | admin (actor : String)

def UnshareAttempt.run (env : Env) (u : String) (d : Nat) : UnshareAttempt → M Unit
  | .job sess jobId => handleUnshare env sess u d jobId
  | .inline => unpublishFile env u d
  | .admin actor => do
    let _ ← adminUnshare actor (filesItem env d)
    pure ()

/-- What an attempt needs of the state it starts in. -/
def UnshareAttempt.Ready (d : Nat) (s : Store) : UnshareAttempt → Prop
  | .admin _ => True
  | _ => Tidy d s

theorem noShared_of_no_source {s : Store} (ho : ShareOwned u d s) (ht : Tidy d s)
    (hf : s.db.fileIndex.find? (FileRow.isSource u d) = none) : NoShared d s := by
  have hsrc := List.find?_eq_none.mp hf
  have hrows : ∀ r ∈ s.db.fileIndex, r.projects d .shared = false := by
    intro r hr
    by_contra hc
    obtain ⟨_, src, hs, hsu⟩ := ho.rows r hr (by simpa using hc)
    exact hsrc src hs hsu
  refine ⟨hrows, fun pt hpt => ?_⟩
  by_contra hc
  obtain ⟨r, hr, hp⟩ := ht ⟨pt, hpt, by simpa using hc⟩
  rw [hrows r hr] at hp
  cases hp

theorem progress_noNewShare (jobId : Nat) (stage : Stage) (msg : Option String) :
    Always (NoNewShare d) (updateIngestJobProgress jobId u stage msg) :=
  (updateIngestJobProgress_frame jobId u stage msg).mono NoNewShare.of_jobArm

theorem progress_noShared {s : Store} (h : NoShared d s) (jobId : Nat) (stage : Stage)
    (msg : Option String) :
    OnOk (fun _ t => NoShared d t) (updateIngestJobProgress jobId u stage msg) s :=
  (NoNewShare.onOk (progress_noNewShare jobId stage msg) s).mono fun _ _ hn => hn.noShared h

theorem unshareLocked_frame (jobId : Nat) : Always (NoNewShare d) (unshareLocked env u d jobId) := by
  refine Always.bind (always_select NoNewShare.refl) fun src => ?_
  cases src with
  | none => exact Always.bind (progress_noNewShare _ _ _) fun _ => trivial
  | some src => exact Always.bind unprojectFile_frame fun _ => trivial

theorem handleUnshare_frame (sess jobId : Nat) :
    Always (NoNewShare d) (handleUnshare env sess u d jobId) := by
  refine Always.bind (always_select NoNewShare.refl) fun src => ?_
  cases src with
  | none => exact progress_noNewShare _ _ _
  | some src =>
    refine Always.bind (progress_noNewShare _ _ _) fun _ => ?_
    refine Always.bind (shareDocumentLock_frame sess d NoNewShare.of_lockArm
      (unshareLocked_frame jobId)) fun done => ?_
    cases done with
    | true => exact progress_noNewShare _ _ _
    | false => trivial

theorem unpublishFile_frame : Always (NoNewShare d) (unpublishFile env u d) := by
  refine Always.bind (always_select NoNewShare.refl) fun src => ?_
  cases src with
  | none => trivial
  | some src => exact Always.tryCatch (Always.bind unprojectFile_frame fun _ => trivial) fun _ => trivial

theorem countDocuments_frame (p : DocPoint → Bool) : Always (NoNewShare d) (countDocuments p) :=
  always_query NoNewShare.refl

theorem adminTeardown_frame (owner : Option String) :
    Always (NoNewShare d) (adminTeardown (filesItem env d) owner) := by
  refine Always.bind (Always.tryCatch unprojectFile_frame fun _ => trivial) fun _ => ?_
  refine Always.bind (Always.tryCatch (countDocuments_frame _) fun _ => trivial) fun n => ?_
  split <;> trivial

theorem adminUnshare_frame (actor : String) :
    Always (NoNewShare d) (adminUnshare actor (filesItem env d)) := by
  refine Always.bind (always_select NoNewShare.refl) fun owner => ?_
  refine Always.bind ?_ fun left => ?_
  · cases owner with
    | some o => trivial
    | none =>
      exact Always.bind (Always.tryCatch (countDocuments_frame _) fun _ => trivial) fun _ => trivial
  · split
    · refine Always.bind ?_ fun audited => ?_
      · refine Always.bind (Always.attempt (always_execute fun _ => ⟨.inl rfl, fun _ h => h⟩))
          fun r => ?_
        cases r <;> trivial
      · split
        · exact adminTeardown_frame owner
        · trivial
    · trivial

theorem UnshareAttempt.run_frame (a : UnshareAttempt) : Always (NoNewShare d) (a.run env u d) := by
  cases a with
  | job sess jobId => exact handleUnshare_frame sess jobId
  | inline => exact unpublishFile_frame
  | admin actor => exact Always.bind (adminUnshare_frame actor) fun _ => trivial

/-! ## Success -/

theorem unshareLocked_tidy {s : Store} (hu : u ≠ "") (ho : ShareOwned u d s) (ht : Tidy d s)
    (jobId : Nat) : OnOk (fun _ t => NoShared d t) (unshareLocked env u d jobId) s := by
  refine OnOk.bind (onOk_select ?_)
  cases hf : s.db.fileIndex.find? (FileRow.isSource u d) with
  | none =>
    exact OnOk.bind ((progress_noShared (noShared_of_no_source ho ht hf) _ _ _).mono
      fun _ _ h => OnOk.ret h)
  | some src => exact OnOk.bind ((unprojectFile_tidy hu ho ht).mono fun _ _ h => OnOk.ret h)

theorem handleUnshare_tidy {s : Store} (hu : u ≠ "") (ho : ShareOwned u d s) (ht : Tidy d s)
    (sess jobId : Nat) : OnOk (fun _ t => NoShared d t) (handleUnshare env sess u d jobId) s := by
  refine OnOk.bind (onOk_select ?_)
  cases hf : s.db.fileIndex.find? (FileRow.isSource u d) with
  | none =>
    exact progress_noShared (noShared_of_no_source ho ht hf) _ _ _
  | some src =>
    have hprog := (updateIngestJobProgress_frame jobId u .projecting none).onOk
      (fun _ => ⟨_, rfl⟩) (fun _ _ _ => by rintro ⟨_, rfl⟩ ⟨_, rfl⟩; exact ⟨_, rfl⟩) s
    refine OnOk.bind (hprog.mono fun _ t hj => ?_)
    refine OnOk.bind ?_
    refine (onOk_shareDocumentLock (Q := fun _ t => NoShared d t) (fun t' hl => ?_)
      fun _ t1 t2 hl h => (NoNewShare.of_lockArm _ _ hl).noShared h).mono fun done t' h => ?_
    · have hn : NoNewShare d s t' := (NoNewShare.of_jobArm s t hj).trans (NoNewShare.of_lockArm t t' hl)
      obtain ⟨_, rfl⟩ := hj
      obtain ⟨_, rfl⟩ := hl
      exact unshareLocked_tidy hu (hn.owned ho) ht jobId
    · cases done with
      | true => exact progress_noShared h _ _ _
      | false => exact OnOk.ret h

theorem unpublishFile_tidy {s : Store} (hu : u ≠ "") (ho : ShareOwned u d s) (ht : Tidy d s) :
    OnOk (fun _ t => NoShared d t) (unpublishFile env u d) s := by
  refine OnOk.bind (onOk_select ?_)
  cases s.db.fileIndex.find? (FileRow.isSource u d) with
  | none => exact OnOk.raise
  | some src =>
    refine OnOk.tryCatch ?_ fun _ _ => OnOk.raise
    exact OnOk.bind ((unprojectFile_tidy hu ho ht).mono fun _ _ h => OnOk.ret h)

theorem adminTeardown_ok (owner : Option String) (s : Store) :
    OnOk (fun _ t => NoShared d t) (adminTeardown (filesItem env d) owner) s := by
  refine OnOk.bind ((OnOk.tryCatch (unprojectFile_rows s) fun _ _ => OnOk.raise).mono
    fun _ t hrows => ?_)
  refine OnOk.bind ((OnOk.tryCatch (OnOk.query
    (Q := fun n t' => n = t.documents.countP (DocPoint.sharedOf d) ∧ t' = t) ⟨rfl, rfl⟩)
    fun _ _ => OnOk.raise).mono fun n t' hn => ?_)
  obtain ⟨rfl, rfl⟩ := hn
  split
  · exact OnOk.raise
  · rename_i hz
    have hzero := List.countP_eq_zero.mp (by omega : t'.documents.countP (DocPoint.sharedOf d) = 0)
    exact OnOk.ret ⟨hrows, fun pt hpt => by simpa using hzero pt hpt⟩

theorem adminUnshare_ok (actor : String) (s : Store) :
    OnOk (fun _ t => NoShared d t) (adminUnshare actor (filesItem env d)) s := by
  refine OnOk.bind (onOk_select ?_)
  refine OnOk.bind (OnOk.of_forall fun left t => ?_)
  split
  · refine OnOk.bind (OnOk.of_forall fun audited t' => ?_)
    split
    · exact adminTeardown_ok _ t'
    · exact OnOk.raise
  · exact OnOk.raise

theorem UnshareAttempt.run_ok {s : Store} (hu : u ≠ "") (ho : ShareOwned u d s)
    (a : UnshareAttempt) (ha : a.Ready d s) : OnOk (fun _ t => NoShared d t) (a.run env u d) s := by
  cases a with
  | job sess jobId => exact handleUnshare_tidy hu ho ha sess jobId
  | inline => exact unpublishFile_tidy hu ho ha
  | admin actor => exact OnOk.bind ((adminUnshare_ok actor s).mono fun _ _ h => OnOk.ret h)

end

/-! ## Sequences of attempts -/

/-- One attempt with any faults, or bookkeeping of the job queue between attempts. `C` is what
each attempt is asked to start from. -/
inductive UnshareStep (env : Env) (u : String) (d : Nat) (C : UnshareAttempt → Store → Prop) :
    Store → Store → Prop where
  | attempt (a : UnshareAttempt) {s t : Store} {r : Except PyErr Unit} : C a s →
      Faulty (a.run env u d) s r t → UnshareStep env u d C s t
  | queue {s : Store} (jobs : List JobRow) (seq now : Nat) : UnshareStep env u d C s
      { s with db := { s.db with userBatchJobs := jobs, userBatchJobsSeq := seq }, now := now }

theorem UnshareStep.owned {env : Env} {u : String} {d : Nat} {C : UnshareAttempt → Store → Prop}
    {s t : Store} (h : UnshareStep env u d C s t) (ho : ShareOwned u d s) : ShareOwned u d t := by
  cases h with
  | attempt a _ hr =>
    have hframe : Always (NoNewShare d) (a.run env u d) := a.run_frame
    have hpost := hframe.post NoNewShare.refl (fun _ _ _ => NoNewShare.trans) s
    exact (hpost.faulty hr).owned ho
  | queue jobs seq now => exact ⟨ho.rows, ho.points⟩

/-- In a run whose owner attempts all start tidy, an attempt that succeeds leaves nothing shared,
after any number of failed or successful attempts before it. -/
theorem unshare_sound (env : Env) (u : String) (d : Nat) (s t v : Store) (a : UnshareAttempt)
    (hu : u ≠ "") (ho : ShareOwned u d s)
    (hrun : ReflTransGen (UnshareStep env u d fun a s => a.Ready d s) s t) (ha : a.Ready d t)
    (hok : Faulty (a.run env u d) t (.ok ()) v) : NoShared d v := by
  have hot : ShareOwned u d t := by
    clear ha hok
    induction hrun with
    | refl => exact ho
    | tail _ hst ih => exact hst.owned ih
  exact (a.run_ok hu hot ha).faulty hok

theorem unprojectFile_untidy (env : Env) (d : Nat) (s : Store)
    (hno : ∀ r ∈ s.db.fileIndex, r.projects d .shared = false) :
    ∃ t, (unprojectFile env d .shared).exec s = some (.ok 0, t) ∧ t.documents = s.documents := by
  have hf : s.db.fileIndex.find? (FileRow.projects d .shared) = none :=
    List.find?_eq_none.mpr fun r hr => by simp [hno r hr]
  refine ⟨{ s with db := s.db.deleteFiles (FileRow.projects d .shared) }, ?_, rfl⟩
  rw [unprojectFile, exec_bind, statement, exec_act]
  simp [thenExec, hf]

/-- So from an untidy state the owner's inline unshare succeeds and the chunks stay: the condition
of `unshare_sound` cannot be dropped. -/
theorem unpublishFile_untidy (env : Env) (u : String) (d : Nat) (s : Store)
    (hsrc : ∃ src ∈ s.db.fileIndex, src.isSource u d = true) (ht : ¬ Tidy d s) :
    ∃ t, (unpublishFile env u d).exec s = some (.ok (), t) ∧ ¬ NoShared d t := by
  simp only [Tidy, not_forall, not_exists, not_and] at ht
  obtain ⟨⟨pt, hpt, hsh⟩, hno⟩ := ht
  obtain ⟨t, he, hd⟩ := unprojectFile_untidy env d s fun r hr => by simpa using hno r hr
  obtain ⟨src, hf⟩ : ∃ src, s.db.fileIndex.find? (FileRow.isSource u d) = some src := by
    obtain ⟨src, hm, hs⟩ := hsrc
    exact Option.isSome_iff_exists.mp (List.find?_isSome.mpr ⟨src, hm, hs⟩)
  refine ⟨t, ?_, fun hc => ?_⟩
  · rw [unpublishFile, unpublishOne, exec_bind, fetchPersonalSource, select, exec_query]
    simp only [Option.bind_some, thenExec, hf, Prog.tryCatch, exec_bind, exec_attempt, he, pure_eq,
      exec_ret, Option.map_some]
  · rw [hc.points pt (hd ▸ hpt)] at hsh
    cases hsh

/-! ### The failing retry -/

namespace RetryExample

def env : Env := .plain .disabled

def source : FileRow :=
  { id := 1, filePath := "/inbox/a.txt", fileHash := "h", fileType := ".txt", chunkCount := 1,
    ocrUsed := false, userId := "ann", scope := .personal, publishedFrom := none }

def sharedRow : FileRow := { source with id := 2, scope := .shared, publishedFrom := some 1 }

def sharedChunk : DocPoint :=
  { id := "documents::1:0::shared", vector := some [], filePath := "/inbox/a.txt",
    chunkIndex := some 0, text := some "hello", fileType := none, userId := "ann",
    scope := some .shared, publishedFrom := some 1, sectionHeader := none }

def unshareJob : JobRow :=
  { id := 7, userId := "ann", payload := .unshareDocument 1, status := .running, runAfter := 0,
    attempt := 0, error := none, startedAt := some 0, finishedAt := none, workerId := some "w",
    progressStage := none, progressPct := none, progressMessage := none }

/-- The document is shared with one chunk, and its unshare job is running. -/
def start : Store :=
  { Store.empty with
    db := { Db.empty with fileIndex := [source, sharedRow], userBatchJobs := [unshareJob] }
    documents := [sharedChunk] }

/-- The calls before the chunk delete succeed, the chunk delete raises. -/
def fates : List Fate := [.ok, .ok, .ok, .ok, .ok, .lost]

def afterFirst : Store :=
  { Store.empty with
    db := { Db.empty with
      fileIndex := [source]
      userBatchJobs := [{ unshareJob with
        progressStage := some .projecting, progressPct := some 50 }] }
    documents := [sharedChunk] }

def afterRetry : Store :=
  { afterFirst with
    db := { afterFirst.db with
      userBatchJobs := [{ unshareJob with progressStage := some .done, progressPct := some 100 }] } }

theorem first_attempt_raises :
    (handleUnshare env 7 "ann" 1 7).execFates fates start = some (.error .vectorStore, afterFirst) := by
  decide

theorem retry_succeeds : (handleUnshare env 7 "ann" 1 7).exec afterFirst = some (.ok (), afterRetry) := by
  decide

/-- The first attempt of another run fails before its delete: only the progress has changed. -/
def afterEarlyFault : Store :=
  { start with db := { start.db with userBatchJobs := afterFirst.db.userBatchJobs } }

def unshared : Store := { afterRetry with documents := [] }

theorem owned_start : ShareOwned "ann" 1 start := by
  constructor
  · decide
  · decide

theorem tidy_start : Tidy 1 start := by
  unfold Tidy
  decide

end RetryExample

open RetryExample in
/-- An unshare job fails on the chunk delete and its retry reports success: the shared chunk stays,
searchable by the household, with no shared row. -/
theorem unshare_retry_leaves_chunk :
    ShareOwned "ann" 1 start ∧ Tidy 1 start ∧
      ReflTransGen (UnshareStep env "ann" 1 fun _ _ => True) start afterFirst ∧
      Faulty ((UnshareAttempt.job 7 7).run env "ann" 1) afterFirst (.ok ()) afterRetry ∧
      ¬ NoShared 1 afterRetry := by
  refine ⟨owned_start, tidy_start, ?_, ?_, ?_⟩
  · exact .single (.attempt (.job 7 7) trivial (faulty_iff.mpr ⟨fates, first_attempt_raises⟩))
  · exact Faulty.of_exec retry_succeeds
  · intro h
    exact absurd (h.points sharedChunk (by decide)) (by decide)

open RetryExample in
/-- A job that failed before it deleted the row is retried, and the retry removes everything. -/
theorem unshare_sound_retry :
    Faulty ((UnshareAttempt.job 7 7).run env "ann" 1) afterEarlyFault (.ok ()) unshared ∧
      NoShared 1 unshared := by
  have hfirst : Faulty ((UnshareAttempt.job 7 7).run env "ann" 1) start (.error .database)
      afterEarlyFault := faulty_iff.mpr ⟨[.ok, .ok, .ok, .ok, .lost], by decide⟩
  have htidy : Tidy 1 afterEarlyFault := tidy_start
  have hok : Faulty ((UnshareAttempt.job 7 7).run env "ann" 1) afterEarlyFault (.ok ()) unshared :=
    Faulty.of_exec (by decide)
  exact ⟨hok, unshare_sound env "ann" 1 start afterEarlyFault unshared (.job 7 7) (by decide)
    owned_start (.single (.attempt (.job 7 7) tidy_start hfirst)) htidy hok⟩

end Lumogis
