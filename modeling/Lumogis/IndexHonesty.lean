import Lumogis.Frames
import Lumogis.Lib.Labelled
import Mathlib.Tactic.SplitIfs

/-!
# IndexHonesty

Calls of `ingest_file` on one path, one after the other, with faults at any of their calls.

A call whose file has the stored hash is skipped. `skipped_is_indexed`: the personal points of the
path are then the accepted chunks of the file, in every run in which a call that reads a file again
gets from clearing the path to the update of its row, and blocks no chunk unless the stored hash is
the file's. `ingest_file` clears the path first and writes the hash last, so a call that does not
get there leaves an old hash over missing points, and one that blocks a chunk leaves it over the
points of another content (`skipped_not_indexed`).
-/

namespace Lumogis

open Prog Labelled

/-! ## The index of a text -/

/-- The chunks that are not blocked, with their indices. -/
def acceptedChunks (env : Env) (text : String) : List (Nat × String) :=
  (env.chunkText text).zipIdx.filterMap fun c => (env.sanitise c.1).map fun accepted => (c.2, accepted)

def indexPoint (env : Env) (userId path ext text : String) (r : Nat × String) : DocPoint :=
  chunkPoint env userId path ext (env.sectionHeaders text (env.chunkText text)) r.1 r.2 (env.embed r.2)

def DocPoint.isPersonalAt (userId path : String) (pt : DocPoint) : Bool :=
  pt.ofSource userId path && pt.scope == some .personal

/-- The personal points of the path are the accepted chunks of the text, and there are `n`. -/
structure IndexOf (env : Env) (userId path ext text : String) (n : Nat) (s : Store) : Prop where
  points : s.documents.filter (DocPoint.isPersonalAt userId path) =
    (acceptedChunks env text).map (indexPoint env userId path ext text)
  count : (s.documents.filter (DocPoint.isPersonalAt userId path)).length = n

/-! ## Calls -/

structure IngestCall where
  file : SourceFile
  force : Bool
  onProgress : Option (Stage → M Unit)
  /-- What becomes of the call's calls. -/
  fates : List Fate

/-- The call is on the path, and reads its file right if it does; `content` has the texts of the
files by their hashes. The progress callback only writes to the job. -/
structure IngestCall.Reads (path ext : String) (content : String → String) (call : IngestCall) :
    Prop where
  path : call.file.path = path
  ext : call.file.ext = ext
  text : ∀ text, call.file.text = .ok text → content call.file.hash = text
  progress : ∀ report, call.onProgress = some report → ∀ stage, Always JobArm (report stage)

def ingestStep (env : Env) (userId : String) (call : IngestCall) (s : Store) : Option Store :=
  ((ingestFile env call.file userId call.force call.onProgress).execFates call.fates s).map Prod.snd

/-- `ingest_file` from the clearing of the path to the update of the row. Counts the chunks
written and the chunks blocked. -/
def reindexFile (env : Env) (file : SourceFile) (userId : String) (row : FileRow)
    (onProgress : Option (Stage → M Unit)) : M (Nat × Nat) := do
  deleteDocumentVectorsForPath env userId file.path row.chunkCount
  reportProgress onProgress .extracting
  match file.text with
  | .error e => .raise e
  | .ok text => do
    reportProgress onProgress .chunking
    if env.chunkText text = [] then do
      updateFileRow userId file.path fun r =>
        { r with chunkCount := 0, fileHash := file.hash, fileType := file.ext }
      pure (0, 0)
    else do
      reportProgress onProgress .embedding
      let n ← ingestChunkedText env userId file.path file.ext text (env.chunkText text)
      (if 0 < n.2 then
        updateFileRow userId file.path fun r => { r with chunkCount := n.1, fileType := file.ext }
      else
        statementE (Db.upsertFile file.path file.hash file.ext n.1 userId))
      pure n

/-- What follows. -/
def afterReindex (env : Env) (file : SourceFile) (userId : String)
    (onProgress : Option (Stage → M Unit)) (n : Nat × Nat) : M IngestResult :=
  if file.text.toOption.any fun text => env.chunkText text = [] then
    pure (emptyIngest file)
  else do
    (if graphFeatureEnabled env then reportProgress onProgress .graph else pure ())
    let removed ← emitDocumentEntities env file userId
    pure { filePath := file.path, chunkCount := n.1, skipped := false,
           removedDocumentEntityIds := removed }

theorem ingestChanged_some (env : Env) (file : SourceFile) (userId : String) (row : FileRow)
    (onProgress : Option (Stage → M Unit)) :
    ingestChanged env file userId (some row) onProgress = (do
      let n ← reindexFile env file userId row onProgress
      afterReindex env file userId onProgress n) := by
  rw [ingestChanged, reindexFile, bind_assoc]
  congr 1
  funext _
  rw [bind_assoc]
  congr 1
  funext _
  cases htext : file.text with
  | error e => rfl
  | ok text =>
    simp only
    rw [bind_assoc]
    congr 1
    funext _
    by_cases hnone : env.chunkText text = []
    · simp only [if_pos hnone]
      rw [bind_assoc]
      congr 1
      funext _
      simp [afterReindex, htext, hnone, Except.toOption]
      rfl
    · simp only [if_neg hnone]
      rw [bind_assoc]
      congr 1
      funext _
      rw [bind_assoc]
      congr 1
      funext n
      rw [bind_assoc, finishIngest]
      simp only [Option.isSome_some, if_true]
      congr 1
      funext _
      simp [afterReindex, htext, hnone, Except.toOption]
      rfl

/-! ## The condition -/

/-- The program returns, with these fates. -/
def survives {α : Type} (p : M α) (fates : List Fate) (s : Store) : Bool :=
  match p.runFates fates s with
  | some (.ok _, _, _) => true
  | _ => false

/-- No chunk of the file is blocked. -/
def unblocked (env : Env) (file : SourceFile) : Bool :=
  match file.text with
  | .ok text => (env.chunkText text).all fun c => (env.sanitise c).isSome
  | .error _ => true

/-- The call does not read the file again: its first statement fails, or finds the file unchanged,
or the file is of no known type. -/
def IngestCall.leaves (env : Env) (call : IngestCall) (row : FileRow) : Bool :=
  call.fates.head?.any (· != .ok) || ingestUnchanged call.file call.force (some row) ||
    !env.extractors.contains call.file.ext

/-- If there is a row, the call leaves it alone, or gets from the clearing of the path to the update
of the row, and blocks no chunk unless the row has the file's hash. -/
def IngestCall.spared (env : Env) (userId : String) (call : IngestCall) (s : Store) : Bool :=
  match s.db.fileIndex.find? (FileRow.isPersonalAt userId call.file.path) with
  | none => true
  | some row =>
    call.leaves env row ||
      (survives (reindexFile env call.file userId row call.onProgress) call.fates.tail s &&
        (unblocked env call.file || row.fileHash == call.file.hash))

/-! ## What a run keeps -/

/-- The path has one personal row at most, and only such a row is no projection. -/
structure PathRows (userId path : String) (s : Store) : Prop where
  source : ∀ r ∈ s.db.fileIndex, r.userId = userId → r.filePath = path →
    (r.scope = .personal ↔ r.publishedFrom = none)
  one : ∀ r ∈ s.db.fileIndex, ∀ r' ∈ s.db.fileIndex, r.isPersonalAt userId path = true →
    r'.isPersonalAt userId path = true → r = r'

/-- The row of the path describes the personal points. -/
structure IndexInv (env : Env) (userId path ext : String) (content : String → String) (s : Store) :
    Prop where
  rows : PathRows userId path s
  indexed : ∀ r ∈ s.db.fileIndex, r.isPersonalAt userId path = true →
    IndexOf env userId path ext (content r.fileHash) r.chunkCount s

/-- No row is touched, and no point is new. -/
def IndexShrinks (s t : Store) : Prop :=
  t.db.fileIndex = s.db.fileIndex ∧ ∀ pt ∈ t.documents, pt ∈ s.documents

theorem IndexShrinks.refl (s : Store) : IndexShrinks s s := ⟨rfl, fun _ h => h⟩

theorem IndexShrinks.trans (s t u : Store) (h : IndexShrinks s t) (h' : IndexShrinks t u) :
    IndexShrinks s u := ⟨h'.1.trans h.1, fun pt hpt => h.2 pt (h'.2 pt hpt)⟩

def SameFileIndex (s t : Store) : Prop := t.db.fileIndex = s.db.fileIndex

theorem SameFileIndex.trans (s t u : Store) (h : SameFileIndex s t) (h' : SameFileIndex t u) : SameFileIndex s u :=
  Eq.trans h' h

/-- The path has no points. -/
def Cleared (userId path : String) (s : Store) : Prop :=
  ∀ pt ∈ s.documents, pt.ofSource userId path = false

section Pipeline

variable {env : Env} {file : SourceFile} {userId path ext : String} {content : String → String}
  {s t : Store}

theorem Cleared.shrinks (h : Cleared userId path s) (hs : IndexShrinks s t) :
    Cleared userId path t := fun pt hpt => h pt (hs.2 pt hpt)

theorem PathRows.same (h : PathRows userId path s) (hf : SameFileIndex s t) :
    PathRows userId path t where
  source := by rw [hf]; exact h.source
  one := by rw [hf]; exact h.one

theorem IndexInv.same (h : IndexInv env userId path ext content s) (hf : SameFileIndex s t)
    (hd : t.documents = s.documents) : IndexInv env userId path ext content t where
  rows := h.rows.same hf
  indexed := by
    rw [hf]
    intro r hr hp
    have hi := h.indexed r hr hp
    exact ⟨by rw [hd]; exact hi.points, by rw [hd]; exact hi.count⟩

/-! ### The chunks -/

theorem deleteDocuments_shrinks (p : DocPoint → Bool) : Always IndexShrinks (deleteDocuments p) :=
  always_act fun _ => ⟨rfl, fun _ h => Table.mem_of_mem_deleteWhere h⟩

theorem deleteChunkPoint_shrinks (i : Nat) :
    Always IndexShrinks (deleteChunkPoint env userId path i) :=
  (deleteDocuments_shrinks _).attempt.bind fun _ => trivial

theorem IndexShrinks.of_jobArm (s t : Store) (h : JobArm s t) : IndexShrinks s t := by
  obtain ⟨js, rfl⟩ := h
  exact .refl s

theorem deleteDocumentVectorsForPath_onOk (n : Nat) :
    OnOk (fun _ t => IndexShrinks s t ∧ Cleared userId path t)
      (deleteDocumentVectorsForPath env userId path n) s := by
  refine OnOk.bind (OnOk.act ?_)
  have hcleared : Cleared userId path
      { s with documents := Table.deleteWhere (DocPoint.ofSource userId path) s.documents } :=
    fun pt hpt => (Table.mem_deleteWhere.mp hpt).2
  have hfirst : IndexShrinks s
      { s with documents := Table.deleteWhere (DocPoint.ofSource userId path) s.documents } :=
    ⟨rfl, fun _ h => Table.mem_of_mem_deleteWhere h⟩
  exact (Always.onOk (Always.forEach fun i _ => deleteChunkPoint_shrinks i) IndexShrinks.refl
    IndexShrinks.trans _).mono fun _ t ht => ⟨hfirst.trans _ _ _ ht, hcleared.shrinks ht⟩

/-- What one pass of the sanitising loop adds. -/
def accepts (env : Env) (c : String × Nat) : Option (Nat × String) :=
  (env.sanitise c.1).map fun accepted => (c.2, accepted)

theorem sanitise_onOk (chunks : List (String × Nat)) :
    OnOk (fun rows t => rows = (chunks.filterMap (accepts env),
        chunks.countP fun c => (env.sanitise c.1).isNone) ∧ IndexShrinks s t)
      (foldM (sanitiseChunk env userId path) ([], 0) chunks) s := by
  refine OnOk.foldM (fun ys b t => b = (ys.filterMap (accepts env),
    ys.countP fun c => (env.sanitise c.1).isNone) ∧ IndexShrinks s t) ⟨rfl, .refl s⟩
    (fun ys c b t _ hb => ?_) fun b t hb => hb
  obtain ⟨rfl, ht⟩ := hb
  unfold sanitiseChunk
  cases hc : env.sanitise c.1 with
  | none =>
    refine OnOk.bind ((Always.onOk (deleteChunkPoint_shrinks _) IndexShrinks.refl
      IndexShrinks.trans t).mono fun _ u hu => OnOk.ret ⟨?_, ht.trans _ _ _ hu⟩)
    simp [List.filterMap_append, List.countP_append, accepts, hc]
  | some accepted =>
    refine OnOk.ret ⟨?_, ht⟩
    simp [List.filterMap_append, List.countP_append, accepts, hc]

/-! ### The points -/

theorem filter_upsert {pt : DocPoint} {docs done : List DocPoint}
    (hdone : docs.filter (DocPoint.ofSource userId path) = done)
    (hpt : pt.ofSource userId path = true) (hid : ∀ x ∈ done, x.id ≠ pt.id) :
    (Table.upsert DocPoint.id pt docs).filter (DocPoint.ofSource userId path) = done ++ [pt] := by
  have hkeep : done.filter (fun x => decide (x.id ≠ pt.id)) = done :=
    List.filter_eq_self.mpr fun x hx => by simpa using hid x hx
  rw [Table.upsert, List.filter_append, List.filter_singleton, hpt]
  congr 1
  rw [List.filter_filter, ← hkeep, ← hdone, List.filter_filter]
  exact List.filter_congr fun x _ => Bool.and_comm _ _

theorem upserts_onOk (hinj : Function.Injective env.uuid5) (hs : Cleared userId path s)
    (headers : List (Option String)) (rows : List ((Nat × String) × Embedding))
    (hrows : (rows.map fun r => r.1.1).Nodup) :
    OnOk (fun _ t => SameFileIndex s t ∧ t.documents.filter (DocPoint.ofSource userId path) =
        rows.map fun r => chunkPoint env userId path ext headers r.1.1 r.1.2 r.2)
      (forEach (fun r => upsertDocument
        (chunkPoint env userId path ext headers r.1.1 r.1.2 r.2)) rows) s := by
  let point (r : (Nat × String) × Embedding) : DocPoint :=
    chunkPoint env userId path ext headers r.1.1 r.1.2 r.2
  have hnil : s.documents.filter (DocPoint.ofSource userId path) = [] :=
    List.filter_eq_nil_iff.mpr fun pt hpt => by simp [hs pt hpt]
  refine OnOk.forEach (fun ys t => SameFileIndex s t ∧
    t.documents.filter (DocPoint.ofSource userId path) = ys.map point) ?_ ?_ ?_
  · exact ⟨Eq.refl _, hnil⟩
  · intro ys r t hpre ht
    have hid : ∀ x ∈ ys.map point, x.id ≠ (point r).id := by
      -- the indices of the rows are different
      intro x hx he
      obtain ⟨y, hy, rfl⟩ := List.mem_map.mp hx
      have hix := documentChunkPointId_injective hinj he
      have hnodup := hrows.sublist ((hpre.sublist.map fun r => r.1.1))
      rw [List.map_append, List.nodup_append] at hnodup
      exact hnodup.2.2 y.1.1 (List.mem_map_of_mem hy) r.1.1 (by simp) hix
    have hpt : (point r).ofSource userId path = true := by
      simp [point, DocPoint.ofSource, chunkPoint]
    rw [List.map_append, List.map_singleton]
    exact OnOk.act ⟨ht.1, filter_upsert ht.2 hpt hid⟩
  · exact fun t ht => ht

theorem zip_map_right {α β : Type} (f : α → β) (l : List α) :
    l.zip (l.map f) = l.map fun a => (a, f a) := by
  induction l with
  | nil => rfl
  | cons a l ih => simp [ih]

theorem acceptedChunks_nodup (env : Env) (text : String) :
    ((acceptedChunks env text).map Prod.fst).Nodup := by
  have hsub : ((acceptedChunks env text).map Prod.fst).Sublist
      ((env.chunkText text).zipIdx.map Prod.snd) := by
    rw [acceptedChunks]
    generalize (env.chunkText text).zipIdx = cs
    induction cs with
    | nil => exact .slnil
    | cons c cs ih =>
      rw [List.filterMap_cons]
      cases env.sanitise c.1 with
      | none => exact ih.cons _
      | some accepted => exact ih.cons_cons _
  refine List.Nodup.sublist hsub ?_
  rw [List.zipIdx_map_snd]
  exact List.nodup_range'

theorem ingestChunkedText_onOk (hinj : Function.Injective env.uuid5) (hs : Cleared userId path s)
    (text : String) :
    OnOk (fun n t => SameFileIndex s t ∧
        t.documents.filter (DocPoint.ofSource userId path) =
          (acceptedChunks env text).map (indexPoint env userId path ext text) ∧
        n.1 = (acceptedChunks env text).length ∧
        n.2 = (env.chunkText text).zipIdx.countP fun c => (env.sanitise c.1).isNone)
      (ingestChunkedText env userId path ext text (env.chunkText text)) s := by
  refine OnOk.bind ((sanitise_onOk _).mono fun rows t hrows => ?_)
  obtain ⟨rfl, ht⟩ := hrows
  have hvectors : OnOk (fun vectors u => u = t ∧
      vectors = (acceptedChunks env text).map fun r => env.embed r.2)
      (if acceptedChunks env text = [] then pure []
        else embedBatch env ((acceptedChunks env text).map Prod.snd)) t := by
    split_ifs with hnil
    · exact OnOk.ret ⟨rfl, by simp [hnil]⟩
    · exact OnOk.query ⟨rfl, by rw [List.map_map]; rfl⟩
  refine OnOk.bind (hvectors.mono fun vectors u hu => ?_)
  obtain ⟨rfl, rfl⟩ := hu
  have hzip : (acceptedChunks env text).zip ((acceptedChunks env text).map fun r => env.embed r.2) =
      (acceptedChunks env text).map fun r => (r, env.embed r.2) := zip_map_right _ _
  refine OnOk.bind ((upserts_onOk hinj (hs.shrinks ht) _ _ ?_).mono fun _ v hv => OnOk.ret ?_)
  · show (List.map _ ((acceptedChunks env text).zip _)).Nodup
    rw [hzip, List.map_map]
    exact acceptedChunks_nodup env text
  · refine ⟨SameFileIndex.trans _ _ _ ht.1 hv.1, ?_, ?_, rfl⟩
    · refine hv.2.trans ?_
      show List.map _ ((acceptedChunks env text).zip _) = _
      rw [hzip, List.map_map]
      rfl
    · show ((acceptedChunks env text).zip _).length = _
      rw [hzip, List.length_map]

theorem ingestChunkedText_sameFileIndex (text : String) (chunks : List String) :
    Always SameFileIndex (ingestChunkedText env userId path ext text chunks) :=
  (ingestChunkedText_frame env userId path ext text chunks).mono fun _ _ h => by
    obtain ⟨ds, rfl⟩ := h
    rfl

/-! ### The row -/

theorem indexOf_of_chunks {text : String}
    (h : s.documents.filter (DocPoint.ofSource userId path) =
      (acceptedChunks env text).map (indexPoint env userId path ext text)) :
    IndexOf env userId path ext text (acceptedChunks env text).length s := by
  have hpersonal : s.documents.filter (DocPoint.isPersonalAt userId path) =
      (acceptedChunks env text).map (indexPoint env userId path ext text) := by
    have hsplit : s.documents.filter (DocPoint.isPersonalAt userId path) =
        (s.documents.filter (DocPoint.ofSource userId path)).filter (·.scope == some .personal) := by
      rw [List.filter_filter]
      exact List.filter_congr fun pt _ => Bool.and_comm _ _
    rw [hsplit, h, List.filter_eq_self]
    intro pt hpt
    obtain ⟨r, -, rfl⟩ := List.mem_map.mp hpt
    rfl
  exact ⟨hpersonal, by rw [hpersonal, List.length_map]⟩

theorem PathRows.rewrites (h : PathRows userId path s) {p : FileRow → Bool}
    {f : FileRow → FileRow}
    (hp : ∀ r ∈ s.db.fileIndex, p r = r.isPersonalAt userId path) (hkey : ∀ r, (f r).SameKey r)
    (hf : t.db.fileIndex = Table.updateWhere p f s.db.fileIndex)
    (hi : ∀ r ∈ s.db.fileIndex, r.isPersonalAt userId path = true →
      IndexOf env userId path ext (content (f r).fileHash) (f r).chunkCount t) :
    IndexInv env userId path ext content t where
  rows.source r' hr' := by
    rw [hf] at hr'
    rcases Table.mem_updateWhere.mp hr' with ⟨r, hr, -, rfl⟩ | ⟨hr, -⟩
    · obtain ⟨-, hu, hpath, hs, hpf⟩ := hkey r
      rw [hu, hpath, hs, hpf]
      exact h.source r hr
    · exact h.source r' hr
  rows.one r' hr' x' hx' hpr hpx := by
    have hold : ∀ y' ∈ t.db.fileIndex, y'.isPersonalAt userId path = true →
        ∃ y ∈ s.db.fileIndex, y.isPersonalAt userId path = true ∧ f y = y' := by
      intro y' hy' hpy
      rw [hf] at hy'
      rcases Table.mem_updateWhere.mp hy' with ⟨y, hy, hpy', rfl⟩ | ⟨hy, hno⟩
      · exact ⟨y, hy, (hp y hy).symm.trans hpy', rfl⟩
      · rw [hp y' hy, hpy] at hno
        cases hno
    obtain ⟨r, hr, hpr', rfl⟩ := hold r' hr' hpr
    obtain ⟨x, hx, hpx', rfl⟩ := hold x' hx' hpx
    rw [h.one r hr x hx hpr' hpx']
  indexed r' hr' hpr := by
    rw [hf] at hr'
    rcases Table.mem_updateWhere.mp hr' with ⟨r, hr, hpr', rfl⟩ | ⟨hr, hno⟩
    · exact hi r hr ((hp r hr).symm.trans hpr')
    · rw [hp r' hr, hpr] at hno
      cases hno

theorem updateFileRow_onOk (h : PathRows userId path s) {f : FileRow → FileRow}
    (hkey : ∀ r, (f r).SameKey r)
    (hi : ∀ r ∈ s.db.fileIndex, r.isPersonalAt userId path = true →
      IndexOf env userId path ext (content (f r).fileHash) (f r).chunkCount s) :
    OnOk (fun _ t => IndexInv env userId path ext content t) (updateFileRow userId path f) s :=
  OnOk.act (h.rewrites (fun _ _ => rfl) hkey rfl fun r hr hp => ⟨(hi r hr hp).points, (hi r hr hp).count⟩)

theorem PathRows.isSource (h : PathRows userId path s) {r : FileRow}
    (hr : r ∈ s.db.fileIndex) :
    (r.userId == userId && r.filePath == path && r.publishedFrom == none) =
      r.isPersonalAt userId path := by
  rw [FileRow.isPersonalAt]
  by_cases hkey : r.userId = userId ∧ r.filePath = path
  · rw [hkey.1, hkey.2]
    have := h.source r hr hkey.1 hkey.2
    rw [Bool.eq_iff_iff]
    simp [this]
  · rw [Bool.eq_iff_iff]
    simp only [Bool.and_eq_true, beq_iff_eq]
    tauto

theorem PathRows.inserts (h : PathRows userId path s) {row : FileRow}
    (hnone : ∀ r ∈ s.db.fileIndex, r.isPersonalAt userId path = false)
    (hrow : row.scope = .personal ∧ row.publishedFrom = none)
    (hf : t.db.fileIndex = s.db.fileIndex ++ [row])
    (hi : IndexOf env userId path ext (content row.fileHash) row.chunkCount t) :
    IndexInv env userId path ext content t := by
  have hmem : ∀ r ∈ t.db.fileIndex, r.isPersonalAt userId path = true → r = row := by
    intro r hr hp
    rw [hf, List.mem_append, List.mem_singleton] at hr
    exact hr.resolve_left fun hold => by rw [hnone r hold] at hp; cases hp
  refine ⟨⟨fun r hr hu hpath => ?_, fun r hr x hx hpr hpx =>
    (hmem r hr hpr).trans (hmem x hx hpx).symm⟩, fun r hr hp => hmem r hr hp ▸ hi⟩
  rw [hf, List.mem_append, List.mem_singleton] at hr
  rcases hr with hr | rfl
  · exact h.source r hr hu hpath
  · exact ⟨fun _ => hrow.2, fun _ => hrow.1⟩

theorem upsertFile_inv (h : PathRows userId path s) {hash fileType : String}
    {n : Nat} (hi : IndexOf env userId path ext (content hash) n s) {db : Db}
    (hdb : s.db.upsertFile path hash fileType n userId = .ok ((), db)) :
    IndexInv env userId path ext content { s with db := db } := by
  simp only [Db.upsertFile] at hdb
  split_ifs at hdb with hany hid
  · cases hdb
    exact h.rewrites (f := fun r => { r with fileHash := hash, chunkCount := n })
      (fun r hr => h.isSource hr) (fun r => ⟨rfl, rfl, rfl, rfl, rfl⟩) rfl
      fun _ _ _ => ⟨hi.points, hi.count⟩
  · cases hdb
    have hnone : ∀ r ∈ s.db.fileIndex, r.isPersonalAt userId path = false := fun r hr => by
      rw [← h.isSource hr, Bool.eq_false_iff]
      exact fun hsrc => hany (List.any_eq_true.mpr ⟨r, hr, hsrc⟩)
    exact h.inserts hnone ⟨rfl, rfl⟩ rfl ⟨hi.points, hi.count⟩

/-! ### A call -/

theorem SameFileIndex.of_jobArm (s t : Store) (h : JobArm s t) : SameFileIndex s t :=
  (IndexShrinks.of_jobArm s t h).1

theorem reportProgress_onOk {onProgress : Option (Stage → M Unit)}
    (h : ∀ report, onProgress = some report → ∀ stage, Always JobArm (report stage))
    (stage : Stage) : OnOk (fun _ t => IndexShrinks s t) (reportProgress onProgress stage) s :=
  ((reportProgress_frame h stage).mono IndexShrinks.of_jobArm).onOk IndexShrinks.refl
    IndexShrinks.trans s

theorem emits_post {onProgress : Option (Stage → M Unit)} {n : Nat × Nat}
    (h : IndexInv env userId path ext content s)
    (hprogress : ∀ report, onProgress = some report → ∀ stage, Always JobArm (report stage)) :
    Post (fun _ t => IndexInv env userId path ext content t) (do
      (if graphFeatureEnabled env then reportProgress onProgress .graph else pure ())
      let removed ← emitDocumentEntities env file userId
      pure { filePath := file.path, chunkCount := n.1, skipped := false,
             removedDocumentEntityIds := removed } : M IngestResult) s := by
  let Same (s t : Store) : Prop := SameFileIndex s t ∧ t.documents = s.documents
  have hjob : ∀ s t, JobArm s t → Same s t := fun s t hst => by
    obtain ⟨js, rfl⟩ := hst
    exact ⟨rfl, rfl⟩
  have hentity : ∀ s t, EntityArm s t → Same s t := fun s t hst => by
    obtain ⟨_, _, _, _, _, rfl⟩ := hst
    exact ⟨rfl, rfl⟩
  have hreport : Always Same
      (if graphFeatureEnabled env then reportProgress onProgress .graph else pure ()) := by
    split
    · exact (reportProgress_frame hprogress _).mono hjob
    · trivial
  have hall := Always.bind hreport fun _ => Always.bind
    ((emitDocumentEntities_frame env file userId).mono hentity) fun removed =>
      always_pure ({ filePath := file.path, chunkCount := n.1, skipped := false,
                     removedDocumentEntityIds := removed } : IngestResult)
  exact (hall.post (fun _ => ⟨rfl, rfl⟩)
    (fun _ _ _ h h' => ⟨SameFileIndex.trans _ _ _ h.1 h'.1, h'.2.trans h.2⟩) s).mono
    fun _ t ht => h.same ht.1 ht.2

theorem afterReindex_post {onProgress : Option (Stage → M Unit)} {n : Nat × Nat}
    (h : IndexInv env userId path ext content s)
    (hprogress : ∀ report, onProgress = some report → ∀ stage, Always JobArm (report stage)) :
    Post (fun _ t => IndexInv env userId path ext content t)
      (afterReindex env file userId onProgress n) s := by
  unfold afterReindex
  split
  · exact h
  · exact emits_post h hprogress

theorem countP_isNone_eq_zero {text : String} (ht : file.text = .ok text)
    (h : unblocked env file = true) :
    (env.chunkText text).zipIdx.countP (fun c => (env.sanitise c.1).isNone) = 0 := by
  simp only [unblocked, ht, List.all_eq_true] at h
  rw [List.countP_eq_zero]
  intro c hc
  have hmem : c.1 ∈ env.chunkText text := List.fst_mem_of_mem_zipIdx hc
  have hsome := h c.1 hmem
  intro hnone
  rw [Option.isNone_iff_eq_none.mp hnone] at hsome
  cases hsome

theorem reindexFile_onOk {call : IngestCall} (hinj : Function.Injective env.uuid5)
    (hc : call.Reads path ext content) (h : IndexInv env userId path ext content s) {row : FileRow}
    (hrow : s.db.fileIndex.find? (FileRow.isPersonalAt userId path) = some row)
    (hok : unblocked env call.file = true ∨ row.fileHash = call.file.hash) :
    OnOk (fun _ t => IndexInv env userId path ext content t)
      (reindexFile env call.file userId row call.onProgress) s := by
  obtain ⟨hpath, hext, hread, hprogress⟩ := hc
  subst hpath hext
  have hfound : row ∈ s.db.fileIndex ∧ row.isPersonalAt userId call.file.path = true :=
    ⟨List.mem_of_find?_eq_some hrow, List.find?_some hrow⟩
  have hone : ∀ t, SameFileIndex s t → ∀ r ∈ t.db.fileIndex,
      r.isPersonalAt userId call.file.path = true → r = row := fun t ht r hr hp =>
    h.rows.one r (ht ▸ hr) row hfound.1 hp hfound.2
  refine OnOk.bind ((deleteDocumentVectorsForPath_onOk _).mono fun _ t ht => ?_)
  refine OnOk.bind ((reportProgress_onOk hprogress _).mono fun _ u hu => ?_)
  have hsu := ht.1.trans _ _ _ hu
  have hclear := ht.2.shrinks hu
  cases htext : call.file.text with
  | error e => exact OnOk.raise
  | ok text =>
    have hcontent := hread text htext
    refine OnOk.bind ((reportProgress_onOk hprogress _).mono fun _ v hv => ?_)
    have hsv := hsu.trans _ _ _ hv
    split_ifs with hnone
    · -- nothing to index, and the row says so
      refine OnOk.bind ((updateFileRow_onOk (f := fun r =>
        { r with chunkCount := 0, fileHash := call.file.hash, fileType := call.file.ext })
        (h.rows.same hsv.1) (fun r => ⟨rfl, rfl, rfl, rfl, rfl⟩)
        fun r _ _ => ?_).mono fun _ w hw => OnOk.ret hw)
      have haccepted : acceptedChunks env text = [] := by simp [acceptedChunks, hnone]
      have hindex : IndexOf env userId call.file.path call.file.ext text 0 v := by
        have hnone : v.documents.filter (DocPoint.ofSource userId call.file.path) =
            (acceptedChunks env text).map (indexPoint env userId call.file.path call.file.ext text) := by
          rw [haccepted, List.map_nil, List.filter_eq_nil_iff]
          exact fun pt hpt => by simp [(hclear.shrinks hv) pt hpt]
        have hindex := indexOf_of_chunks hnone
        rwa [haccepted] at hindex
      simpa only [hcontent] using hindex
    · refine OnOk.bind ((reportProgress_onOk hprogress _).mono fun _ w hw => ?_)
      have hsw := hsv.trans _ _ _ hw
      refine OnOk.bind ((ingestChunkedText_onOk hinj ((hclear.shrinks hv).shrinks hw) text).mono
        fun n x hn => ?_)
      obtain ⟨hwx, hpoints, hlen, hblocked⟩ := hn
      have hsx : SameFileIndex s x := SameFileIndex.trans _ _ _ hsw.1 hwx
      have hindex : IndexOf env userId call.file.path call.file.ext text n.1 x := by
        rw [hlen]
        exact indexOf_of_chunks hpoints
      split_ifs with hpos
      · -- a chunk was blocked, so the stored hash is the file's
        have hhash : row.fileHash = call.file.hash := hok.resolve_left fun hun => by
          rw [hblocked, countP_isNone_eq_zero htext hun] at hpos
          exact absurd hpos (Nat.lt_irrefl 0)
        refine OnOk.bind ((updateFileRow_onOk (f := fun r =>
          { r with chunkCount := n.1, fileType := call.file.ext })
          (h.rows.same hsx) (fun r => ⟨rfl, rfl, rfl, rfl, rfl⟩)
          fun r hr hp => ?_).mono fun _ y hy => OnOk.ret hy)
        rw [hone x hsx r hr hp]
        simpa only [hhash, hcontent] using hindex
      · refine OnOk.bind ((onOk_statementE fun _ db hdb => ?_).mono fun _ y hy => OnOk.ret hy)
        exact upsertFile_inv (h.rows.same hsx) (by rw [hcontent]; exact hindex) hdb

theorem ingestChanged_none_post {call : IngestCall} (hinj : Function.Injective env.uuid5)
    (hc : call.Reads path ext content) (h : IndexInv env userId path ext content s)
    (hrow : s.db.fileIndex.find? (FileRow.isPersonalAt userId path) = none) :
    Post (fun _ t => IndexInv env userId path ext content t)
      (ingestChanged env call.file userId none call.onProgress) s := by
  obtain ⟨hpath, hext, hread, hprogress⟩ := hc
  subst hpath hext
  have hnone : ∀ r ∈ s.db.fileIndex, r.isPersonalAt userId call.file.path = false := fun r hr => by
    simpa using List.find?_eq_none.mp hrow r hr
  -- without a row there is nothing to keep
  have hinv : ∀ t, SameFileIndex s t → IndexInv env userId call.file.path call.file.ext content t :=
    fun t ht => ⟨h.rows.same ht, fun r hr hp => by
      rw [hnone r (ht ▸ hr)] at hp
      cases hp⟩
  have hreport : ∀ stage, Always SameFileIndex (reportProgress call.onProgress stage) := fun stage =>
    (reportProgress_frame hprogress stage).mono SameFileIndex.of_jobArm
  have hrefl : ∀ t, SameFileIndex t t := fun _ => rfl
  refine Post.seq (φ := SameFileIndex) ?_ hrefl SameFileIndex.trans ?_ fun e t ht => hinv t ht
  · exact Always.bind ((deleteDocuments_shrinks _).mono fun _ _ h => h.1) fun _ =>
      Always.forEach fun i _ => (deleteChunkPoint_shrinks i).mono fun _ _ h => h.1
  refine (deleteDocumentVectorsForPath_onOk _).mono fun _ t ht hst => ?_
  refine Post.seq (hreport _) hrefl SameFileIndex.trans
    ((reportProgress_onOk hprogress _).mono fun _ u hu htu => ?_)
    fun e u hu => hinv u (hst.trans _ _ _ hu)
  have hsu := hst.trans _ _ _ htu
  cases htext : call.file.text with
  | error e => exact hinv u hsu
  | ok text =>
    have hcontent := hread text htext
    refine Post.seq (hreport _) hrefl SameFileIndex.trans
      ((reportProgress_onOk hprogress _).mono fun _ v hv huv => ?_)
      fun e v hv => hinv v (hsu.trans _ _ _ hv)
    have hsv := hsu.trans _ _ _ huv
    split_ifs with hempty
    · exact hinv v hsv
    · refine Post.seq (hreport _) hrefl SameFileIndex.trans
        ((reportProgress_onOk hprogress _).mono fun _ w hw hvw => ?_)
        fun e w hw => hinv w (hsv.trans _ _ _ hw)
      have hsw := hsv.trans _ _ _ hvw
      refine Post.seq (ingestChunkedText_sameFileIndex _ _) hrefl SameFileIndex.trans
        ((ingestChunkedText_onOk hinj (((ht.2.shrinks hu).shrinks hv).shrinks hw) text).mono
          fun n x hn hwx => ?_) fun e x hx => hinv x (hsw.trans _ _ _ hx)
      obtain ⟨-, hpoints, hlen, -⟩ := hn
      have hsx := hsw.trans _ _ _ hwx
      rw [finishIngest]
      by_cases hpos : 0 < n.2
      · simp only [if_pos hpos, Option.isSome_none, Bool.false_eq_true, if_false]
        exact emits_post (hinv x hsx) hprogress
      · simp only [if_neg hpos]
        have hrow : ∀ db, x.db.upsertFile call.file.path call.file.hash call.file.ext n.1 userId =
            .ok ((), db) →
            IndexInv env userId call.file.path call.file.ext content { x with db := db } :=
          fun db hdb => by
            refine upsertFile_inv (h.rows.same hsx) ?_ hdb
            rw [hcontent, hlen]
            exact indexOf_of_chunks hpoints
        -- the row is there whether or not the reply to the insert arrives
        refine post_bind.mpr (post_actE.mpr ?_)
        cases hdb : x.db.upsertFile call.file.path call.file.hash call.file.ext n.1 userId with
        | error e => exact ⟨hinv x hsx, hinv x hsx, hinv x hsx⟩
        | ok u => exact ⟨emits_post (hrow u.2 hdb) hprogress, hinv x hsx, hrow u.2 hdb⟩

theorem ingestStep_inv {call : IngestCall} (hinj : Function.Injective env.uuid5)
    (hc : call.Reads path ext content) (h : IndexInv env userId path ext content s)
    (hspared : call.spared env userId s = true) (hs : ingestStep env userId call s = some t) :
    IndexInv env userId path ext content t := by
  obtain ⟨x, hx, rfl⟩ := Option.map_eq_some_iff.mp hs
  rw [execFates_eq] at hx
  obtain ⟨y, hy, rfl⟩ := Option.map_eq_some_iff.mp hx
  rw [ingestFile] at hy
  split_ifs at hy with huser hextension
  · cases hy
    exact h
  · rw [runFates_bind, select, runFates_query, Option.bind_some] at hy
    simp only [IngestCall.spared, hc.path] at hspared
    rw [hc.path] at hy
    by_cases hfate : (call.fates.head?.any (· != .ok)) = true
    · rw [if_pos hfate] at hy
      cases hy
      exact h
    rw [if_neg hfate] at hy
    simp only [thenFates] at hy
    cases hrow : s.db.fileIndex.find? (FileRow.isPersonalAt userId path) with
    | none =>
      rw [hrow] at hy
      split_ifs at hy
      · cases hy
        exact h
      · exact Post.faulty (ingestChanged_none_post hinj hc h hrow) (runFates_faulty hy)
    | some row =>
      rw [hrow] at hy hspared
      split_ifs at hy with hskip
      · cases hy
        exact h
      · simp only [IngestCall.leaves, hfate, hskip, hextension, Bool.not_true,
          Bool.or_self, Bool.false_or, Bool.and_eq_true, Bool.or_eq_true, beq_iff_eq] at hspared
        obtain ⟨hsurvives, hok⟩ := hspared
        rw [ingestChanged_some, runFates_bind] at hy
        simp only [survives] at hsurvives
        split at hsurvives
        · rename_i n u rest hrun
          rw [hrun, Option.bind_some] at hy
          exact Post.faulty (afterReindex_post ((reindexFile_onOk hinj hc h hrow hok).faulty
            (runFates_faulty hrun)) hc.progress) (runFates_faulty hy)
        · cases hsurvives
  · cases hy
    exact h

/-- What a call that is skipped as unchanged finds, after every run whose calls are spared. -/
theorem skipped_is_indexed {s₀ : Store} (hinj : Function.Injective env.uuid5)
    (h₀ : IndexInv env userId path ext content s₀)
    (h : Reaches (ingestStep env userId)
      (fun call s => call.Reads path ext content ∧ call.spared env userId s = true) s₀ s)
    {row : FileRow} {force : Bool} (hfile : file.path = path ∧ file.ext = ext)
    (hrow : s.db.fileIndex.find? (FileRow.isPersonalAt userId file.path) = some row)
    (hskip : ingestUnchanged file force (some row) = true) :
    IndexOf env userId file.path file.ext (content file.hash) row.chunkCount s := by
  obtain ⟨rfl, rfl⟩ := hfile
  have hinv := h.invariant h₀ fun _ _ _ hi ha hs => ingestStep_inv hinj ha.1 hi ha.2 hs
  have hhash : row.fileHash = file.hash := by
    simp only [ingestUnchanged, Option.any_some, Bool.and_eq_true, beq_iff_eq] at hskip
    exact hskip.2
  rw [← hhash]
  exact hinv.indexed row (List.mem_of_find?_eq_some hrow) (List.find?_some hrow)

end Pipeline

namespace IndexExample

/-- Hashes are the texts; a chunk "!" is blocked. -/
def env : Env :=
  { Env.plain .disabled with
    chunkText := fun text => if text = "" then [] else [text]
    sanitise := fun chunk => if chunk = "!" then none else some chunk }

def file (text : String) : SourceFile := ⟨"/a.txt", ".txt", text, .ok text, []⟩

def ingest (text : String) (fates : List Fate) : IngestCall := ⟨file text, false, none, fates⟩

theorem ingest_reads (text : String) (fates : List Fate) :
    (ingest text fates).Reads "/a.txt" ".txt" id where
  path := rfl
  ext := rfl
  text _ h := by cases h; rfl
  progress _ h := by cases h

theorem empty_inv : IndexInv env "alice" "/a.txt" ".txt" id .empty where
  rows := ⟨fun _ hr => by (cases hr), fun _ hr => by (cases hr)⟩
  indexed _ hr := by cases hr

def reached (calls : List IngestCall) : Store :=
  (run (ingestStep env "alice") calls .empty).getD .empty

theorem run_reached {calls : List IngestCall}
    (h : (run (ingestStep env "alice") calls .empty).isSome = true) :
    run (ingestStep env "alice") calls .empty = some (reached calls) := by
  obtain ⟨s, hs⟩ := Option.isSome_iff_exists.mp h
  rw [reached, hs]
  rfl

/-- The row of the text "x". -/
def indexed : FileRow :=
  { id := 1, filePath := "/a.txt", fileHash := "x", fileType := ".txt", chunkCount := 1,
    ocrUsed := false, userId := "alice", scope := .personal, publishedFrom := none }

/-- The row that a call finds. -/
def row (s : Store) : Option FileRow :=
  s.db.fileIndex.find? (FileRow.isPersonalAt "alice" "/a.txt")

end IndexExample

section Runs

open IndexExample

/-- A call fails before it clears the path, and the next one is skipped. -/
theorem skipped_is_indexed_unread :
    IndexOf env "alice" "/a.txt" ".txt" "x" 1 (reached [ingest "x" [], ingest "y" [.lost]]) :=
  skipped_is_indexed Function.injective_id empty_inv
    (run_reaches (run_reached (by decide)) (Admitted.and_labels
      (A := fun c s => IngestCall.spared env "alice" c s = true) (by decide) (by
        intro c hc
        simp only [List.mem_cons, List.not_mem_nil, or_false] at hc
        rcases hc with rfl | rfl
        · exact ingest_reads _ _
        · exact ingest_reads _ _)))
    (show (file "x").path = "/a.txt" ∧ (file "x").ext = ".txt" from ⟨rfl, rfl⟩)
    (show row (reached [ingest "x" [], ingest "y" [.lost]]) = some indexed by decide)
    (show ingestUnchanged (file "x") false (some indexed) = true by decide)

/-- The embedder fails after the path was cleared for another content; or a chunk of another content
is blocked. The file has its first content again, and the call is skipped. -/
theorem skipped_not_indexed :
    (∃ s r, Reaches (ingestStep env "alice") (fun c _ => c.Reads "/a.txt" ".txt" id) .empty s ∧
      row s = some r ∧ ingestUnchanged (file "x") false (some r) = true ∧
      ¬ IndexOf env "alice" "/a.txt" ".txt" "x" r.chunkCount s) ∧
    ∃ s r, Reaches (ingestStep env "alice") (fun c _ => c.Reads "/a.txt" ".txt" id) .empty s ∧
      row s = some r ∧ ingestUnchanged (file "x") false (some r) = true ∧
      ¬ IndexOf env "alice" "/a.txt" ".txt" "x" r.chunkCount s := by
  have hreaches : ∀ text fates, (run (ingestStep env "alice")
      [ingest "x" [], ingest text fates] .empty).isSome = true →
      Reaches (ingestStep env "alice") (fun c _ => c.Reads "/a.txt" ".txt" id) .empty
        (reached [ingest "x" [], ingest text fates]) := fun text fates h => by
    refine run_reaches (run_reached h) ⟨ingest_reads _ _, fun _ _ => ⟨ingest_reads _ _, fun _ _ => trivial⟩⟩
  refine ⟨⟨_, _, hreaches "y" [.ok, .ok, .ok, .lost] (by decide), rfl, by decide, fun h => ?_⟩,
    ⟨_, _, hreaches "!" [] (by decide), rfl, by decide, fun h => ?_⟩⟩
  · exact absurd h.points (by decide)
  · exact absurd h.points (by decide)

end Runs

end Lumogis
