import Mathlib
import Lumogis.Projection
import Lumogis.Lib.Table
import Lumogis.Lib.Fault

/-!
# Lumogis.ShareMirror

The chunk mirror of a shared document under faults. `projectFileWithStatus` clears the shared points of
the document and writes the image of each personal chunk that has a vector and an integer index.

The ids of the images are made from the indices, so two chunks of one index have one image between
them: the mirror is exact when the chunks that are written differ in their indices.
-/

namespace Lumogis

open Prog

variable {env : Env} {src : FileRow} {actor : String} {s t : Store} {row : FileRow} {p f : Nat}
  {fs rest : List Fate} {pt : DocPoint} {pts : List DocPoint}

/-! ## Ids -/

theorem chunkProjectionId_injective (hinj : Function.Injective env.uuid5) {ix jx : Int}
    (h : chunkProjectionId env src.id ix .shared = chunkProjectionId env src.id jx .shared) : ix = jx := by
  have hname := (String.append_left_inj _).mp ((String.append_left_inj _).mp (hinj h))
  exact Int.repr_inj.mp ((String.append_right_inj _).mp ((String.append_right_inj _).mp hname))

/-! ## What the chunks' calls come to -/

/-- The vector of the chunk when its calls meet `fs`, and the fates that are left. -/
def vectorUnder (env : Env) (pt : DocPoint) (fs : List Fate) : Option Embedding × List Fate :=
  match pt.vector with
  | some v => (some v, fs)
  | none => (if fs.head?.any (· != .ok) then none else some (env.embed (pt.text.getD "")), fs.tail)

/-- The upsert that a chunk comes to, with its fate. -/
def chunkUpsert (env : Env) (src : FileRow) (pt : DocPoint) (fs : List Fate) :
    Option (DocPoint × Fate) × List Fate :=
  if pt.scope ≠ some .personal then
    (none, fs)
  else
    match (vectorUnder env pt fs).1, pt.chunkIndex with
    | some v, some ix =>
      (some (chunkProjection env src .shared ix v pt, (vectorUnder env pt fs).2.head?.getD .ok),
        (vectorUnder env pt fs).2.tail)
    | _, _ => (none, (vectorUnder env pt fs).2)

def chunkUpserts (env : Env) (src : FileRow) : List DocPoint → List Fate → List (DocPoint × Fate)
  | [], _ => []
  | pt :: pts, fs =>
    (chunkUpsert env src pt fs).1.toList ++ chunkUpserts env src pts (chunkUpsert env src pt fs).2

/-- The images that reached the store. -/
def written (upserts : List (DocPoint × Fate)) : List DocPoint :=
  (upserts.filter fun u => u.2 != .lost).map Prod.fst

def DocPoint.isPersonal (pt : DocPoint) : Bool := pt.scope == some .personal

/-- The upserts that returned. -/
def returned (upserts : List (DocPoint × Fate)) : Nat := upserts.countP fun u => u.2 == .ok

theorem chunkVector_run (s : Store) : (chunkVector env pt).runFates fs s =
    some (.ok (vectorUnder env pt fs).1, s, (vectorUnder env pt fs).2) := by
  unfold chunkVector vectorUnder
  cases pt.vector with
  | some v => rfl
  | none =>
    dsimp only [embedForProjection, embedText]
    rw [runFates_bind, runFates_attempt, runFates_query]
    cases hfault : fs.head?.any (· != .ok) <;> rfl

/-- One chunk: a personal one is counted once, on the side of its upsert. -/
theorem projectFileChunk_run (n : Nat × Nat) (s : Store) : ∃ failed,
    (projectFileChunk env src .shared n pt).runFates fs s =
      some (.ok (n.1 + returned (chunkUpsert env src pt fs).1.toList, failed),
        { s with documents := Table.upsertAll DocPoint.id (written (chunkUpsert env src pt fs).1.toList) s.documents },
        (chunkUpsert env src pt fs).2) ∧
      returned (chunkUpsert env src pt fs).1.toList + failed = n.2 + (if pt.isPersonal then 1 else 0) := by
  unfold projectFileChunk chunkUpsert
  by_cases hscope : pt.scope = some .personal
  · rw [if_neg (not_not_intro hscope), if_neg (not_not_intro hscope), runFates_bind, chunkVector_run, Option.bind_some,
      thenFates]
    have hpersonal : pt.isPersonal = true := by simp [DocPoint.isPersonal, hscope]
    rw [hpersonal]
    generalize vectorUnder env pt fs = v
    obtain ⟨v, fs⟩ := v
    cases v with
    | none => exact ⟨n.2 + 1, rfl, by simp [returned]⟩
    | some v =>
      cases hix : pt.chunkIndex with
      | none => exact ⟨n.2 + 1, rfl, by simp [returned]⟩
      | some ix =>
        dsimp only
        rw [runFates_bind, runFates_attempt, upsertDocument, runFates_act]
        cases fs.head?.getD .ok with
        | ok => exact ⟨n.2, rfl, by simp [returned]; omega⟩
        | lost => exact ⟨n.2 + 1, rfl, by simp [returned]⟩
        | late => exact ⟨n.2 + 1, rfl, by simp [returned]⟩
  · rw [if_pos hscope, if_pos hscope]
    exact ⟨n.2, rfl, by simp [returned, DocPoint.isPersonal, hscope]⟩

theorem written_append (us vs : List (DocPoint × Fate)) : written (us ++ vs) = written us ++ written vs := by
  simp [written]

theorem returned_append (us vs : List (DocPoint × Fate)) : returned (us ++ vs) = returned us + returned vs := by
  simp [returned]

/-- The loop over the chunks of the path. -/
theorem projectFileChunks_run (pts : List DocPoint) (n : Nat × Nat) (fs : List Fate) (s : Store) : ∃ failed rest,
    (foldM (projectFileChunk env src .shared) n pts).runFates fs s =
      some (.ok (n.1 + returned (chunkUpserts env src pts fs), failed),
        { s with documents := Table.upsertAll DocPoint.id (written (chunkUpserts env src pts fs)) s.documents }, rest) ∧
      returned (chunkUpserts env src pts fs) + failed = n.2 + pts.countP DocPoint.isPersonal := by
  induction pts generalizing n fs s with
  | nil => exact ⟨n.2, fs, rfl, by simp [chunkUpserts, returned]⟩
  | cons pt pts ih =>
    obtain ⟨failed, hrun, hcount⟩ := @projectFileChunk_run env src fs pt n s
    obtain ⟨failed', rest, hrun', hcount'⟩ := ih _ _ _
    rw [foldM, runFates_bind, hrun, Option.bind_some, thenFates, hrun', chunkUpserts, written_append, returned_append]
    refine ⟨failed', rest, ?_, ?_⟩
    · simp only [Table.upsertAll, List.foldl_append, Nat.add_assoc]
    · rw [List.countP_cons]
      omega

theorem chunkUpserts_filter (pts : List DocPoint) (fs : List Fate) :
    chunkUpserts env src (pts.filter DocPoint.isPersonal) fs = chunkUpserts env src pts fs := by
  induction pts generalizing fs with
  | nil => rfl
  | cons pt pts ih =>
    by_cases hscope : pt.scope = some .personal
    · rw [List.filter_cons_of_pos (by simp [DocPoint.isPersonal, hscope]), chunkUpserts, chunkUpserts, ih]
    · rw [List.filter_cons_of_neg (by simp [DocPoint.isPersonal, hscope]), chunkUpserts, ih, chunkUpsert, if_pos hscope]
      rfl

theorem projects_of_written {x : DocPoint} (h : x ∈ written (chunkUpserts env src pts fs)) :
    x.projects src.id src.userId .shared = true ∧
      ∃ ix, x.chunkIndex = some ix ∧ x.id = chunkProjectionId env src.id ix .shared := by
  induction pts generalizing fs with
  | nil => simp [chunkUpserts, written] at h
  | cons pt pts ih =>
    rw [chunkUpserts, written_append, List.mem_append] at h
    rcases h with h | h
    · unfold chunkUpsert at h
      split at h
      · simp [written] at h
      · split at h
        · rename_i v ix hv hix
          obtain ⟨u, hu, rfl⟩ := List.mem_map.mp h
          obtain rfl := List.mem_singleton.mp (List.mem_of_mem_filter hu)
          exact ⟨by simp [DocPoint.projects, chunkProjection], ix, rfl, rfl⟩
        · simp [written] at h
    · exact ih h

/-! ## The mirror -/

/-- The personal chunks of the row's path. -/
def personalChunks (src : FileRow) (s : Store) : List DocPoint :=
  s.documents.filter fun pt => pt.isPersonal && pt.ofSource src.userId src.filePath

/-- The shared chunks of the document. -/
def sharedChunks (src : FileRow) (s : Store) : List DocPoint :=
  s.documents.filter (DocPoint.projects src.id src.userId .shared)

/-- The images that reach the store in a run under `fs`. The row, the clearing and the scroll take the first
three fates. -/
def images (env : Env) (src : FileRow) (fs : List Fate) (s : Store) : List DocPoint :=
  written (chunkUpserts env src (personalChunks src s) (fs.drop 3))

/-- The shared chunks are the images of the chunks that were written, which are the `p` that count as projected;
`f` counts the other personal chunks. No other point is touched. -/
structure Mirrors (env : Env) (src : FileRow) (fs : List Fate) (s t : Store) (p f : Nat) : Prop where
  shared : (sharedChunks src t).Perm (images env src fs s)
  projected : p = (images env src fs s).length
  counted : p + f = (personalChunks src s).length
  apart : ∀ x ∈ images env src fs s, ∀ y ∈ images env src fs s, x.chunkIndex ≠ y.chunkIndex → x.id ≠ y.id
  kept : ∀ pt, pt.projects src.id src.userId .shared = false → (∀ x ∈ images env src fs s, pt.id ≠ x.id) →
    (pt ∈ t.documents ↔ pt ∈ s.documents)

/-- Either the row has an owner and a path, no upsert takes effect and still raises, and the chunks that are
written differ in their indices; or there is nothing to mirror and no mirror to clear. -/
def Mirrorable (env : Env) (src : FileRow) (fs : List Fate) (s : Store) : Prop :=
  (src.userId ≠ "" ∧ src.filePath ≠ "" ∧
    (∀ u ∈ chunkUpserts env src (personalChunks src s) (fs.drop 3), u.2 ≠ .late) ∧
      ((images env src fs s).map DocPoint.chunkIndex).Nodup) ∨
  ((src.userId = "" ∨ src.filePath = "") ∧ personalChunks src s = [] ∧ (src.userId = "" → sharedChunks src s = []))

theorem images_apart (hinj : Function.Injective env.uuid5) {x y : DocPoint} (hx : x ∈ images env src fs s)
    (hy : y ∈ images env src fs s) : x.id = y.id ↔ x.chunkIndex = y.chunkIndex := by
  obtain ⟨-, ix, hix, hxid⟩ := projects_of_written hx
  obtain ⟨-, jx, hjx, hyid⟩ := projects_of_written hy
  rw [hix, hjx, hxid, hyid]
  constructor
  · intro h
    rw [chunkProjectionId_injective hinj h]
  · intro h
    rw [Option.some.inj h]

theorem images_ids_nodup (hinj : Function.Injective env.uuid5) :
    ((images env src fs s).map DocPoint.id).Nodup ↔ ((images env src fs s).map DocPoint.chunkIndex).Nodup := by
  rw [List.Nodup, List.Nodup, List.pairwise_map, List.pairwise_map]
  exact List.Pairwise.iff_of_mem fun hx hy => not_congr (images_apart hinj hx hy)

/-! ## A run that returns -/

theorem projectFileRow_ok (h : (projectFileRow src .shared actor).runFates fs s = some (.ok row, t, rest)) :
    t.documents = s.documents ∧ rest = fs.tail := by
  unfold projectFileRow statementE at h
  obtain ⟨hrow, rfl⟩ := runFates_actE_ok h
  split at hrow <;> cases hrow
  exact ⟨rfl, rfl⟩

theorem projectFileChunks_ok (howner : src.userId ≠ "") (hpath : src.filePath ≠ "") {n : Nat × Nat}
    (h : (projectFileChunks env src .shared).runFates fs s = some (.ok n, t, rest)) :
    n.1 = returned (chunkUpserts env src (personalChunks src s) fs.tail) ∧
      n.1 + n.2 = (personalChunks src s).length ∧
      t.documents = Table.upsertAll DocPoint.id (written (chunkUpserts env src (personalChunks src s) fs.tail))
        s.documents := by
  rw [projectFileChunks, if_neg (by simp [howner, hpath])] at h
  obtain ⟨chunks, u, fs', hscroll, h⟩ := runFates_bind_ok h
  obtain ⟨rfl, hsame, rfl⟩ := runFates_act_ok hscroll
  subst u
  obtain ⟨failed, rest', hloop, hcount⟩ := @projectFileChunks_run env src
    (s.documents.filter (DocPoint.ofSource src.userId src.filePath)) (0, 0) fs.tail s
  have hpersonal : (s.documents.filter (DocPoint.ofSource src.userId src.filePath)).filter DocPoint.isPersonal =
      personalChunks src s := List.filter_filter
  rw [← chunkUpserts_filter, List.countP_eq_length_filter, hpersonal] at hcount
  rw [← chunkUpserts_filter, hpersonal] at hloop
  cases h.symm.trans hloop
  exact ⟨Nat.zero_add _, by simpa using hcount, rfl⟩

theorem personalChunks_cleared (h : t.documents = Table.deleteWhere (DocPoint.projects src.id src.userId .shared) s.documents) :
    personalChunks src t = personalChunks src s := by
  rw [personalChunks, h, Table.deleteWhere, List.filter_filter, personalChunks]
  refine List.filter_congr fun pt _ => ?_
  cases hscope : pt.isPersonal with
  | false => rfl
  | true =>
    have hpersonal : pt.scope = some .personal := by simpa [DocPoint.isPersonal] using hscope
    simp [DocPoint.projects, hpersonal]

/-- The store is cleared and mirrored; without an owner or a path nothing is mirrored, and without an owner the
old mirror stays. -/
theorem projectFileWithStatus_ok
    (h : (projectFileWithStatus env src .shared actor).execFates fs s = some (.ok (row, p, f), t)) :
    (src.userId ≠ "" ∧ src.filePath ≠ "" ∧ p = returned (chunkUpserts env src (personalChunks src s) (fs.drop 3)) ∧
      p + f = (personalChunks src s).length ∧ t.documents = Table.upsertAll DocPoint.id (images env src fs s)
        (Table.deleteWhere (DocPoint.projects src.id src.userId .shared) s.documents)) ∨
    ((src.userId = "" ∨ src.filePath = "") ∧ p = 0 ∧ f = 0 ∧ t.documents = if src.userId = "" then s.documents
      else Table.deleteWhere (DocPoint.projects src.id src.userId .shared) s.documents) := by
  rw [execFates_eq] at h
  obtain ⟨x, hrun, hx⟩ := Option.map_eq_some_iff.mp h
  obtain ⟨r, t', rest⟩ := x
  cases hx
  unfold projectFileWithStatus at hrun
  obtain ⟨u, s1, fs1, hvalid, hrun⟩ := runFates_bind_ok hrun
  cases hvalid
  split at hrun
  · cases hrun
  obtain ⟨row, s2, fs2, hrow, hrun⟩ := runFates_bind_ok hrun
  obtain ⟨hdocs, rfl⟩ := projectFileRow_ok hrow
  obtain ⟨u', s3, fs3, hclear, hrun⟩ := runFates_bind_ok hrun
  obtain ⟨n, s4, fs4, hmirror, hrun⟩ := runFates_bind_ok hrun
  cases hrun
  rw [if_pos rfl, unprojectFileChunks] at hclear
  by_cases howner : src.userId = ""
  · rw [if_pos howner] at hclear
    cases hclear
    rw [projectFileChunks, if_pos (.inr (.inl howner))] at hmirror
    cases hmirror
    exact .inr ⟨.inl howner, rfl, rfl, by rw [if_pos howner, hdocs]⟩
  · rw [if_neg howner] at hclear
    obtain ⟨rfl, rfl, rfl⟩ := runFates_act_ok hclear
    rw [hdocs] at hmirror
    by_cases hpath : src.filePath = ""
    · rw [projectFileChunks, if_pos (.inr (.inr hpath))] at hmirror
      cases hmirror
      exact .inr ⟨.inr hpath, rfl, rfl, by rw [if_neg howner]⟩
    · obtain ⟨hp, hcount, hdocs'⟩ := projectFileChunks_ok howner hpath hmirror
      have hfates : fs.tail.tail.tail = fs.drop 3 := by simp only [← List.drop_one, List.drop_drop]
      rw [personalChunks_cleared rfl, hfates] at hp hdocs'
      rw [personalChunks_cleared rfl] at hcount
      exact .inl ⟨howner, hpath, hp, hcount, hdocs'⟩

/-! ## Exactness -/

theorem returned_le_written (us : List (DocPoint × Fate)) : returned us ≤ (written us).length := by
  rw [returned, written, List.length_map, ← List.countP_eq_length_filter]
  refine List.countP_mono_left fun u _ hu => ?_
  obtain hu : u.2 = .ok := by simpa using hu
  simp [hu]

theorem returned_eq_written_iff {us : List (DocPoint × Fate)} :
    returned us = (written us).length ↔ ∀ u ∈ us, u.2 ≠ .late := by
  induction us with
  | nil => simp [returned, written]
  | cons u us ih =>
    have hle := returned_le_written us
    rw [List.forall_mem_cons, ← ih]
    obtain ⟨x, fate⟩ := u
    cases fate with
    | ok => simp [returned, written] at hle ⊢
    | lost => simp [returned, written] at hle ⊢
    | late =>
      simp [returned, written] at hle ⊢
      omega

/-- Publishing a document mirrors it exactly under the condition `Mirrorable`, whatever faults the run met. -/
theorem shared_mirrors (hinj : Function.Injective env.uuid5)
    (hrun : (projectFileWithStatus env src .shared actor).execFates fs s = some (.ok (row, p, f), t)) :
    Mirrors env src fs s t p f ↔ Mirrorable env src fs s := by
  have hapart : ∀ x ∈ images env src fs s, ∀ y ∈ images env src fs s, x.chunkIndex ≠ y.chunkIndex → x.id ≠ y.id :=
    fun x hx y hy h hid => h ((images_apart hinj hx hy).mp hid)
  obtain ⟨howner, hpath, hp, hcount, hdocs⟩ | ⟨hnone, rfl, rfl, hdocs⟩ := projectFileWithStatus_ok hrun
  · have hshared : sharedChunks src t = Table.upsertAll DocPoint.id (images env src fs s) [] := by
      have hprojects : ∀ x ∈ images env src fs s, x.projects src.id src.userId .shared = true := fun x hx =>
        (projects_of_written hx).1
      rw [sharedChunks, hdocs, Table.filter_upsertAll hprojects, Table.filter_deleteWhere_self]
    constructor
    · intro h
      refine .inl ⟨howner, hpath, returned_eq_written_iff.mp (hp.symm.trans h.projected), ?_⟩
      rw [← images_ids_nodup hinj, ← Table.upsertAll_perm_iff, ← hshared]
      exact h.shared
    · rintro (⟨-, -, hlate, hnodup⟩ | ⟨hnone, -⟩)
      · refine ⟨?_, hp.trans (returned_eq_written_iff.mpr hlate), hcount, hapart, ?_⟩
        · rw [hshared, Table.upsertAll_perm_iff, images_ids_nodup hinj]
          exact hnodup
        · intro pt hpt hids
          rw [hdocs, Table.mem_upsertAll_of_apart hids, Table.mem_deleteWhere]
          exact ⟨fun h => h.1, fun h => ⟨h, hpt⟩⟩
      · exact absurd hnone (by simp [howner, hpath])
  · constructor
    · intro h
      have hempty : personalChunks src s = [] := List.length_eq_zero_iff.mp h.counted.symm
      refine .inr ⟨hnone, hempty, fun howner => ?_⟩
      have himages : images env src fs s = [] := by rw [images, hempty]; rfl
      have hperm := h.shared
      rw [himages, sharedChunks, hdocs, if_pos howner] at hperm
      exact hperm.eq_nil
    · rintro (⟨howner, hpath, -⟩ | ⟨-, hempty, hold⟩)
      · exact absurd hnone (by simp [howner, hpath])
      · have himages : images env src fs s = [] := by rw [images, hempty]; rfl
        refine ⟨?_, by rw [himages]; rfl, by rw [hempty]; rfl, hapart, ?_⟩
        · rw [himages, sharedChunks, hdocs]
          split
          · rename_i howner
            exact .of_eq (hold howner)
          · rw [Table.filter_deleteWhere_self]
        · intro pt hpt _
          rw [hdocs]
          split
          · rfl
          · rw [Table.mem_deleteWhere]
            exact ⟨fun h => h.1, fun h => ⟨h, hpt⟩⟩

/-! ## Two chunks with one index -/

def mirrorFile : FileRow :=
  { id := 1, filePath := "a.txt", fileHash := "h", fileType := "txt", chunkCount := 1, ocrUsed := false,
    userId := "u", scope := .personal, publishedFrom := none }

def mirrorChunk (id text : String) : DocPoint :=
  { id := id, vector := some [], filePath := "a.txt", chunkIndex := some 0, text := some text, fileType := some "txt",
    userId := "u", scope := some .personal, publishedFrom := none, sectionHeader := none }

def mirrorStore (pts : List DocPoint) : Store :=
  { Store.empty with
    db := { Db.empty with fileIndex := [mirrorFile], fileIndexSeq := 2 }
    documents := pts }

/-- The row and the store that publishing to an empty mirror leaves. -/
def mirrorOf (pts : List DocPoint) (image : DocPoint) : Store :=
  { mirrorStore pts with
    db := { Db.empty with
      fileIndex := [mirrorFile, { mirrorFile with id := 2, scope := .shared, publishedFrom := some 1 }]
      fileIndexSeq := 3 }
    documents := pts ++ [image] }

theorem shared_mirrors_chunk : Mirrors (.plain .inprocess) mirrorFile [] (mirrorStore [mirrorChunk "x" "one"])
    (mirrorOf [mirrorChunk "x" "one"] (chunkProjection (.plain .inprocess) mirrorFile .shared 0 [] (mirrorChunk "x" "one"))) 1 0 :=
  (@shared_mirrors (.plain .inprocess) mirrorFile "u" _ _ { mirrorFile with id := 2, scope := .shared, publishedFrom := some 1 }
    1 0 [] Function.injective_id (by decide)).mpr (by unfold Mirrorable; decide)

theorem same_index_overwritten : ¬ ∀ (env : Env) (src row : FileRow) (actor : String) (fs : List Fate) (s t : Store)
    (p f : Nat), Function.Injective env.uuid5 →
      (projectFileWithStatus env src .shared actor).execFates fs s = some (.ok (row, p, f), t) →
        Mirrors env src fs s t p f := by
  intro h
  have hmirrors := h (.plain .inprocess) mirrorFile { mirrorFile with id := 2, scope := .shared, publishedFrom := some 1 } "u" []
    (mirrorStore [mirrorChunk "x" "one", mirrorChunk "y" "two"])
    (mirrorOf [mirrorChunk "x" "one", mirrorChunk "y" "two"]
      (chunkProjection (.plain .inprocess) mirrorFile .shared 0 [] (mirrorChunk "y" "two"))) 2 0 Function.injective_id (by decide)
  exact absurd hmirrors.shared.length_eq (by decide)

end Lumogis
