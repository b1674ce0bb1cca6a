import Lumogis.Visibility
import Mathlib.Data.List.Infix
import Mathlib.Data.List.Forall2

/-!
# SemanticSearch

`semantic_search`: the points of the `documents` collection that the user's filter accepts, and, when
none of them is found, the file names under the ingest roots.

For whom two worlds differ only in documents that the user cannot see (`Alike`), the search finds the
same as long as the names are not asked (`Shielded`); otherwise there is always a hidden document
that shows: `search_noninterference`.
-/

namespace Lumogis

/-! ## The world -/

structure SearchPoint where
  id : String
  payload : Payload

/-- A row of `file_index`, with its owner and scope. -/
structure FileIndexEntry where
  path : String
  item : Item

/-- A directory of the file system; a file's size is absent when `stat` fails. -/
inductive Folder where
  | mk (name : String) (files : List (String × Option Nat)) (folders : List Folder)

def Folder.name : Folder → String
  | .mk name _ _ => name

structure SearchWorld where
  points : List SearchPoint
  fileIndex : List FileIndexEntry
  /-- The ingest roots; no folder where the path is not a directory. -/
  roots : List (String × Option Folder)

structure FileEntry where
  path : String
  name : String
  size : Option Nat
  deriving DecidableEq

mutual

/-- `os.walk`, less the directories whose names begin with a dot. -/
def Folder.walk (dir : String) : Folder → List FileEntry
  | .mk _ files folders =>
    files.map (fun f => { path := dir ++ "/" ++ f.1, name := f.1, size := f.2 }) ++
      walkFolders dir folders

def walkFolders (dir : String) : List Folder → List FileEntry
  | [] => []
  | folder :: folders =>
    if folder.name.toList.head? = some '.' then walkFolders dir folders
    else folder.walk (dir ++ "/" ++ folder.name) ++ walkFolders dir folders

end

/-- The files under a root. -/
def walkRoot (root : String × Option Folder) : List FileEntry :=
  match root.2 with
  | none => []
  | some folder => folder.walk root.1

def SearchWorld.files (w : SearchWorld) : List FileEntry := w.roots.flatMap walkRoot

/-! ## The search -/

structure SearchHit (F : Type) where
  id : Option String
  score : F
  payload : Payload

structure RerankedHit (F : Type) where
  id : Option String
  text : String
  filePath : String
  score : F
  payload : Payload
  rerankScore : Option F

structure SearchResult (F : Type) where
  filePath : String
  score : F
  chunkText : String
  /-- `{}` where there is none. -/
  metadata : Payload
  pointId : Option String
  rerankScore : Option F

structure SearchEnv (F V : Type) where
  lower : String → String
  embed : String → V
  /-- The vector store's answer over the points that pass the filter. -/
  search : (points : List SearchPoint) → (vector : V) → (limit : Nat) → (sparseQuery : String) →
    List (SearchHit F)
  rerank : Option ((query : String) → (candidates : List (RerankedHit F)) → (limit : Int) →
    List (RerankedHit F))
  /-- `round(st_size / 1024)`. -/
  roundKb : Nat → Nat
  /-- `0.0`. -/
  zero : F

inductive SearchErr where
  | scope (e : InvalidScopeFilter)
  | filter (e : FilterErr)
  deriving DecidableEq

/-- A string of the payload, or `""`. -/
def Payload.text (payload : Payload) (key : String) : String :=
  match payload key with
  | .str s :: _ => s
  | _ => ""

/-- `l[:limit]`. -/
def sliceTo {α : Type} (limit : Int) (l : List α) : List α :=
  if 0 ≤ limit then l.take limit.toNat else l.take (l.length - (-limit).toNat)

structure FileHit where
  path : String
  name : String
  sizeKb : Nat

variable {F V : Type}

/-- The loop over the files; it returns as soon as the limit is reached. -/
def collectMatches (env : SearchEnv F V) (q : String) (limit : Nat) :
    List FileHit → List FileEntry → List FileHit
  | results, [] => results
  | results, f :: files =>
    if q.toList <:+: (env.lower f.name).toList then
      let results := results ++ [{ path := f.path, name := f.name
                                   sizeKb := (f.size.map env.roundKb).getD 0 }]
      if limit ≤ results.length then results else collectMatches env q limit results files
    else collectMatches env q limit results files

def fuzzyFilenameSearch (env : SearchEnv F V) (w : SearchWorld) (query : String) (limit : Nat) :
    List FileHit :=
  collectMatches env (env.lower query) limit [] w.files

def fuzzyToResults (env : SearchEnv F V) (hits : List FileHit) (limit : Int) : List (SearchResult F) :=
  (sliceTo limit hits).map fun h =>
    { filePath := h.path, score := env.zero
      chunkText := String.join ["File: ", h.name, " (", toString h.sizeKb, " KB)"]
      metadata := fun _ => [], pointId := none, rerankScore := none }

/-- The points that the filter of the search accepts. -/
def acceptedPoints (users : List UserRow) (w : SearchWorld) (userId : String)
    (scopeFilter : Option String) : Except SearchErr (List SearchPoint) :=
  match visibleQdrantFilter users ⟨userId, false, .admin, none⟩ scopeFilter with
  | .error e => .error (.scope e)
  | .ok d =>
    match buildFilter d with
    | .error e => .error (.filter e)
    | .ok condition => .ok (w.points.filter fun p => condition.accepts p.payload)

/-- What the search makes of the store's answer. -/
def searchResults (env : SearchEnv F V) (query : String) (limit : Int) (raw : List (SearchHit F)) :
    List (SearchResult F) :=
  match env.rerank with
  | some rerank =>
    (rerank query (raw.map fun r =>
      { id := r.id, text := r.payload.text "text", filePath := r.payload.text "file_path"
        score := r.score, payload := r.payload, rerankScore := none }) limit).map fun c =>
      { filePath := c.filePath, score := c.score, chunkText := c.text, metadata := c.payload
        pointId := c.id, rerankScore := c.rerankScore }
  | none =>
    (sliceTo limit raw).map fun r =>
      { filePath := r.payload.text "file_path", score := r.score, chunkText := r.payload.text "text"
        metadata := r.payload, pointId := r.id, rerankScore := none }

def semanticSearch (env : SearchEnv F V) (users : List UserRow) (w : SearchWorld) (query : String)
    (limit : Int) (userId : String) (scopeFilter : Option String) :
    Except SearchErr (List (SearchResult F)) :=
  match acceptedPoints users w userId scopeFilter with
  | .error e => .error e
  | .ok points =>
    match env.search points (env.embed query) 20 query with
    | [] => .ok (fuzzyToResults env (fuzzyFilenameSearch env w query 10) limit)
    | hit :: hits => .ok (searchResults env query limit (hit :: hits))

/-! ## The law and its condition -/

/-- The user's filter of `file_index` accepts the row. -/
def canSee (users : List UserRow) (userId : String) (item : Item) : Bool :=
  match visibleFilter users ⟨userId, false, .admin, none⟩ none with
  | .error _ => false
  | .ok f => decide (f.Accepts item)

/-- The file belongs to a document, and the user can see none of the document's rows. -/
def SearchWorld.hides (users : List UserRow) (userId : String) (w : SearchWorld) (f : FileEntry) : Bool :=
  w.fileIndex.any (fun row => row.path == f.path) &&
    w.fileIndex.all fun row => row.path != f.path || !canSee users userId row.item

def SearchWorld.shown (users : List UserRow) (userId : String) (w : SearchWorld)
    (root : String × Option Folder) : List FileEntry :=
  (walkRoot root).filter fun f => !w.hides users userId f

/-- The worlds differ only in documents that the user cannot see: in points that the filter rejects,
in rows of others and in the files of such rows. -/
structure Alike (users : List UserRow) (userId : String) (scopeFilter : Option String)
    (w w' : SearchWorld) : Prop where
  points : acceptedPoints users w' userId scopeFilter = acceptedPoints users w userId scopeFilter
  rows : w'.fileIndex.filter (fun row => canSee users userId row.item) =
    w.fileIndex.filter fun row => canSee users userId row.item
  roots : w'.roots.map (fun root => (root.1, root.2.isSome)) =
    w.roots.map fun root => (root.1, root.2.isSome)
  files : w'.roots.map (w'.shown users userId) = w.roots.map (w.shown users userId)

/-- No file name has a slash or a NUL. -/
def NamesLegal (w : SearchWorld) : Prop := ∀ f ∈ w.files, '/' ∉ f.name.toList ∧ '\x00' ∉ f.name.toList

/-- What the proofs use of `str.lower`. -/
structure LowerSpec (lower : String → String) : Prop where
  /-- A character that has no case ends a word for it. -/
  append : ∀ q pad : String, (lower q).toList <:+: (lower (q ++ "_" ++ pad)).toList
  slash : ∀ s : String, '/' ∈ (lower s).toList ↔ '/' ∈ s.toList
  nul : ∀ s : String, '\x00' ∈ (lower s).toList ↔ '\x00' ∈ s.toList

/-- The names are not asked, or they cannot show anything. -/
inductive Shielded (env : SearchEnv F V) (users : List UserRow) (w : SearchWorld) (query : String)
    (limit : Int) (userId : String) (scopeFilter : Option String) : Prop where
  /-- The scope filter is none of the three. -/
  | refused {e : SearchErr} (h : acceptedPoints users w userId scopeFilter = .error e)
  | found {points : List SearchPoint} (h : acceptedPoints users w userId scopeFilter = .ok points)
    (hits : env.search points (env.embed query) 20 query ≠ [])
  | noRoom (h : limit = 0 ∨ limit ≤ -10)
  | noRoot (h : ∀ root ∈ w.roots, root.2 = none)
  | noName (h : '/' ∈ query.toList ∨ '\x00' ∈ query.toList)

/-! ## The names -/

section Names

variable {env : SearchEnv F V} {users : List UserRow} {w w' : SearchWorld} {query userId : String}
  {limit : Int} {scopeFilter : Option String}

def nameMatches (env : SearchEnv F V) (q : String) (f : FileEntry) : Bool :=
  decide (q.toList <:+: (env.lower f.name).toList)

def fileHit (env : SearchEnv F V) (f : FileEntry) : FileHit :=
  { path := f.path, name := f.name, sizeKb := (f.size.map env.roundKb).getD 0 }

theorem collectMatches_eq {q : String} {n : Nat} {files : List FileEntry} {results : List FileHit}
    (h : results.length < n) : collectMatches env q n results files =
      (results ++ (files.filter (nameMatches env q)).map (fileHit env)).take n := by
  induction files generalizing results with
  | nil =>
    rw [collectMatches, List.filter_nil, List.map_nil, List.append_nil, List.take_of_length_le]
    omega
  | cons f files ih =>
    rw [collectMatches]
    by_cases hf : q.toList <:+: (env.lower f.name).toList
    · have hmatch : nameMatches env q f = true := decide_eq_true hf
      have happend : results ++ fileHit env f :: (files.filter (nameMatches env q)).map (fileHit env) =
          (results ++ [fileHit env f]) ++ (files.filter (nameMatches env q)).map (fileHit env) :=
        List.append_cons ..
      have hlength : (results ++ [fileHit env f]).length = results.length + 1 := by simp
      rw [if_pos hf, List.filter_cons_of_pos hmatch, List.map_cons, happend]
      show (if n ≤ (results ++ [fileHit env f]).length then results ++ [fileHit env f]
        else collectMatches env q n (results ++ [fileHit env f]) files) = _
      split
      · rename_i hfull
        rw [List.take_append_of_le_length hfull, List.take_of_length_le]
        rw [hlength]
        omega
      · rename_i hfull
        exact ih (Nat.not_le.mp hfull)
    · have hmatch : ¬ nameMatches env q f = true := fun hm => hf (of_decide_eq_true hm)
      rw [if_neg hf, List.filter_cons_of_neg hmatch]
      exact ih h

theorem fuzzyFilenameSearch_eq : fuzzyFilenameSearch env w query 10 =
    ((w.files.filter (nameMatches env (env.lower query))).map (fileHit env)).take 10 := by
  rw [fuzzyFilenameSearch, collectMatches_eq (by simp), List.nil_append]

theorem mem_of_mem_sliceTo {α : Type} {n : Int} {a : α} {l : List α} (h : a ∈ sliceTo n l) : a ∈ l := by
  rw [sliceTo] at h
  split at h
  · exact List.mem_of_mem_take h
  · exact List.mem_of_mem_take h

theorem sliceTo_eq_nil {α : Type} {n : Int} {l : List α} (hl : l.length ≤ 10) (hn : n = 0 ∨ n ≤ -10) :
    sliceTo n l = [] := by
  rw [sliceTo]
  rcases hn with rfl | hn
  · rfl
  · rw [if_neg (by omega)]
    have hzero : l.length - (-n).toNat = 0 := by omega
    rw [hzero, List.take_zero]

theorem sliceTo_ne_nil {α : Type} {n : Int} {l : List α} (hl : l.length = 10) (hn : ¬(n = 0 ∨ n ≤ -10)) :
    sliceTo n l ≠ [] := by
  intro hnil
  have hlength := congrArg List.length hnil
  rw [sliceTo] at hlength
  split at hlength
  · rw [List.length_take, hl, List.length_nil] at hlength
    omega
  · rw [List.length_take, hl, List.length_nil] at hlength
    omega

theorem semanticSearch_fallback {points : List SearchPoint}
    (hpoints : acceptedPoints users w userId scopeFilter = .ok points)
    (hnone : env.search points (env.embed query) 20 query = []) :
    semanticSearch env users w query limit userId scopeFilter =
      .ok (fuzzyToResults env (fuzzyFilenameSearch env w query 10) limit) := by
  rw [semanticSearch, hpoints]
  simp only [hnone]

/-! ## A shielded search -/

theorem files_eq_nil (h : ∀ root ∈ w.roots, root.2 = none) : w.files = [] := by
  rw [SearchWorld.files, List.flatMap_eq_nil_iff]
  intro root hroot
  rw [walkRoot, h root hroot]

theorem Alike.noRoot (h : Alike users userId scopeFilter w w') (hw : ∀ root ∈ w.roots, root.2 = none) :
    ∀ root ∈ w'.roots, root.2 = none := by
  intro root hroot
  have hmem : (root.1, root.2.isSome) ∈ w.roots.map fun root => (root.1, root.2.isSome) := by
    rw [← h.roots]
    exact List.mem_map_of_mem hroot
  obtain ⟨root', hroot', heq⟩ := List.mem_map.mp hmem
  have hsome : root.2.isSome = false := by
    have hsame : root'.2.isSome = root.2.isSome := (Prod.ext_iff.mp heq).2
    rw [← hsame, hw root' hroot']
    rfl
  simpa using hsome

theorem no_match (hlower : LowerSpec env.lower) (hlegal : NamesLegal w)
    (hquery : '/' ∈ query.toList ∨ '\x00' ∈ query.toList) : fuzzyFilenameSearch env w query 10 = [] := by
  have hnone : w.files.filter (nameMatches env (env.lower query)) = [] := by
    rw [List.filter_eq_nil_iff]
    intro f hf hmatch
    have hpart : (env.lower query).toList <:+: (env.lower f.name).toList := of_decide_eq_true hmatch
    obtain ⟨hslash, hnul⟩ := hlegal f hf
    rcases hquery with hq | hq
    · exact hslash ((hlower.slash f.name).mp (hpart.subset ((hlower.slash query).mpr hq)))
    · exact hnul ((hlower.nul f.name).mp (hpart.subset ((hlower.nul query).mpr hq)))
  rw [fuzzyFilenameSearch_eq, hnone]
  rfl

theorem Shielded.same (hlower : LowerSpec env.lower) (hlegal : NamesLegal w) (hlegal' : NamesLegal w')
    (halike : Alike users userId scopeFilter w w')
    (h : Shielded env users w query limit userId scopeFilter) :
    semanticSearch env users w' query limit userId scopeFilter =
      semanticSearch env users w query limit userId scopeFilter := by
  have hpoints := halike.points
  cases hacc : acceptedPoints users w userId scopeFilter with
  | error e => simp only [semanticSearch, hpoints, hacc]
  | ok points =>
    rw [hacc] at hpoints
    cases hraw : env.search points (env.embed query) 20 query with
    | cons hit hits => simp only [semanticSearch, hpoints, hacc, hraw]
    | nil =>
      rw [semanticSearch_fallback hpoints hraw, semanticSearch_fallback hacc hraw]
      congr 1
      cases h with
      | refused he =>
        rw [hacc] at he
        cases he
      | found hp hits =>
        rw [hacc] at hp
        cases hp
        exact absurd hraw hits
      | noRoom hroom =>
        have hlength : ∀ w : SearchWorld, (fuzzyFilenameSearch env w query 10).length ≤ 10 := by
          intro w
          rw [fuzzyFilenameSearch_eq, List.length_take]
          omega
        rw [fuzzyToResults, fuzzyToResults, sliceTo_eq_nil (hlength w') hroom,
          sliceTo_eq_nil (hlength w) hroom]
      | noRoot hroot =>
        rw [fuzzyFilenameSearch_eq, fuzzyFilenameSearch_eq, files_eq_nil hroot,
          files_eq_nil (halike.noRoot hroot)]
      | noName hquery => rw [no_match hlower hlegal hquery, no_match hlower hlegal' hquery]

/-! ## A hidden document that shows -/

def padding (n : Nat) : String := String.ofList (List.replicate n 'x')

/-- Ten files whose names contain the query. -/
def plantedFiles (query : String) (n : Nat) : List (String × Option Nat) :=
  (List.range 10).map fun k => (query ++ "_" ++ padding (n + k), none)

def plantedEntries (dir query : String) (n : Nat) : List FileEntry :=
  (plantedFiles query n).map fun f => { path := dir ++ "/" ++ f.1, name := f.1, size := f.2 }

/-- The row of a document of another user. -/
def plantedRow (userId : String) (f : FileEntry) : FileIndexEntry :=
  { path := f.path, item := ⟨some (userId ++ "'"), some "personal", fun _ => []⟩ }

/-- The files come first in a root. -/
def planted (userId query : String) (n : Nat) (w : SearchWorld) (pre : List (String × Option Folder))
    (dir name : String) (files : List (String × Option Nat)) (folders : List Folder)
    (rest : List (String × Option Folder)) : SearchWorld :=
  { points := w.points
    fileIndex := w.fileIndex ++ (plantedEntries dir query n).map (plantedRow userId)
    roots := pre ++ (dir, some (.mk name (plantedFiles query n ++ files) folders)) :: rest }

theorem exists_longer (l : List String) : ∃ n, ∀ s ∈ l, s.length < n := by
  induction l with
  | nil => exact ⟨0, fun s hs => by cases hs⟩
  | cons s l ih =>
    obtain ⟨n, hn⟩ := ih
    refine ⟨n + s.length + 1, fun t ht => ?_⟩
    rcases List.mem_cons.mp ht with rfl | ht
    · omega
    · have := hn t ht
      omega

theorem plantedEntries_path {dir : String} {n : Nat} {e : FileEntry} {l : List String}
    (hn : ∀ s ∈ l, s.length < n) (he : e ∈ plantedEntries dir query n) : e.path ∉ l := by
  intro hmem
  obtain ⟨f, hf, rfl⟩ := List.mem_map.mp he
  obtain ⟨k, -, rfl⟩ := List.mem_map.mp hf
  have hlength := hn _ hmem
  simp only [padding, String.length_append, String.length_ofList, List.length_replicate] at hlength
  omega

theorem canSee_planted (e : FileEntry) : canSee users userId (plantedRow userId e).item = false := by
  have hvalid : validateScopeFilter none = .ok none := rfl
  obtain ⟨f, hf, haccepts⟩ := visibleFilter_accepts ⟨userId, false, .admin, none⟩ hvalid
  rw [canSee, hf]
  refine decide_eq_false fun h => ?_
  rw [haccepts, visible_none] at h
  have hother : userId ++ "'" ≠ userId := by
    intro heq
    have hlength := congrArg String.length heq
    rw [String.length_append] at hlength
    simp at hlength
  rcases h with ⟨-, h⟩ | ⟨h, -⟩ | h
  · exact hother (Option.some.inj h)
  · exact absurd (Option.some.inj h) (by decide)
  · exact absurd (Option.some.inj h) (by decide)

section Planted

variable {n : Nat} {pre rest : List (String × Option Folder)} {dir name : String}
  {files : List (String × Option Nat)} {folders : List Folder}

theorem planted_hides {f : FileEntry} (hf : ∀ e ∈ plantedEntries dir query n, e.path ≠ f.path) :
    (planted userId query n w pre dir name files folders rest).hides users userId f =
      w.hides users userId f := by
  have hany : ((plantedEntries dir query n).map (plantedRow userId)).any
      (fun row => row.path == f.path) = false := by
    rw [List.any_eq_false]
    intro row hrow
    obtain ⟨e, he, rfl⟩ := List.mem_map.mp hrow
    simpa [plantedRow] using hf e he
  have hall : (((plantedEntries dir query n).map (plantedRow userId)).all
      fun row => row.path != f.path || !canSee users userId row.item) = true := by
    rw [List.all_eq_true]
    intro row hrow
    obtain ⟨e, he, rfl⟩ := List.mem_map.mp hrow
    simp [canSee_planted]
  rw [SearchWorld.hides, SearchWorld.hides, planted, List.any_append, List.all_append, hany, hall,
    Bool.or_false, Bool.and_true]

theorem planted_hidden {e : FileEntry} (hfresh : e.path ∉ w.fileIndex.map FileIndexEntry.path)
    (he : e ∈ plantedEntries dir query n) :
    (planted userId query n w pre dir name files folders rest).hides users userId e = true := by
  rw [SearchWorld.hides, Bool.and_eq_true, List.any_eq_true, List.all_eq_true]
  constructor
  · exact ⟨plantedRow userId e, List.mem_append_right _ (List.mem_map_of_mem he), by simp [plantedRow]⟩
  · intro row hrow
    rcases List.mem_append.mp hrow with hrow | hrow
    · have hne : row.path ≠ e.path := by
        intro heq
        exact hfresh (heq ▸ List.mem_map_of_mem hrow)
      simp [hne]
    · obtain ⟨e', -, rfl⟩ := List.mem_map.mp hrow
      simp [canSee_planted]

theorem walk_planted : walkRoot (dir, some (.mk name (plantedFiles query n ++ files) folders)) =
    plantedEntries dir query n ++ walkRoot (dir, some (.mk name files folders)) := by
  simp only [walkRoot, Folder.walk, List.map_append, List.append_assoc, plantedEntries]

theorem planted_alike (hroots : w.roots = pre ++ (dir, some (.mk name files folders)) :: rest)
    (hn : ∀ s ∈ w.fileIndex.map FileIndexEntry.path ++ w.files.map FileEntry.path, s.length < n) :
    Alike users userId scopeFilter w (planted userId query n w pre dir name files folders rest) := by
  have hfresh : ∀ f ∈ w.files, ∀ e ∈ plantedEntries dir query n, e.path ≠ f.path := by
    intro f hf e he heq
    exact plantedEntries_path hn he (List.mem_append_right _ (heq ▸ List.mem_map_of_mem hf))
  have hshown : ∀ root ∈ w.roots,
      (planted userId query n w pre dir name files folders rest).shown users userId root =
        w.shown users userId root := by
    intro root hroot
    refine List.filter_congr fun f hf => ?_
    rw [planted_hides (hfresh f (List.mem_flatMap.mpr ⟨root, hroot, hf⟩))]
  have hroot : (planted userId query n w pre dir name files folders rest).shown users userId
      (dir, some (.mk name (plantedFiles query n ++ files) folders)) =
        w.shown users userId (dir, some (.mk name files folders)) := by
    rw [← hshown _ (hroots ▸ List.mem_append_right pre List.mem_cons_self), SearchWorld.shown,
      SearchWorld.shown, walk_planted, List.filter_append]
    have hnone : (plantedEntries dir query n).filter (fun f =>
        !(planted userId query n w pre dir name files folders rest).hides users userId f) = [] := by
      rw [List.filter_eq_nil_iff]
      intro e he
      rw [planted_hidden (fun hmem => plantedEntries_path hn he (List.mem_append_left _ hmem)) he]
      simp
    rw [hnone, List.nil_append]
  refine ⟨rfl, ?_, ?_, ?_⟩
  · have hnone : ((plantedEntries dir query n).map (plantedRow userId)).filter
        (fun row => canSee users userId row.item) = [] := by
      rw [List.filter_eq_nil_iff]
      intro row hrow
      obtain ⟨e, -, rfl⟩ := List.mem_map.mp hrow
      simp [canSee_planted]
    rw [planted, List.filter_append, hnone, List.append_nil]
  · rw [hroots]
    simp [planted]
  · have hmap : ∀ roots : List (String × Option Folder), (∀ root ∈ roots, root ∈ w.roots) →
        roots.map ((planted userId query n w pre dir name files folders rest).shown users userId) =
          roots.map (w.shown users userId) :=
      fun roots hsub => List.map_congr_left fun root hmem => hshown root (hsub root hmem)
    have hpre := hmap pre fun root hmem => hroots ▸ List.mem_append_left _ hmem
    have hrest := hmap rest fun root hmem =>
      hroots ▸ List.mem_append_right _ (List.mem_cons_of_mem _ hmem)
    rw [hroots, List.map_append, List.map_cons, ← hpre, ← hrest, ← hroot]
    simp only [planted, List.map_append, List.map_cons]

theorem planted_files (hroots : w.roots = pre ++ (dir, some (.mk name files folders)) :: rest)
    (hpre : ∀ root ∈ pre, root.2 = none) :
    (planted userId query n w pre dir name files folders rest).files =
      plantedEntries dir query n ++ w.files := by
  have hnone : pre.flatMap walkRoot = [] := by
    rw [List.flatMap_eq_nil_iff]
    intro root hroot
    rw [walkRoot, hpre root hroot]
  rw [SearchWorld.files, SearchWorld.files, hroots, planted]
  simp only [List.flatMap_append, List.flatMap_cons, hnone, List.nil_append, walk_planted,
    List.append_assoc]

theorem planted_legal (hroots : w.roots = pre ++ (dir, some (.mk name files folders)) :: rest)
    (hpre : ∀ root ∈ pre, root.2 = none) (hlegal : NamesLegal w)
    (hquery : ¬('/' ∈ query.toList ∨ '\x00' ∈ query.toList)) :
    NamesLegal (planted userId query n w pre dir name files folders rest) := by
  intro f hf
  rw [planted_files hroots hpre] at hf
  rcases List.mem_append.mp hf with hf | hf
  · obtain ⟨g, hg, rfl⟩ := List.mem_map.mp hf
    obtain ⟨k, -, rfl⟩ := List.mem_map.mp hg
    rw [not_or] at hquery
    simp [padding, hquery.1, hquery.2, List.mem_replicate]
  · exact hlegal f hf

theorem planted_hits (hlower : LowerSpec env.lower)
    (hroots : w.roots = pre ++ (dir, some (.mk name files folders)) :: rest)
    (hpre : ∀ root ∈ pre, root.2 = none) :
    fuzzyFilenameSearch env (planted userId query n w pre dir name files folders rest) query 10 =
      (plantedEntries dir query n).map (fileHit env) := by
  have hmatch : (plantedEntries dir query n).filter (nameMatches env (env.lower query)) =
      plantedEntries dir query n := by
    rw [List.filter_eq_self]
    intro f hf
    obtain ⟨g, hg, rfl⟩ := List.mem_map.mp hf
    obtain ⟨k, -, rfl⟩ := List.mem_map.mp hg
    exact decide_eq_true (hlower.append query (padding (n + k)))
  have hlength : ((plantedEntries dir query n).map (fileHit env)).length = 10 := by
    simp [plantedEntries, plantedFiles]
  rw [fuzzyFilenameSearch_eq, planted_files hroots hpre, List.filter_append, hmatch, List.map_append,
    List.take_append_of_le_length (by rw [hlength]), List.take_of_length_le (by rw [hlength])]

end Planted

theorem first_folder {roots : List (String × Option Folder)} (h : ¬ ∀ root ∈ roots, root.2 = none) :
    ∃ pre dir folder rest, roots = pre ++ (dir, some folder) :: rest ∧ ∀ root ∈ pre, root.2 = none := by
  induction roots with
  | nil => exact absurd (fun root hroot => by cases hroot) h
  | cons root roots ih =>
    obtain ⟨dir, folder⟩ := root
    cases folder with
    | some folder => exact ⟨[], dir, folder, roots, rfl, fun root hroot => by cases hroot⟩
    | none =>
      have hrest : ¬ ∀ root ∈ roots, root.2 = none := by
        intro hall
        refine h fun root hroot => ?_
        rcases List.mem_cons.mp hroot with rfl | hroot
        · rfl
        · exact hall root hroot
      obtain ⟨pre, dir', folder, rest, rfl, hpre⟩ := ih hrest
      refine ⟨(dir, none) :: pre, dir', folder, rest, rfl, fun root hroot => ?_⟩
      rcases List.mem_cons.mp hroot with rfl | hroot
      · rfl
      · exact hpre root hroot

/-- The search finds the same in all worlds that differ only in what the user cannot see exactly when
it is shielded from the names. -/
theorem search_noninterference (hlower : LowerSpec env.lower) (hlegal : NamesLegal w) :
    (∀ w', NamesLegal w' → Alike users userId scopeFilter w w' →
      semanticSearch env users w' query limit userId scopeFilter =
        semanticSearch env users w query limit userId scopeFilter) ↔
      Shielded env users w query limit userId scopeFilter := by
  constructor
  · intro hsame
    by_contra hopen
    have hroot : ¬ ∀ root ∈ w.roots, root.2 = none := fun h => hopen (.noRoot h)
    have hquery : ¬('/' ∈ query.toList ∨ '\x00' ∈ query.toList) := fun h => hopen (.noName h)
    obtain ⟨pre, dir, ⟨name, files, folders⟩, rest, hroots, hpre⟩ := first_folder hroot
    obtain ⟨n, hn⟩ := exists_longer (w.fileIndex.map FileIndexEntry.path ++ w.files.map FileEntry.path)
    have halike : Alike users userId scopeFilter w
        (planted userId query n w pre dir name files folders rest) := planted_alike hroots hn
    have heq := hsame _ (planted_legal hroots hpre hlegal hquery) halike
    cases hacc : acceptedPoints users w userId scopeFilter with
    | error e => exact hopen (.refused hacc)
    | ok points =>
      have hraw : env.search points (env.embed query) 20 query = [] := by
        by_contra hits
        exact hopen (.found hacc hits)
      rw [semanticSearch_fallback (halike.points.trans hacc) hraw,
        semanticSearch_fallback hacc hraw, planted_hits hlower hroots hpre] at heq
      have hpaths := congrArg (List.map SearchResult.filePath) (Except.ok.inj heq)
      -- a planted path among the results of the other world
      have hlength : ((plantedEntries dir query n).map (fileHit env)).length = 10 := by
        simp [plantedEntries, plantedFiles]
      obtain ⟨hit, hhit⟩ := List.exists_mem_of_ne_nil _
        (sliceTo_ne_nil hlength fun hroom => hopen (.noRoom hroom))
      have hmem : hit.path ∈ (fuzzyToResults env (fuzzyFilenameSearch env w query 10) limit).map
          SearchResult.filePath := by
        rw [← hpaths, fuzzyToResults, List.map_map]
        exact List.mem_map_of_mem (f := fun h : FileHit => h.path) hhit
      rw [fuzzyToResults, List.map_map] at hmem
      obtain ⟨hit', hhit', hpath⟩ := List.mem_map.mp hmem
      have hw := mem_of_mem_sliceTo hhit'
      rw [fuzzyFilenameSearch_eq] at hw
      obtain ⟨f, hf, rfl⟩ := List.mem_map.mp (List.mem_of_mem_take hw)
      obtain ⟨e, he, rfl⟩ := List.mem_map.mp (mem_of_mem_sliceTo hhit)
      refine plantedEntries_path hn he (List.mem_append_right _ ?_)
      have hpath' : f.path = e.path := hpath
      exact hpath' ▸ List.mem_map_of_mem (List.mem_filter.mp hf).1
  · intro h w' hlegal' halike
    exact h.same hlower hlegal hlegal' halike

end Names

namespace SearchExample

/-- A store that finds nothing. -/
def emptyStore : SearchEnv Nat Unit :=
  { lower := id, embed := fun _ => (), search := fun _ _ _ _ => [], rerank := none
    roundKb := fun size => size / 1024, zero := 0 }

/-- One file under the one root, and no document. -/
def bare : SearchWorld :=
  { points := [], fileIndex := []
    roots := [("/data", some (.mk "data" [("readme.txt", some 2048)] []))] }

/-- Bob's private file beside it. -/
def withBobs : SearchWorld :=
  { points := [], fileIndex := [⟨"/data/salary-bob.pdf", ⟨some "bob", some "personal", fun _ => []⟩⟩]
    roots := [("/data", some (.mk "data" [("salary-bob.pdf", some 4096), ("readme.txt", some 2048)] []))] }

theorem lowerSpec_id : LowerSpec id where
  append q pad := by
    simp only [id, String.toList_append, List.append_assoc]
    exact List.infix_append' [] _ _
  slash _ := Iff.rfl
  nul _ := Iff.rfl

theorem bare_legal : NamesLegal bare := by
  unfold NamesLegal
  decide

end SearchExample

section Examples

open SearchExample

/-- No file name contains the query. -/
theorem search_noninterference_slash : '/' ∈ "a/b".toList ∧ ∀ w', NamesLegal w' → Alike [] "alice" none bare w' →
    semanticSearch emptyStore [] w' "a/b" 5 "alice" none =
      semanticSearch emptyStore [] bare "a/b" 5 "alice" none := by
  have hslash : '/' ∈ "a/b".toList := by decide
  exact ⟨hslash, (search_noninterference lowerSpec_id bare_legal).mpr (.noName (.inl hslash))⟩

/-- Alice is shown the name of bob's private file. -/
theorem filename_fallback_leaks : Alike [] "alice" none bare withBobs ∧
    (semanticSearch emptyStore [] withBobs "salary" 5 "alice" none).map (·.map SearchResult.filePath) =
      .ok ["/data/salary-bob.pdf"] ∧
    (semanticSearch emptyStore [] bare "salary" 5 "alice" none).map (·.map SearchResult.filePath) =
      .ok [] := by
  refine ⟨⟨rfl, rfl, rfl, by decide +kernel⟩, by decide +kernel, by decide +kernel⟩

end Examples

end Lumogis
