import Lumogis.ContextInjection
import Lumogis.SemanticSearch

/-!
# ContextBuild

`context_build`: the texts of the document hits and the summaries of the session hits, joined and cut to
the budget, and the names of what they come from. A hit of the search is read under `text`, `summary`,
`source` and `document_id`, which it does not have, so no document gets into the context
(`addDocument_ignored`); and the sources are collected before the cut. The context is as it should be
exactly if no document hit has text, or there is no room for any and nothing else, and every session has a
summary that begins before the cut (`context_build_delivers_iff`).
-/

namespace Lumogis.ContextBuild

variable {F E E' : Type}

/-! ## The code -/

/-- `getattr(hit, name, None)` of a text; a hit has no other texts. -/
def textAttr (hit : SearchResult F) (name : String) : Option Text :=
  match name with
  | "file_path" => some hit.filePath.toList
  | "chunk_text" => some hit.chunkText.toList
  | "point_id" => hit.pointId.map String.toList
  | _ => none

/-- `first or second`. -/
def orElse (first second : Option Text) : Option Text := if first.getD [] = [] then second else first

/-- What a source is the name of; no function reads the difference. -/
inductive SourceName where
  | document (path : Text)
  | session (id : Text)

def SourceName.text : SourceName → Text
  | .document path => path
  | .session id => "session:".toList ++ id

/-- The texts of the sources are `seen_sources`. -/
structure BuildState where
  chunks : List Text := []
  sources : List SourceName := []

def addSource (st : BuildState) (name : SourceName) : BuildState :=
  if (st.sources.map SourceName.text).contains name.text then st else { st with sources := st.sources ++ [name] }

def addChunk (st : BuildState) (chunk : Text) : BuildState := { st with chunks := st.chunks ++ [chunk] }

/-- A round of the loop over the document hits. -/
def addDocument (st : BuildState) (hit : SearchResult F) : BuildState :=
  let text := (orElse (textAttr hit "text") (textAttr hit "summary")).getD []
  let st := if text = [] then st else addChunk st text
  let src := (orElse (textAttr hit "source") (textAttr hit "document_id")).getD []
  if src = [] then st else addSource st (.document src)

def sessionChunk (hit : SessionHit) : Text := "[session ".toList ++ hit.sessionId ++ "] ".toList ++ hit.summary

/-- A round of the loop over the session hits. -/
def addSession (st : BuildState) (hit : SessionHit) : BuildState :=
  let st := if hit.summary = [] then st else addChunk st (sessionChunk hit)
  addSource st (.session hit.sessionId)

structure BuiltContext where
  context : Text
  sources : List SourceName

/-- What a retrieval found; nothing if it raised. -/
def found {H : Type} : Except E (List H) → List H
  | .ok hits => hits
  | .error _ => []

def contextBuild (search : Except E (List (SearchResult F))) (retrieve : Except E' (List SessionHit))
    (maxTokens : Int) : BuiltContext :=
  let st := (found retrieve).foldl addSession ((found search).foldl addDocument {})
  { context := truncateTextAt (separator.intercalate st.chunks) maxTokens, sources := st.sources }

/-! ## The context that is to be delivered -/

/-- A text and what it comes from. -/
structure Piece where
  name : SourceName
  text : Text

def joinPieces (pieces : List Piece) : Text := separator.intercalate (pieces.map Piece.text)

def documentPieces (docs : List (SearchResult F)) : List Piece :=
  (docs.filter fun hit => hit.chunkText.toList ≠ []).map fun hit =>
    { name := .document hit.filePath.toList, text := hit.chunkText.toList }

def sessionPieces (sessions : List SessionHit) : List Piece :=
  (sessions.filter fun hit => hit.summary ≠ []).map fun hit =>
    { name := .session hit.sessionId, text := sessionChunk hit }

/-- The place of the piece after these. -/
def startAfter (before : List Piece) : Nat := (before.flatMap fun p => p.text ++ separator).length

/-- A piece of this name begins among the first `len` characters. -/
def Shows (pieces : List Piece) (len : Nat) (name : SourceName) : Prop :=
  ∃ before p after, pieces = before ++ p :: after ∧ p.name = name ∧ startAfter before < len

structure Delivered (docs : List (SearchResult F)) (sessions : List SessionHit) (maxTokens : Int)
    (out : BuiltContext) : Prop where
  context : out.context = truncateTextAt (joinPieces (documentPieces docs ++ sessionPieces sessions)) maxTokens
  apart : out.sources.Nodup
  named : ∀ name, name ∈ out.sources ↔
    Shows (documentPieces docs ++ sessionPieces sessions) out.context.length name

/-- No document hit has text, or there is no session hit and the budget leaves nothing of the documents; and
each session has a summary that begins within what the budget leaves of the sessions. -/
def Reaches (docs : List (SearchResult F)) (sessions : List SessionHit) (maxTokens : Int) : Prop :=
  (documentPieces docs ≠ [] → sessions = [] ∧ truncateTextAt (joinPieces (documentPieces docs)) maxTokens = []) ∧
    ∀ hit ∈ sessions, Shows (sessionPieces sessions)
      (truncateTextAt (joinPieces (sessionPieces sessions)) maxTokens).length (.session hit.sessionId)

/-! ## What the code does -/

theorem addDocument_ignored (st : BuildState) (hit : SearchResult F) : addDocument st hit = st := rfl

theorem addDocuments_ignored (docs : List (SearchResult F)) (st : BuildState) : docs.foldl addDocument st = st := by
  induction docs with
  | nil => rfl
  | cons hit docs ih => rw [List.foldl_cons, addDocument_ignored, ih]

/-- All sources are sessions, and each once. -/
structure SessionsOnly (st : BuildState) : Prop where
  nodup : st.sources.Nodup
  only : ∀ name ∈ st.sources, ∃ id, name = .session id

theorem session_text_mem {st : BuildState} (h : SessionsOnly st) (id : Text) :
    (SourceName.session id).text ∈ st.sources.map SourceName.text ↔ SourceName.session id ∈ st.sources := by
  constructor
  · intro hmem
    obtain ⟨name, hname, htext⟩ := List.mem_map.mp hmem
    obtain ⟨id', rfl⟩ := h.only name hname
    have hid : id' = id := List.append_cancel_left htext
    rwa [← hid]
  · exact List.mem_map_of_mem

@[simp] theorem addSource_chunks (st : BuildState) (name : SourceName) : (addSource st name).chunks = st.chunks := by
  rw [addSource]
  split <;> rfl

theorem addSession_chunks (st : BuildState) (hit : SessionHit) :
    (addSession st hit).chunks = st.chunks ++ (sessionPieces [hit]).map Piece.text := by
  simp only [addSession, addSource_chunks]
  by_cases hsummary : hit.summary = []
  · simp [sessionPieces, hsummary]
  · simp [sessionPieces, hsummary, addChunk]

theorem addSource_session {st : BuildState} (h : SessionsOnly st) (id : Text) :
    SessionsOnly (addSource st (.session id)) ∧
      ∀ name, name ∈ (addSource st (.session id)).sources ↔ name ∈ st.sources ∨ name = .session id := by
  rw [addSource]
  split
  · rename_i hseen
    rw [List.contains_iff_mem, session_text_mem h] at hseen
    refine ⟨h, ?_⟩
    intro name
    constructor
    · exact Or.inl
    · rintro (hname | rfl)
      · exact hname
      · exact hseen
  · rename_i hnew
    rw [List.contains_iff_mem, session_text_mem h] at hnew
    refine ⟨⟨?_, ?_⟩, ?_⟩
    · exact h.nodup.append (List.nodup_singleton _) (by simpa using hnew)
    · intro name hname
      rcases List.mem_append.mp hname with hname | hname
      · exact h.only name hname
      · exact ⟨id, List.mem_singleton.mp hname⟩
    · intro name
      rw [List.mem_append, List.mem_singleton]

theorem addSession_sources {st : BuildState} (h : SessionsOnly st) (hit : SessionHit) :
    SessionsOnly (addSession st hit) ∧
      ∀ name, name ∈ (addSession st hit).sources ↔ name ∈ st.sources ∨ name = .session hit.sessionId := by
  have hchunk : ∀ chunk, SessionsOnly (addChunk st chunk) := fun chunk => ⟨h.nodup, h.only⟩
  simp only [addSession]
  split
  · exact addSource_session h hit.sessionId
  · exact addSource_session (hchunk _) hit.sessionId

theorem addSessions (sessions : List SessionHit) :
    ∀ st, SessionsOnly st →
      (sessions.foldl addSession st).chunks = st.chunks ++ (sessionPieces sessions).map Piece.text ∧
        SessionsOnly (sessions.foldl addSession st) ∧
        ∀ name, name ∈ (sessions.foldl addSession st).sources ↔
          name ∈ st.sources ∨ ∃ hit ∈ sessions, name = .session hit.sessionId := by
  induction sessions with
  | nil =>
    intro st h
    exact ⟨by simp [sessionPieces], h, by simp⟩
  | cons hit sessions ih =>
    intro st h
    obtain ⟨honly, hmem⟩ := addSession_sources h hit
    obtain ⟨hchunks, honly', hmem'⟩ := ih (addSession st hit) honly
    have hpieces : sessionPieces (hit :: sessions) = sessionPieces [hit] ++ sessionPieces sessions := by
      simp only [sessionPieces, ← List.map_append, ← List.filter_append, List.singleton_append]
    refine ⟨?_, honly', ?_⟩
    · rw [List.foldl_cons, hchunks, addSession_chunks, hpieces, List.map_append, List.append_assoc]
    · intro name
      rw [List.foldl_cons, hmem', hmem, or_assoc]
      simp

theorem contextBuild_eq (search : Except E (List (SearchResult F))) (retrieve : Except E' (List SessionHit))
    (maxTokens : Int) :
    (contextBuild search retrieve maxTokens).context
        = truncateTextAt (joinPieces (sessionPieces (found retrieve))) maxTokens ∧
      (contextBuild search retrieve maxTokens).sources.Nodup ∧
      ∀ name, name ∈ (contextBuild search retrieve maxTokens).sources ↔
        ∃ hit ∈ found retrieve, name = .session hit.sessionId := by
  have hempty : SessionsOnly {} := ⟨List.nodup_nil, by simp⟩
  obtain ⟨hchunks, honly, hmem⟩ := addSessions (found retrieve) {} hempty
  simp only [contextBuild, addDocuments_ignored]
  refine ⟨?_, honly.nodup, ?_⟩
  · rw [hchunks, joinPieces]
    rfl
  · intro name
    rw [hmem]
    simp

/-! ## When it delivers -/

theorem shows_first {p : Piece} {pieces : List Piece} {len : Nat} (h : 0 < len) :
    Shows (p :: pieces) len p.name := ⟨[], p, pieces, rfl, rfl, h⟩

theorem not_shows_zero (pieces : List Piece) (name : SourceName) : ¬ Shows pieces 0 name := by
  rintro ⟨before, p, after, -, -, hlt⟩
  omega

theorem Shows.session {sessions : List SessionHit} {len : Nat} {name : SourceName}
    (h : Shows (sessionPieces sessions) len name) : ∃ hit ∈ sessions, name = .session hit.sessionId := by
  obtain ⟨before, p, after, hpieces, rfl, -⟩ := h
  have hp : p ∈ sessionPieces sessions := by simp [hpieces]
  obtain ⟨hit, hhit, rfl⟩ := List.mem_map.mp hp
  exact ⟨hit, (List.mem_filter.mp hhit).1, rfl⟩

theorem context_build_delivers_iff (search : Except E (List (SearchResult F)))
    (retrieve : Except E' (List SessionHit)) (maxTokens : Int) :
    Delivered (found search) (found retrieve) maxTokens (contextBuild search retrieve maxTokens) ↔
      Reaches (found search) (found retrieve) maxTokens := by
  obtain ⟨hcontext, hnodup, hsources⟩ := contextBuild_eq search retrieve maxTokens
  generalize contextBuild search retrieve maxTokens = out at hcontext hnodup hsources ⊢
  generalize found search = docs
  generalize found retrieve = sessions at hcontext hsources ⊢
  constructor
  · intro h
    have hdocuments : documentPieces docs ≠ [] → out.context = [] ∧ sessions = [] := by
      intro hdocs
      obtain ⟨p, rest, hpieces⟩ := List.exists_cons_of_ne_nil hdocs
      obtain ⟨doc, -, hdoc⟩ := List.mem_map.mp (hpieces ▸ List.mem_cons_self : p ∈ documentPieces docs)
      -- the first document would be a source if anything was left of it
      have hnothing : out.context = [] := by
        by_contra hne
        have hshown := (h.named p.name).mpr (by
          rw [hpieces]
          exact shows_first (List.length_pos_iff.mpr hne))
        obtain ⟨hit, -, hname⟩ := (hsources p.name).mp hshown
        rw [← hdoc] at hname
        cases hname
      refine ⟨hnothing, ?_⟩
      rw [List.eq_nil_iff_forall_not_mem]
      intro hit hhit
      have hshown := (h.named _).mp ((hsources _).mpr ⟨hit, hhit, rfl⟩)
      rw [hnothing] at hshown
      exact not_shows_zero _ _ hshown
    constructor
    · intro hdocs
      obtain ⟨hnothing, hnone⟩ := hdocuments hdocs
      have hcut := h.context
      rw [hnothing, hnone] at hcut
      refine ⟨hnone, ?_⟩
      simpa [sessionPieces] using hcut.symm
    · intro hit hhit
      by_cases hdocs : documentPieces docs = []
      · have hshown := (h.named _).mp ((hsources _).mpr ⟨hit, hhit, rfl⟩)
        rwa [hdocs, List.nil_append, hcontext] at hshown
      · rw [(hdocuments hdocs).2] at hhit
        cases hhit
  · rintro ⟨hdocs, hreach⟩
    by_cases hempty : documentPieces docs = []
    · refine ⟨?_, hnodup, ?_⟩
      · rw [hempty, List.nil_append, hcontext]
      · intro name
        rw [hempty, List.nil_append, hsources]
        constructor
        · rintro ⟨hit, hhit, rfl⟩
          rw [hcontext]
          exact hreach hit hhit
        · exact Shows.session
    · obtain ⟨hnone, hcut⟩ := hdocs hempty
      subst hnone
      have hnothing : out.context = [] := by
        rw [hcontext]
        simp [sessionPieces, joinPieces, truncateTextAt]
      refine ⟨?_, hnodup, ?_⟩
      · rw [hnothing, ← hcut]
        simp [sessionPieces]
      · intro name
        rw [hnothing, hsources]
        constructor
        · rintro ⟨hit, hhit, -⟩
          cases hhit
        · intro hshown
          exact absurd hshown (not_shows_zero _ _)

/-- A store's answer with one document, and no reranker. -/
def oneDocument : List (SearchResult Nat) :=
  searchResults { lower := id, embed := fun _ => (), search := fun _ _ _ _ => [], rerank := none, roundKb := id, zero := 0 }
    "q" 5 [{ id := some "p", score := 1
             payload := fun key => if key = "text" then [.str "alpha"] else [.str "/d"] }]

/-- One document with text is found, and the context is empty. -/
theorem document_left_out :
    ¬ Delivered oneDocument [] 2000
      (contextBuild (.ok oneDocument : Except String _) (.ok [] : Except String _) 2000) := by
  intro h
  have hcontext := h.context
  have hempty : (contextBuild (.ok oneDocument : Except String _) (.ok [] : Except String _) 2000).context = [] := rfl
  rw [hempty] at hcontext
  exact absurd hcontext (by decide +kernel)

end Lumogis.ContextBuild
