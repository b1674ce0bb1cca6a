import Lumogis.Permissions
import Lumogis.Lib.Labelled
import Mathlib.Order.Lattice
import Mathlib.Data.List.Pairwise
import Mathlib.Data.List.DropRight

/-!
# Lumogis.PaperlessPolling

Incremental polling of a paperless source. The server lists the documents that were added after the
cursor at the start of the tick, oldest first, a page a request; each ingested document moves the
cursor to its own time. A tick may end at a cap, a block or an error with documents left over, and the
next one asks only for times after the cursor: what is left at the cursor's own time is never listed
again.

`polling_covers`: every document up to the cursor is ingested, in every run in which no tick ends
between documents of one time and no page is counted past documents that came too late for it.
-/

namespace Lumogis

open Labelled

/-! ## Chunks -/

/-- An encoding of tiktoken; `encode` is `none` on a text that it refuses. -/
structure Tokenizer where
  encode : String → Option (List Nat)
  decode : List Nat → String

def chunkMaxTokens : Nat := 512

def chunkOverlapTokens : Nat := 50

/-- `str.split` without an argument. -/
def splitWords (text : String) : List String :=
  ((text.toList.splitOnP Permissions.isPySpace).filter (· ≠ [])).map String.ofList

/-- The chunks when there is no tokenizer. -/
def wordChunks (words : List String) : List String :=
  let step := chunkMaxTokens - chunkOverlapTokens
  let starts := (List.range ((words.length + step - 1) / step)).map (step * ·)
  (starts.map fun i => " ".intercalate ((words.drop i).take chunkMaxTokens)).filter fun chunk =>
    Permissions.strip chunk != ""

/-- `paragraph.replace(". ", ".\n")`. -/
def breakSentences : List Char → List Char
  | '.' :: ' ' :: cs => '.' :: '\n' :: breakSentences cs
  | c :: cs => c :: breakSentences cs
  | [] => []

/-- The pieces between line ends, stripped, without the empty ones. -/
def strippedLines (cs : List Char) : List String :=
  ((cs.splitOn '\n').map fun line => Permissions.strip (String.ofList line)).filter (· != "")

def sentences (text : String) : List String :=
  (strippedLines text.toList).flatMap fun paragraph => strippedLines (breakSentences paragraph.toList)

structure ChunkState where
  chunks : List String := []
  current : List String := []
  currentTokens : Nat := 0

def addSentence (enc : Tokenizer) (st : ChunkState) (sent : String) : Option ChunkState := do
  let sentTokens ← enc.encode sent
  if chunkMaxTokens < st.currentTokens + sentTokens.length ∧ st.current ≠ [] then
    let overlapText := " ".intercalate st.current
    let overlapTokens ← enc.encode overlapText
    let keep :=
      if chunkOverlapTokens < overlapTokens.length then overlapTokens.rtake chunkOverlapTokens else overlapTokens
    some {
      chunks := st.chunks ++ [overlapText]
      current := [enc.decode keep, sent]
      currentTokens := keep.length + sentTokens.length }
  else
    some { st with current := st.current ++ [sent], currentTokens := st.currentTokens + sentTokens.length }

/-- `none` when the tokenizer raises. -/
def chunkText (enc : Option Tokenizer) (text : String) : Option (List String) :=
  if Permissions.strip text = "" then some []
  else
    match enc with
    | none => some (wordChunks (splitWords text))
    | some enc => do
      let st ← (sentences text).foldlM (addSentence enc) {}
      some (if st.current ≠ [] then st.chunks ++ [" ".intercalate st.current] else st.chunks)

/-! ## The source -/

structure PaperlessDocument (τ : Type) where
  id : Int
  content : String
  added : τ

/-- A row of `external_documents`. -/
structure ExternalDocument where
  contentHash : String
  chunkCount : Nat

structure PollEnv where
  enc : Option Tokenizer
  /-- SHA-256 of the text in NFC. -/
  contentHash : String → String
  /-- `PAPERLESS_POLL_PAGE_SIZE`. -/
  pollPageSize : Int

/-- `len(chunk_text(content))`. -/
def PollEnv.chunkCount (env : PollEnv) (content : String) : Option Nat :=
  (chunkText env.enc content).map List.length

def PollEnv.pageSize (env : PollEnv) : Nat := (max 1 (min 100 env.pollPageSize)).toNat

def maxPaperlessDocsPerTick : Nat := 500

def maxPaperlessChunksPerTick : Nat := 2000

/-- The source's cursor and the rows of its documents, by `external_id`. -/
structure PaperlessSource (τ : Type) where
  pollCursor : Option τ
  externalDocuments : Int → Option ExternalDocument

/-- Where a call of `ingest_external_document` raises. -/
inductive IngestStage where
  | ingesting | emitting
  deriving DecidableEq

structure IngestFate where
  chunkCountWritten : Nat
  dropsBlockedHigh : Nat
  raises : Option IngestStage

structure ExternalIngestResult where
  chunkCount : Nat
  skipped : Bool := false
  advanceExternalPollCursor : Bool := false

variable {τ : Type} [LinearOrder τ]

/-! ## One document -/

/-- `UPDATE sources SET poll_cursor = w WHERE poll_cursor IS NULL OR poll_cursor < w`. -/
def PaperlessSource.advance (s : PaperlessSource τ) (w : τ) : PaperlessSource τ :=
  match s.pollCursor with
  | none => { s with pollCursor := some w }
  | some c => if c < w then { s with pollCursor := some w } else s

def PaperlessSource.setRow (s : PaperlessSource τ) (id : Int) (row : Option ExternalDocument) : PaperlessSource τ :=
  { s with externalDocuments := Function.update s.externalDocuments id row }

/-- A time before the cursor. -/
def Skewed (cursor : Option τ) (added : τ) : Prop := ∃ c ∈ cursor, added < c

instance (cursor : Option τ) (added : τ) : Decidable (Skewed cursor added) :=
  inferInstanceAs (Decidable (∃ c ∈ cursor, _))

/-- The result is `none` when the call raises. -/
def ingestExternalDocument (env : PollEnv) (fate : IngestFate) (doc : PaperlessDocument τ) (stored : Option τ)
    (s : PaperlessSource τ) : Option ExternalIngestResult × PaperlessSource τ :=
  let existing := s.externalDocuments doc.id
  let newHash := env.contentHash doc.content
  if Skewed stored doc.added then (some { chunkCount := 0, skipped := true }, s)
  else if fate.raises = some .ingesting then (none, s)
  else if existing.map ExternalDocument.contentHash = some newHash then
    (some { chunkCount := 0, skipped := true, advanceExternalPollCursor := true }, s.advance doc.added)
  else
    match env.chunkCount doc.content with
    | none => (none, s)
    | some 0 =>
      (some { chunkCount := 0, skipped := existing.isNone, advanceExternalPollCursor := true },
        (s.setRow doc.id (existing.map fun _ => ⟨newHash, 0⟩)).advance doc.added)
    | some (_ + 1) =>
      let written := fate.chunkCountWritten
      let emitted := fun r : ExternalIngestResult => if fate.raises = some .emitting then none else some r
      if 0 < fate.dropsBlockedHigh then
        (emitted { chunkCount := written },
          s.setRow doc.id (existing.map fun row => { row with chunkCount := written }))
      else
        (emitted { chunkCount := written, advanceExternalPollCursor := true },
          (s.setRow doc.id (some ⟨newHash, written⟩)).advance doc.added)

/-! ## A tick -/

/-- `_poll_paperless_source` under way. -/
structure PollTick (τ : Type) where
  fetchSince : Option τ
  /-- The page of the next request. -/
  page : Nat := 1
  /-- What is left of the last page. -/
  docs : List (PaperlessDocument τ) := []
  docsDone : Nat := 0
  chunksUsed : Nat := 0
  /-- The last page came with fewer rows than asked for; no step reads this. -/
  short : Bool := false

inductive PageFate where
  | answered | failed | authFailure
  deriving DecidableEq

/-- The filter `added__gt` and the order of the server. -/
def listed (documents : List (PaperlessDocument τ)) (since : Option τ) : List (PaperlessDocument τ) :=
  documents.filter fun d => decide (∀ c ∈ since, c < d.added)

def hasContent (d : PaperlessDocument τ) : Bool := Permissions.strip d.content != ""

/-- The rows of the page. -/
def pageRows (env : PollEnv) (documents : List (PaperlessDocument τ)) (since : Option τ) (page : Nat) :
    List (PaperlessDocument τ) :=
  ((listed documents since).drop ((page - 1) * env.pageSize)).take env.pageSize

def fetchDocumentsPage (env : PollEnv) (documents : List (PaperlessDocument τ)) (since : Option τ) (page : Nat) :
    List (PaperlessDocument τ) := (pageRows env documents since page).filter hasContent

/-- Neither cap is reached. -/
def PollTick.BelowCaps (t : PollTick τ) : Prop :=
  t.docsDone < maxPaperlessDocsPerTick ∧ t.chunksUsed < maxPaperlessChunksPerTick

instance (t : PollTick τ) : Decidable t.BelowCaps := inferInstanceAs (Decidable (_ ∧ _))

/-- The head of the `while`; `none` when the tick ends. -/
def pollPage (env : PollEnv) (fate : PageFate) (documents : List (PaperlessDocument τ)) (t : PollTick τ) :
    Option (PollTick τ) :=
  if ¬ t.BelowCaps then none
  else
    match fate with
    | .authFailure => none
    | .failed => none
    | .answered =>
      let docs := fetchDocumentsPage env documents t.fetchSince t.page
      if docs = [] then none
      else
        some { t with
          docs := docs
          page := t.page + 1
          short := decide ((pageRows env documents t.fetchSince t.page).length < env.pageSize) }

/-- `est_chunks`. -/
def PollEnv.estChunks (env : PollEnv) (content : String) : Nat := (env.chunkCount content).getD 1

/-- The body of the `for` at a document; `none` when the tick ends. -/
def pollDocument (env : PollEnv) (fate : IngestFate) (doc : PaperlessDocument τ)
    (rest : List (PaperlessDocument τ)) (t : PollTick τ) (s : PaperlessSource τ) :
    Option (PollTick τ) × PaperlessSource τ :=
  let stored := s.pollCursor
  if ¬ t.BelowCaps then (none, s)
  else if Skewed stored doc.added then (some { t with docs := rest, docsDone := t.docsDone + 1 }, s)
  else if maxPaperlessChunksPerTick < t.chunksUsed + env.estChunks doc.content then (none, s)
  else
    match ingestExternalDocument env fate doc stored s with
    | (none, s') => (none, s')
    | (some result, s') =>
      if !result.advanceExternalPollCursor && !result.skipped then (none, s')
      else
        (some { t with
          docs := rest
          docsDone := t.docsDone + 1
          chunksUsed := t.chunksUsed + result.chunkCount }, s')

/-! ## Runs -/

structure PollState (τ : Type) where
  /-- The documents of the server, in the order of `added`. -/
  documents : List (PaperlessDocument τ)
  source : PaperlessSource τ
  tick : Option (PollTick τ)

/-- A source that was never polled. -/
def PollState.start : PollState τ := ⟨[], ⟨none, fun _ => none⟩, none⟩

inductive PollLabel (τ : Type) where
  | add (d : PaperlessDocument τ)
  | start
  | request (fate : PageFate)
  | document (fate : IngestFate)

def pollStep (env : PollEnv) : PollLabel τ → PollState τ → Option (PollState τ)
  | .add d, s =>
    if ∀ e ∈ s.documents, e.id ≠ d.id ∧ e.added ≤ d.added then some { s with documents := s.documents ++ [d] } else none
  | .start, s =>
    if s.tick.isSome then none else some { s with tick := some { fetchSince := s.source.pollCursor } }
  | .request fate, s => s.tick.bind fun t =>
    if t.docs = [] then some { s with tick := pollPage env fate s.documents t } else none
  | .document fate, s => s.tick.bind fun t =>
    match t.docs with
    | [] => none
    | doc :: rest =>
      some { s with
        tick := (pollDocument env fate doc rest t s.source).1
        source := (pollDocument env fate doc rest t s.source).2 }

/-- A document that polling has to bring in. -/
def Relevant (env : PollEnv) (d : PaperlessDocument τ) : Prop :=
  hasContent d = true ∧ env.chunkCount d.content ≠ some 0

instance (env : PollEnv) (d : PaperlessDocument τ) : Decidable (Relevant env d) :=
  inferInstanceAs (Decidable (_ ∧ _))

/-- The hash of the row. -/
def PaperlessSource.hashAt (s : PaperlessSource τ) (id : Int) : Option String :=
  (s.externalDocuments id).map ExternalDocument.contentHash

/-- The row of the document exists with its hash. -/
def PaperlessSource.Ingested (env : PollEnv) (s : PaperlessSource τ) (d : PaperlessDocument τ) : Prop :=
  s.hashAt d.id = some (env.contentHash d.content)

instance (env : PollEnv) (s : PaperlessSource τ) (d : PaperlessDocument τ) : Decidable (s.Ingested env d) :=
  inferInstanceAs (Decidable (_ = _))

/-- Every document up to the cursor is ingested. -/
def Covered (env : PollEnv) (s : PollState τ) : Prop :=
  ∀ d ∈ s.documents, Relevant env d → (∃ c ∈ s.source.pollCursor, d.added ≤ c) → s.source.Ingested env d

instance (env : PollEnv) (s : PollState τ) : Decidable (Covered env s) :=
  inferInstanceAs (Decidable (∀ d ∈ s.documents, _ → _ → _))

/-! ## When nothing is skipped -/

/-- The rows of the pages that the tick has requested. -/
def PollTick.requested (env : PollEnv) (t : PollTick τ) : Nat := (t.page - 1) * env.pageSize

/-- The documents on the pages still to be requested. -/
def later (env : PollEnv) (documents : List (PaperlessDocument τ)) (t : PollTick τ) : List (PaperlessDocument τ) :=
  ((listed documents t.fetchSince).drop (t.requested env)).filter hasContent

/-- The documents that the tick has not come to. -/
def ahead (env : PollEnv) (documents : List (PaperlessDocument τ)) (t : PollTick τ) : List (PaperlessDocument τ) :=
  t.docs ++ later env documents t

/-- All these documents are after the time. -/
def AllPast (env : PollEnv) (cursor : Option τ) (docs : List (PaperlessDocument τ)) : Prop :=
  ∀ d ∈ docs, Relevant env d → ∀ c ∈ cursor, c < d.added

instance (env : PollEnv) (cursor : Option τ) (docs : List (PaperlessDocument τ)) : Decidable (AllPast env cursor docs) :=
  inferInstanceAs (Decidable (∀ d ∈ docs, _ → ∀ c ∈ cursor, _))

/-- The request brings documents. -/
def Brings (env : PollEnv) (fate : PageFate) (documents : List (PaperlessDocument τ)) (t : PollTick τ) : Prop :=
  t.BelowCaps ∧ fate = .answered ∧ fetchDocumentsPage env documents t.fetchSince t.page ≠ []

instance (env : PollEnv) (fate : PageFate) (documents : List (PaperlessDocument τ)) (t : PollTick τ) :
    Decidable (Brings env fate documents t) := inferInstanceAs (Decidable (_ ∧ _ ∧ _))

/-- The call neither raises nor is blocked before it has stored the row. -/
def Commits (env : PollEnv) (fate : IngestFate) (doc : PaperlessDocument τ) : Prop :=
  fate.raises ≠ some .ingesting ∧ env.chunkCount doc.content ≠ none ∧
    (env.chunkCount doc.content = some 0 ∨ fate.dropsBlockedHigh = 0)

instance (env : PollEnv) (fate : IngestFate) (doc : PaperlessDocument τ) : Decidable (Commits env fate doc) :=
  inferInstanceAs (Decidable (_ ∧ _ ∧ _))

/-- The document is within the caps and is stored. -/
def StoresRow (env : PollEnv) (fate : IngestFate) (doc : PaperlessDocument τ) (t : PollTick τ) : Prop :=
  t.BelowCaps ∧ t.chunksUsed + env.estChunks doc.content ≤ maxPaperlessChunksPerTick ∧ Commits env fate doc

instance (env : PollEnv) (fate : IngestFate) (doc : PaperlessDocument τ) (t : PollTick τ) :
    Decidable (StoresRow env fate doc t) := inferInstanceAs (Decidable (_ ∧ _ ∧ _))

/-- The tick goes on to the next document. -/
def GoesOn (env : PollEnv) (fate : IngestFate) (doc : PaperlessDocument τ) (t : PollTick τ) : Prop :=
  StoresRow env fate doc t ∧ (env.chunkCount doc.content = some 0 ∨ fate.raises = none)

instance (env : PollEnv) (fate : IngestFate) (doc : PaperlessDocument τ) (t : PollTick τ) :
    Decidable (GoesOn env fate doc t) := inferInstanceAs (Decidable (_ ∧ _))

/-- A new document gets a time that the source has not passed, and no page that was requested before. -/
def ComesInTime (env : PollEnv) (d : PaperlessDocument τ) (s : PollState τ) : Prop :=
  Relevant env d →
    (s.tick = none → ∀ c ∈ s.source.pollCursor, c < d.added) ∧
      ∀ t ∈ s.tick, (∀ c ∈ t.fetchSince, c < d.added) ∧
        (t.short = true → (∀ c ∈ s.source.pollCursor, c < d.added) ∧ ∀ x ∈ t.docs, x.added < d.added)

instance (env : PollEnv) (d : PaperlessDocument τ) (s : PollState τ) : Decidable (ComesInTime env d s) :=
  inferInstanceAs (Decidable (_ → (s.tick = none → ∀ c ∈ _, _) ∧ ∀ t ∈ s.tick, (∀ c ∈ _, _) ∧
    (_ → (∀ c ∈ _, _) ∧ ∀ x ∈ t.docs, _)))

/-- A page with documents comes after full pages only. -/
def EndsAtPage (env : PollEnv) (fate : PageFate) (s : PollState τ) (t : PollTick τ) : Prop :=
  if Brings env fate s.documents t then t.short = false
  else AllPast env s.source.pollCursor (later env s.documents t)

instance (env : PollEnv) (fate : PageFate) (s : PollState τ) (t : PollTick τ) : Decidable (EndsAtPage env fate s t) :=
  inferInstanceAs (Decidable (ite _ _ _))

/-- Where the tick ends, what it leaves is later than what it has stored. -/
def EndsAtDocument (env : PollEnv) (fate : IngestFate) (doc : PaperlessDocument τ) (s : PollState τ) (t : PollTick τ) :
    Prop :=
  GoesOn env fate doc t ∨
    if StoresRow env fate doc t then AllPast env (some doc.added) (ahead env s.documents { t with docs := t.docs.tail })
    else AllPast env s.source.pollCursor (ahead env s.documents t)

instance (env : PollEnv) (fate : IngestFate) (doc : PaperlessDocument τ) (s : PollState τ) (t : PollTick τ) :
    Decidable (EndsAtDocument env fate doc s t) := inferInstanceAs (Decidable (_ ∨ ite _ _ _))

/-- Documents of one time stay together in a tick. -/
def KeepsTogether (env : PollEnv) : PollLabel τ → PollState τ → Prop
  | .add d, s => ComesInTime env d s
  | .start, _ => True
  | .request fate, s => ∀ t ∈ s.tick, EndsAtPage env fate s t
  | .document fate, s => ∀ t ∈ s.tick, ∀ doc ∈ t.docs.head?, EndsAtDocument env fate doc s t

instance (env : PollEnv) : ∀ (l : PollLabel τ) (s : PollState τ), Decidable (KeepsTogether env l s)
  | .add d, s => inferInstanceAs (Decidable (ComesInTime env d s))
  | .start, _ => .isTrue trivial
  | .request fate, s => inferInstanceAs (Decidable (∀ t ∈ s.tick, EndsAtPage env fate s t))
  | .document fate, s => inferInstanceAs (Decidable (∀ t ∈ s.tick, ∀ doc ∈ t.docs.head?, EndsAtDocument env fate doc s t))

section Proofs

variable {env : PollEnv} {fate : IngestFate} {doc d : PaperlessDocument τ} {rest : List (PaperlessDocument τ)}
  {s s' : PaperlessSource τ} {t t' : PollTick τ} {st st' : PollState τ}

/-! ## One document -/

theorem advance_externalDocuments (w : τ) : (s.advance w).externalDocuments = s.externalDocuments := by
  unfold PaperlessSource.advance
  split
  · rfl
  · split <;> rfl

theorem advance_pollCursor {w : τ} (h : ∀ c ∈ s.pollCursor, c ≤ w) : (s.advance w).pollCursor = some w := by
  unfold PaperlessSource.advance
  cases hc : s.pollCursor with
  | none => rfl
  | some c =>
    have hle := h c hc
    by_cases hlt : c < w
    · simp [hlt]
    · simp only [if_neg hlt]
      rw [hc, le_antisymm hle (not_lt.mp hlt)]

@[simp] theorem hashAt_advance (w : τ) (id : Int) : (s.advance w).hashAt id = s.hashAt id := by
  rw [PaperlessSource.hashAt, advance_externalDocuments]
  rfl

omit [LinearOrder τ] in
theorem hashAt_setRow (id id' : Int) (row : Option ExternalDocument) :
    (s.setRow id row).hashAt id' = if id' = id then row.map ExternalDocument.contentHash else s.hashAt id' := by
  simp only [PaperlessSource.hashAt, PaperlessSource.setRow, Function.update_apply]
  split <;> rfl

theorem not_skewed (h : ∀ c ∈ s.pollCursor, c ≤ d.added) : ¬ Skewed s.pollCursor d.added := by
  intro hskew
  obtain ⟨c, hc, hlt⟩ := hskew
  exact not_lt.mpr (h c hc) hlt

/-- The cursor has come to the document, and its row has its hash. -/
structure Moved (env : PollEnv) (doc : PaperlessDocument τ) (s : PaperlessSource τ) : Prop where
  cursor : s.pollCursor = some doc.added
  ingested : Relevant env doc → s.Ingested env doc

/-- What a call leaves when the tick has to stop at the document. -/
def Left (env : PollEnv) (doc : PaperlessDocument τ) (s : PaperlessSource τ) (stored : Prop) (s' : PaperlessSource τ) :
    Prop := (stored ∧ Moved env doc s') ∨ (¬ stored ∧ s'.pollCursor = s.pollCursor)

/-- Only the hash of the document's own row may change. -/
def OnlyHash (env : PollEnv) (doc : PaperlessDocument τ) (s s' : PaperlessSource τ) : Prop :=
  ∀ id, s'.hashAt id = s.hashAt id ∨ id = doc.id ∧ s'.hashAt id = some (env.contentHash doc.content)

omit [LinearOrder τ] in
theorem OnlyHash.refl : OnlyHash env doc s s := fun _ => .inl rfl

theorem ingestExternalDocument_spec (hcursor : ∀ c ∈ s.pollCursor, c ≤ doc.added) :
    OnlyHash env doc s (ingestExternalDocument env fate doc s.pollCursor s).2 ∧
      ((∃ r s', ingestExternalDocument env fate doc s.pollCursor s = (some r, s') ∧
          r.advanceExternalPollCursor = true ∧ Moved env doc s') ∨
        (∃ r s', ingestExternalDocument env fate doc s.pollCursor s = (r, s') ∧
          (∀ x ∈ r, x.advanceExternalPollCursor = false ∧ x.skipped = false) ∧
          ¬ (Commits env fate doc ∧ (env.chunkCount doc.content = some 0 ∨ fate.raises = none)) ∧
          Left env doc s (Commits env fate doc) s')) := by
  unfold ingestExternalDocument
  rw [if_neg (not_skewed hcursor)]
  by_cases hraises : fate.raises = some .ingesting
  · have hnot : ¬ Commits env fate doc := fun h => h.1 hraises
    rw [if_pos hraises]
    exact ⟨.refl, .inr ⟨none, s, rfl, by simp, fun h => hnot h.1, .inr ⟨hnot, rfl⟩⟩⟩
  rw [if_neg hraises]
  by_cases hsame : (s.externalDocuments doc.id).map ExternalDocument.contentHash = some (env.contentHash doc.content)
  · rw [if_pos hsame]
    refine ⟨fun id => .inl (hashAt_advance _ id), .inl ⟨_, _, rfl, rfl, advance_pollCursor hcursor, fun _ => ?_⟩⟩
    exact (hashAt_advance _ _).trans hsame
  rw [if_neg hsame]
  have hset : ∀ row : Option ExternalDocument, (∀ x ∈ row, x.contentHash = env.contentHash doc.content) →
      (row = none → s.externalDocuments doc.id = none) → OnlyHash env doc s (s.setRow doc.id row) := by
    intro row hrow hnone id
    rw [hashAt_setRow]
    by_cases hid : id = doc.id
    · rw [if_pos hid]
      cases row with
      | none => exact .inl (by rw [hid, PaperlessSource.hashAt, hnone rfl])
      | some x => exact .inr ⟨hid, congrArg some (hrow x rfl)⟩
    · rw [if_neg hid]
      exact .inl rfl
  cases hchunks : env.chunkCount doc.content with
  | none =>
    have hnot : ¬ Commits env fate doc := fun h => h.2.1 hchunks
    exact ⟨.refl, .inr ⟨none, s, rfl, by simp, fun h => hnot h.1, .inr ⟨hnot, rfl⟩⟩⟩
  | some n =>
    cases n with
    | zero =>
      refine ⟨fun id => ?_, .inl ⟨_, _, rfl, rfl, advance_pollCursor hcursor, fun h => absurd hchunks h.2⟩⟩
      rw [hashAt_advance]
      refine hset _ ?_ ?_ id
      · intro x hx
        obtain ⟨row, -, rfl⟩ := Option.map_eq_some_iff.mp hx
        rfl
      · intro hnone
        exact Option.map_eq_none_iff.mp hnone
    | succ n =>
      have hnz : env.chunkCount doc.content ≠ some 0 := by rw [hchunks]; simp
      by_cases hdrops : 0 < fate.dropsBlockedHigh
      · have hnot : ¬ Commits env fate doc := by
          intro h
          cases h.2.2 with
          | inl h0 => exact hnz h0
          | inr h0 => omega
        simp only [if_pos hdrops]
        refine ⟨fun id => .inl ?_, .inr ⟨_, _, rfl, ?_, fun h => hnot h.1, .inr ⟨hnot, rfl⟩⟩⟩
        · rw [hashAt_setRow]
          by_cases hid : id = doc.id
          · rw [if_pos hid, hid, PaperlessSource.hashAt]
            cases s.externalDocuments doc.id <;> rfl
          · rw [if_neg hid]
        · intro x hx
          by_cases hemit : fate.raises = some .emitting
          · simp [hemit] at hx
          · simp only [if_neg hemit, Option.mem_def, Option.some.injEq] at hx
            subst hx
            exact ⟨rfl, rfl⟩
      · have hcommits : Commits env fate doc := ⟨hraises, by rw [hchunks]; simp, .inr (by omega)⟩
        have hmoved : Moved env doc
            ((s.setRow doc.id (some ⟨env.contentHash doc.content, fate.chunkCountWritten⟩)).advance doc.added) := by
          refine ⟨advance_pollCursor hcursor, fun _ => ?_⟩
          rw [PaperlessSource.Ingested, hashAt_advance, hashAt_setRow, if_pos rfl]
          rfl
        simp only [if_neg hdrops]
        refine ⟨fun id => ?_, ?_⟩
        · rw [hashAt_advance]
          exact hset _ (by simp) (by simp) id
        · by_cases hemit : fate.raises = some .emitting
          · refine .inr ⟨none, _, by rw [if_pos hemit], by simp, ?_, .inl ⟨hcommits, hmoved⟩⟩
            intro h
            cases h.2 with
            | inl h0 => cases h0
            | inr h0 => rw [h0] at hemit; cases hemit
          · exact .inl ⟨_, _, by rw [if_neg hemit], rfl, hmoved⟩

/-- The tick has gone on to the rest of the page. -/
structure GoneOn (rest : List (PaperlessDocument τ)) (t t' : PollTick τ) : Prop where
  docs : t'.docs = rest
  page : t'.page = t.page
  fetchSince : t'.fetchSince = t.fetchSince
  short : t'.short = t.short

theorem pollDocument_spec (hcursor : ∀ c ∈ s.pollCursor, c ≤ doc.added) :
    OnlyHash env doc s (pollDocument env fate doc rest t s).2 ∧
      ((∃ t' s', pollDocument env fate doc rest t s = (some t', s') ∧ GoneOn rest t t' ∧ Moved env doc s') ∨
        (∃ s', pollDocument env fate doc rest t s = (none, s') ∧ ¬ GoesOn env fate doc t ∧
          Left env doc s (StoresRow env fate doc t) s')) := by
  unfold pollDocument
  by_cases hcaps : t.BelowCaps
  · rw [if_neg (not_not_intro hcaps), if_neg (not_skewed hcursor)]
    by_cases hfits : maxPaperlessChunksPerTick < t.chunksUsed + env.estChunks doc.content
    · have hnot : ¬ StoresRow env fate doc t := fun h => not_lt.mpr h.2.1 hfits
      rw [if_pos hfits]
      exact ⟨.refl, .inr ⟨s, rfl, fun h => hnot h.1, .inr ⟨hnot, rfl⟩⟩⟩
    · rw [if_neg hfits]
      have hstores : StoresRow env fate doc t ↔ Commits env fate doc :=
        ⟨fun h => h.2.2, fun h => ⟨hcaps, not_lt.mp hfits, h⟩⟩
      obtain ⟨honly, h⟩ := @ingestExternalDocument_spec _ _ env fate _ _ hcursor
      obtain ⟨r, s', heq, hadv, hmoved⟩ | ⟨r, s', heq, hr, hends, hleft⟩ := h
      · simp only [heq, hadv] at honly ⊢
        exact ⟨honly, .inl ⟨_, _, rfl, ⟨rfl, rfl, rfl, rfl⟩, hmoved⟩⟩
      · have hgoes : ¬ GoesOn env fate doc t := fun h => hends ⟨hstores.mp h.1, h.2⟩
        rw [← hstores] at hleft
        rw [heq] at honly ⊢
        cases r with
        | none => exact ⟨honly, .inr ⟨s', rfl, hgoes, hleft⟩⟩
        | some x =>
          obtain ⟨hadv, hskip⟩ := hr x rfl
          simp only [hadv, hskip]
          exact ⟨honly, .inr ⟨s', rfl, hgoes, hleft⟩⟩
  · have hnot : ¬ StoresRow env fate doc t := fun h => hcaps h.1
    rw [if_pos hcaps]
    exact ⟨.refl, .inr ⟨s, rfl, fun h => hnot h.1, .inr ⟨hnot, rfl⟩⟩⟩

/-! ## Pages -/

theorem pollPage_of_brings {page : PageFate} {documents : List (PaperlessDocument τ)} (h : Brings env page documents t) :
    pollPage env page documents t = some { t with
      docs := fetchDocumentsPage env documents t.fetchSince t.page
      page := t.page + 1
      short := decide ((pageRows env documents t.fetchSince t.page).length < env.pageSize) } := by
  obtain ⟨hcaps, rfl, hdocs⟩ := h
  simp [pollPage, hcaps, hdocs]

theorem pollPage_of_not_brings {page : PageFate} {documents : List (PaperlessDocument τ)}
    (h : ¬ Brings env page documents t) : pollPage env page documents t = none := by
  unfold pollPage
  by_cases hcaps : t.BelowCaps
  · cases page with
    | authFailure => simp
    | failed => simp
    | answered =>
      have hdocs : fetchDocumentsPage env documents t.fetchSince t.page = [] := by
        by_contra hne
        exact h ⟨hcaps, rfl, hne⟩
      simp [hdocs]
  · simp [hcaps]

omit [LinearOrder τ] in
theorem requested_next (h : 1 ≤ t.page) (hpage : t'.page = t.page + 1) :
    t'.requested env = t.requested env + env.pageSize := by
  obtain ⟨k, hk⟩ := Nat.exists_eq_add_of_le h
  rw [PollTick.requested, PollTick.requested, hpage, hk]
  have h1 : 1 + k + 1 - 1 = k + 1 := by omega
  have h2 : 1 + k - 1 = k := by omega
  rw [h1, h2, Nat.add_mul, Nat.one_mul]

theorem ahead_pollPage {documents : List (PaperlessDocument τ)} (hdocs : t.docs = []) (h : 1 ≤ t.page)
    (hnext : t'.docs = fetchDocumentsPage env documents t.fetchSince t.page) (hpage : t'.page = t.page + 1)
    (hsince : t'.fetchSince = t.fetchSince) : ahead env documents t' = ahead env documents t := by
  have hsplit := List.take_append_drop env.pageSize ((listed documents t.fetchSince).drop (t.requested env))
  rw [ahead, ahead, later, later, hnext, hdocs, hsince, requested_next h hpage, fetchDocumentsPage, pageRows,
    ← List.drop_drop, List.nil_append, ← List.filter_append]
  exact congrArg _ hsplit

theorem mem_listed {documents : List (PaperlessDocument τ)} {since : Option τ} :
    d ∈ listed documents since ↔ d ∈ documents ∧ ∀ c ∈ since, c < d.added := by
  simp [listed]

/-! ## The invariant -/

/-- The tick will come to every relevant document that is not ingested yet, or the document came too late
for its page and is later than all that the tick may still store from that page. -/
structure Ticks (env : PollEnv) (s : PollState τ) (t : PollTick τ) : Prop where
  page : 1 ≤ t.page
  mem : ∀ d ∈ t.docs, d ∈ s.documents
  ordered : (ahead env s.documents t).Pairwise fun d e => d.added ≤ e.added
  cursor : ∀ d ∈ ahead env s.documents t, ∀ c ∈ s.source.pollCursor, c ≤ d.added
  full : t.short = false → t.requested env ≤ (listed s.documents t.fetchSince).length
  behind : ∀ d ∈ s.documents, Relevant env d → s.source.Ingested env d ∨ d ∈ ahead env s.documents t ∨
    (t.short = true ∧ (∀ c ∈ s.source.pollCursor, c < d.added) ∧ ∀ x ∈ t.docs, x.added < d.added)

structure Polls (env : PollEnv) (s : PollState τ) : Prop where
  documents : s.documents.Pairwise fun d e => d.id ≠ e.id ∧ d.added ≤ e.added
  cursor : ∀ c ∈ s.source.pollCursor, ∃ d ∈ s.documents, c ≤ d.added
  idle : s.tick = none → Covered env s
  busy : ∀ t ∈ s.tick, Ticks env s t

theorem Polls.start : Polls env (PollState.start (τ := τ)) where
  documents := .nil
  cursor c hc := by cases hc
  idle _ d hd := by cases hd
  busy t ht := by cases ht

theorem later_start {documents : List (PaperlessDocument τ)} {since : Option τ} :
    ahead env documents { fetchSince := since } = (listed documents since).filter hasContent := by
  simp [ahead, later, PollTick.requested]

theorem Polls.starts (h : Polls env st) (hidle : st.tick = none) :
    Polls env { st with tick := some { fetchSince := st.source.pollCursor } } := by
  refine ⟨h.documents, h.cursor, by simp, ?_⟩
  intro t ht
  obtain rfl := (Option.some.inj ht).symm
  refine ⟨Nat.le_refl 1, by simp, ?_, ?_, by simp [PollTick.requested], ?_⟩
  · rw [later_start]
    exact ((h.documents.imp And.right).sublist List.filter_sublist).sublist List.filter_sublist
  · intro d hd c hc
    rw [later_start, List.mem_filter, mem_listed] at hd
    exact le_of_lt (hd.1.2 c hc)
  · intro d hd hrel
    by_cases hle : ∃ c ∈ st.source.pollCursor, d.added ≤ c
    · exact .inl (h.idle hidle d hd hrel hle)
    · right; left
      rw [later_start, List.mem_filter, mem_listed]
      refine ⟨⟨hd, fun c hc => ?_⟩, hrel.1⟩
      exact not_le.mp fun hge => hle ⟨c, hc, hge⟩

theorem Polls.requests (h : Polls env st) (ht : st.tick = some t) (hdocs : t.docs = []) {page : PageFate}
    (hkeeps : KeepsTogether env (.request page) st) :
    Polls env { st with tick := pollPage env page st.documents t } := by
  have hticks := h.busy t ht
  have hk : EndsAtPage env page st t := hkeeps t ht
  unfold EndsAtPage at hk
  by_cases hbrings : Brings env page st.documents t
  · rw [if_pos hbrings] at hk
    rw [pollPage_of_brings hbrings]
    refine ⟨h.documents, h.cursor, by simp, ?_⟩
    intro t' ht'
    obtain rfl := (Option.some.inj ht').symm
    have hsame : ahead env st.documents { t with
        docs := fetchDocumentsPage env st.documents t.fetchSince t.page
        page := t.page + 1
        short := decide ((pageRows env st.documents t.fetchSince t.page).length < env.pageSize) } =
        ahead env st.documents t :=
      ahead_pollPage hdocs hticks.page rfl rfl rfl
    refine ⟨Nat.le_add_left 1 _, ?_, hsame ▸ hticks.ordered, hsame ▸ hticks.cursor, ?_, ?_⟩
    · intro d hd
      have hrow := List.mem_of_mem_take (List.mem_of_mem_filter hd)
      exact (mem_listed.mp (List.mem_of_mem_drop hrow)).1
    · intro hfull
      rw [requested_next hticks.page rfl]
      have hle := hticks.full hk
      simp only [decide_eq_false_iff_not, not_lt, pageRows, List.length_take, List.length_drop] at hfull
      have hmin : env.pageSize ≤ (listed st.documents t.fetchSince).length - t.requested env :=
        le_trans hfull (min_le_right _ _)
      show t.requested env + env.pageSize ≤ (listed st.documents t.fetchSince).length
      omega
    · intro d hd hrel
      obtain hin | hin | hin := hticks.behind d hd hrel
      · exact .inl hin
      · exact .inr (.inl (hsame ▸ hin))
      · rw [hk] at hin
        cases hin.1
  · rw [if_neg hbrings] at hk
    rw [pollPage_of_not_brings hbrings]
    refine ⟨h.documents, h.cursor, fun _ => ?_, fun t' ht' => nomatch ht'⟩
    intro d hd hrel hle
    obtain ⟨c, hc, hle⟩ := hle
    obtain hin | hin | hin := hticks.behind d hd hrel
    · exact hin
    · rw [ahead, hdocs, List.nil_append] at hin
      exact absurd (hk d hin hrel c hc) (not_lt.mpr hle)
    · exact absurd (hin.2.1 c hc) (not_lt.mpr hle)

theorem OnlyHash.ingested (honly : OnlyHash env doc s s')
    (hdocs : st.documents.Pairwise fun d e => d.id ≠ e.id ∧ d.added ≤ e.added) (hdoc : doc ∈ st.documents)
    (hd : d ∈ st.documents) (h : s.Ingested env d) : s'.Ingested env d := by
  cases honly d.id with
  | inl hsame => exact hsame.trans h
  | inr hown =>
    have hids : (st.documents.map PaperlessDocument.id).Nodup := List.pairwise_map.mpr (hdocs.imp And.left)
    have heq : d = doc := List.inj_on_of_nodup_map hids hd hdoc hown.1
    rw [PaperlessSource.Ingested, hown.2, heq]

theorem ahead_goneOn {documents : List (PaperlessDocument τ)} (h : GoneOn rest t t') :
    ahead env documents t' = ahead env documents { t with docs := rest } := by
  simp only [ahead, later, PollTick.requested, h.docs, h.page, h.fetchSince]

theorem Polls.documents_step (h : Polls env st) (ht : st.tick = some t) (hdocs : t.docs = doc :: rest)
    (hkeeps : KeepsTogether env (.document fate) st) :
    Polls env { st with
      tick := (pollDocument env fate doc rest t st.source).1
      source := (pollDocument env fate doc rest t st.source).2 } := by
  have hticks := h.busy t ht
  have hahead : ahead env st.documents t = doc :: ahead env st.documents { t with docs := rest } := by
    rw [ahead, hdocs]
    rfl
  have hcursor : ∀ c ∈ st.source.pollCursor, c ≤ doc.added := hticks.cursor doc (hahead ▸ List.mem_cons_self)
  have hmem : doc ∈ st.documents := hticks.mem doc (hdocs ▸ List.mem_cons_self)
  have hordered := hticks.ordered
  rw [hahead, List.pairwise_cons] at hordered
  obtain ⟨honly, hspec⟩ := @pollDocument_spec _ _ env fate _ rest _ t hcursor
  have hkept : ∀ d ∈ st.documents, st.source.Ingested env d →
      (pollDocument env fate doc rest t st.source).2.Ingested env d := fun d hd =>
    honly.ingested h.documents hmem hd
  obtain ⟨t', s', heq, hgone, hmoved⟩ | ⟨s', heq, hgoes, hleft⟩ := hspec
  · rw [heq] at hkept ⊢
    refine ⟨h.documents, ?_, by simp, ?_⟩
    · intro c hc
      rw [hmoved.cursor] at hc
      obtain rfl := Option.some.inj hc
      exact ⟨doc, hmem, le_refl _⟩
    · intro t'' ht''
      obtain rfl := Option.some.inj ht''
      refine ⟨hgone.page ▸ hticks.page, ?_, ?_, ?_, ?_, ?_⟩
      · intro d hd
        rw [hgone.docs] at hd
        exact hticks.mem d (hdocs ▸ List.mem_cons_of_mem _ hd)
      · rw [ahead_goneOn hgone]
        exact hordered.2
      · intro d hd c hc
        rw [ahead_goneOn hgone] at hd
        rw [hmoved.cursor] at hc
        obtain rfl := Option.some.inj hc
        exact hordered.1 d hd
      · intro hfull
        have hle := hticks.full (hgone.short ▸ hfull)
        rw [hgone.fetchSince, PollTick.requested, hgone.page]
        exact hle
      · intro d hd hrel
        obtain hin | hin | hin := hticks.behind d hd hrel
        · exact .inl (hkept d hd hin)
        · rw [hahead, List.mem_cons] at hin
          cases hin with
          | inl hdoc =>
            subst hdoc
            exact .inl (hmoved.ingested hrel)
          | inr hrest =>
            rw [ahead_goneOn hgone]
            exact .inr (.inl hrest)
        · obtain ⟨hshort, -, hpast⟩ := hin
          refine .inr (.inr ⟨hgone.short ▸ hshort, ?_, ?_⟩)
          · intro c hc
            rw [hmoved.cursor] at hc
            obtain rfl := Option.some.inj hc
            exact hpast doc (hdocs ▸ List.mem_cons_self)
          · intro x hx
            rw [hgone.docs] at hx
            exact hpast x (hdocs ▸ List.mem_cons_of_mem _ hx)
  · have hk := Or.resolve_left (hkeeps t ht doc (by rw [hdocs]; rfl)) hgoes
    rw [heq] at hkept ⊢
    refine ⟨h.documents, ?_, fun _ => ?_, fun t' ht' => nomatch ht'⟩
    · intro c hc
      cases hleft with
      | inl hmoved =>
        rw [hmoved.2.cursor] at hc
        obtain rfl := Option.some.inj hc
        exact ⟨doc, hmem, le_refl _⟩
      | inr hsame =>
        rw [hsame.2] at hc
        exact h.cursor c hc
    · intro d hd hrel hle
      obtain ⟨c, hc, hle⟩ := hle
      cases hleft with
      | inl hstored =>
        obtain ⟨hstores, hmoved⟩ := hstored
        rw [if_pos hstores] at hk
        rw [hmoved.cursor] at hc
        obtain rfl := Option.some.inj hc
        obtain hin | hin | hin := hticks.behind d hd hrel
        · exact hkept d hd hin
        · rw [hahead, List.mem_cons] at hin
          cases hin with
          | inl hdoc =>
            subst hdoc
            exact hmoved.ingested hrel
          | inr hrest =>
            rw [hdocs, List.tail_cons] at hk
            exact absurd (hk d hrest hrel _ rfl) (not_lt.mpr hle)
        · exact absurd (hin.2.2 doc (hdocs ▸ List.mem_cons_self)) (not_lt.mpr hle)
      | inr hsame =>
        rw [if_neg hsame.1] at hk
        rw [hsame.2] at hc
        obtain hin | hin | hin := hticks.behind d hd hrel
        · exact hkept d hd hin
        · exact absurd (hk d hin hrel c hc) (not_lt.mpr hle)
        · exact absurd (hin.2.1 c hc) (not_lt.mpr hle)

theorem ahead_add {documents : List (PaperlessDocument τ)} :
    ∃ extra, ahead env (documents ++ [d]) t = ahead env documents t ++ extra ∧ extra.Sublist [d] ∧
      (hasContent d = true → (∀ c ∈ t.fetchSince, c < d.added) →
        t.requested env ≤ (listed documents t.fetchSince).length → d ∈ extra) := by
  refine ⟨((listed [d] t.fetchSince).drop (t.requested env - (listed documents t.fetchSince).length)).filter hasContent,
    ?_, ?_, ?_⟩
  · simp only [ahead, later, listed, List.filter_append, List.drop_append, List.append_assoc]
  · exact (List.filter_sublist.trans (List.drop_sublist _ _)).trans List.filter_sublist
  · intro hcontent hsince hle
    rw [Nat.sub_eq_zero_of_le hle]
    simpa [listed, hcontent] using hsince

theorem listed_length_le {documents : List (PaperlessDocument τ)} {since : Option τ} :
    (listed documents since).length ≤ (listed (documents ++ [d]) since).length := by
  simp [listed]

theorem Polls.adds (h : Polls env st) (hnew : ∀ e ∈ st.documents, e.id ≠ d.id ∧ e.added ≤ d.added)
    (hkeeps : KeepsTogether env (.add d) st) : Polls env { st with documents := st.documents ++ [d] } := by
  refine ⟨?_, ?_, ?_, ?_⟩
  · simp only [List.pairwise_append, List.mem_singleton]
    refine ⟨h.documents, by simp, ?_⟩
    intro a ha b hb
    subst hb
    exact hnew a ha
  · intro c hc
    obtain ⟨e, he, hle⟩ := h.cursor c hc
    exact ⟨e, List.mem_append_left _ he, hle⟩
  · intro hidle e he hrel hle
    replace hidle : st.tick = none := hidle
    rw [List.mem_append, List.mem_singleton] at he
    cases he with
    | inl he => exact h.idle hidle e he hrel hle
    | inr he =>
      subst he
      obtain ⟨c, hc, hle⟩ := hle
      exact absurd ((hkeeps hrel).1 hidle c hc) (not_lt.mpr hle)
  · intro t ht
    replace ht : st.tick = some t := ht
    have hticks := h.busy t ht
    obtain ⟨extra, hahead, hsub, hextra⟩ := @ahead_add _ _ env d t st.documents
    have heq : ∀ x ∈ extra, x = d := fun x hx => List.mem_singleton.mp (hsub.subset hx)
    have hold : ∀ x ∈ ahead env st.documents t, x ∈ st.documents := by
      intro x hx
      rw [ahead, List.mem_append] at hx
      cases hx with
      | inl hx => exact hticks.mem x hx
      | inr hx => exact (mem_listed.mp (List.mem_of_mem_drop (List.mem_of_mem_filter hx))).1
    refine ⟨hticks.page, fun x hx => List.mem_append_left _ (hticks.mem x hx), ?_, ?_, ?_, ?_⟩
    · rw [hahead, List.pairwise_append]
      refine ⟨hticks.ordered, (List.pairwise_singleton _ d).sublist hsub, ?_⟩
      intro x hx y hy
      rw [heq y hy]
      exact (hnew x (hold x hx)).2
    · intro x hx c hc
      rw [hahead, List.mem_append] at hx
      cases hx with
      | inl hx => exact hticks.cursor x hx c hc
      | inr hx =>
        obtain ⟨e, he, hle⟩ := h.cursor c hc
        rw [heq x hx]
        exact le_trans hle (hnew e he).2
    · intro hfull
      exact le_trans (hticks.full hfull) listed_length_le
    · intro e he hrel
      rw [hahead]
      rw [List.mem_append, List.mem_singleton] at he
      cases he with
      | inl he =>
        obtain hin | hin | hin := hticks.behind e he hrel
        · exact .inl hin
        · exact .inr (.inl (List.mem_append_left _ hin))
        · exact .inr (.inr hin)
      | inr he =>
        subst he
        have hk := (hkeeps hrel).2 t ht
        cases hshort : t.short with
        | true => exact .inr (.inr ⟨rfl, hk.2 hshort⟩)
        | false => exact .inr (.inl (List.mem_append_right _ (hextra hrel.1 hk.1 (hticks.full hshort))))

/-! ## Runs -/

theorem Polls.step {l : PollLabel τ} (h : Polls env st) (hkeeps : KeepsTogether env l st)
    (hstep : pollStep env l st = some st') : Polls env st' := by
  cases l with
  | add d =>
    simp only [pollStep] at hstep
    split at hstep
    · rename_i hnew
      obtain rfl := Option.some.inj hstep
      exact h.adds hnew hkeeps
    · cases hstep
  | start =>
    simp only [pollStep] at hstep
    cases htick : st.tick with
    | none =>
      simp only [htick, Option.isSome_none] at hstep
      obtain rfl := Option.some.inj hstep
      exact h.starts htick
    | some t => simp [htick] at hstep
  | request page =>
    obtain ⟨t, ht, hstep⟩ := Option.bind_eq_some_iff.mp hstep
    split at hstep
    · rename_i hdocs
      obtain rfl := Option.some.inj hstep
      exact h.requests ht hdocs hkeeps
    · cases hstep
  | document fate =>
    obtain ⟨t, ht, hstep⟩ := Option.bind_eq_some_iff.mp hstep
    cases hdocs : t.docs with
    | nil => simp [hdocs] at hstep
    | cons doc rest =>
      simp only [hdocs] at hstep
      obtain rfl := Option.some.inj hstep
      exact h.documents_step ht hdocs hkeeps

theorem polls_invariant (h : Reaches (pollStep env) (KeepsTogether env) .start st) : Polls env st :=
  h.invariant .start fun _ _ _ hinv hkeeps hstep => hinv.step hkeeps hstep

/-- Between the ticks every document up to the cursor is ingested. -/
theorem polling_covers (h : Reaches (pollStep env) (KeepsTogether env) .start st) (hidle : st.tick = none) :
    Covered env st := (polls_invariant h).idle hidle

end Proofs

/-! ## Two documents of one time -/

/-- A source with pages of 25 and no tokenizer. -/
def plainPollEnv : PollEnv := ⟨none, id, 25⟩

/-- The second call of the tick raises. -/
def twinRun : List (PollLabel Nat) :=
  [.add ⟨1, "one", 0⟩, .add ⟨2, "two", 0⟩, .start, .request .answered, .document ⟨1, 0, none⟩,
    .document ⟨0, 0, some .ingesting⟩, .start, .request .answered]

/-- The same documents a moment apart; the next tick takes the second. -/
def apartRun : List (PollLabel Nat) :=
  [.add ⟨1, "one", 0⟩, .add ⟨2, "two", 1⟩, .start, .request .answered, .document ⟨1, 0, none⟩,
    .document ⟨0, 0, some .ingesting⟩, .start, .request .answered, .document ⟨1, 0, none⟩, .request .failed]

theorem polling_covers_apart :
    (runTo (pollStep plainPollEnv) apartRun .start).tick = none ∧ (runTo (pollStep plainPollEnv) apartRun .start).source.pollCursor = some 1 ∧
      Covered plainPollEnv (runTo (pollStep plainPollEnv) apartRun .start) :=
  ⟨by decide, by decide, polling_covers (reaches_runTo (by decide) (by decide)) (by decide)⟩

theorem twin_never_listed : ¬ ∀ (env : PollEnv) (s : PollState Nat),
    Reaches (pollStep env) (fun _ _ => True) .start s → s.tick = none → Covered env s := by
  intro h
  have hreach : Reaches (pollStep plainPollEnv) (fun _ _ => True) .start (runTo (pollStep plainPollEnv) twinRun .start) :=
    reaches_runTo (by decide) (by decide)
  exact absurd (h _ _ hreach (by decide)) (by decide)

end Lumogis
