import Lumogis.Permissions
import Lumogis.Store
import Mathlib.Data.List.Sort
import Mathlib.Logic.Function.Basic

/-!
# Captures

Indexing a capture: its reviewed text becomes a note and a point of the `conversations` collection,
and the capture row is set to `indexed` and to the note. When the point cannot be written the note
is deleted again and the row is set to `failed`, from where the call may be repeated.
-/

namespace Lumogis

open Prog Permissions

/-- The `CHECK` on `captures.status` leaves no other. -/
inductive CaptureStatus where
  | pending | failed | indexed
  deriving DecidableEq

/-- `(user_id, id)`. -/
abbrev CaptureKey := String × String

structure CaptureRow where
  status : CaptureStatus
  title : Option String
  text : Option String
  url : Option String
  noteId : Option Nat
  lastError : Option String

structure CaptureAttachment where
  id : String
  capture : CaptureKey
  attachmentType : String
  createdAt : Nat

structure CaptureTranscript where
  attachmentId : String
  capture : CaptureKey
  transcriptStatus : String
  transcriptText : Option String
  createdAt : Nat

structure NoteRow where
  text : String
  userId : String
  source : String
  scope : String

structure NotePoint where
  vector : Embedding
  sessionId : String
  summary : String
  userId : String
  scope : String
  noteId : String
  source : String

/-- A note's key is the number of its draw from `gen_random_uuid()`. -/
structure CaptureStore where
  captures : CaptureKey → Option CaptureRow
  attachments : List CaptureAttachment
  transcripts : List CaptureTranscript
  notes : Nat → Option NoteRow
  notesSeq : Nat
  conversations : String → Option NotePoint

inductive CaptureErr where
  | http (status : Nat) (error : String)
  | database
  | embedder
  | vectorStore

structure CaptureEnv where
  uuid5 : String → String
  /-- The text of the UUID of a draw. -/
  uuid4 : Nat → String
  /-- The UUID that a text stands for, if it stands for one. -/
  parseUuid : String → Option String
  embed : String → Embedding
  strError : CaptureErr → String

abbrev CaptureM (α : Type) := Prog CaptureStore CaptureErr α

/-! ## Statements -/

def CaptureStore.insertNote (row : NoteRow) (s : CaptureStore) : CaptureStore :=
  { s with notes := Function.update s.notes s.notesSeq (some row), notesSeq := s.notesSeq + 1 }

def CaptureRow.dropNote (noteId : Nat) (row : CaptureRow) : CaptureRow :=
  if row.noteId = some noteId then { row with noteId := none } else row

/-- `captures.note_id` is `ON DELETE SET NULL`. -/
def CaptureStore.deleteNote (noteId : Nat) (s : CaptureStore) : CaptureStore :=
  { s with
    notes := Function.update s.notes noteId none
    captures := fun key => (s.captures key).map (CaptureRow.dropNote noteId) }

def CaptureStore.upsertPoint (id : String) (point : NotePoint) (s : CaptureStore) : CaptureStore :=
  { s with conversations := Function.update s.conversations id (some point) }

def CaptureStore.updateCapture (key : CaptureKey) (f : CaptureRow → CaptureRow) (s : CaptureStore) :
    CaptureStore :=
  { s with captures := Function.update s.captures key ((s.captures key).map f) }

def selectCapture (key : CaptureKey) : CaptureM (Option CaptureRow) :=
  query .database fun s => s.captures key

def selectAttachments (key : CaptureKey) : CaptureM (List CaptureAttachment) :=
  query .database fun s => (s.attachments.filter fun a => a.capture = key).insertionSort
    fun a b => a.createdAt ≤ b.createdAt

def selectTranscripts (key : CaptureKey) : CaptureM (List CaptureTranscript) :=
  query .database fun s => (s.transcripts.filter fun t => t.capture = key).insertionSort
    fun a b => a.createdAt ≤ b.createdAt

def insertNote (row : NoteRow) : CaptureM Nat := act .database fun s => (s.notesSeq, s.insertNote row)

def deleteNote (noteId : Nat) : CaptureM Unit := act .database fun s => ((), s.deleteNote noteId)

def markFailed (key : CaptureKey) (lastError : String) : CaptureM Unit :=
  act .database fun s => ((), s.updateCapture key fun row =>
    { row with status := .failed, lastError := some lastError })

/-- `note_id` references a note. -/
def markIndexed (key : CaptureKey) (noteId : Nat) : CaptureM Unit :=
  actE .database fun s =>
    if (s.notes noteId).isSome || (s.captures key).isNone then
      (.ok (), s.updateCapture key fun row =>
        { row with status := .indexed, noteId := some noteId, lastError := none })
    else (.error .database, s)

/-! ## Functions -/

structure CaptureDetail where
  key : CaptureKey
  row : CaptureRow
  attachments : List CaptureAttachment
  transcripts : List CaptureTranscript

def getCapture (env : CaptureEnv) (userId captureId : String) : CaptureM CaptureDetail :=
  match env.parseUuid captureId with
  | none => .raise (.http 404 "capture_not_found")
  | some id => do
    match ← selectCapture (userId, id) with
    | none => .raise (.http 404 "capture_not_found")
    | some row =>
      let attachments ← selectAttachments (userId, id)
      let transcripts ← selectTranscripts (userId, id)
      return ⟨(userId, id), row, attachments, transcripts⟩

/-- `none` also for a blank text. -/
def normalizeText (value : Option String) : Option String :=
  value.bind fun s => if strip s = "" then none else some (strip s)

def combinedCaptureMemoryText (detail : CaptureDetail) : String :=
  let transcripts := detail.transcripts.insertionSort fun a b => a.createdAt ≤ b.createdAt
  "\n\n".intercalate ((normalizeText detail.row.title).toList ++
    (normalizeText detail.row.text).toList ++
    ((normalizeText detail.row.url).map ("URL: " ++ ·)).toList ++
    (transcripts.filter fun t => t.transcriptStatus == "complete").filterMap
      fun t => normalizeText t.transcriptText)

/-- Each audio attachment has a complete transcript with a text. -/
def audioTranscriptsReadyForIndex (detail : CaptureDetail) : Bool :=
  (detail.attachments.filter fun a => a.attachmentType == "audio").all fun a =>
    (detail.transcripts.filter fun t => t.attachmentId == a.id).any fun t =>
      t.transcriptStatus == "complete" && (normalizeText t.transcriptText).isSome

def shortIndexError (text : String) : String :=
  String.ofList ((text.toList.map fun c => if c = '\n' then ' ' else c).take 2000)

def noteConversationPointId (env : CaptureEnv) (userId : String) (noteId : Nat) : String :=
  env.uuid5 ("capture-note::" ++ userId ++ "::" ++ env.uuid4 noteId)

def captureNote (userId combined : String) : NoteRow :=
  ⟨combined, userId, "lumogis_web_capture", "personal"⟩

def capturePoint (env : CaptureEnv) (userId combined : String) (noteId : Nat) (vector : Embedding) :
    NotePoint :=
  ⟨vector, env.uuid4 noteId, combined, userId, "personal", env.uuid4 noteId, "lumogis_web_capture"⟩

/-- The text to index, when the capture is in a state for it. -/
def indexableText (detail : CaptureDetail) : Except CaptureErr String :=
  if detail.row.status = .indexed then .error (.http 409 "capture_indexed")
  else if (detail.attachments.any fun a => a.attachmentType == "audio") &&
      !audioTranscriptsReadyForIndex detail then
    .error (.http 422 "capture_transcript_required")
  else if strip (combinedCaptureMemoryText detail) = "" then
    .error (.http 422 "capture_no_indexable_content")
  else .ok (combinedCaptureMemoryText detail)

/-- The part of `index_capture` before the `INSERT`. -/
def checkIndexable (env : CaptureEnv) (userId captureId : String) :
    CaptureM (CaptureKey × String) := do
  let detail ← getCapture env userId captureId
  match indexableText detail with
  | .error e => .raise e
  | .ok combined => return (detail.key, combined)

/-- The `try` block of `index_capture`. -/
def writeNotePoint (env : CaptureEnv) (userId combined : String) (noteId : Nat) : CaptureM Unit := do
  let vector ← query .embedder fun _ => env.embed combined
  act .vectorStore fun s => ((), s.upsertPoint (noteConversationPointId env userId noteId)
    (capturePoint env userId combined noteId vector))

def indexCapture (env : CaptureEnv) (userId captureId : String) : CaptureM CaptureDetail := do
  let (key, combined) ← checkIndexable env userId captureId
  let noteId ← insertNote (captureNote userId combined)
  match ← (writeNotePoint env userId combined noteId).attempt with
  | .error e =>
    -- A failure of the cleanup is logged, not raised.
    let _ ← (deleteNote noteId).attempt
    markFailed key (shortIndexError (env.strError e))
    .raise (.http 503 "index_memory_unavailable")
  | .ok () =>
    markIndexed key noteId
    getCapture env userId captureId

end Lumogis
