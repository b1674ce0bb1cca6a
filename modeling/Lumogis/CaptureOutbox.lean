import Mathlib.Algebra.Ring.Nat
import Mathlib.Data.List.Infix
import Lumogis.Lib.Rely

/-!
# CaptureOutbox

The outbox of the web client (`captureOutbox.ts`): captures that wait on the device for a sync.

Every operation on the device's store and every request to the server is one call of a program, and
between two calls of one operation those of others may come. `storeFates` and `requestFates` say what
becomes of the calls to come; `seen`, `counted` and `discarded` are history, which no operation reads.
-/

namespace Lumogis

open Prog

def maxPendingVoiceClips : Nat := 10

def maxLocalVoiceBytesTotal : Nat := 100 * 1024 * 1024

def maxSingleAudioBytes : Nat := 26214400

inductive CaptureOutboxStatus where
  | localPending | syncing | synced | failed

inductive TextUrlKind where
  | text | url

inductive CaptureOutboxKind where
  | textUrl (kind : TextUrlKind)
  | audio (localAttachmentId mimeType : String) (sizeBytes : Nat)

structure CaptureOutboxItemMeta where
  localCaptureId : String
  kind : CaptureOutboxKind
  title : Option String
  text : Option String
  url : Option String
  tags : Option (List String)
  status : CaptureOutboxStatus
  lastError : Option String

structure AudioBlob where
  size : Nat
  content : String
  deriving DecidableEq

inductive OutboxError where
  | captureOutbox (code message : String)
  | api (status : Nat) (detail : String)
  | error (message : String)
  /-- What is thrown is no `Error`. -/
  | other

/-- `e instanceof Error ? e.message : fallback`. -/
def OutboxError.messageOr (fallback : String) : OutboxError → String
  | .captureOutbox _ message => message
  | .api status detail => "HTTP " ++ toString status ++ ": " ++ detail
  | .error message => message
  | .other => fallback

structure OutboxEnv where
  trim : String → String
  /-- `(size / 1024 / 1024).toFixed(1)`. -/
  mebibytes : Nat → String
  formatCaptureErrorMessage : (status : Nat) → (detail : String) → String

structure CaptureCreateRequest where
  clientId : String
  title : Option String
  text : Option String
  url : Option String
  tags : Option (List String)

structure AttachmentUpload where
  fileName : String
  contentType : String
  blob : AudioBlob
  clientAttachmentId : String

structure CaptureServer (σ : Type) where
  /-- The id of the capture. -/
  createCapture : CaptureCreateRequest → σ → Except OutboxError String × σ
  uploadCaptureAttachment : (captureId : String) → AttachmentUpload → σ → Except OutboxError Unit × σ

inductive RequestFate where
  | answered
  /-- The request does not reach the server. -/
  | lost (e : OutboxError)
  | replyLost (e : OutboxError)

structure OutboxState (ι σ : Type) where
  /-- Empty when there is no index. -/
  index : List String
  record : String → Option CaptureOutboxItemMeta
  blob : String → Option AudioBlob
  server : σ
  /-- The error of each store operation that fails. -/
  storeFates : List (Option OutboxError)
  requestFates : List RequestFate
  /-- Captures and attachments that the server has acknowledged. -/
  captured : List String
  uploaded : List String
  /-- Items whose discard was asked for. -/
  discarded : List String
  /-- The index as a call last read it. -/
  seen : ι → List String
  /-- The pending clips and their bytes, as a call counted them. -/
  counted : ι → Option (Nat × Nat)

abbrev OutboxM (ι σ α : Type) := Prog (OutboxState ι σ) OutboxError α

variable {ι σ α : Type} [DecidableEq ι]

namespace OutboxState

def nextStoreFate (s : OutboxState ι σ) : OutboxState ι σ :=
  { s with storeFates := s.storeFates.tail }

def nextRequestFate (s : OutboxState ι σ) : OutboxState ι σ :=
  { s with requestFates := s.requestFates.tail }

def setRecord (id : String) (m : Option CaptureOutboxItemMeta) (s : OutboxState ι σ) :
    OutboxState ι σ :=
  { s with record := Function.update s.record id m }

def setBlob (id : String) (b : Option AudioBlob) (s : OutboxState ι σ) : OutboxState ι σ :=
  { s with blob := Function.update s.blob id b }

def noteSeen (i : ι) (s : OutboxState ι σ) : OutboxState ι σ :=
  { s with seen := Function.update s.seen i s.index }

def noteCounted (i : ι) (n total : Nat) (s : OutboxState ι σ) : OutboxState ι σ :=
  { s with counted := Function.update s.counted i (some (n, total)) }

end OutboxState

/-! ## Awaits -/

/-- An operation on the device's store. -/
def storeOp (f : OutboxState ι σ → α × OutboxState ι σ) : OutboxM ι σ α :=
  actE .other fun s =>
    match s.storeFates.head? with
    | some (some e) => (.error e, s.nextStoreFate)
    | _ => (.ok (f s).1, (f s).2.nextStoreFate)

/-- A request to the server; `ack` notes what was acknowledged. -/
def outboxRequest (f : σ → Except OutboxError α × σ) (ack : OutboxState ι σ → OutboxState ι σ) :
    OutboxM ι σ α :=
  actE .other fun s =>
    match s.requestFates.head? with
    | some (.lost e) => (.error e, s.nextRequestFate)
    | some (.replyLost e) => (.error e, { s with server := (f s.server).2 }.nextRequestFate)
    | _ =>
      match (f s.server).1 with
      | .ok a => (.ok a, (ack { s with server := (f s.server).2 }).nextRequestFate)
      | .error e => (.error e, { s with server := (f s.server).2 }.nextRequestFate)

/-- History. -/
def note (f : OutboxState ι σ → OutboxState ι σ) : OutboxM ι σ Unit :=
  act .other fun s => ((), f s)

/-- `try { p } catch { /* soft */ }`. -/
def soft (p : OutboxM ι σ Unit) : OutboxM ι σ Unit := p.tryCatch fun _ => pure ()

/-! ## The index and the records -/

def readIndex (i : ι) : OutboxM ι σ (List String) := storeOp fun s => (s.index, s.noteSeen i)

def writeIndex (ids : List String) : OutboxM ι σ Unit := storeOp fun s => ((), { s with index := ids })

def appendToIndex (i : ι) (id : String) : OutboxM ι σ Unit := do
  let idx ← readIndex i
  writeIndex (if id ∈ idx then idx else idx ++ [id])

def removeFromIndex (i : ι) (id : String) : OutboxM ι σ Unit := do
  let idx ← readIndex i
  writeIndex (idx.filter (· != id))

def getMeta (id : String) : OutboxM ι σ (Option CaptureOutboxItemMeta) :=
  storeOp fun s => (s.record id, s)

/-- One round of `listOutboxItems`; an id without a record is passed over. -/
def listItem (out : List CaptureOutboxItemMeta) (id : String) :
    OutboxM ι σ (List CaptureOutboxItemMeta) := do
  let raw ← getMeta id
  pure (out ++ raw.toList)

def listOutboxItems (i : ι) : OutboxM ι σ (List CaptureOutboxItemMeta) := do
  let ids ← readIndex i
  foldM listItem [] ids

def CaptureOutboxStatus.isPending : CaptureOutboxStatus → Bool
  | .localPending | .failed | .syncing => true
  | .synced => false

def CaptureOutboxKind.isAudio : CaptureOutboxKind → Bool
  | .audio _ _ _ => true
  | .textUrl _ => false

def CaptureOutboxKind.sizeBytes : CaptureOutboxKind → Nat
  | .audio _ _ size => size
  | .textUrl _ => 0

def CaptureOutboxKind.localAttachmentId : CaptureOutboxKind → Option String
  | .audio id _ _ => some id
  | .textUrl _ => none

def countsTowardVoiceCap (m : CaptureOutboxItemMeta) : Bool := m.kind.isAudio && m.status.isPending

def voiceClips (items : List CaptureOutboxItemMeta) : Nat := (items.filter countsTowardVoiceCap).length

def voiceBytes (items : List CaptureOutboxItemMeta) : Nat :=
  ((items.filter countsTowardVoiceCap).map fun m => m.kind.sizeBytes).sum

def totalPendingVoiceBytes (i : ι) : OutboxM ι σ Nat := do
  let items ← listOutboxItems i
  pure (voiceBytes items)

def pendingVoiceClipCount (i : ι) : OutboxM ι σ Nat := do
  let items ← listOutboxItems i
  pure (voiceClips items)

def saveMeta (m : CaptureOutboxItemMeta) : OutboxM ι σ Unit :=
  (storeOp fun s => ((), s.setRecord m.localCaptureId (some m))).tryCatch fun e =>
    .raise (.captureOutbox "idb_unavailable" (e.messageOr "Could not save to local storage."))

/-- Of a voice item, the clip. -/
def discardBlob (item : Option CaptureOutboxItemMeta) : OutboxM ι σ Unit :=
  match item.bind fun m => m.kind.localAttachmentId with
  | some att => soft (storeOp fun s => ((), s.setBlob att none))
  | none => pure ()

def discardOutboxItem (i : ι) (localCaptureId : String) : OutboxM ι σ Unit := do
  let item ← getMeta localCaptureId
  discardBlob item
  soft (storeOp fun s => ((), s.setRecord localCaptureId none))
  removeFromIndex i localCaptureId

/-! ## Adding -/

/-- `s?.trim() || undefined`. -/
def trimmed (env : OutboxEnv) (s : Option String) : Option String :=
  match s.map env.trim with
  | none => none
  | some t => if t = "" then none else some t

/-- `tags?.length ? tags : undefined`. -/
def nonEmptyTags (tags : Option (List String)) : Option (List String) :=
  match tags with
  | some (t :: ts) => some (t :: ts)
  | _ => none

structure TextUrlInput where
  kind : TextUrlKind
  title : Option String
  text : Option String
  url : Option String
  tags : Option (List String)

/-- `newId` is what `newId()` returns. -/
def addTextUrlOutboxItem (env : OutboxEnv) (i : ι) (newId : String) (input : TextUrlInput) :
    OutboxM ι σ CaptureOutboxItemMeta :=
  if trimmed env input.text = none ∧ trimmed env input.url = none then
    .raise (.captureOutbox "validation" "Enter a note or a URL to save locally.")
  else do
    let item : CaptureOutboxItemMeta :=
      { localCaptureId := newId, kind := .textUrl input.kind, title := trimmed env input.title
        text := trimmed env input.text, url := trimmed env input.url, tags := nonEmptyTags input.tags
        status := .localPending, lastError := none }
    appendToIndex i newId
    saveMeta item
    pure item

structure AudioInput where
  blob : AudioBlob
  mimeType : String
  title : Option String
  text : Option String
  url : Option String
  tags : Option (List String)

def AudioInput.item (env : OutboxEnv) (newCaptureId newAttachmentId : String) (input : AudioInput) :
    CaptureOutboxItemMeta :=
  { localCaptureId := newCaptureId
    kind := .audio newAttachmentId input.mimeType input.blob.size
    title := trimmed env input.title, text := trimmed env input.text, url := trimmed env input.url
    tags := nonEmptyTags input.tags, status := .localPending, lastError := none }

/-- From the clip to its record, with the limits already checked. -/
def storeAudioItem (env : OutboxEnv) (i : ι) (newCaptureId newAttachmentId : String)
    (input : AudioInput) : OutboxM ι σ CaptureOutboxItemMeta := do
  (storeOp fun s => ((), s.setBlob newAttachmentId (some input.blob))).tryCatch fun e =>
    .raise (.captureOutbox "idb_unavailable" (e.messageOr "Could not save audio on this device."))
  tryCatch (do
    appendToIndex i newCaptureId
    saveMeta (input.item env newCaptureId newAttachmentId)) fun e => do
    soft (storeOp fun s => ((), s.setBlob newAttachmentId none))
    .raise (.captureOutbox "idb_unavailable" (e.messageOr "Could not save outbox metadata."))
  pure (input.item env newCaptureId newAttachmentId)

def addAudioOutboxItem (env : OutboxEnv) (i : ι) (newCaptureId newAttachmentId : String)
    (input : AudioInput) : OutboxM ι σ CaptureOutboxItemMeta :=
  let size := input.blob.size
  if size = 0 then .raise (.captureOutbox "validation" "Audio recording is empty.")
  else if maxSingleAudioBytes < size then
    .raise (.captureOutbox "voice_payload_too_large" (String.join ["This clip is too large (",
      env.mebibytes size, " MiB). The server limit is 25 MiB per file."]))
  else do
    let n ← pendingVoiceClipCount i
    if maxPendingVoiceClips ≤ n then
      .raise (.captureOutbox "too_many_voice_clips" (String.join ["You already have ",
        toString maxPendingVoiceClips,
        " pending voice clips. Sync or discard some before adding more."]))
    else do
      let total ← totalPendingVoiceBytes i
      if maxLocalVoiceBytesTotal < total + size then
        .raise (.captureOutbox "voice_total_quota" (String.join [
          "Local voice storage would exceed the limit (100 MiB). ",
          "Sync or discard clips first."]))
      else do
        note fun s => s.noteCounted i n total
        storeAudioItem env i newCaptureId newAttachmentId input

/-! ## Sync -/

def loadBlob (m : CaptureOutboxItemMeta) : OutboxM ι σ (Option AudioBlob) :=
  match m.kind.localAttachmentId with
  | none => pure none
  | some att => (storeOp fun s => (s.blob att, s)).tryCatch fun _ => pure none

/-- What a sync sends as the text. -/
def syncText (env : OutboxEnv) (m : CaptureOutboxItemMeta) : Option String :=
  if m.kind.isAudio then some ((trimmed env m.text).getD "(voice capture)") else trimmed env m.text

def createRequest (env : OutboxEnv) (m : CaptureOutboxItemMeta) : CaptureCreateRequest :=
  { clientId := m.localCaptureId, title := m.title, text := syncText env m, url := trimmed env m.url
    tags := m.tags }

def audioExtension (mimeType : String) : String :=
  if "webm".toList <:+: mimeType.toList then "webm"
  else if "mp4".toList <:+: mimeType.toList then "m4a" else "bin"

def uploadOf (att mimeType : String) (blob : AudioBlob) : AttachmentUpload :=
  { fileName := "sync." ++ audioExtension mimeType, contentType := mimeType, blob := blob
    clientAttachmentId := att }

/-- Of a voice item, its clip. -/
def uploadClip (server : CaptureServer σ) (m : CaptureOutboxItemMeta) (captureId : String) :
    OutboxM ι σ Unit :=
  match m.kind with
  | .textUrl _ => pure ()
  | .audio att mimeType _ => do
    match ← loadBlob m with
    | none => .raise (.error "Local audio blob is missing; discard this item.")
    | some blob =>
      outboxRequest (server.uploadCaptureAttachment captureId (uploadOf att mimeType blob)) fun s =>
        { s with uploaded := att :: s.uploaded }

/-- The `try` block of the loop of `syncOutbox`. -/
def pushItem (env : OutboxEnv) (server : CaptureServer σ) (i : ι) (m : CaptureOutboxItemMeta) :
    OutboxM ι σ Unit :=
  if trimmed env (syncText env m) = none ∧ trimmed env (trimmed env m.url) = none then
    .raise (.captureOutbox "validation" "Cannot sync: missing text and URL.")
  else do
    let captureId ← outboxRequest (server.createCapture (createRequest env m)) fun s =>
      { s with captured := m.localCaptureId :: s.captured }
    uploadClip server m captureId
    discardOutboxItem i m.localCaptureId

structure SyncResult where
  synced : Nat
  failed : Nat
  errors : List String

def syncErrorMessage (env : OutboxEnv) : OutboxError → String
  | .api status detail => env.formatCaptureErrorMessage status detail
  | e => e.messageOr "Sync failed."

def syncItem (env : OutboxEnv) (server : CaptureServer σ) (i : ι) (acc : SyncResult)
    (item : CaptureOutboxItemMeta) : OutboxM ι σ SyncResult := do
  saveMeta { item with status := .syncing, lastError := none }
  match ← (pushItem env server i { item with status := .syncing, lastError := none }).attempt with
  | .ok _ => pure { acc with synced := acc.synced + 1 }
  | .error e =>
    saveMeta { item with status := .failed, lastError := some (syncErrorMessage env e) }
    pure { acc with failed := acc.failed + 1, errors := acc.errors ++ [syncErrorMessage env e] }

def syncOutbox (env : OutboxEnv) (server : CaptureServer σ) (i : ι) : OutboxM ι σ SyncResult := do
  let items ← listOutboxItems i
  foldM (syncItem env server i) { synced := 0, failed := 0, errors := [] }
    (items.filter fun m => m.status.isPending)

end Lumogis
