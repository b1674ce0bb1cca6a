import Lumogis.CaptureOutbox
import Lumogis.Captures

/-!
# CaptureApi

The two requests of a sync as the server takes them (`captures.py`): `create_capture`, with its replay
by client id and payload, and `add_capture_attachment`, with its replay by client attachment id. The
tables are those of one user.
-/

namespace Lumogis

open Prog Permissions

/-- The `CHECK` on `captures.capture_type` leaves no other. -/
inductive CaptureType where
  | text | url | photo | voice | mixed
  deriving DecidableEq

inductive AttachmentKind where
  | image | audio
  deriving DecidableEq

structure CaptureRecord where
  id : String
  localClientId : Option String
  captureType : CaptureType
  title : Option String
  text : Option String
  url : Option String
  tags : Option (List String)
  status : CaptureStatus
  deriving DecidableEq

/-- The row and the file of an attachment. -/
structure AttachmentRecord where
  id : String
  captureId : String
  attachmentType : AttachmentKind
  originalFilename : String
  mimeType : String
  content : AudioBlob
  clientAttachmentId : Option String

structure CapturesDb where
  captures : List CaptureRecord
  attachments : List AttachmentRecord
  /-- How many ids have been drawn. -/
  drawn : Nat

inductive CaptureApiError where
  /-- The body does not validate. -/
  | validation
  | http (status : Nat) (error : String)
  | mimeTypeNotAllowed (mimeType : String)
  | fileTooLarge (limitBytes : Nat)

structure CaptureApi where
  /-- `str_strip_whitespace` of the body. -/
  fieldStrip : String → String
  /-- `UUID(s)` does not raise. -/
  isUuid : String → Bool
  lower : String → String
  /-- The `n`th id. -/
  newId : Nat → String
  imageMaxBytes : Nat
  audioMaxBytes : Nat
  /-- What the client throws. -/
  thrown : CaptureApiError → OutboxError
  newId_injective : Function.Injective newId
  newId_isUuid : ∀ n, isUuid (newId n) = true

/-! ## create_capture -/

/-- The scheme of `^([a-zA-Z][a-zA-Z0-9+.-]*):`. -/
def urlScheme (url : String) : Option (List Char) :=
  let scheme := url.toList.takeWhile fun c => c.isAlphanum || c == '+' || c == '.' || c == '-'
  if (scheme.head?.any Char.isAlpha) && (url.toList.drop scheme.length).head? == some ':' then some scheme else none

/-- `_validate_url` does not raise. -/
def validUrl (url : String) : Bool :=
  match urlScheme url with
  | none => false
  | some scheme => scheme.map Char.toLower == "http".toList || scheme.map Char.toLower == "https".toList

def deriveCaptureType (text url : Option String) : CaptureType :=
  match text, url with
  | some _, some _ => .mixed
  | none, some _ => .url
  | _, none => .text

/-- `CaptureCreateRequest`, validated. -/
def parseCaptureBody (api : CaptureApi) (body : CaptureCreateRequest) : Except CaptureApiError CaptureCreateRequest :=
  let body : CaptureCreateRequest :=
    { clientId := api.fieldStrip body.clientId, title := body.title.map api.fieldStrip
      text := body.text.map api.fieldStrip, url := body.url.map api.fieldStrip
      tags := body.tags.map (List.map api.fieldStrip) }
  if body.text.any (fun s => 32000 < s.length) || body.title.any (fun s => 256 < s.length) ||
      body.url.any (fun s => 2048 < s.length) then .error .validation
  else if body.tags.any (fun tags => tags.any fun t => t.length < 1 || 64 < t.length) then .error .validation
  else if body.text.isNone && body.url.isNone then .error .validation
  else if body.tags.any (fun tags => 20 < tags.length) then .error .validation
  else .ok body

/-- The checks of `create_capture`, with the texts normalised. -/
def checkCreate (api : CaptureApi) (body : CaptureCreateRequest) : Except CaptureApiError CaptureCreateRequest := do
  let body ← parseCaptureBody api body
  let text := normalizeText body.text
  let url := normalizeText body.url
  if text.isNone && url.isNone then .error (.http 422 "capture_requires_text_or_url")
  else if url.any (!validUrl ·) then .error (.http 422 "invalid_url_scheme")
  else if !api.isUuid body.clientId then .error (.http 422 "invalid_client_id")
  else .ok { body with text := text, url := url, title := normalizeText body.title }

/-- What `_payload_identity` serialises. -/
structure PayloadIdentity where
  text : Option String
  title : Option String
  url : Option String
  tags : Option (List String)
  captureType : CaptureType
  deriving DecidableEq

def payloadIdentity (text title url : Option String) (tags : Option (List String)) (captureType : CaptureType) :
    PayloadIdentity :=
  { text := text, title := title, url := url, captureType := captureType
    tags := (nonEmptyTags tags).map fun tags => tags.insertionSort (· ≤ ·) }

def CaptureCreateRequest.captureType (body : CaptureCreateRequest) : CaptureType := deriveCaptureType body.text body.url

def CaptureCreateRequest.identity (body : CaptureCreateRequest) : PayloadIdentity :=
  payloadIdentity body.text body.title body.url body.tags body.captureType

def CaptureRecord.identity (row : CaptureRecord) : PayloadIdentity :=
  payloadIdentity row.text row.title row.url row.tags row.captureType

/-- The inserted row. -/
def CaptureCreateRequest.record (body : CaptureCreateRequest) (id : String) : CaptureRecord :=
  { id := id, localClientId := some body.clientId, captureType := body.captureType, title := body.title
    text := body.text, url := body.url, tags := body.tags, status := .pending }

def createCapture (api : CaptureApi) (request : CaptureCreateRequest) (db : CapturesDb) :
    Except OutboxError String × CapturesDb :=
  match checkCreate api request with
  | .error e => (.error (api.thrown e), db)
  | .ok body =>
    match db.captures.find? (·.localClientId == some body.clientId) with
    | some row =>
      if body.identity ≠ row.identity then (.error (api.thrown (.http 409 "idempotency_key_conflict")), db)
      else (.ok row.id, db)
    | none =>
      (.ok (api.newId db.drawn),
        { db with captures := db.captures ++ [body.record (api.newId db.drawn)], drawn := db.drawn + 1 })

/-! ## add_capture_attachment -/

def imageMimeAllowlist : List String := ["image/jpeg", "image/png", "image/webp"]

def audioMimeAllowlist : List String := ["audio/webm", "audio/mp4", "audio/mpeg", "audio/wav"]

/-- `classify_inbound_mime`; `none` for `MimeNotAllowedError`. -/
def classifyInboundMime (api : CaptureApi) (mimeType : String) : Option (AttachmentKind × String) :=
  let m := api.lower (strip mimeType)
  if m ∈ imageMimeAllowlist then some (.image, m)
  else if m ∈ audioMimeAllowlist then some (.audio, m)
  else none

def CaptureApi.maxBytes (api : CaptureApi) : AttachmentKind → Nat
  | .image => api.imageMaxBytes
  | .audio => api.audioMaxBytes

def nextCaptureTypeForNewAttachment (current : CaptureType) (hasText hasUrl : Bool) : AttachmentKind → CaptureType
  | .image =>
    if current = .voice ∨ current = .mixed then .mixed
    else if current = .photo then .photo
    else if (hasText || hasUrl) = true ∨ current = .text ∨ current = .url then .mixed
    else .photo
  | .audio =>
    if current = .photo ∨ current = .mixed then .mixed
    else if current = .voice then .voice
    else if (hasText || hasUrl) = true ∨ current = .text ∨ current = .url then .mixed
    else .voice

/-- The type of the row once the attachment is there. -/
def CaptureRecord.nextType (row : CaptureRecord) (kind : AttachmentKind) : CaptureType :=
  nextCaptureTypeForNewAttachment row.captureType (normalizeText row.text).isSome (normalizeText row.url).isSome kind

def CapturesDb.setType (captureId : String) (type : CaptureType) (db : CapturesDb) : CapturesDb :=
  { db with captures := Table.updateWhere (·.id == captureId) (fun r => { r with captureType := type }) db.captures }

/-- The inserted attachment, and the type of its capture. -/
def insertAttachment (api : CaptureApi) (row : CaptureRecord) (upload : AttachmentUpload) (kind : AttachmentKind)
    (mimeType : String) (clientAttachmentId : Option String) (db : CapturesDb) : CapturesDb :=
  let attachment : AttachmentRecord :=
    { id := api.newId db.drawn, captureId := row.id, attachmentType := kind, originalFilename := upload.fileName
      mimeType := mimeType, content := upload.blob, clientAttachmentId := clientAttachmentId }
  let db := { db with attachments := db.attachments ++ [attachment], drawn := db.drawn + 1 }
  if row.nextType kind ≠ row.captureType then db.setType row.id (row.nextType kind) else db

/-- A blank id is none. -/
def clientAttachmentKey (clientAttachmentId : String) : Option String :=
  if strip clientAttachmentId = "" then none else some (strip clientAttachmentId)

def addCaptureAttachment (api : CaptureApi) (captureId : String) (upload : AttachmentUpload) (db : CapturesDb) :
    Except OutboxError Unit × CapturesDb :=
  let refused (e : CaptureApiError) : Except OutboxError Unit × CapturesDb := (.error (api.thrown e), db)
  if !api.isUuid captureId then refused (.http 404 "capture_not_found")
  else
    match db.captures.find? (·.id == captureId) with
    | none => refused (.http 404 "capture_not_found")
    | some row =>
      if row.status = .indexed then refused (.http 409 "capture_indexed")
      else
        let lc := clientAttachmentKey upload.clientAttachmentId
        if lc.any (!api.isUuid ·) then refused (.http 422 "invalid_client_attachment_id")
        else if lc.isSome && db.attachments.any (fun a => a.captureId == captureId && a.clientAttachmentId == lc) then
          (.ok (), db)
        else if strip upload.contentType = "" then refused (.http 422 "missing_content_type")
        else
          match classifyInboundMime api upload.contentType with
          | none => refused (.mimeTypeNotAllowed upload.contentType)
          | some (kind, mimeType) =>
            if api.maxBytes kind < upload.blob.size then refused (.fileTooLarge (api.maxBytes kind))
            else (.ok (), insertAttachment api row upload kind mimeType lc db)

def captureServer (api : CaptureApi) : CaptureServer CapturesDb :=
  { createCapture := createCapture api, uploadCaptureAttachment := addCaptureAttachment api }

end Lumogis
