import Lumogis.CaptureReplay
import Lumogis.Lib.Labelled

/-!
# Lumogis.CaptureTypes

The type of a capture along its edits: `create_capture`, `patch_capture`, `add_capture_attachment` and
`delete_capture_attachment`. An attachment that comes moves the type on from what it was, a patch derives
it from the text and the URL alone, and an attachment that goes leaves it. The type is a function of the
contents in every run in which a patch meets no attachment, or leaves both a text and a URL, and a
deletion leaves the contents of the same type (`capture_types_determined`).
-/

namespace Lumogis

open Permissions Labelled

/-! ## patch_capture and delete_capture_attachment -/

/-- The fields that are set; an inner `none` is a `null`. -/
structure CapturePatchRequest where
  text : Option (Option String) := none
  title : Option (Option String) := none
  url : Option (Option String) := none
  tags : Option (Option (List String)) := none

/-- `CapturePatchRequest`, validated. -/
def parsePatchBody (api : CaptureApi) (body : CapturePatchRequest) : Except CaptureApiError CapturePatchRequest :=
  let body : CapturePatchRequest :=
    { text := body.text.map (Option.map api.fieldStrip), title := body.title.map (Option.map api.fieldStrip)
      url := body.url.map (Option.map api.fieldStrip)
      tags := body.tags.map (Option.map (List.map api.fieldStrip)) }
  if body.text.any (Option.any fun s => 32000 < s.length) || body.title.any (Option.any fun s => 256 < s.length) ||
      body.url.any (Option.any fun s => 2048 < s.length) then .error .validation
  else if body.tags.any (Option.any fun tags => tags.any fun t => t.length < 1 || 64 < t.length) then
    .error .validation
  else .ok body

/-- A field of the row, or what the patch sets it to. -/
def patchedField (field : Option (Option String)) (current : Option String) : Option String :=
  match field with
  | some value => normalizeText value
  | none => current

def CapturesDb.attachmentsOf (db : CapturesDb) (captureId : String) : List AttachmentRecord :=
  db.attachments.filter (·.captureId == captureId)

/-- The row as the `UPDATE` leaves it. -/
def CapturePatchRequest.apply (body : CapturePatchRequest) (row : CaptureRecord) : CaptureRecord :=
  let text := normalizeText (patchedField body.text row.text)
  let url := normalizeText (patchedField body.url row.url)
  { row with
    text := text, url := url, captureType := deriveCaptureType text url
    title := patchedField body.title row.title
    tags := (body.tags.getD none).or row.tags }

def patchCapture (api : CaptureApi) (captureId : String) (body : CapturePatchRequest) (db : CapturesDb) :
    Except OutboxError Unit × CapturesDb :=
  let refused (e : CaptureApiError) : Except OutboxError Unit × CapturesDb := (.error (api.thrown e), db)
  match parsePatchBody api body with
  | .error e => refused e
  | .ok body =>
    if !api.isUuid captureId then refused (.http 404 "capture_not_found")
    else
      match db.captures.find? (·.id == captureId) with
      | none => refused (.http 404 "capture_not_found")
      | some row =>
        if row.status = .indexed then refused (.http 409 "capture_indexed_not_editable")
        else
          let url := patchedField body.url row.url
          if url.any fun url => url != "" && !validUrl url then refused (.http 422 "invalid_url_scheme")
          else
            let patched := body.apply row
            if patched.text.isNone && patched.url.isNone && (db.attachmentsOf captureId).isEmpty then
              refused (.http 422 "capture_requires_text_or_url")
            else
              (.ok (), { db with captures := Table.updateWhere (·.id == captureId) body.apply db.captures })

def deleteCaptureAttachment (api : CaptureApi) (captureId attachmentId : String) (db : CapturesDb) :
    Except OutboxError Unit × CapturesDb :=
  let refused (e : CaptureApiError) : Except OutboxError Unit × CapturesDb := (.error (api.thrown e), db)
  if !api.isUuid captureId || !api.isUuid attachmentId then refused (.http 404 "attachment_not_found")
  else
    match db.captures.find? (·.id == captureId) with
    | none => refused (.http 404 "capture_not_found")
    | some row =>
      if row.status = .indexed then refused (.http 409 "capture_indexed")
      else if (db.attachmentsOf captureId).all (·.id != attachmentId) then refused (.http 404 "attachment_not_found")
      else
        (.ok (), { db with
          attachments := Table.deleteWhere (fun a => a.id == attachmentId && a.captureId == captureId) db.attachments })

/-- `create_capture` without a client id. -/
def createUnkeyedCapture (api : CaptureApi) (request : CaptureCreateRequest) (db : CapturesDb) :
    Except OutboxError String × CapturesDb :=
  match parseCaptureBody api request with
  | .error e => (.error (api.thrown e), db)
  | .ok body =>
    let text := normalizeText body.text
    let url := normalizeText body.url
    if text.isNone && url.isNone then (.error (api.thrown (.http 422 "capture_requires_text_or_url")), db)
    else if url.any (!validUrl ·) then (.error (api.thrown (.http 422 "invalid_url_scheme")), db)
    else
      let body := { body with text := text, url := url, title := normalizeText body.title }
      (.ok (api.newId db.drawn),
        { db with
          captures := db.captures ++ [{ body.record (api.newId db.drawn) with localClientId := none }]
          drawn := db.drawn + 1 })

/-! ## Histories -/

inductive CaptureEdit where
  | create (request : CaptureCreateRequest)
  | createUnkeyed (request : CaptureCreateRequest)
  | patch (captureId : String) (body : CapturePatchRequest)
  | addAttachment (captureId : String) (upload : AttachmentUpload)
  | deleteAttachment (captureId attachmentId : String)

def captureEdit (api : CaptureApi) : CaptureEdit → CapturesDb → Option CapturesDb
  | .create request, db => some (createCapture api request db).2
  | .createUnkeyed request, db => some (createUnkeyedCapture api request db).2
  | .patch captureId body, db => some (patchCapture api captureId body db).2
  | .addAttachment captureId upload, db => some (addCaptureAttachment api captureId upload db).2
  | .deleteAttachment captureId attachmentId, db => some (deleteCaptureAttachment api captureId attachmentId db).2

def noCaptures : CapturesDb := { captures := [], attachments := [], drawn := 0 }

/-- What a capture has. -/
structure CaptureContents where
  text : Bool
  url : Bool
  image : Bool
  audio : Bool
  deriving DecidableEq

/-- A text, a URL, and attachments of the kinds in the list. -/
def contentsOf (text url : Option String) (attachments : List AttachmentRecord) : CaptureContents :=
  { text := text.isSome, url := url.isSome, image := attachments.any (·.attachmentType == .image)
    audio := attachments.any (·.attachmentType == .audio) }

def CapturesDb.contents (db : CapturesDb) (row : CaptureRecord) : CaptureContents :=
  contentsOf row.text row.url (db.attachmentsOf row.id)

/-- The type of every capture is a function of its contents, after all runs that `A` admits. -/
def TypesDetermined (api : CaptureApi) (A : CaptureEdit → CapturesDb → Prop) : Prop :=
  ∃ type : CaptureContents → CaptureType, ∀ db, Reaches (captureEdit api) A noCaptures db →
    ∀ row ∈ db.captures, row.captureType = type (db.contents row)

/-! ## The type of contents -/

def contentType (c : CaptureContents) : CaptureType :=
  if c.image || c.audio then
    if c.text || c.url || (c.image && c.audio) then .mixed else if c.image then .photo else .voice
  else if c.url then if c.text then .mixed else .url
  else .text

/-- The kinds of attachments are the same, or there is a text or a URL and an attachment is left, or there
are both. -/
def SameType (c c' : CaptureContents) : Prop :=
  (c'.image = c.image ∧ c'.audio = c.audio) ∨ ((c.text || c.url) && (c'.image || c'.audio)) = true ∨
    (c.text && c.url) = true

/-- A patch finds no attachment or leaves both a text and a URL; a deletion leaves the type of the contents. -/
def CaptureEdit.Settled (api : CaptureApi) : CaptureEdit → CapturesDb → Prop
  | .patch captureId body, db => ∀ row ∈ db.captures, row.id = captureId →
    ∀ body', parsePatchBody api body = .ok body' → db.attachmentsOf captureId = [] ∨
      ((body'.apply row).text.isSome && (body'.apply row).url.isSome) = true
  | .deleteAttachment captureId attachmentId, db => ∀ row ∈ db.captures, row.id = captureId →
    SameType (db.contents row)
      (contentsOf row.text row.url ((db.attachmentsOf captureId).filter (·.id != attachmentId)))
  | _, _ => True

theorem contentType_derive (text url : Option String) :
    contentType (contentsOf text url []) = deriveCaptureType text url := by
  cases text <;> cases url <;> rfl

theorem derive_eq_contentType_iff (text url : Option String) (attachments : List AttachmentRecord) :
    deriveCaptureType text url = contentType (contentsOf text url attachments) ↔
      attachments = [] ∨ (text.isSome && url.isSome) = true := by
  cases attachments with
  | nil => simp [contentType_derive]
  | cons a l =>
    cases ha : a.attachmentType <;> cases text <;> cases url <;>
      simp [contentsOf, contentType, deriveCaptureType, ha]
    · split <;> simp
    · split <;> simp

theorem contentType_eq_iff {c c' : CaptureContents} (ht : c'.text = c.text) (hu : c'.url = c.url)
    (hi : c'.image = true → c.image = true) (ha : c'.audio = true → c.audio = true) :
    contentType c' = contentType c ↔ SameType c c' := by
  obtain ⟨text, url, image, audio⟩ := c
  obtain ⟨text', url', image', audio'⟩ := c'
  simp only at ht hu hi ha
  subst ht hu
  simp only [SameType]
  revert text' url' image audio image' audio'
  decide

theorem any_filter_imp {α : Type} {p q : α → Bool} {l : List α} (h : (l.filter p).any q = true) : l.any q = true := by
  obtain ⟨a, ha, hq⟩ := List.any_eq_true.mp h
  exact List.any_eq_true.mpr ⟨a, List.mem_of_mem_filter ha, hq⟩

theorem contentType_filter_iff {text url : Option String} {attachments : List AttachmentRecord}
    (p : AttachmentRecord → Bool) :
    contentType (contentsOf text url (attachments.filter p)) = contentType (contentsOf text url attachments) ↔
      SameType (contentsOf text url attachments) (contentsOf text url (attachments.filter p)) :=
  @contentType_eq_iff (contentsOf text url attachments) (contentsOf text url (attachments.filter p)) rfl rfl
    any_filter_imp any_filter_imp

theorem nextType_eq {c : CaptureContents} (hc : (c.text || c.url) = true) (kind : AttachmentKind) :
    nextCaptureTypeForNewAttachment (contentType c) c.text c.url kind = .mixed := by
  obtain ⟨text, url, image, audio⟩ := c
  revert text url image audio
  cases kind <;> decide

/-! ## Rows -/

theorem normalizeText_normalizeText (value : Option String) :
    normalizeText (normalizeText value) = normalizeText value := by
  cases value with
  | none => rfl
  | some s =>
    have hsome : ∀ t, normalizeText (some t) = if strip t = "" then none else some (strip t) := fun _ => rfl
    rw [hsome]
    split
    · rfl
    · rename_i hne
      rw [hsome, strip_strip, if_neg hne]

/-- The type is that of the contents. A text or a URL is there, and neither is blank. -/
structure RowOk (row : CaptureRecord) (attachments : List AttachmentRecord) : Prop where
  type : row.captureType = contentType (contentsOf row.text row.url attachments)
  text : normalizeText row.text = row.text
  url : normalizeText row.url = row.url
  present : (row.text.isSome || row.url.isSome) = true

/-- Every row follows its contents, and every attachment belongs to a row. -/
structure TypesOk (api : CaptureApi) (db : CapturesDb) : Prop where
  ok : db.Ok api
  rows : ∀ row ∈ db.captures, RowOk row (db.attachmentsOf row.id)
  placed : ∀ a ∈ db.attachments, a.captureId ∈ db.captures.map CaptureRecord.id

section Edits

variable {api : CaptureApi} {db : CapturesDb}

theorem noCaptures_ok : TypesOk api noCaptures where
  ok := ⟨List.nodup_nil, fun n _ hmem => by cases hmem⟩
  rows row hrow := by cases hrow
  placed a ha := by cases ha

theorem TypesOk.insert (h : TypesOk api db) {row : CaptureRecord} (hid : row.id = api.newId db.drawn)
    (hrow : RowOk row []) :
    TypesOk api { db with captures := db.captures ++ [row], drawn := db.drawn + 1 } where
  ok := h.ok.insert hid
  rows r hr := by
    rcases List.mem_append.mp hr with hr | hr
    · exact h.rows r hr
    · have hnone : db.attachmentsOf row.id = [] := by
        rw [CapturesDb.attachmentsOf, List.filter_eq_nil_iff]
        intro a ha hat
        have hplaced := h.placed a ha
        rw [beq_iff_eq.mp hat, hid] at hplaced
        exact h.ok.free db.drawn (Nat.le_refl _) hplaced
      rw [List.mem_singleton.mp hr]
      exact hnone ▸ hrow
  placed a ha := by
    rw [List.map_append]
    exact List.mem_append_left _ (h.placed a ha)

theorem rowOk_record {body : CaptureCreateRequest} (htext : normalizeText body.text = body.text)
    (hurl : normalizeText body.url = body.url) (hpresent : (body.text.isNone && body.url.isNone) = false)
    (id : String) : RowOk (body.record id) [] where
  type := (contentType_derive body.text body.url).symm
  text := htext
  url := hurl
  present := by
    have hor : ∀ a b : Option String, (a.isNone && b.isNone) = false → (a.isSome || b.isSome) = true := by
      intro a b
      cases a <;> cases b <;> simp
    exact hor body.text body.url hpresent

theorem checkCreate_normal {request body : CaptureCreateRequest} (h : checkCreate api request = .ok body) :
    normalizeText body.text = body.text ∧ normalizeText body.url = body.url ∧
      (body.text.isNone && body.url.isNone) = false := by
  rw [checkCreate] at h
  cases hparse : parseCaptureBody api request with
  | error e =>
    rw [hparse] at h
    cases h
  | ok parsed =>
    rw [hparse] at h
    simp only [Bind.bind, Except.bind] at h
    split at h
    · cases h
    · rename_i hpresent
      split at h
      · cases h
      · split at h
        · cases h
        · cases h
          exact ⟨normalizeText_normalizeText _, normalizeText_normalizeText _, Bool.eq_false_iff.mpr hpresent⟩

theorem TypesOk.create (h : TypesOk api db) (request : CaptureCreateRequest) :
    TypesOk api (createCapture api request db).2 := by
  rw [createCapture]
  split
  · exact h
  · rename_i body hbody
    obtain ⟨htext, hurl, hpresent⟩ := checkCreate_normal hbody
    split
    · split
      · exact h
      · exact h
    · exact h.insert rfl (rowOk_record htext hurl hpresent _)

theorem TypesOk.createUnkeyed (h : TypesOk api db) (request : CaptureCreateRequest) :
    TypesOk api (createUnkeyedCapture api request db).2 := by
  rw [createUnkeyedCapture]
  split
  · exact h
  · rename_i body _
    dsimp only
    split
    · exact h
    · rename_i hpresent
      split
      · exact h
      · refine h.insert rfl ?_
        have hrow := @rowOk_record { body with
          text := normalizeText body.text, url := normalizeText body.url, title := normalizeText body.title }
          (normalizeText_normalizeText body.text) (normalizeText_normalizeText body.url)
          (Bool.eq_false_iff.mpr hpresent) (api.newId db.drawn)
        exact ⟨hrow.type, hrow.text, hrow.url, hrow.present⟩

theorem TypesOk.update (h : TypesOk api db) {captureId : String} {f : CaptureRecord → CaptureRecord}
    (hid : ∀ row, (f row).id = row.id)
    (hrow : ∀ row ∈ db.captures, row.id = captureId → RowOk (f row) (db.attachmentsOf captureId)) :
    TypesOk api { db with captures := Table.updateWhere (·.id == captureId) f db.captures } := by
  have hids : (Table.updateWhere (·.id == captureId) f db.captures).map CaptureRecord.id =
      db.captures.map CaptureRecord.id := by
    rw [Table.updateWhere, List.map_map]
    refine List.map_congr_left ?_
    intro row _
    simp only [Function.comp_apply]
    split
    · exact hid row
    · rfl
  constructor
  · refine ⟨?_, ?_⟩
    · rw [hids]
      exact h.ok.nodup
    · rw [hids]
      exact h.ok.free
  · intro r hr
    obtain ⟨row, hmem, rfl⟩ := List.mem_map.mp hr
    by_cases hcapture : row.id = captureId
    · simp only [hcapture, beq_self_eq_true, if_true, hid]
      exact hrow row hmem hcapture
    · have hne : (row.id == captureId) = false := by simpa using hcapture
      simp only [hne, Bool.false_eq_true, if_false]
      exact h.rows row hmem
  · intro a ha
    rw [hids]
    exact h.placed a ha

theorem TypesOk.patch (h : TypesOk api db) {captureId : String} {body : CapturePatchRequest}
    (hsettled : (CaptureEdit.patch captureId body).Settled api db) :
    TypesOk api (patchCapture api captureId body db).2 := by
  rw [patchCapture]
  split
  · exact h
  · rename_i body' hbody
    split
    · exact h
    · split
      · exact h
      · rename_i row hfind
        have hrow : row ∈ db.captures := List.mem_of_find?_eq_some hfind
        have hid : row.id = captureId := by simpa using List.find?_some hfind
        split
        · exact h
        · dsimp only
          split
          · exact h
          · split
            · exact h
            · rename_i hpresent
              refine h.update (fun _ => rfl) ?_
              intro r hr hr'
              obtain rfl : r = row := by
                have hfound := h.ok.find_id hr
                rw [hr', hfind] at hfound
                exact (Option.some.inj hfound).symm
              have hright := hsettled r hr hr' body' hbody
              refine ⟨(derive_eq_contentType_iff _ _ _).mpr hright, normalizeText_normalizeText _,
                normalizeText_normalizeText _, ?_⟩
              rcases hright with hnone | hboth
              · have hsome : ∀ a b : Option String,
                    ¬ (a.isNone && b.isNone && true) = true → (a.isSome || b.isSome) = true := by
                  intro a b
                  cases a <;> cases b <;> simp
                rw [hnone] at hpresent
                exact hsome _ _ hpresent
              · rw [Bool.and_eq_true] at hboth
                rw [hboth.1]
                rfl

theorem attachmentsOf_append (captures : List CaptureRecord) (a : AttachmentRecord) (drawn : Nat)
    (captureId : String) :
    CapturesDb.attachmentsOf { captures := captures, attachments := db.attachments ++ [a], drawn := drawn } captureId =
      if a.captureId = captureId then db.attachmentsOf captureId ++ [a] else db.attachmentsOf captureId := by
  rw [CapturesDb.attachmentsOf, List.filter_append]
  by_cases ha : a.captureId = captureId
  · rw [if_pos ha, List.filter_cons_of_pos (by simpa using ha)]
    rfl
  · rw [if_neg ha, List.filter_cons_of_neg (by simpa using ha), List.filter_nil, List.append_nil]
    rfl

theorem contentType_attached {text url : Option String} (h : (text.isSome || url.isSome) = true)
    (attachments : List AttachmentRecord) (a : AttachmentRecord) :
    contentType (contentsOf text url (attachments ++ [a])) = .mixed := by
  have hattached : (contentsOf text url (attachments ++ [a])).image = true ∨
      (contentsOf text url (attachments ++ [a])).audio = true := by
    cases ha : a.attachmentType <;> simp [contentsOf, ha]
  have hsome : ((contentsOf text url (attachments ++ [a])).text ||
      (contentsOf text url (attachments ++ [a])).url) = true := h
  rw [contentType, if_pos (Bool.or_eq_true_iff.mpr hattached), hsome, Bool.true_or, if_pos rfl]

section Insert

variable {row : CaptureRecord} {upload : AttachmentUpload} {kind : AttachmentKind} {mimeType : String}
  {key : Option String}

theorem attachments_insertAttachment : (Lumogis.insertAttachment api row upload kind mimeType key db).attachments =
    db.attachments ++ [⟨api.newId db.drawn, row.id, kind, upload.fileName, mimeType, upload.blob, key⟩] := by
  simp only [Lumogis.insertAttachment]
  split <;> rfl

theorem attachmentsOf_insertAttachment (captureId : String) :
    (Lumogis.insertAttachment api row upload kind mimeType key db).attachmentsOf captureId =
      if row.id = captureId then db.attachmentsOf captureId ++
        [⟨api.newId db.drawn, row.id, kind, upload.fileName, mimeType, upload.blob, key⟩]
      else db.attachmentsOf captureId := by
  rw [CapturesDb.attachmentsOf, attachments_insertAttachment]
  exact attachmentsOf_append [] _ 0 captureId

theorem ids_insertAttachment : (Lumogis.insertAttachment api row upload kind mimeType key db).captures.map
    CaptureRecord.id = db.captures.map CaptureRecord.id := by
  simp only [Lumogis.insertAttachment]
  split
  · simp only [CapturesDb.setType, Table.updateWhere, List.map_map]
    refine List.map_congr_left ?_
    intro r _
    simp only [Function.comp_apply]
    split <;> rfl
  · rfl

theorem mem_insertAttachment (hrow : row ∈ db.captures) (huniq : ∀ r ∈ db.captures, r.id = row.id → r = row)
    {r : CaptureRecord} : r ∈ (Lumogis.insertAttachment api row upload kind mimeType key db).captures ↔
      r = { row with captureType := row.nextType kind } ∨ (r ∈ db.captures ∧ r.id ≠ row.id) := by
  simp only [Lumogis.insertAttachment]
  split
  · rw [CapturesDb.setType, Table.mem_updateWhere]
    constructor
    · rintro (⟨x, hx, hid, rfl⟩ | ⟨hr, hid⟩)
      · rw [huniq x hx (beq_iff_eq.mp hid)]
        exact Or.inl rfl
      · exact Or.inr ⟨hr, by simpa using hid⟩
    · rintro (rfl | ⟨hr, hne⟩)
      · exact Or.inl ⟨row, hrow, beq_self_eq_true _, rfl⟩
      · exact Or.inr ⟨hr, by simpa using hne⟩
  · rename_i hsame
    have hrowSame : ({ row with captureType := row.nextType kind } : CaptureRecord) = row := by
      rw [not_not.mp hsame]
    rw [hrowSame]
    constructor
    · intro hr
      by_cases hid : r.id = row.id
      · exact Or.inl (huniq r hr hid)
      · exact Or.inr ⟨hr, hid⟩
    · rintro (rfl | ⟨hr, -⟩)
      · exact hrow
      · exact hr

end Insert

theorem attachmentsOf_delete (captureId attachmentId id : String) :
    CapturesDb.attachmentsOf { db with
      attachments := Table.deleteWhere (fun a => a.id == attachmentId && a.captureId == captureId) db.attachments } id =
      if id = captureId then (db.attachmentsOf captureId).filter (·.id != attachmentId) else db.attachmentsOf id := by
  simp only [CapturesDb.attachmentsOf, Table.deleteWhere]
  split
  · rename_i hid
    subst hid
    rw [List.filter_filter, List.filter_filter]
    refine List.filter_congr ?_
    intro a _
    cases ha : a.captureId == id <;> simp [bne]
  · rename_i hid
    rw [List.filter_filter]
    refine List.filter_congr ?_
    intro a _
    by_cases ha : a.captureId = id
    · have hne : (a.captureId == captureId) = false := by simpa [ha] using hid
      rw [hne, Bool.and_false, Bool.not_false, Bool.and_true]
    · have hfalse : (a.captureId == id) = false := by simpa using ha
      rw [hfalse, Bool.false_and]

theorem TypesOk.insertAttachment (h : TypesOk api db) {row : CaptureRecord} (hrow : row ∈ db.captures)
    {upload : AttachmentUpload} {kind : AttachmentKind} {mimeType : String} {key : Option String} :
    TypesOk api (Lumogis.insertAttachment api row upload kind mimeType key db) := by
  have hok := h.rows row hrow
  have hnext : row.nextType kind = .mixed := by
    rw [CaptureRecord.nextType, hok.text, hok.url, hok.type]
    exact nextType_eq (c := contentsOf row.text row.url (db.attachmentsOf row.id)) hok.present kind
  have huniq : ∀ r ∈ db.captures, r.id = row.id → r = row := by
    intro r hr hid
    have hfound := h.ok.find_id hr
    rw [hid, h.ok.find_id hrow] at hfound
    exact (Option.some.inj hfound).symm
  refine ⟨h.ok.insertAttachment, ?_, ?_⟩
  · intro r hr
    rw [mem_insertAttachment hrow huniq, hnext] at hr
    rw [attachmentsOf_insertAttachment]
    rcases hr with rfl | ⟨hr, hne⟩
    · rw [if_pos rfl]
      exact ⟨(contentType_attached hok.present _ _).symm, hok.text, hok.url, hok.present⟩
    · rw [if_neg (Ne.symm hne)]
      exact h.rows r hr
  · intro a ha
    rw [ids_insertAttachment]
    rw [attachments_insertAttachment] at ha
    rcases List.mem_append.mp ha with ha | ha
    · exact h.placed a ha
    · rw [List.mem_singleton.mp ha]
      exact List.mem_map_of_mem hrow

theorem TypesOk.add (h : TypesOk api db) (captureId : String) (upload : AttachmentUpload) :
    TypesOk api (addCaptureAttachment api captureId upload db).2 := by
  rw [addCaptureAttachment]
  split
  · exact h
  · split
    · exact h
    · rename_i row hfind
      have hrow : row ∈ db.captures := List.mem_of_find?_eq_some hfind
      split
      · exact h
      · dsimp only
        split
        · exact h
        · split
          · exact h
          · split
            · exact h
            · split
              · exact h
              · split
                · exact h
                · exact h.insertAttachment hrow

theorem TypesOk.delete (h : TypesOk api db) {captureId attachmentId : String}
    (hsettled : (CaptureEdit.deleteAttachment captureId attachmentId).Settled api db) :
    TypesOk api (deleteCaptureAttachment api captureId attachmentId db).2 := by
  rw [deleteCaptureAttachment]
  split
  · exact h
  · split
    · exact h
    · split
      · exact h
      · split
        · exact h
        · refine ⟨⟨h.ok.nodup, h.ok.free⟩, ?_, ?_⟩
          · intro r hr
            have hok := h.rows r hr
            rw [attachmentsOf_delete]
            split
            · rename_i hid
              refine ⟨?_, hok.text, hok.url, hok.present⟩
              subst hid
              exact hok.type.trans ((contentType_filter_iff _).mpr (hsettled r hr rfl)).symm
            · exact hok
          · intro a ha
            exact h.placed a (Table.mem_of_mem_deleteWhere ha)

theorem TypesOk.step {l : CaptureEdit} {db' : CapturesDb} (h : TypesOk api db) (hl : l.Settled api db)
    (hstep : captureEdit api l db = some db') : TypesOk api db' := by
  cases l with
  | create request =>
    cases hstep
    exact h.create request
  | createUnkeyed request =>
    cases hstep
    exact h.createUnkeyed request
  | patch captureId body =>
    cases hstep
    exact h.patch hl
  | addAttachment captureId upload =>
    cases hstep
    exact h.add captureId upload
  | deleteAttachment captureId attachmentId =>
    cases hstep
    exact h.delete hl

end Edits

theorem capture_types_determined (api : CaptureApi) : TypesDetermined api (CaptureEdit.Settled api) := by
  refine ⟨contentType, ?_⟩
  intro db hreach row hrow
  have hok : TypesOk api db := hreach.invariant noCaptures_ok fun l s t hs hl hstep => hs.step hl hstep
  exact (hok.rows row hrow).type

/-! ## A deletion that leaves the type -/

namespace CaptureTypesExample

theorem newId_injective : Function.Injective fun n : Nat => String.ofList (List.replicate n 'u') := by
  intro a b h
  have hlength := congrArg (fun s : String => s.toList.length) h
  simpa using hlength

def api : CaptureApi :=
  { fieldStrip := strip, isUuid := fun _ => true, lower := id, newId := fun n => String.ofList (List.replicate n 'u')
    imageMaxBytes := 10485760, audioMaxBytes := 26214400, thrown := fun _ => .other
    newId_injective := newId_injective, newId_isUuid := fun _ => rfl }

def written : CaptureEdit :=
  .createUnkeyed { clientId := "", title := none, text := some "has file", url := none, tags := none }

/-- The picture comes and goes. -/
def attachedAndDeleted : List CaptureEdit :=
  [written, .addAttachment "" ⟨"shot.png", "image/png", ⟨16, "png"⟩, ""⟩, .deleteAttachment "" "u"]

def after (ls : List CaptureEdit) : CapturesDb := runTo (captureEdit api) ls noCaptures

/-- The row of the text, with its type. -/
def row (type : CaptureType) : CaptureRecord :=
  { id := "", localClientId := none, captureType := type, title := none, text := some "has file", url := none
    tags := none, status := .pending }

end CaptureTypesExample

section Histories

open CaptureTypesExample

theorem written_reached : Reaches (captureEdit CaptureTypesExample.api) (fun _ _ => True) noCaptures (after [written]) :=
  reaches_runTo (by decide +kernel) (by decide +kernel)

theorem attachedAndDeleted_reached :
    Reaches (captureEdit CaptureTypesExample.api) (fun _ _ => True) noCaptures (after attachedAndDeleted) :=
  reaches_runTo (by decide +kernel) (by decide +kernel)

/-- A text with a picture that is deleted again is mixed, the text alone is a text. -/
theorem deleted_picture_leaves_mixed : ¬ TypesDetermined CaptureTypesExample.api fun _ _ => True := by
  rintro ⟨type, htype⟩
  have htext := htype _ written_reached (row .text) (by decide +kernel)
  have hmixed := htype _ attachedAndDeleted_reached (row .mixed) (by decide +kernel)
  have hcontents : (after [written]).contents (row .text) = (after attachedAndDeleted).contents (row .mixed) := by
    decide +kernel
  rw [hcontents, ← hmixed] at htext
  cases htext

end Histories

end Lumogis
