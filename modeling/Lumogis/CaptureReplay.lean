import Lumogis.CaptureApi

/-!
# CaptureReplay

What the two requests of a sync do to the capture of one item, and that those of other items leave it as
it is. The replay of `create_capture` finds the capture until the clip is there: then the type of the row
is `mixed`, and the replay finds it only if the text and the URL alone make it so.
-/

namespace Lumogis

open Prog Permissions

/-! ## What the server has of a capture -/

def CapturesDb.rowsOf (db : CapturesDb) (clientId : String) : List CaptureRecord :=
  db.captures.filter (·.localClientId == some clientId)

def CapturesDb.clipsOf (db : CapturesDb) (clientAttachmentId : Option String) : List AttachmentRecord :=
  db.attachments.filter fun a => clientAttachmentId.isSome && a.clientAttachmentId == clientAttachmentId

/-- Row ids are unique, and the next ones are free. -/
structure CapturesDb.Ok (api : CaptureApi) (db : CapturesDb) : Prop where
  nodup : (db.captures.map CaptureRecord.id).Nodup
  free : ∀ n, db.drawn ≤ n → api.newId n ∉ db.captures.map CaptureRecord.id

inductive SyncPhase where
  | fresh
  | created
  /-- The clip is there too. -/
  | attached
  deriving DecidableEq

/-- What the server has of the item, and that its content is not refused. -/
inductive ServerAt (env : OutboxEnv) (api : CaptureApi) (m : CaptureOutboxItemMeta) (clip : AudioBlob) :
    SyncPhase → CapturesDb → Prop where
  | fresh {db : CapturesDb} (hrows : db.rowsOf m.localCaptureId = [])
    (hclips : db.clipsOf m.kind.localAttachmentId = []) : ServerAt env api m clip .fresh db
  | created {db : CapturesDb} (body : CaptureCreateRequest) (n : Nat)
    (hbody : checkCreate api (createRequest env m) = .ok body)
    (hrows : db.rowsOf m.localCaptureId = [body.record (api.newId n)])
    (hclips : db.clipsOf m.kind.localAttachmentId = []) : ServerAt env api m clip .created db
  | attached {db : CapturesDb} (body : CaptureCreateRequest) (n : Nat) (a : AttachmentRecord)
    (hbody : checkCreate api (createRequest env m) = .ok body)
    (hrows : db.rowsOf m.localCaptureId = [{ body.record (api.newId n) with captureType := .mixed }])
    (hclips : db.clipsOf m.kind.localAttachmentId = [a]) (hcapture : a.captureId = api.newId n)
    (hkind : a.attachmentType = .audio) (hclip : a.content = clip) : ServerAt env api m clip .attached db

section Server

variable {env : OutboxEnv} {api : CaptureApi} {m : CaptureOutboxItemMeta} {clip : AudioBlob} {p : SyncPhase}
  {db : CapturesDb} {request body : CaptureCreateRequest}

theorem checkCreate_clientId (h : checkCreate api request = .ok body) :
    body.clientId = api.fieldStrip request.clientId := by
  rw [checkCreate] at h
  cases hparse : parseCaptureBody api request with
  | error e =>
    rw [hparse] at h
    cases h
  | ok parsed =>
    rw [hparse] at h
    have hid : parsed.clientId = api.fieldStrip request.clientId := by
      simp only [parseCaptureBody] at hparse
      split at hparse
      · cases hparse
      · split at hparse
        · cases hparse
        · split at hparse
          · cases hparse
          · split at hparse
            · cases hparse
            · cases hparse
              rfl
    simp only [Bind.bind, Except.bind] at h
    split at h
    · cases h
    · split at h
      · cases h
      · split at h
        · cases h
        · cases h
          exact hid

theorem captureType_ne (body : CaptureCreateRequest) :
    body.captureType = .text ∨ body.captureType = .url ∨ body.captureType = .mixed := by
  rw [CaptureCreateRequest.captureType]
  cases body.text <;> cases body.url <;> simp [deriveCaptureType]

theorem nextType_audio (body : CaptureCreateRequest) (id : String) : (body.record id).nextType .audio = .mixed := by
  have htype : (body.record id).captureType = body.captureType := rfl
  rw [CaptureRecord.nextType, htype]
  rcases captureType_ne body with h | h | h <;> simp [h, nextCaptureTypeForNewAttachment]

theorem find_of_rowsOf {clientId : String} {row : CaptureRecord} {rows : List CaptureRecord}
    (h : db.rowsOf clientId = row :: rows) : db.captures.find? (·.localClientId == some clientId) = some row := by
  rw [← List.head?_filter]
  exact congrArg List.head? h

theorem find_of_rowsOf_nil {clientId : String} (h : db.rowsOf clientId = []) :
    db.captures.find? (·.localClientId == some clientId) = none := by
  rw [← List.head?_filter]
  exact congrArg List.head? h

theorem mem_rowsOf {clientId : String} {row : CaptureRecord} :
    row ∈ db.rowsOf clientId ↔ row ∈ db.captures ∧ row.localClientId = some clientId := by
  simp [CapturesDb.rowsOf]

theorem CapturesDb.Ok.find_id (h : db.Ok api) {row : CaptureRecord} (hrow : row ∈ db.captures) :
    db.captures.find? (·.id == row.id) = some row := Table.find?_of_nodup h.nodup hrow

theorem CapturesDb.Ok.insert (h : db.Ok api) {row : CaptureRecord} (hid : row.id = api.newId db.drawn) :
    CapturesDb.Ok api { db with captures := db.captures ++ [row], drawn := db.drawn + 1 } where
  nodup := by
    rw [List.map_append, List.map_singleton]
    refine List.nodup_append.mpr ⟨h.nodup, List.nodup_singleton _, fun id hid' id' hnew he => ?_⟩
    rw [List.mem_singleton.mp hnew, hid] at he
    exact h.free db.drawn (Nat.le_refl _) (he ▸ hid')
  free n hn := by
    have hn : db.drawn + 1 ≤ n := hn
    simp only [List.map_append, List.map_singleton, List.mem_append, List.mem_singleton, hid, not_or]
    exact ⟨h.free n (Nat.le_of_succ_le hn), fun he => by
      have hne := api.newId_injective he
      omega⟩

/-! ## The requests of the item -/

/-- The phase after the create request. -/
def SyncPhase.create : SyncPhase → SyncPhase
  | .fresh => .created
  | p => p

theorem ServerAt.creates (h : ServerAt env api m clip p db) (hok : db.Ok api)
    (hid : api.fieldStrip m.localCaptureId = m.localCaptureId)
    (hbody : checkCreate api (createRequest env m) = .ok body) (htype : p = .attached → body.captureType = .mixed) :
    ∃ row, (createCapture api (createRequest env m) db).1 = .ok row.id ∧
      row ∈ (createCapture api (createRequest env m) db).2.rowsOf m.localCaptureId ∧
      (createCapture api (createRequest env m) db).2.Ok api ∧
      ServerAt env api m clip p.create (createCapture api (createRequest env m) db).2 := by
  have hclient : body.clientId = m.localCaptureId := (checkCreate_clientId hbody).trans hid
  cases h with
  | fresh hrows hclips =>
    have hnone := find_of_rowsOf_nil hrows
    have hnew : ∀ rows, (rows ++ [body.record (api.newId db.drawn)]).filter
        (·.localClientId == some m.localCaptureId) =
          rows.filter (·.localClientId == some m.localCaptureId) ++ [body.record (api.newId db.drawn)] := by
      intro rows
      simp [List.filter_append, CaptureCreateRequest.record, hclient]
    rw [← hclient] at hnone
    simp only [createCapture, hbody, hnone]
    refine ⟨body.record (api.newId db.drawn), rfl, ?_, hok.insert rfl, .created body db.drawn hbody ?_ hclips⟩
    · simp only [CapturesDb.rowsOf, hnew]
      exact List.mem_append_right _ (List.mem_singleton_self _)
    · have hrows : db.captures.filter (·.localClientId == some m.localCaptureId) = [] := hrows
      simp only [CapturesDb.rowsOf, hnew, hrows, List.nil_append]
  | created body' n hbody' hrows hclips =>
    cases hbody.symm.trans hbody'
    have hsome := find_of_rowsOf hrows
    rw [← hclient] at hsome
    have hsame : ¬ body.identity ≠ (body.record (api.newId n)).identity := fun hne => hne rfl
    simp only [createCapture, hbody, hsome, if_neg hsame]
    exact ⟨body.record (api.newId n), rfl, by simp [hrows], hok, .created body n hbody hrows hclips⟩
  | attached body' n a hbody' hrows hclips hcapture hkind hclip =>
    cases hbody.symm.trans hbody'
    have hsome := find_of_rowsOf hrows
    rw [← hclient] at hsome
    have hsame : ¬ body.identity ≠ CaptureRecord.identity { body.record (api.newId n) with captureType := .mixed } := by
      intro hne
      refine hne ?_
      rw [CaptureCreateRequest.identity, htype rfl]
      rfl
    simp only [createCapture, hbody, hsome, if_neg hsame]
    exact ⟨{ body.record (api.newId n) with captureType := .mixed }, rfl, by simp [hrows], hok,
      .attached body n a hbody hrows hclips hcapture hkind hclip⟩

theorem ServerAt.conflicts (h : ServerAt env api m clip .attached db)
    (hid : api.fieldStrip m.localCaptureId = m.localCaptureId)
    (hbody : checkCreate api (createRequest env m) = .ok body) (htype : body.captureType ≠ .mixed) :
    createCapture api (createRequest env m) db =
      (.error (api.thrown (.http 409 "idempotency_key_conflict")), db) := by
  have hclient : body.clientId = m.localCaptureId := (checkCreate_clientId hbody).trans hid
  cases h with
  | attached body' n a hbody' hrows =>
    cases hbody.symm.trans hbody'
    have hsome := find_of_rowsOf hrows
    rw [← hclient] at hsome
    have hother : body.identity ≠ CaptureRecord.identity { body.record (api.newId n) with captureType := .mixed } :=
      fun he => htype (congrArg PayloadIdentity.captureType he)
    simp only [createCapture, hbody, hsome, if_pos hother]

/-- A clip that the server takes. -/
structure ClipAllowed (api : CaptureApi) (mimeType : String) (clip : AudioBlob) : Prop where
  stated : strip mimeType ≠ ""
  classified : ∃ m, classifyInboundMime api mimeType = some (.audio, m)
  size : clip.size ≤ api.audioMaxBytes

theorem rowsOf_setType (captureId clientId : String) (type : CaptureType) :
    (db.setType captureId type).rowsOf clientId =
      Table.updateWhere (·.id == captureId) (fun r => { r with captureType := type }) (db.rowsOf clientId) := by
  simp only [CapturesDb.setType, CapturesDb.rowsOf, Table.updateWhere, List.filter_map]
  congr 2
  funext row
  simp only [Function.comp_apply]
  split <;> rfl

theorem CapturesDb.Ok.setType (h : db.Ok api) (captureId : String) (type : CaptureType) :
    (db.setType captureId type).Ok api := by
  have hids : (db.setType captureId type).captures.map CaptureRecord.id = db.captures.map CaptureRecord.id := by
    simp only [CapturesDb.setType, Table.updateWhere, List.map_map]
    congr 1
    funext row
    simp only [Function.comp_apply]
    split <;> rfl
  constructor
  · rw [hids]
    exact h.nodup
  · rw [hids]
    exact h.free

theorem CapturesDb.Ok.insertAttachment (h : db.Ok api) {row : CaptureRecord} {upload : AttachmentUpload}
    {kind : AttachmentKind} {mimeType : String} {key : Option String} :
    (Lumogis.insertAttachment api row upload kind mimeType key db).Ok api := by
  have hdrawn : ∀ attachments, CapturesDb.Ok api { db with attachments := attachments, drawn := db.drawn + 1 } :=
    fun attachments => ⟨h.nodup, fun n hn => h.free n (Nat.le_of_succ_le hn)⟩
  simp only [Lumogis.insertAttachment]
  split
  · exact (hdrawn _).setType _ _
  · exact hdrawn _

theorem clipsOf_insertAttachment {row : CaptureRecord} {upload : AttachmentUpload} {kind : AttachmentKind}
    {mimeType : String} {key key' : Option String} :
    (Lumogis.insertAttachment api row upload kind mimeType key db).clipsOf key' =
      db.clipsOf key' ++ ([(⟨api.newId db.drawn, row.id, kind, upload.fileName, mimeType, upload.blob, key⟩ :
        AttachmentRecord)].filter fun a => key'.isSome && a.clientAttachmentId == key') := by
  simp only [Lumogis.insertAttachment, CapturesDb.clipsOf]
  split <;> simp only [CapturesDb.setType, List.filter_append]

theorem rowsOf_insertAttachment {row : CaptureRecord} {upload : AttachmentUpload} {kind : AttachmentKind}
    {mimeType : String} {key : Option String} {clientId : String} :
    (Lumogis.insertAttachment api row upload kind mimeType key db).rowsOf clientId =
      if row.nextType kind ≠ row.captureType then Table.updateWhere (·.id == row.id)
        (fun r => { r with captureType := row.nextType kind }) (db.rowsOf clientId)
      else db.rowsOf clientId := by
  simp only [Lumogis.insertAttachment]
  split
  · exact rowsOf_setType _ _ _
  · rfl

theorem ServerAt.uploads (h : ServerAt env api m clip p db) (hok : db.Ok api) {att mimeType : String} {sizeBytes : Nat}
    (hkind : m.kind = .audio att mimeType sizeBytes) (hkey : clientAttachmentKey att = some att)
    (huuid : api.isUuid att = true) (hallowed : ClipAllowed api mimeType clip) {row : CaptureRecord}
    (hrow : row ∈ db.rowsOf m.localCaptureId) :
    (addCaptureAttachment api row.id (uploadOf att mimeType clip) db).1 = .ok () ∧
      (addCaptureAttachment api row.id (uploadOf att mimeType clip) db).2.Ok api ∧
      ServerAt env api m clip .attached (addCaptureAttachment api row.id (uploadOf att mimeType clip) db).2 := by
  have hfind := hok.find_id (mem_rowsOf.mp hrow).1
  have hatt : m.kind.localAttachmentId = some att := by rw [hkind]; rfl
  cases h with
  | fresh hrows =>
    rw [hrows] at hrow
    cases hrow
  | created body n hbody hrows hclips =>
    rw [hrows] at hrow
    obtain rfl := List.mem_singleton.mp hrow
    obtain ⟨mime, hclassified⟩ := hallowed.classified
    have hrowUuid : api.isUuid (body.record (api.newId n)).id = true := api.newId_isUuid n
    have hpending : (body.record (api.newId n)).status ≠ .indexed := by
      intro he
      cases he
    have hno : (db.attachments.any fun a =>
        a.captureId == (body.record (api.newId n)).id && a.clientAttachmentId == some att) = false := by
      rw [List.any_eq_false]
      intro a ha hsame
      simp only [Bool.and_eq_true] at hsame
      have hmem : a ∈ db.clipsOf m.kind.localAttachmentId := by
        rw [hatt]
        exact List.mem_filter.mpr ⟨ha, by simpa using hsame.2⟩
      rw [hclips] at hmem
      cases hmem
    have hsize : ¬ api.maxBytes .audio < (uploadOf att mimeType clip).blob.size := Nat.not_lt.mpr hallowed.size
    have hstrip : ¬ strip (uploadOf att mimeType clip).contentType = "" := hallowed.stated
    have hclass : classifyInboundMime api (uploadOf att mimeType clip).contentType = some (.audio, mime) := hclassified
    have hkey' : clientAttachmentKey (uploadOf att mimeType clip).clientAttachmentId = some att := hkey
    simp only [addCaptureAttachment, hrowUuid, hfind, hkey', hno, hclass, if_neg hsize, if_neg hstrip, if_neg hpending,
      Option.any_some, huuid, Bool.not_true, Bool.false_eq_true, if_false, Option.isSome_some, Bool.true_and]
    refine ⟨trivial, hok.insertAttachment, .attached body n
      ⟨api.newId db.drawn, api.newId n, .audio, (uploadOf att mimeType clip).fileName, mime, clip, some att⟩
      hbody ?_ ?_ rfl rfl rfl⟩
    · rw [rowsOf_insertAttachment, nextType_audio, hrows]
      split
      · simp [Table.updateWhere]
      · rename_i hmixed
        have hmixed : CaptureType.mixed = (body.record (api.newId n)).captureType := not_not.mp hmixed
        rw [hmixed]
    · rw [clipsOf_insertAttachment, hclips, hatt]
      simp [uploadOf, CaptureCreateRequest.record]
  | attached body n a hbody hrows hclips hcapture hkind' hclip =>
    have hattached : ServerAt env api m clip .attached db :=
      .attached body n a hbody hrows hclips hcapture hkind' hclip
    rw [hrows] at hrow
    obtain rfl := List.mem_singleton.mp hrow
    have hpending : ({ body.record (api.newId n) with captureType := .mixed } : CaptureRecord).status ≠ .indexed := by
      intro he
      cases he
    have hrowUuid : api.isUuid ({ body.record (api.newId n) with captureType := .mixed } : CaptureRecord).id = true :=
      api.newId_isUuid n
    have hyes : (db.attachments.any fun a =>
        a.captureId == ({ body.record (api.newId n) with captureType := .mixed } : CaptureRecord).id &&
          a.clientAttachmentId == some att) = true := by
      have ha : a ∈ db.clipsOf m.kind.localAttachmentId := by
        rw [hclips]
        exact List.mem_singleton_self _
      rw [hatt] at ha
      obtain ⟨ha, hkeyed⟩ := List.mem_filter.mp ha
      refine List.any_eq_true.mpr ⟨a, ha, ?_⟩
      rw [Bool.and_eq_true]
      exact ⟨beq_iff_eq.mpr hcapture, by simpa using hkeyed⟩
    have hkey' : clientAttachmentKey (uploadOf att mimeType clip).clientAttachmentId = some att := hkey
    simp only [addCaptureAttachment, hrowUuid, hfind, hkey', hyes, if_neg hpending, Option.any_some, huuid,
      Bool.not_true, Bool.false_eq_true, if_false, Option.isSome_some, Bool.true_and, if_true]
    exact ⟨trivial, hok, hattached⟩

/-! ## The requests of other items -/

theorem ServerAt.congr (h : ServerAt env api m clip p db) {db' : CapturesDb}
    (hrows : db'.rowsOf m.localCaptureId = db.rowsOf m.localCaptureId)
    (hclips : db'.clipsOf m.kind.localAttachmentId = db.clipsOf m.kind.localAttachmentId) :
    ServerAt env api m clip p db' := by
  cases h with
  | fresh hrows' hclips' => exact .fresh (hrows.trans hrows') (hclips.trans hclips')
  | created body n hbody hrows' hclips' => exact .created body n hbody (hrows.trans hrows') (hclips.trans hclips')
  | attached body n a hbody hrows' hclips' hcapture hkind hclip =>
    exact .attached body n a hbody (hrows.trans hrows') (hclips.trans hclips') hcapture hkind hclip

theorem ServerAt.createsOther (h : ServerAt env api m clip p db) (hok : db.Ok api)
    (hother : api.fieldStrip request.clientId ≠ m.localCaptureId) :
    (createCapture api request db).2.Ok api ∧ ServerAt env api m clip p (createCapture api request db).2 ∧
      ∀ id, (createCapture api request db).1 = .ok id →
        ∃ row ∈ (createCapture api request db).2.captures, row.id = id ∧ row.localClientId ≠ some m.localCaptureId := by
  have hraised (e : OutboxError) : ∀ id, (Except.error e : Except OutboxError String) = .ok id →
      ∃ row ∈ db.captures, row.id = id ∧ row.localClientId ≠ some m.localCaptureId := by
    intro id he
    cases he
  cases hbody : checkCreate api request with
  | error e =>
    simp only [createCapture, hbody]
    exact ⟨hok, h, hraised _⟩
  | ok body =>
    have hclient : body.clientId ≠ m.localCaptureId := fun he => hother ((checkCreate_clientId hbody).symm.trans he)
    have hne : (some body.clientId : Option String) ≠ some m.localCaptureId := fun he => hclient (Option.some.inj he)
    cases hfind : db.captures.find? (·.localClientId == some body.clientId) with
    | some row =>
      simp only [createCapture, hbody, hfind]
      split
      · exact ⟨hok, h, hraised _⟩
      · refine ⟨hok, h, fun id he => ?_⟩
        cases he
        have hlocal : row.localClientId = some body.clientId := by simpa using List.find?_some hfind
        exact ⟨row, List.mem_of_find?_eq_some hfind, rfl, by rw [hlocal]; exact hne⟩
    | none =>
      simp only [createCapture, hbody, hfind]
      refine ⟨hok.insert rfl, h.congr ?_ rfl, fun id he => ?_⟩
      · simp [CapturesDb.rowsOf, List.filter_append, CaptureCreateRequest.record, hclient]
      · cases he
        exact ⟨body.record (api.newId db.drawn), List.mem_append_right _ (List.mem_singleton_self _), rfl, hne⟩

theorem ServerAt.uploadsOther (h : ServerAt env api m clip p db) (hok : db.Ok api) {row : CaptureRecord}
    (hrow : row ∈ db.captures) (hother : row.localClientId ≠ some m.localCaptureId) {upload : AttachmentUpload}
    (hkey : m.kind.localAttachmentId.isSome = true →
      clientAttachmentKey upload.clientAttachmentId ≠ m.kind.localAttachmentId) :
    (addCaptureAttachment api row.id upload db).2.Ok api ∧
      ServerAt env api m clip p (addCaptureAttachment api row.id upload db).2 := by
  have hsame : db.Ok api ∧ ServerAt env api m clip p db := ⟨hok, h⟩
  simp only [addCaptureAttachment, hok.find_id hrow]
  split
  · exact hsame
  split
  · exact hsame
  split
  · exact hsame
  split
  · exact hsame
  split
  · exact hsame
  split
  · exact hsame
  · rename_i kind mime hclass
    split
    · exact hsame
    · refine ⟨hok.insertAttachment, h.congr ?_ ?_⟩
      · rw [rowsOf_insertAttachment]
        split
        · -- No row of the item has the id of the other row.
          refine (List.map_congr_left fun r hr => ?_).trans (List.map_id _)
          obtain ⟨hmem, hlocal⟩ := mem_rowsOf.mp hr
          have hid : r.id ≠ row.id := by
            intro he
            rw [List.inj_on_of_nodup_map hok.nodup hmem hrow he] at hlocal
            exact hother hlocal
          simp [hid]
        · rfl
      · rw [clipsOf_insertAttachment]
        have hnone : ¬ (m.kind.localAttachmentId.isSome &&
            clientAttachmentKey upload.clientAttachmentId == m.kind.localAttachmentId) = true := by
          intro hboth
          obtain ⟨hsome, he⟩ := Bool.and_eq_true_iff.mp hboth
          exact hkey hsome (beq_iff_eq.mp he)
        simp [hnone]

end Server

end Lumogis
