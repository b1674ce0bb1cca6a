import Lumogis.CaptureReplay

/-!
# SyncRetries

The outbox is synced again and again, and any request or reply may be lost. The server never holds an
item twice. An attempt in which nothing is lost takes the item from the device to the server, unless its
content is refused or the clip is on the server already and has changed the type of the capture
(`sync_exactly_once`).
-/

namespace Lumogis

open Prog

abbrev SyncState := OutboxState Unit CapturesDb

/-- The ids of an item are UUIDs. -/
structure ItemIds (api : CaptureApi) (m : CaptureOutboxItemMeta) : Prop where
  capture : api.fieldStrip m.localCaptureId = m.localCaptureId
  attachment : ∀ att, m.kind.localAttachmentId = some att → clientAttachmentKey att = some att ∧ api.isUuid att = true

/-- The client sends the item. -/
def Sendable (env : OutboxEnv) (m : CaptureOutboxItemMeta) : Prop :=
  ¬ (trimmed env (syncText env m) = none ∧ trimmed env (trimmed env m.url) = none)

instance (env : OutboxEnv) (m : CaptureOutboxItemMeta) : Decidable (Sendable env m) := inferInstanceAs (Decidable (¬ _))

/-- The item goes through when nothing is lost. -/
def Syncs (env : OutboxEnv) (api : CaptureApi) (m : CaptureOutboxItemMeta) (p : SyncPhase) : Prop :=
  Sendable env m ∧ ∃ body, checkCreate api (createRequest env m) = .ok body ∧
    (p = .attached → body.captureType = .mixed)

/-- What the server has of an item that was synced. -/
def CaptureOutboxItemMeta.target (m : CaptureOutboxItemMeta) : SyncPhase :=
  if m.kind.isAudio then .attached else .created

/-- The store of the device works, and its records have their own ids. -/
structure DeviceOk (api : CaptureApi) (m : CaptureOutboxItemMeta) (s : SyncState) : Prop where
  faults : s.storeFates = []
  nodup : s.index.Nodup
  records : ∀ id m', s.record id = some m' → m'.localCaptureId = id ∧ ItemIds api m'
  apart : ∀ id m', s.record id = some m' → id ≠ m.localCaptureId → ∀ att, m.kind.localAttachmentId = some att →
    m'.kind.localAttachmentId ≠ some att

structure OnDevice (m : CaptureOutboxItemMeta) (clip : AudioBlob) (s : SyncState) : Prop where
  index : m.localCaptureId ∈ s.index
  record : ∃ status lastError, s.record m.localCaptureId = some { m with status := status, lastError := lastError } ∧
    status.isPending = true
  clip : ∀ att, m.kind.localAttachmentId = some att → s.blob att = some clip

structure OffDevice (m : CaptureOutboxItemMeta) (s : SyncState) : Prop where
  index : m.localCaptureId ∉ s.index
  record : s.record m.localCaptureId = none

structure SyncInv (env : OutboxEnv) (api : CaptureApi) (m : CaptureOutboxItemMeta) (clip : AudioBlob) (p : SyncPhase)
    (kept : Bool) (s : SyncState) : Prop where
  device : DeviceOk api m s
  ok : s.server.Ok api
  server : ServerAt env api m clip p s.server
  stored : kept = true → OnDevice m clip s
  removed : kept = false → OffDevice m s ∧ p = m.target

/-- No request or reply is lost. -/
def Lossless (s : SyncState) : Prop := ∀ fate ∈ s.requestFates, fate = .answered

section Sync

variable {env : OutboxEnv} {api : CaptureApi} {m : CaptureOutboxItemMeta} {clip : AudioBlob} {p : SyncPhase}
  {kept : Bool} {s t : SyncState} {α : Type}

/-! ## Awaits -/

theorem wp_storeOp {Q : Except OutboxError α → SyncState → Prop} {f : SyncState → α × SyncState}
    (hs : s.storeFates = []) : wp Q (storeOp f) s ↔ Q (.ok (f s).1) (f s).2.nextStoreFate := by
  rw [storeOp, wp_actE, hs]
  rfl

theorem nextStoreFate_of_nil (hs : s.storeFates = []) : s.nextStoreFate = s := by
  obtain ⟨index, record, blob, server, storeFates, requestFates, captured, uploaded, discarded, seen, counted⟩ := s
  cases hs
  rfl

theorem wp_outboxRequest {Q : Except OutboxError α → SyncState → Prop}
    {f : CapturesDb → Except OutboxError α × CapturesDb} {ack : SyncState → SyncState}
    (hanswered : ∀ a, (f s.server).1 = .ok a → Q (.ok a) (ack { s with server := (f s.server).2 }).nextRequestFate)
    (hrefused : ∀ e, (f s.server).1 = .error e → Q (.error e) ({ s with server := (f s.server).2 } : SyncState).nextRequestFate)
    (hlost : ∀ e, .lost e ∈ s.requestFates → Q (.error e) s.nextRequestFate)
    (hreply : ∀ e, .replyLost e ∈ s.requestFates →
      Q (.error e) ({ s with server := (f s.server).2 } : SyncState).nextRequestFate) :
    wp Q (outboxRequest f ack) s := by
  rw [outboxRequest, wp_actE]
  cases hhead : s.requestFates.head? with
  | none =>
    cases hf : (f s.server).1 with
    | ok a => exact hanswered a hf
    | error e => exact hrefused e hf
  | some fate =>
    have hmem := List.mem_of_mem_head? hhead
    cases fate with
    | answered =>
      cases hf : (f s.server).1 with
      | ok a => exact hanswered a hf
      | error e => exact hrefused e hf
    | lost e => exact hlost e hmem
    | replyLost e => exact hreply e hmem

theorem wp_saveMeta {Q : Except OutboxError Unit → SyncState → Prop} {m' : CaptureOutboxItemMeta}
    (hs : s.storeFates = []) : wp Q (saveMeta m') s ↔ Q (.ok ()) (s.setRecord m'.localCaptureId (some m')) := by
  rw [saveMeta, wp_tryCatch, wp_storeOp hs]
  rw [nextStoreFate_of_nil]
  exact hs

theorem wp_getMeta {Q : Except OutboxError (Option CaptureOutboxItemMeta) → SyncState → Prop} {id : String}
    (hs : s.storeFates = []) : wp Q (getMeta id) s ↔ Q (.ok (s.record id)) s := by
  rw [getMeta, wp_storeOp hs, nextStoreFate_of_nil]
  exact hs

/-- What a discard leaves. -/
structure Discarded (id : String) (s t : SyncState) : Prop where
  index : t.index = s.index.filter (· != id)
  record : t.record = Function.update s.record id none
  blob : ∀ att, (∀ m', s.record id = some m' → m'.kind.localAttachmentId ≠ some att) → t.blob att = s.blob att
  server : t.server = s.server
  faults : t.storeFates = []
  fates : t.requestFates = s.requestFates

theorem wp_soft {Q : Except OutboxError Unit → SyncState → Prop} {f : SyncState → Unit × SyncState}
    (hs : s.storeFates = []) (hf : (f s).2.storeFates = []) : wp Q (soft (storeOp f)) s ↔ Q (.ok ()) (f s).2 := by
  rw [soft, wp_tryCatch, wp_storeOp hs, nextStoreFate_of_nil hf]

theorem wp_removeFromIndex {Q : Except OutboxError Unit → SyncState → Prop} {id : String} (hs : s.storeFates = []) :
    wp Q (removeFromIndex () id) s ↔ Q (.ok ()) { s.noteSeen () with index := s.index.filter (· != id) } := by
  have hseen : (s.noteSeen ()).storeFates = [] := hs
  rw [removeFromIndex, wp_bind, readIndex, wp_storeOp hs, nextStoreFate_of_nil hseen]
  simp only [seqPost]
  rw [writeIndex, wp_storeOp hseen, nextStoreFate_of_nil]
  exact hseen

theorem wp_discardOutboxItem {id : String} (hs : s.storeFates = []) :
    wp (fun r t => r = .ok () ∧ Discarded id s t) (discardOutboxItem () id) s := by
  rw [discardOutboxItem, wp_bind, wp_getMeta hs]
  simp only [seqPost]
  rw [wp_bind]
  have hrest : ∀ u : SyncState, u.storeFates = [] → u.index = s.index → u.record = s.record → u.server = s.server →
      u.requestFates = s.requestFates →
      (∀ att, (∀ m', s.record id = some m' → m'.kind.localAttachmentId ≠ some att) → u.blob att = s.blob att) →
      wp (fun r t => r = .ok () ∧ Discarded id s t) (do
        soft (storeOp fun s => ((), s.setRecord id none))
        removeFromIndex () id) u := by
    intro u hfaults hindex hrecord hserver hfates hblob
    rw [wp_bind, wp_soft hfaults (by exact hfaults)]
    simp only [seqPost]
    rw [wp_removeFromIndex (by exact hfaults)]
    refine ⟨rfl, ?_, ?_, hblob, hserver, hfaults, hfates⟩
    · show u.index.filter _ = _
      rw [hindex]
    · show Function.update u.record id none = _
      rw [hrecord]
  cases hrecord : s.record id with
  | none => exact hrest s hs rfl rfl rfl rfl fun _ _ => rfl
  | some m' =>
    cases hatt : m'.kind.localAttachmentId with
    | none =>
      simp only [discardBlob, Option.bind_some, hatt]
      exact hrest s hs rfl rfl rfl rfl fun _ _ => rfl
    | some att =>
      simp only [discardBlob, Option.bind_some, hatt]
      rw [wp_soft hs (by exact hs)]
      simp only [seqPost]
      refine hrest _ hs rfl rfl rfl rfl fun att' hne => Function.update_of_ne ?_ _ _
      intro he
      exact hne m' hrecord (by rw [hatt, he])

/-! ## The item -/

theorem SyncInv.serves (h : SyncInv env api m clip p kept s) {p' : SyncPhase} (hindex : t.index = s.index)
    (hrecord : t.record = s.record) (hblob : t.blob = s.blob) (hfaults : t.storeFates = s.storeFates)
    (hok : t.server.Ok api) (hserver : ServerAt env api m clip p' t.server) (hp : kept = false → p' = p) :
    SyncInv env api m clip p' kept t where
  device := by
    obtain ⟨hs, hnodup, hrecords, hapart⟩ := h.device
    exact ⟨hfaults.trans hs, hindex ▸ hnodup, by rw [hrecord]; exact hrecords, by rw [hrecord]; exact hapart⟩
  ok := hok
  server := hserver
  stored hkept := by
    obtain ⟨hmem, hrec, hclip⟩ := h.stored hkept
    exact ⟨by rw [hindex]; exact hmem, by rw [hrecord]; exact hrec, by rw [hblob]; exact hclip⟩
  removed hkept := by
    obtain ⟨⟨hmem, hrec⟩, htarget⟩ := h.removed hkept
    exact ⟨⟨by rw [hindex]; exact hmem, by rw [hrecord]; exact hrec⟩, (hp hkept).trans htarget⟩

theorem ServerAt.createsOwn {db : CapturesDb} (h : ServerAt env api m clip p db) (hok : db.Ok api)
    (hid : api.fieldStrip m.localCaptureId = m.localCaptureId) : ∃ p',
    (createCapture api (createRequest env m) db).2.Ok api ∧
      ServerAt env api m clip p' (createCapture api (createRequest env m) db).2 ∧
      (∀ id, (createCapture api (createRequest env m) db).1 = .ok id → p' = p.create ∧
        ∃ row ∈ (createCapture api (createRequest env m) db).2.rowsOf m.localCaptureId, row.id = id) ∧
      ((createCapture api (createRequest env m) db).1.isOk = true ↔
        ∃ body, checkCreate api (createRequest env m) = .ok body ∧ (p = .attached → body.captureType = .mixed)) := by
  cases hbody : checkCreate api (createRequest env m) with
  | error e =>
    have hsame : createCapture api (createRequest env m) db = (.error (api.thrown e), db) := by
      simp only [createCapture, hbody]
    rw [hsame]
    refine ⟨p, hok, h, fun id he => (by cases he), ⟨fun he => (by cases he), fun hb => ?_⟩⟩
    obtain ⟨body, hb, -⟩ := hb
    cases hb
  | ok body =>
    by_cases htype : p = .attached → body.captureType = .mixed
    · obtain ⟨row, hreply, hrow, hok', hserver⟩ := h.creates hok hid hbody htype
      refine ⟨p.create, hok', hserver, fun id he => ?_, ?_⟩
      · cases hreply.symm.trans he
        exact ⟨rfl, row, hrow, rfl⟩
      · rw [hreply]
        exact ⟨fun _ => ⟨body, rfl, htype⟩, fun _ => rfl⟩
    · obtain ⟨rfl, hne⟩ := Classical.not_imp.mp htype
      rw [h.conflicts hid hbody hne]
      refine ⟨.attached, hok, h, fun id he => (by cases he), ⟨fun he => (by cases he), fun hb => ?_⟩⟩
      obtain ⟨body', hb, hmixed⟩ := hb
      cases hb
      exact absurd (hmixed rfl) hne

/-- What the `try` block leaves of the item. -/
structure Pushed (env : OutboxEnv) (api : CaptureApi) (m : CaptureOutboxItemMeta) (clip : AudioBlob) (p : SyncPhase)
    (s : SyncState) (r : Except OutboxError Unit) (t : SyncState) : Prop where
  inv : ∃ p', SyncInv env api m clip p' (!r.isOk) t
  lossless : Lossless s → Lossless t
  syncs : Lossless s → (r.isOk = true ↔ Syncs env api m p)

theorem Lossless.next (h : Lossless s) (hfates : t.requestFates = s.requestFates.tail) : Lossless t :=
  fun fate hfate => h fate (List.mem_of_mem_tail (hfates ▸ hfate))

theorem Lossless.not_lost (h : Lossless s) {e : OutboxError} (he : .lost e ∈ s.requestFates) : False := by
  cases h _ he

theorem Lossless.not_replyLost (h : Lossless s) {e : OutboxError} (he : .replyLost e ∈ s.requestFates) : False := by
  cases h _ he

theorem SyncInv.discards (h : SyncInv env api m clip m.target true s) (hd : Discarded m.localCaptureId s t) :
    SyncInv env api m clip m.target false t where
  device := by
    obtain ⟨-, hnodup, hrecords, hapart⟩ := h.device
    have hold : ∀ id m', t.record id = some m' → id ≠ m.localCaptureId ∧ s.record id = some m' := by
      intro id m' hm
      rw [hd.record] at hm
      by_cases he : id = m.localCaptureId
      · rw [he, Function.update_self] at hm
        cases hm
      · rw [Function.update_of_ne he] at hm
        exact ⟨he, hm⟩
    refine ⟨hd.faults, ?_, fun id m' hm => hrecords id m' (hold id m' hm).2, fun id m' hm => hapart id m' (hold id m' hm).2⟩
    rw [hd.index]
    exact hnodup.filter _
  ok := by
    rw [hd.server]
    exact h.ok
  server := by
    rw [hd.server]
    exact h.server
  stored hkept := by cases hkept
  removed _ := by
    refine ⟨⟨?_, ?_⟩, rfl⟩
    · rw [hd.index]
      simp
    · rw [hd.record, Function.update_self]

/-- The end of the `try` block, with the item on the server. -/
theorem wp_discardOwn (h : SyncInv env api m clip m.target true t) (hlossless : Lossless s → Lossless t)
    (hsyncs : Lossless s → Syncs env api m p) :
    wp (Pushed env api m clip p s) (discardOutboxItem () m.localCaptureId) t := by
  refine (wp_discardOutboxItem h.device.faults).mono fun r u hr => ?_
  obtain ⟨rfl, hd⟩ := hr
  refine ⟨⟨m.target, h.discards hd⟩, fun hs fate hfate => ?_, fun hs => ⟨fun _ => hsyncs hs, fun _ => rfl⟩⟩
  rw [hd.fates] at hfate
  exact hlossless hs fate hfate

/-- The item has UUID ids, and its clip is allowed. -/
structure ItemOk (api : CaptureApi) (m : CaptureOutboxItemMeta) (clip : AudioBlob) : Prop where
  ids : ItemIds api m
  clip : ∀ att mimeType sizeBytes, m.kind = .audio att mimeType sizeBytes → ClipAllowed api mimeType clip

theorem CaptureOutboxItemMeta.localAttachmentId_text {kind : TextUrlKind} (h : m.kind = .textUrl kind) :
    m.kind.localAttachmentId = none := by
  rw [h]
  rfl

theorem ServerAt.target_text {db : CapturesDb} (h : ServerAt env api m clip p db) {kind : TextUrlKind}
    (hkind : m.kind = .textUrl kind) {row : CaptureRecord} (hrow : row ∈ db.rowsOf m.localCaptureId) : p = m.target := by
  have htarget : m.target = .created := by rw [CaptureOutboxItemMeta.target, hkind]; rfl
  rw [htarget]
  cases h with
  | fresh hrows =>
    rw [hrows] at hrow
    cases hrow
  | created => rfl
  | attached body n a hbody hrows hclips =>
    rw [CaptureOutboxItemMeta.localAttachmentId_text hkind] at hclips
    simp [CapturesDb.clipsOf] at hclips

theorem Pushed.lost {p' : SyncPhase} {e : OutboxError} {u : SyncState} (hinv : SyncInv env api m clip p' true u)
    (hs : ¬ Lossless s) : Pushed env api m clip p s (.error e) u :=
  ⟨⟨p', hinv⟩, fun h => absurd h hs, fun h => absurd h hs⟩

/-- From the created capture to the end of the `try` block. -/
theorem wp_uploadOwn (hm : ItemOk api m clip) (q : SyncPhase) (h : SyncInv env api m clip q true t)
    (hlossless : Lossless s → Lossless t) (hsyncs : Lossless s → Syncs env api m p) {row : CaptureRecord}
    (hrow : row ∈ t.server.rowsOf m.localCaptureId) {status : CaptureOutboxStatus} {lastError : Option String} :
    wp (Pushed env api m clip p s) (do
      uploadClip (captureServer api) { m with status := status, lastError := lastError } row.id
      discardOutboxItem () m.localCaptureId) t := by
  rw [wp_bind]
  cases hkind : m.kind with
  | textUrl kind =>
    simp only [uploadClip, pure_eq, wp_ret, seqPost]
    have htarget := h.server.target_text hkind hrow
    subst htarget
    exact wp_discardOwn h hlossless hsyncs
  | audio att mimeType sizeBytes =>
    have hatt : m.kind.localAttachmentId = some att := by rw [hkind]; rfl
    have htarget : m.target = .attached := by rw [CaptureOutboxItemMeta.target, hkind]; rfl
    have hblob := (h.stored rfl).clip att hatt
    obtain ⟨hkey, huuid⟩ := hm.ids.attachment att hatt
    obtain ⟨hreply, hok, hserver⟩ := h.server.uploads h.ok hkind hkey huuid (hm.clip att mimeType sizeBytes hkind) hrow
    simp only [uploadClip, CaptureOutboxKind.localAttachmentId, loadBlob]
    rw [wp_bind, wp_tryCatch, wp_storeOp h.device.faults, nextStoreFate_of_nil (by exact h.device.faults)]
    simp only [seqPost, hblob]
    refine wp_outboxRequest (fun _ _ => ?_) (fun e he => ?_) (fun e he => ?_) fun e he => ?_
    · refine wp_discardOwn (htarget ▸ h.serves rfl rfl rfl rfl hok hserver fun hk => by cases hk) (fun hs => ?_) hsyncs
      exact (hlossless hs).next rfl
    · cases hreply.symm.trans he
    · exact .lost (h.serves rfl rfl rfl rfl h.ok h.server fun hk => by cases hk) fun hs => (hlossless hs).not_lost he
    · exact .lost (h.serves rfl rfl rfl rfl hok hserver fun hk => by cases hk) fun hs => (hlossless hs).not_replyLost he

theorem wp_pushOwn (hm : ItemOk api m clip) (h : SyncInv env api m clip p true s) (status : CaptureOutboxStatus)
    (lastError : Option String) :
    wp (Pushed env api m clip p s)
      (pushItem env (captureServer api) () { m with status := status, lastError := lastError }) s := by
  rw [pushItem]
  split
  · rename_i hblank
    exact ⟨⟨p, h⟩, id, fun _ => ⟨fun hr => (by cases hr), fun hs => absurd hblank hs.1⟩⟩
  · rename_i hsend
    rw [wp_bind]
    obtain ⟨p', hok, hserver, hrow, hsyncs⟩ := h.server.createsOwn h.ok hm.ids.capture
    have hnotSyncs : (createCapture api (createRequest env m) s.server).1.isOk = false → ¬ Syncs env api m p := by
      intro hno hs
      rw [hsyncs.mpr hs.2] at hno
      cases hno
    refine wp_outboxRequest (fun id hid => ?_) (fun e he => ?_) (fun e he => ?_) fun e he => ?_
    · obtain ⟨-, row, hmem, rfl⟩ := hrow id hid
      have hid : (createCapture api (createRequest env m) s.server).1 = .ok row.id := hid
      refine wp_uploadOwn hm p' ?_ (fun hs => hs.next rfl) (fun _ => ⟨hsend, hsyncs.mp (by rw [hid]; rfl)⟩) hmem
      exact h.serves rfl rfl rfl rfl hok hserver fun hk => by cases hk
    · have he : (createCapture api (createRequest env m) s.server).1 = .error e := he
      refine ⟨⟨p', h.serves rfl rfl rfl rfl hok hserver fun hk => by cases hk⟩, fun hs => hs.next rfl, fun _ => ?_⟩
      refine ⟨fun hr => (by cases hr), fun hs => absurd hs (hnotSyncs ?_)⟩
      rw [he]
      rfl
    · exact .lost (h.serves rfl rfl rfl rfl h.ok h.server fun hk => by cases hk) fun hs => hs.not_lost he
    · exact .lost (h.serves rfl rfl rfl rfl hok hserver fun hk => by cases hk) fun hs => hs.not_replyLost he

theorem SyncInv.saves (hm : ItemOk api m clip) (h : SyncInv env api m clip p true s) {status : CaptureOutboxStatus}
    (hstatus : status.isPending = true) (lastError : Option String) :
    SyncInv env api m clip p true
      (s.setRecord m.localCaptureId (some { m with status := status, lastError := lastError })) where
  device := by
    obtain ⟨hs, hnodup, hrecords, hapart⟩ := h.device
    refine ⟨hs, hnodup, fun id m' hrec => ?_, fun id m' hrec hne => ?_⟩
    · by_cases hid : id = m.localCaptureId
      · subst hid
        simp only [OutboxState.setRecord, Function.update_self, Option.some.injEq] at hrec
        subst hrec
        exact ⟨rfl, hm.ids.capture, hm.ids.attachment⟩
      · simp only [OutboxState.setRecord, Function.update_of_ne hid] at hrec
        exact hrecords id m' hrec
    · simp only [OutboxState.setRecord, Function.update_of_ne hne] at hrec
      exact hapart id m' hrec hne
  ok := h.ok
  server := h.server
  stored _ := by
    obtain ⟨hmem, -, hclip⟩ := h.stored rfl
    exact ⟨hmem, ⟨status, lastError, Function.update_self .., hstatus⟩, hclip⟩
  removed hkept := by cases hkept

theorem wp_syncOwn (hm : ItemOk api m clip) (h : SyncInv env api m clip p true s) (acc : SyncResult)
    (status : CaptureOutboxStatus) (lastError : Option String) :
    wp (fun r u => ∃ acc' p' kept', r = .ok acc' ∧ SyncInv env api m clip p' kept' u ∧ (Lossless s → Lossless u) ∧
      (Lossless s → (kept' = false ↔ Syncs env api m p)))
      (syncItem env (captureServer api) () acc { m with status := status, lastError := lastError }) s := by
  rw [syncItem, wp_bind, wp_saveMeta h.device.faults]
  simp only [seqPost]
  rw [wp_bind, wp_attempt]
  refine (wp_pushOwn hm (h.saves hm rfl none) .syncing none).mono fun r u hr => ?_
  obtain ⟨⟨p', hinv⟩, hlossless, hsyncs⟩ := hr
  cases r with
  | ok x => exact ⟨_, p', false, rfl, hinv, hlossless, fun hs => ⟨fun _ => (hsyncs hs).mp rfl, fun _ => rfl⟩⟩
  | error e =>
    simp only [seqPost]
    rw [wp_bind, wp_saveMeta hinv.device.faults]
    refine ⟨_, p', true, rfl, hinv.saves hm rfl _, hlossless, fun hs => ⟨fun hk => (by cases hk), fun hsync => ?_⟩⟩
    cases (hsyncs hs).mpr hsync

/-! ## The other items -/

/-- Another item, with ids of its own. -/
structure OtherItem (api : CaptureApi) (m m' : CaptureOutboxItemMeta) : Prop where
  ne : m'.localCaptureId ≠ m.localCaptureId
  ids : ItemIds api m'
  apart : ∀ att, m.kind.localAttachmentId = some att → m'.kind.localAttachmentId ≠ some att

/-- The item is untouched. -/
def Untouched (env : OutboxEnv) (api : CaptureApi) (m : CaptureOutboxItemMeta) (clip : AudioBlob) (p : SyncPhase)
    (kept : Bool) (s t : SyncState) : Prop :=
  SyncInv env api m clip p kept t ∧ (Lossless s → Lossless t)

theorem SyncInv.savesOther {m' : CaptureOutboxItemMeta} (h : SyncInv env api m clip p kept s)
    (hother : OtherItem api m m') : SyncInv env api m clip p kept (s.setRecord m'.localCaptureId (some m')) where
  device := by
    obtain ⟨hs, hnodup, hrecords, hapart⟩ := h.device
    refine ⟨hs, hnodup, fun id m'' hrec => ?_, fun id m'' hrec hne => ?_⟩
    · by_cases hid : id = m'.localCaptureId
      · subst hid
        simp only [OutboxState.setRecord, Function.update_self, Option.some.injEq] at hrec
        subst hrec
        exact ⟨rfl, hother.ids⟩
      · simp only [OutboxState.setRecord, Function.update_of_ne hid] at hrec
        exact hrecords id m'' hrec
    · by_cases hid : id = m'.localCaptureId
      · subst hid
        simp only [OutboxState.setRecord, Function.update_self, Option.some.injEq] at hrec
        subst hrec
        exact hother.apart
      · simp only [OutboxState.setRecord, Function.update_of_ne hid] at hrec
        exact hapart id m'' hrec hne
  ok := h.ok
  server := h.server
  stored hkept := by
    obtain ⟨hmem, ⟨status, lastError, hrec, hpending⟩, hclip⟩ := h.stored hkept
    exact ⟨hmem, ⟨status, lastError, (Function.update_of_ne hother.ne.symm _ _).trans hrec, hpending⟩, hclip⟩
  removed hkept := by
    obtain ⟨⟨hmem, hrec⟩, htarget⟩ := h.removed hkept
    exact ⟨⟨hmem, (Function.update_of_ne hother.ne.symm _ _).trans hrec⟩, htarget⟩

theorem SyncInv.discardsOther {m' : CaptureOutboxItemMeta} (h : SyncInv env api m clip p kept s)
    (hother : OtherItem api m m') (hd : Discarded m'.localCaptureId s t) : SyncInv env api m clip p kept t where
  device := by
    obtain ⟨-, hnodup, hrecords, hapart⟩ := h.device
    have hold : ∀ id m'', t.record id = some m'' → s.record id = some m'' := by
      intro id m'' hm
      rw [hd.record] at hm
      by_cases he : id = m'.localCaptureId
      · rw [he, Function.update_self] at hm
        cases hm
      · rw [Function.update_of_ne he] at hm
        exact hm
    refine ⟨hd.faults, ?_, fun id m'' hm => hrecords id m'' (hold id m'' hm), fun id m'' hm => hapart id m'' (hold id m'' hm)⟩
    rw [hd.index]
    exact hnodup.filter _
  ok := by
    rw [hd.server]
    exact h.ok
  server := by
    rw [hd.server]
    exact h.server
  stored hkept := by
    obtain ⟨hmem, ⟨status, lastError, hrec, hpending⟩, hclip⟩ := h.stored hkept
    refine ⟨?_, ⟨status, lastError, ?_, hpending⟩, fun att hatt => ?_⟩
    · rw [hd.index, List.mem_filter]
      exact ⟨hmem, by simpa using hother.ne.symm⟩
    · rw [hd.record, Function.update_of_ne hother.ne.symm]
      exact hrec
    · rw [hd.blob att fun m'' hm => h.device.apart _ m'' hm hother.ne att hatt]
      exact hclip att hatt
  removed hkept := by
    obtain ⟨⟨hmem, hrec⟩, htarget⟩ := h.removed hkept
    refine ⟨⟨?_, ?_⟩, htarget⟩
    · rw [hd.index, List.mem_filter]
      exact fun hin => hmem hin.1
    · rw [hd.record, Function.update_of_ne hother.ne.symm]
      exact hrec

theorem wp_discardOther {m' : CaptureOutboxItemMeta} (h : SyncInv env api m clip p kept t)
    (hother : OtherItem api m m') (hlossless : Lossless s → Lossless t) :
    wp (fun _ u => Untouched env api m clip p kept s u) (discardOutboxItem () m'.localCaptureId) t := by
  refine (wp_discardOutboxItem h.device.faults).mono fun r u hr => ?_
  obtain ⟨-, hd⟩ := hr
  refine ⟨h.discardsOther hother hd, fun hs fate hfate => ?_⟩
  rw [hd.fates] at hfate
  exact hlossless hs fate hfate

theorem wp_uploadOther {m' : CaptureOutboxItemMeta} (h : SyncInv env api m clip p kept t)
    (hother : OtherItem api m m') (hlossless : Lossless s → Lossless t) {row : CaptureRecord}
    (hrow : row ∈ t.server.captures) (hlocal : row.localClientId ≠ some m.localCaptureId) :
    wp (fun _ u => Untouched env api m clip p kept s u) (do
      uploadClip (captureServer api) m' row.id
      discardOutboxItem () m'.localCaptureId) t := by
  rw [wp_bind]
  cases hkind : m'.kind with
  | textUrl kind =>
    simp only [uploadClip, hkind, pure_eq, wp_ret, seqPost]
    exact wp_discardOther h hother hlossless
  | audio att mimeType sizeBytes =>
    have hatt : m'.kind.localAttachmentId = some att := by rw [hkind]; rfl
    simp only [uploadClip, hkind, loadBlob, CaptureOutboxKind.localAttachmentId]
    rw [wp_bind, wp_tryCatch, wp_storeOp h.device.faults, nextStoreFate_of_nil (by exact h.device.faults)]
    simp only [seqPost]
    cases hblob : t.blob att with
    | none => exact ⟨h, hlossless⟩
    | some blob =>
      have hkey : m.kind.localAttachmentId.isSome = true →
          clientAttachmentKey (uploadOf att mimeType blob).clientAttachmentId ≠ m.kind.localAttachmentId := by
        intro hsome he
        obtain ⟨own, hown⟩ := Option.isSome_iff_exists.mp hsome
        have hkey : clientAttachmentKey (uploadOf att mimeType blob).clientAttachmentId = some att :=
          (hother.ids.attachment att hatt).1
        rw [hkey, hown] at he
        exact hother.apart own hown (hatt.trans he)
      obtain ⟨hok, hserver⟩ := h.server.uploadsOther h.ok hrow hlocal hkey
      refine wp_outboxRequest (fun _ _ => ?_) (fun e _ => ?_) (fun e _ => ?_) fun e _ => ?_
      · refine wp_discardOther ?_ hother fun hs => (hlossless hs).next rfl
        exact h.serves rfl rfl rfl rfl hok hserver fun _ => rfl
      · exact ⟨h.serves rfl rfl rfl rfl hok hserver fun _ => rfl, fun hs => (hlossless hs).next rfl⟩
      · exact ⟨h.serves rfl rfl rfl rfl h.ok h.server fun _ => rfl, fun hs => (hlossless hs).next rfl⟩
      · exact ⟨h.serves rfl rfl rfl rfl hok hserver fun _ => rfl, fun hs => (hlossless hs).next rfl⟩

theorem wp_pushOther {m' : CaptureOutboxItemMeta} (h : SyncInv env api m clip p kept s)
    (hother : OtherItem api m m') :
    wp (fun _ u => Untouched env api m clip p kept s u) (pushItem env (captureServer api) () m') s := by
  rw [pushItem]
  split
  · exact ⟨h, id⟩
  · rw [wp_bind]
    have hclient : api.fieldStrip (createRequest env m').clientId ≠ m.localCaptureId := by
      have hstrip : api.fieldStrip (createRequest env m').clientId = m'.localCaptureId := hother.ids.capture
      rw [hstrip]
      exact hother.ne
    obtain ⟨hok, hserver, hrow⟩ := h.server.createsOther h.ok hclient
    refine wp_outboxRequest (fun id hid => ?_) (fun e _ => ?_) (fun e _ => ?_) fun e _ => ?_
    · obtain ⟨row, hmem, rfl, hlocal⟩ := hrow id hid
      refine wp_uploadOther ?_ hother (fun hs => hs.next rfl) hmem hlocal
      exact h.serves rfl rfl rfl rfl hok hserver fun _ => rfl
    · exact ⟨h.serves rfl rfl rfl rfl hok hserver fun _ => rfl, fun hs => hs.next rfl⟩
    · exact ⟨h.serves rfl rfl rfl rfl h.ok h.server fun _ => rfl, fun hs => hs.next rfl⟩
    · exact ⟨h.serves rfl rfl rfl rfl hok hserver fun _ => rfl, fun hs => hs.next rfl⟩

theorem OtherItem.with {m' : CaptureOutboxItemMeta} (h : OtherItem api m m') (status : CaptureOutboxStatus)
    (lastError : Option String) : OtherItem api m { m' with status := status, lastError := lastError } :=
  ⟨h.ne, ⟨h.ids.capture, h.ids.attachment⟩, h.apart⟩

theorem wp_syncOther {m' : CaptureOutboxItemMeta} (h : SyncInv env api m clip p kept s)
    (hother : OtherItem api m m') (acc : SyncResult) :
    wp (fun r u => ∃ acc', r = .ok acc' ∧ Untouched env api m clip p kept s u)
      (syncItem env (captureServer api) () acc m') s := by
  rw [syncItem, wp_bind, wp_saveMeta h.device.faults]
  simp only [seqPost]
  rw [wp_bind, wp_attempt]
  have hsaved := h.savesOther (hother.with .syncing none)
  refine (wp_pushOther hsaved (hother.with .syncing none)).mono fun r u hr => ?_
  obtain ⟨hinv, hlossless⟩ := hr
  cases r with
  | ok x => exact ⟨_, rfl, hinv, hlossless⟩
  | error e =>
    simp only [seqPost]
    rw [wp_bind, wp_saveMeta hinv.device.faults]
    exact ⟨_, rfl, hinv.savesOther (hother.with .failed _), hlossless⟩

/-! ## An attempt -/

theorem wp_listOutboxItems {Q : Except OutboxError (List CaptureOutboxItemMeta) → SyncState → Prop}
    (hs : s.storeFates = []) (hq : Q (.ok (s.index.filterMap s.record)) (s.noteSeen ())) :
    wp Q (listOutboxItems ()) s := by
  have hseen : (s.noteSeen ()).storeFates = [] := hs
  rw [listOutboxItems, wp_bind, readIndex, wp_storeOp hs, nextStoreFate_of_nil hseen]
  refine wp_foldM (fun done out u => out = done.filterMap s.record ∧ u = s.noteSeen ()) ⟨rfl, rfl⟩ ?_ ?_
  · intro done id out u _ hu
    obtain ⟨rfl, rfl⟩ := hu
    rw [listItem, wp_bind, wp_getMeta hseen]
    refine ⟨?_, rfl⟩
    rw [List.filterMap_append]
    congr 1
  · intro out u hu
    obtain ⟨rfl, rfl⟩ := hu
    exact hq

/-- The pending items of the outbox. -/
def pendingItems (s : SyncState) : List CaptureOutboxItemMeta :=
  (s.index.filterMap s.record).filter fun m => m.status.isPending

theorem SyncInv.nodup_pending (h : SyncInv env api m clip p kept s) :
    ((pendingItems s).map CaptureOutboxItemMeta.localCaptureId).Nodup := by
  have hall : ∀ ids : List String, ids.Nodup →
      ((ids.filterMap s.record).map CaptureOutboxItemMeta.localCaptureId).Sublist ids := by
    intro ids
    induction ids with
    | nil => exact fun _ => List.Sublist.slnil
    | cons id ids ih =>
      intro hn
      have hrest := ih (List.nodup_cons.mp hn).2
      cases hrec : s.record id with
      | none =>
        rw [List.filterMap_cons_none hrec]
        exact hrest.cons _
      | some m' =>
        rw [List.filterMap_cons_some hrec, List.map_cons, (h.device.records id m' hrec).1]
        exact hrest.cons_cons _
  have hsub := hall s.index h.device.nodup
  exact (h.device.nodup.sublist hsub).sublist (List.filter_sublist.map _)

theorem mem_pendingItems {m' : CaptureOutboxItemMeta} :
    m' ∈ pendingItems s ↔ (∃ id ∈ s.index, s.record id = some m') ∧ m'.status.isPending = true := by
  rw [pendingItems, List.mem_filter, List.mem_filterMap]

theorem SyncInv.other (h : SyncInv env api m clip p kept s) {m' : CaptureOutboxItemMeta} (hm' : m' ∈ pendingItems s)
    (hne : m'.localCaptureId ≠ m.localCaptureId) : OtherItem api m m' := by
  obtain ⟨⟨id, -, hrec⟩, -⟩ := mem_pendingItems.mp hm'
  obtain ⟨rfl, hids⟩ := h.device.records id m' hrec
  exact ⟨hne, hids, h.device.apart _ m' hrec hne⟩

theorem SyncInv.own (h : SyncInv env api m clip p true s) {m' : CaptureOutboxItemMeta} (hm' : m' ∈ pendingItems s)
    (he : m'.localCaptureId = m.localCaptureId) : ∃ status lastError,
      m' = { m with status := status, lastError := lastError } := by
  obtain ⟨⟨id, -, hrec⟩, -⟩ := mem_pendingItems.mp hm'
  obtain ⟨hid, -⟩ := h.device.records id m' hrec
  obtain ⟨status, lastError, hown, -⟩ := (h.stored rfl).record
  rw [← hid, he, hown] at hrec
  exact ⟨status, lastError, (Option.some.inj hrec).symm⟩

theorem SyncInv.pending_iff (h : SyncInv env api m clip p kept s) :
    m.localCaptureId ∈ (pendingItems s).map CaptureOutboxItemMeta.localCaptureId ↔ kept = true := by
  cases kept with
  | true =>
    obtain ⟨hmem, ⟨status, lastError, hrec, hpending⟩, -⟩ := h.stored rfl
    refine ⟨fun _ => rfl, fun _ => List.mem_map.mpr ⟨_, mem_pendingItems.mpr ⟨⟨_, hmem, hrec⟩, hpending⟩, rfl⟩⟩
  | false =>
    refine ⟨fun hin => ?_, fun hk => by cases hk⟩
    obtain ⟨m', hm', he⟩ := List.mem_map.mp hin
    obtain ⟨⟨id, -, hrec⟩, -⟩ := mem_pendingItems.mp hm'
    have hid := (h.device.records id m' hrec).1
    have hnone := (h.removed rfl).1.record
    rw [← he, hid, hrec] at hnone
    cases hnone

/-- What the loop has done once it has been through `done`. -/
structure Looped (env : OutboxEnv) (api : CaptureApi) (m : CaptureOutboxItemMeta) (clip : AudioBlob) (p : SyncPhase)
    (kept : Bool) (s : SyncState) (done : List CaptureOutboxItemMeta) (q : SyncPhase) (k : Bool) (u : SyncState) :
    Prop where
  inv : SyncInv env api m clip q k u
  lossless : Lossless s → Lossless u
  before : m.localCaptureId ∉ done.map CaptureOutboxItemMeta.localCaptureId → q = p ∧ k = kept
  after : Lossless s → m.localCaptureId ∈ done.map CaptureOutboxItemMeta.localCaptureId →
    (k = false ↔ Syncs env api m p)

theorem wp_syncOutbox (hm : ItemOk api m clip) (h : SyncInv env api m clip p kept s) :
    wp (fun _ u => ∃ q k, SyncInv env api m clip q k u ∧
      (Lossless s → (k = false ↔ kept = false ∨ Syncs env api m p))) (syncOutbox env (captureServer api) ()) s := by
  have hnodup := h.nodup_pending
  rw [syncOutbox, wp_bind]
  refine wp_listOutboxItems h.device.faults ?_
  refine wp_foldM (fun done _ u => ∃ q k, Looped env api m clip p kept s done q k u) ?_ ?_ ?_
  · refine ⟨p, kept, h.serves rfl rfl rfl rfl h.ok h.server fun _ => rfl, id, fun _ => ⟨rfl, rfl⟩, fun _ hin => ?_⟩
    cases hin
  · intro done m' acc u hdone hloop
    obtain ⟨q, k, hinv, hlossless, hbefore, hafter⟩ := hloop
    have hm' : m' ∈ pendingItems s := hdone.subset (List.mem_append_right _ (List.mem_singleton_self _))
    by_cases he : m'.localCaptureId = m.localCaptureId
    · have hkept : kept = true := h.pending_iff.mp (List.mem_map.mpr ⟨m', hm', he⟩)
      subst hkept
      obtain ⟨status, lastError, rfl⟩ := h.own hm' he
      have hfirst : m.localCaptureId ∉ done.map CaptureOutboxItemMeta.localCaptureId := by
        have hn := (hnodup.sublist (hdone.sublist.map CaptureOutboxItemMeta.localCaptureId))
        rw [List.map_append, List.map_singleton] at hn
        intro hin
        exact (List.nodup_append.mp hn).2.2 _ hin _ (List.mem_singleton_self _) rfl
      obtain ⟨rfl, rfl⟩ := hbefore hfirst
      refine (wp_syncOwn hm hinv acc status lastError).mono fun r v hr => ?_
      obtain ⟨acc', q', k', rfl, hinv', hlossless', hsyncs⟩ := hr
      refine ⟨q', k', hinv', fun hs => hlossless' (hlossless hs), fun hno => ?_, fun hs _ => hsyncs (hlossless hs)⟩
      exact absurd (by simp) hno
    · refine (wp_syncOther hinv (h.other hm' he) acc).mono fun r v hr => ?_
      obtain ⟨acc', rfl, hinv', hlossless'⟩ := hr
      have hsame : m.localCaptureId ∈ (done ++ [m']).map CaptureOutboxItemMeta.localCaptureId ↔
          m.localCaptureId ∈ done.map CaptureOutboxItemMeta.localCaptureId := by
        have hne : ¬ m.localCaptureId = m'.localCaptureId := fun heq => he heq.symm
        simp [hne]
      refine ⟨q, k, hinv', fun hs => hlossless' (hlossless hs), fun hno => ?_, fun hs hin => ?_⟩
      · exact hbefore fun hin => hno (hsame.mpr hin)
      · exact hafter hs (hsame.mp hin)
  · intro acc u hloop
    obtain ⟨q, k, hinv, -, hbefore, hafter⟩ := hloop
    refine ⟨q, k, hinv, fun hs => ?_⟩
    cases hkept : kept with
    | true =>
      rw [hafter hs (h.pending_iff.mpr hkept)]
      simp
    | false =>
      have hno : m.localCaptureId ∉ (pendingItems s).map CaptureOutboxItemMeta.localCaptureId := by
        rw [h.pending_iff, hkept]
        simp
      simp [(hbefore hno).2, hkept]

/-! ## Any number of attempts -/

/-- An attempt; `fates` says what becomes of its requests. -/
def syncAttempt (env : OutboxEnv) (api : CaptureApi) (s : SyncState) (fates : List RequestFate) : SyncState :=
  (syncOutbox env (captureServer api) ()).after { s with requestFates := fates }

/-- The item is in the outbox, and the server has nothing of it. -/
structure SyncStart (env : OutboxEnv) (api : CaptureApi) (m : CaptureOutboxItemMeta) (clip : AudioBlob) (s : SyncState) :
    Prop where
  item : ItemOk api m clip
  device : DeviceOk api m s
  stored : OnDevice m clip s
  ok : s.server.Ok api
  rows : s.server.rowsOf m.localCaptureId = []
  clips : s.server.clipsOf m.kind.localAttachmentId = []

/-- At most one capture for the client id, and one attachment for the attachment id. -/
structure AtMostOnce (m : CaptureOutboxItemMeta) (db : CapturesDb) : Prop where
  capture : (db.rowsOf m.localCaptureId).length ≤ 1
  attachment : (db.clipsOf m.kind.localAttachmentId).length ≤ 1

/-- The item is off the device, and the server has the one capture, with the one clip if there is one. -/
structure SyncedOnce (m : CaptureOutboxItemMeta) (clip : AudioBlob) (s : SyncState) : Prop where
  removed : OffDevice m s
  capture : ∃ row, s.server.rowsOf m.localCaptureId = [row] ∧ ∀ att, m.kind.localAttachmentId = some att →
    ∃ a, s.server.clipsOf m.kind.localAttachmentId = [a] ∧ a.captureId = row.id ∧ a.attachmentType = .audio ∧
      a.content = clip

theorem SyncStart.inv (h : SyncStart env api m clip s) : SyncInv env api m clip .fresh true s where
  device := h.device
  ok := h.ok
  server := .fresh h.rows h.clips
  stored _ := h.stored
  removed hk := by cases hk

theorem SyncInv.attempt (hm : ItemOk api m clip) (h : SyncInv env api m clip p kept s) (fates : List RequestFate) :
    ∃ q k, SyncInv env api m clip q k (syncAttempt env api s fates) ∧
      ((∀ fate ∈ fates, fate = .answered) → (k = false ↔ kept = false ∨ Syncs env api m p)) := by
  have hstart : SyncInv env api m clip p kept { s with requestFates := fates } :=
    h.serves rfl rfl rfl rfl h.ok h.server fun _ => rfl
  obtain ⟨r, u, hexec, q, k, hinv, hk⟩ := wp_iff.mp (wp_syncOutbox hm hstart)
  have hafter : syncAttempt env api s fates = u := by simp only [syncAttempt, Prog.after, hexec]; rfl
  rw [hafter]
  exact ⟨q, k, hinv, hk⟩

theorem SyncStart.reached (h : SyncStart env api m clip s) (attempts : List (List RequestFate)) :
    ∃ p kept, SyncInv env api m clip p kept (attempts.foldl (syncAttempt env api) s) := by
  have hrun : ∀ (attempts : List (List RequestFate)) (s : SyncState) (p : SyncPhase) (kept : Bool),
      SyncInv env api m clip p kept s →
      ∃ p kept, SyncInv env api m clip p kept (attempts.foldl (syncAttempt env api) s) := by
    intro attempts
    induction attempts with
    | nil => exact fun s p kept hinv => ⟨p, kept, hinv⟩
    | cons fates attempts ih =>
      intro s p kept hinv
      obtain ⟨q, k, hnext, -⟩ := hinv.attempt h.item fates
      exact ih _ q k hnext
  exact hrun attempts s .fresh true h.inv

theorem ServerAt.atMostOnce {db : CapturesDb} (h : ServerAt env api m clip p db) : AtMostOnce m db := by
  cases h with
  | fresh hrows hclips => exact ⟨by simp [hrows], by simp [hclips]⟩
  | created body n hbody hrows hclips => exact ⟨by simp [hrows], by simp [hclips]⟩
  | attached body n a hbody hrows hclips => exact ⟨by simp [hrows], by simp [hclips]⟩

theorem ServerAt.attached_iff {db : CapturesDb} (h : ServerAt env api m clip p db) :
    p = .attached ↔ db.clipsOf m.kind.localAttachmentId ≠ [] := by
  cases h with
  | fresh hrows hclips => simp [hclips]
  | created body n hbody hrows hclips => simp [hclips]
  | attached body n a hbody hrows hclips => simp [hclips]

theorem SyncInv.syncedOnce (h : SyncInv env api m clip p false s) : SyncedOnce m clip s := by
  obtain ⟨hremoved, htarget⟩ := h.removed rfl
  refine ⟨hremoved, ?_⟩
  have hserver := h.server
  cases hkind : m.kind with
  | textUrl kind =>
    rw [htarget, CaptureOutboxItemMeta.target, hkind] at hserver
    cases hserver with
    | created body n hbody hrows => exact ⟨_, hrows, fun att hatt => by cases hatt⟩
  | audio att mimeType sizeBytes =>
    rw [htarget, CaptureOutboxItemMeta.target, hkind] at hserver
    cases hserver with
    | attached body n a hbody hrows hclips hcapture hkind' hclip =>
      rw [hkind] at hclips
      exact ⟨_, hrows, fun _ _ => ⟨a, hclips, hcapture, hkind', hclip⟩⟩

theorem SyncInv.kept_of_removed (h : SyncInv env api m clip p kept s) (hr : OffDevice m s) : kept = false := by
  cases kept with
  | false => rfl
  | true => exact absurd (h.stored rfl).index hr.index

/-- After any number of attempts, the server has the item at most once. An attempt in which nothing is
lost takes it from the device to the server if and only if it is there already, or its content is not
refused and the server has no clip of it, or one that has left the type of the capture as it was. -/
theorem sync_exactly_once (env : OutboxEnv) (api : CaptureApi) (m : CaptureOutboxItemMeta) (clip : AudioBlob)
    (s : SyncState) (h : SyncStart env api m clip s) (attempts : List (List RequestFate)) :
    AtMostOnce m (attempts.foldl (syncAttempt env api) s).server ∧
      ((∀ fates, (∀ fate ∈ fates, fate = .answered) →
          SyncedOnce m clip (syncAttempt env api (attempts.foldl (syncAttempt env api) s) fates)) ↔
        OffDevice m (attempts.foldl (syncAttempt env api) s) ∨
          Sendable env m ∧ ∃ body, checkCreate api (createRequest env m) = .ok body ∧
            ((attempts.foldl (syncAttempt env api) s).server.clipsOf m.kind.localAttachmentId ≠ [] →
              body.captureType = .mixed)) := by
  obtain ⟨p, kept, hinv⟩ := h.reached attempts
  refine ⟨hinv.server.atMostOnce, ?_⟩
  rw [← hinv.server.attached_iff]
  constructor
  · intro hsynced
    obtain ⟨q, k, hnext, hk⟩ := hinv.attempt h.item []
    have hremoved := (hsynced [] fun fate hfate => by cases hfate).removed
    rcases (hk fun fate hfate => by cases hfate).mp (hnext.kept_of_removed hremoved) with hgone | hsyncs
    · subst hgone
      exact .inl (hinv.removed rfl).1
    · exact .inr hsyncs
  · intro hcond fates hfates
    obtain ⟨q, k, hnext, hk⟩ := hinv.attempt h.item fates
    have hgone : k = false := (hk hfates).mpr (hcond.imp hinv.kept_of_removed id)
    subst hgone
    exact hnext.syncedOnce

end Sync

namespace SyncExample

def env : OutboxEnv :=
  { trim := id, mebibytes := fun n => toString (n / 1048576), formatCaptureErrorMessage := fun _ detail => detail }

theorem newId_injective : Function.Injective fun n => String.ofList (List.replicate n 'u') := by
  intro m n h
  have hlength := congrArg (fun s : String => s.toList.length) h
  simpa using hlength

def api : CaptureApi :=
  { fieldStrip := id, isUuid := fun _ => true, lower := id, newId := fun n => String.ofList (List.replicate n 'u')
    imageMaxBytes := 10485760, audioMaxBytes := 26214400, thrown := fun _ => .other
    newId_injective := newId_injective, newId_isUuid := fun _ => rfl }

def clip : AudioBlob := ⟨3, "mic"⟩

/-- A voice note without a text. -/
def voice : CaptureOutboxItemMeta :=
  { localCaptureId := "cap", kind := .audio "att" "audio/webm" 3, title := none, text := none, url := none
    tags := none, status := .localPending, lastError := none }

def start : SyncState :=
  { index := ["cap"], record := Function.update (fun _ => none) "cap" (some voice)
    blob := Function.update (fun _ => none) "att" (some clip)
    server := { captures := [], attachments := [], drawn := 0 }
    storeFates := [], requestFates := [], captured := [], uploaded := [], discarded := []
    seen := fun _ => [], counted := fun _ => none }

theorem start_ok : SyncStart env api voice clip start where
  item :=
    { ids := ⟨rfl, fun att hatt => by cases hatt; exact ⟨by decide +kernel, rfl⟩⟩
      clip := fun att mimeType sizeBytes hkind => by
        cases hkind
        exact ⟨by decide +kernel, ⟨"audio/webm", by decide +kernel⟩, by decide⟩ }
  device := by
    have hrec : ∀ id m', start.record id = some m' → id = "cap" ∧ m' = voice := by
      intro id m' hm
      by_cases hid : id = "cap"
      · subst hid
        simp only [start, Function.update_self, Option.some.injEq] at hm
        exact ⟨rfl, hm.symm⟩
      · simp [start, Function.update_of_ne hid] at hm
    refine ⟨rfl, by decide, fun id m' hm => ?_, fun id m' hm hne => absurd (hrec id m' hm).1 hne⟩
    obtain ⟨rfl, rfl⟩ := hrec id m' hm
    exact ⟨rfl, rfl, fun att hatt => by cases hatt; exact ⟨by decide +kernel, rfl⟩⟩
  stored := ⟨by decide, ⟨.localPending, none, rfl, rfl⟩, fun att hatt => by cases hatt; rfl⟩
  ok := ⟨List.nodup_nil, fun n _ => List.not_mem_nil⟩
  rows := rfl
  clips := rfl

/-- The capture is created, and the reply to the upload is lost. -/
def attached : SyncState := syncAttempt env api start [.answered, .replyLost .other]

end SyncExample

section Examples

open SyncExample

/-- The reply to the create request is lost; the next attempt takes the voice note to the server. -/
theorem sync_exactly_once_voice :
    SyncedOnce voice clip (syncAttempt env api (syncAttempt env api start [.replyLost .other]) []) :=
  ((sync_exactly_once env api voice clip start start_ok [[.replyLost .other]]).2.mpr
    (.inr ⟨by decide +kernel, _, rfl, fun hclips => absurd (by decide +kernel) hclips⟩)) [] fun fate hfate => by
      cases hfate

/-- The server has the capture and its clip. The replay of the create request is a conflict, and an
attempt in which nothing is lost leaves the item on the device. -/
theorem upload_reply_lost : attached = [[.answered, .replyLost .other]].foldl (syncAttempt env api) start ∧
    (attached.server.rowsOf "cap").map CaptureRecord.captureType = [.mixed] ∧
    (attached.server.clipsOf (some "att")).map AttachmentRecord.content = [clip] ∧
    "cap" ∈ (syncAttempt env api attached []).index ∧ ¬ SyncedOnce voice clip (syncAttempt env api attached []) := by
  have hkept : "cap" ∈ (syncAttempt env api attached []).index := by decide +kernel
  exact ⟨rfl, by decide +kernel, by decide +kernel, hkept, fun h => h.removed.index hkept⟩

end Examples

end Lumogis
