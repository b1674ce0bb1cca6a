import Lumogis.Conversations
import Lumogis.Lib.Labelled
import Mathlib.Data.Fintype.Basic
import Mathlib.Tactic.SplitIfs

/-!
# ConversationRuns

One conversation under any number of threads, one call at a time: `session_end` jobs with their
retries, upserts of the header, appended messages, and purges.

`purged_conversation_gone`: in every run in which a purge deletes from a store only while no call
that has passed its look for the tombstone still is to write there, and in which no message is
refused inside a transaction, nothing of the conversation is left once a purge has returned with
`postgres_deleted`. The writers look for the tombstone once, before they write: a call that did so
before the purge brings the conversation back (`purged_conversation_back`).
-/

namespace Lumogis

open Prog Labelled Conversations

inductive ConversationPhase where
  | idle
  /-- A `session_end` job was claimed. -/
  | claimed (messages : List SessionMessage)
  /-- The handler has found no tombstone; `store_session` looks again. -/
  | summarising (messages : List SessionMessage)
  | storing (summary : SessionSummary) (entityIds : List String)
  /-- The point was upserted. -/
  | stored (summary : SessionSummary) (entityIds : List String)
  | upserting (title model : String)
  /-- The header is the user's, or there is none. -/
  | upsertable (title model : String)
  | appending (m : WebMessage)
  | proposing (m : WebMessage)
  | appendable (m : WebMessage)
  | appended (m : WebMessage)
  | purgeFound (sessionFound : Bool)
  | purgePlanned (stmts : List SessionPurgeStmt)
  | purging (todo : List SessionPurgeStmt)
  | cancelling
  | clearing (todo : List String)
  deriving DecidableEq

def ConversationPhase.inTransaction : ConversationPhase → Bool
  | .purging _ => true
  | _ => false

structure ConversationConfig (ι : Type) where
  store : ConversationStore
  phase : ι → ConversationPhase
  /-- A purge has returned with `postgres_deleted`. -/
  purged : Bool

inductive ConversationLabel (ι : Type) where
  | enqueue (id : Nat) (messages : List SessionMessage)
  | claim (i : ι) (id : Nat)
  /-- A running job is done, goes back to the queue, or is given up. -/
  | leave (id : Nat) (status : JobStatus)
  | checkJob (i : ι)
  | checkStore (i : ι) (summary : String) (topics entities entityIds : List String)
  | upsertPoint (i : ι)
  | upsertSession (i : ι)
  | upsertCall (i : ι) (title model : String)
  | readOwner (i : ι)
  | upsertHeader (i : ι)
  | appendCall (i : ι) (m : WebMessage)
  | readHeader (i : ι)
  | readProposal (i : ι)
  | insertMessage (i : ι)
  | readMessage (i : ι)
  | purgeCall (i : ι)
  | checkPurge (i : ι)
  | beginPurge (i : ι)
  | purgeStmt (i : ι)
  | commitPurge (i : ι)
  | cancelJobs (i : ι)
  | dropPoint (i : ι)
  | updateTombstone (i : ι)

/-- What a purge returns when no arm fails. -/
def Conversations.SessionPurgeResult.complete : SessionPurgeResult :=
  { SessionPurgeResult.start with postgresDeleted := true, qdrantDeleted := true
                                  graphDeleted := true }

section System

variable {ι : Type} [DecidableEq ι]

def ConversationConfig.put (i : ι) (p : ConversationPhase) (store : ConversationStore)
    (c : ConversationConfig ι) : ConversationConfig ι :=
  { c with store := store, phase := Function.update c.phase i p }

/-- The store after `_ensure_conn`. -/
def ConversationConfig.conn (c : ConversationConfig ι) : ConversationStore := c.store.ensureConn

def ConversationStore.modify (f : ConversationTables → ConversationTables) (s : ConversationStore) :
    ConversationStore := s.setTables (f s.tables)

/-- A call goes on if it finds no tombstone. -/
def ConversationConfig.unlessPurged (k : ConversationKey) (i : ι) (p : ConversationPhase)
    (c : ConversationConfig ι) : ConversationConfig ι :=
  c.put i (if c.conn.tables.purged k then .idle else p) c.conn

def claimed (id : Nat) (t : ConversationTables) : ConversationTables :=
  { t with
    userBatchJobs := Table.updateWhere (·.id == id) (fun j => { j with status := .running })
      t.userBatchJobs }

def conversationStep (env : ConversationEnv) (k : ConversationKey) :
    ConversationLabel ι → ConversationConfig ι → Option (ConversationConfig ι)
  | .enqueue id messages, c =>
    some { c with
      store := c.conn.modify fun t => { t with
        userBatchJobs := t.userBatchJobs ++ [⟨id, k.userId, k.sessionId, messages, .pending, none⟩] } }
  | .claim i id, c =>
    match c.phase i, c.conn.tables.userBatchJobs.find? fun j =>
        j.id == id && k.isJob j && j.status == .pending with
    | .idle, some j => some (c.put i (.claimed j.messages) (c.conn.modify (claimed id)))
    | _, _ => none
  | .leave id status, c =>
    some { c with
      store := c.conn.modify fun t => { t with
        userBatchJobs := Table.updateWhere (fun j => j.id == id && j.status == .running)
          (fun j => { j with status := status }) t.userBatchJobs } }
  | .checkJob i, c =>
    match c.phase i with
    | .claimed messages => some (c.unlessPurged k i (.summarising messages))
    | _ => none
  | .checkStore i summary topics entities entityIds, c =>
    match c.phase i with
    | .summarising _ =>
      some (c.unlessPurged k i (.storing ⟨k.sessionId, summary, topics, entities⟩ entityIds))
    | _ => none
  | .upsertPoint i, c =>
    match c.phase i with
    | .storing summary entityIds =>
      if env.rcSessionEndStub then none
      else some (c.put i (.stored summary entityIds) (c.store.addPoint
        (sessionPoint env summary k.userId .personal (env.embed (embeddedText summary)))))
    | _ => none
  | .upsertSession i, c =>
    match c.phase i with
    | .storing summary entityIds =>
      if env.rcSessionEndStub then
        some (c.put i .idle (c.conn.modify (ConversationTables.upsertSession
          (sessionRow summary k.userId entityIds .personal))))
      else none
    | .stored summary entityIds =>
      some (c.put i .idle (c.conn.modify (ConversationTables.upsertSession
        (sessionRow summary k.userId entityIds .personal))))
    | _ => none
  | .upsertCall i title model, c =>
    match c.phase i with
    | .idle => some (c.unlessPurged k i (.upserting title model))
    | _ => none
  | .readOwner i, c =>
    match c.phase i with
    | .upserting title model =>
      match c.conn.tables.webConversations.find? (·.conversationId == k.sessionId) with
      | some r =>
        some (c.put i (if r.userId ≠ k.userId then .idle else .upsertable title model) c.conn)
      | none => some (c.put i (.upsertable title model) c.conn)
    | _ => none
  | .upsertHeader i, c =>
    match c.phase i with
    | .upsertable title model =>
      some (c.put i .idle (c.conn.modify (ConversationTables.upsertHeader (headerRow k title model))))
    | _ => none
  | .appendCall i m, c =>
    match c.phase i with
    | .idle => some (c.unlessPurged k i (.appending m))
    | _ => none
  | .readHeader i, c =>
    match c.phase i with
    | .appending m =>
      some (c.put i (if c.conn.tables.webConversations.any k.isHeader then
          if m.actionProposalId.isSome then .proposing m else .appendable m
        else .idle) c.conn)
    | _ => none
  | .readProposal i, c =>
    match c.phase i with
    | .proposing m =>
      match c.conn.tables.actionProposals.find? fun x => some x.1 == m.actionProposalId with
      | some x => some (c.put i (if x.2 ≠ k.userId then .idle else .appendable m) c.conn)
      | none => some (c.put i .idle c.conn)
    | _ => none
  | .insertMessage i, c =>
    match c.phase i with
    | .appendable m =>
      match c.conn.tables.insertMessage (messageRow k m) with
      | some t => some (c.put i (.appended m) (c.conn.setTables t))
      | none => some (c.put i .idle c.conn.refused)
    | _ => none
  | .readMessage i, c =>
    match c.phase i with
    | .appended _ => some (c.put i .idle c.conn)
    | _ => none
  | .purgeCall i, c =>
    match c.phase i with
    | .idle =>
      some (c.put i (.purgeFound (c.conn.tables.sessions.any fun r =>
        k.isSession r && r.scope == .personal)) c.conn)
    | _ => none
  | .checkPurge i, c =>
    match c.phase i with
    | .purgeFound sessionFound =>
      some (c.put i (if sessionFound then .purgePlanned postgresArm
        else if c.conn.tables.purged k then .purgePlanned webCleanup else .idle) c.conn)
    | _ => none
  | .beginPurge i, c =>
    match c.phase i with
    | .purgePlanned stmts =>
      some (if c.conn.saved.isSome then c.put i .idle c.conn
        else c.put i (.purging stmts) { c.conn with saved := some c.conn.tables })
    | _ => none
  | .purgeStmt i, c =>
    match c.phase i with
    | .purging (stmt :: todo) => some (c.put i (.purging todo) (c.conn.modify (stmt.run k)))
    | _ => none
  | .commitPurge i, c =>
    match c.phase i with
    | .purging [] =>
      some (c.put i .cancelling
        (if c.store.aborted then c.store.restored else { c.store with saved := none }))
    | _ => none
  | .cancelJobs i, c =>
    match c.phase i with
    | .cancelling =>
      some (c.put i (.clearing (purgePointIds env k))
        (c.conn.modify (ConversationTables.cancelJobs k)))
    | _ => none
  | .dropPoint i, c =>
    match c.phase i with
    | .clearing (id :: todo) => some (c.put i (.clearing todo) (c.store.dropPoint id))
    | _ => none
  | .updateTombstone i, c =>
    match c.phase i with
    | .clearing [] =>
      some { c.put i .idle (c.conn.modify (updateTombstone k .complete)) with purged := true }
    | _ => none

/-! ## The law and its condition -/

/-- Nothing of the conversation is left. -/
structure ConversationGone (env : ConversationEnv) (k : ConversationKey) (s : ConversationStore) :
    Prop where
  sessions : ∀ r ∈ s.tables.sessions, k.isSession r = false
  headers : ∀ r ∈ s.tables.webConversations, k.isHeader r = false
  messages : ∀ r ∈ s.tables.webMessages, k.isMessage r = false
  points : ∀ pt ∈ s.points, k.isPoint pt = false ∧ pt.id ∉ purgePointIds env k

/-- What a purge deletes and a writer may write. -/
inductive PurgeTarget where
  | session | header | point (id : String)

/-- The call has looked for the tombstone and is still to write there. -/
def PurgeTarget.writes (env : ConversationEnv) (k : ConversationKey) :
    PurgeTarget → ConversationPhase → Bool
  | .session, .storing _ _ => true
  | .session, .stored _ _ => true
  | .header, .upserting _ _ => true
  | .header, .upsertable _ _ => true
  | .point id, .storing _ _ =>
    !env.rcSessionEndStub && id == sessionConversationPointId env k.userId k.sessionId
  | _, _ => false

def Conversations.SessionPurgeStmt.target : SessionPurgeStmt → Option PurgeTarget
  | .header => some .header
  | .session => some .session
  | .tombstone | .messages | .projections => none

/-- What the step deletes. -/
def deletes (l : ConversationLabel ι) (c : ConversationConfig ι) : Option PurgeTarget :=
  match l with
  | .purgeStmt i =>
    match c.phase i with
    | .purging (stmt :: _) => stmt.target
    | _ => none
  | .dropPoint i =>
    match c.phase i with
    | .clearing (id :: _) => some (.point id)
    | _ => none
  | _ => none

/-- The step is a message that is refused inside a transaction. -/
def abortsTransaction (k : ConversationKey) (l : ConversationLabel ι) (c : ConversationConfig ι) :
    Bool :=
  match l with
  | .insertMessage i =>
    match c.phase i with
    | .appendable m =>
      (c.conn.tables.insertMessage (messageRow k m)).isNone && c.conn.saved.isSome
    | _ => false
  | _ => false

/-- The purge deletes where no call underway is to write, and no message aborts its transaction. -/
def NoneUnderway (env : ConversationEnv) (k : ConversationKey) (l : ConversationLabel ι)
    (c : ConversationConfig ι) : Prop :=
  (∀ a ∈ deletes l c, ∀ j, a.writes env k (c.phase j) = false) ∧ abortsTransaction k l c = false

instance [Fintype ι] (env : ConversationEnv) (k : ConversationKey) (l : ConversationLabel ι)
    (c : ConversationConfig ι) : Decidable (NoneUnderway env k l c) :=
  inferInstanceAs (Decidable (_ ∧ _))

/-- No call is in progress, and a conversation with a tombstone has no session. -/
structure ConversationStart (env : ConversationEnv) (k : ConversationKey)
    (c : ConversationConfig ι) : Prop where
  idle : ∀ i, c.phase i = .idle
  saved : c.store.saved = none
  aborted : c.store.aborted = false
  purged : c.purged = false
  sessionIds : (c.store.tables.sessions.map SessionSummaryRow.sessionId).Nodup
  headerIds : (c.store.tables.webConversations.map WebConversationRow.conversationId).Nodup
  messages : ∀ m ∈ c.store.tables.webMessages, k.isMessage m = true →
    ∃ r ∈ c.store.tables.webConversations, k.isHeader r = true
  points : ∀ pt ∈ c.store.points, k.isPoint pt = true → pt.id ∈ purgePointIds env k
  tombstone : c.store.tables.purged k = true →
    ∀ r ∈ c.store.tables.sessions, k.isSession r = false

/-! ## What a run keeps -/

omit [DecidableEq ι]

def PurgeTarget.absent (k : ConversationKey) : PurgeTarget → ConversationStore → Prop
  | .session, s => ∀ r ∈ s.tables.sessions, k.isSession r = false
  | .header, s => ∀ r ∈ s.tables.webConversations, k.isHeader r = false
  | .point id, s => ∀ pt ∈ s.points, pt.id ≠ id

/-- It is gone, and no call is to bring it back. -/
structure GoneFor (env : ConversationEnv) (k : ConversationKey) (c : ConversationConfig ι)
    (a : PurgeTarget) : Prop where
  tombstone : c.store.tables.purged k = true
  absent : a.absent k c.store
  writes : ∀ i, a.writes env k (c.phase i) = false

def PersonalSessions (k : ConversationKey) (t : ConversationTables) : Prop :=
  ∀ r ∈ t.sessions, k.isSession r = true → r.scope = .personal

def OwnHeader (k : ConversationKey) (t : ConversationTables) : Prop :=
  ∀ r ∈ t.webConversations, r.conversationId = k.sessionId → r.userId = k.userId

structure ConversationTablesOk (k : ConversationKey) (t : ConversationTables) : Prop where
  sessionIds : (t.sessions.map SessionSummaryRow.sessionId).Nodup
  headerIds : (t.webConversations.map WebConversationRow.conversationId).Nodup
  messages : ∀ m ∈ t.webMessages, k.isMessage m = true →
    ∃ r ∈ t.webConversations, k.isHeader r = true

/-- A transaction of a purge, with these statements still to come. -/
structure PurgingOk (env : ConversationEnv) (k : ConversationKey) (c : ConversationConfig ι)
    (todo : List SessionPurgeStmt) : Prop where
  first : .tombstone ∈ todo → todo = postgresArm
  tombstone : .tombstone ∉ todo → c.store.tables.purged k = true
  header : .header ∉ todo → GoneFor env k c .header
  session : .session ∉ todo → GoneFor env k c .session
  personal : .session ∈ todo → PersonalSessions k c.store.tables

/-- The rows are gone. -/
def RowsGone (env : ConversationEnv) (k : ConversationKey) (c : ConversationConfig ι) : Prop :=
  GoneFor env k c .header ∧ GoneFor env k c .session

def ConversationPhaseOk (env : ConversationEnv) (k : ConversationKey) (c : ConversationConfig ι) :
    ConversationPhase → Prop
  | .storing summary _ | .stored summary _ => summary.sessionId = k.sessionId
  | .proposing _ | .appendable _ => OwnHeader k c.store.tables
  | .purgeFound true => PersonalSessions k c.store.tables
  | .purgePlanned stmts =>
    stmts = postgresArm ∧ PersonalSessions k c.store.tables ∨
      stmts = webCleanup ∧ c.store.tables.purged k = true
  | .purging todo => PurgingOk env k c todo
  | .cancelling => RowsGone env k c
  | .clearing todo =>
    RowsGone env k c ∧ ∀ id ∈ purgePointIds env k, id ∉ todo → GoneFor env k c (.point id)
  | _ => True

structure ConversationInv (env : ConversationEnv) (k : ConversationKey) (c : ConversationConfig ι) :
    Prop where
  aborted : c.store.aborted = false
  tables : ConversationTablesOk k c.store.tables
  points : ∀ pt ∈ c.store.points, k.isPoint pt = true → pt.id ∈ purgePointIds env k
  alone : ∀ i, (c.phase i).inTransaction = true → c.store.saved.isSome = true ∧
    ∀ j, (c.phase j).inTransaction = true → j = i
  tombstone : c.store.tables.purged k = true →
    GoneFor env k c .session ∨ ∃ i todo, c.phase i = .purging todo ∧ .session ∈ todo
  phase : ∀ i, ConversationPhaseOk env k c (c.phase i)
  done : c.purged = true →
    RowsGone env k c ∧ ∀ id ∈ purgePointIds env k, GoneFor env k c (.point id)

section Tables

variable {k : ConversationKey} {t t' : ConversationTables}

theorem mem_upsertSession {row r : SessionSummaryRow} (h : r ∈ (t.upsertSession row).sessions) :
    (∃ x ∈ t.sessions, x.sessionId = r.sessionId ∧ x.userId = r.userId ∧ x.scope = r.scope) ∨
      r = row := by
  simp only [ConversationTables.upsertSession] at h
  split_ifs at h
  · rcases Table.mem_updateWhere.mp h with ⟨x, hx, -, rfl⟩ | ⟨hr, -⟩
    · exact .inl ⟨x, hx, rfl, rfl, rfl⟩
    · exact .inl ⟨r, hr, rfl, rfl, rfl⟩
  · rcases List.mem_append.mp h with hr | hr
    · exact .inl ⟨r, hr, rfl, rfl, rfl⟩
    · exact .inr (List.mem_singleton.mp hr)

theorem mem_upsertHeader {row r : WebConversationRow}
    (h : r ∈ (t.upsertHeader row).webConversations) :
    (∃ x ∈ t.webConversations, x.conversationId = r.conversationId ∧ x.userId = r.userId) ∨
      r = row := by
  simp only [ConversationTables.upsertHeader] at h
  split_ifs at h
  · rcases Table.mem_updateWhere.mp h with ⟨x, hx, -, rfl⟩ | ⟨hr, -⟩
    · exact .inl ⟨x, hx, rfl, rfl⟩
    · exact .inl ⟨r, hr, rfl, rfl⟩
  · rcases List.mem_append.mp h with hr | hr
    · exact .inl ⟨r, hr, rfl, rfl⟩
    · exact .inr (List.mem_singleton.mp hr)

theorem upsertHeader_keeps (row : WebConversationRow) {r : WebConversationRow}
    (h : r ∈ t.webConversations) :
    ∃ x ∈ (t.upsertHeader row).webConversations,
      x.conversationId = r.conversationId ∧ x.userId = r.userId := by
  simp only [ConversationTables.upsertHeader]
  split_ifs
  · exact ⟨_, List.mem_map_of_mem h, by split_ifs <;> rfl, by split_ifs <;> rfl⟩
  · exact ⟨r, List.mem_append_left _ h, rfl, rfl⟩

theorem PersonalSessions.upsertSession {row : SessionSummaryRow} (h : PersonalSessions k t)
    (hrow : row.scope = .personal) : PersonalSessions k (t.upsertSession row) := by
  intro r hr hk
  rcases mem_upsertSession hr with ⟨x, hx, hid, hu, hs⟩ | rfl
  · rw [← hs]
    refine h x hx ?_
    simpa only [ConversationKey.isSession, hid, hu] using hk
  · exact hrow

theorem OwnHeader.upsertHeader {row : WebConversationRow} (h : OwnHeader k t)
    (hrow : row.userId = k.userId) : OwnHeader k (t.upsertHeader row) := by
  intro r hr hk
  rcases mem_upsertHeader hr with ⟨x, hx, hid, hu⟩ | rfl
  · rw [← hu]
    exact h x hx (hid.trans hk)
  · exact hrow

theorem ConversationTablesOk.owned (h : ConversationTablesOk k t)
    (hr : ∃ r ∈ t.webConversations, k.isHeader r = true) : OwnHeader k t := by
  intro x hx hid
  obtain ⟨r, hr, hk⟩ := hr
  simp only [ConversationKey.isHeader, Bool.and_eq_true, beq_iff_eq] at hk
  rw [List.inj_on_of_nodup_map h.headerIds hx hr (hid.trans hk.1.symm)]
  exact hk.2

theorem ConversationTablesOk.personal (h : ConversationTablesOk k t)
    (hr : ∃ r ∈ t.sessions, (k.isSession r && r.scope == .personal) = true) :
    PersonalSessions k t := by
  intro x hx hkx
  obtain ⟨r, hr, hk⟩ := hr
  simp only [ConversationKey.isSession, Bool.and_eq_true, beq_iff_eq] at hk hkx
  rw [List.inj_on_of_nodup_map h.sessionIds hx hr (hkx.1.trans hk.1.1.symm)]
  exact hk.2

theorem ConversationTablesOk.upsertSession {row : SessionSummaryRow}
    (h : ConversationTablesOk k t) : ConversationTablesOk k (t.upsertSession row) where
  sessionIds := by
    simp only [ConversationTables.upsertSession]
    split_ifs with hany
    · rw [Table.map_updateWhere (f := row.updated) fun _ => rfl]
      exact h.sessionIds
    · rw [List.map_append, List.map_singleton]
      refine List.Nodup.append h.sessionIds (List.nodup_singleton _) ?_
      simpa [List.disjoint_singleton] using hany
  headerIds := h.headerIds
  messages := h.messages

theorem ConversationTablesOk.upsertHeader {row : WebConversationRow}
    (h : ConversationTablesOk k t) : ConversationTablesOk k (t.upsertHeader row) where
  sessionIds := h.sessionIds
  headerIds := by
    simp only [ConversationTables.upsertHeader]
    split_ifs with hany
    · rw [Table.map_updateWhere (f := row.updated) fun _ => rfl]
      exact h.headerIds
    · rw [List.map_append, List.map_singleton]
      refine List.Nodup.append h.headerIds (List.nodup_singleton _) ?_
      simpa [List.disjoint_singleton] using hany
  messages m hm hk := by
    obtain ⟨r, hr, hkr⟩ := h.messages m hm hk
    obtain ⟨x, hx, hid, hu⟩ := upsertHeader_keeps row hr
    exact ⟨x, hx, by simpa only [ConversationKey.isHeader, hid, hu] using hkr⟩

theorem ConversationTablesOk.insertMessage {m : WebMessage} (h : ConversationTablesOk k t)
    (ho : OwnHeader k t) (ht : t.insertMessage (messageRow k m) = some t') :
    ConversationTablesOk k t' := by
  simp only [ConversationTables.insertMessage] at ht
  split_ifs at ht with hdup hany
  · cases ht
    exact h
  · cases ht
    refine ⟨h.sessionIds, h.headerIds, fun x hx hk => ?_⟩
    rcases List.mem_append.mp hx with hx | hx
    · exact h.messages x hx hk
    · obtain ⟨r, hr, hid⟩ := List.any_eq_true.mp hany
      have hid' : r.conversationId = k.sessionId := by simpa [messageRow] using hid
      exact ⟨r, hr, by simp [ConversationKey.isHeader, hid', ho r hr hid']⟩

theorem ConversationTablesOk.run (h : ConversationTablesOk k t) (stmt : SessionPurgeStmt) :
    ConversationTablesOk k (stmt.run k t) := by
  have hsub : ∀ p, ConversationTablesOk k (t.deleteSessions p) := fun p =>
    ⟨h.sessionIds.sublist (List.filter_sublist.map _), h.headerIds, h.messages⟩
  cases stmt with
  | tombstone =>
    simp only [SessionPurgeStmt.run, ConversationTables.insertTombstone]
    split_ifs
    · exact h
    · exact ⟨h.sessionIds, h.headerIds, h.messages⟩
  | messages =>
    exact ⟨h.sessionIds, h.headerIds, fun m hm => h.messages m (Table.mem_of_mem_deleteWhere hm)⟩
  | header =>
    refine ⟨h.sessionIds, h.headerIds.sublist (List.filter_sublist.map _), fun m hm hk => ?_⟩
    obtain ⟨hm, hgone⟩ := Table.mem_deleteWhere.mp hm
    obtain ⟨r, hr, hkr⟩ := h.messages m hm hk
    -- the header is deleted, and the message with it
    have hid : r.conversationId = m.conversationId := by
      simp only [ConversationKey.isHeader, ConversationKey.isMessage, Bool.and_eq_true,
        beq_iff_eq] at hkr hk
      exact hkr.1.trans hk.1.symm
    have := List.any_eq_false.mp hgone r (List.mem_filter.mpr ⟨hr, hkr⟩)
    simp [hid] at this
  | projections => exact hsub _
  | session => exact hsub _

theorem purged_insertTombstone : (t.insertTombstone k).purged k = true := by
  simp only [ConversationTables.insertTombstone]
  split_ifs with hp
  · exact hp
  · simp [ConversationTables.purged, ConversationKey.isTombstone]

theorem purged_run (stmt : SessionPurgeStmt) (h : t.purged k = true) :
    (stmt.run k t).purged k = true := by
  cases stmt with
  | tombstone => exact purged_insertTombstone
  | _ => exact h

theorem mem_run_sessions {stmt : SessionPurgeStmt} {r : SessionSummaryRow}
    (h : r ∈ (stmt.run k t).sessions) : r ∈ t.sessions := by
  cases stmt with
  | tombstone =>
    simp only [SessionPurgeStmt.run, ConversationTables.insertTombstone] at h
    split_ifs at h <;> exact h
  | messages => exact h
  | header => exact h
  | projections => exact Table.mem_of_mem_deleteWhere h
  | session => exact Table.mem_of_mem_deleteWhere h

theorem mem_run_headers {stmt : SessionPurgeStmt} {r : WebConversationRow}
    (h : r ∈ (stmt.run k t).webConversations) : r ∈ t.webConversations := by
  cases stmt with
  | tombstone =>
    simp only [SessionPurgeStmt.run, ConversationTables.insertTombstone] at h
    split_ifs at h <;> exact h
  | header => exact Table.mem_of_mem_deleteWhere h
  | _ => exact h

theorem purged_updateTombstone (result : SessionPurgeResult) :
    (updateTombstone k result t).purged k = t.purged k := by
  simp only [ConversationTables.purged, updateTombstone, Table.updateWhere, List.any_map]
  congr 1
  funext r
  simp only [Function.comp]
  split_ifs <;> rfl

end Tables

section Inv

variable {env : ConversationEnv} {k : ConversationKey} {c c' : ConversationConfig ι}

theorem PurgeTarget.writes_idle (a : PurgeTarget) : a.writes env k .idle = false := by
  cases a <;> rfl

theorem ConversationStart.inv (h : ConversationStart env k c) : ConversationInv env k c where
  aborted := h.aborted
  tables := ⟨h.sessionIds, h.headerIds, h.messages⟩
  points := h.points
  alone i hi := by rw [h.idle i] at hi; cases hi
  tombstone ht := .inl ⟨ht, h.tombstone ht, fun i => by rw [h.idle i]; rfl⟩
  phase i := by rw [h.idle i]; trivial
  done hd := by rw [h.purged] at hd; cases hd

theorem ConversationInv.gone (h : ConversationInv env k c) (hp : c.purged = true) :
    ConversationGone env k c.store where
  sessions := (h.done hp).1.2.absent
  headers := (h.done hp).1.1.absent
  messages m hm := by
    by_contra hk
    obtain ⟨r, hr, hkr⟩ := h.tables.messages m hm (by simpa using hk)
    rw [(h.done hp).1.1.absent r hr] at hkr
    cases hkr
  points pt hpt := by
    have hid : pt.id ∉ purgePointIds env k := fun hid => ((h.done hp).2 _ hid).absent pt hpt rfl
    refine ⟨?_, hid⟩
    by_contra hk
    exact hid (h.points pt hpt (by simpa using hk))

/-! ### Steps that carry what is known -/

structure Carries (env : ConversationEnv) (k : ConversationKey) (c c' : ConversationConfig ι) :
    Prop where
  purged : c.store.tables.purged k = true → c'.store.tables.purged k = true
  personal : PersonalSessions k c.store.tables → PersonalSessions k c'.store.tables
  owned : OwnHeader k c.store.tables → OwnHeader k c'.store.tables
  gone : ∀ a, GoneFor env k c a → GoneFor env k c' a

theorem PurgingOk.carries {todo : List SessionPurgeStmt} (h : PurgingOk env k c todo)
    (hc : Carries env k c c') : PurgingOk env k c' todo where
  first := h.first
  tombstone ht := hc.purged (h.tombstone ht)
  header hh := hc.gone _ (h.header hh)
  session hs := hc.gone _ (h.session hs)
  personal hs := hc.personal (h.personal hs)

theorem RowsGone.carries (h : RowsGone env k c) (hc : Carries env k c c') : RowsGone env k c' :=
  ⟨hc.gone _ h.1, hc.gone _ h.2⟩

theorem ConversationPhaseOk.carries {p : ConversationPhase} (h : ConversationPhaseOk env k c p)
    (hc : Carries env k c c') : ConversationPhaseOk env k c' p := by
  cases p with
  | storing summary entityIds => exact h
  | stored summary entityIds => exact h
  | proposing m => exact hc.owned h
  | appendable m => exact hc.owned h
  | purgeFound b =>
    cases b with
    | true => exact hc.personal h
    | false => trivial
  | purgePlanned stmts =>
    rcases h with ⟨rfl, h⟩ | ⟨rfl, h⟩
    · exact .inl ⟨rfl, hc.personal h⟩
    · exact .inr ⟨rfl, hc.purged h⟩
  | purging todo => exact PurgingOk.carries h hc
  | cancelling => exact RowsGone.carries h hc
  | clearing todo => exact ⟨h.1.carries hc, fun id hid ht => hc.gone _ (h.2 id hid ht)⟩
  | _ => trivial

theorem ConversationInv.carries (h : ConversationInv env k c) (hc : Carries env k c c')
    (haborted : c'.store.aborted = false) (htables : ConversationTablesOk k c'.store.tables)
    (hpoints : ∀ pt ∈ c'.store.points, k.isPoint pt = true → pt.id ∈ purgePointIds env k)
    (halone : ∀ i, (c'.phase i).inTransaction = true → c'.store.saved.isSome = true ∧
      ∀ j, (c'.phase j).inTransaction = true → j = i)
    (htombstone : c'.store.tables.purged k = true → c.store.tables.purged k = true)
    (hstay : ∀ i todo, c.phase i = .purging todo → .session ∈ todo → c'.phase i = c.phase i)
    (hphase : ∀ i, c'.phase i = c.phase i ∨ ConversationPhaseOk env k c' (c'.phase i))
    (hdone : c'.purged = c.purged) : ConversationInv env k c' where
  aborted := haborted
  tables := htables
  points := hpoints
  alone := halone
  tombstone ht := by
    rcases h.tombstone (htombstone ht) with hg | ⟨i, todo, hi, hs⟩
    · exact .inl (hc.gone _ hg)
    · exact .inr ⟨i, todo, (hstay i todo hi hs).trans hi, hs⟩
  phase i := by
    rcases hphase i with he | hok
    · rw [he]
      exact (h.phase i).carries hc
    · exact hok
  done hd := by
    obtain ⟨hr, hp⟩ := h.done (hdone ▸ hd)
    exact ⟨hr.carries hc, fun id hid => hc.gone _ (hp id hid)⟩

theorem ConversationInv.conn (h : ConversationInv env k c) : c.conn = c.store := by
  rw [ConversationConfig.conn, ConversationStore.ensureConn, h.aborted]
  rfl

/-- No row or point of the conversation is new, apart from what a writer was to write. -/
structure RowsCarry (env : ConversationEnv) (k : ConversationKey) (c : ConversationConfig ι)
    (s : ConversationStore) : Prop where
  purged : c.store.tables.purged k = true → s.tables.purged k = true
  personal : PersonalSessions k c.store.tables → PersonalSessions k s.tables
  owned : OwnHeader k c.store.tables → OwnHeader k s.tables
  absent : ∀ a : PurgeTarget, (∀ i, a.writes env k (c.phase i) = false) →
    a.absent k c.store → a.absent k s

structure SameRows (k : ConversationKey) (s s' : ConversationStore) : Prop where
  sessions : s'.tables.sessions = s.tables.sessions
  headers : s'.tables.webConversations = s.tables.webConversations
  messages : s'.tables.webMessages = s.tables.webMessages
  purged : s'.tables.purged k = s.tables.purged k
  points : s'.points = s.points

theorem SameRows.refl {s : ConversationStore} : SameRows k s s := ⟨rfl, rfl, rfl, rfl, rfl⟩

theorem SameRows.carry {s : ConversationStore} (h : SameRows k c.store s) : RowsCarry env k c s where
  purged hp := h.purged.trans hp
  personal hp := by rw [PersonalSessions, h.sessions]; exact hp
  owned ho := by rw [OwnHeader, h.headers]; exact ho
  absent a _ ha := by
    cases a with
    | session => simpa only [PurgeTarget.absent, h.sessions] using ha
    | header => simpa only [PurgeTarget.absent, h.headers] using ha
    | point id => simpa only [PurgeTarget.absent, h.points] using ha

theorem SameRows.tables {s : ConversationStore} (h : SameRows k c.store s)
    (ht : ConversationTablesOk k c.store.tables) : ConversationTablesOk k s.tables where
  sessionIds := by rw [h.sessions]; exact ht.sessionIds
  headerIds := by rw [h.headers]; exact ht.headerIds
  messages := by rw [h.headers, h.messages]; exact ht.messages

section Threads

variable [DecidableEq ι] {i : ι} {p : ConversationPhase} {s : ConversationStore}

theorem carries_put (hs : RowsCarry env k c s)
    (hp : ∀ a : PurgeTarget, a.writes env k p = true →
      c.store.tables.purged k = false ∨ a.writes env k (c.phase i) = true) :
    Carries env k c (c.put i p s) where
  purged := hs.purged
  personal := hs.personal
  owned := hs.owned
  gone a ha :=
    { tombstone := hs.purged ha.tombstone
      absent := hs.absent a ha.writes ha.absent
      writes := fun j => by
        simp only [ConversationConfig.put, Function.update_apply]
        split_ifs
        · by_contra hw
          rcases hp a (by simpa using hw) with hpurged | hi
          · rw [ha.tombstone] at hpurged
            cases hpurged
          · rw [ha.writes i] at hi
            cases hi
        · exact ha.writes j }

theorem ConversationInv.puts (h : ConversationInv env k c) (hs : RowsCarry env k c s)
    (hwrites : ∀ a : PurgeTarget, a.writes env k p = true →
      c.store.tables.purged k = false ∨ a.writes env k (c.phase i) = true)
    (haborted : s.aborted = false) (htables : ConversationTablesOk k s.tables)
    (hpoints : ∀ pt ∈ s.points, k.isPoint pt = true → pt.id ∈ purgePointIds env k)
    (hsaved : s.saved = c.store.saved) (hpurged : s.tables.purged k = c.store.tables.purged k)
    (hi : (c.phase i).inTransaction = false) (hp : p.inTransaction = false)
    (hok : Carries env k c (c.put i p s) → ConversationPhaseOk env k (c.put i p s) p) :
    ConversationInv env k (c.put i p s) := by
  have hc := carries_put (p := p) (i := i) hs hwrites
  have hold : ∀ j, ((c.put i p s).phase j).inTransaction = true →
      (c.phase j).inTransaction = true := fun j hj => by
    by_cases hji : j = i
    · subst hji
      simp only [ConversationConfig.put, Function.update_self, hp] at hj
      cases hj
    · simpa only [ConversationConfig.put, Function.update_of_ne hji] using hj
  refine h.carries hc haborted htables hpoints (fun j hj => ?_) (fun ht => hpurged ▸ ht)
    (fun j todo hj _ => ?_) (fun j => ?_) rfl
  · obtain ⟨hsome, hone⟩ := h.alone j (hold j hj)
    exact ⟨(congrArg Option.isSome hsaved).trans hsome, fun l hl => hone l (hold l hl)⟩
  · have hji : j ≠ i := fun hji => by
      rw [← hji, hj] at hi
      cases hi
    exact Function.update_of_ne hji _ _
  · by_cases hji : j = i
    · subst hji
      refine .inr ?_
      simp only [ConversationConfig.put, Function.update_self]
      exact hok hc
    · exact .inl (Function.update_of_ne hji _ _)

theorem ConversationInv.goes (h : ConversationInv env k c) (hs : SameRows k c.store s)
    (haborted : s.aborted = false) (hsaved : s.saved = c.store.saved)
    (hwrites : ∀ a : PurgeTarget, a.writes env k p = true →
      c.store.tables.purged k = false ∨ a.writes env k (c.phase i) = true)
    (hi : (c.phase i).inTransaction = false) (hp : p.inTransaction = false)
    (hok : Carries env k c (c.put i p s) → ConversationPhaseOk env k (c.put i p s) p) :
    ConversationInv env k (c.put i p s) :=
  h.puts hs.carry hwrites haborted (hs.tables h.tables)
    (by rw [hs.points]; exact h.points) hsaved hs.purged hi hp hok

omit [DecidableEq ι] in
theorem ConversationInv.outside (h : ConversationInv env k c) (hs : SameRows k c.store s)
    (haborted : s.aborted = false) (hsaved : s.saved = c.store.saved) :
    ConversationInv env k { c with store := s } := by
  have hcarry : RowsCarry env k c s := hs.carry
  have hc : Carries env k c { c with store := s } :=
    { purged := hcarry.purged
      personal := hcarry.personal
      owned := hcarry.owned
      gone := fun a ha =>
        ⟨hcarry.purged ha.tombstone, hcarry.absent a ha.writes ha.absent, ha.writes⟩ }
  exact h.carries hc haborted (hs.tables h.tables) (by rw [hs.points]; exact h.points)
    (fun j hj => ⟨(congrArg Option.isSome hsaved).trans (h.alone j hj).1, (h.alone j hj).2⟩)
    (fun ht => hs.purged ▸ ht) (fun _ _ _ _ => rfl) (fun _ => .inl rfl) rfl

/-! ### The writers -/

theorem ConversationInv.upsertsPoint {summary : SessionSummary} {entityIds : List String}
    (h : ConversationInv env k c) (hi : c.phase i = .storing summary entityIds)
    (hstub : env.rcSessionEndStub = false) (vector : Embedding) :
    ConversationInv env k (c.put i (.stored summary entityIds)
      (c.store.addPoint (sessionPoint env summary k.userId .personal vector))) := by
  have hid : summary.sessionId = k.sessionId := by
    have := h.phase i
    rwa [hi] at this
  have hpoint : (sessionPoint env summary k.userId .personal vector).id =
      sessionConversationPointId env k.userId k.sessionId := by rw [← hid]; rfl
  have hcarry : RowsCarry env k c
      (c.store.addPoint (sessionPoint env summary k.userId .personal vector)) :=
    { purged := id
      personal := id
      owned := id
      absent := fun a hw ha => by
        cases a with
        | session => exact ha
        | header => exact ha
        | point id =>
          intro pt hpt
          rcases Table.mem_upsert.mp hpt with ⟨hpt, -⟩ | rfl
          · exact ha pt hpt
          · intro he
            have := hw i
            simp [hi, PurgeTarget.writes, hstub, ← he, hpoint] at this }
  refine h.puts hcarry (fun a ha => .inr ?_) h.aborted h.tables (fun pt hpt hk => ?_) rfl rfl
    (by rw [hi]; rfl) rfl (fun _ => hid)
  · cases a with
    | session => rw [hi]; rfl
    | header => cases ha
    | point id => cases ha
  · rcases Table.mem_upsert.mp hpt with ⟨hpt, -⟩ | rfl
    · exact h.points pt hpt hk
    · rw [hpoint]
      exact List.mem_cons_self

theorem ConversationInv.upsertsSession {row : SessionSummaryRow} (h : ConversationInv env k c)
    (hi : PurgeTarget.session.writes env k (c.phase i) = true)
    (htxn : (c.phase i).inTransaction = false) (hrow : row.scope = .personal) :
    ConversationInv env k (c.put i .idle (c.store.modify (ConversationTables.upsertSession row))) := by
  have hcarry : RowsCarry env k c (c.store.modify (ConversationTables.upsertSession row)) :=
    { purged := id
      personal := fun hp => hp.upsertSession hrow
      owned := id
      absent := fun a hw ha => by
        cases a with
        | session =>
          rw [hw i] at hi
          cases hi
        | header => exact ha
        | point id => exact ha }
  exact h.puts hcarry (fun a ha => by rw [a.writes_idle] at ha; cases ha) h.aborted
    h.tables.upsertSession h.points rfl rfl htxn rfl fun _ => trivial

theorem ConversationInv.upsertsHeader {title model : String} (h : ConversationInv env k c)
    (hi : c.phase i = .upsertable title model) :
    ConversationInv env k
      (c.put i .idle (c.store.modify (ConversationTables.upsertHeader (headerRow k title model)))) := by
  have hcarry : RowsCarry env k c
      (c.store.modify (ConversationTables.upsertHeader (headerRow k title model))) :=
    { purged := id
      personal := id
      owned := fun ho => ho.upsertHeader rfl
      absent := fun a hw ha => by
        cases a with
        | session => exact ha
        | header =>
          have := hw i
          rw [hi] at this
          cases this
        | point id => exact ha }
  exact h.puts hcarry (fun a ha => by rw [a.writes_idle] at ha; cases ha) h.aborted
    h.tables.upsertHeader h.points rfl rfl (by rw [hi]; rfl) rfl fun _ => trivial

theorem ConversationInv.insertsMessage {m : WebMessage} {t : ConversationTables}
    (h : ConversationInv env k c) (hi : c.phase i = .appendable m)
    (ht : c.store.tables.insertMessage (messageRow k m) = some t) :
    ConversationInv env k (c.put i (.appended m) (c.store.setTables t)) := by
  have ho : OwnHeader k c.store.tables := by
    have := h.phase i
    rwa [hi] at this
  have hsame : t.sessions = c.store.tables.sessions ∧
      t.webConversations = c.store.tables.webConversations ∧
      t.purged k = c.store.tables.purged k := by
    simp only [ConversationTables.insertMessage] at ht
    split_ifs at ht <;> (cases ht; exact ⟨rfl, rfl, rfl⟩)
  have hcarry : RowsCarry env k c (c.store.setTables t) :=
    { purged := fun hp => hsame.2.2.trans hp
      personal := fun hp => by
        simp only [PersonalSessions, ConversationStore.setTables, hsame.1]
        exact hp
      owned := fun hp => by
        simp only [OwnHeader, ConversationStore.setTables, hsame.2.1]
        exact hp
      absent := fun a _ ha => by
        cases a with
        | session => simpa only [PurgeTarget.absent, ConversationStore.setTables, hsame.1] using ha
        | header => simpa only [PurgeTarget.absent, ConversationStore.setTables, hsame.2.1] using ha
        | point id => exact ha }
  exact h.puts hcarry (fun a ha => by cases a <;> cases ha) h.aborted
    (h.tables.insertMessage ho ht) h.points rfl hsame.2.2 (by rw [hi]; rfl) rfl fun _ => trivial

/-! ### The purges -/

theorem writes_purging (a : PurgeTarget) (todo : List SessionPurgeStmt) :
    a.writes env k (.purging todo) = false := by
  cases a <;> rfl

theorem ConversationInv.beginsPurge {stmts : List SessionPurgeStmt} (h : ConversationInv env k c)
    (hi : c.phase i = .purgePlanned stmts) (hsaved : c.store.saved = none) :
    ConversationInv env k
      (c.put i (.purging stmts) { c.store with saved := some c.store.tables }) := by
  have hnone : ∀ j, (c.phase j).inTransaction = false := fun j => by
    by_contra hj
    have := (h.alone j (by simpa using hj)).1
    rw [hsaved] at this
    cases this
  have hcarry : RowsCarry env k c { c.store with saved := some c.store.tables } :=
    SameRows.carry ⟨rfl, rfl, rfl, rfl, rfl⟩
  have hc := carries_put (i := i) (p := .purging stmts) hcarry
    fun a ha => by rw [writes_purging] at ha; cases ha
  have hplan := h.phase i
  rw [hi] at hplan
  refine h.carries hc h.aborted h.tables h.points (fun j hj => ⟨rfl, fun l hl => ?_⟩) id
    (fun j todo hj _ => ?_) (fun j => ?_) rfl
  · have hat : ∀ l, ((c.put i (.purging stmts)
        { c.store with saved := some c.store.tables }).phase l).inTransaction = true → l = i :=
      fun l hl => by
        by_contra hli
        simp only [ConversationConfig.put, Function.update_of_ne hli, hnone] at hl
        cases hl
    rw [hat l hl, hat j hj]
  · have := hnone j
    rw [hj] at this
    cases this
  · by_cases hji : j = i
    · subst hji
      refine .inr ?_
      simp only [ConversationConfig.put, Function.update_self]
      rcases hplan with ⟨rfl, hp⟩ | ⟨rfl, hp⟩
      · exact ⟨fun _ => rfl, fun hn => absurd (by decide) hn, fun hn => absurd (by decide) hn,
          fun hn => absurd (by decide) hn, fun _ => hp⟩
      · -- the purge that left the tombstone has committed
        have hgone : GoneFor env k c .session := by
          rcases h.tombstone hp with hg | ⟨l, todo, hl, -⟩
          · exact hg
          · have := hnone l
            rw [hl] at this
            cases this
        exact ⟨fun hn => absurd hn (by decide), fun _ => hp, fun hn => absurd (by decide) hn,
          fun _ => hc.gone _ hgone, fun hn => absurd hn (by decide)⟩
    · exact .inl (Function.update_of_ne hji _ _)

omit [DecidableEq ι] in
theorem run_carry (stmt : SessionPurgeStmt) : RowsCarry env k c (c.store.modify (stmt.run k)) where
  purged := purged_run stmt
  personal hp r hr := hp r (mem_run_sessions hr)
  owned ho r hr := ho r (mem_run_headers hr)
  absent a _ ha := by
    cases a with
    | session => exact fun r hr => ha r (mem_run_sessions hr)
    | header => exact fun r hr => ha r (mem_run_headers hr)
    | point id => exact ha

omit [DecidableEq ι] in
theorem PurgingOk.after_tombstone {stmt : SessionPurgeStmt} {todo : List SessionPurgeStmt}
    (h : PurgingOk env k c (stmt :: todo)) (hs : stmt ≠ .tombstone) :
    .tombstone ∉ stmt :: todo := by
  intro hm
  have := h.first hm
  rw [postgresArm, List.cons.injEq] at this
  exact hs this.1

theorem PurgingOk.deletes {stmt : SessionPurgeStmt} {todo : List SessionPurgeStmt}
    {a : PurgeTarget} (h : PurgingOk env k c (stmt :: todo)) (ha : stmt.target = some a)
    (hw : ∀ j, a.writes env k (c.phase j) = false) :
    GoneFor env k (c.put i (.purging todo) (c.store.modify (stmt.run k))) a where
  tombstone := by
    refine purged_run stmt (h.tombstone (h.after_tombstone fun hs => ?_))
    rw [hs] at ha
    cases ha
  absent := by
    cases stmt with
    | header =>
      cases ha
      exact fun r hr => (Table.mem_deleteWhere.mp hr).2
    | session =>
      cases ha
      intro r hr
      obtain ⟨hr, hgone⟩ := Table.mem_deleteWhere.mp hr
      by_contra hk
      simp [h.personal List.mem_cons_self r hr (by simpa using hk), hk] at hgone
    | _ => cases ha
  writes j := by
    simp only [ConversationConfig.put, Function.update_apply]
    split_ifs
    · exact writes_purging a todo
    · exact hw j

theorem ConversationInv.runsStmt {stmt : SessionPurgeStmt} {todo : List SessionPurgeStmt}
    (h : ConversationInv env k c) (hi : c.phase i = .purging (stmt :: todo))
    (hw : ∀ a ∈ stmt.target, ∀ j, a.writes env k (c.phase j) = false) :
    ConversationInv env k (c.put i (.purging todo) (c.store.modify (stmt.run k))) := by
  have hok : PurgingOk env k c (stmt :: todo) := by
    have := h.phase i
    rwa [hi] at this
  have hc := carries_put (i := i) (p := .purging todo) (run_carry stmt : RowsCarry env k c _)
    fun a ha => by rw [writes_purging] at ha; cases ha
  have htxn : ∀ j, ((c.put i (.purging todo) (c.store.modify (stmt.run k))).phase j).inTransaction
      = true → (c.phase j).inTransaction = true := fun j hj => by
    by_cases hji : j = i
    · rw [hji, hi]
      rfl
    · simpa only [ConversationConfig.put, Function.update_of_ne hji] using hj
  -- a target is gone now, or was gone before the statement
  have hgone : ∀ a st, st ∉ todo → st.target = some a →
      (st ∉ stmt :: todo → GoneFor env k c a) →
      GoneFor env k (c.put i (.purging todo) (c.store.modify (stmt.run k))) a := by
    intro a st hst ha hold
    by_cases he : st = stmt
    · subst he
      exact hok.deletes ha (hw a ha)
    · exact hc.gone a (hold fun hm => by
        rcases List.mem_cons.mp hm with hm | hm
        · exact he hm
        · exact hst hm)
  have hsession := fun hs => hgone .session .session hs rfl hok.session
  refine
    { aborted := h.aborted
      tables := h.tables.run stmt
      points := h.points
      alone := fun j hj => ⟨(h.alone j (htxn j hj)).1, fun l hl => (h.alone j (htxn j hj)).2 l (htxn l hl)⟩
      tombstone := fun _ => ?_
      phase := fun j => ?_
      done := fun hd => ?_ }
  · by_cases hs : .session ∈ todo
    · exact .inr ⟨i, todo, Function.update_self .., hs⟩
    · exact .inl (hsession hs)
  · by_cases hji : j = i
    · subst hji
      simp only [ConversationConfig.put, Function.update_self]
      refine ⟨fun hm => ?_, fun hm => ?_, fun hs => hgone .header .header hs rfl hok.header, hsession,
        fun hs => hc.personal (hok.personal (List.mem_cons_of_mem _ hs))⟩
      · -- the tombstone comes first
        have := hok.first (List.mem_cons_of_mem _ hm)
        rw [postgresArm, List.cons.injEq] at this
        rw [this.2] at hm
        exact absurd hm (by decide)
      · by_cases hs : stmt = .tombstone
        · subst hs
          exact purged_insertTombstone
        · exact hc.purged (hok.tombstone (hok.after_tombstone hs))
    · have he : (c.put i (.purging todo) (c.store.modify (stmt.run k))).phase j = c.phase j :=
        Function.update_of_ne hji _ _
      rw [he]
      exact (h.phase j).carries hc
  · obtain ⟨hr, hp⟩ := h.done hd
    exact ⟨hr.carries hc, fun id hid => hc.gone _ (hp id hid)⟩

theorem ConversationInv.commitsPurge (h : ConversationInv env k c) (hi : c.phase i = .purging []) :
    ConversationInv env k (c.put i .cancelling { c.store with saved := none }) := by
  have hok : PurgingOk env k c [] := by
    have := h.phase i
    rwa [hi] at this
  have hcarry : RowsCarry env k c { c.store with saved := none } :=
    SameRows.carry ⟨rfl, rfl, rfl, rfl, rfl⟩
  have hc := carries_put (i := i) (p := .cancelling) hcarry fun a ha => by cases a <;> cases ha
  have hnone : ∀ j, ((c.put i .cancelling { c.store with saved := none }).phase j).inTransaction
      = false := fun j => by
    by_contra hj
    by_cases hji : j = i
    · subst hji
      simp [ConversationConfig.put, ConversationPhase.inTransaction] at hj
    · simp only [ConversationConfig.put, Function.update_of_ne hji] at hj
      exact hji ((h.alone i (by rw [hi]; rfl)).2 j (by simpa using hj))
  refine h.carries hc h.aborted h.tables h.points (fun j hj => ?_) id (fun j todo hj hs => ?_)
    (fun j => ?_) rfl
  · rw [hnone j] at hj
    cases hj
  · refine Function.update_of_ne (fun hji => ?_) _ _
    rw [hji, hi] at hj
    cases hj
    cases hs
  · by_cases hji : j = i
    · subst hji
      refine .inr ?_
      simp only [ConversationConfig.put, Function.update_self]
      exact ⟨hc.gone _ (hok.header List.not_mem_nil), hc.gone _ (hok.session List.not_mem_nil)⟩
    · exact .inl (Function.update_of_ne hji _ _)

theorem ConversationInv.dropsPoint {id : String} {todo : List String}
    (h : ConversationInv env k c) (hi : c.phase i = .clearing (id :: todo))
    (hw : ∀ j, (PurgeTarget.point id).writes env k (c.phase j) = false) :
    ConversationInv env k (c.put i (.clearing todo) (c.store.dropPoint id)) := by
  obtain ⟨hrows, hpoints⟩ : ConversationPhaseOk env k c (.clearing (id :: todo)) := by
    have := h.phase i
    rwa [hi] at this
  have hnew : ∀ a : PurgeTarget, a.writes env k (.clearing todo) = false := fun a => by cases a <;> rfl
  have hcarry : RowsCarry env k c (c.store.dropPoint id) :=
    { purged := fun hp => hp
      personal := fun hp => hp
      owned := fun hp => hp
      absent := fun a _ ha => by
        cases a with
        | session => exact ha
        | header => exact ha
        | point id' => exact fun pt hpt => ha pt (Table.mem_of_mem_deleteWhere hpt) }
  refine h.puts hcarry (fun a ha => by rw [hnew] at ha; cases ha) h.aborted h.tables
    (fun pt hpt => h.points pt (Table.mem_of_mem_deleteWhere hpt)) rfl rfl (by rw [hi]; rfl) rfl
    fun hc => ⟨hrows.carries hc, fun id' hid' ht => ?_⟩
  by_cases he : id' = id
  · subst he
    refine ⟨hc.purged hrows.1.tombstone, fun pt hpt => ?_, fun j => ?_⟩
    · simpa using (Table.mem_deleteWhere.mp hpt).2
    · simp only [ConversationConfig.put, Function.update_apply]
      split_ifs
      · exact hnew _
      · exact hw j
  · refine hc.gone _ (hpoints id' hid' fun hm => ?_)
    rcases List.mem_cons.mp hm with hm | hm
    · exact he hm
    · exact ht hm

theorem sameRows_updateTombstone (result : SessionPurgeResult) :
    SameRows k c.store (c.store.modify (updateTombstone k result)) :=
  ⟨rfl, rfl, rfl, purged_updateTombstone result, rfl⟩

theorem ConversationInv.returns (h : ConversationInv env k c) (hi : c.phase i = .clearing [])
    (result : SessionPurgeResult) :
    ConversationInv env k
      { c.put i .idle (c.store.modify (updateTombstone k result)) with purged := true } := by
  obtain ⟨hrows, hpoints⟩ : ConversationPhaseOk env k c (.clearing []) := by
    have := h.phase i
    rwa [hi] at this
  have hc : Carries env k c (c.put i .idle (c.store.modify (updateTombstone k result))) :=
    carries_put (sameRows_updateTombstone result).carry fun a ha => by
      rw [a.writes_idle] at ha
      cases ha
  have hput := h.goes (p := .idle) (sameRows_updateTombstone result) h.aborted rfl
    (fun a ha => by rw [a.writes_idle] at ha; cases ha) (i := i) (by rw [hi]; rfl) rfl
    fun _ => trivial
  have hgone : ∀ a, GoneFor env k (c.put i .idle (c.store.modify (updateTombstone k result))) a →
      GoneFor env k
        { c.put i .idle (c.store.modify (updateTombstone k result)) with purged := true } a :=
    fun a ha => ⟨ha.tombstone, ha.absent, ha.writes⟩
  exact
    { aborted := hput.aborted
      tables := hput.tables
      points := hput.points
      alone := hput.alone
      tombstone := fun ht => (hput.tombstone ht).imp (hgone _) fun hl => hl
      phase := fun j => (hput.phase j).carries ⟨fun hp => hp, fun hp => hp, fun hp => hp, hgone⟩
      done := fun _ => ⟨(hrows.carries hc).imp (hgone _) (hgone _), fun id hid =>
        hgone _ (hc.gone _ (hpoints id hid List.not_mem_nil))⟩ }

/-! ### One step -/

theorem ConversationInv.checks (h : ConversationInv env k c)
    (hi : (c.phase i).inTransaction = false) (hp : p.inTransaction = false)
    (hok : ∀ c' : ConversationConfig ι, ConversationPhaseOk env k c' p) :
    ConversationInv env k (c.unlessPurged k i p) := by
  rw [ConversationConfig.unlessPurged, h.conn]
  split_ifs with hpurged
  · exact h.goes .refl h.aborted rfl (fun a ha => by rw [a.writes_idle] at ha; cases ha) hi rfl
      fun _ => trivial
  · exact h.goes .refl h.aborted rfl (fun _ _ => .inl (by simpa using hpurged)) hi hp
      fun _ => hok _

theorem ConversationInv.rests (h : ConversationInv env k c) (hs : SameRows k c.store s)
    (haborted : s.aborted = false) (hsaved : s.saved = c.store.saved)
    (hi : (c.phase i).inTransaction = false) (hp : p.inTransaction = false)
    (hwrites : ∀ a : PurgeTarget, a.writes env k p = false)
    (hok : Carries env k c (c.put i p s) → ConversationPhaseOk env k (c.put i p s) p) :
    ConversationInv env k (c.put i p s) :=
  h.goes hs haborted hsaved (fun a ha => by rw [hwrites a] at ha; cases ha) hi hp hok

theorem ConversationInv.next {l : ConversationLabel ι} (h : ConversationInv env k c)
    (ha : NoneUnderway env k l c) (hs : conversationStep env k l c = some c') :
    ConversationInv env k c' := by
  have hsame : SameRows k c.store c.store := .refl
  cases l with
  | enqueue id messages =>
    simp only [conversationStep, h.conn] at hs
    cases hs
    exact h.outside ⟨rfl, rfl, rfl, rfl, rfl⟩ h.aborted rfl
  | leave id status =>
    simp only [conversationStep, h.conn] at hs
    cases hs
    exact h.outside ⟨rfl, rfl, rfl, rfl, rfl⟩ h.aborted rfl
  | claim i id =>
    simp only [conversationStep, h.conn] at hs
    split at hs
    · rename_i j hi _
      cases hs
      exact h.rests ⟨rfl, rfl, rfl, rfl, rfl⟩ h.aborted rfl (by rw [hi]; rfl) rfl
        (fun a => by cases a <;> rfl) fun _ => trivial
    · cases hs
  | checkJob i =>
    simp only [conversationStep] at hs
    split at hs
    · rename_i messages hi
      cases hs
      exact h.checks (by rw [hi]; rfl) rfl fun _ => trivial
    · cases hs
  | checkStore i summary topics entities entityIds =>
    simp only [conversationStep] at hs
    split at hs
    · rename_i messages hi
      cases hs
      exact h.checks (by rw [hi]; rfl) rfl fun _ => rfl
    · cases hs
  | upsertPoint i =>
    simp only [conversationStep] at hs
    split at hs
    · rename_i summary entityIds hi
      split_ifs at hs with hstub
      cases hs
      exact h.upsertsPoint hi (by simpa using hstub) _
    · cases hs
  | upsertSession i =>
    simp only [conversationStep, h.conn] at hs
    split at hs
    · rename_i summary entityIds hi
      split_ifs at hs
      cases hs
      exact h.upsertsSession (by rw [hi]; rfl) (by rw [hi]; rfl) rfl
    · rename_i summary entityIds hi
      cases hs
      exact h.upsertsSession (by rw [hi]; rfl) (by rw [hi]; rfl) rfl
    · cases hs
  | upsertCall i title model =>
    simp only [conversationStep] at hs
    split at hs
    · rename_i hi
      cases hs
      exact h.checks (by rw [hi]; rfl) rfl fun _ => trivial
    · cases hs
  | readOwner i =>
    simp only [conversationStep, h.conn] at hs
    split at hs
    · rename_i title model hi
      -- the call was to write the header before
      have hgo : ConversationInv env k (c.put i (.upsertable title model) c.store) := by
        refine h.goes hsame h.aborted rfl (fun a ha => .inr ?_) (by rw [hi]; rfl) rfl fun _ => trivial
        cases a with
        | header => rw [hi]; rfl
        | session => cases ha
        | point id => cases ha
      split at hs
      · cases hs
        split_ifs
        · exact h.rests hsame h.aborted rfl (by rw [hi]; rfl) rfl PurgeTarget.writes_idle
            fun _ => trivial
        · exact hgo
      · cases hs
        exact hgo
    · cases hs
  | upsertHeader i =>
    simp only [conversationStep, h.conn] at hs
    split at hs
    · rename_i title model hi
      cases hs
      exact h.upsertsHeader hi
    · cases hs
  | appendCall i m =>
    simp only [conversationStep] at hs
    split at hs
    · rename_i hi
      cases hs
      exact h.checks (by rw [hi]; rfl) rfl fun _ => trivial
    · cases hs
  | readHeader i =>
    simp only [conversationStep, h.conn] at hs
    split at hs
    · rename_i m hi
      cases hs
      split_ifs with hany hproposal
      · exact h.rests hsame h.aborted rfl (by rw [hi]; rfl) rfl (fun a => by cases a <;> rfl)
          fun hc => hc.owned (h.tables.owned (List.any_eq_true.mp hany))
      · exact h.rests hsame h.aborted rfl (by rw [hi]; rfl) rfl (fun a => by cases a <;> rfl)
          fun hc => hc.owned (h.tables.owned (List.any_eq_true.mp hany))
      · exact h.rests hsame h.aborted rfl (by rw [hi]; rfl) rfl PurgeTarget.writes_idle
          fun _ => trivial
    · cases hs
  | readProposal i =>
    simp only [conversationStep, h.conn] at hs
    split at hs
    · rename_i m hi
      have hok := h.phase i
      rw [hi] at hok
      split at hs
      · cases hs
        split_ifs
        · exact h.rests hsame h.aborted rfl (by rw [hi]; rfl) rfl PurgeTarget.writes_idle
            fun _ => trivial
        · exact h.rests hsame h.aborted rfl (by rw [hi]; rfl) rfl (fun a => by cases a <;> rfl)
            fun hc => hc.owned hok
      · cases hs
        exact h.rests hsame h.aborted rfl (by rw [hi]; rfl) rfl PurgeTarget.writes_idle
          fun _ => trivial
    · cases hs
  | insertMessage i =>
    have hab := ha.2
    simp only [abortsTransaction, h.conn] at hab
    simp only [conversationStep, h.conn] at hs
    split at hs
    · rename_i m hi
      split at hs
      · rename_i t ht
        cases hs
        exact h.insertsMessage hi ht
      · rename_i ht
        cases hs
        -- the message is refused outside a transaction
        have hsaved : c.store.saved.isSome = false := by simpa [hi, ht] using hab
        exact h.rests (s := c.store.refused) ⟨rfl, rfl, rfl, rfl, rfl⟩ hsaved rfl (by rw [hi]; rfl)
          rfl PurgeTarget.writes_idle fun _ => trivial
    · cases hs
  | readMessage i =>
    simp only [conversationStep, h.conn] at hs
    split at hs
    · rename_i m hi
      cases hs
      exact h.rests hsame h.aborted rfl (by rw [hi]; rfl) rfl PurgeTarget.writes_idle fun _ => trivial
    · cases hs
  | purgeCall i =>
    simp only [conversationStep, h.conn] at hs
    split at hs
    · rename_i hi
      cases hs
      refine h.rests hsame h.aborted rfl (by rw [hi]; rfl) rfl (fun a => by cases a <;> rfl) fun hc => ?_
      cases hfound : c.store.tables.sessions.any fun r => k.isSession r && r.scope == .personal with
      | false => trivial
      | true => exact hc.personal (h.tables.personal (List.any_eq_true.mp hfound))
    · cases hs
  | checkPurge i =>
    simp only [conversationStep, h.conn] at hs
    split at hs
    · rename_i sessionFound hi
      have hok := h.phase i
      rw [hi] at hok
      cases hs
      split_ifs with hfound hpurged
      · subst hfound
        exact h.rests hsame h.aborted rfl (by rw [hi]; rfl) rfl (fun a => by cases a <;> rfl)
          fun hc => .inl ⟨rfl, hc.personal hok⟩
      · exact h.rests hsame h.aborted rfl (by rw [hi]; rfl) rfl (fun a => by cases a <;> rfl)
          fun hc => .inr ⟨rfl, hc.purged hpurged⟩
      · exact h.rests hsame h.aborted rfl (by rw [hi]; rfl) rfl PurgeTarget.writes_idle
          fun _ => trivial
    · cases hs
  | beginPurge i =>
    simp only [conversationStep, h.conn] at hs
    split at hs
    · rename_i stmts hi
      cases hs
      split_ifs with hsaved
      · exact h.rests hsame h.aborted rfl (by rw [hi]; rfl) rfl PurgeTarget.writes_idle
          fun _ => trivial
      · exact h.beginsPurge hi (by simpa using hsaved)
    · cases hs
  | purgeStmt i =>
    have hw := ha.1
    simp only [deletes] at hw
    simp only [conversationStep, h.conn] at hs
    split at hs
    · rename_i stmt todo hi
      cases hs
      rw [hi] at hw
      exact h.runsStmt hi hw
    · cases hs
  | commitPurge i =>
    simp only [conversationStep] at hs
    split at hs
    · rename_i hi
      rw [if_neg (by simp [h.aborted])] at hs
      cases hs
      exact h.commitsPurge hi
    · cases hs
  | cancelJobs i =>
    simp only [conversationStep, h.conn] at hs
    split at hs
    · rename_i hi
      cases hs
      have hok := h.phase i
      rw [hi] at hok
      exact h.rests ⟨rfl, rfl, rfl, rfl, rfl⟩ h.aborted rfl (by rw [hi]; rfl) rfl
        (fun a => by cases a <;> rfl) fun hc => ⟨hok.carries hc, fun id hid ht => absurd hid ht⟩
    · cases hs
  | dropPoint i =>
    have hw := ha.1
    simp only [deletes] at hw
    simp only [conversationStep] at hs
    split at hs
    · rename_i id todo hi
      cases hs
      rw [hi] at hw
      exact h.dropsPoint hi (hw _ rfl)
    · cases hs
  | updateTombstone i =>
    simp only [conversationStep, h.conn] at hs
    split at hs
    · rename_i hi
      cases hs
      exact h.returns hi _
    · cases hs

/-- What holds after every run in which a purge finds no writer underway. -/
theorem purged_conversation_gone {c₀ : ConversationConfig ι} (h₀ : ConversationStart env k c₀)
    (h : Reaches (conversationStep env k) (NoneUnderway env k) c₀ c) (hp : c.purged = true) :
    ConversationGone env k c.store :=
  (h.invariant h₀.inv fun _ _ _ hi ha hs => hi.next ha hs).gone hp

end Threads

end Inv

/-! ## The functions are runs -/

section Calls

variable [DecidableEq ι] {env : ConversationEnv} {k : ConversationKey} {c : ConversationConfig ι}
  {i : ι} {s t : ConversationStore} {p q : ConversationPhase}

/-- A run from `c` leads to a configuration with store `t` in which thread `i` is in phase `p`. -/
abbrev ConversationRunsTo (env : ConversationEnv) (k : ConversationKey) (c : ConversationConfig ι)
    (i : ι) (p : ConversationPhase) (t : ConversationStore) : Prop :=
  RunsTo (conversationStep env k) (fun _ _ => True) ConversationConfig.store c
    (fun c' => c'.phase i = p) t

theorem ConversationRunsTo.moves (h : ConversationRunsTo env k c i p s) (l : ConversationLabel ι)
    (hl : ∀ c' : ConversationConfig ι, c'.phase i = p → c'.store = s →
      conversationStep env k l c' = some (c'.put i q t)) : ConversationRunsTo env k c i q t :=
  h.next (l := l) fun c' hc' hcs => ⟨trivial, _, hl c' hc' hcs, Function.update_self .., rfl⟩

omit [DecidableEq ι] in
theorem wp_isConversationPurged {Q : Except ConversationErr Bool → ConversationStore → Prop} :
    wp Q (isConversationPurged k) s ↔ Q (.ok (s.ensureConn.tables.purged k)) s.ensureConn := wp_act

theorem ConversationRunsTo.looks (h : ConversationRunsTo env k c i p s) (l : ConversationLabel ι)
    (hl : ∀ c' : ConversationConfig ι, c'.phase i = p →
      conversationStep env k l c' = some (c'.unlessPurged k i q)) :
    (s.ensureConn.tables.purged k = true → ConversationRunsTo env k c i .idle s.ensureConn) ∧
      (s.ensureConn.tables.purged k = false → ConversationRunsTo env k c i q s.ensureConn) := by
  constructor
  · intro hp
    refine h.moves l fun c' hc' hcs => ?_
    rw [hl c' hc', ConversationConfig.unlessPurged, ConversationConfig.conn, hcs, if_pos hp]
  · intro hp
    refine h.moves l fun c' hc' hcs => ?_
    rw [hl c' hc', ConversationConfig.unlessPurged, ConversationConfig.conn, hcs,
      if_neg (by simp [hp])]

theorem ConversationRunsTo.storesSession {row : SessionSummaryRow}
    (h : ConversationRunsTo env k c i p s)
    (hl : ∀ c' : ConversationConfig ι, c'.phase i = p →
      conversationStep env k (.upsertSession i) c' =
        some (c'.put i .idle (c'.conn.modify (ConversationTables.upsertSession row)))) :
    wp (fun _ t => ConversationRunsTo env k c i .idle t) (upsertSessionSafe row) s := by
  refine wp_tryCatch.mpr (wp_act.mpr (h.moves (.upsertSession i) fun c' hc' hcs => ?_))
  rw [hl c' hc', ConversationConfig.conn, hcs]
  rfl

theorem storeSession_runs {messages : List SessionMessage}
    (h : ConversationRunsTo env k c i (.summarising messages) s) (summary : String)
    (topics entities entityIds : List String) :
    wp (fun _ t => ConversationRunsTo env k c i .idle t)
      (storeSession env ⟨k.sessionId, summary, topics, entities⟩ k.userId entityIds .personal) s := by
  obtain ⟨hpurged, hgo⟩ := h.looks
    (q := .storing ⟨k.sessionId, summary, topics, entities⟩ entityIds)
    (.checkStore i summary topics entities entityIds)
    fun c' hc' => by simp only [conversationStep, hc']
  rw [storeSession, wp_bind, wp_isConversationPurged]
  simp only [seqPost]
  by_cases hp : s.ensureConn.tables.purged ⟨k.userId, k.sessionId⟩ = true
  · rw [if_pos hp]
    exact hpurged hp
  · have hstoring := hgo (by simpa using hp)
    rw [if_neg hp]
    by_cases hstub : env.rcSessionEndStub = true
    · rw [if_pos hstub]
      exact hstoring.storesSession fun c' hc' => by simp only [conversationStep, hc', if_pos hstub]
    · rw [if_neg hstub, wp_bind, Conversations.embedText, wp_query]
      simp only [seqPost]
      rw [wp_bind, Conversations.upsertPoint, wp_act]
      have hstored := hstoring.moves (q := .stored ⟨k.sessionId, summary, topics, entities⟩ entityIds)
        (.upsertPoint i) fun c' hc' hcs => by
          simp only [conversationStep, hc', if_neg hstub]
          rw [hcs]
      exact hstored.storesSession fun c' hc' => by simp only [conversationStep, hc']

theorem sessionEndHandle_runs {messages : List SessionMessage}
    (h : ConversationRunsTo env k c i (.claimed messages) s) :
    wp (fun _ t => ConversationRunsTo env k c i .idle t)
      (sessionEndHandle env k.userId k.sessionId messages) s := by
  obtain ⟨hpurged, hgo⟩ := h.looks (q := .summarising messages) (.checkJob i)
    fun c' hc' => by simp only [conversationStep, hc']
  rw [sessionEndHandle, wp_bind, wp_isConversationPurged]
  simp only [seqPost]
  by_cases hp : s.ensureConn.tables.purged ⟨k.userId, k.sessionId⟩ = true
  · rw [if_pos hp]
    exact hpurged hp
  · rw [if_neg hp]
    exact storeSession_runs (hgo (by simpa using hp)) _ _ _ _

theorem upsertWebConversation_runs (h : ConversationRunsTo env k c i .idle s)
    (title model : String) :
    wp (fun _ t => ConversationRunsTo env k c i .idle t) (upsertWebConversation k title model) s := by
  obtain ⟨hpurged, hgo⟩ := h.looks (q := .upserting title model) (.upsertCall i title model)
    fun c' hc' => by simp only [conversationStep, hc']
  rw [upsertWebConversation, wp_bind, wp_isConversationPurged]
  simp only [seqPost]
  by_cases hp : s.ensureConn.tables.purged k = true
  · rw [if_pos hp]
    exact hpurged hp
  · have hupserting := hgo (by simpa using hp)
    rw [if_neg hp, wp_bind, selectOwner, dbQuery, wp_act]
    simp only [seqPost]
    -- the header is written from here
    have hwrite : ConversationRunsTo env k c i (.upsertable title model) s.ensureConn.ensureConn →
        wp (fun _ t => ConversationRunsTo env k c i .idle t)
          (dbExecute (ConversationTables.upsertHeader (headerRow k title model)))
          s.ensureConn.ensureConn := fun hw =>
      wp_act.mpr (hw.moves (.upsertHeader i) fun c' hc' hcs => by
        simp only [conversationStep, hc', ConversationConfig.conn, hcs]
        rfl)
    cases hfind : s.ensureConn.ensureConn.tables.webConversations.find?
        (·.conversationId == k.sessionId) with
    | none =>
      refine hwrite (hupserting.moves (.readOwner i) fun c' hc' hcs => ?_)
      simp only [conversationStep, hc', ConversationConfig.conn, hcs, hfind]
    | some r =>
      simp only [Option.map_some]
      by_cases hu : r.userId ≠ k.userId
      · rw [if_pos hu]
        refine hupserting.moves (.readOwner i) fun c' hc' hcs => ?_
        simp only [conversationStep, hc', ConversationConfig.conn, hcs, hfind, if_pos hu]
      · rw [if_neg hu]
        refine hwrite (hupserting.moves (.readOwner i) fun c' hc' hcs => ?_)
        simp only [conversationStep, hc', ConversationConfig.conn, hcs, hfind, if_neg hu]

theorem requireProposal_runs {m : WebMessage} {proposalId : Nat}
    (hm : m.actionProposalId = some proposalId) (h : ConversationRunsTo env k c i (.proposing m) s) :
    wp (fun r t => match r with
      | .ok _ => ConversationRunsTo env k c i (.appendable m) t
      | .error _ => ConversationRunsTo env k c i .idle t)
      (requireProposal k m.actionProposalId) s := by
  rw [hm, requireProposal, wp_bind, selectProposal, dbQuery, wp_act]
  simp only [seqPost]
  have hfinds : ∀ c' : ConversationConfig ι, c'.store = s →
      (c'.conn.tables.actionProposals.find? fun x => some x.1 == m.actionProposalId) =
        s.ensureConn.tables.actionProposals.find? (·.1 == proposalId) := fun c' hcs => by
    rw [ConversationConfig.conn, hcs, hm]
    rfl
  cases hfind : s.ensureConn.tables.actionProposals.find? (·.1 == proposalId) with
  | none =>
    refine h.moves (.readProposal i) fun c' hc' hcs => ?_
    simp only [conversationStep, hc']
    rw [hfinds c' hcs, hfind, ConversationConfig.conn, hcs]
  | some x =>
    simp only [Option.map_some]
    by_cases hu : x.2 ≠ k.userId
    · rw [if_pos hu]
      refine h.moves (.readProposal i) fun c' hc' hcs => ?_
      simp only [conversationStep, hc']
      rw [hfinds c' hcs, hfind]
      simp only [if_pos hu, ConversationConfig.conn, hcs]
    · rw [if_neg hu]
      refine h.moves (.readProposal i) fun c' hc' hcs => ?_
      simp only [conversationStep, hc']
      rw [hfinds c' hcs, hfind]
      simp only [if_neg hu, ConversationConfig.conn, hcs]

theorem ConversationRunsTo.insertsMessage {m : WebMessage}
    (h : ConversationRunsTo env k c i (.appendable m) s) :
    wp (fun _ t => ConversationRunsTo env k c i .idle t) (do
      dbInsert (ConversationTables.insertMessage (messageRow k m))
      match ← selectMessage k m.messageId with
      | none => .raise (.conversationNotFound k.sessionId)
      | some row => pure row) s := by
  rw [wp_bind, dbInsert, wp_actE]
  cases ht : s.ensureConn.tables.insertMessage (messageRow k m) with
  | none =>
    refine h.moves (.insertMessage i) fun c' hc' hcs => ?_
    simp only [conversationStep, hc', ConversationConfig.conn, hcs, ht]
  | some t =>
    have happended := h.moves (q := .appended m) (t := s.ensureConn.setTables t) (.insertMessage i)
      fun c' hc' hcs => by simp only [conversationStep, hc', ConversationConfig.conn, hcs, ht]
    have hread := happended.moves (q := .idle) (t := (s.ensureConn.setTables t).ensureConn)
      (.readMessage i) fun c' hc' hcs => by
        simp only [conversationStep, hc', ConversationConfig.conn, hcs]
    refine wp_bind.mpr (wp_act.mpr ?_)
    simp only [seqPost]
    split <;> exact hread

theorem appendWebMessage_runs (h : ConversationRunsTo env k c i .idle s) (m : WebMessage) :
    wp (fun _ t => ConversationRunsTo env k c i .idle t) (appendWebMessage k m) s := by
  obtain ⟨hpurged, hgo⟩ := h.looks (q := .appending m) (.appendCall i m)
    fun c' hc' => by simp only [conversationStep, hc']
  rw [appendWebMessage, wp_bind, wp_isConversationPurged]
  simp only [seqPost]
  by_cases hp : s.ensureConn.tables.purged k = true
  · rw [if_pos hp]
    exact hpurged hp
  · have happending := hgo (by simpa using hp)
    rw [if_neg hp, wp_bind, dbQuery, wp_act]
    simp only [seqPost]
    by_cases hown : s.ensureConn.ensureConn.tables.webConversations.any k.isHeader = true
    · rw [if_pos hown, wp_bind]
      cases hm : m.actionProposalId with
      | none =>
        refine ConversationRunsTo.insertsMessage (happending.moves (.readHeader i) fun c' hc' hcs => ?_)
        simp only [conversationStep, hc', ConversationConfig.conn, hcs, if_pos hown, hm,
          Option.isSome_none, Bool.false_eq_true, if_false]
      | some proposalId =>
        have hproposing := happending.moves (q := .proposing m) (t := s.ensureConn.ensureConn)
          (.readHeader i) fun c' hc' hcs => by
            simp only [conversationStep, hc', ConversationConfig.conn, hcs, if_pos hown, hm,
              Option.isSome_some, if_true]
        have hreq := requireProposal_runs hm hproposing
        rw [hm] at hreq
        refine hreq.mono fun r t hr => ?_
        cases r with
        | ok u => exact ConversationRunsTo.insertsMessage hr
        | error e => exact hr
    · rw [if_neg hown]
      refine happending.moves (.readHeader i) fun c' hc' hcs => ?_
      simp only [conversationStep, hc', ConversationConfig.conn, hcs, if_neg hown]

/-! ### The purge -/

theorem ConversationRunsTo.runsStmts {todo : List SessionPurgeStmt}
    (h : ConversationRunsTo env k c i (.purging todo) s) :
    wp (fun r t => r = .ok () ∧ ConversationRunsTo env k c i (.purging []) t)
      (forEach (fun stmt : SessionPurgeStmt => dbExecute (stmt.run k)) todo) s := by
  induction todo generalizing s with
  | nil => exact ⟨rfl, h⟩
  | cons stmt todo ih =>
    refine wp_bind.mpr (wp_act.mpr (ih (h.moves (.purgeStmt i) fun c' hc' hcs => ?_)))
    simp only [conversationStep, hc', ConversationConfig.conn, hcs]
    rfl

theorem purgeTransaction_runs {stmts : List SessionPurgeStmt}
    (h : ConversationRunsTo env k c i (.purgePlanned stmts) s) :
    wp (fun r t => match r with
      | .ok _ => ConversationRunsTo env k c i .cancelling t
      | .error _ => ConversationRunsTo env k c i .idle t) (purgeTransaction k stmts) s := by
  rw [purgeTransaction, Conversations.transaction, wp_bind, Conversations.beginTransaction, wp_actE]
  by_cases hsaved : s.ensureConn.saved.isSome = true
  · simp only [if_pos hsaved]
    refine h.moves (.beginPurge i) fun c' hc' hcs => ?_
    simp only [conversationStep, hc', ConversationConfig.conn, hcs, if_pos hsaved]
  · simp only [if_neg hsaved]
    have hpurging := h.moves (q := .purging stmts)
      (t := { s.ensureConn with saved := some s.ensureConn.tables }) (.beginPurge i)
      fun c' hc' hcs => by
        simp only [conversationStep, hc', ConversationConfig.conn, hcs, if_neg hsaved]
    refine wp_bind.mpr (wp_attempt.mpr (wp_bind.mpr ((ConversationRunsTo.runsStmts hpurging).mono fun r t hr => ?_)))
    obtain ⟨rfl, hr⟩ := hr
    refine ⟨rfl, ConversationRunsTo.moves hr (.commitPurge i) fun c' hc' hcs => ?_⟩
    simp only [conversationStep, hc', hcs]

theorem ConversationRunsTo.dropsPoints {todo : List String}
    (h : ConversationRunsTo env k c i (.clearing todo) s) :
    wp (fun r t => r = .ok () ∧ ConversationRunsTo env k c i (.clearing []) t)
      (forEach deletePoint todo) s := by
  induction todo generalizing s with
  | nil => exact ⟨rfl, h⟩
  | cons id todo ih =>
    refine wp_bind.mpr (wp_act.mpr (ih (h.moves (.dropPoint i) fun c' hc' hcs => ?_)))
    simp only [conversationStep, hc', hcs]

omit [DecidableEq ι] in
theorem wp_retryArm {label : String} {arm : ConversationM Unit} {n : Nat}
    {P : ConversationStore → Prop} (h : wp (fun r t => r = .ok () ∧ P t) arm s) :
    wp (fun r t => r = .ok (true, []) ∧ P t) (retryArm env label arm (n + 1)) s := by
  refine wp_bind.mpr (wp_attempt.mpr (h.mono fun r t hr => ?_))
  obtain ⟨rfl, hr⟩ := hr
  exact ⟨rfl, hr⟩

/-- Without faults the arms all succeed, and the tombstone says so. -/
theorem purgeArms_runs (h : ConversationRunsTo env k c i .cancelling s) :
    wp (fun r t => r = .ok .complete ∧ ConversationRunsTo env k c i .idle t) (purgeArms env k) s := by
  rw [purgeArms, wp_bind, cancelPendingSessionEndJobs, dbExecute, wp_act]
  have hclearing := h.moves (q := .clearing (purgePointIds env k))
    (t := s.ensureConn.setTables (s.ensureConn.tables.cancelJobs k)) (.cancelJobs i)
    fun c' hc' hcs => by
      simp only [conversationStep, hc', ConversationConfig.conn, hcs]
      rfl
  refine wp_bind.mpr ((wp_retryArm (ConversationRunsTo.dropsPoints hclearing)).mono fun r t hr => ?_)
  obtain ⟨rfl, hdone⟩ := hr
  simp only [seqPost]
  -- the end of the call, with what the graph arm has returned
  have hend : wp (fun r t => r = .ok .complete ∧ ConversationRunsTo env k c i .idle t) (do
      let _ ← (dbExecute (updateTombstone k .complete)).attempt
      return SessionPurgeResult.complete : ConversationM SessionPurgeResult) t := by
    refine wp_bind.mpr (wp_attempt.mpr (wp_act.mpr ⟨rfl, ?_⟩))
    refine hdone.next (l := .updateTombstone i) fun c' hc' hcs => ⟨trivial,
      { c'.put i .idle (t.ensureConn.modify (updateTombstone k .complete)) with purged := true },
      ?_, Function.update_self .., rfl⟩
    simp only [conversationStep, hc', ConversationConfig.conn, hcs]
  by_cases hgraph : env.hasGraphStore = true
  · rw [if_pos hgraph]
    refine wp_bind.mpr ((wp_retryArm (P := fun t' => t' = t) (wp_query.mpr ⟨rfl, rfl⟩)).mono fun r t' hr => ?_)
    obtain ⟨rfl, rfl⟩ := hr
    exact hend
  · rw [if_neg hgraph]
    exact hend

/-- Once the purge is planned, the transaction runs, and the arms. -/
theorem purgePlanned_runs {stmts : List SessionPurgeStmt}
    (h : ConversationRunsTo env k c i (.purgePlanned stmts) s) :
    wp (fun _ t => ConversationRunsTo env k c i .idle t) (do
      match ← (purgeTransaction k stmts).attempt with
      | .error e =>
        return { SessionPurgeResult.start with errors := ["postgres: " ++ env.strConversationError e] }
      | .ok _ => purgeArms env k) s := by
  refine wp_bind.mpr (wp_attempt.mpr ((purgeTransaction_runs h).mono fun r t hr => ?_))
  cases r with
  | error e => exact hr
  | ok u => exact (purgeArms_runs hr).mono fun r t hr => hr.2

theorem purgeSessionMemory_runs (h : ConversationRunsTo env k c i .idle s) :
    wp (fun _ t => ConversationRunsTo env k c i .idle t) (purgeSessionMemory env k) s := by
  have hfound := h.moves (q := .purgeFound (s.ensureConn.tables.sessions.any fun r =>
      k.isSession r && r.scope == .personal)) (t := s.ensureConn) (.purgeCall i) fun c' hc' hcs => by
    simp only [conversationStep, hc', ConversationConfig.conn, hcs]
  have hchecked := hfound.moves (q := if s.ensureConn.tables.sessions.any (fun r =>
        k.isSession r && r.scope == .personal) then .purgePlanned postgresArm
      else if s.ensureConn.ensureConn.tables.purged k then .purgePlanned webCleanup else .idle)
    (t := s.ensureConn.ensureConn) (.checkPurge i) fun c' hc' hcs => by
      simp only [conversationStep, hc', ConversationConfig.conn, hcs]
  rw [purgeSessionMemory, wp_bind, dbQuery, wp_act]
  simp only [seqPost]
  rw [wp_bind, wp_isConversationPurged]
  simp only [seqPost]
  cases hs : s.ensureConn.tables.sessions.any fun r => k.isSession r && r.scope == .personal with
  | true =>
    rw [hs] at hchecked
    simp only [Bool.not_true, Bool.false_and, Bool.false_eq_true, if_false, if_true]
    exact purgePlanned_runs hchecked
  | false =>
    rw [hs] at hchecked
    cases hp : s.ensureConn.ensureConn.tables.purged k with
    | true =>
      rw [hp] at hchecked
      simp only [Bool.not_true, Bool.not_false, Bool.and_false, Bool.false_eq_true, if_false]
      exact purgePlanned_runs hchecked
    | false =>
      rw [hp] at hchecked
      simp only [Bool.not_false, Bool.and_self, if_true]
      exact hchecked

end Calls

end System

namespace PurgeExample

def env : ConversationEnv :=
  { Env.plain .disabled with
    rcSessionEndStub := false
    summarize := fun _ => ("", [], [])
    sessionEntityIds := fun _ => []
    strConversationError := fun _ => "" }

def k : ConversationKey := ⟨"alice", "s"⟩

def message : WebMessage := ⟨"m", "user", "", none, none, none⟩

/-- A session with its header. -/
def start : ConversationConfig (Fin 2) :=
  { store :=
      { tables :=
          { sessions := [⟨"s", "", [], [], [], "alice", .personal, none⟩]
            webConversations := [⟨"s", "alice", "", "", .personal⟩]
            webMessages := []
            purgedConversations := []
            actionProposals := []
            userBatchJobs := []
            now := 0 }
        saved := none
        aborted := false
        points := [] }
    phase := fun _ => .idle
    purged := false }

theorem start_idle : ConversationStart env k start where
  idle _ := rfl
  saved := rfl
  aborted := rfl
  purged := rfl
  sessionIds := by decide
  headerIds := by decide
  messages := by decide
  points := by decide
  tombstone := by decide

/-- A job that has looked for the tombstone. -/
def job (i : Fin 2) : List (ConversationLabel (Fin 2)) :=
  [.enqueue 1 [], .claim i 1, .checkJob i, .checkStore i "" [] [] []]

def planned (i : Fin 2) : List (ConversationLabel (Fin 2)) :=
  [.purgeCall i, .checkPurge i, .beginPurge i]

/-- What follows the transaction. -/
def arms (i : Fin 2) : List (ConversationLabel (Fin 2)) :=
  [.commitPurge i, .cancelJobs i, .dropPoint i, .dropPoint i, .dropPoint i, .updateTombstone i]

def stmts (n : Nat) (i : Fin 2) : List (ConversationLabel (Fin 2)) := List.replicate n (.purgeStmt i)

def reached (ls : List (ConversationLabel (Fin 2))) : ConversationConfig (Fin 2) :=
  (run (conversationStep env k) ls start).getD start

theorem run_reached {ls : List (ConversationLabel (Fin 2))}
    (h : (run (conversationStep env k) ls start).isSome = true) :
    run (conversationStep env k) ls start = some (reached ls) := by
  obtain ⟨c, hc⟩ := Option.isSome_iff_exists.mp h
  rw [reached, hc]
  rfl

end PurgeExample

section Runs

open PurgeExample

theorem purgeSessionMemory_runs_start :
    wp (fun _ t => ConversationRunsTo env k start 0 .idle t) (purgeSessionMemory env k) start.store :=
  purgeSessionMemory_runs ⟨start, .start, rfl, rfl⟩

/-- The job ends before the purge deletes; its retry finds the tombstone. -/
theorem purged_conversation_gone_retried : ConversationGone env k (reached (job 1 ++
    [.upsertPoint 1, .upsertSession 1, .leave 1 .pending] ++ planned 0 ++ stmts 1 0 ++
    [.claim 1 1, .checkJob 1] ++ stmts 4 0 ++ arms 0)).store :=
  purged_conversation_gone start_idle (run_reaches (run_reached (by decide)) (by decide)) (by decide)

/-- A job that found no tombstone stores the session after the purge has returned. And a message
that finds its header deleted aborts the transaction of the purge, which goes on in autocommit mode:
the header is back, without a tombstone. -/
theorem purged_conversation_back :
    (∃ c, Reaches (conversationStep env k) (fun _ _ => True) start c ∧ c.purged = true ∧
      (∀ i, c.phase i = .idle) ∧ c.store.tables.sessions.any k.isSession = true ∧
      c.store.points.any k.isPoint = true ∧ ¬ ConversationGone env k c.store) ∧
    ∃ c, Reaches (conversationStep env k) (fun _ _ => True) start c ∧ c.purged = true ∧
      (∀ i, c.phase i = .idle) ∧ c.store.tables.webConversations.any k.isHeader = true ∧
      c.store.tables.purged k = false ∧ ¬ ConversationGone env k c.store :=
  ⟨⟨reached (job 1 ++ planned 0 ++ stmts 5 0 ++ arms 0 ++ [.upsertPoint 1, .upsertSession 1]),
      run_reaches (run_reached (by decide)) (by decide), by decide, by decide, by decide, by decide,
      fun h => absurd h.sessions (by decide)⟩,
    ⟨reached ([.appendCall 1 message, .readHeader 1] ++ planned 0 ++ stmts 3 0 ++
        [.insertMessage 1] ++ stmts 2 0 ++ arms 0),
      run_reaches (run_reached (by decide)) (by decide), by decide, by decide, by decide, by decide,
      fun h => absurd h.headers (by decide)⟩⟩

end Runs

end Lumogis
