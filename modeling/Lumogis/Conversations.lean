import Lumogis.Projection

/-!
# Conversations

Session memory and web transcripts: `store_session` at the end of a session, the upserts of the web
client, and `purge_session_memory`, which leaves a tombstone in `purged_conversations`. The writers
look for the tombstone before they write.

Every database call goes through the one connection. A statement that is refused while a
transaction is open aborts it, and `_ensure_conn` of the next call then opens a new connection, in
autocommit mode: what the transaction had written is gone.
-/

namespace Lumogis

open Prog

/-! ## Tables and points -/

/-- A row of `sessions`. -/
structure SessionSummaryRow where
  sessionId : String
  summary : String
  topics : List String
  entities : List String
  entityIds : List String
  userId : String
  scope : Scope
  publishedFrom : Option String
  deriving DecidableEq

structure WebConversationRow where
  conversationId : String
  userId : String
  title : String
  model : String
  scope : Scope
  deriving DecidableEq

structure WebMessageRow where
  messageId : String
  conversationId : String
  userId : String
  role : String
  content : String
  model : Option String
  /-- JSON. -/
  sourceRefs : Option String
  actionProposalId : Option Nat
  deriving DecidableEq

structure PurgedConversationRow where
  userId : String
  conversationId : String
  qdrantDeleted : Bool
  graphDeleted : Bool
  errors : List String
  resolved : Bool
  sweepAttempts : Nat
  /-- In seconds. -/
  purgedAt : Nat
  deriving DecidableEq

structure SessionMessage where
  role : String
  content : String
  deriving DecidableEq

/-- A row of `user_batch_jobs` of kind `session_end`. -/
structure SessionEndJobRow where
  id : Nat
  userId : String
  sessionId : String
  messages : List SessionMessage
  status : JobStatus
  error : Option String
  deriving DecidableEq

structure ConversationTables where
  sessions : List SessionSummaryRow
  webConversations : List WebConversationRow
  webMessages : List WebMessageRow
  purgedConversations : List PurgedConversationRow
  /-- The ids of the proposals, and their users. -/
  actionProposals : List (Nat × String)
  userBatchJobs : List SessionEndJobRow
  /-- `NOW()`. -/
  now : Nat
  deriving DecidableEq

/-- A point of the `conversations` collection. -/
structure ConversationPoint where
  id : String
  vector : Embedding
  sessionId : String
  summary : String
  topics : List String
  entities : List String
  userId : String
  scope : Scope
  deriving DecidableEq

structure ConversationStore where
  tables : ConversationTables
  /-- What a rollback restores, while a transaction is open. -/
  saved : Option ConversationTables
  /-- A refused statement has aborted the open transaction. -/
  aborted : Bool
  points : List ConversationPoint
  deriving DecidableEq

inductive ConversationErr where
  | database
  | vectorStore
  | graphStore
  | embedder
  | nestedTransaction
  | foreignKeyViolation
  | conversationNotFound (conversationId : String)
  | actionProposalNotFound (proposalId : Nat)
  deriving DecidableEq

abbrev ConversationM (α : Type) := Prog ConversationStore ConversationErr α

structure SessionSummary where
  sessionId : String
  summary : String
  topics : List String
  entities : List String
  deriving DecidableEq

structure ConversationEnv extends Env where
  /-- `_rc_session_end_stub_enabled()`. -/
  rcSessionEndStub : Bool
  /-- The summary, the topics and the entities, from the language model or from the stub. -/
  summarize : List SessionMessage → String × List String × List String
  /-- The ids of the entities that are stored for the session. -/
  sessionEntityIds : List SessionMessage → List String
  /-- `str(exc)`. -/
  strConversationError : ConversationErr → String

/-- A conversation of a user. -/
structure ConversationKey where
  userId : String
  sessionId : String
  deriving DecidableEq

namespace ConversationKey

def isSession (k : ConversationKey) (r : SessionSummaryRow) : Bool :=
  r.sessionId == k.sessionId && r.userId == k.userId

def isHeader (k : ConversationKey) (r : WebConversationRow) : Bool :=
  r.conversationId == k.sessionId && r.userId == k.userId

def isMessage (k : ConversationKey) (r : WebMessageRow) : Bool :=
  r.conversationId == k.sessionId && r.userId == k.userId

def isTombstone (k : ConversationKey) (r : PurgedConversationRow) : Bool :=
  r.userId == k.userId && r.conversationId == k.sessionId

def isPoint (k : ConversationKey) (pt : ConversationPoint) : Bool :=
  pt.userId == k.userId && pt.sessionId == k.sessionId

def isJob (k : ConversationKey) (j : SessionEndJobRow) : Bool :=
  j.userId == k.userId && j.sessionId == k.sessionId

end ConversationKey

/-! ## Statements -/

namespace ConversationStore

def setTables (t : ConversationTables) (s : ConversationStore) : ConversationStore :=
  { s with tables := t }

/-- The open transaction is rolled back. -/
def restored (s : ConversationStore) : ConversationStore :=
  { s with tables := s.saved.getD s.tables, saved := none, aborted := false }

/-- `_ensure_conn`. -/
def ensureConn (s : ConversationStore) : ConversationStore := if s.aborted then s.restored else s

/-- A statement was refused. -/
def refused (s : ConversationStore) : ConversationStore := { s with aborted := s.saved.isSome }

def addPoint (pt : ConversationPoint) (s : ConversationStore) : ConversationStore :=
  { s with points := Table.upsert ConversationPoint.id pt s.points }

def dropPoint (id : String) (s : ConversationStore) : ConversationStore :=
  { s with points := Table.deleteWhere (·.id == id) s.points }

end ConversationStore

/-- What a conflict with `row` leaves of `r`. -/
def SessionSummaryRow.updated (row r : SessionSummaryRow) : SessionSummaryRow :=
  { r with
    summary := row.summary
    topics := row.topics
    entities := row.entities
    entityIds := row.entityIds }

def WebConversationRow.updated (row r : WebConversationRow) : WebConversationRow :=
  { r with
    title := if row.title ≠ "" then row.title else r.title
    model := if row.model ≠ "" then row.model else r.model }

namespace ConversationTables

def purged (k : ConversationKey) (t : ConversationTables) : Bool :=
  t.purgedConversations.any k.isTombstone

/-- `ON CONFLICT (session_id) DO UPDATE`. -/
def upsertSession (row : SessionSummaryRow) (t : ConversationTables) : ConversationTables :=
  { t with
    sessions :=
      if t.sessions.any (·.sessionId == row.sessionId) then
        Table.updateWhere (·.sessionId == row.sessionId)
          (SessionSummaryRow.updated row) t.sessions
      else t.sessions ++ [row] }

/-- `ON CONFLICT (conversation_id) DO UPDATE ... WHERE user_id = EXCLUDED.user_id`. -/
def upsertHeader (row : WebConversationRow) (t : ConversationTables) : ConversationTables :=
  { t with
    webConversations :=
      if t.webConversations.any (·.conversationId == row.conversationId) then
        Table.updateWhere (fun r => r.conversationId == row.conversationId && r.userId == row.userId)
          (WebConversationRow.updated row) t.webConversations
      else t.webConversations ++ [row] }

/-- `ON CONFLICT (message_id) DO NOTHING`; refused when the header is missing. -/
def insertMessage (row : WebMessageRow) (t : ConversationTables) : Option ConversationTables :=
  if t.webMessages.any (·.messageId == row.messageId) then some t
  else if t.webConversations.any (·.conversationId == row.conversationId) then
    some { t with webMessages := t.webMessages ++ [row] }
  else none

def cancelJobs (k : ConversationKey) (t : ConversationTables) : ConversationTables :=
  { t with
    userBatchJobs := Table.updateWhere (fun j => k.isJob j && j.status == .pending)
      (fun j => { j with status := .dead, error := some "cancelled: conversation purged" })
      t.userBatchJobs }

def insertTombstone (k : ConversationKey) (t : ConversationTables) : ConversationTables :=
  if t.purged k then t
  else
    { t with
      purgedConversations := t.purgedConversations ++
        [{ userId := k.userId, conversationId := k.sessionId, qdrantDeleted := false
           graphDeleted := false, errors := [], resolved := false, sweepAttempts := 0
           purgedAt := t.now }] }

def deleteMessages (k : ConversationKey) (t : ConversationTables) : ConversationTables :=
  { t with webMessages := Table.deleteWhere k.isMessage t.webMessages }

/-- The messages of a deleted header go with it. -/
def deleteHeader (k : ConversationKey) (t : ConversationTables) : ConversationTables :=
  let gone := t.webConversations.filter k.isHeader
  { t with
    webConversations := Table.deleteWhere k.isHeader t.webConversations
    webMessages := Table.deleteWhere (fun m => gone.any (·.conversationId == m.conversationId))
      t.webMessages }

/-- The projections of a deleted row go with it. -/
def deleteSessions (p : SessionSummaryRow → Bool) (t : ConversationTables) : ConversationTables :=
  let gone := t.sessions.filter p
  { t with
    sessions :=
      Table.deleteWhere (fun r => p r || gone.any fun x => r.publishedFrom == some x.sessionId)
        t.sessions }

end ConversationTables

namespace Conversations

def dbQuery {α : Type} (f : ConversationTables → α) : ConversationM α :=
  act .database fun s => (f s.ensureConn.tables, s.ensureConn)

def dbExecute (f : ConversationTables → ConversationTables) : ConversationM Unit :=
  act .database fun s => ((), s.ensureConn.setTables (f s.ensureConn.tables))

def dbInsert (f : ConversationTables → Option ConversationTables) : ConversationM Unit :=
  actE .database fun s =>
    match f s.ensureConn.tables with
    | some t => (.ok (), s.ensureConn.setTables t)
    | none => (.error .foreignKeyViolation, s.ensureConn.refused)

def beginTransaction : ConversationM Unit :=
  actE .database fun s =>
    let s := s.ensureConn
    if s.saved.isSome then (.error .nestedTransaction, s)
    else (.ok (), { s with saved := some s.tables })

/-- To commit an aborted transaction rolls it back. -/
def commit : ConversationM Unit :=
  act .database fun s => ((), if s.aborted then s.restored else { s with saved := none })

def rollback : ConversationM Unit := act .database fun s => ((), s.restored)

/-- `with ms.transaction(): body`. -/
def transaction {α : Type} (body : ConversationM α) : ConversationM α := do
  beginTransaction
  match ← (do let a ← body; commit; pure a : ConversationM α).attempt with
  | .ok a => pure a
  | .error e => do
    let _ ← rollback.attempt
    .raise e

def embedText (env : ConversationEnv) (text : String) : ConversationM Embedding :=
  query .embedder fun _ => env.embed text

def upsertPoint (pt : ConversationPoint) : ConversationM Unit :=
  act .vectorStore fun s => ((), s.addPoint pt)

def deletePoint (id : String) : ConversationM Unit :=
  act .vectorStore fun s => ((), s.dropPoint id)

def isConversationPurged (k : ConversationKey) : ConversationM Bool :=
  dbQuery (ConversationTables.purged k)

/-! ## The end of a session -/

def sessionConversationPointId (env : ConversationEnv) (userId sessionId : String) : String :=
  env.uuid5 ("session::" ++ userId ++ "::" ++ sessionId)

def sessionRow (summary : SessionSummary) (userId : String) (entityIds : List String)
    (scope : Scope) : SessionSummaryRow :=
  { sessionId := summary.sessionId, summary := summary.summary, topics := summary.topics
    entities := summary.entities, entityIds := entityIds, userId := userId, scope := scope
    publishedFrom := none }

def sessionPoint (env : ConversationEnv) (summary : SessionSummary) (userId : String)
    (scope : Scope) (vector : Embedding) : ConversationPoint :=
  { id := sessionConversationPointId env userId summary.sessionId, vector := vector
    sessionId := summary.sessionId, summary := summary.summary, topics := summary.topics
    entities := summary.entities, userId := userId, scope := scope }

def embeddedText (summary : SessionSummary) : String :=
  summary.summary ++ " Topics: " ++ ", ".intercalate summary.topics

/-- The upsert into `sessions`; its failure is logged. -/
def upsertSessionSafe (row : SessionSummaryRow) : ConversationM Unit :=
  (dbExecute (ConversationTables.upsertSession row)).tryCatch fun _ => pure ()

def storeSession (env : ConversationEnv) (summary : SessionSummary) (userId : String)
    (entityIds : List String) (scope : Scope) : ConversationM Unit := do
  if ← isConversationPurged ⟨userId, summary.sessionId⟩ then
    pure ()
  else if env.rcSessionEndStub then
    upsertSessionSafe (sessionRow summary userId entityIds scope)
  else do
    let vector ← embedText env (embeddedText summary)
    upsertPoint (sessionPoint env summary userId scope vector)
    upsertSessionSafe (sessionRow summary userId entityIds scope)

def summarizeSession (env : ConversationEnv) (messages : List SessionMessage) (sessionId : String) :
    SessionSummary :=
  let (summary, topics, entities) := env.summarize messages
  { sessionId := sessionId, summary := summary, topics := topics, entities := entities }

/-- `handle` of `session_end`. -/
def sessionEndHandle (env : ConversationEnv) (userId sessionId : String)
    (messages : List SessionMessage) : ConversationM Unit := do
  if ← isConversationPurged ⟨userId, sessionId⟩ then
    pure ()
  else
    storeSession env (summarizeSession env messages sessionId) userId
      (env.sessionEntityIds messages) .personal

/-! ## The web client -/

/-- The user of the header. -/
def selectOwner (conversationId : String) : ConversationM (Option String) :=
  dbQuery fun t => (t.webConversations.find? (·.conversationId == conversationId)).map (·.userId)

def headerRow (k : ConversationKey) (title model : String) : WebConversationRow :=
  { conversationId := k.sessionId, userId := k.userId, title := title, model := model
    scope := .personal }

def upsertWebConversation (k : ConversationKey) (title model : String) : ConversationM Unit := do
  if ← isConversationPurged k then
    .raise (.conversationNotFound k.sessionId)
  else
    match ← selectOwner k.sessionId with
    | some owner =>
      if owner ≠ k.userId then .raise (.conversationNotFound k.sessionId)
      else dbExecute (ConversationTables.upsertHeader (headerRow k title model))
    | none => dbExecute (ConversationTables.upsertHeader (headerRow k title model))

/-- The arguments of `append_web_message` besides the conversation. -/
structure WebMessage where
  messageId : String
  role : String
  content : String
  model : Option String
  sourceRefs : Option String
  actionProposalId : Option Nat
  deriving DecidableEq

def messageRow (k : ConversationKey) (m : WebMessage) : WebMessageRow :=
  { messageId := m.messageId, conversationId := k.sessionId, userId := k.userId, role := m.role
    content := m.content, model := m.model, sourceRefs := m.sourceRefs
    actionProposalId := m.actionProposalId }

def selectProposal (proposalId : Nat) : ConversationM (Option String) :=
  dbQuery fun t => (t.actionProposals.find? (·.1 == proposalId)).map (·.2)

def requireProposal (k : ConversationKey) : Option Nat → ConversationM Unit
  | none => pure ()
  | some proposalId => do
    match ← selectProposal proposalId with
    | none => .raise (.actionProposalNotFound proposalId)
    | some owner =>
      if owner ≠ k.userId then .raise (.conversationNotFound k.sessionId) else pure ()

def selectMessage (k : ConversationKey) (messageId : String) :
    ConversationM (Option WebMessageRow) :=
  dbQuery fun t => t.webMessages.find? fun r => r.messageId == messageId && k.isMessage r

def appendWebMessage (k : ConversationKey) (m : WebMessage) : ConversationM WebMessageRow := do
  if ← isConversationPurged k then
    .raise (.conversationNotFound k.sessionId)
  else do
    let owned ← dbQuery fun t => t.webConversations.any k.isHeader
    if owned then do
      requireProposal k m.actionProposalId
      dbInsert (ConversationTables.insertMessage (messageRow k m))
      match ← selectMessage k m.messageId with
      | none => .raise (.conversationNotFound k.sessionId)
      | some row => pure row
    else .raise (.conversationNotFound k.sessionId)

/-! ## The purge -/

/-- `PurgeResult`, as far as a session purge sets it. -/
structure SessionPurgeResult where
  postgresDeleted : Bool
  qdrantDeleted : Bool
  graphDeleted : Bool
  qdrantEntitiesDeleted : Bool
  errors : List String
  deriving DecidableEq

def SessionPurgeResult.start : SessionPurgeResult :=
  { postgresDeleted := false, qdrantDeleted := false, graphDeleted := false
    qdrantEntitiesDeleted := true, errors := [] }

/-- `partial`. -/
def SessionPurgeResult.incomplete (r : SessionPurgeResult) : Bool :=
  r.postgresDeleted && !(r.qdrantDeleted && r.graphDeleted && r.qdrantEntitiesDeleted)

inductive SessionPurgeStmt where
  | tombstone | messages | header | projections | session
  deriving DecidableEq

def SessionPurgeStmt.run (k : ConversationKey) :
    SessionPurgeStmt → ConversationTables → ConversationTables
  | .tombstone => ConversationTables.insertTombstone k
  | .messages => ConversationTables.deleteMessages k
  | .header => ConversationTables.deleteHeader k
  | .projections => ConversationTables.deleteSessions (·.publishedFrom == some k.sessionId)
  | .session => ConversationTables.deleteSessions fun r => k.isSession r && r.scope == .personal

/-- The transaction of `_postgres_arm`. -/
def postgresArm : List SessionPurgeStmt := [.tombstone, .messages, .header, .projections, .session]

/-- The transaction of a purge that finds only the tombstone. -/
def webCleanup : List SessionPurgeStmt := [.messages, .header]

def purgeTransaction (k : ConversationKey) (stmts : List SessionPurgeStmt) : ConversationM Unit :=
  transaction (forEach (fun stmt => dbExecute (stmt.run k)) stmts)

def cancelPendingSessionEndJobs (k : ConversationKey) : ConversationM Unit :=
  dbExecute (ConversationTables.cancelJobs k)

def purgePointIds (env : ConversationEnv) (k : ConversationKey) : List String :=
  [sessionConversationPointId env k.userId k.sessionId,
    projectionPointId env.toEnv "conversations" k.sessionId .shared,
    projectionPointId env.toEnv "conversations" k.sessionId .system]

def retryArm (env : ConversationEnv) (label : String) (arm : ConversationM Unit) :
    Nat → ConversationM (Bool × List String)
  | 0 => pure (false, [])
  | attempts + 1 => do
    match ← arm.attempt with
    | .ok _ => pure (true, [])
    | .error e => do
      let r ← retryArm env label arm attempts
      pure (r.1, (label ++ ": " ++ env.strConversationError e) :: r.2)

/-- `_RETRY_ATTEMPTS`. -/
def sessionRetryAttempts : Nat := 3

/-- `_tombstone_update`. -/
def updateTombstone (k : ConversationKey) (result : SessionPurgeResult) (t : ConversationTables) :
    ConversationTables :=
  { t with
    purgedConversations := Table.updateWhere k.isTombstone
      (fun r => { r with
        qdrantDeleted := result.qdrantDeleted
        graphDeleted := result.graphDeleted
        errors := result.errors
        resolved := r.resolved || !result.incomplete }) t.purgedConversations }

/-- What follows the Postgres arm. -/
def purgeArms (env : ConversationEnv) (k : ConversationKey) : ConversationM SessionPurgeResult := do
  cancelPendingSessionEndJobs k
  let qdrant ← retryArm env "qdrant" (forEach deletePoint (purgePointIds env k)) sessionRetryAttempts
  let graph ← if env.hasGraphStore then
      retryArm env "graph" (query .graphStore fun _ => ()) sessionRetryAttempts
    else pure (true, [])
  let result : SessionPurgeResult := { SessionPurgeResult.start with
    postgresDeleted := true
    qdrantDeleted := qdrant.1
    graphDeleted := graph.1
    errors := qdrant.2 ++ graph.2 }
  let _ ← (dbExecute (updateTombstone k result)).attempt
  return result

def purgeSessionMemory (env : ConversationEnv) (k : ConversationKey) :
    ConversationM SessionPurgeResult := do
  let sessionFound ← dbQuery fun t => t.sessions.any fun r => k.isSession r && r.scope == .personal
  let tombstone ← isConversationPurged k
  if !sessionFound && !tombstone then
    return SessionPurgeResult.start
  else
    match ← (purgeTransaction k (if sessionFound then postgresArm else webCleanup)).attempt with
    | .error e =>
      return { SessionPurgeResult.start with
        errors := ["postgres: " ++ env.strConversationError e] }
    | .ok _ => purgeArms env k

end Conversations

end Lumogis
