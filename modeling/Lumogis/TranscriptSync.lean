import Lumogis.ConversationRuns
import Lumogis.Lib.Delivery
import Lumogis.ThreadStore

/-!
# TranscriptSync

One tab of the web chat and the transcripts that it leaves on the server: the threads of the tab, the one
timer that waits for 400 ms after a turn before the turn's messages are sent, the requests in flight, and
`upsert_web_conversation`, `append_web_message` and `get_conversation` on the other side. A thread's header
is a request of its own, and the requests in flight arrive in any order, each at a time of the server's
clock that becomes the `created_at` of the message it inserts.

The transcripts of a quiet tab are the turns that were completed, in every run whose steps all meet a
condition, and in no other (`transcript_follows_iff`): no turn is completed while the timer of another one
runs, and a message arrives at a header, later than the last message there, and not before an older
message of its thread.
-/

namespace Lumogis.TranscriptSync

open Prog Labelled Conversations ThreadStore

/-! ## The tab -/

/-- A message as it is sent. The id is the UUID: `generateId` puts a prefix before it that
`messageIdForServerSync` takes off. -/
structure SentMessage where
  id : String
  role : String
  content : String
  deriving DecidableEq

/-- A turn whose answer streams in, with what has come. -/
structure Turn where
  threadId : String
  model : String
  userMessageId : String
  text : String
  assistantMessageId : String
  sawDelta : Bool
  assistantContent : String
  deriving DecidableEq

/-- What the timer of `scheduleTurnSync` will send. -/
structure TurnSync where
  threadId : String
  model : String
  messages : List SentMessage
  deriving DecidableEq

/-- `PUT /conversations/{id}` and `POST /conversations/{id}/messages`. -/
inductive Request where
  | upsert (conversationId title model : String)
  | append (conversationId model : String) (message : SentMessage)
  deriving DecidableEq

structure TabEnv where
  userId : String
  initialModel : String

/-- The tab and the server. `drawn` and `completed` are history: the UUIDs of messages so far, and the
messages of the turns that were completed in a thread. -/
structure Tab where
  state : ThreadState
  streaming : Option Turn
  timer : Option TurnSync
  inFlight : List Request
  server : ConversationStore
  /-- The column `created_at`, by message. -/
  createdAt : String → Nat
  drawn : List String
  completed : String → List SentMessage

def Tab.active (s : Tab) : Option ChatThread := s.state.threads.find? fun t => some t.id = s.state.activeId

def registerServerThread (threadId model title : String) (s : Tab) : Tab :=
  { s with inFlight := s.inFlight ++ [.upsert threadId title model] }

/-- The active thread's id, model and title, on which the effect that registers it depends. -/
def Tab.registered (s : Tab) : Option (String × String × String) := s.active.map fun t => (t.id, t.model, t.title)

/-- The tab is rendered after `before`: a change of the active thread's id, model or title registers it. -/
def Tab.rendered (before s : Tab) : Tab :=
  match s.active with
  | none => s
  | some t => if s.registered = before.registered then s else registerServerThread t.id t.model t.title s

def Tab.dispatch (action : ThreadAction) (s : Tab) : Tab := { s with state := threadReducer s.state action }

def TurnSync.requests (p : TurnSync) : List Request := p.messages.map fun m => .append p.threadId p.model m

/-! ## The server -/

def Tab.messageIds (s : Tab) : List String := s.server.tables.webMessages.map WebMessageRow.messageId

/-- The body of the request. -/
def SentMessage.body (m : SentMessage) (model : String) : WebMessage :=
  { messageId := m.id, role := m.role, content := m.content, model := some model, sourceRefs := none
    actionProposalId := none }

/-- The request is handled. -/
def handle (userId : String) : Request → ConversationStore → ConversationStore
  | .upsert conversationId title model => (upsertWebConversation ⟨userId, conversationId⟩ title model).after
  | .append conversationId model message =>
    (appendWebMessage ⟨userId, conversationId⟩ (message.body model)).after

def ConversationStore.at (now : Nat) (server : ConversationStore) : ConversationStore :=
  server.setTables { server.tables with now := now }

/-- The request arrives. What it inserts was created then. -/
def Tab.serve (env : TabEnv) (now : Nat) (r : Request) (s : Tab) : Tab :=
  { s with
    server := handle env.userId r (ConversationStore.at now s.server)
    createdAt := fun id => if s.messageIds.contains id then s.createdAt id else now }

/-- The rows that `get_conversation` reads, in the order in which they were inserted. -/
def Tab.rows (env : TabEnv) (threadId : String) (s : Tab) : List WebMessageRow :=
  s.server.tables.webMessages.filter (ConversationKey.isMessage ⟨env.userId, threadId⟩)

/-- `get_conversation` finds the conversation. -/
def Tab.found (env : TabEnv) (threadId : String) (s : Tab) : Bool :=
  s.server.tables.sessions.any (fun r => r.sessionId == threadId && (r.userId == env.userId || r.scope != .personal))
    || s.server.tables.webConversations.any (ConversationKey.isHeader ⟨env.userId, threadId⟩)

def ofRow (r : WebMessageRow) : SentMessage := ⟨r.messageId, r.role, r.content⟩

/-- The messages that `get_conversation` may return, `ORDER BY created_at`. -/
def Tab.Returned (env : TabEnv) (threadId : String) (s : Tab) (out : List WebMessageRow) : Prop :=
  Delivery.Reading (fun r : WebMessageRow => s.createdAt r.messageId) (s.rows env threadId) out

/-! ## Steps -/

inductive Act where
  | newThread (id : String) (createdAt : Nat)
  | selectThread (id : String)
  | setModel (model : String)
  /-- The composer's text, trimmed, is sent; the UUIDs of the two messages. -/
  | submit (text userMessageId assistantMessageId : String) (created : Nat)
  | delta (delta : String) (now : Nat)
  /-- The stream is over. -/
  | finish
  /-- It ends in an error. -/
  | fail (detail : String)
  | stop
  | fire
  | arrive (i now : Nat)
  deriving DecidableEq

/-- A UUID of a thread that was not drawn before. -/
def Tab.newId (s : Tab) (id : String) : Bool :=
  !s.state.threads.any (·.id == id) && !s.server.tables.webConversations.any (·.conversationId == id) &&
    !s.server.tables.webMessages.any (·.conversationId == id) &&
    !s.server.tables.purgedConversations.any (·.conversationId == id)

/-- The beginning of `onSubmit`. -/
def Tab.submitted (thread : ChatThread) (text userMessageId assistantMessageId : String) (created : Nat) (s : Tab) : Tab :=
  { (s.dispatch (.appendUser thread.id userMessageId text created)).dispatch
      (.beginAssistant thread.id assistantMessageId created) with
    streaming := some ⟨thread.id, thread.model, userMessageId, text, assistantMessageId, false, ""⟩
    drawn := userMessageId :: assistantMessageId :: s.drawn }

/-- The two messages of a turn. -/
def Turn.messages (turn : Turn) : List SentMessage :=
  [⟨turn.userMessageId, "user", turn.text⟩, ⟨turn.assistantMessageId, "assistant", turn.assistantContent⟩]

/-- `scheduleTurnSync`, at the end of a turn: a timer that runs is cleared. -/
def Tab.finished (turn : Turn) (s : Tab) : Tab :=
  { s.dispatch (.finishAssistant turn.threadId turn.assistantMessageId) with
    streaming := none
    timer := some ⟨turn.threadId, turn.model, turn.messages⟩
    completed := Function.update s.completed turn.threadId (s.completed turn.threadId ++ turn.messages) }

def Tab.failed (turn : Turn) (detail : String) (s : Tab) : Tab :=
  { s.dispatch (.failAssistant turn.threadId turn.assistantMessageId detail) with streaming := none }

/-- A stream that is cancelled ends its turn. -/
def Tab.cancelStream (s : Tab) : Tab :=
  match s.streaming with
  | none => s
  | some turn => { s.dispatch (.abortAssistant turn.threadId turn.assistantMessageId) with streaming := none }

def tabStep (env : TabEnv) : Act → Tab → Option Tab
  | .newThread id createdAt, s =>
    if s.newId id then
      let model := (s.active.map ChatThread.model).getD env.initialModel
      some (s.rendered ((registerServerThread id model "New chat" s.cancelStream).dispatch
        (.newThread id model createdAt)))
    else none
  | .selectThread id, s => some (s.rendered (s.cancelStream.dispatch (.selectThread id)))
  | .setModel model, s => s.active.map fun thread => s.rendered (s.dispatch (.setModel thread.id model))
  | .submit text userMessageId assistantMessageId created, s =>
    match s.active, s.streaming with
    | some thread, none =>
      if text ≠ "" ∧ [userMessageId, assistantMessageId].Nodup ∧
          ∀ id ∈ [userMessageId, assistantMessageId], id ∉ s.drawn ∧ id ∉ s.messageIds then
        some (s.rendered (s.submitted thread text userMessageId assistantMessageId created))
      else none
    | _, _ => none
  | .delta delta now, s => s.streaming.map fun turn =>
      { s.dispatch (.appendAssistantDelta turn.threadId turn.assistantMessageId delta now) with
        streaming := some { turn with sawDelta := true, assistantContent := turn.assistantContent ++ delta } }
  | .finish, s => s.streaming.map fun turn =>
      if turn.sawDelta then s.finished turn else s.failed turn "The model returned no content."
  | .fail detail, s => s.streaming.map fun turn => s.failed turn detail
  | .stop, s => some s.cancelStream
  | .fire, s => s.timer.map fun p => { s with inFlight := s.inFlight ++ p.requests, timer := none }
  | .arrive i now, s =>
    if s.server.tables.now ≤ now then
      (s.inFlight[i]?).map fun r => { s.serve env now r with inFlight := s.inFlight.eraseIdx i }
    else none

/-! ## What is pending -/

def Request.threadId : Request → String
  | .upsert id _ _ => id
  | .append id _ _ => id

/-- The message that the request brings to the thread. -/
def Request.messageFor (threadId : String) : Request → Option SentMessage
  | .upsert _ _ _ => none
  | .append id _ m => if id = threadId then some m else none

def Request.messageId : Request → Option String
  | .upsert _ _ _ => none
  | .append _ _ m => some m.id

/-- The messages of the thread in flight. -/
def outstanding (threadId : String) (inFlight : List Request) : List SentMessage :=
  inFlight.filterMap (Request.messageFor threadId)

/-- Those that wait for the timer. -/
def TurnSync.messagesFor (threadId : String) (p : TurnSync) : List SentMessage :=
  if p.threadId = threadId then p.messages else []

def Tab.timed (s : Tab) (threadId : String) : List SentMessage :=
  (s.timer.map (TurnSync.messagesFor threadId)).getD []

def Tab.pending (s : Tab) (threadId : String) : List SentMessage :=
  outstanding threadId s.inFlight ++ s.timed threadId

def Tab.served (env : TabEnv) (threadId : String) (s : Tab) : List SentMessage := (s.rows env threadId).map ofRow

def Tab.hasHeader (env : TabEnv) (threadId : String) (s : Tab) : Bool :=
  s.server.tables.webConversations.any (ConversationKey.isHeader ⟨env.userId, threadId⟩)

def Tab.ids (s : Tab) : List String := s.state.ids

/-! ## The condition -/

/-- A message arrives at the header of its thread, later than the messages there, and before the younger ones
that are in flight. -/
def Delivers (env : TabEnv) (i now : Nat) (s : Tab) : Request → Prop
  | .upsert _ _ _ => True
  | .append threadId _ _ => s.hasHeader env threadId = true ∧ outstanding threadId (s.inFlight.take i) = [] ∧
      ∀ row ∈ s.rows env threadId, s.createdAt row.messageId < now

def Keeps (env : TabEnv) : Act → Tab → Prop
  | .finish, s => ∀ turn ∈ s.streaming, turn.sawDelta = true → s.timer = none
  | .arrive i now, s => ∀ r ∈ s.inFlight[i]?, Delivers env i now s r
  | _, _ => True

/-- The tab is opened with one new thread, which is registered. -/
structure Opened (env : TabEnv) (s : Tab) : Prop where
  thread : ∃ id model createdAt, s.state = newTab id model createdAt ∧ s.inFlight = [.upsert id "New chat" model] ∧
    { s with state := { threads := [], activeId := none } }.newId id = true
  streaming : s.streaming = none
  timer : s.timer = none
  completed : s.completed = fun _ => []
  saved : s.server.saved = none
  aborted : s.server.aborted = false

/-- All timers have fired, and all requests are answered. -/
def Quiet (s : Tab) : Prop := s.timer = none ∧ s.inFlight = []

/-- `get_conversation` returns the messages of the turns that were completed in the thread. -/
def Follows (env : TabEnv) (s : Tab) : Prop :=
  ∀ threadId ∈ s.ids, s.found env threadId = true ∧
    ∀ out, s.Returned env threadId out → out.map ofRow = s.completed threadId

/-! ## What a step keeps -/

/-- What the server is to a thread of the tab. -/
structure ThreadSound (env : TabEnv) (threadId : String) (s : Tab) : Prop where
  unpurged : s.server.tables.purged ⟨env.userId, threadId⟩ = false
  owner : OwnHeader ⟨env.userId, threadId⟩ s.server.tables
  registered : s.hasHeader env threadId = true ∨ ∃ title model, .upsert threadId title model ∈ s.inFlight
  delivery : Delivery.Sound (s.completed threadId) (s.served env threadId) (s.pending threadId)
  sorted : (s.rows env threadId).Pairwise fun a b => s.createdAt a.messageId ≤ s.createdAt b.messageId
  clock : ∀ row ∈ s.rows env threadId, s.createdAt row.messageId ≤ s.server.tables.now

def TurnSync.messageIds (p : TurnSync) : List String := p.messages.map SentMessage.id

def Turn.messageIds (turn : Turn) : List String := [turn.userMessageId, turn.assistantMessageId]

/-- The ids of the messages that are on their way. -/
def Tab.onTheWay (s : Tab) : List String :=
  s.inFlight.filterMap Request.messageId ++ ((s.timer.map TurnSync.messageIds).getD [] ++
    (s.streaming.map Turn.messageIds).getD [])

structure IdsSound (s : Tab) : Prop where
  nodup : s.onTheWay.Nodup
  apart : ∀ id ∈ s.onTheWay, id ∉ s.messageIds
  drawn : ∀ id ∈ s.onTheWay, id ∈ s.drawn
  completed : ∀ threadId, ∀ m ∈ s.completed threadId, m.id ∈ s.drawn
  streaming : ∀ turn ∈ s.streaming, ∀ threadId, ∀ m ∈ s.completed threadId, m.id ∉ turn.messageIds

structure Sound (env : TabEnv) (s : Tab) : Prop where
  saved : s.server.saved = none
  aborted : s.server.aborted = false
  requests : ∀ r ∈ s.inFlight, r.threadId ∈ s.ids
  timer : ∀ p ∈ s.timer, p.threadId ∈ s.ids ∧ p.messages ≠ []
  streaming : ∀ turn ∈ s.streaming, turn.threadId ∈ s.ids
  unknown : ∀ threadId, threadId ∉ s.ids → s.completed threadId = []
  threads : ∀ threadId ∈ s.ids, ThreadSound env threadId s
  messages : IdsSound s

/-- The thread's transcript is in step with its turns, each message later than the one before. -/
def KeptAt (env : TabEnv) (threadId : String) (s : Tab) : Prop :=
  Delivery.InStep (s.completed threadId) (s.served env threadId) (s.pending threadId) ∧
    (s.rows env threadId).Pairwise fun a b => s.createdAt a.messageId < s.createdAt b.messageId

def Kept (env : TabEnv) (s : Tab) : Prop := ∀ threadId ∈ s.ids, KeptAt env threadId s


/-! ## The requests -/

section Requests

variable {k : ConversationKey} {server : ConversationStore}

theorem ensureConn_of_healthy (ha : server.aborted = false) : server.ensureConn = server := by
  simp [ConversationStore.ensureConn, ha]

/-- A header that is nobody else's is upserted. -/
theorem after_upsert (server : ConversationStore) (title model : String) (ha : server.aborted = false) (hp : server.tables.purged k = false)
    (ho : OwnHeader k server.tables) : (upsertWebConversation k title model).after server
      = server.setTables (server.tables.upsertHeader (headerRow k title model)) := by
  have hconn := ensureConn_of_healthy ha
  have hexec : (upsertWebConversation k title model).exec server
      = some (.ok (), server.setTables (server.tables.upsertHeader (headerRow k title model))) := by
    simp only [upsertWebConversation, isConversationPurged, selectOwner, dbQuery, dbExecute, exec_bind, exec_act,
      Option.bind_some, thenExec, hconn, hp, Bool.false_eq_true, if_false]
    cases hfind : server.tables.webConversations.find? (·.conversationId == k.sessionId) with
    | none => simp only [Option.map_none, exec_act, hconn]
    | some row =>
      have hid : row.conversationId = k.sessionId := by simpa using List.find?_some hfind
      have howner : row.userId = k.userId := ho row (List.mem_of_find?_eq_some hfind) hid
      simp only [Option.map_some, howner, ne_eq, not_true_eq_false, if_false, exec_act, hconn]
  rw [Prog.after, hexec]
  rfl

/-- A message without a header is refused. -/
theorem after_append_missing (server : ConversationStore) (m : WebMessage) (ha : server.aborted = false)
    (hp : server.tables.purged k = false) (hh : server.tables.webConversations.any k.isHeader = false) :
    (appendWebMessage k m).after server = server := by
  have hconn := ensureConn_of_healthy ha
  have hexec : (appendWebMessage k m).exec server = some (.error (.conversationNotFound k.sessionId), server) := by
    simp only [appendWebMessage, isConversationPurged, dbQuery, exec_bind, exec_act, Option.bind_some, thenExec, hconn,
      hp, hh, Bool.false_eq_true, if_false, exec_raise]
  rw [Prog.after, hexec]
  rfl

/-- A new message is inserted behind the others. -/
theorem after_append (server : ConversationStore) {m : WebMessage} (ha : server.aborted = false) (hp : server.tables.purged k = false)
    (hh : server.tables.webConversations.any k.isHeader = true) (hm : m.actionProposalId = none)
    (hnew : m.messageId ∉ server.tables.webMessages.map WebMessageRow.messageId) :
    (appendWebMessage k m).after server = server.setTables
      { server.tables with webMessages := server.tables.webMessages ++ [messageRow k m] } := by
  have hconn := ensureConn_of_healthy ha
  obtain ⟨header, hheader, hk⟩ := List.any_eq_true.mp hh
  simp only [ConversationKey.isHeader, Bool.and_eq_true] at hk
  have hany : server.tables.webConversations.any (·.conversationId == k.sessionId) = true :=
    List.any_eq_true.mpr ⟨header, hheader, hk.1⟩
  have hfresh : server.tables.webMessages.any (·.messageId == m.messageId) = false := by
    simpa [List.any_eq_false] using hnew
  have hinsert : server.tables.insertMessage (messageRow k m) = some
      { server.tables with webMessages := server.tables.webMessages ++ [messageRow k m] } := by
    have hid : (messageRow k m).messageId = m.messageId := rfl
    have hconversation : (messageRow k m).conversationId = k.sessionId := rfl
    rw [ConversationTables.insertMessage, hid, hfresh, hconversation, hany]
    rfl
  have hfind : (server.tables.webMessages ++ [messageRow k m]).find?
      (fun r => r.messageId == m.messageId && k.isMessage r) = some (messageRow k m) := by
    have hnone : server.tables.webMessages.find? (fun r => r.messageId == m.messageId && k.isMessage r) = none := by
      refine List.find?_eq_none.mpr fun r hr hsame => ?_
      rw [Bool.and_eq_true, beq_iff_eq] at hsame
      exact hnew (hsame.1 ▸ List.mem_map_of_mem hr)
    rw [List.find?_append, hnone]
    simp [messageRow, ConversationKey.isMessage]
  have hexec : (appendWebMessage k m).exec server = some (.ok (messageRow k m), server.setTables
      { server.tables with webMessages := server.tables.webMessages ++ [messageRow k m] }) := by
    have hconn' : (server.setTables { server.tables with
          webMessages := server.tables.webMessages ++ [messageRow k m] }).ensureConn =
        server.setTables { server.tables with webMessages := server.tables.webMessages ++ [messageRow k m] } :=
      ensureConn_of_healthy ha
    have htables : (server.setTables { server.tables with
        webMessages := server.tables.webMessages ++ [messageRow k m] }).tables.webMessages =
      server.tables.webMessages ++ [messageRow k m] := rfl
    simp only [appendWebMessage, isConversationPurged, dbQuery, dbInsert, requireProposal, selectMessage, exec_bind,
      exec_act, exec_actE, Option.bind_some, thenExec, pure_eq, exec_ret, hconn, hp, hh, hm, hinsert, hconn', htables,
      hfind, Bool.false_eq_true, if_false, if_true]
  rw [Prog.after, hexec]
  rfl

end Requests

/-! ## What a step changes for a thread -/

@[simp] theorem outstanding_append (threadId : String) (a b : List Request) :
    outstanding threadId (a ++ b) = outstanding threadId a ++ outstanding threadId b := List.filterMap_append

theorem outstanding_requests (threadId : String) (p : TurnSync) :
    outstanding threadId p.requests = p.messagesFor threadId := by
  rw [outstanding, TurnSync.requests, TurnSync.messagesFor, List.filterMap_map]
  by_cases h : p.threadId = threadId
  · rw [if_pos h]
    induction p.messages with
    | nil => rfl
    | cons m ms ih => rw [List.filterMap_cons, ih, Function.comp_apply, Request.messageFor, if_pos h]
  · rw [if_neg h]
    refine List.filterMap_eq_nil_iff.mpr fun m hm => ?_
    rw [Function.comp_apply, Request.messageFor, if_neg h]

theorem messageIds_requests (p : TurnSync) : p.requests.filterMap Request.messageId = p.messageIds := by
  rw [TurnSync.requests, TurnSync.messageIds, List.filterMap_map]
  induction p.messages with
  | nil => rfl
  | cons m ms ih =>
    rw [List.filterMap_cons, ih]
    rfl

/-- Requests of headers. -/
def Headers (rs : List Request) : Prop := ∀ r ∈ rs, ∃ id title model, r = .upsert id title model

theorem Headers.outstanding {rs : List Request} (h : Headers rs) (threadId : String) : outstanding threadId rs = [] := by
  refine List.filterMap_eq_nil_iff.mpr fun r hr => ?_
  obtain ⟨id, title, model, rfl⟩ := h r hr
  rfl

theorem Headers.messageIds {rs : List Request} (h : Headers rs) : rs.filterMap Request.messageId = [] := by
  refine List.filterMap_eq_nil_iff.mpr fun r hr => ?_
  obtain ⟨id, title, model, rfl⟩ := h r hr
  rfl

/-- Requests of other threads bring the thread nothing. -/
theorem outstanding_of_ne {threadId : String} {rs : List Request} (h : ∀ r ∈ rs, r.threadId ≠ threadId) :
    outstanding threadId rs = [] := by
  refine List.filterMap_eq_nil_iff.mpr fun r hr => ?_
  cases r with
  | upsert id title model => rfl
  | append id model m => exact if_neg (h _ hr)

section Threads

variable {env : TabEnv} {s s' : Tab} {threadId : String}

/-- A step changes nothing that the thread's messages depend on. -/
structure SameFor (env : TabEnv) (threadId : String) (s s' : Tab) : Prop where
  rows : s'.rows env threadId = s.rows env threadId
  pending : s'.pending threadId = s.pending threadId
  completed : s'.completed threadId = s.completed threadId
  createdAt : ∀ row ∈ s.rows env threadId, s'.createdAt row.messageId = s.createdAt row.messageId

theorem SameFor.keptAt_iff (h : SameFor env threadId s s') : KeptAt env threadId s' ↔ KeptAt env threadId s := by
  rw [KeptAt, KeptAt, h.completed, h.pending, Tab.served, Tab.served, h.rows]
  refine and_congr_right fun _ => List.Pairwise.iff_of_mem fun {a b} ha hb => ?_
  rw [h.createdAt a ha, h.createdAt b hb]

theorem ThreadSound.of_same (hs : ThreadSound env threadId s) (h : SameFor env threadId s s')
    (hunpurged : s'.server.tables.purged ⟨env.userId, threadId⟩ = false)
    (howner : OwnHeader ⟨env.userId, threadId⟩ s'.server.tables)
    (hregistered : s'.hasHeader env threadId = true ∨ ∃ title model, .upsert threadId title model ∈ s'.inFlight)
    (hclock : s.server.tables.now ≤ s'.server.tables.now) : ThreadSound env threadId s' where
  unpurged := hunpurged
  owner := howner
  registered := hregistered
  delivery := by
    rw [h.completed, h.pending, Tab.served, h.rows]
    exact hs.delivery
  sorted := by
    rw [h.rows]
    refine (List.Pairwise.iff_of_mem fun {a b} ha hb => ?_).mpr hs.sorted
    rw [h.createdAt a ha, h.createdAt b hb]
  clock row hrow := by
    rw [h.rows] at hrow
    rw [h.createdAt row hrow]
    exact (hs.clock row hrow).trans hclock

/-- A step that changes what one thread's messages depend on. -/
theorem kept_iff_of_one {condition : Prop} (hids : s'.ids = s.ids) (hmem : threadId ∈ s.ids)
    (hone : KeptAt env threadId s' ↔ KeptAt env threadId s ∧ condition)
    (hothers : ∀ other ∈ s.ids, other ≠ threadId → SameFor env other s s') :
    Kept env s' ↔ Kept env s ∧ condition := by
  rw [Kept, hids]
  constructor
  · intro h
    refine ⟨fun other hother => ?_, (hone.mp (h threadId hmem)).2⟩
    by_cases heq : other = threadId
    · rw [heq]
      exact (hone.mp (h threadId hmem)).1
    · exact (hothers other hother heq).keptAt_iff.mp (h other hother)
  · rintro ⟨h, hcondition⟩ other hother
    by_cases heq : other = threadId
    · rw [heq]
      exact hone.mpr ⟨h threadId hmem, hcondition⟩
    · exact (hothers other hother heq).keptAt_iff.mpr (h other hother)

/-- A new thread has nothing on the server and nothing pending. -/
theorem Sound.new_thread (hs : Sound env s) (hnew : s.newId threadId = true) :
    threadId ∉ s.ids ∧ s.rows env threadId = [] ∧ s.pending threadId = [] ∧ s.completed threadId = [] := by
  simp only [Tab.newId, Bool.and_eq_true, Bool.not_eq_true', List.any_eq_false, beq_iff_eq] at hnew
  obtain ⟨⟨⟨hthreads, -⟩, hmessages⟩, -⟩ := hnew
  have hids : threadId ∉ s.ids := by
    intro hmem
    obtain ⟨t, ht, hid⟩ := List.mem_map.mp hmem
    exact hthreads t ht hid
  refine ⟨hids, ?_, ?_, hs.unknown threadId hids⟩
  · refine List.filter_eq_nil_iff.mpr fun row hrow hmessage => hmessages row hrow ?_
    simp only [ConversationKey.isMessage, Bool.and_eq_true, beq_iff_eq] at hmessage
    exact hmessage.1
  · have hflight : outstanding threadId s.inFlight = [] :=
      outstanding_of_ne fun r hr heq => hids (heq ▸ hs.requests r hr)
    have htimer : s.timed threadId = [] := by
      rw [Tab.timed]
      cases hp : s.timer with
      | none => rfl
      | some p =>
        have hother : p.threadId ≠ threadId := fun heq => hids (heq ▸ (hs.timer p hp).1)
        simp [TurnSync.messagesFor, hother]
    rw [Tab.pending, hflight, htimer, List.append_nil]

/-! ## Steps of the tab alone -/

/-- A step that sends headers at most; a thread that appears is new and is registered. -/
structure TabOnly (s s' : Tab) : Prop where
  server : s'.server = s.server
  createdAt : s'.createdAt = s.createdAt
  timer : s'.timer = s.timer
  completed : s'.completed = s.completed
  sent : ∃ rs, s'.inFlight = s.inFlight ++ rs ∧ Headers rs ∧ ∀ r ∈ rs, r.threadId ∈ s'.ids
  known : ∀ id ∈ s.ids, id ∈ s'.ids
  new : ∀ id ∈ s'.ids, id ∈ s.ids ∨ s.newId id = true ∧ ∃ title model, .upsert id title model ∈ s'.inFlight

theorem TabOnly.same (h : TabOnly s s') (threadId : String) : SameFor env threadId s s' where
  rows := by rw [Tab.rows, Tab.rows, h.server]
  pending := by
    obtain ⟨rs, hsent, hheaders, -⟩ := h.sent
    rw [Tab.pending, Tab.pending, Tab.timed, Tab.timed, h.timer, hsent, outstanding_append,
      hheaders.outstanding threadId, List.append_nil]
  completed := by rw [h.completed]
  createdAt row _ := by rw [h.createdAt]

theorem TabOnly.kept_iff (hs : Sound env s) (h : TabOnly s s') : Kept env s' ↔ Kept env s := by
  constructor
  · intro hkept id hid
    exact (h.same id).keptAt_iff.mp (hkept id (h.known id hid))
  · intro hkept id hid
    refine (h.same id).keptAt_iff.mpr ?_
    rcases h.new id hid with hold | ⟨hnew, -⟩
    · exact hkept id hold
    · obtain ⟨-, hrows, hpending, hcompleted⟩ := hs.new_thread hnew
      rw [KeptAt, Tab.served, hrows, hpending, hcompleted]
      exact ⟨rfl, List.Pairwise.nil⟩

theorem TabOnly.sound (hs : Sound env s) (h : TabOnly s s')
    (hstreaming : ∀ turn ∈ s'.streaming, turn.threadId ∈ s'.ids) (hmessages : IdsSound s') : Sound env s' where
  saved := by rw [h.server]; exact hs.saved
  aborted := by rw [h.server]; exact hs.aborted
  requests r hr := by
    obtain ⟨rs, hsent, -, hknown⟩ := h.sent
    rw [hsent, List.mem_append] at hr
    rcases hr with hold | hnew
    · exact h.known _ (hs.requests r hold)
    · exact hknown r hnew
  timer p hp := by
    rw [h.timer] at hp
    exact ⟨h.known _ (hs.timer p hp).1, (hs.timer p hp).2⟩
  streaming := hstreaming
  unknown id hid := by
    rw [h.completed]
    exact hs.unknown id fun hmem => hid (h.known id hmem)
  threads id hid := by
    obtain ⟨rs, hsent, -, -⟩ := h.sent
    rcases h.new id hid with hold | ⟨hnew, hupsert⟩
    · have ht := hs.threads id hold
      refine ht.of_same (h.same id) (by rw [h.server]; exact ht.unpurged) (by rw [h.server]; exact ht.owner) ?_
        (by rw [h.server])
      rcases ht.registered with hheader | ⟨title, model, hmem⟩
      · exact Or.inl (by rw [Tab.hasHeader, h.server]; exact hheader)
      · exact Or.inr ⟨title, model, by rw [hsent]; exact List.mem_append_left _ hmem⟩
    · obtain ⟨-, hrows, hpending, hcompleted⟩ := hs.new_thread hnew
      simp only [Tab.newId, Bool.and_eq_true, Bool.not_eq_true', List.any_eq_false, beq_iff_eq] at hnew
      obtain ⟨⟨⟨-, hheaders⟩, -⟩, htombstones⟩ := hnew
      have hsame : SameFor env id s s' := h.same id
      refine ⟨?_, ?_, Or.inr hupsert, ?_, ?_, ?_⟩
      · rw [h.server, ConversationTables.purged]
        refine List.any_eq_false.mpr fun r hr htombstone => htombstones r hr ?_
        simp only [ConversationKey.isTombstone, Bool.and_eq_true, beq_iff_eq] at htombstone
        exact htombstone.2
      · rw [h.server]
        intro r hr hid
        exact absurd hid (hheaders r hr)
      · rw [hsame.completed, hsame.pending, Tab.served, hsame.rows, hrows, hpending, hcompleted]
        exact Delivery.Sound.nil
      · rw [hsame.rows, hrows]
        exact List.Pairwise.nil
      · intro row hrow
        rw [hsame.rows, hrows] at hrow
        cases hrow
  messages := hmessages

/-- A rendering sends the header of the active thread at most. -/
theorem rendered_eq (before s : Tab) : ∃ rs, Tab.rendered before s = { s with inFlight := s.inFlight ++ rs } ∧
    Headers rs ∧ ∀ r ∈ rs, r.threadId ∈ s.ids := by
  have hnothing : ∃ rs, s = { s with inFlight := s.inFlight ++ rs } ∧ Headers rs ∧ ∀ r ∈ rs, r.threadId ∈ s.ids :=
    ⟨[], by simp, nofun, nofun⟩
  rw [Tab.rendered]
  cases hactive : s.active with
  | none => exact hnothing
  | some t =>
    by_cases hsame : s.registered = before.registered
    · simpa only [if_pos hsame] using hnothing
    · simp only [if_neg hsame]
      refine ⟨[.upsert t.id t.title t.model], rfl, fun r hr => ⟨t.id, t.title, t.model, List.mem_singleton.mp hr⟩, ?_⟩
      intro r hr
      rw [List.mem_singleton.mp hr]
      exact List.mem_map_of_mem (List.mem_of_find?_eq_some hactive)

theorem TabOnly.rendered (h : TabOnly s s') : TabOnly s (Tab.rendered s s') := by
  obtain ⟨rs, heq, hheaders, hknown⟩ := rendered_eq s s'
  obtain ⟨rs', hsent, hheaders', hknown'⟩ := h.sent
  rw [heq]
  refine ⟨h.server, h.createdAt, h.timer, h.completed, ⟨rs' ++ rs, ?_, ?_, ?_⟩, h.known, fun id hid => ?_⟩
  · rw [← List.append_assoc, ← hsent]
  · intro r hr
    exact (List.mem_append.mp hr).elim (hheaders' r) (hheaders r)
  · intro r hr
    exact (List.mem_append.mp hr).elim (hknown' r) (hknown r)
  · refine (h.new id hid).imp_right fun hnew => ⟨hnew.1, ?_⟩
    obtain ⟨title, model, hmem⟩ := hnew.2
    exact ⟨title, model, List.mem_append_left _ hmem⟩

/-- A dispatch that leaves the ids. -/
theorem TabOnly.of_ids (hserver : s'.server = s.server) (hcreatedAt : s'.createdAt = s.createdAt)
    (htimer : s'.timer = s.timer) (hcompleted : s'.completed = s.completed) (hinFlight : s'.inFlight = s.inFlight)
    (hids : s'.ids = s.ids) : TabOnly s s' where
  server := hserver
  createdAt := hcreatedAt
  timer := htimer
  completed := hcompleted
  sent := ⟨[], by rw [hinFlight, List.append_nil], nofun, nofun⟩
  known id hid := by rwa [hids]
  new id hid := by
    rw [hids] at hid
    exact Or.inl hid

theorem TabOnly.dispatch {action : ThreadAction} (h : (threadReducer s.state action).ids = s.state.ids) :
    TabOnly s (s.dispatch action) := .of_ids rfl rfl rfl rfl rfl h

/-! ## The ids on their way -/

theorem IdsSound.of_sublist (h : IdsSound s) (hway : s'.onTheWay.Sublist s.onTheWay)
    (hmessages : s'.messageIds = s.messageIds) (hdrawn : s'.drawn = s.drawn) (hcompleted : s'.completed = s.completed)
    (hstreaming : ∀ turn ∈ s'.streaming, ∃ turn' ∈ s.streaming, turn.messageIds = turn'.messageIds) : IdsSound s' where
  nodup := h.nodup.sublist hway
  apart id hid := by
    rw [hmessages]
    exact h.apart id (hway.subset hid)
  drawn id hid := by
    rw [hdrawn]
    exact h.drawn id (hway.subset hid)
  completed threadId m hm := by
    rw [hcompleted] at hm
    rw [hdrawn]
    exact h.completed threadId m hm
  streaming turn hturn threadId m hm := by
    obtain ⟨turn', hturn', hids⟩ := hstreaming turn hturn
    rw [hcompleted] at hm
    rw [hids]
    exact h.streaming turn' hturn' threadId m hm

theorem IdsSound.rendered (h : IdsSound s') : IdsSound (Tab.rendered s s') := by
  obtain ⟨rs, heq, hheaders, -⟩ := rendered_eq s s'
  rw [heq]
  refine h.of_sublist ?_ rfl rfl rfl fun turn hturn => ⟨turn, hturn, rfl⟩
  simp only [Tab.onTheWay, List.filterMap_append, hheaders.messageIds, List.append_nil]
  exact List.Sublist.refl _

/-- A step of the tab alone that starts no turn. -/
theorem TabOnly.step (h : TabOnly s s') (hs : Sound env s) (hdrawn : s'.drawn = s.drawn)
    (hstreaming : ∀ turn ∈ s'.streaming, ∃ turn' ∈ s.streaming,
      turn.threadId = turn'.threadId ∧ turn.messageIds = turn'.messageIds) :
    Sound env s' ∧ (Kept env s' ↔ Kept env s ∧ True) := by
  obtain ⟨rs, hsent, hheaders, -⟩ := h.sent
  have hway : s'.onTheWay.Sublist s.onTheWay := by
    rw [Tab.onTheWay, Tab.onTheWay, hsent, List.filterMap_append, hheaders.messageIds, List.append_nil, h.timer]
    refine List.Sublist.append_left (List.Sublist.append_left ?_ _) _
    cases hturn : s'.streaming with
    | none => exact List.nil_sublist _
    | some turn =>
      obtain ⟨turn', hturn', -, hids⟩ := hstreaming turn hturn
      rw [Option.mem_def.mp hturn', Option.map_some, Option.map_some, hids]
  have hids : s'.messageIds = s.messageIds := by rw [Tab.messageIds, Tab.messageIds, h.server]
  rw [and_true]
  refine ⟨h.sound hs (fun turn hturn => ?_) (hs.messages.of_sublist hway hids hdrawn h.completed fun turn hturn => ?_),
    h.kept_iff hs⟩
  · obtain ⟨turn', hturn', hthread, -⟩ := hstreaming turn hturn
    rw [hthread]
    exact h.known _ (hs.streaming turn' hturn')
  · obtain ⟨turn', hturn', -, hids⟩ := hstreaming turn hturn
    exact ⟨turn', hturn', hids⟩

theorem cancelStream_tabOnly (s : Tab) : TabOnly s s.cancelStream ∧ s.cancelStream.streaming = none := by
  rw [Tab.cancelStream]
  cases hturn : s.streaming with
  | none => exact ⟨.of_ids rfl rfl rfl rfl rfl rfl, hturn⟩
  | some turn => exact ⟨.of_ids rfl rfl rfl rfl rfl (ids_mapThread _ _ fun _ => rfl), rfl⟩

/-! ## The steps one by one -/

theorem cancelStream_drawn (s : Tab) : s.cancelStream.drawn = s.drawn ∧ s.cancelStream.inFlight = s.inFlight := by
  rw [Tab.cancelStream]
  cases s.streaming <;> exact ⟨rfl, rfl⟩

theorem newThread_tabOnly {id model : String} {createdAt : Nat} (hnew : s.newId id = true) :
    TabOnly s ((registerServerThread id model "New chat" s.cancelStream).dispatch (.newThread id model createdAt)) := by
  obtain ⟨hcancel, -⟩ := cancelStream_tabOnly s
  obtain ⟨-, hinFlight⟩ := cancelStream_drawn s
  have hids : s.cancelStream.ids = s.ids := by
    rw [Tab.cancelStream]
    cases s.streaming with
    | none => rfl
    | some turn => exact ids_mapThread _ _ fun _ => rfl
  have hids' : Tab.ids ((registerServerThread id model "New chat" s.cancelStream).dispatch
      (.newThread id model createdAt)) = id :: s.ids := by
    rw [← hids]
    rfl
  refine ⟨hcancel.server, hcancel.createdAt, hcancel.timer, hcancel.completed, ⟨[.upsert id "New chat" model], ?_,
    fun r hr => ⟨id, "New chat", model, List.mem_singleton.mp hr⟩, fun r hr => ?_⟩, fun other hother => ?_,
    fun other hother => ?_⟩
  · rw [← hinFlight]
    rfl
  · rw [hids', List.mem_singleton.mp hr]
    exact List.mem_cons_self
  · rw [hids']
    exact List.mem_cons_of_mem id hother
  · rw [hids'] at hother
    rcases List.mem_cons.mp hother with rfl | hold
    · exact Or.inr ⟨hnew, "New chat", model, List.mem_append_right _ List.mem_cons_self⟩
    · exact Or.inl hold

theorem selectThread_tabOnly (s : Tab) (id : String) : TabOnly s (s.cancelStream.dispatch (.selectThread id)) := by
  obtain ⟨hcancel, -⟩ := cancelStream_tabOnly s
  have hids : Tab.ids (s.cancelStream.dispatch (.selectThread id)) = s.ids := by
    have hselect : Tab.ids (s.cancelStream.dispatch (.selectThread id)) = s.cancelStream.ids := by
      simp only [Tab.ids, Tab.dispatch, threadReducer]
      split <;> rfl
    rw [hselect, Tab.cancelStream]
    cases s.streaming with
    | none => rfl
    | some turn => exact ids_mapThread _ _ fun _ => rfl
  obtain ⟨-, hinFlight⟩ := cancelStream_drawn s
  exact .of_ids hcancel.server hcancel.createdAt hcancel.timer hcancel.completed hinFlight hids

theorem submitted_tabOnly (thread : ChatThread) (text user assistant : String) (created : Nat) :
    TabOnly s (s.submitted thread text user assistant created) := by
  have hids : (s.submitted thread text user assistant created).ids = s.ids := by
    have hbegin : (s.submitted thread text user assistant created).ids =
        (threadReducer s.state (.appendUser thread.id user text created)).ids := ids_mapThread _ _ fun _ => rfl
    rw [hbegin]
    exact ids_mapThread _ _ fun _ => rfl
  exact .of_ids rfl rfl rfl rfl rfl hids

/-- Of the two messages of a new turn. -/
theorem IdsSound.submitted (h : IdsSound s) {thread : ChatThread} {text user assistant : String} {created : Nat}
    (hidle : s.streaming = none) (hdistinct : [user, assistant].Nodup)
    (hnew : ∀ id ∈ [user, assistant], id ∉ s.drawn ∧ id ∉ s.messageIds) :
    IdsSound (s.submitted thread text user assistant created) := by
  have hway : (s.submitted thread text user assistant created).onTheWay = s.onTheWay ++ [user, assistant] := by
    simp [Tab.onTheWay, Tab.submitted, Tab.dispatch, Turn.messageIds, hidle]
  have hdrawn : ∀ id ∈ s.drawn, id ∈ (s.submitted thread text user assistant created).drawn := by
    intro id hid
    exact List.mem_cons_of_mem _ (List.mem_cons_of_mem _ hid)
  refine ⟨?_, ?_, ?_, ?_, ?_⟩
  · rw [hway]
    refine List.Nodup.append h.nodup hdistinct fun id hid hid' => (hnew id hid').1 (h.drawn id hid)
  · intro id hid
    rw [hway] at hid
    exact (List.mem_append.mp hid).elim (h.apart id) fun hid => (hnew id hid).2
  · intro id hid
    rw [hway] at hid
    rcases List.mem_append.mp hid with hold | hid
    · exact hdrawn id (h.drawn id hold)
    · rcases List.mem_cons.mp hid with rfl | hid
      · exact List.mem_cons_self
      · rw [List.mem_singleton.mp hid]
        exact List.mem_cons_of_mem _ List.mem_cons_self
  · intro threadId m hm
    exact hdrawn m.id (h.completed threadId m hm)
  · intro turn hturn threadId m hm hid
    cases hturn
    exact (hnew m.id hid).1 (h.completed threadId m hm)

section Finish

variable {turn : Turn}

theorem finished_ids (s : Tab) (turn : Turn) : (s.finished turn).ids = s.ids := ids_mapThread _ _ fun _ => rfl

theorem finished_pending (s : Tab) (turn : Turn) (threadId : String) : (s.finished turn).pending threadId =
    outstanding threadId s.inFlight ++ if turn.threadId = threadId then turn.messages else [] := rfl

theorem finished_completed (s : Tab) (turn : Turn) (threadId : String) : (s.finished turn).completed threadId =
    s.completed threadId ++ if turn.threadId = threadId then turn.messages else [] := by
  by_cases h : turn.threadId = threadId
  · subst h
    simp [Tab.finished]
  · simp [Tab.finished, h, Function.update_of_ne (Ne.symm h)]

/-- The two messages of the turn that ends are new. -/
theorem Sound.turn_new (hs : Sound env s) (hturn : turn ∈ s.streaming) :
    turn.messages.Nodup ∧ ∀ threadId, ∀ x ∈ turn.messages, x ∉ s.completed threadId ∧ x ∉ s.served env threadId := by
  have hway : s.onTheWay = s.inFlight.filterMap Request.messageId ++
      ((s.timer.map TurnSync.messageIds).getD [] ++ turn.messageIds) := by
    rw [Tab.onTheWay, hturn]
    rfl
  have hmem : ∀ x ∈ turn.messages, x.id ∈ turn.messageIds := by
    intro x hx
    simp only [Turn.messages, List.mem_cons, List.not_mem_nil, or_false] at hx
    rcases hx with rfl | rfl
    · exact List.mem_cons_self
    · exact List.mem_cons_of_mem _ List.mem_cons_self
  refine ⟨?_, fun threadId x hx => ⟨fun hcompleted => ?_, fun hserved => ?_⟩⟩
  · have hnodup := hs.messages.nodup
    rw [hway] at hnodup
    have hids : (turn.messages.map SentMessage.id).Nodup :=
      (List.nodup_append.mp (List.nodup_append.mp hnodup).2.1).2.1
    exact hids.of_map _
  · exact hs.messages.streaming turn hturn threadId x hcompleted (hmem x hx)
  · obtain ⟨row, hrow, rfl⟩ := List.mem_map.mp hserved
    refine hs.messages.apart row.messageId ?_ (List.mem_map_of_mem (List.mem_filter.mp hrow).1)
    rw [hway]
    exact List.mem_append_right _ (List.mem_append_right _ (hmem _ hx))

/-- The transcripts stay in step exactly if no other turn waits for the timer. -/
theorem finished_kept_iff (hs : Sound env s) (hturn : turn ∈ s.streaming) :
    Kept env (s.finished turn) ↔ Kept env s ∧ s.timer = none := by
  have hids := finished_ids s turn
  have hrows : ∀ threadId, (s.finished turn).rows env threadId = s.rows env threadId := fun _ => rfl
  cases htimer : s.timer with
  | none =>
    have hpending : ∀ threadId, s.pending threadId = outstanding threadId s.inFlight := by
      intro threadId
      rw [Tab.pending, Tab.timed, htimer]
      exact List.append_nil _
    rw [and_iff_left rfl]
    have hiff : ∀ threadId, KeptAt env threadId (s.finished turn) ↔ KeptAt env threadId s := by
      intro threadId
      rw [KeptAt, KeptAt, finished_pending, finished_completed, hpending]
      exact and_congr_left fun _ => Delivery.write
    rw [Kept, hids]
    exact forall₂_congr fun threadId _ => hiff threadId
  | some p =>
    refine iff_of_false (fun h => ?_) fun h => Option.some_ne_none p h.2
    -- the messages that waited are never sent
    obtain ⟨hmem, hsome⟩ := hs.timer p htimer
    have hdelivery := (hs.threads p.threadId hmem).delivery
    have hpending : s.pending p.threadId = outstanding p.threadId s.inFlight ++ p.messages := by
      rw [Tab.pending, Tab.timed, htimer, Option.map_some, Option.getD_some, TurnSync.messagesFor, if_pos rfl]
    rw [hpending] at hdelivery
    have hkept := (h p.threadId (by rw [hids]; exact hmem)).1
    rw [finished_pending, finished_completed] at hkept
    exact Delivery.overwrite hdelivery hsome hkept

theorem Sound.finished (hs : Sound env s) (hturn : turn ∈ s.streaming) : Sound env (s.finished turn) := by
  have hids := finished_ids s turn
  have hthread : turn.threadId ∈ s.ids := hs.streaming turn hturn
  obtain ⟨hnodup, hnew⟩ := hs.turn_new hturn
  refine ⟨hs.saved, hs.aborted, ?_, ?_, nofun, ?_, ?_, ?_⟩
  · rw [hids]
    exact hs.requests
  · intro p hp
    cases hp
    rw [hids]
    exact ⟨hthread, List.cons_ne_nil _ _⟩
  · intro threadId hid
    rw [hids] at hid
    have hother : turn.threadId ≠ threadId := fun heq => hid (heq ▸ hthread)
    rw [finished_completed, hs.unknown threadId hid, if_neg hother]
    rfl
  · intro threadId hid
    rw [hids] at hid
    have ht := hs.threads threadId hid
    refine ⟨ht.unpurged, ht.owner, ht.registered, ?_, ht.sorted, ht.clock⟩
    have hserved : (s.finished turn).served env threadId = s.served env threadId := rfl
    rw [finished_pending, finished_completed, hserved]
    have hout : Delivery.Sound (s.completed threadId) (s.served env threadId) (outstanding threadId s.inFlight) :=
      ht.delivery.drop (List.sublist_append_left _ _)
    split
    · exact hout.write hnodup fun x hx => hnew threadId x hx
    · simpa only [List.append_nil] using hout
  · have hway : s.onTheWay = s.inFlight.filterMap Request.messageId ++
        ((s.timer.map TurnSync.messageIds).getD [] ++ turn.messageIds) := by
      rw [Tab.onTheWay, hturn]
      rfl
    have hway' : (s.finished turn).onTheWay = s.inFlight.filterMap Request.messageId ++ turn.messageIds :=
      congrArg (_ ++ ·) (List.append_nil _)
    have hsub : (s.finished turn).onTheWay.Sublist s.onTheWay := by
      rw [hway, hway']
      exact List.Sublist.append_left (List.sublist_append_right _ _) _
    have hm := hs.messages
    refine ⟨hm.nodup.sublist hsub, fun id hid => hm.apart id (hsub.subset hid), fun id hid => hm.drawn id (hsub.subset hid),
      fun threadId m hmem => ?_, nofun⟩
    rw [finished_completed, List.mem_append] at hmem
    rcases hmem with hold | hlast
    · exact hm.completed threadId m hold
    · split at hlast
      · refine hm.drawn m.id (hsub.subset ?_)
        rw [hway']
        refine List.mem_append_right _ ?_
        simp only [Turn.messages, List.mem_cons, List.not_mem_nil, or_false] at hlast
        rcases hlast with rfl | rfl
        · exact List.mem_cons_self
        · exact List.mem_cons_of_mem _ List.mem_cons_self
      · cases hlast

end Finish

section Fire

variable {p : TurnSync}

theorem fire_same (htimer : s.timer = some p) (threadId : String) :
    SameFor env threadId s { s with inFlight := s.inFlight ++ p.requests, timer := none } where
  rows := rfl
  pending := by
    have htimed : s.timed threadId = p.messagesFor threadId := by
      rw [Tab.timed, htimer]
      rfl
    have hnone : Tab.timed { s with inFlight := s.inFlight ++ p.requests, timer := none } threadId = [] := rfl
    rw [Tab.pending, Tab.pending, hnone, htimed, outstanding_append, outstanding_requests, List.append_nil]
  completed := rfl
  createdAt _ _ := rfl

theorem Sound.fire (hs : Sound env s) (htimer : s.timer = some p) :
    Sound env { s with inFlight := s.inFlight ++ p.requests, timer := none } := by
  refine ⟨hs.saved, hs.aborted, ?_, nofun, hs.streaming, hs.unknown, ?_, ?_⟩
  · intro r hr
    rcases List.mem_append.mp hr with hold | hnew
    · exact hs.requests r hold
    · obtain ⟨m, -, rfl⟩ := List.mem_map.mp hnew
      exact (hs.timer p htimer).1
  · intro threadId hid
    have ht := hs.threads threadId hid
    refine ht.of_same (fire_same htimer threadId) ht.unpurged ht.owner ?_ (Nat.le_refl _)
    refine ht.registered.imp_right fun hupsert => ?_
    obtain ⟨title, model, hmem⟩ := hupsert
    exact ⟨title, model, List.mem_append_left _ hmem⟩
  · have hway : Tab.onTheWay { s with inFlight := s.inFlight ++ p.requests, timer := none } = s.onTheWay := by
      simp [Tab.onTheWay, htimer, messageIds_requests]
    refine hs.messages.of_sublist ?_ rfl rfl rfl fun turn hturn => ⟨turn, hturn, rfl⟩
    rw [hway]

end Fire

/-! ## Arrivals -/

section Arrivals

variable {i now : Nat} {r : Request}

/-- The tab after the arrival of the `i`-th request in flight. -/
def Tab.arrived (env : TabEnv) (i now : Nat) (r : Request) (s : Tab) : Tab :=
  { s.serve env now r with inFlight := s.inFlight.eraseIdx i }

theorem inFlight_split (h : s.inFlight[i]? = some r) : s.inFlight = s.inFlight.take i ++ r :: s.inFlight.drop (i + 1) ∧
    s.inFlight.eraseIdx i = s.inFlight.take i ++ s.inFlight.drop (i + 1) := by
  obtain ⟨hi, hr⟩ := List.getElem?_eq_some_iff.mp h
  refine ⟨?_, List.eraseIdx_eq_take_drop_succ _ _⟩
  rw [← hr, List.getElem_cons_drop, List.take_append_drop]

theorem createdAt_arrived {row : WebMessageRow} (hrow : row ∈ s.rows env threadId) :
    (s.arrived env i now r).createdAt row.messageId = s.createdAt row.messageId := by
  have hmem : s.messageIds.contains row.messageId = true :=
    List.contains_iff_mem.mpr (List.mem_map_of_mem (List.mem_filter.mp hrow).1)
  exact if_pos hmem

/-- What an arrival of a header changes. -/
theorem arrived_upsert (i now : Nat) (title model : String) {id : String} (hs : Sound env s) (hid : id ∈ s.ids) :
    (s.arrived env i now (.upsert id title model)).server = s.server.setTables
      (ConversationTables.upsertHeader (headerRow ⟨env.userId, id⟩ title model) { s.server.tables with now := now }) := by
  have ht := hs.threads id hid
  exact after_upsert (ConversationStore.at now s.server) title model hs.aborted ht.unpurged ht.owner

theorem arrived_refused {id model : String} {m : SentMessage} (hs : Sound env s) (hid : id ∈ s.ids)
    (hheader : s.hasHeader env id = false) :
    (s.arrived env i now (.append id model m)).server = ConversationStore.at now s.server :=
  after_append_missing (ConversationStore.at now s.server) _ hs.aborted (hs.threads id hid).unpurged hheader

theorem arrived_append (i now : Nat) (model : String) {id : String} {m : SentMessage} (hs : Sound env s) (hid : id ∈ s.ids)
    (hheader : s.hasHeader env id = true) (hnew : m.id ∉ s.messageIds) :
    (s.arrived env i now (.append id model m)).server = s.server.setTables { s.server.tables with
      now := now
      webMessages := s.server.tables.webMessages ++ [messageRow ⟨env.userId, id⟩ (m.body model)] } :=
  after_append (ConversationStore.at now s.server) hs.aborted (hs.threads id hid).unpurged hheader rfl hnew

/-- The thread's pending messages around the request, and what is left of them. -/
theorem pending_arrived (env : TabEnv) (now : Nat) (threadId : String) (h : s.inFlight[i]? = some r) :
    s.pending threadId = outstanding threadId (s.inFlight.take i) ++ (outstanding threadId [r] ++
      (outstanding threadId (s.inFlight.drop (i + 1)) ++ s.timed threadId)) ∧
    (s.arrived env i now r).pending threadId = outstanding threadId (s.inFlight.take i) ++
      (outstanding threadId (s.inFlight.drop (i + 1)) ++ s.timed threadId) := by
  obtain ⟨hsplit, herase⟩ := inFlight_split h
  constructor
  · have hflight : outstanding threadId s.inFlight = outstanding threadId (s.inFlight.take i) ++
        (outstanding threadId [r] ++ outstanding threadId (s.inFlight.drop (i + 1))) := by
      rw [← outstanding_append, ← outstanding_append, List.singleton_append, ← hsplit]
    rw [Tab.pending, hflight, List.append_assoc, List.append_assoc]
  · have hflight : outstanding threadId (s.inFlight.eraseIdx i) = outstanding threadId (s.inFlight.take i) ++
        outstanding threadId (s.inFlight.drop (i + 1)) := by
      rw [herase, outstanding_append]
    show outstanding threadId (s.inFlight.eraseIdx i) ++ s.timed threadId = _
    rw [hflight, List.append_assoc]

theorem outstanding_append_same (id model : String) (m : SentMessage) : outstanding id [.append id model m] = [m] := by
  simp [outstanding, Request.messageFor]

/-- A thread for which the request brings no message. -/
theorem arrived_same (h : s.inFlight[i]? = some r) (hnone : outstanding threadId [r] = [])
    (hrows : (s.arrived env i now r).rows env threadId = s.rows env threadId) :
    SameFor env threadId s (s.arrived env i now r) where
  rows := hrows
  pending := by
    obtain ⟨hbefore, hafter⟩ := pending_arrived env now threadId h
    rw [hbefore, hafter, hnone, List.nil_append]
  completed := rfl
  createdAt _ hrow := createdAt_arrived hrow

theorem IdsSound.arrived (hs : IdsSound s) (h : s.inFlight[i]? = some r)
    (hmessages : ∀ id ∈ (s.arrived env i now r).messageIds, id ∈ s.messageIds ∨ r.messageId = some id) :
    IdsSound (s.arrived env i now r) := by
  obtain ⟨hsplit, herase⟩ := inFlight_split h
  have hsub : (s.arrived env i now r).onTheWay.Sublist s.onTheWay :=
    List.Sublist.append_right ((List.eraseIdx_sublist _ _).filterMap _) _
  refine ⟨hs.nodup.sublist hsub, fun id hid hmem => ?_, fun id hid => hs.drawn id (hsub.subset hid), hs.completed,
    hs.streaming⟩
  rcases hmessages id hmem with hold | hnew
  · exact hs.apart id (hsub.subset hid) hold
  · -- the message that arrives is on its way once
    have hflight : s.inFlight.filterMap Request.messageId =
        (s.inFlight.take i).filterMap Request.messageId ++ id :: (s.inFlight.drop (i + 1)).filterMap Request.messageId := by
      conv_lhs => rw [hsplit]
      rw [List.filterMap_append, List.filterMap_cons, hnew]
    have hnodup := hs.nodup
    rw [Tab.onTheWay, hflight, List.append_assoc, List.cons_append] at hnodup
    have hperm := (List.perm_middle (a := id)).nodup_iff.mp hnodup
    refine (List.nodup_cons.mp hperm).1 ?_
    have hway : (s.arrived env i now r).onTheWay = (s.inFlight.eraseIdx i).filterMap Request.messageId ++
      ((s.timer.map TurnSync.messageIds).getD [] ++ (s.streaming.map Turn.messageIds).getD []) := rfl
    rw [hway, herase, List.filterMap_append, List.append_assoc] at hid
    exact hid

theorem registered_erase {title model : String} (h : s.inFlight[i]? = some r)
    (hmem : Request.upsert threadId title model ∈ s.inFlight) (hne : r ≠ .upsert threadId title model) :
    Request.upsert threadId title model ∈ s.inFlight.eraseIdx i := by
  obtain ⟨hsplit, herase⟩ := inFlight_split h
  rw [hsplit] at hmem
  rw [herase]
  rcases List.mem_append.mp hmem with hbefore | hmem
  · exact List.mem_append_left _ hbefore
  · rcases List.mem_cons.mp hmem with heq | hafter
    · exact absurd heq.symm hne
    · exact List.mem_append_right _ hafter

theorem any_isHeader_upsertHeader {k : ConversationKey} (tables : ConversationTables) (row : WebConversationRow)
    (h : tables.webConversations.any k.isHeader = true) :
    (tables.upsertHeader row).webConversations.any k.isHeader = true := by
  obtain ⟨header, hheader, hk⟩ := List.any_eq_true.mp h
  obtain ⟨x, hx, hid, huser⟩ := upsertHeader_keeps row hheader
  refine List.any_eq_true.mpr ⟨x, hx, ?_⟩
  rw [ConversationKey.isHeader, hid, huser]
  exact hk

/-- A header that is nobody else's is there once it is upserted. -/
theorem any_isHeader_headerRow {k : ConversationKey} (tables : ConversationTables) (title model : String)
    (ho : OwnHeader k tables) : (tables.upsertHeader (headerRow k title model)).webConversations.any k.isHeader = true := by
  have hid : (headerRow k title model).conversationId = k.sessionId := rfl
  cases h : tables.webConversations.any (·.conversationId == k.sessionId) with
  | true =>
    obtain ⟨header, hheader, hsame⟩ := List.any_eq_true.mp h
    have huser : header.userId = k.userId := ho header hheader (by simpa using hsame)
    refine any_isHeader_upsertHeader _ _ (List.any_eq_true.mpr ⟨header, hheader, ?_⟩)
    rw [ConversationKey.isHeader, hsame, huser, beq_self_eq_true, Bool.and_self]
  | false =>
    rw [ConversationTables.upsertHeader, hid, h]
    simp [ConversationKey.isHeader, headerRow]

theorem registered_arrived (now : Nat) (ht : ThreadSound env threadId s) (h : s.inFlight[i]? = some r)
    (hheader : s.hasHeader env threadId = true → (s.arrived env i now r).hasHeader env threadId = true)
    (hupsert : ∀ title model, r = .upsert threadId title model →
      (s.arrived env i now r).hasHeader env threadId = true) :
    (s.arrived env i now r).hasHeader env threadId = true ∨
      ∃ title model, .upsert threadId title model ∈ (s.arrived env i now r).inFlight := by
  rcases ht.registered with hold | ⟨title, model, hmem⟩
  · exact Or.inl (hheader hold)
  · by_cases hr : r = .upsert threadId title model
    · exact Or.inl (hupsert title model hr)
    · exact Or.inr ⟨title, model, registered_erase h hmem hr⟩

theorem Sound.arrived_of (hs : Sound env s) (h : s.inFlight[i]? = some r) {tables : ConversationTables}
    (hserver : (s.arrived env i now r).server = s.server.setTables tables)
    (hmessages : ∀ id ∈ tables.webMessages.map WebMessageRow.messageId, id ∈ s.messageIds ∨ r.messageId = some id)
    (hthreads : ∀ threadId ∈ s.ids, ThreadSound env threadId (s.arrived env i now r)) :
    Sound env (s.arrived env i now r) where
  saved := by rw [hserver]; exact hs.saved
  aborted := by rw [hserver]; exact hs.aborted
  requests r' hr' := hs.requests r' ((List.eraseIdx_sublist _ _).subset hr')
  timer := hs.timer
  streaming := hs.streaming
  unknown := hs.unknown
  threads := hthreads
  messages := hs.messages.arrived h (by rw [Tab.messageIds, hserver]; exact hmessages)

section Upsert

variable {id title model : String}

theorem arrived_upsert_same (hs : Sound env s) (h : s.inFlight[i]? = some (.upsert id title model))
    (threadId : String) : SameFor env threadId s (s.arrived env i now (.upsert id title model)) := by
  have hid : id ∈ s.ids := hs.requests _ (List.mem_of_getElem? h)
  refine arrived_same h rfl ?_
  rw [Tab.rows, Tab.rows, arrived_upsert i now title model hs hid]
  rfl

theorem Sound.arrived_upsert (hs : Sound env s) (h : s.inFlight[i]? = some (.upsert id title model))
    (hnow : s.server.tables.now ≤ now) : Sound env (s.arrived env i now (.upsert id title model)) := by
  have hid : id ∈ s.ids := hs.requests _ (List.mem_of_getElem? h)
  have hserver := TranscriptSync.arrived_upsert i now title model hs hid
  refine hs.arrived_of h hserver (fun _ hold => Or.inl hold) fun threadId hthread => ?_
  have ht := hs.threads threadId hthread
  have howner : OwnHeader ⟨env.userId, threadId⟩ ((s.arrived env i now (.upsert id title model)).server.tables) := by
    rw [hserver]
    exact OwnHeader.upsertHeader (t := { s.server.tables with now := now }) ht.owner rfl
  refine ht.of_same (arrived_upsert_same hs h threadId) ?_ howner (registered_arrived now ht h ?_ ?_) ?_
  · rw [hserver]
    exact ht.unpurged
  · intro hheader
    rw [Tab.hasHeader, hserver]
    exact any_isHeader_upsertHeader { s.server.tables with now := now } _ hheader
  · intro title' model' heq
    obtain ⟨rfl, rfl, rfl⟩ := Request.upsert.inj heq
    rw [Tab.hasHeader, hserver]
    exact any_isHeader_headerRow { s.server.tables with now := now } _ _ ht.owner
  · rw [hserver]
    exact hnow

end Upsert

section Append

variable {id model : String} {m : SentMessage}

/-- The request brings other threads nothing. -/
theorem outstanding_other (hother : threadId ≠ id) : outstanding threadId [.append id model m] = [] :=
  outstanding_of_ne fun r hr => by
    rw [List.mem_singleton.mp hr]
    exact hother.symm

/-- A request that finds no header is refused, and its message is lost. -/
theorem Sound.arrived_refused (hs : Sound env s) (h : s.inFlight[i]? = some (.append id model m))
    (hheader : s.hasHeader env id = false) (hnow : s.server.tables.now ≤ now) :
    Sound env (s.arrived env i now (.append id model m)) ∧ ¬ Kept env (s.arrived env i now (.append id model m)) := by
  have hid : id ∈ s.ids := hs.requests _ (List.mem_of_getElem? h)
  have hserver : (s.arrived env i now (.append id model m)).server = ConversationStore.at now s.server :=
    TranscriptSync.arrived_refused hs hid hheader
  have hrows : ∀ threadId, (s.arrived env i now (.append id model m)).rows env threadId = s.rows env threadId := by
    intro threadId
    rw [Tab.rows, Tab.rows, hserver]
    rfl
  obtain ⟨hbefore, hafter⟩ := pending_arrived env now id h
  rw [outstanding_append_same, List.singleton_append] at hbefore
  have hdelivery := (hs.threads id hid).delivery
  rw [hbefore] at hdelivery
  refine ⟨?_, fun hkept => ?_⟩
  · refine hs.arrived_of h hserver (fun _ hold => Or.inl hold) fun threadId hthread => ?_
    have ht := hs.threads threadId hthread
    have hregistered := registered_arrived now ht h (fun hheader => by rw [Tab.hasHeader, hserver]; exact hheader)
      nofun
    by_cases heq : threadId = id
    · subst heq
      refine ⟨by rw [hserver]; exact ht.unpurged, by rw [hserver]; exact ht.owner, hregistered, ?_, ?_, ?_⟩
      · rw [Tab.served, hrows, hafter]
        exact hdelivery.drop (List.Sublist.append_left (List.sublist_cons_self _ _) _)
      · rw [hrows]
        refine (List.Pairwise.iff_of_mem fun {a b} ha hb => ?_).mpr ht.sorted
        rw [createdAt_arrived ha, createdAt_arrived hb]
      · intro row hrow
        rw [hrows] at hrow
        rw [createdAt_arrived hrow, hserver]
        exact (ht.clock row hrow).trans hnow
    · refine ht.of_same (arrived_same h (outstanding_other heq) (hrows threadId)) (by rw [hserver]; exact ht.unpurged)
        (by rw [hserver]; exact ht.owner) hregistered (by rw [hserver]; exact hnow)
  · have hstep := (hkept id hid).1
    rw [Tab.served, hrows, hafter] at hstep
    exact Delivery.lose hdelivery hstep

/-- A new message stands behind the others of its thread, and was created now. -/
theorem arrived_served (now : Nat) (hs : Sound env s) (h : s.inFlight[i]? = some (.append id model m))
    (hheader : s.hasHeader env id = true) :
    (s.arrived env i now (.append id model m)).rows env id =
        s.rows env id ++ [messageRow ⟨env.userId, id⟩ (m.body model)] ∧
      (∀ other, other ≠ id → (s.arrived env i now (.append id model m)).rows env other = s.rows env other) ∧
      (s.arrived env i now (.append id model m)).createdAt m.id = now ∧ m.id ∉ s.messageIds := by
  have hid : id ∈ s.ids := hs.requests _ (List.mem_of_getElem? h)
  have hnew : m.id ∉ s.messageIds := by
    refine hs.messages.apart m.id (List.mem_append_left _ (List.mem_filterMap.mpr ?_))
    exact ⟨_, List.mem_of_getElem? h, rfl⟩
  have hserver := TranscriptSync.arrived_append i now model hs hid hheader hnew
  refine ⟨?_, fun other hother => ?_, ?_, hnew⟩
  · have hmine : ConversationKey.isMessage ⟨env.userId, id⟩ (messageRow ⟨env.userId, id⟩ (m.body model)) = true := by
      simp [ConversationKey.isMessage, messageRow]
    have hrows : (s.arrived env i now (.append id model m)).rows env id =
        (s.server.tables.webMessages ++ [messageRow ⟨env.userId, id⟩ (m.body model)]).filter
          (ConversationKey.isMessage ⟨env.userId, id⟩) := by
      rw [Tab.rows, hserver]
      rfl
    rw [hrows, List.filter_append, List.filter_cons_of_pos hmine]
    rfl
  · have hnone : ConversationKey.isMessage ⟨env.userId, other⟩ (messageRow ⟨env.userId, id⟩ (m.body model)) = false := by
      simp [ConversationKey.isMessage, messageRow, hother.symm]
    have hrows : (s.arrived env i now (.append id model m)).rows env other =
        (s.server.tables.webMessages ++ [messageRow ⟨env.userId, id⟩ (m.body model)]).filter
          (ConversationKey.isMessage ⟨env.userId, other⟩) := by
      rw [Tab.rows, hserver]
      rfl
    rw [hrows, List.filter_append, List.filter_cons_of_neg (by simp [hnone])]
    exact List.append_nil _
  · have hcontains : s.messageIds.contains m.id = false := by simpa using hnew
    show (if s.messageIds.contains m.id then s.createdAt m.id else now) = now
    rw [hcontains]
    rfl

theorem Sound.arrived_append (hs : Sound env s) (h : s.inFlight[i]? = some (.append id model m))
    (hheader : s.hasHeader env id = true) (hnow : s.server.tables.now ≤ now) :
    Sound env (s.arrived env i now (.append id model m)) := by
  have hid : id ∈ s.ids := hs.requests _ (List.mem_of_getElem? h)
  obtain ⟨hrows, hothers, hcreated, hnew⟩ := arrived_served now hs h hheader
  have hserver := TranscriptSync.arrived_append i now model hs hid hheader hnew
  refine hs.arrived_of h hserver (fun x hx => ?_) fun threadId hthread => ?_
  · rw [List.map_append, List.mem_append] at hx
    exact hx.imp_right fun hlast => congrArg some (List.mem_singleton.mp hlast).symm
  · have ht := hs.threads threadId hthread
    have hregistered := registered_arrived now ht h (fun hheader => by rw [Tab.hasHeader, hserver]; exact hheader)
      nofun
    by_cases heq : threadId = id
    · subst heq
      have hclock : ∀ row ∈ s.rows env threadId,
          (s.arrived env i now (.append threadId model m)).createdAt row.messageId ≤ now := by
        intro row hrow
        rw [createdAt_arrived hrow]
        exact (ht.clock row hrow).trans hnow
      refine ⟨by rw [hserver]; exact ht.unpurged, by rw [hserver]; exact ht.owner, hregistered, ?_, ?_, ?_⟩
      · obtain ⟨hbefore, hafter⟩ := pending_arrived env now threadId h
        rw [outstanding_append_same, List.singleton_append] at hbefore
        have hdelivery := ht.delivery
        rw [hbefore] at hdelivery
        rw [Tab.served, hrows, hafter, List.map_append]
        exact hdelivery.deliver
      · rw [hrows, List.pairwise_append]
        refine ⟨(List.Pairwise.iff_of_mem fun {a b} ha hb => ?_).mpr ht.sorted, List.pairwise_singleton _ _, ?_⟩
        · rw [createdAt_arrived ha, createdAt_arrived hb]
        · intro row hrow last hlast
          rw [List.mem_singleton.mp hlast]
          exact (hclock row hrow).trans hcreated.ge
      · intro row hrow
        rw [hserver]
        rw [hrows, List.mem_append] at hrow
        rcases hrow with hold | hlast
        · exact hclock row hold
        · rw [List.mem_singleton.mp hlast]
          exact hcreated.le
    · refine ht.of_same (arrived_same h (outstanding_other heq) (hothers threadId heq)) (by rw [hserver]; exact ht.unpurged)
        (by rw [hserver]; exact ht.owner) hregistered (by rw [hserver]; exact hnow)

/-- A message that arrives at its header keeps the transcript in step exactly if it is the oldest one in flight
and later than the others there. -/
theorem arrived_append_kept_iff (hs : Sound env s) (h : s.inFlight[i]? = some (.append id model m))
    (hheader : s.hasHeader env id = true) :
    Kept env (s.arrived env i now (.append id model m)) ↔ Kept env s ∧ Delivers env i now s (.append id model m) := by
  have hid : id ∈ s.ids := hs.requests _ (List.mem_of_getElem? h)
  obtain ⟨hrows, hothers, hcreated, -⟩ := arrived_served now hs h hheader
  obtain ⟨hbefore, hafter⟩ := pending_arrived env now id h
  rw [outstanding_append_same, List.singleton_append] at hbefore
  have hdelivery := (hs.threads id hid).delivery
  rw [hbefore] at hdelivery
  refine kept_iff_of_one rfl hid ?_ fun other hmem hother =>
    arrived_same h (outstanding_other hother) (hothers other hother)
  have hsteps : Delivery.InStep ((s.arrived env i now (.append id model m)).completed id)
      ((s.arrived env i now (.append id model m)).served env id)
      ((s.arrived env i now (.append id model m)).pending id) ↔
      Delivery.InStep (s.completed id) (s.served env id) (s.pending id) ∧
        outstanding id (s.inFlight.take i) = [] := by
    rw [Tab.served, hrows, hafter, hbefore, List.map_append]
    exact Delivery.deliver hdelivery
  have htimes : ((s.arrived env i now (.append id model m)).rows env id).Pairwise (fun a b =>
        (s.arrived env i now (.append id model m)).createdAt a.messageId <
          (s.arrived env i now (.append id model m)).createdAt b.messageId) ↔
      ((s.rows env id).Pairwise fun a b => s.createdAt a.messageId < s.createdAt b.messageId) ∧
        ∀ row ∈ s.rows env id, s.createdAt row.messageId < now := by
    rw [hrows, List.pairwise_append, and_iff_right (List.pairwise_singleton _ _)]
    refine and_congr (List.Pairwise.iff_of_mem fun {a b} ha hb => ?_) ?_
    · rw [createdAt_arrived ha, createdAt_arrived hb]
    · refine forall₂_congr fun row hrow => ?_
      have hlast : ∀ last ∈ [messageRow ⟨env.userId, id⟩ (m.body model)], last.messageId = m.id := by
        intro last hmem
        rw [List.mem_singleton.mp hmem]
        rfl
      simp only [List.forall_mem_singleton, createdAt_arrived hrow, hlast _ List.mem_cons_self, hcreated]
  rw [KeptAt, hsteps, htimes, KeptAt, Delivers, and_iff_right hheader]
  tauto

end Append

/-- What an arrival keeps. -/
theorem Sound.arrive (hs : Sound env s) (h : s.inFlight[i]? = some r) (hnow : s.server.tables.now ≤ now) :
    Sound env (s.arrived env i now r) ∧ (Kept env (s.arrived env i now r) ↔ Kept env s ∧ Delivers env i now s r) := by
  cases r with
  | upsert id title model =>
    refine ⟨hs.arrived_upsert h hnow, ?_⟩
    rw [Delivers, and_true]
    exact forall₂_congr fun threadId _ => (arrived_upsert_same hs h threadId).keptAt_iff
  | append id model m =>
    cases hheader : s.hasHeader env id with
    | true => exact ⟨hs.arrived_append h hheader hnow, arrived_append_kept_iff hs h hheader⟩
    | false =>
      obtain ⟨hsound, hlost⟩ := hs.arrived_refused h hheader hnow
      refine ⟨hsound, iff_of_false hlost fun hboth => ?_⟩
      have htrue := hboth.2.1
      rw [hheader] at htrue
      cases htrue

end Arrivals

/-! ## Runs -/

theorem rendered_streaming (before s : Tab) :
    (Tab.rendered before s).streaming = s.streaming ∧ (Tab.rendered before s).drawn = s.drawn := by
  obtain ⟨rs, heq, -⟩ := rendered_eq before s
  rw [heq]
  exact ⟨rfl, rfl⟩

/-- A turn that fails leaves what is pending. -/
theorem Sound.failed {turn : Turn} (hs : Sound env s) (detail : String) :
    Sound env (s.failed turn detail) ∧ (Kept env (s.failed turn detail) ↔ Kept env s ∧ True) :=
  TabOnly.step (.of_ids rfl rfl rfl rfl rfl (ids_mapThread _ _ fun _ => rfl)) hs rfl nofun

theorem Sound.step {act : Act} (hs : Sound env s) (hstep : tabStep env act s = some s') :
    Sound env s' ∧ (Kept env s' ↔ Kept env s ∧ Keeps env act s) := by
  cases act with
  | newThread id createdAt =>
    rw [tabStep] at hstep
    split at hstep
    · rename_i hnew
      cases hstep
      refine (newThread_tabOnly hnew).rendered.step hs ?_ ?_
      · rw [(rendered_streaming _ _).2]
        exact (cancelStream_drawn s).1
      · rw [(rendered_streaming _ _).1]
        intro turn hturn
        exact absurd ((cancelStream_tabOnly s).2.symm.trans hturn) nofun
    · cases hstep
  | selectThread id =>
    cases hstep
    refine (selectThread_tabOnly s id).rendered.step hs ?_ ?_
    · rw [(rendered_streaming _ _).2]
      exact (cancelStream_drawn s).1
    · rw [(rendered_streaming _ _).1]
      intro turn hturn
      exact absurd ((cancelStream_tabOnly s).2.symm.trans hturn) nofun
  | setModel model =>
    obtain ⟨thread, -, rfl⟩ := Option.map_eq_some_iff.mp hstep
    have htab : TabOnly s (s.dispatch (.setModel thread.id model)) := .dispatch (ids_mapThread _ _ fun _ => rfl)
    refine htab.rendered.step hs (rendered_streaming _ _).2 ?_
    rw [(rendered_streaming _ _).1]
    exact fun turn hturn => ⟨turn, hturn, rfl, rfl⟩
  | stop =>
    cases hstep
    obtain ⟨htab, hover⟩ := cancelStream_tabOnly s
    refine htab.step hs (cancelStream_drawn s).1 ?_
    rw [hover]
    exact nofun
  | submit text user assistant created =>
    rw [tabStep] at hstep
    split at hstep
    · rename_i thread hactive hidle
      split at hstep
      · rename_i hnew
        cases hstep
        have htab : TabOnly s (Tab.rendered s (s.submitted thread text user assistant created)) :=
          (submitted_tabOnly thread text user assistant created).rendered
        refine ⟨htab.sound hs ?_ (hs.messages.submitted hidle hnew.2.1 hnew.2.2).rendered, ?_⟩
        · rw [(rendered_streaming _ _).1]
          intro turn hturn
          cases hturn
          exact htab.known _ (List.mem_map_of_mem (List.mem_of_find?_eq_some hactive))
        · show Kept env _ ↔ Kept env s ∧ True
          rw [and_true]
          exact htab.kept_iff hs
      · cases hstep
    · cases hstep
  | delta delta now =>
    obtain ⟨turn, hturn, rfl⟩ := Option.map_eq_some_iff.mp hstep
    refine TabOnly.step (.of_ids rfl rfl rfl rfl rfl (ids_mapThread _ _ fun _ => rfl)) hs rfl fun turn' hturn' => ?_
    cases hturn'
    exact ⟨turn, hturn, rfl, rfl⟩
  | finish =>
    obtain ⟨turn, hturn, rfl⟩ := Option.map_eq_some_iff.mp hstep
    have hkeeps : Keeps env .finish s ↔ (turn.sawDelta = true → s.timer = none) := by
      simp [Keeps, hturn]
    rw [hkeeps]
    by_cases hsaw : turn.sawDelta = true
    · rw [if_pos hsaw, forall_prop_of_true hsaw]
      exact ⟨hs.finished hturn, finished_kept_iff hs hturn⟩
    · rw [if_neg hsaw, forall_prop_of_false hsaw]
      exact hs.failed _
  | fail detail =>
    obtain ⟨turn, -, rfl⟩ := Option.map_eq_some_iff.mp hstep
    exact hs.failed detail
  | fire =>
    obtain ⟨p, htimer, rfl⟩ := Option.map_eq_some_iff.mp hstep
    refine ⟨hs.fire htimer, ?_⟩
    show Kept env _ ↔ Kept env s ∧ True
    rw [and_true]
    exact forall₂_congr fun threadId _ => (fire_same htimer threadId).keptAt_iff
  | arrive i now =>
    rw [tabStep] at hstep
    split at hstep
    · rename_i hnow
      obtain ⟨r, hr, rfl⟩ := Option.map_eq_some_iff.mp hstep
      have hkeeps : Keeps env (.arrive i now) s ↔ Delivers env i now s r := by
        simp [Keeps, hr]
      rw [hkeeps]
      exact hs.arrive hr hnow
    · cases hstep

/-- A tab that is opened is sound, and its transcripts are in step. -/
theorem Opened.sound (h : Opened env s) : Sound env s ∧ Kept env s := by
  obtain ⟨id, model, createdAt, hstate, hinFlight, hnew⟩ := h.thread
  have hids : s.ids = [id] := by
    rw [Tab.ids, hstate]
    rfl
  have hway : s.onTheWay = [] := by
    simp [Tab.onTheWay, hinFlight, h.timer, h.streaming, Request.messageId]
  -- the tab before its first thread is sound, and the thread is new to it
  let s₀ : Tab := { s with state := { threads := [], activeId := none }, inFlight := [] }
  have hs₀ : Sound env s₀ := by
    refine ⟨h.saved, h.aborted, nofun, ?_, ?_, fun _ _ => by rw [h.completed], nofun, ?_⟩
    · rw [h.timer]
      exact nofun
    · rw [h.streaming]
      exact nofun
    · have hway₀ : s₀.onTheWay = [] := by
        simp [s₀, Tab.onTheWay, h.timer, h.streaming]
      refine ⟨by rw [hway₀]; exact List.nodup_nil, by rw [hway₀]; exact nofun, by rw [hway₀]; exact nofun, ?_, ?_⟩
      · rw [h.completed]
        exact nofun
      · rw [h.streaming]
        exact nofun
  have htab : TabOnly s₀ s := by
    refine ⟨rfl, rfl, rfl, rfl, ⟨s.inFlight, rfl, ?_, ?_⟩, nofun, fun other hother => Or.inr ?_⟩
    · rw [hinFlight]
      intro r hr
      exact ⟨id, "New chat", model, List.mem_singleton.mp hr⟩
    · rw [hinFlight, hids]
      intro r hr
      rw [List.mem_singleton.mp hr]
      exact List.mem_cons_self
    · rw [hids] at hother
      rw [List.mem_singleton.mp hother, hinFlight]
      exact ⟨hnew, "New chat", model, List.mem_cons_self⟩
  have hstep := htab.step hs₀ rfl (fun turn hturn => ⟨turn, hturn, rfl, rfl⟩)
  exact ⟨hstep.1, hstep.2.mpr ⟨nofun, trivial⟩⟩

/-- A quiet tab's transcripts follow its turns exactly if they are in step. -/
theorem Quiet.follows_iff (h : Quiet s) (hs : Sound env s) : Follows env s ↔ Kept env s := by
  refine forall₂_congr fun threadId hthread => ?_
  have ht := hs.threads threadId hthread
  have hheader : s.hasHeader env threadId = true := by
    rcases ht.registered with hheader | ⟨title, model, hmem⟩
    · exact hheader
    · rw [h.2] at hmem
      cases hmem
  have hfound : s.found env threadId = true := by
    rw [Tab.found, Bool.or_eq_true]
    exact Or.inr hheader
  have hpending : s.pending threadId = [] := by
    rw [Tab.pending, Tab.timed, h.1, h.2]
    rfl
  have hnodup : (s.served env threadId).Nodup := (List.nodup_append.mp ht.delivery.once).1
  rw [and_iff_right hfound, KeptAt, hpending, Delivery.inStep_nil, eq_comm (a := s.completed threadId)]
  exact Delivery.readings_eq_iff ht.sorted hnodup

/-- In a run of the tab, and of no other tab, that leaves it quiet, the transcripts are the turns that were
completed exactly if all steps meet the condition. -/
theorem transcript_follows_iff {acts : List Act} {s₀ : Tab} (h₀ : Opened env s₀)
    (hrun : run (tabStep env) acts s₀ = some s) (hquiet : Quiet s) :
    Follows env s ↔ Admitted (tabStep env) (Keeps env) acts s₀ := by
  obtain ⟨hs₀, hkept₀⟩ := h₀.sound
  obtain ⟨hs, hkept⟩ := run_iff_admitted hrun hs₀ fun act s t hs hstep => hs.step hstep
  rw [hquiet.follows_iff hs, hkept]
  exact and_iff_right hkept₀

end Threads

namespace TabExample

def env : TabEnv := { userId := "alice", initialModel := "claude" }

def start : Tab :=
  { state := newTab "t1" "claude" 0, streaming := none, timer := none, inFlight := [.upsert "t1" "New chat" "claude"]
    server := ⟨⟨[], [], [], [], [], [], 0⟩, none, false, []⟩, createdAt := fun _ => 0, drawn := []
    completed := fun _ => [] }

/-- A turn; the header with the thread's title arrives last. -/
def turn : List Act :=
  [.arrive 0 1, .submit "Hello" "u1" "a1" 2, .delta "Hi" 3, .finish, .fire, .arrive 1 4, .arrive 1 5, .arrive 0 6]

end TabExample

open TabExample in
theorem transcript_follows_iff_turn : Follows env (runTo (tabStep env) turn start) ↔
    Admitted (tabStep env) (Keeps env) turn start := by
  have hopened : Opened env start :=
    ⟨⟨"t1", "claude", 0, rfl, rfl, by decide⟩, rfl, rfl, rfl, rfl, rfl⟩
  exact transcript_follows_iff hopened rfl ⟨rfl, rfl⟩

end Lumogis.TranscriptSync
