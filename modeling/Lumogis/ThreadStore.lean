import Lumogis.Lib.Labelled
import Lumogis.Lib.Words
import Mathlib.Data.List.Nodup

/-!
# ThreadStore

The threads of a tab of the web chat: `threadReducer` with all its actions, the title of a thread, and the
copy in `sessionStorage`, which keeps the first fifty threads.

In every run from the first render on, reloads of the tab included, a thread is active and no two threads
have the same id (`active_thread_remains`), if new threads get new ids. Whatever else is dispatched
meanwhile, a message's text is what it was, followed by the deltas that came for it, in their order
(`deltas_accumulate`).
-/

namespace Lumogis.ThreadStore

open Labelled

/-! ## Threads -/

inductive AssistantStatus where
  | streaming | complete | error | aborted
  deriving DecidableEq

inductive Role where
  | user | assistant | system
  deriving DecidableEq

structure ChatMessage where
  id : String
  role : Role
  content : String
  createdAt : Nat
  status : Option AssistantStatus := none
  errorDetail : Option String := none
  deriving DecidableEq

structure ChatThread where
  id : String
  title : String
  createdAt : Nat
  updatedAt : Nat
  model : String
  messages : List ChatMessage
  deriving DecidableEq

structure ThreadState where
  threads : List ChatThread
  activeId : Option String
  deriving DecidableEq

/-- A message of the wire, a role and a text. -/
abbrev ChatMessageDTO := Role × String

/-- `now` is what `Date.now()` answers. -/
inductive ThreadAction where
  | load (state : ThreadState)
  | newThread (id model : String) (createdAt : Nat)
  | selectThread (id : String)
  | deleteThread (id fallbackId fallbackModel : String) (fallbackCreatedAt : Nat)
  | setModel (id model : String)
  | appendUser (threadId messageId content : String) (createdAt : Nat)
  | beginAssistant (threadId messageId : String) (createdAt : Nat)
  | appendAssistantDelta (threadId messageId delta : String) (now : Nat)
  | finishAssistant (threadId messageId : String)
  | abortAssistant (threadId messageId : String)
  | failAssistant (threadId messageId detail : String)
  | loadSeedMessages (threadId : String) (messages : List ChatMessageDTO) (createdAt : Nat)
  deriving DecidableEq

/-! ## Titles -/

/-- `\s`, and what `trim` takes off. -/
def isWhiteSpace (c : Char) : Bool :=
  [9, 10, 11, 12, 13, 32, 0xA0, 0x1680, 0x2028, 0x2029, 0x202F, 0x205F, 0x3000, 0xFEFF].contains c.toNat ||
    (0x2000 ≤ c.toNat && c.toNat ≤ 0x200A)

/-- The code units of UTF-16. -/
def units (c : Char) : Nat := if c.toNat < 0x10000 then 1 else 2

def unitLength (s : List Char) : Nat := s.foldr (fun c n => units c + n) 0

/-- `s.slice(0, n)`, without the half of a pair that the cut leaves. -/
def sliceUnits : Nat → List Char → List Char
  | _, [] => []
  | n, c :: cs => if units c ≤ n then c :: sliceUnits (n - units c) cs else []

def deriveTitle (firstMessage : String) : String :=
  let trimmed := [' '].intercalate (Words.words isWhiteSpace firstMessage.toList)
  if trimmed = [] then "New chat"
  else if unitLength trimmed > 80 then String.ofList (sliceUnits 79 trimmed ++ ['…'])
  else String.ofList trimmed

/-! ## The reducer -/

def ChatThread.new (id model : String) (createdAt : Nat) : ChatThread :=
  { id := id, title := "New chat", createdAt := createdAt, updatedAt := createdAt, model := model, messages := [] }

def mapThread (state : ThreadState) (id : String) (fn : ChatThread → ChatThread) : ThreadState :=
  { state with threads := state.threads.map fun t => if t.id = id then fn t else t }

/-- The change of one message. -/
def mapMessage (id : String) (fn : ChatMessage → ChatMessage) (t : ChatThread) : ChatThread :=
  { t with messages := t.messages.map fun m => if m.id = id then fn m else m }

def appendUser (messageId content : String) (createdAt : Nat) (t : ChatThread) : ChatThread :=
  { t with
    title := if t.messages = [] then deriveTitle content else t.title
    updatedAt := createdAt
    messages := t.messages ++ [{ id := messageId, role := .user, content := content, createdAt := createdAt }] }

def beginAssistant (messageId : String) (createdAt : Nat) (t : ChatThread) : ChatThread :=
  { t with
    updatedAt := createdAt
    messages := t.messages ++
      [{ id := messageId, role := .assistant, content := "", createdAt := createdAt, status := some .streaming }] }

def seedId (i createdAt : Nat) : String := "seed-" ++ toString i ++ "-" ++ toString createdAt

def seeded (messages : List ChatMessageDTO) (createdAt : Nat) : List ChatMessage :=
  messages.zipIdx.map fun m =>
    { id := seedId m.2 createdAt, role := m.1.1, content := m.1.2, createdAt := createdAt + m.2
      status := if m.1.1 = .assistant then some .complete else none }

def loadSeed (messages : List ChatMessageDTO) (createdAt : Nat) (t : ChatThread) : ChatThread :=
  let firstUser := (seeded messages createdAt).find? fun m => m.role = .user
  { t with
    title := deriveTitle ((firstUser.map ChatMessage.content).getD "Continued chat")
    updatedAt := createdAt
    messages := seeded messages createdAt ++ t.messages }

def threadReducer (state : ThreadState) : ThreadAction → ThreadState
  | .load loaded => loaded
  | .newThread id model createdAt =>
    { threads := ChatThread.new id model createdAt :: state.threads, activeId := some id }
  | .selectThread id => if state.threads.any (·.id = id) then { state with activeId := some id } else state
  | .deleteThread id fallbackId fallbackModel fallbackCreatedAt =>
    match state.threads.filter (·.id ≠ id) with
    | first :: rest =>
      { threads := first :: rest, activeId := if state.activeId = some id then some first.id else state.activeId }
    | [] => { threads := [ChatThread.new fallbackId fallbackModel fallbackCreatedAt], activeId := some fallbackId }
  | .setModel id model => mapThread state id fun t => { t with model := model }
  | .appendUser threadId messageId content createdAt => mapThread state threadId (appendUser messageId content createdAt)
  | .beginAssistant threadId messageId createdAt => mapThread state threadId (beginAssistant messageId createdAt)
  | .appendAssistantDelta threadId messageId delta now => mapThread state threadId fun t =>
      { mapMessage messageId (fun m => { m with content := m.content ++ delta }) t with updatedAt := now }
  | .finishAssistant threadId messageId =>
    mapThread state threadId (mapMessage messageId fun m => { m with status := some .complete })
  | .abortAssistant threadId messageId =>
    mapThread state threadId (mapMessage messageId fun m => { m with status := some .aborted })
  | .failAssistant threadId messageId detail =>
    mapThread state threadId (mapMessage messageId fun m =>
      { m with status := some .error, errorDetail := some detail })
  | .loadSeedMessages threadId messages createdAt => mapThread state threadId (loadSeed messages createdAt)

/-! ## The copy in `sessionStorage` -/

def maxPersistedThreads : Nat := 50

/-- `write`: what the storage then holds. -/
def persisted (state : ThreadState) : ThreadState :=
  { state with threads := state.threads.take maxPersistedThreads }

def newTab (id model : String) (createdAt : Nat) : ThreadState :=
  { threads := [ChatThread.new id model createdAt], activeId := some id }

/-- The first state of `useChatThreads`: the stored one, where there is one with threads, or a new thread. -/
def restored (stored : Option ThreadState) (id model : String) (createdAt : Nat) : ThreadState :=
  match stored with
  | some state =>
    match state.threads with
    | [] => newTab id model createdAt
    | first :: _ =>
      { state with
        activeId := if state.threads.any (fun t => some t.id = state.activeId) then state.activeId else some first.id }
  | none => newTab id model createdAt

/-! ## What the reducer keeps -/

def ThreadState.ids (s : ThreadState) : List String := s.threads.map ChatThread.id

/-- A thread is active, and no two threads have the same id. -/
structure WellFormed (s : ThreadState) : Prop where
  active : ∃ id ∈ s.ids, s.activeId = some id
  distinct : s.ids.Nodup

@[simp] theorem ids_mapThread (s : ThreadState) (id : String) {fn : ChatThread → ChatThread}
    (hfn : ∀ t, (fn t).id = t.id) : (mapThread s id fn).ids = s.ids := by
  rw [ThreadState.ids, ThreadState.ids, mapThread, List.map_map]
  apply List.map_congr_left
  intro t ht
  rw [Function.comp_apply]
  split
  · exact hfn t
  · rfl

theorem WellFormed.mapThread {s : ThreadState} (h : WellFormed s) (id : String) {fn : ChatThread → ChatThread}
    (hfn : ∀ t, (fn t).id = t.id) : WellFormed (mapThread s id fn) where
  active := by
    rw [ids_mapThread s id hfn]
    exact h.active
  distinct := by
    rw [ids_mapThread s id hfn]
    exact h.distinct

theorem wellFormed_newTab (id model : String) (createdAt : Nat) : WellFormed (newTab id model createdAt) where
  active := ⟨id, List.mem_singleton_self id, rfl⟩
  distinct := List.nodup_singleton id

/-- What the tab dispatches, and the reload of the tab. -/
inductive TabAct where
  | dispatch (action : ThreadAction)
  | reload (id model : String) (createdAt : Nat)
  deriving DecidableEq

def tabStep : TabAct → ThreadState → Option ThreadState
  | .dispatch action, s => some (threadReducer s action)
  | .reload id model createdAt, s => some (restored (some (persisted s)) id model createdAt)

/-- A new thread has a new id; what is loaded is well formed. -/
def NewIds : TabAct → ThreadState → Prop
  | .dispatch (.newThread id _ _), s => id ∉ s.ids
  | .dispatch (.load state), _ => WellFormed state
  | _, _ => True

theorem WellFormed.reducer {s : ThreadState} (h : WellFormed s) (action : ThreadAction)
    (hnew : NewIds (.dispatch action) s) : WellFormed (threadReducer s action) := by
  obtain ⟨active, hactive, heq⟩ := h.active
  cases action with
  | load state => exact hnew
  | newThread id model createdAt =>
    exact ⟨⟨id, List.mem_cons_self, rfl⟩, List.nodup_cons.mpr ⟨hnew, h.distinct⟩⟩
  | selectThread id =>
    rw [threadReducer]
    split
    · rename_i hany
      obtain ⟨t, ht, hid⟩ := List.any_eq_true.mp hany
      exact ⟨⟨id, List.mem_map.mpr ⟨t, ht, of_decide_eq_true hid⟩, rfl⟩, h.distinct⟩
    · exact h
  | deleteThread id fallbackId fallbackModel fallbackCreatedAt =>
    rw [threadReducer]
    split
    · rename_i first rest hrest
      have hsub : (first :: rest).Sublist s.threads := hrest ▸ List.filter_sublist
      have hids : ThreadState.ids ⟨first :: rest, s.activeId⟩ = (s.threads.filter (·.id ≠ id)).map ChatThread.id := by
        rw [hrest]
        rfl
      refine ⟨?_, (hsub.map ChatThread.id).nodup h.distinct⟩
      by_cases hgone : s.activeId = some id
      · exact ⟨first.id, List.mem_cons_self, if_pos hgone⟩
      · refine ⟨active, ?_, (if_neg hgone).trans heq⟩
        obtain ⟨t, ht, hid⟩ := List.mem_map.mp hactive
        have hkept : t ∈ s.threads.filter (·.id ≠ id) := by
          refine List.mem_filter.mpr ⟨ht, decide_eq_true fun hsame => hgone ?_⟩
          rw [heq, ← hid, hsame]
        rw [hrest] at hkept
        exact List.mem_map.mpr ⟨t, hkept, hid⟩
    · exact wellFormed_newTab fallbackId fallbackModel fallbackCreatedAt
  | setModel id model => exact h.mapThread id fun _ => rfl
  | appendUser threadId messageId content createdAt => exact h.mapThread threadId fun _ => rfl
  | beginAssistant threadId messageId createdAt => exact h.mapThread threadId fun _ => rfl
  | appendAssistantDelta threadId messageId delta now => exact h.mapThread threadId fun _ => rfl
  | finishAssistant threadId messageId => exact h.mapThread threadId fun _ => rfl
  | abortAssistant threadId messageId => exact h.mapThread threadId fun _ => rfl
  | failAssistant threadId messageId detail => exact h.mapThread threadId fun _ => rfl
  | loadSeedMessages threadId messages createdAt => exact h.mapThread threadId fun _ => rfl

/-- The active thread may be one that the storage does not keep: then the first one becomes active. -/
theorem WellFormed.restored {s : ThreadState} (h : WellFormed s) (id model : String) (createdAt : Nat) :
    WellFormed (restored (some (persisted s)) id model createdAt) := by
  obtain ⟨active, hactive, heq⟩ := h.active
  have hsub : (s.threads.take maxPersistedThreads).Sublist s.threads := List.take_sublist _ _
  rw [ThreadStore.restored]
  split
  · exact wellFormed_newTab id model createdAt
  · rename_i first rest hrest
    have hfirst : (persisted s).threads = first :: rest := hrest
    refine ⟨?_, (hsub.map ChatThread.id).nodup h.distinct⟩
    by_cases hany : (persisted s).threads.any (fun t => some t.id = (persisted s).activeId) = true
    · obtain ⟨t, ht, hid⟩ := List.any_eq_true.mp hany
      have hid' : some t.id = (persisted s).activeId := of_decide_eq_true hid
      exact ⟨t.id, List.mem_map_of_mem ht, (if_pos hany).trans hid'.symm⟩
    · have hmem : first ∈ (persisted s).threads := by
        rw [hfirst]
        exact List.mem_cons_self
      exact ⟨first.id, List.mem_map_of_mem hmem, if_neg hany⟩

/-- The storage gives back a state with at most fifty threads, and no other. -/
theorem restored_persisted_iff {s : ThreadState} (h : WellFormed s) (id model : String) (createdAt : Nat) :
    restored (some (persisted s)) id model createdAt = s ↔ s.threads.length ≤ maxPersistedThreads := by
  obtain ⟨active, hactive, heq⟩ := h.active
  obtain ⟨t, ht, hid⟩ := List.mem_map.mp hactive
  constructor
  · intro hsame
    have hlength : (restored (some (persisted s)) id model createdAt).threads.length ≤ maxPersistedThreads := by
      rw [restored]
      split
      · simp [newTab, maxPersistedThreads]
      · exact List.length_take_le _ _
    rwa [hsame] at hlength
  · intro hlength
    have hpersisted : persisted s = s := by rw [persisted, List.take_of_length_le hlength]
    have hany : s.threads.any (fun t => some t.id = s.activeId) = true :=
      List.any_eq_true.mpr ⟨t, ht, decide_eq_true (by rw [heq, hid])⟩
    rw [hpersisted, restored]
    split
    · rename_i hnone
      rw [hnone] at ht
      cases ht
    · rw [if_pos hany]

/-- In every state of a tab a thread is active and no two threads have the same id, and a reload gives the
state back exactly if it has at most fifty threads. -/
theorem active_thread_remains {id model : String} {createdAt : Nat} {s : ThreadState}
    (hrun : Reaches tabStep NewIds (newTab id model createdAt) s) :
    WellFormed s ∧ ∀ id' model' createdAt',
      restored (some (persisted s)) id' model' createdAt' = s ↔ s.threads.length ≤ maxPersistedThreads := by
  have hwell : WellFormed s := by
    refine hrun.invariant (wellFormed_newTab id model createdAt) ?_
    intro act t t' ht hnew hstep
    cases act with
    | dispatch action =>
      cases hstep
      exact ht.reducer action hnew
    | reload id model createdAt =>
      cases hstep
      exact ht.restored id model createdAt
  exact ⟨hwell, restored_persisted_iff hwell⟩

namespace ThreadExample

def acts : List TabAct :=
  [.dispatch (.appendUser "t1" "u1" "Hello" 1), .dispatch (.newThread "t2" "claude" 2), .reload "t3" "claude" 3,
    .dispatch (.deleteThread "t2" "t4" "claude" 4)]

end ThreadExample

open ThreadExample in
theorem active_thread_remains_deleted :
    WellFormed (runTo tabStep acts (newTab "t1" "claude" 0)) ∧ ∀ id model createdAt,
      restored (some (persisted (runTo tabStep acts (newTab "t1" "claude" 0)))) id model createdAt =
          runTo tabStep acts (newTab "t1" "claude" 0) ↔
        (runTo tabStep acts (newTab "t1" "claude" 0)).threads.length ≤ maxPersistedThreads := by
  refine active_thread_remains (reaches_runTo rfl ?_)
  refine ⟨trivial, fun s hs => ⟨?_, fun s hs => ⟨trivial, fun s hs => ⟨trivial, fun s hs => trivial⟩⟩⟩⟩
  cases hs
  show "t2" ∉ ThreadState.ids _
  decide

/-! ## The text of a message -/

/-- The texts of the thread's messages with this id. -/
def ChatThread.texts (messageId : String) (t : ChatThread) : List String :=
  (t.messages.filter (·.id = messageId)).map ChatMessage.content

/-- The texts of the messages with this id, in the threads with that one. -/
def ThreadState.texts (threadId messageId : String) (s : ThreadState) : List String :=
  s.threads.flatMap fun t => if t.id = threadId then t.texts messageId else []

/-- What the action appends to the message. -/
def ThreadAction.deltaFor (threadId messageId : String) : ThreadAction → String
  | .appendAssistantDelta t m delta _ => if t = threadId ∧ m = messageId then delta else ""
  | _ => ""

/-- The action neither takes the thread away nor gives it a message with this id. -/
def ThreadAction.Leaves (threadId messageId : String) : ThreadAction → Prop
  | .load _ => False
  | .deleteThread id _ _ _ => id ≠ threadId
  | .appendUser t m _ _ => t = threadId → m ≠ messageId
  | .beginAssistant t m _ => t = threadId → m ≠ messageId
  | .loadSeedMessages t messages createdAt => t = threadId → ∀ m ∈ seeded messages createdAt, m.id ≠ messageId
  | _ => True

section Texts

variable {threadId messageId : String} {s : ThreadState}

theorem texts_append {t : ChatThread} {before after : List ChatMessage} (h : t.messages = before ++ after)
    (hnew : ∀ m ∈ after, m.id ≠ messageId) :
    t.texts messageId = (before.filter (·.id = messageId)).map ChatMessage.content := by
  have hnone : after.filter (·.id = messageId) = [] :=
    List.filter_eq_nil_iff.mpr fun m hm => by simpa using hnew m hm
  rw [ChatThread.texts, h, List.filter_append, hnone, List.append_nil]

/-- A change of messages with an id that keeps the ids. -/
theorem texts_mapMessage (id : String) {fn : ChatMessage → ChatMessage} {g : String → String} (t : ChatThread)
    (hid : ∀ m, (fn m).id = m.id)
    (htext : ∀ m, m.id = messageId → (if m.id = id then fn m else m).content = g m.content) :
    (mapMessage id fn t).texts messageId = (t.texts messageId).map g := by
  show ((t.messages.map fun m => if m.id = id then fn m else m).filter (·.id = messageId)).map ChatMessage.content =
    ((t.messages.filter (·.id = messageId)).map ChatMessage.content).map g
  induction t.messages with
  | nil => rfl
  | cons m ms ih =>
    have hm : (if m.id = id then fn m else m).id = m.id := by
      split
      · exact hid m
      · rfl
    by_cases heq : m.id = messageId
    · simp only [List.map_cons, List.filter_cons, hm, decide_eq_true heq, if_true, ih, htext m heq]
    · simp only [List.map_cons, List.filter_cons, hm, decide_eq_false heq, Bool.false_eq_true, if_false, ih]

theorem texts_mapThread (id : String) {fn : ChatThread → ChatThread} {g : String → String}
    (hid : ∀ t, (fn t).id = t.id)
    (htext : ∀ t, t.id = threadId → (if t.id = id then fn t else t).texts messageId = (t.texts messageId).map g) :
    (mapThread s id fn).texts threadId messageId = (s.texts threadId messageId).map g := by
  rw [ThreadState.texts, ThreadState.texts, mapThread]
  induction s.threads with
  | nil => rfl
  | cons t ts ih =>
    have ht : (if t.id = id then fn t else t).id = t.id := by
      split
      · exact hid t
      · rfl
    rw [List.map_cons, List.flatMap_cons, List.flatMap_cons, List.map_append, ih, ht]
    by_cases heq : t.id = threadId
    · rw [if_pos heq, if_pos heq, htext t heq]
    · rw [if_neg heq, if_neg heq]
      rfl

/-- A change of threads that leaves the messages with this id alone. -/
theorem texts_mapThread_same (id : String) {fn : ChatThread → ChatThread} (hid : ∀ t, (fn t).id = t.id)
    (htext : id = threadId → ∀ t, (fn t).texts messageId = t.texts messageId) :
    (mapThread s id fn).texts threadId messageId = (s.texts threadId messageId).map (· ++ "") := by
  refine texts_mapThread id hid fun t ht => ?_
  simp only [String.append_empty, List.map_id']
  by_cases heq : t.id = id
  · rw [if_pos heq]
    exact htext (heq.symm.trans ht) t
  · rw [if_neg heq]

/-- A change of a message's other fields. -/
theorem texts_mapMessage_same (id : String) {fn : ChatMessage → ChatMessage} (t : ChatThread)
    (hid : ∀ m, (fn m).id = m.id) (hcontent : ∀ m, (fn m).content = m.content) :
    (mapMessage id fn t).texts messageId = t.texts messageId := by
  have h : (mapMessage id fn t).texts messageId = (t.texts messageId).map fun text => text := by
    refine texts_mapMessage id t hid fun m hm => ?_
    split
    · exact hcontent m
    · rfl
  rw [h, List.map_id']

theorem texts_delete {id fallbackId fallbackModel : String} {fallbackCreatedAt : Nat} (hid : id ≠ threadId) :
    (threadReducer s (.deleteThread id fallbackId fallbackModel fallbackCreatedAt)).texts threadId messageId =
      s.texts threadId messageId := by
  have hfilter : (s.threads.filter (·.id ≠ id)).flatMap (fun t => if t.id = threadId then t.texts messageId else []) =
      s.texts threadId messageId := by
    rw [ThreadState.texts]
    induction s.threads with
    | nil => rfl
    | cons t ts ih =>
      by_cases heq : t.id = id
      · have hother : t.id ≠ threadId := fun h => hid (heq.symm.trans h)
        rw [List.filter_cons_of_neg (by simpa using heq), ih, List.flatMap_cons, if_neg hother, List.nil_append]
      · rw [List.filter_cons_of_pos (by simpa using heq), List.flatMap_cons, List.flatMap_cons, ih]
  rw [threadReducer]
  split
  · rename_i first rest hrest
    rw [← hfilter, hrest]
    rfl
  · rename_i hnone
    rw [← hfilter, hnone]
    simp [ThreadState.texts, ChatThread.new, ChatThread.texts]

theorem texts_step (action : ThreadAction) (h : action.Leaves threadId messageId) :
    (threadReducer s action).texts threadId messageId =
      (s.texts threadId messageId).map (· ++ action.deltaFor threadId messageId) := by
  cases action with
  | load state => exact h.elim
  | newThread id model createdAt =>
    simp [threadReducer, ThreadState.texts, ChatThread.new, ChatThread.texts, ThreadAction.deltaFor]
  | selectThread id =>
    rw [threadReducer]
    split <;> simp [ThreadState.texts, ThreadAction.deltaFor]
  | deleteThread id fallbackId fallbackModel fallbackCreatedAt =>
    rw [texts_delete h]
    simp [ThreadAction.deltaFor]
  | setModel id model => exact texts_mapThread_same id (fun _ => rfl) fun _ _ => rfl
  | appendUser t m content createdAt =>
    refine texts_mapThread_same t (fun _ => rfl) fun ht thread => texts_append rfl fun x hx => ?_
    rw [List.mem_singleton.mp hx]
    exact h ht
  | beginAssistant t m createdAt =>
    refine texts_mapThread_same t (fun _ => rfl) fun ht thread => texts_append rfl fun x hx => ?_
    rw [List.mem_singleton.mp hx]
    exact h ht
  | appendAssistantDelta t m delta now =>
    refine texts_mapThread t (fun _ => rfl) fun thread hthread => ?_
    by_cases ht : thread.id = t
    · rw [if_pos ht]
      refine texts_mapMessage m thread (fun _ => rfl) fun x hx => ?_
      have hsame : t = threadId := ht.symm.trans hthread
      by_cases hm : x.id = m
      · rw [if_pos hm, ThreadAction.deltaFor, if_pos ⟨hsame, hm.symm.trans hx⟩]
      · rw [if_neg hm, ThreadAction.deltaFor, if_neg fun hboth => hm (hx.trans hboth.2.symm), String.append_empty]
    · rw [if_neg ht, ThreadAction.deltaFor, if_neg fun hboth => ht (hthread.trans hboth.1.symm)]
      simp
  | finishAssistant t m =>
    exact texts_mapThread_same t (fun _ => rfl) fun _ thread =>
      texts_mapMessage_same m thread (fun _ => rfl) fun _ => rfl
  | abortAssistant t m =>
    exact texts_mapThread_same t (fun _ => rfl) fun _ thread =>
      texts_mapMessage_same m thread (fun _ => rfl) fun _ => rfl
  | failAssistant t m detail =>
    exact texts_mapThread_same t (fun _ => rfl) fun _ thread =>
      texts_mapMessage_same m thread (fun _ => rfl) fun _ => rfl
  | loadSeedMessages t messages createdAt =>
    refine texts_mapThread_same t (fun _ => rfl) fun ht thread => ?_
    have hnone : (seeded messages createdAt).filter (·.id = messageId) = [] :=
      List.filter_eq_nil_iff.mpr fun m hm => by simpa using h ht m hm
    rw [ChatThread.texts, ChatThread.texts, loadSeed, List.filter_append, hnone, List.nil_append]

/-- Whatever is dispatched meanwhile, a message's text grows by the deltas that come for it, in their order. -/
theorem deltas_accumulate (actions : List ThreadAction) (h : ∀ a ∈ actions, a.Leaves threadId messageId) :
    (actions.foldl threadReducer s).texts threadId messageId =
      (s.texts threadId messageId).map (· ++ String.join (actions.map (ThreadAction.deltaFor threadId messageId))) := by
  induction actions generalizing s with
  | nil => simp
  | cons a actions ih =>
    rw [List.foldl_cons, ih fun x hx => h x (List.mem_cons_of_mem a hx), texts_step a (h a List.mem_cons_self),
      List.map_map]
    simp [Function.comp_def, String.append_assoc]

end Texts

namespace ThreadExample

/-- Two answers stream in at once. -/
def twoStreams : List ThreadAction :=
  [.appendAssistantDelta "t1" "a1" "Hel" 3, .newThread "t2" "claude" 4, .beginAssistant "t2" "a2" 5,
    .appendAssistantDelta "t2" "a2" "No" 6, .appendAssistantDelta "t1" "a1" "lo" 7]

end ThreadExample

open ThreadExample in
theorem deltas_accumulate_twoStreams :
    (twoStreams.foldl threadReducer (threadReducer (newTab "t1" "claude" 0) (.beginAssistant "t1" "a1" 1))).texts
        "t1" "a1" =
      ((threadReducer (newTab "t1" "claude" 0) (.beginAssistant "t1" "a1" 1)).texts "t1" "a1").map
        (· ++ String.join (twoStreams.map (ThreadAction.deltaFor "t1" "a1"))) := by
  refine deltas_accumulate twoStreams ?_
  simp [twoStreams, ThreadAction.Leaves]

end Lumogis.ThreadStore
