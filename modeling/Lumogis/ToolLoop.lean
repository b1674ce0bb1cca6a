import Mathlib.Data.List.Basic

/-!
# ToolLoop

The tool-calling loop of a chat request, blocking and streaming. Each round asks the provider,
dispatches the tool calls of the answer under a budget, and appends the answer and the results to
the messages; after the last round the provider is asked once more, without tools.

`loops_agree`: the two loops dispatch the same calls and send the same messages for every script in
which an answer with tool calls has the stop reason `tool_calls`. They continue on different tests,
the stop reason and the tool calls, so an answer with both calls and the stop reason `stop` ends
one of them and not the other (`stopped_with_calls_disagrees`).
-/

namespace Lumogis

structure LLMToolCall (A : Type) where
  id : String
  name : String
  arguments : A
  deriving DecidableEq

structure LLMResponse (A : Type) where
  text : String
  toolCalls : List (LLMToolCall A)
  stopReason : String

inductive LLMEventType where
  | text | toolCall | end_
  deriving DecidableEq

structure LLMEvent (A : Type) where
  type : LLMEventType
  content : String
  toolCall : Option (LLMToolCall A)
  stopReason : Option String

structure ChatMessage (A : Type) where
  role : String
  content : String
  toolCalls : Option (List (LLMToolCall A))
  toolCallId : Option String

structure ToolChainBudget where
  cap : Int
  observed : Nat
  trippedEvent : Bool

inductive TransitionReason where
  | modelCall | toolDispatch | turnAdvance | terminate

inductive SessionTerminal where
  | completed | maxToolRounds

/-- `SessionState`, less the budget, which is changed in place. -/
structure SessionState (A : Type) where
  messages : List (ChatMessage A)
  turnCount : Nat
  transition : Option TransitionReason
  terminal : Option SessionTerminal

/-- What a loop acts on: the tools, the budget, and the provider, with what was asked of them. -/
structure LoopRun (A W : Type) where
  tools : W
  budget : Option ToolChainBudget
  dispatched : List (LLMToolCall A)
  /-- The message lists sent, and whether the tools were offered. -/
  sent : List (List (ChatMessage A) × Bool)

/-- `runTool` may raise; either way it leaves the tools in some state. -/
structure LoopEnv (A W E : Type) where
  runTool : String → A → W → Except E String × W
  /-- `json.dumps` of a text. -/
  jsonText : String → String
  maxToolRounds : Nat

def maxToolRounds : Nat := 2

variable {A W E : Type}

/-! ## Dispatch -/

def lumogisBlockedPayload (env : LoopEnv A W E) (toolName : String) (budget : ToolChainBudget) :
    String :=
  "\x7b\"lumogis_blocked\": true, \"reason\": \"tool_chain_cap\", \"blocked_tool\": " ++
    env.jsonText toolName ++ ", \"cap\": " ++ toString budget.cap ++ ", \"observed\": " ++
    toString budget.observed ++ "\x7d"

def LoopRun.runTool (env : LoopEnv A W E) (call : LLMToolCall A) (run : LoopRun A W) :
    Except E String × LoopRun A W :=
  ((env.runTool call.name call.arguments run.tools).1,
    { run with tools := (env.runTool call.name call.arguments run.tools).2 })

/-- The budget is charged before the tool runs. -/
def dispatchToolUnderCap (env : LoopEnv A W E) (call : LLMToolCall A) (run : LoopRun A W) :
    Except E String × LoopRun A W :=
  let run := { run with dispatched := run.dispatched ++ [call] }
  match run.budget with
  | none => run.runTool env call
  | some budget =>
    if budget.cap ≤ 0 then run.runTool env call
    else if budget.cap ≤ budget.observed then
      (.ok (lumogisBlockedPayload env call.name budget),
        { run with budget := some { budget with trippedEvent := true } })
    else
      LoopRun.runTool env call
        { run with budget := some { budget with observed := budget.observed + 1 } }

/-- The tool messages of a round's calls. -/
def dispatchAll (env : LoopEnv A W E) :
    List (LLMToolCall A) → LoopRun A W → Except E (List (ChatMessage A)) × LoopRun A W
  | [], run => (.ok [], run)
  | call :: calls, run =>
    match dispatchToolUnderCap env call run with
    | (.error e, run) => (.error e, run)
    | (.ok result, run) =>
      match dispatchAll env calls run with
      | (.error e, run) => (.error e, run)
      | (.ok messages, run) => (.ok (⟨"tool", result, none, some call.id⟩ :: messages), run)

/-! ## The two loops -/

/-- The number of the request that is sent next. -/
def LoopRun.request (run : LoopRun A W) : Nat := run.sent.length

def LoopRun.ask (messages : List (ChatMessage A)) (offersTools : Bool) (run : LoopRun A W) :
    LoopRun A W :=
  { run with sent := run.sent ++ [(messages, offersTools)] }

def assistantMessage (text : String) (calls : List (LLMToolCall A)) : ChatMessage A :=
  ⟨"assistant", text, if calls.isEmpty then none else some calls, none⟩

def assistantFromLlmResponse (response : LLMResponse A) : ChatMessage A :=
  assistantMessage response.text response.toolCalls

def syncShouldDispatch (response : LLMResponse A) : Bool :=
  response.stopReason == "tool_calls" && !response.toolCalls.isEmpty

namespace SessionState

def complete (message : ChatMessage A) (terminal : SessionTerminal) (state : SessionState A) :
    SessionState A :=
  { state with
    messages := state.messages ++ [message]
    transition := some .terminate
    terminal := some terminal }

/-- The transitions of a round that dispatched tools. -/
def advance (message : ChatMessage A) (toolMessages : List (ChatMessage A))
    (state : SessionState A) : SessionState A :=
  { state with
    messages := state.messages ++ message :: toolMessages
    turnCount := state.turnCount + 1
    transition := some .turnAdvance }

end SessionState

/-- `_run_session_loop` with `stream=False`; `script n` answers the `n`-th request. -/
def syncLoop (env : LoopEnv A W E) (script : Nat → LLMResponse A) :
    Nat → SessionState A → LoopRun A W → Except E (SessionState A) × LoopRun A W
  | 0, state, run =>
    (.ok (state.complete (assistantFromLlmResponse (script run.request)) .maxToolRounds),
      run.ask state.messages false)
  | rounds + 1, state, run =>
    if syncShouldDispatch (script run.request) = false then
      (.ok (state.complete (assistantFromLlmResponse (script run.request)) .completed),
        run.ask state.messages true)
    else
      match dispatchAll env (script run.request).toolCalls (run.ask state.messages true) with
      | (.error e, run') => (.error e, run')
      | (.ok toolMessages, run') =>
        syncLoop env script rounds
          (state.advance (assistantFromLlmResponse (script run.request)) toolMessages) run'

/-- The text parts and tool calls of the events before the end. -/
def collectEvents : List (LLMEvent A) → List String × List (LLMToolCall A)
  | [] => ([], [])
  | event :: events =>
    match event.type, event.toolCall with
    | .end_, _ => ([], [])
    | .text, _ => (event.content :: (collectEvents events).1, (collectEvents events).2)
    | .toolCall, some call => ((collectEvents events).1, call :: (collectEvents events).2)
    | .toolCall, none => collectEvents events

/-- `_run_session_loop` with `stream=True`; `yielded` is the text that has been yielded. -/
def streamLoop (env : LoopEnv A W E) (script : Nat → List (LLMEvent A)) :
    Nat → SessionState A → LoopRun A W → List String →
      (Except E (SessionState A) × LoopRun A W) × List String
  | 0, state, run, yielded =>
    let textParts := (collectEvents (script run.request)).1
    ((.ok (state.complete (assistantMessage (String.join textParts) []) .maxToolRounds),
      run.ask state.messages false), yielded ++ textParts)
  | rounds + 1, state, run, yielded =>
    let (textParts, toolCalls) := collectEvents (script run.request)
    let assistantMsg := assistantMessage (String.join textParts) toolCalls
    if toolCalls.isEmpty then
      ((.ok (state.complete assistantMsg .completed), run.ask state.messages true),
        yielded ++ textParts)
    else
      match dispatchAll env toolCalls (run.ask state.messages true) with
      | (.error e, run') => ((.error e, run'), yielded ++ textParts)
      | (.ok toolMessages, run') =>
        streamLoop env script rounds (state.advance assistantMsg toolMessages) run'
          (yielded ++ textParts ++ ["\n\n"])

def LoopRun.start (tools : W) (budget : Option ToolChainBudget) : LoopRun A W := ⟨tools, budget, [], []⟩

/-- The state in which a request for `question` begins. -/
def initialSessionState (history : List (ChatMessage A)) (question : String) : SessionState A :=
  ⟨history ++ [⟨"user", question, none, none⟩], 0, none, none⟩

/-- A budget without a cap is none. -/
def chainBudget (cap : Int) : Option ToolChainBudget := if 0 < cap then some ⟨cap, 0, false⟩ else none

def runSync (env : LoopEnv A W E) (script : Nat → LLMResponse A) (state : SessionState A)
    (run : LoopRun A W) : Except E (SessionState A) × LoopRun A W :=
  syncLoop env script (env.maxToolRounds + 1) state run

def runStream (env : LoopEnv A W E) (events : Nat → List (LLMEvent A)) (state : SessionState A)
    (run : LoopRun A W) : (Except E (SessionState A) × LoopRun A W) × List String :=
  streamLoop env events (env.maxToolRounds + 1) state run []

/-! ## Agreement -/

def beforeEnd (events : List (LLMEvent A)) : List (LLMEvent A) :=
  events.takeWhile fun event => event.type != .end_

def LLMEvent.text? (event : LLMEvent A) : Option String :=
  if event.type = .text then some event.content else none

def LLMEvent.call? (event : LLMEvent A) : Option (LLMToolCall A) :=
  if event.type = .toolCall then event.toolCall else none

/-- The events are those of a provider that streams the response. -/
structure Streams (events : List (LLMEvent A)) (response : LLMResponse A) : Prop where
  text : String.join ((beforeEnd events).filterMap LLMEvent.text?) = response.text
  toolCalls : (beforeEnd events).filterMap LLMEvent.call? = response.toolCalls
  stopReason : (events.find? fun event => event.type == .end_).bind LLMEvent.stopReason =
    some response.stopReason

/-- What `ask` returns. -/
def SessionState.answer (state : SessionState A) : Option String :=
  state.messages.getLast?.map ChatMessage.content

/-- The same tool calls in the same order, the same message lists, and the same answer. -/
structure SameRequests (sync stream : Except E (SessionState A) × LoopRun A W) : Prop where
  dispatched : stream.2.dispatched = sync.2.dispatched
  sent : stream.2.sent = sync.2.sent
  answer : stream.1.map SessionState.answer = sync.1.map SessionState.answer

structure LoopsAgree (sync stream : Except E (SessionState A) × LoopRun A W) : Prop
    extends SameRequests sync stream where
  history : stream.1.map SessionState.messages = sync.1.map SessionState.messages

/-! ### Rounds -/

theorem collectEvents_eq (events : List (LLMEvent A)) :
    collectEvents events = ((beforeEnd events).filterMap LLMEvent.text?,
      (beforeEnd events).filterMap LLMEvent.call?) := by
  induction events with
  | nil => rfl
  | cons event events ih =>
    obtain ⟨type, content, toolCall, stopReason⟩ := event
    rw [collectEvents, ih]
    cases type with
    | text => simp [beforeEnd, LLMEvent.text?, LLMEvent.call?]
    | toolCall => cases toolCall <;> simp [beforeEnd, LLMEvent.text?, LLMEvent.call?]
    | end_ => simp [beforeEnd]

theorem dispatchToolUnderCap_sent (env : LoopEnv A W E) (call : LLMToolCall A)
    (run : LoopRun A W) : (dispatchToolUnderCap env call run).2.sent = run.sent := by
  rw [dispatchToolUnderCap]
  dsimp only
  split
  · rfl
  · split
    · rfl
    · split <;> rfl

theorem dispatchAll_sent (env : LoopEnv A W E) (calls : List (LLMToolCall A))
    (run : LoopRun A W) : (dispatchAll env calls run).2.sent = run.sent := by
  induction calls generalizing run with
  | nil => rfl
  | cons call calls ih =>
    have hcall := dispatchToolUnderCap_sent env call run
    rw [dispatchAll]
    cases hd : dispatchToolUnderCap env call run with
    | mk r run' =>
      rw [hd] at hcall
      cases r with
      | error e => exact hcall
      | ok result =>
        have hrest := ih run'
        cases ha : dispatchAll env calls run' with
        | mk r' run'' =>
          rw [ha] at hrest
          simp only [ha]
          cases r' <;> exact hrest.trans hcall

/-- The forced answer without the tool calls that it was not asked for. -/
def SessionState.dropForcedCalls (state : SessionState A) : SessionState A :=
  match state.terminal with
  | some .maxToolRounds => { state with
      messages := state.messages.dropLast ++
        state.messages.getLast?.toList.map fun message => { message with toolCalls := none } }
  | _ => state

theorem dropForcedCalls_answer (state : SessionState A) :
    state.dropForcedCalls.answer = state.answer := by
  rw [SessionState.dropForcedCalls]
  split
  · simp only [SessionState.answer]
    cases hlast : state.messages.getLast? with
    | none => simp [List.getLast?_eq_none_iff.mp hlast]
    | some message => simp
  · rfl

theorem complete_drop {state : SessionState A} {text : String} {calls : List (LLMToolCall A)} :
    (state.complete (assistantMessage text calls) .maxToolRounds).dropForcedCalls =
      state.complete (assistantMessage text []) .maxToolRounds := by
  simp [SessionState.dropForcedCalls, SessionState.complete, assistantMessage]

/-- The requests from `n` on, as far as there are rounds, stop for their tool calls. -/
def StopsForCalls (script : Nat → LLMResponse A) (n rounds : Nat) : Prop :=
  ∀ m, n ≤ m → m < n + rounds → (script m).toolCalls ≠ [] → (script m).stopReason = "tool_calls"

theorem StopsForCalls.rest {script : Nat → LLMResponse A} {n rounds : Nat}
    (h : StopsForCalls script n (rounds + 1)) : StopsForCalls script (n + 1) rounds :=
  fun m hm hlt => h m (by omega) (by omega)

theorem syncShouldDispatch_eq {response : LLMResponse A}
    (h : response.toolCalls ≠ [] → response.stopReason = "tool_calls") :
    syncShouldDispatch response = !response.toolCalls.isEmpty := by
  cases hcalls : response.toolCalls with
  | nil => simp [syncShouldDispatch, hcalls]
  | cons call calls =>
    have hstop := h (by simp [hcalls])
    simp [syncShouldDispatch, hcalls, hstop]

theorem ask_sent (run : LoopRun A W) (messages : List (ChatMessage A)) (offersTools : Bool) :
    (run.ask messages offersTools).sent.length = run.sent.length + 1 := by
  simp [LoopRun.ask]

theorem streamLoop_eq (env : LoopEnv A W E) {script : Nat → LLMResponse A}
    {events : Nat → List (LLMEvent A)} (hs : ∀ n, Streams (events n) (script n)) (rounds : Nat)
    (state : SessionState A) (run : LoopRun A W) (yielded : List String)
    (hstop : StopsForCalls script run.sent.length rounds) :
    (streamLoop env events rounds state run yielded).1 =
      ((syncLoop env script rounds state run).1.map SessionState.dropForcedCalls,
        (syncLoop env script rounds state run).2) := by
  induction rounds generalizing state run yielded with
  | zero =>
    simp only [streamLoop, syncLoop, collectEvents_eq, (hs _).text, Except.map,
      assistantFromLlmResponse, complete_drop]
  | succ rounds ih =>
    have hdispatch := syncShouldDispatch_eq
      (hstop run.request (Nat.le_refl _) (by simp [LoopRun.request]))
    simp only [streamLoop, syncLoop, collectEvents_eq, (hs _).text, (hs _).toolCalls, hdispatch,
      Bool.not_eq_false', assistantFromLlmResponse]
    split
    · rfl
    · have hsent := dispatchAll_sent env (script run.request).toolCalls (run.ask state.messages true)
      generalize dispatchAll env (script run.request).toolCalls (run.ask state.messages true) =
        dispatched at hsent ⊢
      obtain ⟨r, run'⟩ := dispatched
      cases r with
      | error e => rfl
      | ok toolMessages =>
        refine ih _ run' _ ?_
        have hlen : run'.sent.length = run.sent.length + 1 := by
          rw [show run'.sent = _ from hsent, ask_sent]
        rw [hlen]
        exact hstop.rest

theorem syncLoop_drop {env : LoopEnv A W E} {script : Nat → LLMResponse A} (rounds : Nat)
    (state : SessionState A) (run : LoopRun A W)
    (hforced : (script (run.sent.length + rounds)).toolCalls = []) :
    (syncLoop env script rounds state run).1.map SessionState.dropForcedCalls =
      (syncLoop env script rounds state run).1 := by
  induction rounds generalizing state run with
  | zero =>
    have hnone : (script run.request).toolCalls = [] := hforced
    simp only [syncLoop, Except.map, assistantFromLlmResponse, complete_drop, hnone]
  | succ rounds ih =>
    rw [syncLoop]
    split
    · rfl
    · have hsent := dispatchAll_sent env (script run.request).toolCalls (run.ask state.messages true)
      generalize dispatchAll env (script run.request).toolCalls (run.ask state.messages true) =
        dispatched at hsent ⊢
      obtain ⟨r, run'⟩ := dispatched
      cases r with
      | error e => rfl
      | ok toolMessages =>
        refine ih _ run' ?_
        have hlen : run'.sent.length = run.sent.length + 1 := by
          rw [show run'.sent = _ from hsent, ask_sent]
        rw [hlen, Nat.add_right_comm]
        exact hforced

theorem map_answer_drop (r : Except E (SessionState A)) :
    (r.map SessionState.dropForcedCalls).map SessionState.answer = r.map SessionState.answer := by
  cases r with
  | error e => rfl
  | ok state => exact congrArg Except.ok (dropForcedCalls_answer state)

/-- The loops agree when no answer to a request with tools holds calls back from the blocking loop,
and the answer that is forced without tools has no calls. -/
theorem loops_agree (env : LoopEnv A W E) {script : Nat → LLMResponse A}
    {events : Nat → List (LLMEvent A)} (hs : ∀ n, Streams (events n) (script n))
    (hstop : ∀ n, n ≤ env.maxToolRounds → (script n).toolCalls ≠ [] →
      (script n).stopReason = "tool_calls")
    (state : SessionState A) (tools : W) (budget : Option ToolChainBudget) :
    SameRequests (runSync env script state (.start tools budget))
        (runStream env events state (.start tools budget)).1 ∧
      ((script (env.maxToolRounds + 1)).toolCalls = [] →
        LoopsAgree (runSync env script state (.start tools budget))
          (runStream env events state (.start tools budget)).1) := by
  have heq := streamLoop_eq env hs (env.maxToolRounds + 1) state (.start tools budget) []
    fun n _ hn => hstop n (by simp only [LoopRun.start, List.length_nil] at hn; omega)
  have hsame : SameRequests (runSync env script state (.start tools budget))
      (runStream env events state (.start tools budget)).1 := by
    rw [runSync, runStream, heq]
    exact ⟨rfl, rfl, map_answer_drop _⟩
  refine ⟨hsame, fun hforced => ⟨hsame, ?_⟩⟩
  rw [runSync, runStream, heq]
  exact congrArg _ (syncLoop_drop _ state _ (by simpa [LoopRun.start] using hforced))

namespace LoopExample

/-- One tool, which answers by its name. -/
def env : LoopEnv Nat Unit Unit :=
  { runTool := fun name _ tools => (.ok name, tools), jsonText := id, maxToolRounds := maxToolRounds }

def call : LLMToolCall Nat := ⟨"1", "search_files", 1⟩

/-- The events of a response: its text in one part, its calls, and the end. -/
def stream (response : LLMResponse Nat) : List (LLMEvent Nat) :=
  ⟨.text, response.text, none, none⟩ ::
    response.toolCalls.map (fun call => ⟨.toolCall, "", some call, none⟩) ++
    [⟨.end_, "", none, some response.stopReason⟩]

theorem stream_streams (response : LLMResponse Nat) : Streams (stream response) response := by
  have hbefore : beforeEnd (stream response) = ⟨.text, response.text, none, none⟩ ::
      response.toolCalls.map fun call => ⟨.toolCall, "", some call, none⟩ := by
    rw [beforeEnd, stream, List.takeWhile_append_of_pos]
    · simp
    · simp
  constructor
  · simp [hbefore, LLMEvent.text?, Function.comp_def, String.join]
  · simp [hbefore, LLMEvent.call?, Function.comp_def]
  · have hcalls : (response.toolCalls.find? fun _ => LLMEventType.toolCall == LLMEventType.end_) =
        none := List.find?_eq_none.mpr fun _ _ => by decide
    simp [stream, Function.comp_def, hcalls]

def question : SessionState Nat := initialSessionState [] "hi"

/-- A call in the first answer, and then the answer. -/
def script (stopReason : String) (n : Nat) : LLMResponse Nat :=
  if n = 0 then ⟨"one moment", [call], stopReason⟩ else ⟨"done", [], "stop"⟩

end LoopExample

open LoopExample in
theorem loops_agree_once :
    LoopsAgree (runSync env (script "tool_calls") question (.start () none))
      (runStream env (fun n => stream (script "tool_calls" n)) question (.start () none)).1 :=
  (loops_agree env (fun n => stream_streams (script "tool_calls" n))
    (fun n _ h => by
      simp only [script] at h ⊢
      split <;> simp_all)
    question () none).2 rfl

open LoopExample in
/-- The first answer has a call and the stop reason `stop`. -/
theorem stopped_with_calls_disagrees :
    (∀ n, Streams (stream (script "stop" n)) (script "stop" n)) ∧
    ¬ LoopsAgree (runSync env (script "stop") question (.start () none))
      (runStream env (fun n => stream (script "stop" n)) question (.start () none)).1 := by
  refine ⟨fun n => stream_streams _, fun h => ?_⟩
  have hdispatched := h.dispatched
  revert hdispatched
  decide

end Lumogis
