import Lumogis.ToolLoop

/-!
# Lumogis.ToolDiscipline

What the provider sees of the tool loop. Both loops are one loop over what a response puts into the
messages, which calls it makes and whether they are dispatched (`roundLoop`). Every request carries the
rounds so far, each an assistant message followed by one tool message a call (`History`). Only the last
response may go without: its calls are not dispatched, or a tool has raised.
-/

namespace Lumogis

variable {A W E : Type}

/-! ## One loop -/

/-- What the loop takes from the `n`-th response. -/
structure Responses (A : Type) where
  message : Nat → ChatMessage A
  calls : Nat → List (LLMToolCall A)
  dispatches : Nat → Bool
  /-- The message when the response was forced. -/
  forced : Nat → ChatMessage A

def roundLoop (env : LoopEnv A W E) (r : Responses A) :
    Nat → SessionState A → LoopRun A W → Except E (SessionState A) × LoopRun A W
  | 0, state, run => (.ok (state.complete (r.forced run.request) .maxToolRounds), run.ask state.messages false)
  | rounds + 1, state, run =>
    if r.dispatches run.request = false then
      (.ok (state.complete (r.message run.request) .completed), run.ask state.messages true)
    else
      match dispatchAll env (r.calls run.request) (run.ask state.messages true) with
      | (.error e, run') => (.error e, run')
      | (.ok toolMessages, run') => roundLoop env r rounds (state.advance (r.message run.request) toolMessages) run'

/-- The blocking loop dispatches on the stop reason. -/
def syncResponses (script : Nat → LLMResponse A) : Responses A where
  message n := assistantFromLlmResponse (script n)
  calls n := (script n).toolCalls
  dispatches n := syncShouldDispatch (script n)
  forced n := assistantFromLlmResponse (script n)

/-- The streaming loop dispatches whatever has come before the end. -/
def streamResponses (events : Nat → List (LLMEvent A)) : Responses A where
  message n := assistantMessage (String.join (collectEvents (events n)).1) (collectEvents (events n)).2
  calls n := (collectEvents (events n)).2
  dispatches n := !(collectEvents (events n)).2.isEmpty
  forced n := assistantMessage (String.join (collectEvents (events n)).1) []

theorem syncLoop_eq_roundLoop (env : LoopEnv A W E) (script : Nat → LLMResponse A) (rounds : Nat)
    (state : SessionState A) (run : LoopRun A W) :
    syncLoop env script rounds state run = roundLoop env (syncResponses script) rounds state run := by
  induction rounds generalizing state run with
  | zero => rfl
  | succ rounds ih =>
    rw [syncLoop, roundLoop]
    simp only [ih]
    rfl

theorem streamLoop_eq_roundLoop (env : LoopEnv A W E) (events : Nat → List (LLMEvent A)) (rounds : Nat)
    (state : SessionState A) (run : LoopRun A W) (yielded : List String) :
    (streamLoop env events rounds state run yielded).1 = roundLoop env (streamResponses events) rounds state run := by
  induction rounds generalizing state run yielded with
  | zero => rfl
  | succ rounds ih =>
    rw [streamLoop, roundLoop]
    cases hempty : (collectEvents (events run.request)).2.isEmpty with
    | true => simp [streamResponses, hempty]
    | false =>
      have hdispatches : (streamResponses events).dispatches run.request = true := by
        simp [streamResponses, hempty]
      have hcalls : (streamResponses events).calls run.request = (collectEvents (events run.request)).2 := rfl
      simp only [hempty, hdispatches, hcalls, Bool.false_eq_true, Bool.true_eq_false, if_false]
      cases dispatchAll env (collectEvents (events run.request)).2 (run.ask state.messages true) with
      | mk r run' =>
        cases r with
        | error e => rfl
        | ok toolMessages => exact ih _ _ _

/-! ## Counting the tools that run -/

/-- The tools with a count of the calls that ran. -/
def LoopEnv.counted (env : LoopEnv A W E) : LoopEnv A (W × Nat) E where
  runTool name arguments tools :=
    ((env.runTool name arguments tools.1).1, (env.runTool name arguments tools.1).2, tools.2 + 1)
  jsonText := env.jsonText
  maxToolRounds := env.maxToolRounds

/-- The budget has counted every call that ran, up to the cap. -/
structure Budgeted (cap : Int) (run : LoopRun A (W × Nat)) : Prop where
  pos : 0 < cap
  budget : ∃ tripped, run.budget = some ⟨cap, run.tools.2, tripped⟩
  within : (run.tools.2 : Int) ≤ cap

theorem Budgeted.dispatch {env : LoopEnv A W E} {cap : Int} {run : LoopRun A (W × Nat)} (h : Budgeted cap run)
    (call : LLMToolCall A) : Budgeted cap (dispatchToolUnderCap env.counted call run).2 := by
  obtain ⟨hpos, ⟨tripped, hbudget⟩, hwithin⟩ := h
  have hcap : ¬ cap ≤ 0 := by omega
  unfold dispatchToolUnderCap
  simp only [hbudget, if_neg hcap]
  by_cases hover : cap ≤ (run.tools.2 : Int)
  · rw [if_pos hover]
    exact ⟨hpos, ⟨true, rfl⟩, hwithin⟩
  · rw [if_neg hover]
    refine ⟨hpos, ⟨tripped, rfl⟩, ?_⟩
    simp only [LoopRun.runTool, LoopEnv.counted]
    omega

theorem Budgeted.dispatchAll {env : LoopEnv A W E} {cap : Int} {run : LoopRun A (W × Nat)} (h : Budgeted cap run)
    (calls : List (LLMToolCall A)) : Budgeted cap (dispatchAll env.counted calls run).2 := by
  induction calls generalizing run with
  | nil => exact h
  | cons call calls ih =>
    have hcall : Budgeted cap (dispatchToolUnderCap env.counted call run).2 := h.dispatch call
    rw [Lumogis.dispatchAll]
    cases hd : dispatchToolUnderCap env.counted call run with
    | mk r run' =>
      rw [hd] at hcall
      cases r with
      | error e => exact hcall
      | ok result =>
        have hrest := ih hcall
        cases ha : Lumogis.dispatchAll env.counted calls run' with
        | mk r' run'' =>
          rw [ha] at hrest
          simp only [ha]
          cases r' <;> exact hrest

theorem Budgeted.ask {cap : Int} {run : LoopRun A (W × Nat)} (h : Budgeted cap run) (messages : List (ChatMessage A))
    (offersTools : Bool) : Budgeted cap (run.ask messages offersTools) := ⟨h.pos, h.budget, h.within⟩

theorem Budgeted.roundLoop {env : LoopEnv A W E} {r : Responses A} {cap : Int} (rounds : Nat) {state : SessionState A}
    {run : LoopRun A (W × Nat)} (h : Budgeted cap run) : Budgeted cap (roundLoop env.counted r rounds state run).2 := by
  induction rounds generalizing state run with
  | zero => exact h.ask _ _
  | succ rounds ih =>
    rw [Lumogis.roundLoop]
    split
    · exact h.ask _ _
    · have hall : Budgeted cap (Lumogis.dispatchAll env.counted (r.calls run.request) (run.ask state.messages true)).2 :=
        (h.ask state.messages true).dispatchAll _
      generalize Lumogis.dispatchAll env.counted (r.calls run.request) (run.ask state.messages true) = dispatched at hall ⊢
      obtain ⟨result, run'⟩ := dispatched
      cases result with
      | error e => exact hall
      | ok toolMessages => exact ih hall

/-! ## The messages -/

/-- One tool message a call, in the order of the calls. -/
structure AnswersCalls (calls : List (LLMToolCall A)) (answers : List (ChatMessage A)) : Prop where
  ids : answers.map ChatMessage.toolCallId = calls.map fun call => some call.id
  role : ∀ m ∈ answers, m.role = "tool"

theorem dispatchAll_answers {env : LoopEnv A W E} {calls : List (LLMToolCall A)} {run run' : LoopRun A W}
    {answers : List (ChatMessage A)} (h : dispatchAll env calls run = (.ok answers, run')) :
    AnswersCalls calls answers := by
  induction calls generalizing run answers run' with
  | nil =>
    cases h
    exact ⟨rfl, by simp⟩
  | cons call calls ih =>
    rw [dispatchAll] at h
    cases hd : dispatchToolUnderCap env call run with
    | mk r run₁ =>
      rw [hd] at h
      cases r with
      | error e => cases h
      | ok result =>
        cases ha : dispatchAll env calls run₁ with
        | mk r' run₂ =>
          simp only [ha] at h
          cases r' with
          | error e => cases h
          | ok messages =>
            cases h
            have hrest := ih ha
            refine ⟨?_, ?_⟩
            · rw [List.map_cons, List.map_cons, hrest.ids]
            · intro m hm
              cases List.mem_cons.mp hm with
              | inl he => rw [he]
              | inr hm => exact hrest.role m hm

/-- The messages after `n` rounds: each response was dispatched and answered. -/
inductive History (r : Responses A) (messages : List (ChatMessage A)) : Nat → List (ChatMessage A) → Prop where
  | start : History r messages 0 messages
  | round {n : Nat} {sofar answers : List (ChatMessage A)} : History r messages n sofar → r.dispatches n = true →
      AnswersCalls (r.calls n) answers → History r messages (n + 1) (sofar ++ r.message n :: answers)

/-- How the loop ends at response `n`, asked with the messages `sofar`. -/
inductive Ends (r : Responses A) (rounds n : Nat) (sofar : List (ChatMessage A)) : Except E (SessionState A) → Prop where
  /-- The response is not dispatched. -/
  | completed {final : SessionState A} : r.dispatches n = false → final.messages = sofar ++ [r.message n] →
      final.terminal = some .completed → Ends r rounds n sofar (.ok final)
  /-- The response was asked for without tools. -/
  | forced {final : SessionState A} : n = rounds → final.messages = sofar ++ [r.forced n] →
      final.terminal = some .maxToolRounds → Ends r rounds n sofar (.ok final)
  /-- A tool has raised. -/
  | raised {e : E} : n < rounds → r.dispatches n = true → Ends r rounds n sofar (.error e)

/-- What the loop has done when it is over. `rounds` counts those with tools. -/
structure Disciplined (r : Responses A) (rounds : Nat) (messages : List (ChatMessage A))
    (result : Except E (SessionState A) × LoopRun A W) : Prop where
  /-- Every request carries the answers to all calls before it. -/
  history : ∀ n (h : n < result.2.sent.length), History r messages n result.2.sent[n].1
  requests : result.2.sent.length ≤ rounds + 1
  ending : ∃ n sofar, result.2.sent.length = n + 1 ∧ History r messages n sofar ∧ Ends r rounds n sofar result.1

theorem history_append {r : Responses A} {messages sofar : List (ChatMessage A)} {offers : Bool} {run : LoopRun A W}
    (h : ∀ n (hn : n < run.sent.length), History r messages n run.sent[n].1)
    (hsofar : History r messages run.sent.length sofar) :
    ∀ n (hn : n < (run.ask sofar offers).sent.length), History r messages n (run.ask sofar offers).sent[n].1 := by
  intro n hn
  simp only [LoopRun.ask, List.length_append, List.length_cons, List.length_nil] at hn ⊢
  by_cases hlt : n < run.sent.length
  · rw [List.getElem_append_left hlt]
    exact h n hlt
  · have heq : n = run.sent.length := by omega
    subst heq
    simpa using hsofar

theorem roundLoop_disciplined {env : LoopEnv A W E} {r : Responses A} {messages : List (ChatMessage A)} {k : Nat}
    (rounds : Nat) {state : SessionState A} {run : LoopRun A W}
    (hsent : ∀ n (h : n < run.sent.length), History r messages n run.sent[n].1)
    (hstate : History r messages run.sent.length state.messages) (hrounds : run.sent.length + rounds = k) :
    Disciplined r k messages (roundLoop env r rounds state run) := by
  induction rounds generalizing state run with
  | zero =>
    refine ⟨history_append hsent hstate, ?_, run.sent.length, state.messages, ?_, hstate, ?_⟩
    · simp only [roundLoop, ask_sent]
      omega
    · simp only [roundLoop, ask_sent]
    · exact .forced hrounds rfl rfl
  | succ rounds ih =>
    rw [roundLoop]
    cases hdispatches : r.dispatches run.request with
    | false =>
      simp only [if_true]
      refine ⟨history_append hsent hstate, ?_, run.sent.length, state.messages, ask_sent _ _ _, hstate, ?_⟩
      · rw [ask_sent]
        omega
      · exact .completed hdispatches rfl rfl
    | true =>
      simp only [Bool.true_eq_false, if_false]
      have hlength := dispatchAll_sent env (r.calls run.request) (run.ask state.messages true)
      cases hd : dispatchAll env (r.calls run.request) (run.ask state.messages true) with
      | mk result run' =>
        rw [hd] at hlength
        replace hlength : run'.sent = (run.ask state.messages true).sent := hlength
        have hasked : ∀ n (h : n < run'.sent.length), History r messages n run'.sent[n].1 := by
          intro n hn
          simp only [hlength] at hn ⊢
          exact history_append hsent hstate n hn
        have hnext : run'.sent.length = run.sent.length + 1 := by rw [hlength, ask_sent]
        cases result with
        | error e =>
          refine ⟨hasked, ?_, run.sent.length, state.messages, hnext, hstate, ?_⟩
          · simp only [hnext]
            omega
          · exact .raised (by omega) hdispatches
        | ok toolMessages =>
          refine ih hasked ?_ (by omega)
          rw [hnext]
          exact .round hstate hdispatches (dispatchAll_answers hd)

/-- Both loops are disciplined: every request carries one tool message for each call made before it, in
order; no request follows a response that is not dispatched or whose tools raise; there are at most
`maxToolRounds + 2` requests; and under a cap no more tools run than it allows. -/
theorem loops_disciplined (env : LoopEnv A W E) (script : Nat → LLMResponse A) (events : Nat → List (LLMEvent A))
    (state : SessionState A) (tools : W) (cap : Int) :
    let sync := runSync env.counted script state (.start (tools, 0) (chainBudget cap))
    let stream := (runStream env.counted events state (.start (tools, 0) (chainBudget cap))).1
    (Disciplined (syncResponses script) (env.maxToolRounds + 1) state.messages sync ∧
        Disciplined (streamResponses events) (env.maxToolRounds + 1) state.messages stream) ∧
      (0 < cap → (sync.2.tools.2 : Int) ≤ cap ∧ (stream.2.tools.2 : Int) ≤ cap) := by
  have hdisciplined : ∀ r : Responses A, Disciplined r (env.maxToolRounds + 1) state.messages
      (roundLoop env.counted r (env.maxToolRounds + 1) state (.start (tools, 0) (chainBudget cap))) := fun r =>
    roundLoop_disciplined _ (by simp [LoopRun.start]) .start (by simp [LoopRun.start])
  have hwithin : ∀ r : Responses A, 0 < cap → ((roundLoop env.counted r (env.maxToolRounds + 1) state
      (.start (tools, 0) (chainBudget cap))).2.tools.2 : Int) ≤ cap := by
    intro r hcap
    have hstart : Budgeted cap (LoopRun.start (A := A) (tools, 0) (chainBudget cap)) :=
      ⟨hcap, ⟨false, by simp [LoopRun.start, chainBudget, hcap]⟩, by simp [LoopRun.start]; omega⟩
    have hrun : Budgeted cap (roundLoop env.counted r (env.maxToolRounds + 1) state (.start (tools, 0) (chainBudget cap))).2 :=
      hstart.roundLoop _
    exact hrun.within
  simp only [runSync, runStream, syncLoop_eq_roundLoop, streamLoop_eq_roundLoop]
  exact ⟨⟨hdisciplined _, hdisciplined _⟩, fun hcap => ⟨hwithin _ hcap, hwithin _ hcap⟩⟩

/-- Every call in the messages has a tool message. -/
def CallsAnswered (messages : List (ChatMessage A)) : Prop :=
  ∀ m ∈ messages, ∀ call ∈ m.toolCalls.getD [], some call.id ∈ messages.map ChatMessage.toolCallId

instance (messages : List (ChatMessage A)) : Decidable (CallsAnswered messages) :=
  inferInstanceAs (Decidable (∀ m ∈ messages, ∀ call ∈ m.toolCalls.getD [], _))

open LoopExample in
/-- The blocking loop ends with a response that has a call and the stop reason `stop`. -/
theorem stopped_call_unanswered : ¬ ∀ (env : LoopEnv Nat Unit Unit) (script : Nat → LLMResponse Nat)
    (state final : SessionState Nat), (runSync env script state (.start () none)).1 = .ok final →
      CallsAnswered final.messages := by
  intro h
  exact absurd (h env (script "stop") question _ rfl) (by decide)

end Lumogis
