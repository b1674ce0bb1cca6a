import Lumogis.EventParsing
import Lumogis.Lib.Json
import Lumogis.Lib.Utf8

/-!
# Lumogis.ChatStream

The chat answer from `stream_completion` to the assistant bubble: the frames, their UTF-8 bytes cut
into network chunks, `consumeChatStream` and the outcome that `onSubmit` draws from its callbacks.

The text and the single `onDone` are exact however the bytes are cut and wherever the connection
ends (`chat_round_trip`). The bubble is marked complete at the end of the body, `[DONE]` or not.
-/

namespace Lumogis

open Json (Str Value Number JsValue utf16)

abbrev PyValue := Value Number Str

/-! ## The server -/

structure DocumentCitation where
  chunkIndex : Option Int
  filePath : Str
  score : Json.Float
  scoreKind : Str

inductive StreamEventType
  | text | toolStatus | error
  deriving DecidableEq

structure StreamEvent where
  type : StreamEventType
  content : Str

def pyStr (s : String) : PyValue := .str (Str.ofString s)

def pyDict (members : List (String × PyValue)) : PyValue := .obj (members.map fun m => (Str.ofString m.1, m.2))

def DocumentCitation.dict (c : DocumentCitation) : PyValue :=
  pyDict [("chunk_index", match c.chunkIndex with | none => .null | some i => .num (.int i)),
    ("file_path", .str c.filePath), ("score", .num (.float c.score)), ("score_kind", .str c.scoreKind)]

def finishReason : Option String → PyValue
  | none => .null
  | some reason => pyStr reason

def chunkPayload (chunkId : String) (created : Int) (model : Str) (delta : List (String × PyValue))
    (finish : Option String) (lumogis : Option PyValue) : PyValue :=
  pyDict ([("id", pyStr chunkId), ("object", pyStr "chat.completion.chunk"), ("created", .num (.int created)),
      ("model", .str model),
      ("choices", .arr [pyDict [("index", .num (.int 0)), ("delta", pyDict delta),
        ("finish_reason", finishReason finish)]])] ++
    lumogis.toList.map fun l => ("lumogis", l))

/-- A block of one data line. -/
def dataFrame (data : List Char) : List Char := "data: ".toList ++ data ++ "\n\n".toList

def sseChunk (chunkId : String) (created : Int) (model : Str) (delta : List (String × PyValue))
    (finish : Option String) (lumogis : Option PyValue) : List Char :=
  dataFrame (Json.dumps (chunkPayload chunkId created model delta finish lumogis))

def localModelLoadingNote : Str :=
  Str.ofString "*Loading model on your machine — first time may take 1–2 minutes…*\n\n"

/-- The request that is answered: its model, the settings of the stream, and the loop's events. -/
structure Answer where
  model : Str
  created : Int
  events : List StreamEvent
  prependLoadingNote : Bool
  contextCitations : List DocumentCitation
  privacyMetadata : List (Str × PyValue)

def Answer.lumogisPayload (a : Answer) : Option PyValue :=
  let citations : List (Str × PyValue) := if a.contextCitations = [] then []
    else [(Str.ofString "context_citations", .arr (a.contextCitations.map DocumentCitation.dict))]
  let privacy : List (Str × PyValue) := if a.privacyMetadata = [] then []
    else [(Str.ofString "privacy", .obj a.privacyMetadata)]
  if citations ++ privacy = [] then none else some (.obj (citations ++ privacy))

def chatId : String := "chatcmpl-lumogis"

/-- The strings that the generator yields. -/
def streamCompletion (a : Answer) : List (List Char) :=
  [sseChunk chatId a.created a.model [("role", pyStr "assistant"), ("content", pyStr "")] none a.lumogisPayload] ++
  (if a.prependLoadingNote then
    [sseChunk chatId a.created a.model [("content", .str localModelLoadingNote)] none none] else []) ++
  ((a.events.filter fun event => event.type == .text || event.type == .error).map fun event =>
    sseChunk chatId a.created a.model [("content", .str event.content)] none none) ++
  [sseChunk chatId a.created a.model [] (some "stop") none] ++
  [dataFrame "[DONE]".toList]

/-! ## The client -/

/-- `v.name`, where `v` is not null. -/
def jsGet (v : JsValue) (name : String) : Option JsValue :=
  match v with
  | .obj members => (members.reverse.find? fun m => m.1 == utf16 (Str.ofString name)).map Prod.snd
  | _ => none

/-- `v?.name`. -/
def optGet (v : Option JsValue) (name : String) : Option JsValue := v.bind fun v => jsGet v name

/-- `v?.[0]`. -/
def optFirst : Option JsValue → Option JsValue
  | some (.arr items) => items.head?
  | some (.str s) => s.head?.map fun u => .str [u]
  | _ => none

def jsNull : JsValue → Bool
  | .null => true
  | _ => false

inductive Call
  | onDelta (text : List Nat)
  | onFinish (reason : String)
  | onError (message : String)
  | onDone
  | onContextCitations (citations : JsValue)

structure Handled where
  calls : List Call := []
  stopped : Bool := false
  /-- The message of the error thrown in the handler. -/
  thrown : Option String := none

def Handled.call (h : Handled) (c : Call) : Handled := { h with calls := h.calls ++ [c] }

def Handled.callIf (h : Handled) (c : Option Call) : Handled := { h with calls := h.calls ++ c.toList }

def citationsCall (chunk : JsValue) : Option Call :=
  (optGet (jsGet chunk "lumogis") "context_citations").map .onContextCitations

def deltaCall (choice : JsValue) : Option Call :=
  match optGet (jsGet choice "delta") "content" with
  | some (.str text) => if text = [] then none else some (.onDelta text)
  | _ => none

def finishCall (choice : JsValue) : Option Call :=
  match jsGet choice "finish_reason" with
  | some (.str reason) =>
    if reason = utf16 (Str.ofString "stop") then some (.onFinish "stop")
    else if reason = utf16 (Str.ofString "length") then some (.onFinish "length") else none
  | _ => none

/-- The calls for one choice. -/
def handleChoice (h : Handled) (chunk choice : JsValue) : Handled :=
  let h := h.callIf (citationsCall chunk)
  if jsNull choice then { h with thrown := some "Cannot read properties of null" }
  else (h.callIf (deltaCall choice)).callIf (finishCall choice)

def handleData (h : Handled) (data : List Char) : Handled :=
  if h.stopped || h.thrown.isSome then h
  else if data = "[DONE]".toList then { h.call .onDone with stopped := true }
  else match Json.parse data with
    | none => h.call (.onError "malformed_chunk")
    | some chunk =>
      if jsNull chunk then { h with thrown := some "Cannot read properties of null" }
      else match optFirst (jsGet chunk "choices") with
        | none => h
        | some choice => handleChoice h chunk choice

/-- How the body ends. -/
inductive BodyEnd
  | closed
  | aborted
  | failed (message : String)

/-- After the read loop: an error thrown in it, or the end of the body. -/
def finishBody (h : Handled) (ending : BodyEnd) : Handled :=
  if h.stopped then h
  else match h.thrown, ending with
    | some message, _ => (h.call (.onError message)).call .onDone
    | none, .closed => h.call .onDone
    | none, .aborted => h.call .onDone
    | none, .failed message => (h.call (.onError message)).call .onDone

def readBody (ending : BodyEnd) (decoder : Utf8.Decoder) (buffer : List Char) (h : Handled) :
    List (List UInt8) → Handled
  | [] => finishBody h ending
  | value :: values =>
    if h.stopped || h.thrown.isSome then finishBody h ending
    else
      let decoded := decoder.decode value
      let consumed := consumeEvents (buffer ++ decoded.2)
      readBody ending decoded.1 consumed.2 (consumed.1.foldl (fun h msg => handleData h msg.data) h) values

/-- The callbacks, in order. -/
def consumeChatStream (body : Option (List (List UInt8))) (ending : BodyEnd) : List Call :=
  match body with
  | none => [.onError "empty_response_body", .onDone]
  | some values => (readBody ending {} [] {} values).calls

/-! ## The bubble -/

inductive AssistantStatus
  | streaming | complete | error | aborted
  deriving DecidableEq

structure Bubble where
  content : List Nat
  status : AssistantStatus
  errorDetail : Option String
  deriving DecidableEq

inductive BubbleAction
  | appendAssistantDelta (delta : List Nat)
  | finishAssistant
  | abortAssistant
  | failAssistant (detail : String)

/-- What `threadReducer` does to the message that the action names. -/
def bubbleReducer (m : Bubble) : BubbleAction → Bubble
  | .appendAssistantDelta delta => { m with content := m.content ++ delta }
  | .finishAssistant => { m with status := .complete }
  | .abortAssistant => { m with status := .aborted }
  | .failAssistant detail => { m with status := .error, errorDetail := some detail }

/-- `BEGIN_ASSISTANT`. -/
def beginAssistant : Bubble := ⟨[], .streaming, none⟩

structure Submission where
  sawDelta : Bool := false
  streamError : Option String := none
  bubble : Bubble := beginAssistant

def Submission.on (s : Submission) : Call → Submission
  | .onDelta delta => { s with sawDelta := true, bubble := bubbleReducer s.bubble (.appendAssistantDelta delta) }
  | .onError message => { s with streamError := some message }
  | _ => s

def humaniseStreamError (literal : String) : String :=
  if literal = "malformed_chunk" then "The server sent an unreadable chunk."
  else if literal = "empty_response_body" then "The server returned an empty stream."
  else "Stream error: " ++ literal

/-- What `onSubmit` does with an answered request, up to the outcome. -/
def submitOutcome (aborted : Bool) (calls : List Call) : Bubble :=
  let s := calls.foldl Submission.on {}
  if aborted then bubbleReducer s.bubble .abortAssistant
  else match s.streamError with
    | some message => bubbleReducer s.bubble (.failAssistant (humaniseStreamError message))
    | none =>
      if !s.sawDelta then bubbleReducer s.bubble (.failAssistant "The model returned no content.")
      else bubbleReducer s.bubble .finishAssistant

/-! ## What was received -/

/-- The text that each frame adds to the answer. -/
def frameTexts (a : Answer) : List Str :=
  [[]] ++ (if a.prependLoadingNote then [localModelLoadingNote] else []) ++
  ((a.events.filter fun event => event.type == .text || event.type == .error).map StreamEvent.content) ++
  [[]] ++ [[]]

/-- The frames on the wire. -/
def frameBytes (a : Answer) : List (List UInt8) := (streamCompletion a).map Utf8.encode

/-- How many frames the first `n` bytes hold whole. -/
def fullyReceived {α : Type} : List (List α) → Nat → Nat
  | [], _ => 0
  | frame :: frames, n => if frame.length ≤ n then fullyReceived frames (n - frame.length) + 1 else 0

/-- The text of the frames that the first `n` bytes hold whole. -/
def receivedText (a : Answer) (n : Nat) : List Nat :=
  ((frameTexts a).take (fullyReceived (frameBytes a) n)).flatMap utf16

/-- The first `n` bytes hold the answer up to `[DONE]`; only the blank line after it may be missing. -/
def AnswerReceived (a : Answer) (n : Nat) : Prop := (frameBytes a).flatten.length ≤ n + 2

/-- No number of the citations or of the privacy metadata is unknown to JSON. -/
def MetadataReadable (a : Answer) : Prop := ∀ l, a.lumogisPayload = some l → (Json.toJs l).isSome

def Call.isDone : Call → Bool
  | .onDone => true
  | _ => false

def Call.isError : Call → Bool
  | .onError _ => true
  | _ => false

def Call.text : Call → List Nat
  | .onDelta text => text
  | _ => []

/-! ## The payloads read back -/

/-- A chunk as the client reads it. -/
def chunkJs (created : Int) (model : Str) (delta finish : JsValue) (extra : List (List Nat × JsValue)) : JsValue :=
  .obj ([(utf16 (Str.ofString "id"), .str (utf16 (Str.ofString chatId))),
    (utf16 (Str.ofString "object"), .str (utf16 (Str.ofString "chat.completion.chunk"))),
    (utf16 (Str.ofString "created"), .num (Number.int created).text),
    (utf16 (Str.ofString "model"), .str (utf16 model)),
    (utf16 (Str.ofString "choices"), .arr [.obj [(utf16 (Str.ofString "index"), .num (Number.int 0).text),
      (utf16 (Str.ofString "delta"), delta), (utf16 (Str.ofString "finish_reason"), finish)]])] ++ extra)

theorem toJsMembers_append (l m : List (Str × PyValue)) : Json.toJsMembers (l ++ m) =
    (Json.toJsMembers l).bind fun x => (Json.toJsMembers m).map (x ++ ·) := by
  induction l with
  | nil =>
    rw [List.nil_append, Json.toJsMembers, Option.bind_some]
    cases Json.toJsMembers m <;> rfl
  | cons p l ih =>
    rw [List.cons_append, Json.toJsMembers, Json.toJsMembers, ih]
    cases Json.toJs p.2 with
    | none => rfl
    | some v => cases Json.toJsMembers l <;> cases Json.toJsMembers m <;> rfl

def finishJs : Option String → JsValue
  | none => .null
  | some reason => .str (utf16 (Str.ofString reason))

theorem toJs_finishReason (finish : Option String) : Json.toJs (finishReason finish) = some (finishJs finish) := by
  cases finish <;> rfl

theorem toJs_chunk {delta : List (String × PyValue)} {d : JsValue} (hd : Json.toJs (pyDict delta) = some d)
    (created : Int) (model : Str) (finish : Option String) (lumogis : Option PyValue) :
    Json.toJs (chunkPayload chatId created model delta finish lumogis) =
      (match lumogis with
        | none => some []
        | some l => (Json.toJs l).map fun l => [(utf16 (Str.ofString "lumogis"), l)]).map
        (chunkJs created model d (finishJs finish)) := by
  have hchoice : Json.toJs (pyDict [("index", .num (.int 0)), ("delta", pyDict delta),
      ("finish_reason", finishReason finish)]) = some (.obj [(utf16 (Str.ofString "index"), .num (Number.int 0).text),
        (utf16 (Str.ofString "delta"), d), (utf16 (Str.ofString "finish_reason"), finishJs finish)]) := by
    rw [pyDict, List.map_cons, List.map_cons, List.map_singleton, Json.toJs, Json.toJsMembers, Json.toJsMembers,
      Json.toJsMembers, Json.toJsMembers, hd, toJs_finishReason, Json.toJs, Json.isNumber_int, if_pos rfl]
    simp only [Option.bind_some, Option.map_some]
  rw [chunkPayload, pyDict, List.map_append, Json.toJs, toJsMembers_append]
  simp only [List.map_cons, List.map_nil, Json.toJsMembers, hchoice, pyStr, Json.toJs, Json.toJsItems,
    Json.isNumber_int, if_true, Option.bind_some, Option.map_some]
  cases lumogis with
  | none => rfl
  | some l =>
    simp only [Option.toList_some, List.map_cons, List.map_nil, Json.toJsMembers]
    cases Json.toJs l <;> rfl

/-! ## The handler -/

/-- The calls give the text, and neither end the answer nor report an error. -/
structure Gives (calls : List Call) (text : List Nat) : Prop where
  text : calls.flatMap Call.text = text
  noDone : ∀ c ∈ calls, c.isDone = false
  noError : ∀ c ∈ calls, c.isError = false
  nonempty : ∀ delta, Call.onDelta delta ∈ calls → delta ≠ []

theorem Gives.append {l m : List Call} {s t : List Nat} (hl : Gives l s) (hm : Gives m t) : Gives (l ++ m) (s ++ t) where
  text := by rw [List.flatMap_append, hl.text, hm.text]
  noDone := fun c hc => (List.mem_append.mp hc).elim (hl.noDone c) (hm.noDone c)
  noError := fun c hc => (List.mem_append.mp hc).elim (hl.noError c) (hm.noError c)
  nonempty := fun d hd => (List.mem_append.mp hd).elim (hl.nonempty d) (hm.nonempty d)

theorem Gives.nil : Gives [] [] := ⟨rfl, by simp, by simp, by simp⟩

theorem Gives.citations (v : Option JsValue) : Gives (v.map Call.onContextCitations).toList [] := by
  cases v with
  | none => exact .nil
  | some v => exact ⟨rfl, by simp [Call.isDone], by simp [Call.isError], by simp⟩

theorem Gives.finish (reason : String) : Gives [.onFinish reason] [] :=
  ⟨rfl, by simp [Call.isDone], by simp [Call.isError], by simp⟩

theorem Gives.delta (text : List Nat) :
    Gives (if text = [] then none else some (Call.onDelta text)).toList text := by
  by_cases h : text = []
  · rw [if_pos h, h]
    exact .nil
  · rw [if_neg h]
    refine ⟨by simp [Call.text], by simp [Call.isDone], by simp [Call.isError], fun d hd => ?_⟩
    have heq : d = text := by simpa using hd
    rwa [heq]

/-- The data is read without an error and adds the text. -/
def Adds (data : List Char) (text : List Nat) : Prop :=
  ∀ h : Handled, h.stopped = false → h.thrown = none →
    ∃ calls, handleData h data = { h with calls := h.calls ++ calls } ∧ Gives calls text

/-- The delta of a chunk, read back, has the text. -/
def DeltaText (d : JsValue) (text : List Nat) : Prop :=
  jsGet d "content" = some (.str text) ∨ (jsGet d "content" = none ∧ text = [])

theorem deltaCall_gives {choice d : JsValue} {text : List Nat} (hchoice : jsGet choice "delta" = some d)
    (hd : DeltaText d text) : Gives (deltaCall choice).toList text := by
  rw [deltaCall, hchoice, optGet, Option.bind_some]
  rcases hd with hd | ⟨hd, rfl⟩
  · rw [hd]
    exact Gives.delta text
  · rw [hd]
    exact Gives.nil

theorem finishCall_gives {choice : JsValue} {finish : Option String} (hfinish : finish = none ∨ finish = some "stop")
    (hchoice : jsGet choice "finish_reason" = some (finishJs finish)) : Gives (finishCall choice).toList [] := by
  rw [finishCall, hchoice]
  rcases hfinish with rfl | rfl
  · exact Gives.nil
  · exact Gives.finish "stop"

theorem adds_chunk {data : List Char} {created : Int} {model : Str} {d : JsValue} {finish : Option String}
    {extra : List (List Nat × JsValue)} {text : List Nat} (hdone : data ≠ "[DONE]".toList)
    (hparse : Json.parse data = some (chunkJs created model d (finishJs finish) extra))
    (hextra : extra = [] ∨ ∃ l, extra = [(utf16 (Str.ofString "lumogis"), l)])
    (hfinish : finish = none ∨ finish = some "stop") (hd : DeltaText d text) : Adds data text := by
  intro h hstop hthrown
  have hopen : (h.stopped || h.thrown.isSome) = false := by
    rw [hstop, hthrown]
    rfl
  have hnull : jsNull (chunkJs created model d (finishJs finish) extra) = false := rfl
  obtain ⟨choice, hchoice, hdelta, hreason, hobj⟩ : ∃ choice,
      optFirst (jsGet (chunkJs created model d (finishJs finish) extra) "choices") = some choice ∧
      jsGet choice "delta" = some d ∧ jsGet choice "finish_reason" = some (finishJs finish) ∧
      jsNull choice = false := by
    rcases hextra with rfl | ⟨l, rfl⟩ <;> exact ⟨_, rfl, rfl, rfl, rfl⟩
  have hcitations := Gives.citations
    (optGet (jsGet (chunkJs created model d (finishJs finish) extra) "lumogis") "context_citations")
  have hgives := (hcitations.append (deltaCall_gives hdelta hd)).append (finishCall_gives hfinish hreason)
  rw [List.nil_append, List.append_nil] at hgives
  refine ⟨_, ?_, hgives⟩
  rw [handleData, hopen, if_neg (by decide), if_neg hdone, hparse]
  simp only [hnull, hchoice]
  rw [if_neg (by decide), handleChoice, hobj, if_neg (by decide)]
  simp only [Handled.callIf, List.append_assoc]
  rfl

theorem handleData_unread {data : List Char} (hdone : data ≠ "[DONE]".toList) (hparse : Json.parse data = none)
    {h : Handled} (hstop : h.stopped = false) (hthrown : h.thrown = none) :
    handleData h data = h.call (.onError "malformed_chunk") := by
  have hopen : (h.stopped || h.thrown.isSome) = false := by
    rw [hstop, hthrown]
    rfl
  rw [handleData, hopen, if_neg (by decide), if_neg hdone, hparse]

theorem handleData_done {h : Handled} (hstop : h.stopped = false) (hthrown : h.thrown = none) :
    handleData h "[DONE]".toList = { h.call .onDone with stopped := true } := by
  have hopen : (h.stopped || h.thrown.isSome) = false := by
    rw [hstop, hthrown]
    rfl
  rw [handleData, hopen, if_neg (by decide), if_pos rfl]

theorem foldl_adds {items : List (List Char × List Nat)} (hitems : ∀ i ∈ items, Adds i.1 i.2) {h : Handled}
    (hstop : h.stopped = false) (hthrown : h.thrown = none) :
    ∃ calls, (items.map Prod.fst).foldl handleData h = { h with calls := h.calls ++ calls } ∧
      Gives calls (items.flatMap Prod.snd) := by
  induction items generalizing h with
  | nil => exact ⟨[], by simp, Gives.nil⟩
  | cons i items ih =>
    obtain ⟨calls, hcall, hgives⟩ := hitems i List.mem_cons_self h hstop hthrown
    obtain ⟨more, hmore, hgives'⟩ := ih (fun i' hi' => hitems i' (List.mem_cons_of_mem i hi'))
      (h := { h with calls := h.calls ++ calls }) hstop hthrown
    refine ⟨calls ++ more, ?_, hgives.append hgives'⟩
    rw [List.map_cons, List.foldl_cons, hcall, hmore, List.append_assoc]

/-! ## The answer -/

/-- The data of the first frame. -/
def firstData (a : Answer) : List Char :=
  Json.dumps (chunkPayload chatId a.created a.model [("role", pyStr "assistant"), ("content", pyStr "")] none
    a.lumogisPayload)

/-- The data and the text of a frame with content. -/
def contentItem (a : Answer) (text : Str) : List Char × Str :=
  (Json.dumps (chunkPayload chatId a.created a.model [("content", .str text)] none none), text)

/-- The frames between the first and `[DONE]`. -/
def middleItems (a : Answer) : List (List Char × Str) :=
  ((if a.prependLoadingNote then [localModelLoadingNote] else []) ++
    (a.events.filter fun event => event.type == .text || event.type == .error).map StreamEvent.content).map
      (contentItem a) ++
  [(Json.dumps (chunkPayload chatId a.created a.model [] (some "stop") none), [])]

/-- The data of all frames. -/
def answerData (a : Answer) : List (List Char) :=
  firstData a :: ((middleItems a).map Prod.fst ++ ["[DONE]".toList])

theorem streamCompletion_eq (a : Answer) : streamCompletion a = (answerData a).map dataFrame := by
  simp only [streamCompletion, answerData, middleItems, sseChunk, firstData]
  cases a.prependLoadingNote <;> simp [contentItem]

theorem frameTexts_eq (a : Answer) : frameTexts a = [] :: ((middleItems a).map Prod.snd ++ [[]]) := by
  simp only [frameTexts, middleItems]
  cases a.prependLoadingNote <;> simp [contentItem]

theorem dumps_ne_done (created : Int) (model : Str) (delta : List (String × PyValue)) (finish : Option String)
    (lumogis : Option PyValue) : Json.dumps (chunkPayload chatId created model delta finish lumogis) ≠
      "[DONE]".toList := by
  intro h
  have hhead := congrArg List.head? h
  simp [chunkPayload, pyDict, Json.dumps] at hhead

theorem adds_contentItem (a : Answer) (text : Str) : Adds (contentItem a text).1 (utf16 text) := by
  have hd : Json.toJs (pyDict [("content", .str text)]) =
      some (.obj [(utf16 (Str.ofString "content"), .str (utf16 text))]) := by
    simp only [pyDict, List.map_cons, List.map_nil, Json.toJs, Json.toJsMembers, Option.bind_some, Option.map_some]
  have hparse := (Json.parse_dumps _).trans (toJs_chunk hd a.created a.model none none)
  exact adds_chunk (dumps_ne_done _ _ _ _ _) hparse (.inl rfl) (.inl rfl) (.inl rfl)

theorem adds_middleItems (a : Answer) : ∀ i ∈ middleItems a, Adds i.1 (utf16 i.2) := by
  intro i hi
  rcases List.mem_append.mp hi with hi | hi
  · obtain ⟨text, -, rfl⟩ := List.mem_map.mp hi
    exact adds_contentItem a text
  · obtain rfl := List.mem_singleton.mp hi
    have hd : Json.toJs (pyDict []) = some (.obj []) := rfl
    have hparse := (Json.parse_dumps _).trans (toJs_chunk hd a.created a.model (some "stop") none)
    exact adds_chunk (dumps_ne_done _ _ _ _ _) hparse (.inl rfl) (.inr rfl) (.inr ⟨rfl, rfl⟩)

theorem toJs_first : Json.toJs (pyDict [("role", pyStr "assistant"), ("content", pyStr "")]) =
    some (.obj [(utf16 (Str.ofString "role"), .str (utf16 (Str.ofString "assistant"))),
      (utf16 (Str.ofString "content"), .str [])]) := rfl

theorem adds_first {a : Answer} (h : MetadataReadable a) : Adds (firstData a) [] := by
  have hparse := (Json.parse_dumps _).trans (toJs_chunk toJs_first a.created a.model none a.lumogisPayload)
  cases hl : a.lumogisPayload with
  | none =>
    rw [hl] at hparse
    rw [firstData, hl]
    exact adds_chunk (dumps_ne_done _ _ _ _ _) hparse (.inl rfl) (.inl rfl) (.inl rfl)
  | some l =>
    obtain ⟨js, hjs⟩ := Option.isSome_iff_exists.mp (h l hl)
    rw [hl] at hparse
    simp only [hjs] at hparse
    rw [firstData, hl]
    exact adds_chunk (dumps_ne_done _ _ _ _ _) hparse (.inr ⟨js, rfl⟩) (.inl rfl) (.inl rfl)

theorem first_unread {a : Answer} (h : ¬MetadataReadable a) : Json.parse (firstData a) = none := by
  simp only [MetadataReadable, not_forall] at h
  obtain ⟨l, hl, hnone⟩ := h
  have hparse := (Json.parse_dumps _).trans (toJs_chunk toJs_first a.created a.model none a.lumogisPayload)
  rw [hl] at hparse
  rw [firstData, hl, hparse]
  simp only [Option.not_isSome_iff_eq_none.mp hnone]
  rfl

/-- The frames after the first: calls that give their texts, and one `onDone`, by `[DONE]` or by the
end of the body. -/
theorem middle_calls (a : Answer) (k : Nat) {h : Handled} (hstop : h.stopped = false) (hthrown : h.thrown = none) :
    ∃ calls, (finishBody ((((middleItems a).map Prod.fst ++ ["[DONE]".toList]).take k).foldl handleData h) .closed).calls =
        h.calls ++ calls ++ [.onDone] ∧
      Gives calls ((((middleItems a).map Prod.snd ++ [[]]).take k).flatMap utf16) := by
  have hitems : ∀ i ∈ ((middleItems a).take k).map fun i => (i.1, utf16 i.2), Adds i.1 i.2 := by
    intro i hi
    obtain ⟨j, hj, rfl⟩ := List.mem_map.mp hi
    exact adds_middleItems a j (List.take_subset k _ hj)
  obtain ⟨calls, hcalls, hgives⟩ := foldl_adds hitems hstop hthrown
  have hfst : (((middleItems a).take k).map fun i => (i.1, utf16 i.2)).map Prod.fst =
      ((middleItems a).map Prod.fst).take k := by
    rw [List.map_map, List.map_take]
    rfl
  have hsnd : ((((middleItems a).take k).map fun i => (i.1, utf16 i.2)).flatMap Prod.snd) =
      (((middleItems a).map Prod.snd ++ [[]]).take k).flatMap utf16 := by
    have hlast : ((([[]] : List Str).take (k - ((middleItems a).map Prod.snd).length)).flatMap utf16) = [] := by
      cases k - ((middleItems a).map Prod.snd).length <;> simp [utf16]
    rw [List.take_append, List.flatMap_append, hlast, List.append_nil, ← List.map_take, List.flatMap_map,
      List.flatMap_map]
  rw [hfst] at hcalls
  rw [hsnd] at hgives
  refine ⟨calls, ?_, hgives⟩
  rw [List.take_append, List.foldl_append, hcalls]
  cases k - ((middleItems a).map Prod.fst).length with
  | zero =>
    simp [finishBody, hstop, hthrown, Handled.call]
  | succ m =>
    have hdone := handleData_done (h := { h with calls := h.calls ++ calls }) hstop hthrown
    rw [List.take_succ_cons, List.take_nil, List.foldl_cons, List.foldl_nil, hdone]
    simp [finishBody, Handled.call]

/-- The calls for the first `k` frames of an answer whose body then ends: the error of an unread first
frame, calls that give the texts, and one `onDone`. -/
theorem answer_calls (a : Answer) (k : Nat) : ∃ errors calls,
    (finishBody (((answerData a).take k).foldl handleData {}) .closed).calls = errors ++ calls ++ [.onDone] ∧
      Gives calls (((frameTexts a).take k).flatMap utf16) ∧
      ((errors = [] ∧ (MetadataReadable a ∨ k = 0)) ∨
        (errors = [.onError "malformed_chunk"] ∧ ¬MetadataReadable a ∧ 0 < k)) := by
  cases k with
  | zero => exact ⟨[], [], rfl, Gives.nil, .inl ⟨rfl, .inr rfl⟩⟩
  | succ k =>
    rw [answerData, frameTexts_eq, List.take_succ_cons, List.take_succ_cons, List.foldl_cons, List.flatMap_cons]
    by_cases hread : MetadataReadable a
    · obtain ⟨first, hfirst, hgives⟩ := adds_first hread {} rfl rfl
      obtain ⟨calls, hcalls, hgives'⟩ := middle_calls a k (h := { calls := first }) rfl rfl
      rw [hfirst]
      exact ⟨[], first ++ calls, hcalls, hgives.append hgives', .inl ⟨rfl, .inl hread⟩⟩
    · obtain ⟨calls, hcalls, hgives⟩ := middle_calls a k
        (h := { calls := [.onError "malformed_chunk"] }) rfl rfl
      have hunread : handleData {} (firstData a) = { calls := [.onError "malformed_chunk"] } :=
        handleData_unread (dumps_ne_done _ _ _ _ _) (first_unread hread) rfl rfl
      rw [hunread]
      exact ⟨[.onError "malformed_chunk"], calls, hcalls, hgives, .inr ⟨rfl, hread, Nat.succ_pos k⟩⟩

/-! ## The outcome -/

theorem foldl_on {calls : List Call} (herror : ∀ c ∈ calls, c.isError = false)
    (hne : ∀ delta, Call.onDelta delta ∈ calls → delta ≠ []) (s : Submission) :
    calls.foldl Submission.on s =
      { s with sawDelta := s.sawDelta || !(calls.flatMap Call.text).isEmpty,
               bubble := { s.bubble with content := s.bubble.content ++ calls.flatMap Call.text } } := by
  induction calls generalizing s with
  | nil => simp
  | cons c calls ih =>
    rw [List.foldl_cons, ih (fun c' hc' => herror c' (List.mem_cons_of_mem c hc'))
      fun d hd => hne d (List.mem_cons_of_mem c hd)]
    cases c with
    | onDelta delta =>
      have hdelta : delta ≠ [] := hne delta List.mem_cons_self
      simp [Submission.on, bubbleReducer, Call.text, hdelta]
    | onError message => exact absurd (herror _ List.mem_cons_self) (by simp [Call.isError])
    | onFinish reason => simp [Submission.on, Call.text]
    | onDone => simp [Submission.on, Call.text]
    | onContextCitations v => simp [Submission.on, Call.text]

theorem submitOutcome_eq {errors calls : List Call} {text : List Nat} (hgives : Gives calls text)
    (herrors : errors = [] ∨ errors = [.onError "malformed_chunk"]) :
    (submitOutcome false (errors ++ calls ++ [.onDone])).content = text ∧
      ((submitOutcome false (errors ++ calls ++ [.onDone])).status = .complete ↔ errors = [] ∧ text ≠ []) := by
  have hfold := foldl_on hgives.noError hgives.nonempty
  rw [hgives.text] at hfold
  have hdone : ∀ s : Submission, Submission.on s .onDone = s := fun _ => rfl
  rcases herrors with rfl | rfl
  · simp only [submitOutcome, List.nil_append, List.foldl_append, List.foldl_cons, List.foldl_nil, hfold, hdone]
    by_cases htext : text = [] <;> simp [htext, bubbleReducer, beginAssistant]
  · simp only [submitOutcome, List.foldl_append, List.foldl_cons, List.foldl_nil, hfold, Submission.on]
    simp [bubbleReducer, beginAssistant]

/-! ## The bytes -/

theorem foldl_handled_closed {h : Handled} (hclosed : (h.stopped || h.thrown.isSome) = true)
    (msgs : List SseMessage) : msgs.foldl (fun h msg => handleData h msg.data) h = h := by
  induction msgs with
  | nil => rfl
  | cons msg msgs ih =>
    rw [List.foldl_cons, handleData, hclosed]
    exact ih

theorem readBody_ascii (ending : BodyEnd) (decoder : Utf8.Decoder) (hdecoder : decoder.needed = 0)
    (buffer : List Char) (h : Handled) {values : List (List UInt8)} {text : List Char} (htext : Utf8.Ascii text)
    (hvalues : values.flatten = text.map fun c => UInt8.ofNat c.toNat) : ∃ chunks : List (List Char),
      chunks.flatten = text ∧ readBody ending decoder buffer h values =
        finishBody ((readLoop buffer chunks).foldl (fun h msg => handleData h msg.data) h) ending := by
  induction values generalizing decoder buffer h text with
  | nil =>
    have hnil : text = [] := List.map_eq_nil_iff.mp hvalues.symm
    exact ⟨[], hnil.symm, rfl⟩
  | cons value values ih =>
    rw [readBody]
    split
    · rename_i hclosed
      refine ⟨[text], List.append_nil text, ?_⟩
      rw [foldl_handled_closed hclosed]
    · rw [List.flatten_cons] at hvalues
      obtain ⟨first, others, rfl, hfirst, hothers⟩ := List.map_eq_append_iff.mp hvalues.symm
      have hascii := List.forall_mem_append.mp htext
      obtain ⟨hneeded, hchars⟩ := Utf8.decode_ascii hdecoder hascii.1
      rw [hfirst] at hneeded hchars
      obtain ⟨chunks, hchunks, hread⟩ := ih _ hneeded (consumeEvents (buffer ++ first)).2
        ((consumeEvents (buffer ++ first)).1.foldl (fun h msg => handleData h msg.data) h) hascii.2 hothers.symm
      refine ⟨first :: chunks, by rw [List.flatten_cons, hchunks], ?_⟩
      simp only [hchars, hread, readLoop, List.foldl_append]

/-! ## The frames -/

theorem parseEvent_data {data : List Char} (h : '\n' ∉ data) :
    parseEvent ("data: ".toList ++ data) = some ⟨none, "message".toList, data⟩ := by
  have hsplit : ("data: ".toList ++ data).splitOn '\n' = ["data: ".toList ++ data] :=
    List.splitOn_eq_singleton (by simp [h])
  have hfield : EventStream.field ("data: ".toList ++ data) = ("data".toList, data) := rfl
  have hdata : EventStream.dataLines ["data: ".toList ++ data] = [data] := by
    rw [EventStream.dataLines, values_singleton, hfield, if_pos rfl]
  have hid : EventStream.lastId ["data: ".toList ++ data] = none := by
    have hne : ("data".toList, data).1 ≠ "id".toList := (by decide : "data".toList ≠ "id".toList)
    rw [EventStream.lastId, values_singleton, hfield, if_neg hne]
    rfl
  have htype : takenType ["data: ".toList ++ data] = "message".toList := by
    have hne : ("data".toList, data).1 ≠ "event".toList := (by decide : "data".toList ≠ "event".toList)
    rw [takenType, values_singleton, hfield, if_neg hne]
    rfl
  rw [parseEvent_eq, hsplit, dispatch_filter, EventStream.dispatch, hdata, hid, htype, if_neg (by simp)]
  simp

theorem noBlank_frame {data : List Char} (h : '\n' ∉ data) :
    ¬ ['\n', '\n'] <:+: "data: ".toList ++ data ++ ['\n'] := by
  intro hin
  have hcount := hin.sublist.count_le '\n'
  have hzero : data.count '\n' = 0 := List.count_eq_zero.mpr h
  simp [hzero] at hcount

/-- Of the first `n` characters of the frames, those that are whole are read. -/
theorem emitted_frames {datas : List (List Char)} (h : ∀ data ∈ datas, '\n' ∉ data) (n : Nat) :
    emitted ((datas.map dataFrame).flatten.take n) =
      (datas.take (fullyReceived (datas.map dataFrame) n)).map fun data => ⟨none, "message".toList, data⟩ := by
  induction datas generalizing n with
  | nil => simp [emitted, splitBlank]
  | cons data datas ih =>
    have hdata := h data List.mem_cons_self
    have hframe : dataFrame data = ("data: ".toList ++ data) ++ ['\n', '\n'] := rfl
    rw [List.map_cons, List.flatten_cons, fullyReceived]
    split
    · rename_i hle
      have htake : (dataFrame data ++ (datas.map dataFrame).flatten).take n =
          ("data: ".toList ++ data) ++ '\n' :: '\n' :: (datas.map dataFrame).flatten.take (n - (dataFrame data).length) := by
        rw [List.take_append, List.take_of_length_le hle, hframe]
        simp
      rw [htake, emitted, splitBlank_blank (noBlank_frame hdata), List.dropLast_cons_of_ne_nil (splitBlank_ne_nil _),
        List.filterMap_cons, parseEvent_data hdata, List.take_succ_cons, List.map_cons]
      exact congrArg _ (ih (fun d hd => h d (List.mem_cons_of_mem data hd)) _)
    · rename_i hlt
      -- A frame that is cut has no blank line yet.
      have hprefix : (dataFrame data ++ (datas.map dataFrame).flatten).take n <+: "data: ".toList ++ data ++ ['\n'] := by
        have hlen : (dataFrame data).length = ("data: ".toList ++ data ++ ['\n']).length + 1 := by
          simp [hframe]
        have hcut : dataFrame data = ("data: ".toList ++ data ++ ['\n']) ++ ['\n'] := by
          simp [hframe]
        rw [hcut, List.append_assoc, List.take_append_of_le_length (by omega)]
        exact List.take_prefix _ _
      have hopen := fun hin => noBlank_frame hdata (List.IsInfix.trans hin hprefix.isInfix)
      rw [emitted, splitBlank_noBlank hopen, List.take_zero]
      rfl

/-! ## The round trip -/

theorem fullyReceived_map {α β : Type} {frames : List (List α)} {f : List α → List β}
    (h : ∀ frame ∈ frames, (f frame).length = frame.length) (n : Nat) :
    fullyReceived (frames.map f) n = fullyReceived frames n := by
  induction frames generalizing n with
  | nil => rfl
  | cons frame frames ih =>
    rw [List.map_cons, fullyReceived, fullyReceived, h frame List.mem_cons_self,
      ih fun frame' hf => h frame' (List.mem_cons_of_mem frame hf)]

theorem answerData_printable (a : Answer) : ∀ data ∈ answerData a, ∀ c ∈ data, Json.Printable c := by
  intro data hdata
  rcases List.mem_cons.mp hdata with rfl | hdata
  · exact Json.dumps_printable _
  · rcases List.mem_append.mp hdata with hdata | hdata
    · obtain ⟨i, hi, rfl⟩ := List.mem_map.mp hdata
      rcases List.mem_append.mp hi with hi | hi
      · obtain ⟨text, -, rfl⟩ := List.mem_map.mp hi
        exact Json.dumps_printable _
      · obtain rfl := List.mem_singleton.mp hi
        exact Json.dumps_printable _
    · obtain rfl := List.mem_singleton.mp hdata
      exact Json.printable_of_all (by decide)

theorem mem_dataFrame {data : List Char} {c : Char} :
    c ∈ dataFrame data ↔ (c ∈ "data: ".toList ∨ c ∈ data) ∨ c ∈ "\n\n".toList := by
  change c ∈ "data: ".toList ++ data ++ "\n\n".toList ↔ _
  rw [List.mem_append, List.mem_append]

theorem frames_ascii (a : Answer) : ∀ frame ∈ streamCompletion a, Utf8.Ascii frame := by
  intro frame hframe c hc
  rw [streamCompletion_eq] at hframe
  obtain ⟨data, hdata, rfl⟩ := List.mem_map.mp hframe
  rw [mem_dataFrame] at hc
  rcases hc with (hc | hc) | hc
  · exact Utf8.ascii_of_all (by decide) c hc
  · exact Nat.le_succ_of_le (answerData_printable a data hdata c hc).2
  · exact Utf8.ascii_of_all (by decide) c hc

theorem frameBytes_flatten (a : Answer) :
    (frameBytes a).flatten = (streamCompletion a).flatten.map fun c => UInt8.ofNat c.toNat := by
  have hmap : frameBytes a = (streamCompletion a).map (List.map fun c => UInt8.ofNat c.toNat) :=
    List.map_congr_left fun frame hframe => Utf8.encode_ascii (frames_ascii a frame hframe)
  rw [hmap, List.map_flatten]

theorem consume_answer {a : Answer} {values : List (List UInt8)} (h : values.flatten <+: (frameBytes a).flatten) :
    (consumeChatStream (some values) .closed) =
      (finishBody (((answerData a).take (fullyReceived (frameBytes a) values.flatten.length)).foldl handleData {})
        .closed).calls := by
  have hframes := streamCompletion_eq a
  have hlf : ∀ data ∈ answerData a, '\n' ∉ data := by
    intro data hdata hmem
    exact absurd (answerData_printable a data hdata '\n' hmem) (by decide)
  have hcr : '\r' ∉ (streamCompletion a).flatten := by
    intro hmem
    obtain ⟨frame, hframe, hc⟩ := List.mem_flatten.mp hmem
    rw [hframes] at hframe
    obtain ⟨data, hdata, rfl⟩ := List.mem_map.mp hframe
    rw [mem_dataFrame] at hc
    rcases hc with (hc | hc) | hc
    · exact absurd hc (by decide)
    · exact absurd (answerData_printable a data hdata '\r' hc) (by decide)
    · exact absurd hc (by decide)
  generalize hn : values.flatten.length = n
  have hvalues : values.flatten = ((streamCompletion a).flatten.take n).map fun c => UInt8.ofNat c.toNat := by
    rw [List.prefix_iff_eq_take.mp h, hn, frameBytes_flatten, List.map_take]
  have hascii : Utf8.Ascii ((streamCompletion a).flatten.take n) := by
    intro c hc
    obtain ⟨frame, hframe, hc⟩ := List.mem_flatten.mp (List.mem_of_mem_take hc)
    exact frames_ascii a frame hframe c hc
  obtain ⟨chunks, hchunks, hread⟩ := readBody_ascii .closed {} rfl [] {} hascii hvalues
  have hnormal : chunks.flatMap normalise = (streamCompletion a).flatten.take n := by
    rw [← hchunks, ← List.flatMap_id]
    apply List.flatMap_congr
    intro chunk hchunk
    have hno : '\r' ∉ chunk := by
      intro hmem
      exact hcr (List.mem_of_mem_take (hchunks ▸ List.mem_flatten.mpr ⟨chunk, hchunk, hmem⟩))
    have happend := normalise_append hno []
    rw [List.append_nil] at happend
    rw [happend, normalise, List.append_nil]
    rfl
  have hlengths : ∀ frame ∈ streamCompletion a, (Utf8.encode frame).length = frame.length := by
    intro frame hframe
    rw [Utf8.encode_ascii (frames_ascii a frame hframe), List.length_map]
  have hloop : readLoop [] chunks = emitted ([] ++ chunks.flatMap normalise) := readLoop_eq List.not_mem_nil rfl chunks
  rw [List.nil_append, hnormal, hframes, emitted_frames hlf] at hloop
  rw [consumeChatStream, hread, hloop, List.foldl_map, frameBytes, fullyReceived_map hlengths, hframes]

/-- However the bytes of an answer are cut and wherever the connection ends: the bubble has the text
that was received, `onDone` is called once, and the bubble is complete only with `[DONE]` received,
exactly when the connection did not end after some text and before `[DONE]`. -/
theorem chat_round_trip (a : Answer) (values : List (List UInt8)) (h : values.flatten <+: (frameBytes a).flatten) :
    ((submitOutcome false (consumeChatStream (some values) .closed)).content =
        receivedText a values.flatten.length ∧
      ((consumeChatStream (some values) .closed).filter Call.isDone).length = 1 ∧
      ((submitOutcome false (consumeChatStream (some values) .closed)).status = .complete →
        AnswerReceived a values.flatten.length)) ↔
    AnswerReceived a values.flatten.length ∨ receivedText a values.flatten.length = [] ∨ ¬MetadataReadable a := by
  obtain ⟨errors, calls, hcalls, hgives, herrors⟩ :=
    answer_calls a (fullyReceived (frameBytes a) values.flatten.length)
  have hcases : errors = [] ∨ errors = [.onError "malformed_chunk"] := herrors.imp And.left And.left
  obtain ⟨hcontent, hcomplete⟩ := submitOutcome_eq hgives hcases
  have hdone : ((errors ++ calls ++ [Call.onDone]).filter Call.isDone).length = 1 := by
    have hnone : calls.filter Call.isDone = [] := by
      apply List.filter_eq_nil_iff.mpr
      intro c hc
      simp [hgives.noDone c hc]
    rcases hcases with rfl | rfl <;> simp [hnone, Call.isDone, List.filter_cons]
  rw [consume_answer h, hcalls, hcontent, hdone, hcomplete]
  constructor
  · rintro ⟨-, -, hcomplete⟩
    by_contra hcut
    simp only [not_or, not_not] at hcut
    obtain ⟨hopen, htext, hread⟩ := hcut
    rcases herrors with ⟨hnone, -⟩ | ⟨-, hunread, -⟩
    · exact hopen (hcomplete ⟨hnone, htext⟩)
    · exact hunread hread
  · intro hwhole
    refine ⟨rfl, rfl, fun hok => ?_⟩
    rcases hwhole with hwhole | htext | hunread
    · exact hwhole
    · exact absurd htext hok.2
    · rcases herrors with ⟨-, hread | hzero⟩ | ⟨herror, -, -⟩
      · exact absurd hread hunread
      · rw [hzero] at hok
        exact absurd rfl hok.2
      · rw [hok.1] at herror
        cases herror

namespace ChatExample

/-- The answer of two events. -/
def hello : Answer where
  model := Str.ofString "claude"
  created := 0
  events := [⟨.text, Str.ofString "Hello"⟩, ⟨.text, Str.ofString " world"⟩]
  prependLoadingNote := false
  contextCitations := []
  privacyMetadata := []

/-- What arrives of it: the first two frames. -/
def cutBytes : List UInt8 := ((frameBytes hello).take 2).flatten

end ChatExample

section Examples

open ChatExample

/-- The whole answer in one chunk. -/
theorem chat_round_trip_hello :
    (submitOutcome false (consumeChatStream (some [(frameBytes hello).flatten]) .closed)).content =
      receivedText hello [(frameBytes hello).flatten].flatten.length ∧
    ((consumeChatStream (some [(frameBytes hello).flatten]) .closed).filter Call.isDone).length = 1 ∧
    ((submitOutcome false (consumeChatStream (some [(frameBytes hello).flatten]) .closed)).status = .complete →
      AnswerReceived hello [(frameBytes hello).flatten].flatten.length) :=
  (chat_round_trip hello [(frameBytes hello).flatten] (by simp)).mpr (.inl (by simp [AnswerReceived]))

/-- The connection ends after the first of two texts: the bubble is marked complete. -/
theorem truncated_answer_complete :
    (submitOutcome false (consumeChatStream (some [cutBytes]) .closed)) =
      ⟨utf16 (Str.ofString "Hello"), .complete, none⟩ ∧
    ¬AnswerReceived hello cutBytes.length := by
  have hcut : ¬(frameBytes hello).flatten.length ≤ cutBytes.length + 2 := by decide +kernel
  exact ⟨by decide +kernel, hcut⟩

end Examples

end Lumogis
