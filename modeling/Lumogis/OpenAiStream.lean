import Lumogis.LlmProviders
import Lumogis.ToolLoop

/-!
# Lumogis.OpenAiStream

The OpenAI adapter, streaming and blocking: `chat_stream` puts the deltas of a reply together by the
index of their tool call, `_parse_response` reads the whole reply. However a reply is cut into deltas,
the events of the stream are those of the whole reply (`chatStream_streams`).
-/

namespace Lumogis

/-! ## What the API sends -/

structure FunctionDelta where
  name : Option String
  arguments : Option String

structure ToolCallDelta where
  index : Int
  id : Option String
  function : Option FunctionDelta

structure Delta where
  content : Option String
  toolCalls : Option (List ToolCallDelta)

structure ChunkChoice where
  delta : Option Delta
  finishReason : Option String

structure ChatChunk where
  choices : List ChunkChoice

structure MessageToolCall where
  id : String
  name : String
  arguments : Option String

structure AssistantReply where
  content : Option String
  toolCalls : List MessageToolCall
  finishReason : String

/-- `json.loads` (`none`: `JSONDecodeError`), and `{}`. -/
structure JsonArguments (A : Type) where
  loads : String → Option A
  empty : A

variable {A : Type}

def JsonArguments.decode (json : JsonArguments A) (arguments : Option String) : A :=
  match truthy arguments with
  | none => json.empty
  | some text => (json.loads text).getD json.empty

def stopOf (finishReason : String) : String := if finishReason = "tool_calls" then "tool_calls" else "stop"

/-! ## The whole reply -/

/-- `_parse_response`. -/
def parseResponse (json : JsonArguments A) (reply : AssistantReply) : LLMResponse A where
  text := reply.content.getD ""
  toolCalls := reply.toolCalls.map fun tc => ⟨tc.id, tc.name, json.decode tc.arguments⟩
  stopReason := stopOf reply.finishReason

/-! ## The stream -/

structure ToolCallAcc where
  id : String
  name : String
  arguments : String

def ToolCallDelta.name (d : ToolCallDelta) : Option String := truthy (d.function.bind FunctionDelta.name)

def ToolCallDelta.piece (d : ToolCallDelta) : String := (truthy (d.function.bind FunctionDelta.arguments)).getD ""

def ToolCallAcc.add (acc : ToolCallAcc) (d : ToolCallDelta) : ToolCallAcc where
  id := (truthy d.id).getD acc.id
  name := d.name.getD acc.name
  arguments := acc.arguments ++ d.piece

def ToolCallDelta.start (d : ToolCallDelta) : ToolCallAcc := ⟨d.id.getD "", "", ""⟩

/-- One turn of the loop over the deltas; the entries are in the order of their insertion. -/
def accumulate (acc : List (Int × ToolCallAcc)) (d : ToolCallDelta) : List (Int × ToolCallAcc) :=
  let acc := if d.index ∈ acc.map Prod.fst then acc else acc ++ [(d.index, d.start)]
  acc.map fun e => if e.1 = d.index then (e.1, e.2.add d) else e

def ChunkChoice.toolDeltas (choice : ChunkChoice) : List ToolCallDelta :=
  (choice.delta.bind Delta.toolCalls).getD []

def ChunkChoice.text (choice : ChunkChoice) : Option String := truthy (choice.delta.bind Delta.content)

def textEvents (choice : ChunkChoice) : List (LLMEvent A) := choice.text.toList.map fun text => ⟨.text, text, none, none⟩

def toolCallEvent (json : JsonArguments A) (acc : ToolCallAcc) : LLMEvent A :=
  ⟨.toolCall, "", some ⟨acc.id, acc.name, json.decode (some acc.arguments)⟩, none⟩

def endEvent (stopReason : String) : LLMEvent A := ⟨.end_, "", none, some stopReason⟩

/-- The loop of `chat_stream` over the chunks. -/
def streamChunks (json : JsonArguments A) : List ChatChunk → List (Int × ToolCallAcc) → List (LLMEvent A)
  | [], _ => [endEvent "stop"]
  | chunk :: chunks, acc =>
    match chunk.choices.head? with
    | none => streamChunks json chunks acc
    | some choice =>
      let acc' := choice.toolDeltas.foldl accumulate acc
      textEvents choice ++
        match truthy choice.finishReason with
        | some reason => acc'.map (fun e => toolCallEvent json e.2) ++ [endEvent (stopOf reason)]
        | none => streamChunks json chunks acc'

def chatStream (json : JsonArguments A) (chunks : List ChatChunk) : List (LLMEvent A) := streamChunks json chunks []

/-! ## Delivery -/

/-- The indices in the order in which they first appear. -/
def firstIndices (deltas : List ToolCallDelta) : List Int :=
  deltas.foldl (fun seen d => if d.index ∈ seen then seen else seen ++ [d.index]) []

/-- The deltas of one call: the id and the name come with the first and are not changed, and the pieces
make the arguments. -/
structure CallDelivered (deltas : List ToolCallDelta) (call : MessageToolCall) : Prop where
  first : ∃ d rest, deltas = d :: rest ∧ d.id.getD "" = call.id ∧ d.name.getD "" = call.name
  id : ∀ d ∈ deltas, ∀ i ∈ truthy d.id, i = call.id
  name : ∀ d ∈ deltas, ∀ n ∈ d.name, n = call.name
  arguments : String.join (deltas.map ToolCallDelta.piece) = call.arguments.getD ""

/-- The choices carry the text and the calls of the reply: the calls in the order of their indices, which
first appear in increasing order. -/
structure MessageDelivered (choices : List ChunkChoice) (reply : AssistantReply) : Prop where
  text : String.join (choices.filterMap ChunkChoice.text) = reply.content.getD ""
  increasing : (firstIndices (choices.flatMap ChunkChoice.toolDeltas)).Pairwise (· < ·)
  calls : List.Forall₂ (fun i call => CallDelivered ((choices.flatMap ChunkChoice.toolDeltas).filter (·.index = i)) call)
    ((firstIndices (choices.flatMap ChunkChoice.toolDeltas)).mergeSort) reply.toolCalls

def firstChoices (chunks : List ChatChunk) : List ChunkChoice := chunks.filterMap fun c => c.choices.head?

/-- The chunks deliver the reply: the finish reason comes once, with or after the last delta. -/
def Delivers (chunks : List ChatChunk) (reply : AssistantReply) : Prop :=
  ∃ before last choice after, chunks = before ++ last :: after ∧ last.choices.head? = some choice ∧
    truthy choice.finishReason = some reply.finishReason ∧
    (∀ c ∈ firstChoices before, truthy c.finishReason = none) ∧
    (∀ c ∈ firstChoices after, c.text = none ∧ c.toolDeltas = []) ∧
    MessageDelivered (firstChoices before ++ [choice]) reply

/-! ## Putting the deltas together -/

/-- What the deltas of one index come to. -/
def assembled : List ToolCallDelta → ToolCallAcc
  | [] => ⟨"", "", ""⟩
  | d :: ds => (d :: ds).foldl ToolCallAcc.add d.start

theorem assembled_append {ds : List ToolCallDelta} (h : ds ≠ []) (d : ToolCallDelta) :
    assembled (ds ++ [d]) = (assembled ds).add d := by
  cases ds with
  | nil => exact absurd rfl h
  | cons d' ds => simp [assembled]

theorem firstIndices_append (ds : List ToolCallDelta) (d : ToolCallDelta) :
    firstIndices (ds ++ [d]) = if d.index ∈ firstIndices ds then firstIndices ds else firstIndices ds ++ [d.index] := by
  rw [firstIndices, List.foldl_append]
  rfl

theorem mem_firstIndices {ds : List ToolCallDelta} {i : Int} : i ∈ firstIndices ds ↔ ∃ d ∈ ds, d.index = i := by
  induction ds using List.reverseRecOn with
  | nil => simp [firstIndices]
  | append_singleton ds d ih =>
    rw [firstIndices_append]
    split
    · rename_i hmem
      rw [ih]
      constructor
      · rintro ⟨d', hd', he⟩
        exact ⟨d', List.mem_append_left _ hd', he⟩
      · rintro ⟨d', hd', he⟩
        cases List.mem_append.mp hd' with
        | inl hd' => exact ⟨d', hd', he⟩
        | inr hd' =>
          rw [List.mem_singleton.mp hd'] at he
          exact ih.mp (he ▸ hmem)
    · rw [List.mem_append, ih]
      simp only [List.mem_append, List.mem_singleton]
      constructor
      · rintro (⟨d', hd', he⟩ | rfl)
        · exact ⟨d', .inl hd', he⟩
        · exact ⟨d, .inr rfl, rfl⟩
      · rintro ⟨d', hd' | rfl, he⟩
        · exact .inl ⟨d', hd', he⟩
        · exact .inr he.symm

theorem filter_ne_nil_of_mem {ds : List ToolCallDelta} {i : Int} (h : i ∈ firstIndices ds) :
    ds.filter (·.index = i) ≠ [] := by
  obtain ⟨d, hd, he⟩ := mem_firstIndices.mp h
  exact List.ne_nil_of_mem (List.mem_filter.mpr ⟨hd, by simpa using he⟩)

theorem filter_eq_nil_of_not_mem {ds : List ToolCallDelta} {i : Int} (h : i ∉ firstIndices ds) :
    ds.filter (·.index = i) = [] := by
  rw [List.filter_eq_nil_iff]
  intro d hd he
  exact h (mem_firstIndices.mpr ⟨d, hd, by simpa using he⟩)

theorem accumulate_eq (ds : List ToolCallDelta) :
    ds.foldl accumulate [] = (firstIndices ds).map fun i => (i, assembled (ds.filter (·.index = i))) := by
  induction ds using List.reverseRecOn with
  | nil => rfl
  | append_singleton ds d ih =>
    have hkeys : ((firstIndices ds).map fun i => (i, assembled (ds.filter (·.index = i)))).map Prod.fst =
        firstIndices ds := by
      rw [List.map_map]
      exact List.map_id _
    have hother : ∀ i, i ≠ d.index → (ds ++ [d]).filter (·.index = i) = ds.filter (·.index = i) := by
      intro i hi
      have hne : ¬ d.index = i := fun he => hi he.symm
      simp [hne]
    have hself : (ds ++ [d]).filter (·.index = d.index) = ds.filter (·.index = d.index) ++ [d] := by
      simp
    have hmap : ∀ is : List Int, (∀ i ∈ is, i ∈ firstIndices ds) →
        (is.map fun i => (i, assembled (ds.filter (·.index = i)))).map (fun e => if e.1 = d.index then (e.1, e.2.add d) else e) =
          is.map fun i => (i, assembled ((ds ++ [d]).filter (·.index = i))) := by
      intro is his
      rw [List.map_map]
      refine List.map_congr_left fun i hi => ?_
      simp only [Function.comp]
      by_cases hid : i = d.index
      · subst hid
        rw [if_pos rfl, hself, assembled_append (filter_ne_nil_of_mem (his _ hi))]
      · rw [if_neg hid, hother i hid]
    rw [List.foldl_append, ih, List.foldl_cons, List.foldl_nil, accumulate, hkeys, firstIndices_append]
    by_cases hmem : d.index ∈ firstIndices ds
    · rw [if_pos hmem, if_pos hmem, hmap _ fun i hi => hi]
    · rw [if_neg hmem, if_neg hmem, List.map_append, List.map_append, hmap _ fun i hi => hi, List.map_singleton,
        List.map_singleton, hself, filter_eq_nil_of_not_mem hmem]
      simp [assembled]

theorem foldl_add {call : MessageToolCall} (ds : List ToolCallDelta) {acc : ToolCallAcc} (hid : acc.id = call.id)
    (hids : ∀ d ∈ ds, ∀ i ∈ truthy d.id, i = call.id) (hname : acc.name = call.name)
    (hnames : ∀ d ∈ ds, ∀ n ∈ d.name, n = call.name) :
    ds.foldl ToolCallAcc.add acc = ⟨call.id, call.name, acc.arguments ++ String.join (ds.map ToolCallDelta.piece)⟩ := by
  induction ds generalizing acc with
  | nil =>
    obtain ⟨id, name, arguments⟩ := acc
    cases hid
    cases hname
    simp [String.join]
  | cons d ds ih =>
    have hid' : (acc.add d).id = call.id := by
      cases h : truthy d.id with
      | none => simp [ToolCallAcc.add, h, hid]
      | some i => simp [ToolCallAcc.add, h, hids d (by simp) i h]
    have hname' : (acc.add d).name = call.name := by
      cases h : d.name with
      | none => simp [ToolCallAcc.add, h, hname]
      | some n => simp [ToolCallAcc.add, h, hnames d (by simp) n h]
    rw [List.foldl_cons, ih hid' (fun d' hd' => hids d' (by simp [hd'])) hname' fun d' hd' => hnames d' (by simp [hd'])]
    simp [ToolCallAcc.add, String.append_assoc]

theorem decode_getD (json : JsonArguments A) (arguments : Option String) :
    json.decode (some (arguments.getD "")) = json.decode arguments := by
  cases arguments with
  | none => rfl
  | some text => rfl

theorem CallDelivered.assembled {ds : List ToolCallDelta} {call : MessageToolCall} (h : CallDelivered ds call) :
    assembled ds = ⟨call.id, call.name, call.arguments.getD ""⟩ := by
  obtain ⟨d, rest, rfl, hid, hname⟩ := h.first
  have hstart : (d.start.add d).id = call.id ∧ (d.start.add d).name = call.name := by
    constructor
    · cases ht : truthy d.id with
      | none => simp [ToolCallAcc.add, ht, ToolCallDelta.start, hid]
      | some i => simp [ToolCallAcc.add, ht, h.id d (by simp) i ht]
    · cases hn : d.name with
      | none =>
        rw [hn] at hname
        simpa [ToolCallAcc.add, hn, ToolCallDelta.start] using hname
      | some n => simp [ToolCallAcc.add, hn, h.name d (by simp) n hn]
  rw [Lumogis.assembled, List.foldl_cons, foldl_add rest hstart.1 (fun d' hd' => h.id d' (by simp [hd'])) hstart.2
    fun d' hd' => h.name d' (by simp [hd']), ← h.arguments]
  simp [ToolCallAcc.add, ToolCallDelta.start]

theorem calls_delivered (json : JsonArguments A) {indices : List Int} {deltas : List ToolCallDelta}
    {calls : List MessageToolCall}
    (h : List.Forall₂ (fun i call => CallDelivered (deltas.filter (·.index = i)) call) indices calls) :
    (indices.map fun i => (⟨(assembled (deltas.filter (·.index = i))).id, (assembled (deltas.filter (·.index = i))).name,
      json.decode (some (assembled (deltas.filter (·.index = i))).arguments)⟩ : LLMToolCall A)) =
      calls.map fun tc => ⟨tc.id, tc.name, json.decode tc.arguments⟩ := by
  induction h with
  | nil => rfl
  | cons hcall _ ih => rw [List.map_cons, List.map_cons, ih, hcall.assembled, decode_getD]

/-! ## The events -/

theorem streamChunks_append {json : JsonArguments A} (before rest : List ChatChunk) (acc : List (Int × ToolCallAcc))
    (h : ∀ c ∈ firstChoices before, truthy c.finishReason = none) :
    streamChunks json (before ++ rest) acc = (firstChoices before).flatMap textEvents ++
      streamChunks json rest (((firstChoices before).flatMap ChunkChoice.toolDeltas).foldl accumulate acc) := by
  induction before generalizing acc with
  | nil => rfl
  | cons chunk before ih =>
    rw [List.cons_append, streamChunks]
    cases hhead : chunk.choices.head? with
    | none =>
      have hfirst : firstChoices (chunk :: before) = firstChoices before := by simp [firstChoices, hhead]
      rw [hfirst] at h ⊢
      exact ih acc h
    | some choice =>
      have hfirst : firstChoices (chunk :: before) = choice :: firstChoices before := by simp [firstChoices, hhead]
      rw [hfirst] at h ⊢
      simp only [h choice (by simp), ih _ fun c hc => h c (by simp [hc]), List.flatMap_cons, List.foldl_append,
        List.append_assoc]

theorem chatStream_eq {json : JsonArguments A} {before after : List ChatChunk} {last : ChatChunk} {choice : ChunkChoice}
    {reason : String} (hlast : last.choices.head? = some choice) (hreason : truthy choice.finishReason = some reason)
    (hbefore : ∀ c ∈ firstChoices before, truthy c.finishReason = none) :
    chatStream json (before ++ last :: after) = (firstChoices before ++ [choice]).flatMap textEvents ++
      ((((firstChoices before ++ [choice]).flatMap ChunkChoice.toolDeltas).foldl accumulate []).map
        (fun e => toolCallEvent json e.2) ++ [endEvent (stopOf reason)]) := by
  rw [chatStream, streamChunks_append before _ _ hbefore, streamChunks]
  simp only [hlast, hreason, List.flatMap_append, List.flatMap_singleton, List.foldl_append, List.append_assoc]

theorem filterMap_text_textEvents (choices : List ChunkChoice) :
    (choices.flatMap (textEvents (A := A))).filterMap LLMEvent.text? = choices.filterMap ChunkChoice.text := by
  induction choices with
  | nil => rfl
  | cons choice choices ih =>
    rw [List.flatMap_cons, List.filterMap_append, ih]
    cases h : choice.text <;> simp [textEvents, h, LLMEvent.text?]

theorem filterMap_call_textEvents (choices : List ChunkChoice) :
    (choices.flatMap (textEvents (A := A))).filterMap LLMEvent.call? = [] := by
  induction choices with
  | nil => rfl
  | cons choice choices ih =>
    rw [List.flatMap_cons, List.filterMap_append, ih]
    cases h : choice.text <;> simp [textEvents, h, LLMEvent.call?]

theorem textEvents_type {choices : List ChunkChoice} {event : LLMEvent A} (h : event ∈ choices.flatMap textEvents) :
    event.type = .text := by
  obtain ⟨choice, -, h⟩ := List.mem_flatMap.mp h
  obtain ⟨text, -, rfl⟩ := List.mem_map.mp h
  rfl

/-- However a reply is delivered, the events of its stream are those of the whole reply. -/
theorem chatStream_streams (json : JsonArguments A) {chunks : List ChatChunk} {reply : AssistantReply}
    (h : Delivers chunks reply) : Streams (chatStream json chunks) (parseResponse json reply) := by
  obtain ⟨before, last, choice, after, rfl, hlast, hreason, hbefore, -, hmessage⟩ := h
  rw [chatStream_eq hlast hreason hbefore, accumulate_eq]
  have hle : (firstIndices ((firstChoices before ++ [choice]).flatMap ChunkChoice.toolDeltas)).Pairwise
      fun a b => decide (a ≤ b) = true := hmessage.increasing.imp fun hlt => decide_eq_true (Int.le_of_lt hlt)
  have hcalls := hmessage.calls
  rw [List.mergeSort_of_pairwise hle] at hcalls
  generalize (firstChoices before ++ [choice]).flatMap ChunkChoice.toolDeltas = deltas at hcalls ⊢
  have hbeforeEnd : beforeEnd ((firstChoices before ++ [choice]).flatMap textEvents ++
      (((firstIndices deltas).map fun i => (i, assembled (deltas.filter (·.index = i)))).map
        (fun e => toolCallEvent json e.2) ++ [endEvent (stopOf reply.finishReason)])) =
      (firstChoices before ++ [choice]).flatMap textEvents ++
        ((firstIndices deltas).map fun i => (i, assembled (deltas.filter (·.index = i)))).map fun e => toolCallEvent json e.2 := by
    rw [beforeEnd, List.takeWhile_append_of_pos, List.takeWhile_append_of_pos]
    · simp [endEvent]
    · intro event hevent
      obtain ⟨e, -, rfl⟩ := List.mem_map.mp hevent
      rfl
    · intro event hevent
      rw [textEvents_type hevent]
      rfl
  refine ⟨?_, ?_, ?_⟩
  · rw [hbeforeEnd, List.filterMap_append, filterMap_text_textEvents, List.filterMap_map]
    have hnone : (LLMEvent.text? ∘ fun e : Int × ToolCallAcc => toolCallEvent json e.2) = fun _ => none := rfl
    rw [hnone, List.filterMap_none, List.append_nil]
    exact hmessage.text
  · rw [hbeforeEnd, List.filterMap_append, filterMap_call_textEvents, List.filterMap_map, List.nil_append]
    have hsome : (LLMEvent.call? ∘ fun e : Int × ToolCallAcc => toolCallEvent json e.2) =
        fun e => some ⟨e.2.id, e.2.name, json.decode (some e.2.arguments)⟩ := rfl
    rw [hsome, List.filterMap_eq_map', List.map_map]
    exact calls_delivered json hcalls
  · have hno : ∀ event ∈ (firstChoices before ++ [choice]).flatMap (textEvents (A := A)), ¬ (event.type == .end_) = true := by
      intro event hevent
      rw [textEvents_type hevent]
      decide
    have hno' : ∀ event ∈ ((firstIndices deltas).map fun i => (i, assembled (deltas.filter (·.index = i)))).map
        fun e => toolCallEvent json e.2, ¬ (event.type == .end_) = true := by
      intro event hevent
      obtain ⟨e, -, rfl⟩ := List.mem_map.mp hevent
      exact Bool.false_ne_true
    rw [List.find?_append, List.find?_eq_none.mpr hno, Option.none_or, List.find?_append, List.find?_eq_none.mpr hno']
    rfl

/-! ## A reply in pieces -/

namespace StreamExample

/-- Arguments kept as they came. -/
def json : JsonArguments String := ⟨some, "\x7b\x7d"⟩

def delta (index : Int) (id name : Option String) (arguments : String) : ToolCallDelta :=
  ⟨index, id, some ⟨name, some arguments⟩⟩

def chunk (content : Option String) (deltas : List ToolCallDelta) (finishReason : Option String) : ChatChunk :=
  ⟨[⟨some ⟨content, some deltas⟩, finishReason⟩]⟩

/-- The pieces of two calls, one among the other. -/
def chunks : List ChatChunk :=
  [chunk (some "On") [] none, chunk (some " it") [delta 0 (some "a") (some "search") "x"] none, ⟨[]⟩,
    chunk none [delta 1 (some "b") (some "read") "u", delta 0 none none "y"] none,
    chunk none [delta 1 none none "v"] (some "tool_calls")]

def reply : AssistantReply :=
  ⟨some "On it", [⟨"a", "search", some "xy"⟩, ⟨"b", "read", some "uv"⟩], "tool_calls"⟩

theorem delivered : Delivers chunks reply := by
  refine ⟨chunks.dropLast, chunk none [delta 1 none none "v"] (some "tool_calls"),
    ⟨some ⟨none, some [delta 1 none none "v"]⟩, some "tool_calls"⟩, [], rfl, rfl, rfl, by decide, by decide, ?_⟩
  have hindices : (firstIndices (chunks.filterMap (·.choices.head?) |>.flatMap ChunkChoice.toolDeltas)).mergeSort = [0, 1] :=
    @List.mergeSort_of_pairwise _ (fun a b => decide (a ≤ b)) [0, 1] (by decide)
  refine ⟨rfl, by decide, ?_⟩
  refine hindices ▸ .cons ⟨⟨_, _, rfl, rfl, rfl⟩, by decide, by decide, by decide⟩
    (.cons ⟨⟨_, _, rfl, rfl, rfl⟩, by decide, by decide, by decide⟩ .nil)

end StreamExample

open StreamExample in
theorem chatStream_streams_pieces : Streams (chatStream json chunks) (parseResponse json reply) :=
  chatStream_streams json delivered


end Lumogis
