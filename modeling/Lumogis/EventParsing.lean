import Lumogis.Lib.EventStream

/-!
# Lumogis.EventParsing

The event reader of the web client: `consumeEvents`, `parseEvent` and the read loop that carries the
leftover. It normalises each chunk for itself, so a CR LF that a chunk boundary cuts is a line end
and an empty line to it, and an `event` field without a value leaves the type before it.
`parsing_ignores_chunking` says exactly when neither shows.
-/

namespace Lumogis

open EventStream

abbrev SseMessage := EventStream.Event

/-! ## The reader -/

/-- `buffer.replace(/\r\n?/g, "\n")`. -/
def normalise : List Char → List Char
  | [] => []
  | '\r' :: '\n' :: cs => '\n' :: normalise cs
  | '\r' :: cs => '\n' :: normalise cs
  | c :: cs => c :: normalise cs

/-- `normalised.split("\n\n")`. -/
def splitBlank : List Char → List (List Char)
  | [] => [[]]
  | '\n' :: '\n' :: cs => [] :: splitBlank cs
  | c :: cs => (splitBlank cs).modifyHead (c :: ·)

structure Parsed where
  id : Option (List Char) := none
  event : List Char := "message".toList
  data : List (List Char) := []
  sawData : Bool := false

/-- The field and the value of a line. -/
def splitField (rawLine : List Char) : List Char × List Char :=
  match rawLine.idxOf? ':' with
  | none => (rawLine, [])
  | some colon =>
    let value := rawLine.drop (colon + 1)
    (rawLine.take colon, if value.head? = some ' ' then value.drop 1 else value)

def parseLine (msg : Parsed) (rawLine : List Char) : Parsed :=
  if rawLine = [] then msg
  else if rawLine.head? = some ':' then msg
  else
    let field := (splitField rawLine).1
    let value := (splitField rawLine).2
    if field = "data".toList then { msg with data := msg.data ++ [value], sawData := true }
    else if field = "event".toList then if value ≠ [] then { msg with event := value } else msg
    else if field = "id".toList then if value.contains '\x00' then msg else { msg with id := some value }
    -- `retry` and the fields of no name are not taken.
    else msg

def parseEvent (block : List Char) : Option SseMessage :=
  if block = [] then none
  else
    let msg := (block.splitOn '\n').foldl parseLine {}
    if msg.sawData then some ⟨msg.id, msg.event, ['\n'].intercalate msg.data⟩ else none

theorem splitBlank_ne_nil (s : List Char) : splitBlank s ≠ [] := by
  induction s using splitBlank.induct with
  | case1 => simp [splitBlank]
  | case2 cs _ => simp [splitBlank]
  | case3 c cs hne ih =>
    rw [splitBlank]
    · simpa using ih
    · exact hne

/-- The events emitted, and the leftover. -/
def consumeEvents (buffer : List Char) : List SseMessage × List Char :=
  let parts := splitBlank (normalise buffer)
  (parts.dropLast.filterMap parseEvent, parts.getLast (splitBlank_ne_nil _))

/-- The messages that the read loop hands on, chunk after chunk. -/
def readLoop : List Char → List (List Char) → List SseMessage
  | _, [] => []
  | buffer, chunk :: chunks =>
    let consumed := consumeEvents (buffer ++ chunk)
    consumed.1 ++ readLoop consumed.2 chunks

/-- The whole stream at once. -/
def parseWhole (stream : List Char) : List SseMessage := (consumeEvents stream).1

/-! ## The condition -/

/-- The type that the reader takes: that of the last `event` field with a value. -/
def takenType (lines : List (List Char)) : List Char :=
  ((values "event".toList lines).filter (· ≠ [])).getLast?.getD "message".toList

/-- No line end that a chunk boundary cuts shows: of the parts into which they divide a block, one has
the data, the identifier and the type of all; a block that has not ended has no data before them. -/
structure CutsHidden (chunks : List (List Char)) : Prop where
  ended : ∀ block ∈ blocks (items [] (tokens false chunks)), Undivided takenType (parts block)
  unended : ∀ part ∈ (parts (rest (items [] (tokens false chunks)))).dropLast, dataLines part = []

/-- No block with data has an `event` field without a value after one that names another type than
`message`. -/
def TypesKept (stream : List Char) : Prop :=
  ∀ block ∈ blocks (items [] (chunkTokens false stream)), dataLines (texts block) ≠ [] →
    (values "event".toList (texts block)).getLast? = some [] → takenType (texts block) = "message".toList

/-! ## Normalised text -/

/-- The token of a normalised character. -/
def lineToken (c : Char) : Token := if c = '\n' then .eol else .char c

theorem chunkTokens_cr (cs : List Char) (h : cs.head? ≠ some '\n') :
    chunkTokens true cs = chunkTokens false cs := by
  cases cs with
  | nil => rfl
  | cons c cs =>
    have hc : c ≠ '\n' := fun hc => h (by rw [hc]; rfl)
    simp [chunkTokens, hc]

theorem normalise_tokens (s : List Char) : (normalise s).map lineToken = chunkTokens false s := by
  induction s using normalise.induct with
  | case1 => rfl
  | case2 cs ih => simp [normalise, chunkTokens, lineToken, ih]
  | case3 cs hne ih =>
    have hhead : cs.head? ≠ some '\n' := by
      intro h
      obtain ⟨cs', rfl⟩ := List.head?_eq_some_iff.mp h
      exact hne cs' rfl
    rw [normalise]
    · simp [chunkTokens, lineToken, ih, chunkTokens_cr cs hhead]
    · exact hne
  | case4 c cs hcrlf hcr ih =>
    have hc : c ≠ '\r' := fun h => hcr h
    rw [normalise]
    · by_cases hn : c = '\n'
      · simp [chunkTokens, lineToken, ih, hn]
      · simp [chunkTokens, lineToken, ih, hn, hc]
    · exact hcrlf
    · exact hcr

theorem cr_notMem_normalise (s : List Char) : '\r' ∉ normalise s := by
  induction s using normalise.induct with
  | case1 => simp [normalise]
  | case2 cs ih => simp [normalise, ih]
  | case3 cs hne ih =>
    rw [normalise]
    · simp [ih]
    · exact hne
  | case4 c cs hcrlf hcr ih =>
    rw [normalise]
    · simp [ih, Ne.symm hcr]
    · exact hcrlf
    · exact hcr

theorem normalise_append {s : List Char} (h : '\r' ∉ s) (t : List Char) :
    normalise (s ++ t) = s ++ normalise t := by
  induction s with
  | nil => rfl
  | cons c s ih =>
    have hc : c ≠ '\r' := fun hc => h (hc ▸ List.mem_cons_self)
    rw [List.cons_append, normalise, ih fun hmem => h (List.mem_cons_of_mem _ hmem), List.cons_append]
    · simp [hc]
    · simpa using hc

/-! ## The leftover -/

def emitted (s : List Char) : List SseMessage := (splitBlank s).dropLast.filterMap parseEvent

def leftover (s : List Char) : List Char := (splitBlank s).getLast (splitBlank_ne_nil s)

theorem consumeEvents_eq (s : List Char) :
    consumeEvents s = (emitted (normalise s), leftover (normalise s)) := rfl

theorem splitBlank_singleton {s x : List Char} (h : splitBlank s = [x]) : x = s := by
  induction s using splitBlank.induct generalizing x with
  | case1 => simpa [splitBlank] using h.symm
  | case2 cs _ => simp [splitBlank, splitBlank_ne_nil] at h
  | case3 c cs hne ih =>
    rw [splitBlank] at h
    · obtain ⟨first, others, hsplit⟩ := List.exists_cons_of_ne_nil (splitBlank_ne_nil cs)
      rw [hsplit, List.modifyHead_cons, List.cons.injEq] at h
      obtain ⟨rfl, rfl⟩ := h
      rw [ih hsplit]
    · exact hne

theorem splitBlank_append (s t : List Char) :
    splitBlank (s ++ t) = (splitBlank s).dropLast ++ splitBlank (leftover s ++ t) := by
  induction s using splitBlank.induct with
  | case1 => rfl
  | case2 cs ih =>
    have hleft : leftover ('\n' :: '\n' :: cs) = leftover cs := List.getLast_cons (splitBlank_ne_nil cs)
    have hdrop : (splitBlank ('\n' :: '\n' :: cs)).dropLast = [] :: (splitBlank cs).dropLast :=
      List.dropLast_cons_of_ne_nil (splitBlank_ne_nil cs)
    rw [hleft, hdrop, List.cons_append, List.cons_append, splitBlank, ih, List.cons_append]
  | case3 c cs hne ih =>
    have hcons : splitBlank (c :: cs) = (splitBlank cs).modifyHead (c :: ·) := by
      rw [splitBlank]
      exact hne
    obtain ⟨first, others, hsplit⟩ := List.exists_cons_of_ne_nil (splitBlank_ne_nil cs)
    rw [hsplit, List.modifyHead_cons] at hcons
    rcases List.eq_nil_or_concat others with rfl | ⟨others, last, rfl⟩
    · have hleft : leftover (c :: cs) = c :: cs := by
        simp only [leftover, hcons, List.getLast_singleton, splitBlank_singleton hsplit]
      rw [hleft, hcons, List.dropLast_singleton, List.nil_append]
    · have hleft : leftover (c :: cs) = leftover cs := by
        simp [leftover, hcons, hsplit]
      have hmore : splitBlank (c :: (cs ++ t)) = (splitBlank (cs ++ t)).modifyHead (c :: ·) := by
        rw [splitBlank]
        intro cs' hc hcs
        cases cs with
        | nil => simp [splitBlank] at hsplit
        | cons d cs =>
          cases hcs
          exact hne cs hc rfl
      rw [hleft, List.cons_append, hmore, ih, hcons, hsplit]
      simp [List.dropLast_cons_of_ne_nil]

theorem splitBlank_leftover (s : List Char) : splitBlank (leftover s) = [leftover s] := by
  have happend := splitBlank_append s []
  rw [List.append_nil, List.append_nil] at happend
  have hlast : splitBlank s = (splitBlank s).dropLast ++ [leftover s] :=
    (List.dropLast_append_getLast (splitBlank_ne_nil s)).symm
  exact List.append_cancel_left (happend.symm.trans hlast)

theorem emitted_append (s t : List Char) : emitted (s ++ t) = emitted s ++ emitted (leftover s ++ t) := by
  rw [emitted, splitBlank_append, List.dropLast_append_of_ne_nil (splitBlank_ne_nil _), List.filterMap_append]
  rfl

theorem leftover_suffix (s : List Char) : leftover s <:+ s := by
  induction s using splitBlank.induct with
  | case1 => exact List.suffix_refl _
  | case2 cs ih =>
    have hleft : leftover ('\n' :: '\n' :: cs) = leftover cs := List.getLast_cons (splitBlank_ne_nil cs)
    rw [hleft]
    exact (ih.trans (List.suffix_cons _ _)).trans (List.suffix_cons _ _)
  | case3 c cs hne ih =>
    have hcons : splitBlank (c :: cs) = (splitBlank cs).modifyHead (c :: ·) := by
      rw [splitBlank]
      exact hne
    obtain ⟨first, others, hsplit⟩ := List.exists_cons_of_ne_nil (splitBlank_ne_nil cs)
    rw [hsplit, List.modifyHead_cons] at hcons
    cases others with
    | nil =>
      have hleft : leftover (c :: cs) = c :: cs := by
        simp only [leftover, hcons, List.getLast_singleton, splitBlank_singleton hsplit]
      rw [hleft]
    | cons second others =>
      have hleft : leftover (c :: cs) = leftover cs := by
        simp [leftover, hcons, hsplit]
      rw [hleft]
      exact ih.trans (List.suffix_cons _ _)

theorem readLoop_eq {buffer : List Char} (hcr : '\r' ∉ buffer) (hleft : splitBlank buffer = [buffer])
    (chunks : List (List Char)) : readLoop buffer chunks = emitted (buffer ++ chunks.flatMap normalise) := by
  induction chunks generalizing buffer with
  | nil => simp [readLoop, emitted, hleft]
  | cons chunk chunks ih =>
    have hno : '\r' ∉ buffer ++ normalise chunk := by
      simp [hcr, cr_notMem_normalise]
    rw [readLoop, consumeEvents_eq, normalise_append hcr, List.flatMap_cons, ← List.append_assoc,
      emitted_append (buffer ++ normalise chunk)]
    exact congrArg _ (ih (fun h => hno ((leftover_suffix _).subset h)) (splitBlank_leftover _))

/-! ## The events -/

theorem span_colon (line : List Char) : match line.idxOf? ':' with
    | none => line.takeWhile (· != ':') = line ∧ line.dropWhile (· != ':') = []
    | some colon => line.takeWhile (· != ':') = line.take colon ∧
        line.dropWhile (· != ':') = line.drop colon := by
  induction line with
  | nil => exact ⟨rfl, rfl⟩
  | cons c line ih =>
    rw [List.idxOf?_cons]
    by_cases hc : c = ':'
    · simp [hc]
    · have hbeq : (c == ':') = false := by simpa using hc
      cases hidx : line.idxOf? ':' with
      | none =>
        rw [hidx] at ih
        simp [hc, hbeq, ih.1, ih.2]
      | some colon =>
        rw [hidx] at ih
        simp [hc, hbeq, ih.1, ih.2]

theorem splitField_eq (line : List Char) : splitField line = field line := by
  have hunspace : ∀ value : List Char,
      (if value.head? = some ' ' then value.drop 1 else value) = unspace value := by
    intro value
    cases value with
    | nil => rfl
    | cons c value =>
      by_cases hc : c = ' '
      · simp [hc, unspace]
      · simp [hc, unspace]
  have hspan := span_colon line
  rw [splitField, field]
  cases hidx : line.idxOf? ':' with
  | none =>
    rw [hidx] at hspan
    simp [hspan.1, hspan.2, unspace]
  | some colon =>
    rw [hidx] at hspan
    rw [hspan.1, hspan.2, List.drop_drop]
    exact congrArg _ (hunspace _)

/-- What the lines of a block leave in the parsed message. -/
def gathered (msg : Parsed) (lines : List (List Char)) : Parsed where
  id := (lastId lines).or msg.id
  event := ((values "event".toList lines).filter (· ≠ [])).getLast?.getD msg.event
  data := msg.data ++ dataLines lines
  sawData := msg.sawData || !(dataLines lines).isEmpty

theorem values_singleton (name line : List Char) :
    values name [line] = if (field line).1 = name then [(field line).2] else [] := by
  by_cases h : (field line).1 = name <;> simp [values, h]

theorem gathered_append (msg : Parsed) (l m : List (List Char)) :
    gathered (gathered msg l) m = gathered msg (l ++ m) := by
  have hempty : ∀ a b : List (List Char), (!(a ++ b).isEmpty) = (!a.isEmpty || !b.isEmpty) := by
    intro a b
    cases a <;> simp
  simp only [gathered, lastId, dataLines, values_append, List.filter_append, List.getLast?_append,
    Option.or_assoc, Option.getD_or, List.append_assoc, Bool.or_assoc, hempty]

theorem gathered_other {msg : Parsed} {line : List Char} (hdata : (field line).1 ≠ "data".toList)
    (hevent : (field line).1 ≠ "event".toList) (hid : (field line).1 ≠ "id".toList) :
    gathered msg [line] = msg := by
  simp only [gathered, lastId, dataLines, values_singleton, hdata, hevent, hid, if_false]
  simp

theorem parseLine_eq (msg : Parsed) (line : List Char) : parseLine msg line = gathered msg [line] := by
  have hempty : (field line).1 = [] → gathered msg [line] = msg := by
    intro h
    apply gathered_other <;> rw [h] <;> decide
  rw [parseLine]
  split
  · rename_i hline
    rw [hempty (by rw [hline]; rfl)]
  · split
    · rename_i hcolon
      obtain ⟨cs, rfl⟩ := List.head?_eq_some_iff.mp hcolon
      rw [hempty rfl]
    · simp only [splitField_eq]
      split
      · rename_i hdata
        simp only [gathered, lastId, dataLines, values_singleton, hdata]
        simp
      · rename_i hdata
        split
        · rename_i hevent
          simp only [gathered, lastId, dataLines, values_singleton, hevent]
          by_cases hvalue : (field line).2 = [] <;> simp [hvalue]
        · rename_i hevent
          split
          · rename_i hid
            simp only [gathered, lastId, dataLines, values_singleton, hid]
            by_cases hnul : '\x00' ∈ (field line).2 <;> simp [hnul]
          · rename_i hid
            rw [gathered_other hdata hevent hid]

theorem foldl_parseLine (msg : Parsed) (lines : List (List Char)) :
    lines.foldl parseLine msg = gathered msg lines := by
  induction lines generalizing msg with
  | nil => simp [gathered, values, lastId, dataLines]
  | cons line lines ih => rw [List.foldl_cons, ih, parseLine_eq, gathered_append, List.singleton_append]

theorem values_filter (name : List Char) (hname : name ≠ []) (lines : List (List Char)) :
    values name (lines.filter (· ≠ [])) = values name lines := by
  induction lines with
  | nil => rfl
  | cons line lines ih =>
    have hcons : ∀ lines : List (List Char), values name (line :: lines) =
        values name [line] ++ values name lines := values_append name [line]
    by_cases hline : line = []
    · have hnone : (field []).1 ≠ name := Ne.symm hname
      rw [hcons, hline, values_singleton, if_neg hnone, List.nil_append, ← ih]
      rfl
    · rw [List.filter_cons_of_pos (by simpa using hline), hcons, hcons lines, ih]

theorem dispatch_filter (lines : List (List Char)) :
    dispatch takenType (lines.filter (· ≠ [])) = dispatch takenType lines := by
  have hdata := values_filter "data".toList (by decide) lines
  have hevent := values_filter "event".toList (by decide) lines
  have hid := values_filter "id".toList (by decide) lines
  rw [dispatch, dispatch, dataLines, dataLines, lastId, lastId, takenType, takenType, hdata, hevent, hid]

theorem parseEvent_eq (block : List Char) :
    parseEvent block = dispatch takenType ((block.splitOn '\n').filter (· ≠ [])) := by
  rw [parseEvent, dispatch_filter, dispatch, foldl_parseLine]
  by_cases hblock : block = []
  · rw [hblock]
    rfl
  · rw [if_neg hblock, gathered]
    by_cases hnone : dataLines (block.splitOn '\n') = []
    · rw [if_pos hnone, hnone]
      rfl
    · rw [if_neg hnone, if_pos (by simpa using hnone), Option.or_none]
      rfl

/-! ## The buffer -/

/-- Lines that have ended. -/
def endLines (lines : List (List Char)) : List Char := lines.flatMap (· ++ ['\n'])

/-- The buffer holds the lines of the block so far and the line after them. -/
structure Buffered (buffer : List Char) (block : List (List Char)) (line : List Char) : Prop where
  noBlank : ¬ ['\n', '\n'] <:+: buffer
  lines : ∃ before, buffer = endLines before ++ line ∧ block = before.filter (· ≠ []) ∧
    ∀ l ∈ before ++ [line], '\n' ∉ l

theorem splitBlank_cons {c : Char} {cs : List Char} (h : ¬ ['\n', '\n'] <:+: c :: cs) (t : List Char)
    (ht : cs = [] → t.head? ≠ some '\n') :
    splitBlank (c :: (cs ++ t)) = (splitBlank (cs ++ t)).modifyHead (c :: ·) := by
  rw [splitBlank]
  intro rest hc hrest
  cases cs with
  | nil =>
    have hhead : t.head? = some '\n' := by
      rw [List.nil_append] at hrest
      rw [hrest]
      rfl
    exact ht rfl hhead
  | cons d cs =>
    cases hrest
    exact h (hc ▸ ⟨[], cs, rfl⟩)

theorem noBlank_tail {c : Char} {cs : List Char} (h : ¬ ['\n', '\n'] <:+: c :: cs) :
    ¬ ['\n', '\n'] <:+: cs :=
  fun hcs => h (hcs.trans (List.suffix_cons c cs).isInfix)

theorem splitBlank_noBlank {b : List Char} (h : ¬ ['\n', '\n'] <:+: b) : splitBlank b = [b] := by
  induction b with
  | nil => rfl
  | cons c b ih =>
    have hcons := splitBlank_cons h [] fun _ => by simp
    rw [List.append_nil] at hcons
    rw [hcons, ih (noBlank_tail h), List.modifyHead_cons]

theorem splitBlank_blank {b : List Char} (h : ¬ ['\n', '\n'] <:+: b ++ ['\n']) (s : List Char) :
    splitBlank (b ++ '\n' :: '\n' :: s) = b :: splitBlank s := by
  induction b with
  | nil => rfl
  | cons c b ih =>
    have hcons : splitBlank (c :: (b ++ ['\n'] ++ '\n' :: s)) = (splitBlank (b ++ ['\n'] ++ '\n' :: s)).modifyHead (c :: ·) :=
      splitBlank_cons h ('\n' :: s) fun hnil => by simp at hnil
    simp only [List.append_assoc, List.singleton_append] at hcons
    rw [List.cons_append, hcons, ih (noBlank_tail h), List.modifyHead_cons]

theorem splitOn_endLines {before : List (List Char)} {line : List Char}
    (h : ∀ l ∈ before ++ [line], '\n' ∉ l) :
    (endLines before ++ line).splitOn '\n' = before ++ [line] := by
  induction before with
  | nil => exact List.splitOn_eq_singleton (h line (by simp))
  | cons l before ih =>
    have hl : '\n' ∉ l := h l (by simp)
    have heq : endLines (l :: before) ++ line = l ++ '\n' :: (endLines before ++ line) := by
      simp [endLines]
    rw [heq, List.splitOn_append_cons_self_of_not_mem hl, ih fun l' hl' => h l' (by simp_all)]
    rfl

theorem Buffered.nil : Buffered [] [] [] where
  noBlank := by decide
  lines := ⟨[], rfl, rfl, by simp⟩

theorem Buffered.start : Buffered ['\n'] [] [] where
  noBlank := by decide
  lines := ⟨[[]], rfl, rfl, by simp⟩

section Step

variable {b : List Char} {block : List (List Char)} {line : List Char}

theorem Buffered.char (h : Buffered b block line) {c : Char} (hc : c ≠ '\n') :
    Buffered (b ++ [c]) block (line ++ [c]) where
  noBlank := by
    intro hin
    rcases List.infix_concat_iff.mp hin with hsuffix | hin
    · rcases List.suffix_concat_iff.mp hsuffix with hnil | ⟨t, ht, -⟩
      · cases hnil
      · have hlast := congrArg List.getLast? ht
        rw [List.getLast?_concat] at hlast
        exact hc (Option.some.inj hlast).symm
    · exact h.noBlank hin
  lines := by
    obtain ⟨before, hb, hblock, hfree⟩ := h.lines
    refine ⟨before, by rw [hb, List.append_assoc], hblock, fun l hl => ?_⟩
    rcases List.mem_append.mp hl with hl | hl
    · exact hfree l (List.mem_append_left _ hl)
    · have hline := hfree line (by simp)
      simp only [List.mem_singleton] at hl
      simp [hl, hline, Ne.symm hc]

theorem Buffered.eol (h : Buffered b block line) (hline : line ≠ []) :
    Buffered (b ++ ['\n']) (block ++ [line]) [] where
  noBlank := by
    intro hin
    rcases List.infix_concat_iff.mp hin with hsuffix | hin
    · obtain ⟨before, hb, -, hfree⟩ := h.lines
      have hlast : ['\n'] <:+ b := by
        rcases List.suffix_concat_iff.mp hsuffix with hnil | ⟨t, ht, hsuffix⟩
        · cases hnil
        · have hone : t = ['\n'] := List.append_cancel_right (show t ++ ['\n'] = ['\n'] ++ ['\n'] from ht.symm)
          exact hone ▸ hsuffix
      -- The line before this end has a last character, and it is no line end.
      obtain ⟨init, d, rfl⟩ := (List.eq_nil_or_concat line).resolve_left hline
      rw [hb, List.concat_eq_append, ← List.append_assoc] at hlast
      have hd : d = '\n' := by
        rcases List.suffix_concat_iff.mp hlast with hnil | ⟨t, ht, -⟩
        · cases hnil
        · have heq := congrArg List.getLast? ht
          rw [List.getLast?_concat] at heq
          exact (Option.some.inj heq).symm
      exact hfree (init.concat d) (by simp) (by simp [hd])
    · exact h.noBlank hin
  lines := by
    obtain ⟨before, hb, hblock, hfree⟩ := h.lines
    refine ⟨before ++ [line], by simp [hb, endLines], by simp [hblock, hline], fun l hl => ?_⟩
    rcases List.mem_append.mp hl with hl | hl
    · exact hfree l hl
    · obtain rfl : l = [] := by simpa using hl
      exact List.not_mem_nil

theorem Buffered.blank (h : Buffered b block []) (s : List Char) :
    (b = [] ∧ block = []) ∨
      emitted (b ++ '\n' :: s) = (dispatch takenType block).toList ++ emitted s := by
  obtain ⟨before, hb, hblock, hfree⟩ := h.lines
  rw [List.append_nil] at hb
  rcases List.eq_nil_or_concat before with rfl | ⟨before, last, rfl⟩
  · exact .inl ⟨hb, hblock⟩
  · right
    have hlast : b = (endLines before ++ last) ++ ['\n'] := by simp [hb, endLines]
    have hfree' : ∀ l ∈ before ++ [last], '\n' ∉ l := by
      intro l hl
      exact hfree l (List.mem_append_left _ (by simpa using hl))
    have hparse : parseEvent (endLines before ++ last) = dispatch takenType block := by
      rw [parseEvent_eq, splitOn_endLines hfree', hblock, List.concat_eq_append]
    have hsplit := splitBlank_blank (hlast ▸ h.noBlank) s
    rw [hlast, List.append_assoc, List.singleton_append, emitted, hsplit,
      List.dropLast_cons_of_ne_nil (splitBlank_ne_nil s), List.filterMap_cons, hparse]
    cases dispatch takenType block <;> rfl

end Step

theorem emitted_eq {b : List Char} (before : List Item) {line : List Char} (h : Buffered b (texts before) line)
    (hblank : Item.blank ∉ before) (s : List Char) : emitted (b ++ s) =
      (blocks (before ++ items line (s.map lineToken))).filterMap (dispatch takenType ∘ texts) := by
  induction s generalizing b before line with
  | nil =>
    rw [List.append_nil, emitted, splitBlank_noBlank h.noBlank, List.map_nil, items, List.append_nil,
      blocks, List.splitOn_eq_singleton hblank]
    rfl
  | cons c s ih =>
    by_cases hc : c = '\n'
    · by_cases hline : line = []
      · have hitems : items line ((c :: s).map lineToken) = .blank :: items [] (s.map lineToken) := by
          simp [lineToken, hc, items, hline]
        have hcut : blocks (before ++ .blank :: items [] (s.map lineToken)) =
            before :: blocks (items [] (s.map lineToken)) := by
          rw [blocks, List.splitOn_append_cons_self_of_not_mem hblank,
            List.dropLast_cons_of_ne_nil (List.splitOn_ne_nil _ _)]
          rfl
        rw [hitems, hcut, List.filterMap_cons, Function.comp_apply, hc]
        rcases (hline ▸ h).blank s with ⟨rfl, htexts⟩ | hemit
        · have hnone : dispatch takenType (texts before) = none := by
            rw [htexts]
            rfl
          have hstart := ih [] Buffered.start List.not_mem_nil
          simp only [List.singleton_append, List.nil_append] at hstart
          simp only [hnone, List.nil_append, hstart]
        · have hnext := ih [] Buffered.nil List.not_mem_nil
          simp only [List.nil_append] at hnext
          rw [hemit, hnext]
          cases dispatch takenType (texts before) <;> rfl
      · have hitems : items line ((c :: s).map lineToken) = .line line :: items [] (s.map lineToken) := by
          simp [lineToken, hc, items, hline]
        have htexts : texts before ++ [line] = texts (before ++ [.line line]) := by
          simp [texts, Item.text]
        have hnext := h.eol hline
        rw [htexts] at hnext
        have hemit := ih _ hnext (by simp [hblank])
        simp only [List.append_assoc, List.singleton_append] at hemit
        rw [hitems, hc, hemit]
    · have hitems : items line ((c :: s).map lineToken) = items (line ++ [c]) (s.map lineToken) := by
        simp [lineToken, hc, items]
      rw [hitems, ← ih _ (h.char hc) hblank, List.append_assoc, List.singleton_append]

/-! ## Chunks and the grammar -/

theorem parseWhole_eq (stream : List Char) : parseWhole stream =
    ((blocks (items [] (chunkTokens false stream))).map texts).filterMap (dispatch takenType) := by
  have h := emitted_eq [] Buffered.nil List.not_mem_nil (normalise stream)
  rw [normalise_tokens] at h
  rw [List.filterMap_map]
  exact h

theorem readLoop_chunks (chunks : List (List Char)) : readLoop [] chunks =
    ((blocks (items [] (tokens false chunks))).flatMap parts ++
      (parts (rest (items [] (tokens false chunks)))).dropLast).filterMap (dispatch takenType) := by
  have hloop := readLoop_eq List.not_mem_nil rfl chunks
  have hnormal : (chunks.flatMap normalise).map lineToken = chunks.flatMap (chunkTokens false) := by
    simp only [List.map_flatMap, normalise_tokens]
  have h := emitted_eq [] Buffered.nil List.not_mem_nil (chunks.flatMap normalise)
  rw [hnormal, List.nil_append, List.nil_append, ← List.filterMap_map, blocks_apart] at h
  exact hloop.trans h

theorem readLoop_eq_parseWhole (chunks : List (List Char)) :
    readLoop [] chunks = parseWhole chunks.flatten ↔ CutsHidden chunks := by
  have hparts := fun block : List Item => filterMap_parts_iff takenType (parts block)
  have hle : ∀ block : List Item, (dispatch takenType (texts block)).toList.length ≤
      ((parts block).filterMap (dispatch takenType)).length := by
    intro block
    rw [texts_eq_flatten]
    exact length_dispatch_le takenType (parts block)
  have hnone : ∀ part : List (List Char), dispatch takenType part = none ↔ dataLines part = [] := by
    intro part
    by_cases h : dataLines part = [] <;> simp [dispatch, h]
  have hwhole : parseWhole chunks.flatten = (blocks (items [] (tokens false chunks))).flatMap fun block =>
      (dispatch takenType (texts block)).toList := by
    rw [parseWhole_eq, blocks_flatten, List.filterMap_map, List.filterMap_eq_flatMap_toList]
    rfl
  rw [readLoop_chunks, hwhole, List.filterMap_append, List.filterMap_flatMap, flatMap_append_eq_iff hle]
  simp only [texts_eq_flatten, hparts, List.filterMap_eq_nil_iff, hnone]
  exact ⟨fun h => ⟨h.1, h.2⟩, fun h => ⟨h.ended, h.unended⟩⟩

theorem takenType_eq {lines : List (List Char)} (h : (values "event".toList lines).getLast? ≠ some []) :
    takenType lines = eventType lines := by
  rw [takenType, eventType]
  rcases List.eq_nil_or_concat (values "event".toList lines) with hnil | ⟨before, last, hlast⟩
  · rw [hnil]
    rfl
  · rw [hlast, List.concat_eq_append] at h ⊢
    rw [List.getLast?_concat] at h ⊢
    cases last with
    | nil => exact absurd rfl h
    | cons c last => simp

theorem takesType_iff (lines : List (List Char)) : dispatch takenType lines = dispatch eventType lines ↔
    (dataLines lines ≠ [] → (values "event".toList lines).getLast? = some [] →
      takenType lines = "message".toList) := by
  by_cases hdata : dataLines lines = []
  · exact ⟨fun _ hne => absurd hdata hne, fun _ => by rw [dispatch, dispatch, if_pos hdata, if_pos hdata]⟩
  · rw [dispatch, dispatch, if_neg hdata, if_neg hdata, Option.some.injEq, Event.mk.injEq]
    by_cases hlast : (values "event".toList lines).getLast? = some []
    · have htype : eventType lines = "message".toList := by
        rw [eventType, hlast]
      rw [htype]
      exact ⟨fun h _ _ => h.2.1, fun h => ⟨rfl, h hdata hlast, rfl⟩⟩
    · exact ⟨fun _ _ h => absurd h hlast, fun _ => ⟨rfl, takenType_eq hlast, rfl⟩⟩

theorem parseWhole_eq_grammar (stream : List Char) : parseWhole stream = grammar stream ↔ TypesKept stream := by
  have hle : ∀ block : List Item, (dispatch eventType (texts block)).toList.length ≤
      (dispatch takenType (texts block)).toList.length := by
    intro block
    by_cases h : dataLines (texts block) = [] <;> simp [dispatch, h]
  have hsame : ∀ block : List Item, (dispatch takenType (texts block)).toList =
      (dispatch eventType (texts block)).toList ↔
        dispatch takenType (texts block) = dispatch eventType (texts block) := by
    intro block
    cases dispatch takenType (texts block) <;> cases dispatch eventType (texts block) <;> simp
  have hall := flatMap_append_eq_iff (l := blocks (items [] (chunkTokens false stream))) (r := []) hle
  rw [List.append_nil] at hall
  rw [parseWhole_eq, grammar, List.filterMap_map, List.filterMap_eq_flatMap_toList,
    List.filterMap_eq_flatMap_toList]
  refine hall.trans ?_
  simp only [hsame, takesType_iff, and_true]
  rfl

/-- The reader's events are those of the whole stream and those of the grammar exactly when no cut
line end shows and every type is kept. -/
theorem parsing_ignores_chunking (chunks : List (List Char)) :
    (readLoop [] chunks = parseWhole chunks.flatten ∧ parseWhole chunks.flatten = grammar chunks.flatten) ↔
      CutsHidden chunks ∧ TypesKept chunks.flatten :=
  and_congr (readLoop_eq_parseWhole chunks) (parseWhole_eq_grammar chunks.flatten)

/-- One event of two lines, cut after the CR of the first: two events. -/
theorem cut_line_end_splits_event :
    readLoop [] ["data: a\r".toList, "\ndata: b\r\n\r\n".toList] =
      [⟨none, "message".toList, "a".toList⟩, ⟨none, "message".toList, "b".toList⟩] ∧
    parseWhole "data: a\r\ndata: b\r\n\r\n".toList = [⟨none, "message".toList, "a\nb".toList⟩] ∧
    grammar "data: a\r\ndata: b\r\n\r\n".toList = [⟨none, "message".toList, "a\nb".toList⟩] := by
  decide +kernel

example : parseWhole "event: x\nevent:\ndata: a\n\n".toList ≠ grammar "event: x\nevent:\ndata: a\n\n".toList := by
  decide +kernel

end Lumogis
