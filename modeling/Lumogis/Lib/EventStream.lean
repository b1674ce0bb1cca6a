import Mathlib.Data.List.Infix

/-!
# Lib.EventStream

The event-stream format: lines that end with LF, CR or CR LF, blocks of lines that end with an
empty line, and the event of a block. `grammar` gives the events of a stream.

A stream that arrives in chunks has a place more than its characters tell: a CR LF that a chunk
boundary cuts in two (`Token.cut`). `parts` are what these places divide a block into, and
`filterMap_parts_iff` says when reading the parts one by one is reading the block.
-/

namespace EventStream

/-! ## Lines -/

/-- A character of a line, a line end, or the place between the CR and the LF of one line end where
a chunk ends. -/
inductive Token
  | char (c : Char)
  | eol
  | cut
  deriving DecidableEq

/-- The tokens of one chunk; `cr` when the text before it ends with CR. -/
def chunkTokens : Bool → List Char → List Token
  | _, [] => []
  | cr, c :: cs =>
    if c = '\r' then .eol :: chunkTokens true cs
    else if c = '\n' then (if cr then [] else [.eol]) ++ chunkTokens false cs
    else .char c :: chunkTokens false cs

/-- Whether the text ends with CR after the chunk. -/
def endsCr (cr : Bool) (chunk : List Char) : Bool := chunk.foldl (fun _ c => c == '\r') cr

def tokens : Bool → List (List Char) → List Token
  | _, [] => []
  | cr, chunk :: chunks =>
    (if cr && chunk.head? == some '\n' then [.cut] else []) ++
      chunkTokens cr chunk ++ tokens (endsCr cr chunk) chunks

inductive Item
  | line (text : List Char)
  | blank
  | cut
  deriving DecidableEq

/-- What the tokens complete; the first argument is the unfinished line before them. -/
def items : List Char → List Token → List Item
  | _, [] => []
  | line, .char c :: ts => items (line ++ [c]) ts
  | line, .eol :: ts => (if line = [] then .blank else .line line) :: items [] ts
  | line, .cut :: ts => .cut :: items line ts

def Item.text : Item → Option (List Char)
  | .line text => some text
  | .blank => none
  | .cut => none

/-- The lines of a block. -/
def texts (block : List Item) : List (List Char) := block.filterMap Item.text

/-! ## Blocks -/

/-- The blocks that an empty line ends. -/
def blocks (its : List Item) : List (List Item) := (its.splitOn .blank).dropLast

/-- The block that has not ended. -/
def rest (its : List Item) : List Item := (its.splitOn .blank).getLast (by simp)

/-- The lines of a block, divided where a line end is cut. -/
def parts (block : List Item) : List (List (List Char)) := (block.splitOn .cut).map texts

/-! ## Events -/

structure Event where
  id : Option (List Char)
  event : List Char
  data : List Char
  deriving DecidableEq

/-- One space after the colon is not part of the value. -/
def unspace : List Char → List Char
  | ' ' :: cs => cs
  | cs => cs

/-- The name and the value of a line; a comment has the empty name, which no field has. -/
def field (line : List Char) : List Char × List Char :=
  (line.takeWhile (· != ':'), unspace ((line.dropWhile (· != ':')).drop 1))

/-- The values of the fields of one name. -/
def values (name : List Char) (lines : List (List Char)) : List (List Char) :=
  (lines.filter fun line => (field line).1 == name).map fun line => (field line).2

def dataLines (lines : List (List Char)) : List (List Char) := values "data".toList lines

/-- An identifier with a NUL is not taken. -/
def lastId (lines : List (List Char)) : Option (List Char) :=
  ((values "id".toList lines).filter fun v => !v.contains '\x00').getLast?

/-- The type of the block: what its last `event` field says, `message` when this is empty. -/
def eventType (lines : List (List Char)) : List Char :=
  match (values "event".toList lines).getLast? with
  | none => "message".toList
  | some [] => "message".toList
  | some value => value

/-- The event of a block, by a reading of its type; a block without data has none. -/
def dispatch (type : List (List Char) → List Char) (lines : List (List Char)) : Option Event :=
  if dataLines lines = [] then none
  else some ⟨lastId lines, type lines, ['\n'].intercalate (dataLines lines)⟩

/-- The events of a stream. -/
def grammar (stream : List Char) : List Event :=
  (blocks (items [] (chunkTokens false stream))).filterMap fun block => dispatch eventType (texts block)

/-- One part of a divided block has its data, its identifier and its type. -/
structure Undivided (type : List (List Char) → List Char) (parts : List (List (List Char))) : Prop where
  one : (parts.filter fun p => dataLines p != []).length ≤ 1
  same : ∀ p ∈ parts, dataLines p ≠ [] → lastId p = lastId parts.flatten ∧ type p = type parts.flatten

/-! ## Tokens -/

theorem chunkTokens_append (cr : Bool) (s t : List Char) :
    chunkTokens cr (s ++ t) = chunkTokens cr s ++ chunkTokens (endsCr cr s) t := by
  induction s generalizing cr with
  | nil => rfl
  | cons c s ih =>
    simp only [List.cons_append, chunkTokens, endsCr, List.foldl_cons] at ih ⊢
    by_cases hr : c = '\r'
    · subst hr
      simp [ih]
    · by_cases hn : c = '\n'
      · subst hn
        simp [ih]
      · have hbeq : (c == '\r') = false := by simpa using hr
        simp [hr, hn, hbeq, ih]

theorem cut_notMem_chunkTokens (cr : Bool) (s : List Char) : Token.cut ∉ chunkTokens cr s := by
  induction s generalizing cr with
  | nil => simp [chunkTokens]
  | cons c s ih =>
    simp only [chunkTokens]
    split
    · simp [ih]
    · split
      · cases cr <;> simp [ih]
      · simp [ih]

/-- Without the places where it is cut, the stream is its characters. -/
theorem filter_tokens (cr : Bool) (chunks : List (List Char)) :
    (tokens cr chunks).filter (· != .cut) = chunkTokens cr chunks.flatten := by
  induction chunks generalizing cr with
  | nil => rfl
  | cons chunk chunks ih =>
    have hself : (chunkTokens cr chunk).filter (· != .cut) = chunkTokens cr chunk := by
      apply List.filter_eq_self.mpr
      intro t ht
      have hne : t ≠ .cut := fun h => cut_notMem_chunkTokens cr chunk (h ▸ ht)
      simpa using hne
    simp only [tokens, List.filter_append, hself, ih, List.flatten_cons, chunkTokens_append]
    split <;> simp

theorem items_filter (line : List Char) (ts : List Token) :
    items line (ts.filter (· != .cut)) = (items line ts).filter (· != .cut) := by
  induction ts generalizing line with
  | nil => rfl
  | cons t ts ih =>
    cases t with
    | char c => simp [items, ih]
    | eol =>
      by_cases h : line = [] <;> simp [items, ih, h]
    | cut => simp [items, ih]

/-! ## Chunks read apart -/

/-- A cut line end read as a line end of its own. -/
def Token.apart : Token → Token
  | .cut => .eol
  | t => t

/-- A cut line end read as an empty line. -/
def Item.apart : Item → Item
  | .cut => .blank
  | i => i

/-- Where a line end is cut, no character stands before it in its line. -/
def CutsAtEnds : Bool → List Token → Prop
  | _, [] => True
  | _, .char _ :: ts => CutsAtEnds false ts
  | _, .eol :: ts => CutsAtEnds true ts
  | ended, .cut :: ts => ended = true ∧ CutsAtEnds true ts

theorem cutsAtEnds_append (cr : Bool) {ended : Bool} (h : cr = true → ended = true) (chunk : List Char) {ts : List Token}
    (hts : ∀ ended', (endsCr cr chunk = true → ended' = true) → CutsAtEnds ended' ts) :
    CutsAtEnds ended (chunkTokens cr chunk ++ ts) := by
  induction chunk generalizing cr ended with
  | nil => exact hts ended h
  | cons c chunk ih =>
    simp only [endsCr, List.foldl_cons] at hts
    simp only [chunkTokens]
    by_cases hr : c = '\r'
    · subst hr
      simp only [if_true]
      exact ih true (fun _ => rfl) hts
    · have hbeq : (c == '\r') = false := by simpa using hr
      rw [hbeq] at hts
      rw [if_neg hr]
      split
      · cases cr with
        | false => exact ih false (by simp) hts
        | true => exact ih false (by simp) hts
      · exact ih false (by simp) hts

theorem cutsAtEnds_tokens {cr ended : Bool} (h : cr = true → ended = true) (chunks : List (List Char)) :
    CutsAtEnds ended (tokens cr chunks) := by
  induction chunks generalizing cr ended with
  | nil => trivial
  | cons chunk chunks ih =>
    rw [tokens, List.append_assoc]
    split
    · rename_i hcut
      have hcr : cr = true := (Bool.and_eq_true_iff.mp hcut).1
      exact ⟨h hcr, cutsAtEnds_append _ (fun _ => rfl) chunk fun ended' h' => ih h'⟩
    · exact cutsAtEnds_append _ h chunk fun ended' h' => ih h'

theorem items_apart {ended : Bool} (line : List Char) {ts : List Token} (h : CutsAtEnds ended ts)
    (hline : ended = true → line = []) :
    items line (ts.map Token.apart) = (items line ts).map Item.apart := by
  induction ts generalizing ended line with
  | nil => rfl
  | cons t ts ih =>
    cases t with
    | char c => exact ih _ h (by simp)
    | eol =>
      have hnext := ih [] h fun _ => rfl
      by_cases hnil : line = [] <;> simp [items, Token.apart, Item.apart, hnext, hnil]
    | cut =>
      have hnil := hline h.1
      subst hnil
      have hnext := ih [] h.2 fun _ => rfl
      simp [items, Token.apart, Item.apart, hnext]

theorem map_apart_chunkTokens (cr : Bool) (chunk : List Char) :
    (chunkTokens cr chunk).map Token.apart = chunkTokens cr chunk := by
  induction chunk generalizing cr with
  | nil => rfl
  | cons c chunk ih =>
    simp only [chunkTokens]
    split
    · simp [Token.apart, ih]
    · split
      · cases cr <;> simp [Token.apart, ih]
      · simp [Token.apart, ih]

theorem chunkTokens_apart (cr : Bool) (chunk : List Char) :
    (if cr && chunk.head? == some '\n' then [Token.eol] else []) ++ chunkTokens cr chunk =
      chunkTokens false chunk := by
  cases chunk with
  | nil => simp [chunkTokens]
  | cons c chunk =>
    cases cr with
    | false => simp
    | true =>
      by_cases hn : c = '\n' <;> simp [chunkTokens, hn]

theorem tokens_apart (cr : Bool) (chunks : List (List Char)) :
    (tokens cr chunks).map Token.apart = chunks.flatMap (chunkTokens false) := by
  induction chunks generalizing cr with
  | nil => rfl
  | cons chunk chunks ih =>
    rw [tokens, List.map_append, List.map_append, ih, List.flatMap_cons, map_apart_chunkTokens,
      ← chunkTokens_apart cr chunk]
    split <;> rfl

/-! ## The parts of a block -/

section Split

variable {α : Type} {p q : α → Bool}

theorem splitOnP_or (l : List α) :
    l.splitOnP (fun a => p a || q a) = (l.splitOnP p).flatMap (List.splitOnP q) := by
  induction l with
  | nil => simp
  | cons a l ih =>
    obtain ⟨first, others, hsplit⟩ := List.exists_cons_of_ne_nil (List.splitOnP_ne_nil p l)
    rw [List.splitOnP_cons_eq_if_modifyHead, List.splitOnP_cons_eq_if_modifyHead (p := p), ih, hsplit]
    by_cases hp : p a
    · simp [hp]
    · by_cases hq : q a
      · simp [hp, hq, List.splitOnP_cons_eq_if_modifyHead a first]
      · obtain ⟨x, xs, hx⟩ := List.exists_cons_of_ne_nil (List.splitOnP_ne_nil q first)
        simp [hp, hq, List.splitOnP_cons_eq_if_modifyHead a first, hx]

theorem dropLast_flatMap {β : Type} (l : List α) (a : α) (f : α → List β) (ha : f a ≠ []) :
    ((l ++ [a]).flatMap f).dropLast = l.flatMap f ++ (f a).dropLast := by
  rw [List.flatMap_append, List.flatMap_singleton, List.dropLast_append_of_ne_nil ha]

/-- Where `g` gives at least as much for each, the two give the same altogether only if they do for
each. -/
theorem flatMap_append_eq_iff {β : Type} {g h : α → List β} {l : List α} {r : List β}
    (hle : ∀ a, (h a).length ≤ (g a).length) :
    l.flatMap g ++ r = l.flatMap h ↔ (∀ a ∈ l, g a = h a) ∧ r = [] := by
  have hlen : ∀ l : List α, (l.flatMap h).length ≤ (l.flatMap g).length := by
    intro l
    induction l with
    | nil => simp
    | cons a l ih =>
      have := hle a
      simp only [List.flatMap_cons, List.length_append]
      omega
  induction l with
  | nil => simp
  | cons a l ih =>
    simp only [List.flatMap_cons, List.forall_mem_cons, List.append_assoc]
    constructor
    · intro heq
      have htotal := congrArg List.length heq
      have ha := hle a
      have hl := hlen l
      simp only [List.length_append] at htotal
      obtain ⟨hhead, htail⟩ := List.append_inj heq (by omega)
      obtain ⟨hall, hr⟩ := ih.mp htail
      exact ⟨⟨hhead, hall⟩, hr⟩
    · rintro ⟨⟨hhead, hall⟩, hr⟩
      rw [hhead, ih.mpr ⟨hall, hr⟩]

end Split

theorem texts_eq_flatten (block : List Item) : texts block = (parts block).flatten := by
  simp only [parts, List.splitOn_eq_splitOnP]
  induction block with
  | nil => rfl
  | cons i block ih =>
    obtain ⟨first, others, hsplit⟩ :=
      List.exists_cons_of_ne_nil (List.splitOnP_ne_nil (fun i => i == Item.cut) block)
    rw [List.splitOnP_cons_eq_if_modifyHead]
    rw [hsplit] at ih ⊢
    cases i with
    | line text =>
      simp only [texts, List.map_cons, List.flatten_cons] at ih
      simp [texts, Item.text, ih]
    | blank =>
      simpa [texts, Item.text, List.filterMap_cons] using ih
    | cut =>
      simpa [texts, Item.text, List.filterMap_cons] using ih

/-- The blocks of a reading to which a cut line end is a line end and an empty line. -/
theorem splitOnP_cut (its : List Item) : ((its.splitOnP fun i => i == .blank || i == .cut).dropLast).map texts =
    (blocks its).flatMap parts ++ (parts (rest its)).dropLast := by
  have hsplit := List.dropLast_append_getLast (List.splitOn_ne_nil Item.blank its)
  rw [splitOnP_or, ← List.splitOn_eq_splitOnP, ← hsplit, dropLast_flatMap _ _ _ (List.splitOnP_ne_nil _ _)]
  simp only [List.map_append, List.map_flatMap, List.map_dropLast]
  rfl

theorem splitOnP_map {α β : Type} (f : α → β) (p : β → Bool) (l : List α) :
    (l.map f).splitOnP p = (l.splitOnP (p ∘ f)).map (List.map f) := by
  induction l with
  | nil => rfl
  | cons a l ih =>
    obtain ⟨first, others, hsplit⟩ := List.exists_cons_of_ne_nil (List.splitOnP_ne_nil (p ∘ f) l)
    rw [List.map_cons, List.splitOnP_cons_eq_if_modifyHead, List.splitOnP_cons_eq_if_modifyHead, ih, hsplit]
    by_cases ha : p (f a) <;> simp [ha]

theorem splitOnP_filter {α : Type} {p q : α → Bool} (h : ∀ a, p a = true → q a = true) (l : List α) :
    (l.filter q).splitOnP p = (l.splitOnP p).map (List.filter q) := by
  induction l with
  | nil => rfl
  | cons a l ih =>
    obtain ⟨first, others, hsplit⟩ := List.exists_cons_of_ne_nil (List.splitOnP_ne_nil p l)
    rw [List.splitOnP_cons_eq_if_modifyHead, hsplit]
    rw [hsplit] at ih
    by_cases hq : q a
    · rw [List.filter_cons_of_pos hq, List.splitOnP_cons_eq_if_modifyHead, ih]
      by_cases hp : p a <;> simp [hp, hq]
    · have hp : ¬p a = true := fun hp => hq (h a hp)
      rw [List.filter_cons_of_neg hq, ih]
      simp [hp, hq]

theorem texts_filter (block : List Item) : texts (block.filter (· != .cut)) = texts block := by
  induction block with
  | nil => rfl
  | cons i block ih =>
    simp only [texts] at ih
    cases i <;> simp [texts, Item.text, List.filterMap_cons, ih]

theorem texts_apart (block : List Item) : texts (block.map Item.apart) = texts block := by
  induction block with
  | nil => rfl
  | cons i block ih =>
    simp only [texts] at ih
    cases i <;> simp [texts, Item.text, Item.apart, List.filterMap_cons, ih]

/-- The blocks of the stream are those of its chunks. -/
theorem blocks_flatten (chunks : List (List Char)) :
    (blocks (items [] (chunkTokens false chunks.flatten))).map texts =
      (blocks (items [] (tokens false chunks))).map texts := by
  have hblank : ∀ i : Item, (i == Item.blank) = true → (i != Item.cut) = true := by
    intro i hi
    obtain rfl : i = .blank := by simpa using hi
    rfl
  have htexts : texts ∘ List.filter (· != Item.cut) = texts := funext texts_filter
  rw [← filter_tokens, items_filter, blocks, List.splitOn_eq_splitOnP, splitOnP_filter hblank,
    ← List.map_dropLast, List.map_map, htexts]
  rfl

/-- The blocks of the chunks read apart are the parts of the blocks. -/
theorem blocks_apart (chunks : List (List Char)) :
    (blocks (items [] (chunks.flatMap (chunkTokens false)))).map texts =
      (blocks (items [] (tokens false chunks))).flatMap parts ++
        (parts (rest (items [] (tokens false chunks)))).dropLast := by
  have hcuts : CutsAtEnds false (tokens false chunks) := cutsAtEnds_tokens (by simp) chunks
  have hsep : ((· == Item.blank) ∘ Item.apart) = fun i => i == Item.blank || i == Item.cut := by
    funext i
    cases i <;> rfl
  have htexts : texts ∘ List.map Item.apart = texts := funext texts_apart
  rw [← tokens_apart false, items_apart _ hcuts (by simp), blocks, List.splitOn_eq_splitOnP, splitOnP_map,
    hsep, ← List.map_dropLast, List.map_map, htexts, splitOnP_cut]

theorem values_append (name : List Char) (l m : List (List Char)) :
    values name (l ++ m) = values name l ++ values name m := by
  simp [values]

theorem dataLines_flatten (ps : List (List (List Char))) :
    dataLines ps.flatten = (ps.filter fun p => dataLines p != []).flatMap dataLines := by
  induction ps with
  | nil => rfl
  | cons p ps ih =>
    have happend : dataLines (p ++ ps.flatten) = dataLines p ++ dataLines ps.flatten :=
      values_append _ _ _
    rw [List.flatten_cons, happend, ih]
    by_cases h : dataLines p = [] <;> simp [h]

theorem filterMap_dispatch (type : List (List Char) → List Char) (ps : List (List (List Char))) :
    ps.filterMap (dispatch type) = (ps.filter fun p => dataLines p != []).map fun p =>
      ⟨lastId p, type p, ['\n'].intercalate (dataLines p)⟩ := by
  induction ps with
  | nil => rfl
  | cons p ps ih =>
    by_cases h : dataLines p = [] <;> simp [dispatch, h, ih]

theorem length_dispatch_le (type : List (List Char) → List Char) (ps : List (List (List Char))) :
    (dispatch type ps.flatten).toList.length ≤ (ps.filterMap (dispatch type)).length := by
  rw [filterMap_dispatch, List.length_map]
  by_cases h : dataLines ps.flatten = []
  · simp [dispatch, h]
  · have hne : (ps.filter fun p => dataLines p != []) ≠ [] := by
      intro hnil
      rw [dataLines_flatten, hnil] at h
      exact h rfl
    have := List.length_pos_iff.mpr hne
    simp [dispatch, h]
    omega

/-- Reading the parts is reading the block. -/
theorem filterMap_parts_iff (type : List (List Char) → List Char) (ps : List (List (List Char))) :
    ps.filterMap (dispatch type) = (dispatch type ps.flatten).toList ↔ Undivided type ps := by
  have hdata := dataLines_flatten ps
  rw [filterMap_dispatch]
  cases hps : ps.filter fun p => dataLines p != [] with
  | nil =>
    rw [hps] at hdata
    have hnone : dataLines ps.flatten = [] := hdata
    refine ⟨fun _ => ⟨by simp [hps], fun p hp hne => ?_⟩, fun _ => by simp [dispatch, hnone]⟩
    have hmem : p ∈ ps.filter fun p => dataLines p != [] := by simp [hp, hne]
    rw [hps] at hmem
    cases hmem
  | cons p more =>
    have hp : p ∈ ps ∧ dataLines p ≠ [] := by
      have hmem : p ∈ ps.filter fun p => dataLines p != [] := by rw [hps]; exact List.mem_cons_self
      simpa using hmem
    cases more with
    | nil =>
      rw [hps] at hdata
      have hdata : dataLines ps.flatten = dataLines p := by simpa using hdata
      have honly : ∀ p' ∈ ps, dataLines p' ≠ [] → p' = p := by
        intro p' hp' hne
        have hmem : p' ∈ ps.filter fun p => dataLines p != [] := by simp [hp', hne]
        rw [hps] at hmem
        simpa using hmem
      simp only [dispatch, hdata, hp.2, List.map_cons, List.map_nil, if_false, Option.toList_some,
        List.cons.injEq, and_true, Event.mk.injEq]
      constructor
      · intro hsame
        refine ⟨by simp [hps], fun p' hp' hne => ?_⟩
        rw [honly p' hp' hne]
        exact hsame
      · intro h
        exact h.same p hp.1 hp.2
    | cons p' more =>
      constructor
      · intro heq
        have hlen := congrArg List.length heq
        have hle : (dispatch type ps.flatten).toList.length ≤ 1 := Option.length_toList_le
        simp only [List.map_cons, List.length_cons] at hlen
        omega
      · intro h
        have := h.one
        rw [hps] at this
        simp only [List.length_cons] at this
        omega

end EventStream
