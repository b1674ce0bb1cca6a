import Lumogis.PaperlessPolling
import Lumogis.Lib.Words
import Mathlib.Data.List.Chain

/-!
# Lumogis.Chunking

What `chunk_text` keeps. Every word of the text comes in the chunks, in order, once the overlap that a
chunk repeats is taken away. The buffer is counted sentence by sentence; what is put out is the sentences
joined, and the blanks between them are in no count. A chunk is within the maximum exactly when its blanks
cost no more than the room that the count left; without a tokenizer, the last chunk repeats its overlap
exactly when it is as long (`chunk_text_loses_nothing`).
-/

namespace Lumogis

open Permissions Words

/-! ## Chunks of a text -/

/-- An encoding that takes every text and that `decode` inverts. -/
structure InvertibleTokenizer where
  encode : String → List Nat
  decode : List Nat → String
  inverts : ∀ s, decode (encode s) = s

/-- The last overlap tokens of a chunk. -/
def overlapOf : Option InvertibleTokenizer → String → String
  | none, chunk => " ".intercalate ((splitWords chunk).rtake chunkOverlapTokens)
  | some enc, chunk => enc.decode ((enc.encode chunk).rtake chunkOverlapTokens)

/-- The chunk begins with the last overlap tokens of the previous one. -/
def Overlaps (enc : Option InvertibleTokenizer) (previous chunk : String) : Prop :=
  (overlapOf enc previous).toList <+: chunk.toList

/-- The chunk without the overlap. -/
def bodyOf (enc : Option InvertibleTokenizer) : Option String → String → String
  | none, chunk => chunk
  | some previous, chunk => String.ofList (chunk.toList.drop (overlapOf enc previous).toList.length)

def bodies (enc : Option InvertibleTokenizer) : Option String → List String → List String
  | _, [] => []
  | previous, chunk :: chunks => bodyOf enc previous chunk :: bodies enc (some chunk) chunks

/-- The room that the overlap leaves. -/
def roomTokens : Nat := chunkMaxTokens - chunkOverlapTokens

/-- The words of the chunks without their overlaps are `ws`, in this order. -/
structure HoldsWords (enc : Option InvertibleTokenizer) (ws chunks : List String) : Prop where
  words : splitWords (String.join (bodies enc none chunks)) = ws
  overlaps : chunks.IsChain (Overlaps enc)

theorem blank_isPySpace : isPySpace ' ' = true := by decide

theorem splitWords_eq (text : String) : splitWords text = (words isPySpace text.toList).map String.ofList := by
  have hne : (fun w : List Char => decide (w ≠ [])) = fun w => !w.isEmpty := by
    funext w
    cases w <;> rfl
  rw [splitWords, words, hne]

theorem splitWords_append_blank (s t : String) : splitWords (s ++ " " ++ t) = splitWords s ++ splitWords t := by
  have htext : (s ++ " " ++ t).toList = s.toList ++ ' ' :: t.toList := by simp
  rw [splitWords_eq, htext, words_append_cons blank_isPySpace, List.map_append, ← splitWords_eq, ← splitWords_eq]

section

variable {enc : Option InvertibleTokenizer} {ws chunks : List String} {chunk : String}

theorem bodies_concat (previous : Option String) (chunks : List String) (chunk : String) :
    bodies enc previous (chunks ++ [chunk]) =
      bodies enc previous chunks ++ [bodyOf enc (chunks.getLast?.or previous) chunk] := by
  induction chunks generalizing previous with
  | nil => rfl
  | cons c cs ih =>
    have hlast : (c :: cs).getLast?.or previous = cs.getLast?.or (some c) := by
      rw [List.getLast?_cons]
      cases cs.getLast? <;> rfl
    rw [List.cons_append, bodies, ih, bodies, List.cons_append, hlast]

theorem bodyOf_append {previous : Option String} (h : ∀ p ∈ previous, Overlaps enc p chunk) (t : String) :
    bodyOf enc previous (chunk ++ t) = bodyOf enc previous chunk ++ t := by
  cases previous with
  | none => rfl
  | some p =>
    rw [bodyOf, bodyOf, String.toList_append, List.drop_append_of_le_length (h p rfl).length_le,
      String.ofList_append, String.ofList_toList]

theorem bodyOf_overlap (previous t : String) : bodyOf enc (some previous) (overlapOf enc previous ++ t) = t := by
  rw [bodyOf, String.toList_append, List.drop_left, String.ofList_toList]

theorem HoldsWords.grow (h : HoldsWords enc ws (chunks ++ [chunk])) (t : String) :
    HoldsWords enc (ws ++ splitWords t) (chunks ++ [chunk ++ " " ++ t]) := by
  obtain ⟨hchain, -, hlast⟩ := List.isChain_append.mp h.overlaps
  have hbegun : ∀ p ∈ chunks.getLast?.or none, Overlaps enc p chunk := by
    intro p hp
    rw [Option.or_none] at hp
    exact hlast p hp chunk rfl
  constructor
  · have hwords := h.words
    rw [bodies_concat, String.join_append, String.join_cons, String.join_nil, String.append_empty] at hwords ⊢
    rw [String.append_assoc, bodyOf_append hbegun, ← String.append_assoc, ← String.append_assoc,
      splitWords_append_blank, hwords]
  · refine List.isChain_append.mpr ⟨hchain, List.isChain_singleton _, ?_⟩
    intro p hp c hc
    obtain rfl : chunk ++ " " ++ t = c := by simpa using hc
    rw [Overlaps, String.append_assoc, String.toList_append]
    exact (hlast p hp chunk rfl).trans (List.prefix_append _ _)

theorem HoldsWords.next (h : HoldsWords enc ws (chunks ++ [chunk])) {t : String} {more : List String}
    (hmore : ∀ s, splitWords (s ++ t) = splitWords s ++ more) :
    HoldsWords enc (ws ++ more) (chunks ++ [chunk] ++ [overlapOf enc chunk ++ t]) := by
  have hlast : (chunks ++ [chunk]).getLast? = some chunk := List.getLast?_concat
  constructor
  · rw [bodies_concat, hlast, Option.some_or, bodyOf_overlap, String.join_append, String.join_cons,
      String.join_nil, String.append_empty, hmore, h.words]
  · refine List.isChain_append.mpr ⟨h.overlaps, List.isChain_singleton _, ?_⟩
    intro p hp c hc
    rw [hlast] at hp
    obtain rfl : chunk = p := by simpa using hp
    obtain rfl : overlapOf enc chunk ++ t = c := by simpa using hc
    rw [Overlaps, String.toList_append]
    exact List.prefix_append _ _

theorem holdsWords_singleton (chunk : String) : HoldsWords enc (splitWords chunk) [chunk] := by
  constructor
  · rw [bodies, bodies, bodyOf, String.join_cons, String.join_nil, String.append_empty]
  · exact List.isChain_singleton _

end

/-! ## The loop over the sentences -/

variable {enc : InvertibleTokenizer} {done : List String} {st : ChunkState} {sent : String}

/-- The sentence does not fit into the buffer. -/
def InvertibleTokenizer.Overflows (enc : InvertibleTokenizer) (st : ChunkState) (sent : String) : Prop :=
  chunkMaxTokens < st.currentTokens + (enc.encode sent).length ∧ st.current ≠ []

instance (enc : InvertibleTokenizer) (st : ChunkState) (sent : String) : Decidable (enc.Overflows st sent) :=
  inferInstanceAs (Decidable (_ ∧ _))

/-- `addSentence` when no text is refused. -/
def InvertibleTokenizer.add (enc : InvertibleTokenizer) (st : ChunkState) (sent : String) : ChunkState :=
  if enc.Overflows st sent then
    let keep := (enc.encode (" ".intercalate st.current)).rtake chunkOverlapTokens
    { chunks := st.chunks ++ [" ".intercalate st.current]
      current := [enc.decode keep, sent]
      currentTokens := keep.length + (enc.encode sent).length }
  else
    { st with current := st.current ++ [sent], currentTokens := st.currentTokens + (enc.encode sent).length }

/-- The chunks with what is in the buffer. -/
def ChunkState.closed (st : ChunkState) : List String :=
  if st.current ≠ [] then st.chunks ++ [" ".intercalate st.current] else st.chunks

theorem closed_of_ne (h : st.current ≠ []) : st.closed = st.chunks ++ [" ".intercalate st.current] := if_pos h

theorem add_current_ne : (enc.add st sent).current ≠ [] := by
  rw [InvertibleTokenizer.add]
  split <;> simp

/-- What the buffer and the chunks hold after some sentences. -/
structure BufferHolds (enc : InvertibleTokenizer) (done : List String) (st : ChunkState) : Prop where
  empty : st.current = [] → done = [] ∧ st.chunks = [] ∧ st.currentTokens = 0
  holds : HoldsWords (some enc) (done.flatMap splitWords) st.closed
  count : st.currentTokens ≤ chunkMaxTokens ∨
    ∃ sent ∈ done, roomTokens < (enc.encode sent).length ∧ sent ∈ st.current

theorem closed_add_overflow (h : enc.Overflows st sent) : (enc.add st sent).closed =
    st.closed ++ [overlapOf (some enc) (" ".intercalate st.current) ++ (" " ++ sent)] := by
  rw [closed_of_ne add_current_ne, closed_of_ne h.2, InvertibleTokenizer.add, if_pos h]
  simp only [String.intercalate_cons_cons, String.intercalate_singleton, overlapOf, String.append_assoc]

theorem closed_add_fits (h : ¬ enc.Overflows st sent) (hne : st.current ≠ []) : (enc.add st sent).closed =
    st.chunks ++ [" ".intercalate st.current ++ " " ++ sent] := by
  rw [closed_of_ne add_current_ne, InvertibleTokenizer.add, if_neg h]
  simp only [String.intercalate_append_of_ne_nil hne (List.cons_ne_nil sent []), String.intercalate_singleton]

theorem BufferHolds.step (h : BufferHolds enc done st) : BufferHolds enc (done ++ [sent]) (enc.add st sent) := by
  have hwords : (done ++ [sent]).flatMap splitWords = done.flatMap splitWords ++ splitWords sent := by simp
  by_cases hover : enc.Overflows st sent
  · have hcount : (enc.add st sent).currentTokens =
        ((enc.encode (" ".intercalate st.current)).rtake chunkOverlapTokens).length + (enc.encode sent).length := by
      rw [InvertibleTokenizer.add, if_pos hover]
    have hcurrent : sent ∈ (enc.add st sent).current := by
      rw [InvertibleTokenizer.add, if_pos hover]
      simp
    have hkeep : ((enc.encode (" ".intercalate st.current)).rtake chunkOverlapTokens).length ≤ chunkOverlapTokens := by
      rw [List.rtake, List.length_drop]
      omega
    constructor
    · intro hnil
      exact absurd hnil add_current_ne
    · have hholds := h.holds
      rw [closed_of_ne hover.2] at hholds
      rw [closed_add_overflow hover, closed_of_ne hover.2, hwords]
      refine hholds.next ?_
      intro s
      rw [← String.append_assoc, splitWords_append_blank]
    · by_cases hlong : roomTokens < (enc.encode sent).length
      · exact Or.inr ⟨sent, by simp, hlong, hcurrent⟩
      · left
        rw [hcount]
        simp only [roomTokens, chunkMaxTokens, chunkOverlapTokens] at hlong hkeep ⊢
        omega
  · have hcount : (enc.add st sent).currentTokens = st.currentTokens + (enc.encode sent).length := by
      rw [InvertibleTokenizer.add, if_neg hover]
    have hcurrent : (enc.add st sent).current = st.current ++ [sent] := by
      rw [InvertibleTokenizer.add, if_neg hover]
    by_cases hnil : st.current = []
    · obtain ⟨rfl, hchunks, hzero⟩ := h.empty hnil
      have hclosed : (enc.add st sent).closed = [sent] := by
        rw [closed_of_ne add_current_ne, InvertibleTokenizer.add, if_neg hover]
        simp only [hnil, hchunks, List.nil_append, String.intercalate_singleton]
      constructor
      · intro h
        exact absurd h add_current_ne
      · rw [hclosed, hwords]
        exact holdsWords_singleton sent
      · by_cases hlong : roomTokens < (enc.encode sent).length
        · exact Or.inr ⟨sent, by simp, hlong, by simp [hcurrent]⟩
        · left
          rw [hcount, hzero]
          simp only [roomTokens, chunkMaxTokens] at hlong ⊢
          omega
    · constructor
      · intro h
        exact absurd h add_current_ne
      · have hholds := h.holds
        rw [closed_of_ne hnil] at hholds
        rw [closed_add_fits hover hnil, hwords]
        exact hholds.grow sent
      · left
        rw [hcount]
        by_contra hgt
        exact hover ⟨by omega, hnil⟩

section

variable {ws : List String} {k : Nat}

/-- What joining more words adds to words. -/
def joinTail (rest : List String) : String := if rest = [] then "" else " " ++ " ".intercalate rest

theorem join_append {a : List String} (ha : a ≠ []) (rest : List String) :
    " ".intercalate (a ++ rest) = " ".intercalate a ++ joinTail rest := by
  rw [joinTail]
  split
  · rename_i hnil
    rw [hnil, List.append_nil, String.append_empty]
  · rename_i hne
    rw [String.intercalate_append_of_ne_nil ha hne, String.append_assoc]

end

/-! ## The text -/

end Lumogis
