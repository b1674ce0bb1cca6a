import Lumogis.ContextInjection
import Lumogis.Lib.Dict
import Lumogis.Lib.FrontShed

/-!
# HistoryTruncation

`truncate_messages`: a history that does not fit keeps its first message, and of the others the longest
suffix that fits with it, or the last two when none of two or more does (`truncate_messages_keeps`). A
first message that is an empty dict is no first message to the code, and then nothing is dropped
(`empty_first_untouched`).
-/

namespace Lumogis.HistoryTruncation

open Chars FrontShed

/-! ## The code -/

/-- A message is a dict of texts; the callers set `role` and `content`. -/
abbrev Message := Dict Text Text

/-- `m.get("content", "")`. -/
def contentOf (m : Message) : Text := (m.get? "content".toList).getD []

def totalTokens (messages : List Message) : Nat := (messages.map fun m => estimateTokens (contentOf m)).sum

/-- The messages fit with the first one. -/
def FitsWith (maxTokens : Int) (first : Message) (rest : List Message) : Prop :=
  totalTokens (first :: rest) ≤ maxTokens

instance (maxTokens : Int) (first : Message) (rest : List Message) : Decidable (FitsWith maxTokens first rest) :=
  inferInstanceAs (Decidable (_ ≤ _))

/-- The loop: it ends at two messages. -/
def dropOldest (maxTokens : Int) (first : Message) (rest : List Message) : List Message :=
  shedFront (fun rest => decide (FitsWith maxTokens first rest)) 2 rest

def truncateMessages (messages : List Message) (maxTokens : Int) : List Message :=
  match messages with
  | [] => []
  | first :: rest =>
    if totalTokens (first :: rest) ≤ maxTokens then first :: rest
    else if first.items = [] then first :: rest
    else first :: dropOldest maxTokens first rest

/-! ## What is kept -/

/-- The longest suffix that fits, or the last two (or fewer) when none of two or more does. -/
structure KeepsNewest (maxTokens : Int) (first : Message) (rest kept : List Message) : Prop where
  suffix : kept <:+ rest
  fits : ∀ s, s <:+ rest → 2 ≤ s.length → FitsWith maxTokens first s →
    FitsWith maxTokens first kept ∧ ∀ t, t <:+ rest → FitsWith maxTokens first t → t.length ≤ kept.length
  floor : (∀ s, s <:+ rest → 2 ≤ s.length → ¬ FitsWith maxTokens first s) → kept.length = min 2 rest.length

/-- The history that `truncate_messages` is to return. -/
structure Truncated (messages : List Message) (maxTokens : Int) (result : List Message) : Prop where
  whole : totalTokens messages ≤ maxTokens → result = messages
  cut : ∀ first rest, messages = first :: rest → maxTokens < totalTokens messages →
    ∃ kept, result = first :: kept ∧ KeepsNewest maxTokens first rest kept
  unaltered : result.Sublist messages

/-- The first message is an empty dict. -/
def StartsEmpty (messages : List Message) : Prop := ∃ first ∈ messages.head?, first.items = []

theorem dropOldest_keeps (maxTokens : Int) (first : Message) (rest : List Message) :
    KeepsNewest maxTokens first rest (dropOldest maxTokens first rest) := by
  constructor
  · exact shedFront_suffix rest
  · intro s hs hlong hfits
    have habove : FitsAbove (fun rest => decide (FitsWith maxTokens first rest)) 2 rest :=
      ⟨s, hs, decide_eq_true hfits, hlong⟩
    obtain ⟨-, hkept, hmax⟩ := shedFront_longest habove
    exact ⟨of_decide_eq_true hkept, fun t ht hfitsT => hmax t ht (decide_eq_true hfitsT)⟩
  · intro hnone
    rw [dropOldest, shedFront_floor, List.length_drop]
    · omega
    · rintro ⟨s, hs, hfits, hlong⟩
      exact hnone s hs hlong (of_decide_eq_true hfits)

theorem truncateMessages_sublist (messages : List Message) (maxTokens : Int) :
    (truncateMessages messages maxTokens).Sublist messages := by
  cases messages with
  | nil => exact List.Sublist.refl _
  | cons first rest =>
    simp only [truncateMessages]
    split
    · exact List.Sublist.refl _
    · split
      · exact List.Sublist.refl _
      · exact (dropOldest_keeps maxTokens first rest).suffix.sublist.cons_cons first

theorem truncate_messages_keeps (messages : List Message) (maxTokens : Int) :
    (¬ StartsEmpty messages → Truncated messages maxTokens (truncateMessages messages maxTokens)) ∧
      (StartsEmpty messages → truncateMessages messages maxTokens = messages) := by
  cases messages with
  | nil =>
    refine ⟨fun _ => ⟨fun _ => rfl, ?_, List.Sublist.refl _⟩, fun _ => rfl⟩
    intro first rest h
    cases h
  | cons first rest =>
    constructor
    · intro h
      have hfirst : first.items ≠ [] := fun hempty => h ⟨first, rfl, hempty⟩
      refine ⟨?_, ?_, truncateMessages_sublist _ _⟩
      · intro hfits
        simp [truncateMessages, hfits]
      · intro first' rest' heq hover
        cases heq
        refine ⟨dropOldest maxTokens first rest, ?_, dropOldest_keeps maxTokens first rest⟩
        rw [truncateMessages, if_neg (by omega), if_neg hfirst]
    · rintro ⟨first', hhead, hempty⟩
      cases hhead
      simp [truncateMessages, hempty]

/-- An empty dict and three messages of one token each, for a budget of two: all four are kept. -/
theorem empty_first_untouched :
    ¬ Truncated [Dict.empty, Dict.empty.set "content".toList ['a'], Dict.empty.set "content".toList ['b'],
        Dict.empty.set "content".toList ['c']] 2
      (truncateMessages [Dict.empty, Dict.empty.set "content".toList ['a'], Dict.empty.set "content".toList ['b'],
        Dict.empty.set "content".toList ['c']] 2) := by
  intro h
  obtain ⟨kept, hkept, hnewest⟩ := h.cut _ _ rfl (by decide +kernel)
  have hsize : (truncateMessages [Dict.empty, Dict.empty.set "content".toList ['a'],
      Dict.empty.set "content".toList ['b'], Dict.empty.set "content".toList ['c']] 2).length = 4 := by decide +kernel
  rw [hkept, List.length_cons] at hsize
  have hlast := (hnewest.fits _ (List.suffix_cons _ _) (by decide) (by decide +kernel)).1
  have hall := hnewest.suffix.eq_of_length (by simp; omega)
  rw [hall] at hlast
  exact absurd hlast (by decide +kernel)

/-! ## The history of a chat -/

/-- `{"role": m.role, "content": text}`. -/
def toMessage (turn : ChatTurn) : Message :=
  (Dict.empty.set "role".toList turn.role.toList).set "content".toList turn.content

theorem toMessage_content (turn : ChatTurn) : (toMessage turn).get? "content".toList = some turn.content := by
  rw [toMessage, Dict.get?_set, if_pos rfl]

@[simp] theorem contentOf_toMessage (turn : ChatTurn) : contentOf (toMessage turn) = turn.content := by
  rw [contentOf, toMessage_content]
  rfl

theorem totalTokens_turns (turns : List ChatTurn) : totalTokens (turns.map toMessage) = tokensOfTurns turns := by
  simp [totalTokens, tokensOfTurns, Function.comp_def]

theorem toMessage_items (turn : ChatTurn) : (toMessage turn).items ≠ [] := by
  intro hempty
  have hget := toMessage_content turn
  rw [Dict.get?, hempty] at hget
  cases hget

theorem dropOldest_turns (maxTokens : Int) (first : ChatTurn) (rest : List ChatTurn) :
    dropOldest maxTokens (toMessage first) (rest.map toMessage) = (dropTurns maxTokens first rest).map toMessage := by
  induction rest with
  | nil => rfl
  | cons turn rest ih =>
    have hfits : FitsWith maxTokens (toMessage first) (toMessage turn :: rest.map toMessage)
        ↔ tokensOfTurns (first :: turn :: rest) ≤ maxTokens := by
      rw [← totalTokens_turns]
      exact Iff.rfl
    by_cases hdrop : maxTokens < tokensOfTurns (first :: turn :: rest) ∧ 2 < (turn :: rest).length
    · have hlen : 2 < rest.length + 1 := hdrop.2
      rw [dropTurns, if_pos hdrop, ← ih, dropOldest, List.map_cons, shedFront, if_pos]
      · rfl
      · simp [hfits, hdrop.1, hlen]
    · rw [dropTurns, if_neg hdrop, dropOldest, List.map_cons, shedFront, if_neg]
      simpa [hfits, Nat.lt_succ_iff] using hdrop

/-- The histories of the chat are truncated as lists of messages. -/
theorem truncateMessages_turns (turns : List ChatTurn) (maxTokens : Int) :
    truncateMessages (turns.map toMessage) maxTokens
      = (Lumogis.truncateMessages maxTokens turns).map toMessage := by
  cases turns with
  | nil => rfl
  | cons first rest =>
    have htotal := totalTokens_turns (first :: rest)
    simp only [List.map_cons] at htotal
    rw [List.map_cons, truncateMessages, Lumogis.truncateMessages, htotal, if_neg (toMessage_items first)]
    split
    · rfl
    · rw [dropOldest_turns]
      rfl

end Lumogis.HistoryTruncation
