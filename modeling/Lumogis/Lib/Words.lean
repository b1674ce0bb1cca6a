import Mathlib.Data.List.Basic
import Mathlib.Data.List.DropRight
import Mathlib.Data.List.Forall2

/-!
# Lib.Words

The words of a list: what is left of it between the elements that a predicate calls blank. A blank
anywhere cuts the words in two, so words are kept by trimming, by joining with a blank and by trading one
blank for another.
-/

namespace Words

variable {α : Type*} {p : α → Bool} {s t w : List α} {b : α}

def words (p : α → Bool) (s : List α) : List (List α) := (s.splitOnP p).filter fun w => !w.isEmpty

theorem words_append_cons (hb : p b = true) : words p (s ++ b :: t) = words p s ++ words p t := by
  rw [words, List.splitOnP_append_cons s t hb, List.filter_append]
  rfl

end Words
