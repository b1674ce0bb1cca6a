import Mathlib.Algebra.Order.Group.Defs
import Mathlib.Algebra.Order.Sub.Basic
import Mathlib.Algebra.Order.Group.Unbundled.Basic

/-!
# Lib.Throttle

A throttle that counts failures: a bucket of the times of the last ones, attempts in flight that were
admitted before they are counted, and the failures themselves. `Sound` is what a bound on every window
rests on: within the window that is still open, the failures are in the bucket or not recorded yet, and
together with the attempts in flight they stay below the limit. Each kind of step keeps it.
-/

namespace Throttle

variable {T : Type} [LinearOrder T]

/-- How many of the times are not before `a`. -/
def since (a : T) (times : List T) : Nat := times.countP fun t => decide (a ≤ t)

/-- A bucket without the entries at its head that are before the cutoff. -/
def pruned (cutoff : T) (bucket : List T) : List T := bucket.dropWhile fun t => decide (t < cutoff)

theorem since_pruned_le (a cutoff : T) (bucket : List T) : since a (pruned cutoff bucket) ≤ since a bucket :=
  (List.dropWhile_sublist _).countP_le

/-- What is pruned is before the cutoff. -/
theorem since_pruned {a cutoff : T} (h : cutoff ≤ a) (bucket : List T) :
    since a (pruned cutoff bucket) = since a bucket := by
  induction bucket with
  | nil => rfl
  | cons t rest ih =>
    by_cases ht : t < cutoff
    · have hbefore : ¬ a ≤ t := not_le.mpr (lt_of_lt_of_le ht h)
      simp only [pruned, since] at ih
      simp [pruned, since, ht, hbefore, ih]
    · simp [pruned, ht]

section
variable [AddCommGroup T]

/-- How many of the times are in the window that begins at `a`. -/
def within (window a : T) (times : List T) : Nat := times.countP fun t => decide (a ≤ t ∧ t ≤ a + window)

theorem within_le_since (window a : T) (times : List T) : within window a times ≤ since a times := by
  refine List.countP_mono_left fun t _ h => ?_
  exact decide_eq_true (of_decide_eq_true h).1

end

@[ext]
structure Tally (T : Type) where
  clock : T
  bucket : List T
  /-- The attempts that were admitted and are neither counted nor known to succeed. -/
  inFlight : Nat
  /-- How many failures the bucket lacks, without those that will be recorded with a time before `a`. -/
  unrecorded : T → Nat
  failures : List T

namespace Tally

variable [AddCommGroup T]

structure Sound (window : T) (limit : Nat) (t : Tally T) : Prop where
  past : ∀ f ∈ t.failures, f ≤ t.clock
  covered : ∀ a, t.clock ≤ a + window → since a t.failures ≤ since a t.bucket + t.unrecorded a
  room : ∀ a, t.clock ≤ a + window → since a t.bucket + t.inFlight ≤ limit
  unrecorded_le : ∀ a, t.unrecorded a ≤ t.inFlight
  windows : ∀ a, within window a t.failures ≤ limit

variable {window : T} {limit : Nat} {t : Tally T}

theorem Sound.advance (h : t.Sound window limit) {clock : T} (hclock : t.clock ≤ clock) :
    ({ t with clock } : Tally T).Sound window limit where
  past := fun f hf => le_trans (h.past f hf) hclock
  covered := fun a ha => h.covered a (le_trans hclock ha)
  room := fun a ha => h.room a (le_trans hclock ha)
  unrecorded_le := h.unrecorded_le
  windows := h.windows

theorem Sound.prune [IsOrderedAddMonoid T] (h : t.Sound window limit) {now : T} (hnow : now ≤ t.clock) :
    ({ t with bucket := pruned (now - window) t.bucket } : Tally T).Sound window limit where
  past := h.past
  covered := by
    intro a ha
    have hcutoff : now - window ≤ a := sub_le_iff_le_add.mpr (le_trans hnow ha)
    show since a t.failures ≤ since a (pruned (now - window) t.bucket) + t.unrecorded a
    rw [since_pruned hcutoff]
    exact h.covered a ha
  room := by
    intro a ha
    exact le_trans (Nat.add_le_add_right (since_pruned_le a _ t.bucket) _) (h.room a ha)
  unrecorded_le := h.unrecorded_le
  windows := h.windows

/-- Admission on a count that includes the attempts in flight. -/
theorem Sound.admit (h : t.Sound window limit) (hroom : t.bucket.length + t.inFlight < limit) :
    ({ t with inFlight := t.inFlight + 1 } : Tally T).Sound window limit where
  past := h.past
  covered := h.covered
  room := by
    intro a _
    have hle : since a t.bucket ≤ t.bucket.length := List.countP_le_length
    show since a t.bucket + (t.inFlight + 1) ≤ limit
    omega
  unrecorded_le := fun a => Nat.le_succ_of_le (h.unrecorded_le a)
  windows := h.windows

/-- An attempt in flight fails. -/
theorem Sound.fail (h : t.Sound window limit) (hflight : ∀ a, t.unrecorded a < t.inFlight) :
    ({ t with
      unrecorded := fun a => t.unrecorded a + 1
      failures := t.clock :: t.failures } : Tally T).Sound window limit := by
  have hcovered : ∀ a, t.clock ≤ a + window →
      since a (t.clock :: t.failures) ≤ since a t.bucket + (t.unrecorded a + 1) := by
    intro a ha
    have hold := h.covered a ha
    have hone : since a (t.clock :: t.failures) ≤ since a t.failures + 1 := by
      rw [since, List.countP_cons]
      split <;> simp [since]
    omega
  constructor
  · intro f hf
    rcases List.mem_cons.mp hf with rfl | hf
    · exact le_refl _
    · exact h.past f hf
  · exact hcovered
  · exact h.room
  · exact hflight
  · intro a
    show within window a (t.clock :: t.failures) ≤ limit
    by_cases ha : t.clock ≤ a + window
    · -- The window is open: what it holds is recorded or in flight.
      have hwithin := within_le_since window a (t.clock :: t.failures)
      have hsince := hcovered a ha
      have hroom := h.room a ha
      have hlt := hflight a
      omega
    · have hout : within window a (t.clock :: t.failures) = within window a t.failures := by
        simp [within, ha]
      rw [hout]
      exact h.windows a

/-- An attempt in flight succeeds. -/
theorem Sound.settle (h : t.Sound window limit) {n : Nat} (hn : t.inFlight = n + 1) (hle : ∀ a, t.unrecorded a ≤ n) :
    ({ t with inFlight := n } : Tally T).Sound window limit where
  past := h.past
  covered := h.covered
  room := by
    intro a ha
    have hroom := h.room a ha
    show since a t.bucket + n ≤ limit
    omega
  unrecorded_le := hle
  windows := h.windows

/-- A failure takes the time it will be recorded with. -/
theorem Sound.read (h : t.Sound window limit) {u : T → Nat} (hsame : ∀ a ≤ t.clock, u a = t.unrecorded a)
    (hle : ∀ a, u a ≤ t.inFlight) : ({ t with unrecorded := u } : Tally T).Sound window limit where
  past := h.past
  covered := by
    intro a ha
    show since a t.failures ≤ since a t.bucket + u a
    by_cases hclock : a ≤ t.clock
    · rw [hsame a hclock]
      exact h.covered a ha
    · -- No failure is that late.
      have hnone : since a t.failures = 0 := by
        refine List.countP_eq_zero.mpr fun f hf hle => ?_
        exact hclock (le_trans (of_decide_eq_true hle) (h.past f hf))
      rw [hnone]
      exact Nat.zero_le _
  room := h.room
  unrecorded_le := hle
  windows := h.windows

/-- A failure goes into the bucket. -/
theorem Sound.record (h : t.Sound window limit) {now : T} {n : Nat} {u : T → Nat} (hn : t.inFlight = n + 1)
    (hu : ∀ a, t.unrecorded a = u a + if a ≤ now then 1 else 0) (hle : ∀ a, u a ≤ n) :
    ({ t with bucket := t.bucket ++ [now], inFlight := n, unrecorded := u } : Tally T).Sound window limit := by
  have hbucket : ∀ a, since a (t.bucket ++ [now]) = since a t.bucket + if a ≤ now then 1 else 0 := by
    intro a
    simp [since, List.countP_append, List.countP_cons]
  constructor
  · exact h.past
  · intro a ha
    have hcovered := h.covered a ha
    show since a t.failures ≤ since a (t.bucket ++ [now]) + u a
    rw [hbucket, Nat.add_assoc, Nat.add_comm _ (u a), ← hu a]
    exact hcovered
  · intro a ha
    have hroom := h.room a ha
    show since a (t.bucket ++ [now]) + n ≤ limit
    rw [hbucket]
    split <;> omega
  · exact hle
  · exact h.windows

/-- The bucket is cleared, and the failures are counted anew. -/
theorem Sound.reset (h : t.Sound window limit) :
    ({ t with bucket := [], failures := [] } : Tally T).Sound window limit where
  past := fun _ hf => by cases hf
  covered := fun _ _ => Nat.zero_le _
  room := by
    intro a ha
    have hroom := h.room a ha
    show 0 + t.inFlight ≤ limit
    omega
  unrecorded_le := h.unrecorded_le
  windows := fun _ => Nat.zero_le _

end Tally

end Throttle
