import Lumogis.Lib.Labelled
import Mathlib.Logic.Function.Basic

/-!
# Lib.ReadThrough

A read-through cache in front of versioned rows. A reader takes the value of its slot, or loads the
row and may fill the slot; a writer changes a row, takes a snapshot of the slots that are filled
from it, drops them one by one and returns. Values are known by the version of the row that they
were made from. `floor` is the version of the last change of a row that has returned.

`uses_fresh`: in a run in which no reader fills a slot with a version older than a change that has
already dropped the slot (`Fresh`), every reader uses a version that is no older than the changes
that had returned when it began, and no newer than the row. `Inv.pending`: a slot is then older than
its row only while some writer has yet to drop it.
-/

namespace ReadThrough

open Labelled

inductive Phase (κ ρ : Type) where
  | idle
  /-- `since` is the floor when the reader began. -/
  | missed (k : κ) (since : Nat)
  | loaded (k : κ) (since version : Nat)
  | wrote (r : ρ) (version : Nat)
  /-- Slots of the snapshot that are still to be dropped. -/
  | dropping (r : ρ) (version : Nat) (rest : List κ)

structure Use (κ : Type) where
  slot : κ
  since : Nat
  version : Nat
  /-- The version of the row when the value is used. -/
  current : Nat

structure Config (ι κ ρ : Type) where
  version : ρ → Nat
  floor : ρ → Nat
  slot : κ → Option Nat
  phase : ι → Phase κ ρ
  uses : List (Use κ)

inductive Label (ι κ ρ : Type) where
  | hit (i : ι) (k : κ)
  | miss (i : ι) (k : κ)
  | load (i : ι)
  | fill (i : ι)
  /-- The reader uses what it loaded. -/
  | use (i : ι)
  | write (i : ι) (r : ρ)
  | snapshot (i : ι) (ks : List κ)
  | drop (i : ι)
  | return_ (i : ι)
  /-- A reader gives up. -/
  | abandon (i : ι)
  | evict (p : κ → Bool)

section System

variable {ι κ ρ : Type} [DecidableEq ι] [DecidableEq κ] [DecidableEq ρ] {row : κ → ρ}

namespace Config

def move (i : ι) (p : Phase κ ρ) (c : Config ι κ ρ) : Config ι κ ρ :=
  { c with phase := Function.update c.phase i p }

omit [DecidableEq κ] [DecidableEq ρ] in
@[simp] theorem move_phase_self (i : ι) (p : Phase κ ρ) (c : Config ι κ ρ) :
    (c.move i p).phase i = p := Function.update_self ..

omit [DecidableEq κ] [DecidableEq ρ] in
@[simp] theorem move_move (i : ι) (p q : Phase κ ρ) (c : Config ι κ ρ) :
    (c.move i p).move i q = c.move i q := by
  simp only [move, Function.update_idem]

def record (row : κ → ρ) (k : κ) (since version : Nat) (c : Config ι κ ρ) : Config ι κ ρ :=
  { c with uses := { slot := k, since := since, version := version
                     current := c.version (row k) } :: c.uses }

end Config

def step (row : κ → ρ) : Label ι κ ρ → Config ι κ ρ → Option (Config ι κ ρ)
  | .hit i k, c =>
    match c.phase i, c.slot k with
    | .idle, some version => some (c.record row k (c.floor (row k)) version)
    | _, _ => none
  | .miss i k, c =>
    match c.phase i with
    | .idle => some (c.move i (.missed k (c.floor (row k))))
    | _ => none
  | .load i, c =>
    match c.phase i with
    | .missed k since => some (c.move i (.loaded k since (c.version (row k))))
    | _ => none
  | .fill i, c =>
    match c.phase i with
    | .loaded k _ version => some { c with slot := Function.update c.slot k (some version) }
    | _ => none
  | .use i, c =>
    match c.phase i with
    | .loaded k since version => some ((c.move i .idle).record row k since version)
    | _ => none
  | .write i r, c =>
    match c.phase i with
    | .idle => some ({ c with version := Function.update c.version r (c.version r + 1) }.move i
        (.wrote r (c.version r + 1)))
    | _ => none
  | .snapshot i ks, c =>
    match c.phase i with
    | .wrote r version => some (c.move i (.dropping r version ks))
    | _ => none
  | .drop i, c =>
    match c.phase i with
    | .dropping r version (k :: rest) =>
      some ({ c with slot := Function.update c.slot k none }.move i (.dropping r version rest))
    | _ => none
  | .return_ i, c =>
    match c.phase i with
    | .dropping r version [] => some ({ c with
        floor := Function.update c.floor r (max (c.floor r) version) }.move i .idle)
    | _ => none
  | .abandon i, c =>
    match c.phase i with
    | .missed _ _ | .loaded _ _ _ => some (c.move i .idle)
    | _ => none
  | .evict p, c => some { c with slot := fun k => if p k then none else c.slot k }

theorem step_drop {c : Config ι κ ρ} {i : ι} {r : ρ} {version : Nat} {k : κ} {rest : List κ}
    (hi : c.phase i = .dropping r version (k :: rest)) : step row (.drop i) c =
      some ({ c with slot := Function.update c.slot k none }.move i (.dropping r version rest)) := by
  simp only [step, hi]

/-! ## The law and its condition -/

def Use.Fresh (u : Use κ) : Prop := u.since ≤ u.version ∧ u.version ≤ u.current

/-- A slot is filled with a version no older than the changes that have returned, or have dropped
the slot; and a snapshot misses no slot that is filled from the row. -/
def Fresh (row : κ → ρ) (l : Label ι κ ρ) (c : Config ι κ ρ) : Prop :=
  match l with
  | .fill i => ∀ k since version, c.phase i = .loaded k since version →
    c.floor (row k) ≤ version ∧
      ∀ j v rest, c.phase j = .dropping (row k) v rest → k ∉ rest → v ≤ version
  | .snapshot i ks => ∀ r version, c.phase i = .wrote r version →
    ∀ k, row k = r → (c.slot k).isSome = true → k ∈ ks
  | _ => True

def PhaseOk (row : κ → ρ) (c : Config ι κ ρ) : Phase κ ρ → Prop
  | .idle => True
  | .missed k since => since ≤ c.floor (row k)
  | .loaded k since version => since ≤ version ∧ version ≤ c.version (row k)
  | .wrote r version => version ≤ c.version r
  | .dropping r version rest => version ≤ c.version r ∧
    ∀ k w, row k = r → k ∉ rest → c.slot k = some w → version ≤ w

/-- The thread has made `version` of the row `r`, and has not returned. -/
def Phase.Changes (r : ρ) (version : Nat) : Phase κ ρ → Prop
  | .wrote r' v => r' = r ∧ v = version
  | .dropping r' v _ => r' = r ∧ v = version
  | _ => False

/-- The thread has changed the row of `k` and has yet to drop `k`. -/
def Phase.Pending (row : κ → ρ) (k : κ) : Phase κ ρ → Prop
  | .wrote r _ => r = row k
  | .dropping r _ rest => r = row k ∧ k ∈ rest
  | _ => False

structure Inv (row : κ → ρ) (c : Config ι κ ρ) : Prop where
  floor : ∀ r, c.floor r ≤ c.version r
  last : ∀ r, c.floor r = c.version r ∨ ∃ i, (c.phase i).Changes r (c.version r)
  slot : ∀ k w, c.slot k = some w → c.floor (row k) ≤ w ∧ w ≤ c.version (row k)
  phase : ∀ i, PhaseOk row c (c.phase i)
  uses : ∀ u ∈ c.uses, u.Fresh

/-- Nobody is in the middle of a call, and the slots are as the rows. -/
structure Start (row : κ → ρ) (c : Config ι κ ρ) : Prop where
  floor : ∀ r, c.floor r = c.version r
  slot : ∀ k w, c.slot k = some w → w = c.version (row k)
  phase : ∀ i, c.phase i = .idle
  uses : c.uses = []

/-! ## What a run keeps -/

variable {c t : Config ι κ ρ} {i : ι}

omit [DecidableEq ι] [DecidableEq κ] [DecidableEq ρ]

theorem Start.inv (h : Start row c) : Inv row c where
  floor r := Nat.le_of_eq (h.floor r)
  last r := .inl (h.floor r)
  slot k w hw := by
    rw [h.slot k w hw, h.floor]
    exact ⟨Nat.le_refl _, Nat.le_refl _⟩
  phase i := by
    rw [h.phase i]
    trivial
  uses u hu := by
    rw [h.uses] at hu
    cases hu

/-- What is known of a thread stays known while others write, drop and return. -/
theorem PhaseOk.mono {p : Phase κ ρ} (h : PhaseOk row c p)
    (hversion : ∀ r, c.version r ≤ t.version r) (hfloor : ∀ r, c.floor r ≤ t.floor r)
    (hslot : ∀ k w, t.slot k = some w → c.slot k = some w) : PhaseOk row t p := by
  cases p with
  | idle => trivial
  | missed k since => exact Nat.le_trans h (hfloor _)
  | loaded k since version => exact ⟨h.1, Nat.le_trans h.2 (hversion _)⟩
  | wrote r version => exact Nat.le_trans h (hversion _)
  | dropping r version rest =>
    exact ⟨Nat.le_trans h.1 (hversion _), fun k w hr hk hw => h.2 k w hr hk (hslot k w hw)⟩

/-- A slot that is older than its row is still to be dropped by someone. -/
theorem Inv.pending {k : κ} {w : Nat} (h : Inv row c) (hw : c.slot k = some w)
    (hlt : w < c.version (row k)) : ∃ i, (c.phase i).Pending row k := by
  obtain ⟨hfloor, -⟩ := h.slot k w hw
  rcases h.last (row k) with hlast | ⟨i, hi⟩
  · omega
  · refine ⟨i, ?_⟩
    have hphase := h.phase i
    cases hp : c.phase i with
    | idle => rw [hp] at hi; exact hi
    | missed k' since => rw [hp] at hi; exact hi
    | loaded k' since version => rw [hp] at hi; exact hi
    | wrote r version => rw [hp] at hi; exact hi.1
    | dropping r version rest =>
      rw [hp] at hi hphase
      obtain ⟨hr, hversion⟩ := hi
      refine ⟨hr, ?_⟩
      by_cases hk : k ∈ rest
      · exact hk
      · have hle := hphase.2 k w hr.symm hk hw
        omega

section Steps

variable [DecidableEq ι]

/-- Thread `i` moves to `p`, and goes on with the change it is making. -/
theorem Inv.last_update {p : Phase κ ρ} (h : Inv row c)
    (hp : ∀ r version, (c.phase i).Changes r version → p.Changes r version) (r : ρ) :
    c.floor r = c.version r ∨ ∃ j, (Function.update c.phase i p j).Changes r (c.version r) := by
  rcases h.last r with hlast | ⟨j, hj⟩
  · exact .inl hlast
  · refine .inr ⟨j, ?_⟩
    by_cases hji : j = i
    · subst hji
      rw [Function.update_self]
      exact hp r _ hj
    · rwa [Function.update_of_ne hji]

/-- Thread `i` moves to `p`, and no slot is filled. -/
theorem Inv.moves {p : Phase κ ρ} (h : Inv row c) (hphase : t.phase = Function.update c.phase i p)
    (hp : PhaseOk row t p) (hversion : ∀ r, c.version r ≤ t.version r)
    (hfloor : ∀ r, c.floor r ≤ t.floor r) (hbound : ∀ r, t.floor r ≤ t.version r)
    (hlast : ∀ r, t.floor r = t.version r ∨ ∃ j, (t.phase j).Changes r (t.version r))
    (hdrop : ∀ k w, t.slot k = some w → c.slot k = some w)
    (hslot : ∀ k w, t.slot k = some w → t.floor (row k) ≤ w) (huses : t.uses = c.uses) :
    Inv row t where
  floor := hbound
  last := hlast
  slot k w hw := ⟨hslot k w hw, Nat.le_trans (h.slot k w (hdrop k w hw)).2 (hversion _)⟩
  phase j := by
    rw [hphase]
    by_cases hj : j = i
    · subst hj
      rwa [Function.update_self]
    · rw [Function.update_of_ne hj]
      exact (h.phase j).mono hversion hfloor hdrop
  uses u hu := h.uses u (huses ▸ hu)

/-- Only the thread moves. -/
theorem Inv.move {p : Phase κ ρ} (h : Inv row c) (hp : PhaseOk row c p)
    (hlast : ∀ r version, (c.phase i).Changes r version → p.Changes r version) :
    Inv row (c.move i p) :=
  h.moves rfl (hp.mono (fun _ => Nat.le_refl _) (fun _ => Nat.le_refl _) fun _ _ hw => hw)
    (fun _ => Nat.le_refl _) (fun _ => Nat.le_refl _) h.floor (h.last_update hlast)
    (fun _ _ hw => hw) (fun k w hw => (h.slot k w hw).1) rfl

omit [DecidableEq ι] in
theorem Inv.record {k : κ} {since version : Nat} (h : Inv row c)
    (hs : since ≤ version ∧ version ≤ c.version (row k)) :
    Inv row (c.record row k since version) where
  floor := h.floor
  last := h.last
  slot := h.slot
  phase j := (h.phase j).mono (fun _ => Nat.le_refl _) (fun _ => Nat.le_refl _) fun _ _ hw => hw
  uses u hu := by
    rcases List.mem_cons.mp hu with rfl | hu
    · exact hs
    · exact h.uses u hu

omit [DecidableEq ι] in
theorem Inv.evict (p : κ → Bool) (h : Inv row c) :
    Inv row { c with slot := fun k => if p k then none else c.slot k } := by
  have hdrop : ∀ k w, (if p k then none else c.slot k) = some w → c.slot k = some w := by
    intro k w hw
    split at hw
    · cases hw
    · exact hw
  exact ⟨h.floor, h.last, fun k w hw => h.slot k w (hdrop k w hw),
    fun j => (h.phase j).mono (fun _ => Nat.le_refl _) (fun _ => Nat.le_refl _) hdrop, h.uses⟩

omit [DecidableEq ι] in
/-- Filling a slot keeps the law when the version is fresh. -/
theorem Inv.fill [DecidableEq κ] {k : κ} {since version : Nat} (h : Inv row c)
    (hi : c.phase i = .loaded k since version) (hfloor : c.floor (row k) ≤ version)
    (hdropped : ∀ j v rest, c.phase j = .dropping (row k) v rest → k ∉ rest → v ≤ version) :
    Inv row { c with slot := Function.update c.slot k (some version) } := by
  have hload := h.phase i
  rw [hi] at hload
  have hcases : ∀ k' w, Function.update c.slot k (some version) k' = some w →
      k' = k ∧ w = version ∨ c.slot k' = some w := by
    intro k' w hw
    by_cases hk : k' = k
    · subst hk
      rw [Function.update_self] at hw
      exact .inl ⟨rfl, (Option.some.inj hw).symm⟩
    · rw [Function.update_of_ne hk] at hw
      exact .inr hw
  refine ⟨h.floor, h.last, fun k' w hw => ?_, fun j => ?_, h.uses⟩
  · rcases hcases k' w hw with ⟨rfl, rfl⟩ | hw
    · exact ⟨hfloor, hload.2⟩
    · exact h.slot k' w hw
  · have hj := h.phase j
    show PhaseOk row _ (c.phase j)
    cases hp : c.phase j with
    | idle => trivial
    | missed k' since' => rw [hp] at hj; exact hj
    | loaded k' since' version' => rw [hp] at hj; exact hj
    | wrote r v => rw [hp] at hj; exact hj
    | dropping r v rest =>
      rw [hp] at hj
      refine ⟨hj.1, fun k' w hr hk hw => ?_⟩
      rcases hcases k' w hw with ⟨rfl, rfl⟩ | hw
      · subst hr
        exact hdropped j v rest hp hk
      · exact hj.2 k' w hr hk hw

end Steps

/-! ### Each label -/

theorem Inv.next [DecidableEq ι] [DecidableEq κ] [DecidableEq ρ] {l : Label ι κ ρ}
    (h : Inv row c) (ha : Fresh row l c) (hs : step row l c = some t) : Inv row t := by
  cases l with
  | hit i k =>
    simp only [step] at hs
    split at hs
    · rename_i version hi hslot
      cases hs
      exact h.record (h.slot k version hslot)
    · cases hs
  | miss i k =>
    simp only [step] at hs
    split at hs
    · rename_i hi
      cases hs
      exact h.move (Nat.le_refl _) fun _ _ hc => by rw [hi] at hc; exact hc
    · cases hs
  | load i =>
    simp only [step] at hs
    split at hs
    · rename_i k since hi
      cases hs
      have hsince := h.phase i
      rw [hi] at hsince
      exact h.move ⟨Nat.le_trans hsince (h.floor _), Nat.le_refl _⟩ fun _ _ hc => by
        rw [hi] at hc
        exact hc
    · cases hs
  | fill i =>
    simp only [step] at hs
    split at hs
    · rename_i k since version hi
      cases hs
      obtain ⟨hfloor, hdropped⟩ := ha k since version hi
      exact h.fill hi hfloor hdropped
    · cases hs
  | use i =>
    simp only [step] at hs
    split at hs
    · rename_i k since version hi
      cases hs
      have hload := h.phase i
      rw [hi] at hload
      refine (h.move (p := .idle) trivial fun _ _ hc => ?_).record hload
      rw [hi] at hc
      exact hc
    · cases hs
  | write i r =>
    simp only [step] at hs
    split at hs
    · rename_i hi
      cases hs
      have hversion : ∀ r', c.version r' ≤ Function.update c.version r (c.version r + 1) r' := by
        intro r'
        by_cases hr : r' = r
        · subst hr
          rw [Function.update_self]
          omega
        · exact Nat.le_of_eq (Function.update_of_ne hr _ _).symm
      refine h.moves rfl ?_ hversion (fun _ => Nat.le_refl _)
        (fun r' => Nat.le_trans (h.floor r') (hversion r')) (fun r' => ?_) (fun _ _ hw => hw)
        (fun k w hw => (h.slot k w hw).1) rfl
      · show c.version r + 1 ≤ Function.update c.version r (c.version r + 1) r
        exact Nat.le_of_eq (Function.update_self r _ c.version).symm
      · by_cases hr : r' = r
        · subst hr
          refine .inr ⟨i, ?_⟩
          show (Function.update c.phase i _ i).Changes r' (Function.update c.version r' _ r')
          rw [Function.update_self, Function.update_self]
          exact ⟨rfl, rfl⟩
        · show c.floor r' = Function.update c.version r _ r' ∨
            ∃ j, (Function.update c.phase i _ j).Changes r' (Function.update c.version r _ r')
          rw [Function.update_of_ne hr]
          exact h.last_update (fun _ _ hc => by rw [hi] at hc; cases hc) r'
    · cases hs
  | snapshot i ks =>
    simp only [step] at hs
    split at hs
    · rename_i r version hi
      cases hs
      have hwrote := h.phase i
      rw [hi] at hwrote
      refine h.move ⟨hwrote, fun k w hr hk hw => ?_⟩ fun _ _ hc => by rw [hi] at hc; exact hc
      exact absurd (ha r version hi k hr (by rw [hw]; rfl)) hk
    · cases hs
  | drop i =>
    simp only [step] at hs
    split at hs
    · rename_i r version k rest hi
      cases hs
      have hold := h.phase i
      rw [hi] at hold
      have hdrop : ∀ k' w, Function.update c.slot k none k' = some w →
          k' ≠ k ∧ c.slot k' = some w := by
        intro k' w hw
        by_cases hk : k' = k
        · subst hk
          simp at hw
        · rw [Function.update_of_ne hk] at hw
          exact ⟨hk, hw⟩
      refine h.moves rfl ⟨hold.1, fun k' w hr hk hw => ?_⟩ (fun _ => Nat.le_refl _)
        (fun _ => Nat.le_refl _) h.floor
        (h.last_update fun _ _ hc => by rw [hi] at hc; exact hc)
        (fun k' w hw => (hdrop k' w hw).2) (fun k' w hw => (h.slot k' w (hdrop k' w hw).2).1) rfl
      obtain ⟨hne, hw⟩ := hdrop k' w hw
      exact hold.2 k' w hr (by simp [hne, hk]) hw
    · cases hs
  | return_ i =>
    simp only [step] at hs
    split at hs
    · rename_i r version hi
      cases hs
      have hold := h.phase i
      rw [hi] at hold
      have hupdate : ∀ r', Function.update c.floor r (max (c.floor r) version) r' =
          if r' = r then max (c.floor r) version else c.floor r' := by
        intro r'
        by_cases hr : r' = r
        · subst hr
          simp
        · simp [hr]
      refine h.moves (p := .idle) rfl trivial (fun _ => Nat.le_refl _) (fun r' => ?_) (fun r' => ?_)
        (fun r' => ?_) (fun _ _ hw => hw) (fun k w hw => ?_) rfl
      · show c.floor r' ≤ Function.update c.floor r _ r'
        rw [hupdate]
        split
        · rename_i hr
          subst hr
          exact Nat.le_max_left _ _
        · exact Nat.le_refl _
      · show Function.update c.floor r _ r' ≤ c.version r'
        rw [hupdate]
        split
        · rename_i hr
          subst hr
          exact Nat.max_le.mpr ⟨h.floor _, hold.1⟩
        · exact h.floor r'
      · show Function.update c.floor r _ r' = c.version r' ∨
          ∃ j, (Function.update c.phase i _ j).Changes r' (c.version r')
        rw [hupdate]
        rcases h.last r' with hlast | ⟨j, hj⟩
        · refine .inl ?_
          split
          · rename_i hr
            subst hr
            have hle := hold.1
            omega
          · exact hlast
        · by_cases hji : j = i
          · subst hji
            rw [hi] at hj
            obtain ⟨rfl, hversion⟩ := hj
            refine .inl ?_
            have hle := h.floor r
            rw [if_pos rfl]
            omega
          · exact .inr ⟨j, by rwa [Function.update_of_ne hji]⟩
      · show Function.update c.floor r _ (row k) ≤ w
        rw [hupdate]
        split
        · rename_i hr
          subst hr
          exact Nat.max_le.mpr ⟨(h.slot k w hw).1, hold.2 k w rfl (by simp) hw⟩
        · exact (h.slot k w hw).1
    · cases hs
  | abandon i =>
    simp only [step] at hs
    split at hs
    · rename_i hi
      cases hs
      exact h.move trivial fun _ _ hc => by rw [hi] at hc; exact hc
    · rename_i hi
      cases hs
      exact h.move trivial fun _ _ hc => by rw [hi] at hc; exact hc
    · cases hs
  | evict p =>
    cases hs
    exact h.evict p

end System

variable {ι κ ρ : Type} [DecidableEq ι] [DecidableEq κ] [DecidableEq ρ] {row : κ → ρ}
  {c s : Config ι κ ρ}

/-- Dropping slots that nobody has filled. -/
theorem reaches_drops {i : ι} {r : ρ} {version : Nat} {rest : List κ}
    (hi : c.phase i = .dropping r version rest) (hnone : ∀ k ∈ rest, c.slot k = none) :
    Reaches (step row) (Fresh row) c (c.move i (.dropping r version [])) := by
  induction rest generalizing c with
  | nil =>
    rw [← hi, Config.move, Function.update_eq_self]
    exact .start
  | cons k rest ih =>
    have hslot : Function.update c.slot k none = c.slot := by
      rw [← hnone k (by simp), Function.update_eq_self]
    have hstep : step row (.drop i) c = some (c.move i (.dropping r version rest)) := by
      rw [step_drop hi, hslot]
    have hrest := ih (c := c.move i (.dropping r version rest)) (Config.move_phase_self i _ _)
      fun k' hk' => hnone k' (by simp [hk'])
    rw [Config.move_move] at hrest
    exact (Reaches.single (l := .drop i) trivial hstep).trans hrest

theorem Inv.reaches (h : Reaches (step row) (Fresh row) s c) (hs : Inv row s) : Inv row c :=
  h.invariant hs fun _ _ _ hi ha ht => hi.next ha ht

/-- Versions only grow. -/
theorem version_step {t : Config ι κ ρ} {l : Label ι κ ρ} (hs : step row l c = some t) (r : ρ) :
    c.version r ≤ t.version r := by
  cases l with
  | write i r' =>
    simp only [step] at hs
    split at hs
    · cases hs
      show c.version r ≤ Function.update c.version r' (c.version r' + 1) r
      by_cases hr : r = r'
      · rw [hr, Function.update_self]
        exact Nat.le_succ _
      · exact Nat.le_of_eq (Function.update_of_ne hr _ _).symm
    · cases hs
  | evict p =>
    cases hs
    exact Nat.le_refl _
  | hit i k | miss i k | load i | fill i | use i | snapshot i ks | drop i | return_ i =>
    simp only [step] at hs
    split at hs
    · cases hs
      exact Nat.le_refl _
    · cases hs
  | abandon i =>
    simp only [step] at hs
    split at hs
    · cases hs
      exact Nat.le_refl _
    · cases hs
      exact Nat.le_refl _
    · cases hs

theorem version_reaches {A : Label ι κ ρ → Config ι κ ρ → Prop} (h : Reaches (step row) A s c)
    (r : ρ) : s.version r ≤ c.version r := by
  induction h with
  | start => exact Nat.le_refl _
  | next _ _ hs ih => exact Nat.le_trans ih (version_step hs r)

theorem uses_fresh (h : Reaches (step row) (Fresh row) s c) (hs : Start row s) :
    ∀ u ∈ c.uses, u.Fresh :=
  (Inv.reaches h hs.inv).uses

end ReadThrough
