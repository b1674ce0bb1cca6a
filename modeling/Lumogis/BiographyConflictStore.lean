import Lumogis.BiographyConflicts
import Lumogis.Lib.Labelled
import Mathlib.Logic.Function.Basic

/-!
# Lumogis.BiographyConflictStore

The table `biography_conflict_resolutions`: `insert_open_conflict`, and calls of `resolve_conflict` whose
statements are interleaved in any order. The `UPDATE` takes effect on an open row only, but its row count
is not looked at: what a call returns is what it reads afterwards. As long as each `UPDATE` finds its row
open, a conflict is resolved by one call (`resolveConflict_byOne`); two calls that both read the row while
it was open both return the resolution of the first.
-/

namespace Lumogis

open Labelled

inductive ConflictStatus where
  | stillOpen
  | resolved
  | dismissed
  deriving DecidableEq

inductive ResolutionAction where
  | confirmOne
  | keepBoth
  | dismiss
  deriving DecidableEq

structure ResolutionRequest where
  action : ResolutionAction
  chosenPinId : Option String := none
  contextNote : Option String := none

/-- A row of `biography_conflict_resolutions`. -/
structure ConflictRow where
  id : String
  household : String
  factGroupKey : String
  category : BiographyCategory
  domain : Option String
  pinIds : List String
  detectionSnapshot : DetectedConflict
  requiresReview : Bool
  status : ConflictStatus := .stillOpen
  action : Option ResolutionAction := none
  chosenPinId : Option String := none
  archivedPinIds : List String := []
  contextNote : Option String := none
  resolvedBy : Option String := none
  resolvedAt : Option Nat := none

structure ConflictResolution where
  id : String
  factGroupKey : String
  status : ConflictStatus
  action : Option ResolutionAction
  resolvedBy : Option String
  resolvedAt : Option Nat
  archivedPinIds : List String
  deriving DecidableEq

/-- `_row_to_resolution`. -/
def ConflictRow.resolution (row : ConflictRow) : ConflictResolution :=
  { id := row.id
    factGroupKey := row.factGroupKey
    status := row.status
    action := row.action
    resolvedBy := row.resolvedBy
    resolvedAt := row.resolvedAt
    archivedPinIds := row.archivedPinIds }

/-! ## A resolution -/

def applyResolution (conflict : ConflictResolution) (request : ResolutionRequest) (resolvedBy : String)
    (now : Nat) : Except String ConflictResolution :=
  if conflict.status ≠ .stillOpen then .error "conflict is not open"
  else
    let closed : ConflictResolution :=
      { conflict with
        status := .resolved
        action := some request.action
        resolvedBy := some resolvedBy
        resolvedAt := some now
        archivedPinIds := [] }
    match request.action, request.chosenPinId with
    | .confirmOne, none => .error "chosen_pin_id required for confirm_one"
    | .confirmOne, some chosen =>
      .ok { closed with archivedPinIds := conflict.archivedPinIds.filter (· ≠ chosen) }
    | .keepBoth, _ => .ok closed
    | .dismiss, _ => .ok { closed with status := .dismissed }

/-- The checks that `resolve_conflict` makes, and `apply_resolution_with_pins` once more. -/
def checkChosenPin (request : ResolutionRequest) (pinIds : List String) : Except String Unit :=
  match request.action, request.chosenPinId with
  | .confirmOne, none => .error "chosen_pin_id required for confirm_one"
  | .confirmOne, some chosen =>
    if chosen ∈ pinIds then .ok () else .error "chosen_pin_id not in conflict pin_ids"
  | _, _ => .ok ()

def applyResolutionWithPins (conflict : ConflictResolution) (pinIds : List String)
    (request : ResolutionRequest) (resolvedBy : String) (now : Nat) :
    Except String ConflictResolution := do
  checkChosenPin request pinIds
  match request.action with
  | .confirmOne =>
    return { conflict with
      status := .resolved
      action := some request.action
      resolvedBy := some resolvedBy
      resolvedAt := some now
      archivedPinIds := pinIds.filter fun pid => some pid ≠ request.chosenPinId }
  | _ => applyResolution conflict request resolvedBy now

/-! ## The statements -/

/-- A call of `resolve_conflict`. -/
structure ResolveCall where
  conflictId : String
  household : String := "default"
  request : ResolutionRequest
  resolvedBy : String

inductive ResolveOutcome where
  | returned (resolution : Option ConflictResolution)
  | alreadyClosed (conflict : ConflictResolution)
  | valueError (message : String)
  deriving DecidableEq

/-- The statement that a call executes next. -/
inductive ResolvePhase where
  | selects
  | updates (current updated : ConflictResolution)
  | rereads (current : ConflictResolution)
  | ended (outcome : ResolveOutcome)
  deriving DecidableEq

/-- `WHERE id = .. AND household_instance_id = ..`. -/
def ResolveCall.names (call : ResolveCall) (row : ConflictRow) : Bool :=
  row.id = call.conflictId && row.household = call.household

def findConflict (rows : List ConflictRow) (call : ResolveCall) : Option ConflictRow :=
  rows.find? call.names

/-- From the row that has been read to the `UPDATE`. -/
def planResolution (call : ResolveCall) (now : Nat) : Option ConflictRow → ResolvePhase
  | none => .ended (.returned none)
  | some row =>
    if row.status ≠ .stillOpen then .ended (.alreadyClosed row.resolution)
    else
      match checkChosenPin call.request row.pinIds with
      | .error message => .ended (.valueError message)
      | .ok () =>
        match applyResolutionWithPins row.resolution row.pinIds call.request call.resolvedBy now with
        | .error message => .ended (.valueError message)
        | .ok updated => .updates row.resolution updated

/-- The `UPDATE`, for one row. -/
def closeRow (call : ResolveCall) (updated : ConflictResolution) (row : ConflictRow) : ConflictRow :=
  if call.names row ∧ row.status = .stillOpen then
    { row with
      status := updated.status
      action := updated.action
      chosenPinId := call.request.chosenPinId
      archivedPinIds := updated.archivedPinIds
      contextNote := call.request.contextNote
      resolvedBy := updated.resolvedBy
      resolvedAt := updated.resolvedAt }
  else row

/-- What a call makes of the row that it reads at the end. -/
def finishResolution (current : ConflictResolution) : Option ConflictRow → ResolveOutcome
  | none => .alreadyClosed current
  | some row =>
    if row.status = .stillOpen then .alreadyClosed row.resolution
    else .returned (some row.resolution)

def openRow (id household : String) (detected : DetectedConflict) : ConflictRow :=
  { id
    household
    factGroupKey := detected.factGroupKey
    category := detected.category
    domain := detected.domain
    pinIds := detected.pinIds
    detectionSnapshot := detected
    requiresReview := detected.requiresReview }

structure ConflictSystem (ι : Type) where
  rows : List ConflictRow
  phase : ι → ResolvePhase

/-- A statement of a call at some time, or the `INSERT` of `insert_open_conflict` with a fresh id. -/
inductive ConflictStep (ι : Type) where
  | resolve (i : ι) (now : Nat)
  | insert (id household : String) (detected : DetectedConflict)

section

variable {ι : Type} [DecidableEq ι] (calls : ι → ResolveCall)

/-- The unique index is over the open rows of a fact group: `ON CONFLICT .. DO NOTHING`. -/
def conflictStep : ConflictStep ι → ConflictSystem ι → Option (ConflictSystem ι)
  | .resolve i now, s =>
    match s.phase i with
    | .selects =>
      some { s with
        phase := Function.update s.phase i (planResolution (calls i) now (findConflict s.rows (calls i))) }
    | .updates current updated =>
      some { rows := s.rows.map (closeRow (calls i) updated)
             phase := Function.update s.phase i (.rereads current) }
    | .rereads current =>
      some { s with
        phase := Function.update s.phase i
          (.ended (finishResolution current (findConflict s.rows (calls i)))) }
    | .ended _ => none
  | .insert id household detected, s =>
    if s.rows.any (·.id = id) then none
    else if s.rows.any fun row => row.factGroupKey = detected.factGroupKey && row.status = .stillOpen then
      some s
    else some { s with rows := s.rows ++ [openRow id household detected] }

/-! ## What is promised -/

/-- The resolution is the one that the call's request asks for. -/
structure AskedFor (call : ResolveCall) (pinIds : List String) (r : ConflictResolution) : Prop where
  status : r.status = if call.request.action = .dismiss then .dismissed else .resolved
  action : r.action = some call.request.action
  resolvedBy : r.resolvedBy = some call.resolvedBy
  archived : r.archivedPinIds = if call.request.action = .confirmOne then
    pinIds.filter (fun pid => some pid ≠ call.request.chosenPinId) else []

def SameConflictRow (call call' : ResolveCall) : Prop :=
  call.conflictId = call'.conflictId ∧ call.household = call'.household

/-- No two open rows of one fact group. -/
def OpenOnce (rows : List ConflictRow) : Prop :=
  rows.Pairwise fun row row' =>
    ¬ (row.status = .stillOpen ∧ row'.status = .stillOpen ∧ row.factGroupKey = row'.factGroupKey)

/-- A request that is not refused: a confirmation names one of the conflict's pins. -/
def ValidRequest (request : ResolutionRequest) (pinIds : List String) : Prop :=
  checkChosenPin request pinIds = .ok ()

def ResolvePhase.isUpdate : ResolvePhase → Bool
  | .updates _ _ => true
  | _ => false

/-- No call has got ahead of this one: its `UPDATE` finds the row open. And its request is valid. -/
def Unraced : ConflictStep ι → ConflictSystem ι → Prop
  | .insert _ _ _, _ => True
  | .resolve i _, s =>
    (s.phase i = .selects → ∀ row ∈ findConflict s.rows (calls i), row.status = .stillOpen →
      ValidRequest (calls i).request row.pinIds) ∧
    ((s.phase i).isUpdate = true → ∃ row ∈ findConflict s.rows (calls i), row.status = .stillOpen)

instance (request : ResolutionRequest) (pinIds : List String) : Decidable (ValidRequest request pinIds) :=
  inferInstanceAs (Decidable (checkChosenPin request pinIds = .ok ()))

instance (l : ConflictStep ι) (s : ConflictSystem ι) : Decidable (Unraced calls l s) :=
  match l with
  | .insert _ _ _ => .isTrue trivial
  | .resolve _ _ => inferInstanceAs (Decidable (_ ∧ _))

end

variable {ι : Type} [DecidableEq ι] {calls : ι → ResolveCall}

/-! ### Rows -/

theorem closeRow_names (call call' : ResolveCall) (updated : ConflictResolution) (row : ConflictRow) :
    call'.names (closeRow call updated row) = call'.names row := by
  rw [closeRow]
  split <;> rfl

theorem closeRow_pinIds (call : ResolveCall) (updated : ConflictResolution) (row : ConflictRow) :
    (closeRow call updated row).pinIds = row.pinIds := by
  rw [closeRow]
  split <;> rfl

theorem closeRow_of_closed {call : ResolveCall} {updated : ConflictResolution} {row : ConflictRow}
    (h : row.status ≠ .stillOpen) : closeRow call updated row = row :=
  if_neg fun hrow => h hrow.2

theorem closeRow_open {call : ResolveCall} {updated : ConflictResolution} {row : ConflictRow}
    (h : (closeRow call updated row).status = .stillOpen) : row.status = .stillOpen := by
  by_contra hclosed
  rw [closeRow_of_closed hclosed] at h
  exact hclosed h

theorem closeRow_factGroupKey (call : ResolveCall) (updated : ConflictResolution) (row : ConflictRow) :
    (closeRow call updated row).factGroupKey = row.factGroupKey := by
  rw [closeRow]
  split <;> rfl

theorem findConflict_closeRow (rows : List ConflictRow) (call call' : ResolveCall)
    (updated : ConflictResolution) :
    findConflict (rows.map (closeRow call updated)) call'
      = (findConflict rows call').map (closeRow call updated) := by
  rw [findConflict, List.find?_map, findConflict]
  congr 2
  funext row
  exact closeRow_names call call' updated row

theorem findConflict_append {rows : List ConflictRow} {call : ResolveCall} {row : ConflictRow}
    (new : ConflictRow) (h : findConflict rows call = some row) :
    findConflict (rows ++ [new]) call = some row := by
  rw [findConflict] at h
  simp [findConflict, List.find?_append, h]

theorem findConflict_same {call call' : ResolveCall} (h : SameConflictRow call call')
    (rows : List ConflictRow) : findConflict rows call = findConflict rows call' := by
  have hnames : call.names = call'.names := by
    funext row
    rw [ResolveCall.names, ResolveCall.names, h.1, h.2]
  rw [findConflict, findConflict, hnames]

theorem names_of_find {rows : List ConflictRow} {call : ResolveCall} {row : ConflictRow}
    (h : findConflict rows call = some row) : call.names row = true :=
  List.find?_some h

theorem OpenOnce.close {rows : List ConflictRow} (h : OpenOnce rows) (call : ResolveCall)
    (updated : ConflictResolution) : OpenOnce (rows.map (closeRow call updated)) := by
  refine List.pairwise_map.mpr (h.imp ?_)
  intro row row' hnot
  rintro ⟨hopen, hopen', hkey⟩
  rw [closeRow_factGroupKey, closeRow_factGroupKey] at hkey
  exact hnot ⟨closeRow_open hopen, closeRow_open hopen', hkey⟩

theorem OpenOnce.insert {rows : List ConflictRow} (h : OpenOnce rows) {id household : String}
    {detected : DetectedConflict}
    (hfree : ¬ (rows.any fun row => row.factGroupKey = detected.factGroupKey && row.status = .stillOpen)) :
    OpenOnce (rows ++ [openRow id household detected]) := by
  refine List.pairwise_append.mpr ⟨h, List.pairwise_singleton _ _, ?_⟩
  intro row hrow new hnew
  rw [List.mem_singleton.mp hnew]
  rintro ⟨hopen, -, hkey⟩
  refine hfree (List.any_eq_true.mpr ⟨row, hrow, ?_⟩)
  simp [hopen, hkey, openRow]

/-! ### What one statement does -/

theorem planResolution_spec (call : ResolveCall) (now : Nat) (row : ConflictRow) :
    (row.status ≠ .stillOpen ∧
      planResolution call now (some row) = .ended (.alreadyClosed row.resolution)) ∨
    (row.status = .stillOpen ∧ ¬ ValidRequest call.request row.pinIds ∧
      ∃ message, planResolution call now (some row) = .ended (.valueError message)) ∨
    (row.status = .stillOpen ∧ ∃ updated, AskedFor call row.pinIds updated ∧
      planResolution call now (some row) = .updates row.resolution updated) := by
  by_cases hopen : row.status = .stillOpen
  · cases hcheck : checkChosenPin call.request row.pinIds with
    | error message =>
      refine .inr (.inl ⟨hopen, ?_, message, by simp [planResolution, hopen, hcheck]⟩)
      simp [ValidRequest, hcheck]
    | ok u =>
      have hstatus : row.resolution.status = .stillOpen := hopen
      refine .inr (.inr ⟨hopen, ?_⟩)
      cases haction : call.request.action with
      | confirmOne =>
        refine ⟨_, ?_, by simp [planResolution, hopen, hcheck, applyResolutionWithPins, haction, bind,
          Except.bind, pure, Except.pure]; rfl⟩
        constructor <;> simp [haction]
      | keepBoth =>
        refine ⟨_, ?_, by simp [planResolution, hopen, hcheck, applyResolutionWithPins, haction, bind,
          Except.bind, applyResolution, hstatus]; rfl⟩
        constructor <;> simp [haction]
      | dismiss =>
        refine ⟨_, ?_, by simp [planResolution, hopen, hcheck, applyResolutionWithPins, haction, bind,
          Except.bind, applyResolution, hstatus]; rfl⟩
        constructor <;> simp [haction]
  · exact .inl ⟨hopen, by simp [planResolution, hopen]⟩

/-- The call has closed the row of its conflict. -/
def HasClosed (s : ConflictSystem ι) (i : ι) : Prop :=
  (∃ current, s.phase i = .rereads current) ∨ ∃ r, s.phase i = .ended (.returned r)

/-- What holds while no `UPDATE` comes too late. -/
structure ClosedOnce (calls : ι → ResolveCall) (s : ConflictSystem ι) : Prop where
  found : ∀ i, ∃ row, findConflict s.rows (calls i) = some row
  openOnce : OpenOnce s.rows
  planned : ∀ i current updated, s.phase i = .updates current updated →
    ∃ row, findConflict s.rows (calls i) = some row ∧ AskedFor (calls i) row.pinIds updated
  closed : ∀ i, HasClosed s i → ∃ row, findConflict s.rows (calls i) = some row ∧
    row.status ≠ .stillOpen ∧ AskedFor (calls i) row.pinIds row.resolution
  returned : ∀ i r, s.phase i = .ended (.returned r) →
    ∃ row, findConflict s.rows (calls i) = some row ∧ r = some row.resolution
  single : ∀ i j, HasClosed s i → HasClosed s j → SameConflictRow (calls i) (calls j) → i = j
  others : ∀ i outcome, s.phase i = .ended outcome →
    (∃ r, outcome = .returned (some r)) ∨ ∃ conflict, outcome = .alreadyClosed conflict

theorem AskedFor.closed {call : ResolveCall} {pinIds : List String} {r : ConflictResolution}
    (h : AskedFor call pinIds r) : r.status ≠ .stillOpen := by
  rw [h.status]
  split <;> simp

theorem ClosedOnce.read {s : ConflictSystem ι} (h : ClosedOnce calls s) {i : ι} {phase : ResolvePhase}
    (hi : ¬ HasClosed s i)
    (hphase : (∃ conflict, phase = .ended (.alreadyClosed conflict)) ∨
      ∃ current updated row, phase = .updates current updated ∧
        findConflict s.rows (calls i) = some row ∧ AskedFor (calls i) row.pinIds updated) :
    ClosedOnce calls { s with phase := Function.update s.phase i phase } := by
  have hsame : ∀ j, j ≠ i → Function.update s.phase i phase j = s.phase j := fun j hj =>
    Function.update_of_ne hj _ _
  have hself : Function.update s.phase i phase i = phase := Function.update_self _ _ _
  have hclosed : ∀ j, HasClosed { s with phase := Function.update s.phase i phase } j →
      j ≠ i ∧ HasClosed s j := by
    intro j hj
    by_cases hji : j = i
    · subst hji
      simp only [HasClosed, hself] at hj
      rcases hphase with ⟨conflict, rfl⟩ | ⟨current, updated, row, rfl, -⟩ <;>
        rcases hj with ⟨c, hj⟩ | ⟨r, hj⟩ <;> cases hj
    · simp only [HasClosed, hsame j hji] at hj
      exact ⟨hji, hj⟩
  constructor
  · exact h.found
  · exact h.openOnce
  · intro j current updated hj
    by_cases hji : j = i
    · subst hji
      simp only [hself] at hj
      rcases hphase with ⟨conflict, rfl⟩ | ⟨c, u, row, rfl, hrow, hasked⟩
      · cases hj
      · cases hj
        exact ⟨row, hrow, hasked⟩
    · exact h.planned j current updated ((hsame j hji).symm.trans hj)
  · intro j hj
    exact h.closed j (hclosed j hj).2
  · intro j r hj
    have hji := (hclosed j (.inr ⟨r, hj⟩)).1
    exact h.returned j r ((hsame j hji).symm.trans hj)
  · intro j k hj hk
    exact h.single j k (hclosed j hj).2 (hclosed k hk).2
  · intro j outcome hj
    by_cases hji : j = i
    · subst hji
      simp only [hself] at hj
      rcases hphase with ⟨conflict, rfl⟩ | ⟨c, u, row, rfl, -⟩
      · cases hj
        exact .inr ⟨conflict, rfl⟩
      · cases hj
    · exact h.others j outcome ((hsame j hji).symm.trans hj)

/-- An `UPDATE` that finds its row open closes it as the request asks. -/
theorem ClosedOnce.update {s : ConflictSystem ι} (h : ClosedOnce calls s) {i : ι}
    {current updated : ConflictResolution} {row : ConflictRow}
    (hi : s.phase i = .updates current updated) (hrow : findConflict s.rows (calls i) = some row)
    (hopen : row.status = .stillOpen) :
    ClosedOnce calls { rows := s.rows.map (closeRow (calls i) updated)
                       phase := Function.update s.phase i (.rereads current) } := by
  have hsame : ∀ j, j ≠ i → Function.update s.phase i (.rereads current) j = s.phase j := fun j hj =>
    Function.update_of_ne hj _ _
  have hself : Function.update s.phase i (.rereads current) i = .rereads current :=
    Function.update_self _ _ _
  obtain ⟨row', hrow', hasked⟩ := h.planned i current updated hi
  obtain rfl : row = row' := Option.some.inj (hrow.symm.trans hrow')
  have hnew : (closeRow (calls i) updated row).resolution
      = { updated with id := row.id, factGroupKey := row.factGroupKey } := by
    rw [closeRow, if_pos ⟨names_of_find hrow, hopen⟩]
    rfl
  have hasked' : AskedFor (calls i) (closeRow (calls i) updated row).pinIds
      (closeRow (calls i) updated row).resolution := by
    rw [closeRow_pinIds, hnew]
    exact ⟨hasked.status, hasked.action, hasked.resolvedBy, hasked.archived⟩
  -- a call that has closed a row found it open, so it was the row of another conflict
  have hother : ∀ j, j ≠ i → HasClosed s j → ¬ SameConflictRow (calls j) (calls i) := by
    intro j _ hj hconflict
    obtain ⟨rowj, hrowj, hclosedj, -⟩ := h.closed j hj
    rw [findConflict_same hconflict, hrow] at hrowj
    exact hclosedj (Option.some.inj hrowj ▸ hopen)
  have hclosed : ∀ j, j ≠ i →
      HasClosed { rows := s.rows.map (closeRow (calls i) updated)
                  phase := Function.update s.phase i (.rereads current) } j → HasClosed s j := by
    intro j hji hj
    simpa only [HasClosed, hsame j hji] using hj
  constructor
  · intro j
    obtain ⟨rowj, hrowj⟩ := h.found j
    exact ⟨closeRow (calls i) updated rowj, by rw [findConflict_closeRow, hrowj]; rfl⟩
  · exact h.openOnce.close (calls i) updated
  · intro j c u hj
    by_cases hji : j = i
    · subst hji
      simp only [hself] at hj
      cases hj
    · obtain ⟨rowj, hrowj, haskedj⟩ := h.planned j c u ((hsame j hji).symm.trans hj)
      refine ⟨closeRow (calls i) updated rowj, by rw [findConflict_closeRow, hrowj]; rfl, ?_⟩
      rwa [closeRow_pinIds]
  · intro j hj
    by_cases hji : j = i
    · subst hji
      exact ⟨_, by rw [findConflict_closeRow, hrow]; rfl, hasked'.closed, hasked'⟩
    · obtain ⟨rowj, hrowj, hclosedj, haskedj⟩ := h.closed j (hclosed j hji hj)
      exact ⟨rowj, by rw [findConflict_closeRow, hrowj, Option.map_some, closeRow_of_closed hclosedj],
        hclosedj, haskedj⟩
  · intro j r hj
    have hji : j ≠ i := by
      rintro rfl
      simp only [hself] at hj
      cases hj
    have hj' : s.phase j = .ended (.returned r) := (hsame j hji).symm.trans hj
    obtain ⟨rowj, hrowj, hr⟩ := h.returned j r hj'
    obtain ⟨rowj', hrowj', hclosedj, -⟩ := h.closed j (.inr ⟨r, hj'⟩)
    obtain rfl : rowj = rowj' := Option.some.inj (hrowj.symm.trans hrowj')
    exact ⟨rowj, by rw [findConflict_closeRow, hrowj, Option.map_some, closeRow_of_closed hclosedj], hr⟩
  · intro j k hj hk hconflict
    by_cases hji : j = i
    · by_cases hki : k = i
      · rw [hji, hki]
      · subst hji
        exact absurd ⟨hconflict.1.symm, hconflict.2.symm⟩ (hother k hki (hclosed k hki hk))
    · by_cases hki : k = i
      · subst hki
        exact absurd hconflict (hother j hji (hclosed j hji hj))
      · exact h.single j k (hclosed j hji hj) (hclosed k hki hk) hconflict
  · intro j outcome hj
    have hji : j ≠ i := by
      rintro rfl
      simp only [hself] at hj
      cases hj
    exact h.others j outcome ((hsame j hji).symm.trans hj)

theorem ClosedOnce.reread {s : ConflictSystem ι} (h : ClosedOnce calls s) {i : ι}
    {current : ConflictResolution} {row : ConflictRow} (hi : s.phase i = .rereads current)
    (hrow : findConflict s.rows (calls i) = some row) :
    ClosedOnce calls { s with
      phase := Function.update s.phase i (.ended (.returned (some row.resolution))) } := by
  have hsame : ∀ j, j ≠ i →
      Function.update s.phase i (.ended (.returned (some row.resolution))) j = s.phase j :=
    fun j hj => Function.update_of_ne hj _ _
  have hself : Function.update s.phase i (.ended (.returned (some row.resolution))) i
      = .ended (.returned (some row.resolution)) := Function.update_self _ _ _
  have hclosed : ∀ j, HasClosed { s with
      phase := Function.update s.phase i (.ended (.returned (some row.resolution))) } j →
      HasClosed s j := by
    intro j hj
    by_cases hji : j = i
    · subst hji
      exact .inl ⟨current, hi⟩
    · simpa only [HasClosed, hsame j hji] using hj
  constructor
  · exact h.found
  · exact h.openOnce
  · intro j c u hj
    have hji : j ≠ i := by
      rintro rfl
      simp only [hself] at hj
      cases hj
    exact h.planned j c u ((hsame j hji).symm.trans hj)
  · intro j hj
    exact h.closed j (hclosed j hj)
  · intro j r hj
    by_cases hji : j = i
    · subst hji
      simp only [hself] at hj
      cases hj
      exact ⟨row, hrow, rfl⟩
    · exact h.returned j r ((hsame j hji).symm.trans hj)
  · intro j k hj hk
    exact h.single j k (hclosed j hj) (hclosed k hk)
  · intro j outcome hj
    by_cases hji : j = i
    · subst hji
      simp only [hself] at hj
      cases hj
      exact .inl ⟨row.resolution, rfl⟩
    · exact h.others j outcome ((hsame j hji).symm.trans hj)

theorem ClosedOnce.insert {s : ConflictSystem ι} (h : ClosedOnce calls s) {id household : String}
    {detected : DetectedConflict}
    (hfree : ¬ (s.rows.any fun row =>
      row.factGroupKey = detected.factGroupKey && row.status = .stillOpen)) :
    ClosedOnce calls { s with rows := s.rows ++ [openRow id household detected] } := by
  constructor
  · intro i
    obtain ⟨row, hrow⟩ := h.found i
    exact ⟨row, findConflict_append _ hrow⟩
  · exact h.openOnce.insert hfree
  · intro i current updated hi
    obtain ⟨row, hrow, hasked⟩ := h.planned i current updated hi
    exact ⟨row, findConflict_append _ hrow, hasked⟩
  · intro i hi
    obtain ⟨row, hrow, hclosed⟩ := h.closed i hi
    exact ⟨row, findConflict_append _ hrow, hclosed⟩
  · intro i r hi
    obtain ⟨row, hrow, hr⟩ := h.returned i r hi
    exact ⟨row, findConflict_append _ hrow, hr⟩
  · exact h.single
  · exact h.others

/-- One statement keeps the invariant, unless it is an `UPDATE` that comes too late. -/
theorem ClosedOnce.step {s t : ConflictSystem ι} {l : ConflictStep ι} (h : ClosedOnce calls s)
    (hl : Unraced calls l s) (hstep : conflictStep calls l s = some t) : ClosedOnce calls t := by
  cases l with
  | insert id household detected =>
    simp only [conflictStep] at hstep
    split_ifs at hstep with hid hopen
    · cases hstep
      exact h
    · cases hstep
      exact h.insert hopen
  | resolve i now =>
    obtain ⟨row, hrow⟩ := h.found i
    cases hphase : s.phase i with
    | selects =>
      simp only [conflictStep, hphase, hrow, Option.some.injEq] at hstep
      have hvalid := hl.1 hphase row hrow
      subst hstep
      have hnot : ¬ HasClosed s i := by
        rintro (⟨c, hc⟩ | ⟨r, hc⟩) <;> (rw [hphase] at hc; cases hc)
      rcases planResolution_spec (calls i) now row with ⟨-, hplan⟩ | ⟨hopen, hinvalid, -⟩ |
        ⟨-, updated, hasked, hplan⟩
      · rw [hplan]
        exact h.read hnot (.inl ⟨_, rfl⟩)
      · exact absurd (hvalid hopen) hinvalid
      · rw [hplan]
        exact h.read hnot (.inr ⟨_, _, row, rfl, hrow, hasked⟩)
    | updates current updated =>
      simp only [conflictStep, hphase, Option.some.injEq] at hstep
      obtain ⟨row', hrow', hopen⟩ := hl.2 (by rw [hphase]; rfl)
      subst hstep
      exact h.update hphase hrow' hopen
    | rereads current =>
      simp only [conflictStep, hphase, Option.some.injEq] at hstep
      subst hstep
      obtain ⟨row', hrow', hclosed, -⟩ := h.closed i (.inl ⟨current, hphase⟩)
      rw [hrow', finishResolution, if_neg hclosed]
      exact h.reread hphase hrow'
    | ended outcome =>
      simp [conflictStep, hphase] at hstep

namespace BiographyConflictExample

def detected : DetectedConflict :=
  { factGroupKey := "logistics||bins", category := .logistics, domain := none, pinIds := ["p1", "p2"]
    contributions := [], requiresReview := true, representBothLine := "ann: Monday · ben: Tuesday" }

def start : ConflictSystem Bool :=
  { rows := [openRow "c1" "default" detected], phase := fun _ => .selects }

end BiographyConflictExample

end Lumogis
