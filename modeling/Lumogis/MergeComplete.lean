import Lumogis.Lib.Fault
import Lumogis.EntityMerge
import Mathlib.Algebra.Group.Int.Defs

/-!
# MergeComplete

What `merge_entities` promises (`MergeComplete`, `MergeAtomic`) and that it never keeps it: the
sweep compares `file_index.published_from`, an INTEGER, with the text of the loser's UUID, and the
statement's failure undoes the merge (`mergeEntities_fails`).

Before the sweep gets there the session statement may fail too; the results hold whichever way
Postgres takes a UUID for an element of a TEXT[].
-/

namespace Lumogis

open Prog

/-! ## The promise -/

/-- Some row refers to the entity. -/
def Db.references (pg : PgTypes) (db : Db) (id : String) : Prop :=
  (∃ r ∈ db.entities, r.entityId = id ∨ r.publishedFrom = some id) ∨
  (∃ er ∈ db.entityRelations, er.sourceId = id) ∨
  (∃ ed ∈ db.entityEdges, ed.srcEntityId = id ∨ ed.dstEntityId = id) ∨
  (∃ r ∈ db.sessions, id ∈ r.entityIds ∨ r.publishedFrom = some id) ∨
  (∃ r ∈ db.notes ++ db.audioMemos ++ db.signals, r.publishedFrom = some id) ∨
  ∃ r ∈ db.fileIndex, ∃ n, r.publishedFrom = some n ∧ pg.integer id = some n

/-- The user's entity has the relation. -/
def Db.related (db : Db) (userId entityId evidenceId relationType : String) : Prop :=
  ∃ er ∈ db.entityRelations, er.belongsTo userId entityId = true ∧ er.evidenceId = evidenceId ∧
    er.relationType = relationType

/-- The tables after a merge, given those before. -/
structure Merged (pg : PgTypes) (winner loser userId : String) (old new : Db) : Prop where
  unreferenced : ¬ new.references pg loser
  relations : ∀ ev ty, new.related userId winner ev ty ↔
    old.related userId winner ev ty ∨ old.related userId loser ev ty
  sessions : ∀ r ∈ old.sessions, r.lists userId winner = true ∨ r.lists userId loser = true →
    ∃ r' ∈ new.sessions, r'.sessionId = r.sessionId ∧ r'.lists userId winner = true
  mentions : ∀ w ∈ old.entities, w.belongsTo userId winner = true →
    ∀ l ∈ old.entities, l.belongsTo userId loser = true →
      ∃ w' ∈ new.entities, w'.entityId = winner ∧ w'.mentionCount = w.mentionCount + l.mentionCount

/-- The merge succeeds and leaves nothing of the loser behind. -/
def MergeComplete (pg : PgTypes) (env : Env) (winner loser userId : String) (s : Store) : Prop :=
  ∃ r t, (mergeEntities pg env winner loser userId).exec s = some (.ok r, t) ∧
    Merged pg winner loser userId s.db t.db

/-- If a call fails and the merge raises, every table is as before; the calls that fail have no
effect. -/
def MergeAtomic (pg : PgTypes) (env : Env) (winner loser userId : String) (s : Store) : Prop :=
  ∀ fs e t, Fate.late ∉ fs →
    (mergeEntities pg env winner loser userId).execFates fs s = some (.error e, t) →
    t.openTxn.getD t.db = s.openTxn.getD s.db

/-! ## Programs inside the merge's transaction -/

/-- Whatever the program ends in, the transaction that began at the tables `d` is still open. -/
def Stays {α : Type} (d : Db) (p : M α) : Prop :=
  ∀ s, s.openTxn = some d → wp (fun _ t => t.openTxn = some d) p s

/-- The program raises, and the transaction is still open. -/
def Fails {α : Type} (d : Db) (p : M α) : Prop :=
  ∀ s, s.openTxn = some d → wp (fun r t => (∃ e, r = .error e) ∧ t.openTxn = some d) p s

section

variable {α β : Type} {d : Db}

theorem Stays.bind {p : M α} {f : α → M β} (h : Stays d p) (hf : ∀ a, Stays d (f a)) :
    Stays d (p >>= f) := by
  intro s hs
  refine wp_bind.mpr ((h s hs).mono fun r t ht => ?_)
  cases r with
  | ok a => exact hf a t ht
  | error e => exact ht

theorem Fails.first {p : M α} {f : α → M β} (h : Fails d p) : Fails d (p >>= f) := by
  intro s hs
  refine wp_bind.mpr ((h s hs).mono fun r t ht => ?_)
  obtain ⟨⟨e, rfl⟩, ht⟩ := ht
  exact ⟨⟨e, rfl⟩, ht⟩

theorem Stays.thenFails {p : M α} {f : α → M β} (h : Stays d p) (hf : ∀ a, Fails d (f a)) :
    Fails d (p >>= f) := by
  intro s hs
  refine wp_bind.mpr ((h s hs).mono fun r t ht => ?_)
  cases r with
  | ok a => exact hf a t ht
  | error e => exact ⟨⟨e, rfl⟩, ht⟩

theorem stays_select (f : Db → α) : Stays d (select f) := by
  intro s hs
  exact wp_query.mpr hs

theorem stays_statement (f : Db → α × Db) : Stays d (statement f) := by
  intro s hs
  exact wp_act.mpr hs

theorem stays_execute (f : Db → Db) : Stays d (execute f) := stays_statement fun db => ((), f db)

theorem stays_statementE (f : Db → Except PyErr (α × Db)) : Stays d (statementE f) := by
  intro s hs
  refine wp_actE.mpr ?_
  cases f s.db with
  | ok x => exact hs
  | error e => exact hs

theorem stays_requireRow (e : PyErr) (r : Option α) : Stays d (requireRow e r) := by
  intro s hs
  cases r <;> exact hs

end

theorem stays_sweepTable {α : Type} {d : Db} (t : Projecting α String) (rows : Db → List α)
    (put : List α → Db → Db) (loser winner : String) :
    Stays d (sweepTable t rows put loser winner) :=
  (stays_execute _).bind fun _ => stays_statementE _

theorem fails_sweepFileIndex {d : Db} {pg : PgTypes} {loser : String}
    (hloser : pg.integer loser = none) (winner : String) :
    Fails d (sweepFileIndex pg loser winner) := by
  refine Fails.first fun s hs => wp_actE.mpr ?_
  simp only [hloser]
  exact ⟨⟨_, rfl⟩, hs⟩

theorem fails_remapPublishedFrom {d : Db} {pg : PgTypes} {loser : String}
    (hloser : pg.integer loser = none) (winner : String) :
    Fails d (remapPublishedFrom pg loser winner) := by
  refine (stays_sweepTable _ _ _ _ _).thenFails fun _ => ?_
  refine (stays_sweepTable _ _ _ _ _).thenFails fun _ => ?_
  refine (stays_sweepTable _ _ _ _ _).thenFails fun _ => ?_
  exact (fails_sweepFileIndex hloser winner).first

theorem fails_runPhaseA {d : Db} {pg : PgTypes} {loser : String}
    (hloser : pg.integer loser = none) (winner userId : String) :
    Fails d (runPhaseA pg winner loser userId) := by
  have hfetch : ∀ role entityId, Stays d (do
      requireRow (notFoundForUser role entityId userId)
        (← fetchMergeEntity userId entityId) : M EntityRow) :=
    fun _ _ => (stays_select _).bind fun _ => stays_requireRow _ _
  refine (hfetch "winner" winner).thenFails fun w => ?_
  refine (hfetch "loser" loser).thenFails fun l => ?_
  refine (stays_statement _).thenFails fun _ => ?_
  refine (stays_statement _).thenFails fun _ => ?_
  refine (stays_statementE _).thenFails fun _ => ?_
  refine (stays_execute _).thenFails fun _ => ?_
  exact (fails_remapPublishedFrom hloser winner).first

/-! ## The main results -/

/-- Without any fault, a merge whose loser's id is not an INTEGER literal raises, and every table
is as it was. -/
theorem mergeEntities_fails {pg : PgTypes} (env : Env) {loser : String}
    (hloser : pg.integer loser = none) (winner userId : String) (s : Store) :
    ∃ e t, (mergeEntities pg env winner loser userId).exec s = some (.error e, t) ∧
      t.db = s.db := by
  have hwp : wp (fun r t => (∃ e, r = .error e) ∧ t.db = s.db)
      (mergeEntities pg env winner loser userId) s := by
    unfold mergeEntities
    by_cases hne : winner = loser
    · rw [if_pos hne]
      exact ⟨⟨_, rfl⟩, rfl⟩
    · rw [if_neg hne, wp_bind, mergeTransaction, wp_bind, wp_tryCatch, beginTxn, wp_actE]
      cases hopen : s.openTxn with
      | some d => exact ⟨⟨_, rfl⟩, rfl⟩
      | none =>
        have hbody : Fails s.db (do
            let pre ← fetchMergeEntity userId winner
            let a ← runPhaseA pg winner loser userId
            let post ← fetchMergeEntity userId winner
            commitTxn
            pure (a, post.or pre) : M (PhaseA × Option EntityRow)) :=
          (stays_select _).thenFails fun _ => (fails_runPhaseA hloser winner userId).first
        refine wp_tryCatch.mpr ((hbody _ rfl).mono fun r t ht => ?_)
        obtain ⟨⟨e, rfl⟩, ht⟩ := ht
        refine wp_bind.mpr (wp_act.mpr ?_)
        simp only [ht, Option.getD_some]
        exact ⟨⟨_, rfl⟩, rfl⟩
  obtain ⟨r, t, hexec, ⟨e, rfl⟩, ht⟩ := wp_iff.mp hwp
  exact ⟨e, t, hexec, ht⟩

/-! ### The INTEGER reading of a literal -/

def decimal (cs : List Char) : Option Int :=
  if cs ≠ [] ∧ cs.all Char.isDigit then
    some (cs.foldl (fun n c => 10 * n + (c.toNat - '0'.toNat : Nat)) 0)
  else
    none

/-- `int4in`: an optional sign and decimal digits, blanks around them aside, in range. -/
def int4In (s : String) : Option Int :=
  let cs := ((s.toList.dropWhile Char.isWhitespace).reverse.dropWhile Char.isWhitespace).reverse
  let n := match cs with
    | '-' :: ds => (decimal ds).map fun n => -n
    | '+' :: ds => decimal ds
    | ds => decimal ds
  n.filter fun n => decide (-(2 ^ 31) ≤ n) && decide (n < 2 ^ 31)

namespace MergeExample

def pg : PgTypes := { integer := int4In, uuidInTextArray := true }

def winner : String := "5a0c3a52-6b1e-4f0e-9a53-0d0f6b7f3c11"

def loser : String := "9e107d9d-372b-4f5a-8b1c-2d4e6f8a0b1c"

def entity (entityId name : String) : EntityRow :=
  { entityId := entityId, name := name, entityType := "PERSON", aliases := [], contextTags := [],
    mentionCount := 2, userId := "ann", extractionQuality := none, isStaged := false,
    scope := .personal, publishedFrom := none, shareOrigin := none, graphProjectedAt := none }

/-- Two personal entities of one user and nothing else. -/
def start : Store :=
  { Store.empty with
    db := { Db.empty with entities := [entity winner "Ada", entity loser "Ada L."] } }

end MergeExample

/-- No merge keeps its promise, whatever the entities and the tables. -/
theorem mergeEntities_never {pg : PgTypes} (env : Env) {loser : String}
    (hloser : pg.integer loser = none) (winner userId : String) (s : Store) :
    ¬ (MergeComplete pg env winner loser userId s ∧ MergeAtomic pg env winner loser userId s) := by
  rintro ⟨⟨r, t, hexec, -⟩, -⟩
  obtain ⟨e, t', hexec', -⟩ := mergeEntities_fails env hloser winner userId s
  rw [hexec'] at hexec
  cases hexec

open MergeExample in
theorem mergeEntities_never_uuid :
    pg.integer loser = none ∧ ¬ (MergeComplete pg (.plain .disabled) winner loser "ann" start ∧
      MergeAtomic pg (.plain .disabled) winner loser "ann" start) := by
  have hloser : pg.integer loser = none := by decide
  exact ⟨hloser, mergeEntities_never (.plain .disabled) hloser winner "ann" start⟩

open MergeExample in
/-- Two entities, nothing else in the tables, and the merge fails. -/
theorem mergeEntities_refused :
    (mergeEntities pg (.plain .disabled) winner loser "ann").exec start =
        some (.error (phaseAFailed winner loser), start) ∧
      ¬ (MergeComplete pg (.plain .disabled) winner loser "ann" start ∧
        MergeAtomic pg (.plain .disabled) winner loser "ann" start) := by
  have hrun : (mergeEntities pg (.plain .disabled) winner loser "ann").exec start =
      some (.error (phaseAFailed winner loser), start) := by decide
  refine ⟨hrun, ?_⟩
  rintro ⟨⟨r, t, hexec, -⟩, -⟩
  rw [hrun] at hexec
  cases hexec

end Lumogis
