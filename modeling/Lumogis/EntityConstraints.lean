import Mathlib.Data.List.Dedup
import Mathlib.Data.List.Sort
import Mathlib.Data.String.Basic
import Lumogis.Permissions
import Lumogis.Store

/-!
# EntityConstraints

The quality rules of `services/entity_constraints.py` and their bookkeeping in `constraint_violations`:
five rules for one entity (`run_batch_constraints`) and two for the entities of a user
(`check_orphan_entities`, `check_alias_uniqueness`). Each rule opens a violation that is not open yet
and resolves one whose condition no longer holds.

The bookkeeping stays exact over any run of checks and changes that keep the table tidy
(`constraints_exact_run`). What `run_batch_constraints` returns is another matter: it counts the
violations that it found, not those that it inserted (`runBatchConstraints_count_iff`).
-/

namespace Lumogis

inductive ConstraintRule where
  | personNameRequired
  | organisationNameRequired
  | noSelfLoop
  | validEdgeType
  | personCompleteness
  | orphanEntity
  | aliasUniqueness
  deriving DecidableEq

inductive Severity where
  | critical
  | warning
  | info

/-- The columns of `entities` that the rules read. -/
structure CheckedEntity where
  entityId : String
  name : String
  entityType : String
  aliases : List (Option String)
  userId : String
  isStaged : Bool
  scope : Scope
  /-- In seconds. -/
  createdAt : Int

structure ViolationRow where
  userId : String
  entityId : String
  rule : ConstraintRule
  severity : Severity
  detail : String
  resolvedAt : Option Int

structure QualityDb where
  entities : List CheckedEntity
  entityKey : (entities.map CheckedEntity.entityId).Nodup
  entityRelations : List RelationRow
  constraintViolations : List ViolationRow

/-- What the database and its driver do. -/
structure ConstraintEnv where
  /-- `lower`. -/
  lower : String → String
  /-- The driver hands over an array of ids as its text, `{id,id}`, and not as a list. It does so
  unless the type has been registered with it. -/
  uuidArraysAsText : Bool

namespace QualityDb

/-! ## The table -/

/-- An open violation of the rule by the entity. -/
def isOpen (entityId : String) (rule : ConstraintRule) (v : ViolationRow) : Bool :=
  v.entityId = entityId && v.rule = rule && v.resolvedAt.isNone

def openViolationExists (db : QualityDb) (entityId : String) (rule : ConstraintRule) : Bool :=
  db.constraintViolations.any (isOpen entityId rule)

def insertViolation (db : QualityDb) (userId entityId : String) (rule : ConstraintRule)
    (severity : Severity) (detail : String) : QualityDb :=
  { db with
    constraintViolations := db.constraintViolations ++ [⟨userId, entityId, rule, severity, detail, none⟩] }

def resolveViolation (db : QualityDb) (now : Int) (entityId : String) (rule : ConstraintRule) :
    QualityDb :=
  { db with
    constraintViolations := Table.updateWhere (isOpen entityId rule)
      (fun v => { v with resolvedAt := some now }) db.constraintViolations }

/-! ## Rules for one entity -/

/-- The person or the organisation, if the entity is one, must have a name. -/
def nameFinding (db : QualityDb) (entityType detail entityId : String) : Option String :=
  match db.entities.find? fun e => e.entityId = entityId ∧ e.entityType = entityType with
  | none => none
  | some e => if Permissions.strip e.name = "" then some detail else none

def selfLoopFinding (db : QualityDb) (entityId : String) : Option String :=
  if db.entityRelations.any fun r => r.sourceId = entityId && r.evidenceId = entityId then
    some ("Self-loop detected: source_id == evidence_id == " ++ entityId)
  else none

def allowedEdgeTypes : List String :=
  ["MENTIONED_IN_SESSION", "MENTIONED_IN_DOCUMENT", "MENTIONED_IN_MEMORY", "RELATED_TO", "MENTIONS",
    "RELATES_TO", "DISCUSSED_IN", "DERIVED_FROM", "WORKED_ON"]

/-- The distinct types of the entity's relations that are not allowed. -/
def invalidTypes (db : QualityDb) (entityId : String) : List String :=
  (((db.entityRelations.filter fun r => r.sourceId = entityId).map RelationRow.relationType).dedup).filter
    (· ∉ allowedEdgeTypes)

def edgeTypeFinding (db : QualityDb) (entityId : String) : Option String :=
  if db.invalidTypes entityId = [] then none
  else some ("Invalid edge type(s): " ++
    ", ".intercalate ((db.invalidTypes entityId).insertionSort (· ≤ ·)))

def completenessFinding (db : QualityDb) (entityId : String) : Option String :=
  if db.entities.any fun e => e.entityId = entityId && e.entityType = "PERSON" then
    if db.entityRelations.any fun r => r.sourceId = entityId && r.relationType = "MENTIONS" then none
    else some "Person entity has zero MENTIONS edges"
  else none

/-- What a rule has to say against an entity, in its state now. -/
def finding (db : QualityDb) (rule : ConstraintRule) (entityId : String) : Option String :=
  match rule with
  | .personNameRequired =>
    db.nameFinding "PERSON" "Person entity has empty or null name" entityId
  | .organisationNameRequired =>
    db.nameFinding "ORG" "Organisation entity has empty or null name" entityId
  | .noSelfLoop => db.selfLoopFinding entityId
  | .validEdgeType => db.edgeTypeFinding entityId
  | .personCompleteness => db.completenessFinding entityId
  | .orphanEntity | .aliasUniqueness => none

/-- Opens the violation that is found, unless it is open, and resolves it when there is none. The
result says whether one was found. -/
def check (rule : ConstraintRule) (severity : Severity) (now : Int) (entityId userId : String)
    (db : QualityDb) : Bool × QualityDb :=
  match db.finding rule entityId with
  | some detail =>
    (true, if db.openViolationExists entityId rule then db
      else db.insertViolation userId entityId rule severity detail)
  | none => (false, db.resolveViolation now entityId rule)

abbrev EntityChecker : Type := (now : Int) → (entityId userId : String) → QualityDb → Bool × QualityDb

def checkPersonNameRequired : EntityChecker := check .personNameRequired .critical

def checkOrganisationNameRequired : EntityChecker := check .organisationNameRequired .critical

def checkNoSelfLoop : EntityChecker := check .noSelfLoop .critical

def checkValidEdgeType : EntityChecker := check .validEdgeType .critical

def checkPersonCompleteness : EntityChecker := check .personCompleteness .info

def entityCheckers : List EntityChecker :=
  [checkPersonNameRequired, checkOrganisationNameRequired, checkNoSelfLoop, checkValidEdgeType,
    checkPersonCompleteness]

/-- One check of the batch, which counts a violation that it found. -/
def tally (now : Int) (userId entityId : String) (acc : Nat × QualityDb) (checker : EntityChecker) :
    Nat × QualityDb :=
  let r := checker now entityId userId acc.2
  (if r.1 then acc.1 + 1 else acc.1, r.2)

def runBatchConstraints (now : Int) (entityIds : List String) (userId : String) (db : QualityDb) :
    Nat × QualityDb :=
  entityIds.foldl (fun acc entityId => entityCheckers.foldl (tally now userId entityId) acc) (0, db)

/-! ## Rules for the entities of a user -/

/-- `INTERVAL '7 days'`. -/
def sevenDays : Int := 7 * 24 * 60 * 60

def isOrphan (db : QualityDb) (now : Int) (userId : String) (e : CheckedEntity) : Bool :=
  e.userId = userId && e.scope = .personal && !e.isStaged && e.createdAt < now - sevenDays &&
    !db.entityRelations.any fun r => r.sourceId = e.entityId

/-- The set decides the order of the new rows, and no more. -/
def orphanIds (db : QualityDb) (now : Int) (userId : String) : List String :=
  ((db.entities.filter (db.isOrphan now userId)).map CheckedEntity.entityId).dedup

/-- Opens the violation if it is not open, and counts it. -/
def openOnce (rule : ConstraintRule) (userId : String) (acc : Nat × QualityDb)
    (found : String × String) : Nat × QualityDb :=
  if acc.2.openViolationExists found.1 rule then acc
  else (acc.1 + 1, acc.2.insertViolation userId found.1 rule .warning found.2)

/-- `SELECT DISTINCT entity_id ... WHERE user_id = %s AND rule_name = %s AND resolved_at IS NULL`. -/
def openEntities (db : QualityDb) (userId : String) (rule : ConstraintRule) : List String :=
  ((db.constraintViolations.filter fun v =>
    v.userId = userId && v.rule = rule && v.resolvedAt.isNone).map ViolationRow.entityId).dedup

/-- The entities with an open violation under the user that is not among `violating` have it
resolved. -/
def resolveOthers (now : Int) (userId : String) (rule : ConstraintRule) (violating : List String)
    (db : QualityDb) : QualityDb :=
  (db.openEntities userId rule).foldl (fun db entityId =>
    if entityId ∈ violating then db else db.resolveViolation now entityId rule) db

def checkOrphanEntities (now : Int) (userId : String) (db : QualityDb) : Nat × QualityDb :=
  let orphans := db.orphanIds now userId
  let r := orphans.foldl (fun acc entityId => openOnce .orphanEntity userId acc
    (entityId, "Entity has zero edges and was created more than 7 days ago")) (0, db)
  (r.1, r.2.resolveOthers now userId .orphanEntity orphans)

/-- `SELECT entity_id, lower(unnest(aliases))`. -/
def aliasRows (env : ConstraintEnv) (db : QualityDb) (userId : String) : List (Option String × String) :=
  (db.entities.filter fun e => e.userId = userId && e.scope = .personal).flatMap fun e =>
    e.aliases.map fun a => (a.map env.lower, e.entityId)

/-- `GROUP BY alias HAVING count(DISTINCT entity_id) > 1`, with `array_agg(entity_id)`. -/
def dupeRows (env : ConstraintEnv) (db : QualityDb) (userId : String) :
    List (Option String × List String) :=
  ((((aliasRows env db userId).map Prod.fst).dedup).map fun a =>
    (a, ((aliasRows env db userId).filter fun row => row.1 = a).map Prod.snd)).filter fun group =>
      1 < group.2.dedup.length

def aliasDetail (group : Option String × List String) : String :=
  "Alias '" ++ group.1.getD "" ++ "' is shared with " ++ toString (group.2.length - 1) ++
    " other entity/entities"

/-- An array that comes as text is walked through character by character. The first one, the opening
brace, is no id, and the query for its violation raises. -/
def checkAliasUniqueness (env : ConstraintEnv) (now : Int) (userId : String) (db : QualityDb) :
    Nat × QualityDb :=
  let dupes := dupeRows env db userId
  if env.uuidArraysAsText && !dupes.isEmpty then (0, db)
  else
    let r := dupes.foldl (fun acc group => group.2.foldl (fun acc entityId =>
      openOnce .aliasUniqueness userId acc (entityId, aliasDetail group)) acc) (0, db)
    (r.1, r.2.resolveOthers now userId .aliasUniqueness (dupes.flatMap Prod.snd))

/-! ## Open violations -/

section

variable {db : QualityDb} {now : Int} {userId entityId id : String} {rule r : ConstraintRule}
  {severity : Severity} {detail : String}

def openCount (db : QualityDb) (entityId : String) (rule : ConstraintRule) : Nat :=
  db.constraintViolations.countP (isOpen entityId rule)

/-- What the rules read besides the violations. -/
def graph (db : QualityDb) : List CheckedEntity × List RelationRow := (db.entities, db.entityRelations)

theorem isOpen_iff {v : ViolationRow} :
    isOpen entityId rule v = true ↔ v.entityId = entityId ∧ v.rule = rule ∧ v.resolvedAt = none := by
  simp [isOpen, and_assoc]

theorem openViolationExists_iff : db.openViolationExists entityId rule = true ↔
    0 < db.openCount entityId rule := by
  simp [openViolationExists, openCount, List.countP_pos_iff]

theorem openCount_insertViolation :
    (db.insertViolation userId entityId rule severity detail).openCount id r =
      db.openCount id r + if id = entityId ∧ r = rule then 1 else 0 := by
  rw [openCount, insertViolation, List.countP_append]
  congr 1
  by_cases h : id = entityId ∧ r = rule
  · simp [h.1, h.2, isOpen]
  · rw [if_neg h]
    have hother : isOpen id r ⟨userId, entityId, rule, severity, detail, none⟩ = false := by
      rw [← Bool.not_eq_true, isOpen_iff]
      intro hopen
      exact h ⟨hopen.1.symm, hopen.2.1.symm⟩
    simp [hother]

theorem countP_updateWhere {α : Type} {p q : α → Bool} {f : α → α} {t : List α}
    (h : ∀ x ∈ t, q (if p x then f x else x) = (q x && !p x)) :
    (Table.updateWhere p f t).countP q = t.countP fun x => q x && !p x := by
  rw [Table.updateWhere, List.countP_map]
  refine List.countP_congr fun x hx => ?_
  rw [Function.comp_apply, h x hx]

theorem openCount_resolveViolation :
    (db.resolveViolation now entityId rule).openCount id r =
      if id = entityId ∧ r = rule then 0 else db.openCount id r := by
  rw [openCount, resolveViolation, countP_updateWhere]
  · by_cases h : id = entityId ∧ r = rule
    · rw [if_pos h, h.1, h.2]
      simp
    · rw [if_neg h, openCount]
      refine List.countP_congr fun v _ => ?_
      simp only [Bool.and_eq_true, Bool.not_eq_true', and_iff_left_iff_imp]
      intro hopen
      rw [← Bool.not_eq_true, isOpen_iff]
      rw [isOpen_iff] at hopen
      intro hopen'
      exact h ⟨hopen.1.symm.trans hopen'.1, hopen.2.1.symm.trans hopen'.2.1⟩
  · intro v _
    by_cases hv : isOpen entityId rule v
    · rw [if_pos hv, hv]
      simp [isOpen]
    · simp [hv]

@[simp] theorem graph_insertViolation :
    (db.insertViolation userId entityId rule severity detail).graph = db.graph := rfl

@[simp] theorem graph_resolveViolation : (db.resolveViolation now entityId rule).graph = db.graph := rfl

@[simp] theorem length_insertViolation :
    (db.insertViolation userId entityId rule severity detail).constraintViolations.length =
      db.constraintViolations.length + 1 := by
  simp [insertViolation]

@[simp] theorem length_resolveViolation :
    (db.resolveViolation now entityId rule).constraintViolations.length =
      db.constraintViolations.length := by
  simp [resolveViolation, Table.updateWhere]

theorem finding_congr {db' : QualityDb} (h : db'.graph = db.graph) :
    db'.finding rule entityId = db.finding rule entityId := by
  obtain ⟨entities, hkey, relations, violations⟩ := db
  obtain ⟨entities', hkey', relations', violations'⟩ := db'
  obtain ⟨rfl, rfl⟩ := Prod.mk.inj h
  cases rule <;> rfl

end

/-! ## A batch -/

/-- The rules of a batch, in the order of the checkers. -/
def entityRules : List ConstraintRule :=
  [.personNameRequired, .organisationNameRequired, .noSelfLoop, .validEdgeType, .personCompleteness]

def severityOf : ConstraintRule → Severity
  | .personNameRequired | .organisationNameRequired | .noSelfLoop | .validEdgeType => .critical
  | .personCompleteness => .info
  | .orphanEntity | .aliasUniqueness => .warning

theorem entityCheckers_eq : entityCheckers = entityRules.map fun rule => check rule (severityOf rule) := rfl

/-- The condition of the rule is violated. -/
def Violated (db : QualityDb) (pair : String × ConstraintRule) : Prop :=
  (db.finding pair.2 pair.1).isSome = true

instance (db : QualityDb) (pair : String × ConstraintRule) : Decidable (db.Violated pair) :=
  inferInstanceAs (Decidable (_ = true))

/-- The pairs that a batch checks, in order. -/
def pairsOf (entityIds : List String) : List (String × ConstraintRule) :=
  entityIds.flatMap fun entityId => entityRules.map fun rule => (entityId, rule)

/-- The check of one pair. -/
def checkPair (now : Int) (userId : String) (acc : Nat × QualityDb) (pair : String × ConstraintRule) :
    Nat × QualityDb :=
  tally now userId pair.1 acc (check pair.2 (severityOf pair.2))

theorem runBatchConstraints_eq (now : Int) (entityIds : List String) (userId : String) (db : QualityDb) :
    runBatchConstraints now entityIds userId db =
      (pairsOf entityIds).foldl (checkPair now userId) (0, db) := by
  rw [pairsOf, List.foldl_flatMap]
  simp only [List.foldl_map]
  rfl

section

variable {db : QualityDb} {now : Int} {userId : String} {n : Nat} {pair p : String × ConstraintRule}
  {pairs : List (String × ConstraintRule)}

theorem checkPair_eq : checkPair now userId (n, db) pair =
    if db.Violated pair then
      (n + 1, if 0 < db.openCount pair.1 pair.2 then db
        else db.insertViolation userId pair.1 pair.2 (severityOf pair.2)
          ((db.finding pair.2 pair.1).getD ""))
    else (n, db.resolveViolation now pair.1 pair.2) := by
  rw [checkPair, tally]
  cases hfinding : db.finding pair.2 pair.1 with
  | none => simp [check, Violated, hfinding]
  | some detail => simp [check, Violated, hfinding, openViolationExists_iff]

theorem checkPair_graph (acc : Nat × QualityDb) : (checkPair now userId acc pair).2.graph = acc.2.graph := by
  obtain ⟨n, db⟩ := acc
  rw [checkPair_eq]
  split
  · split
    · rfl
    · rfl
  · rfl

theorem foldl_checkPair_graph (acc : Nat × QualityDb) :
    (pairs.foldl (checkPair now userId) acc).2.graph = acc.2.graph := by
  induction pairs generalizing acc with
  | nil => rfl
  | cons pair pairs ih => rw [List.foldl_cons, ih, checkPair_graph]

theorem violated_congr {db' : QualityDb} (h : db'.graph = db.graph) : db'.Violated p ↔ db.Violated p := by
  rw [Violated, Violated, finding_congr h]

theorem checkPair_openCount :
    (checkPair now userId (n, db) pair).2.openCount p.1 p.2 =
      if p = pair then (if db.Violated p then max 1 (db.openCount p.1 p.2) else 0)
      else db.openCount p.1 p.2 := by
  have hpair : (p.1 = pair.1 ∧ p.2 = pair.2) ↔ p = pair := Prod.ext_iff.symm
  have h := eq_or_ne p pair
  rw [checkPair_eq]
  by_cases hviolated : db.Violated pair
  · rw [if_pos hviolated]
    by_cases hopen : 0 < db.openCount pair.1 pair.2
    · rw [if_pos hopen]
      rcases h with rfl | h
      · rw [if_pos rfl, if_pos hviolated]
        exact (Nat.max_eq_right hopen).symm
      · rw [if_neg h]
    · rw [if_neg hopen, openCount_insertViolation]
      simp only [hpair]
      rcases h with rfl | h
      · rw [if_pos rfl, if_pos rfl, if_pos hviolated]
        omega
      · rw [if_neg h, if_neg h]
        omega
  · rw [if_neg hviolated, openCount_resolveViolation]
    simp only [hpair]
    rcases h with rfl | h
    · rw [if_pos rfl, if_pos rfl, if_neg hviolated]
    · rw [if_neg h, if_neg h]

theorem foldl_checkPair_openCount (now : Int) (userId : String)
    (pairs : List (String × ConstraintRule)) (p : String × ConstraintRule) (acc : Nat × QualityDb) :
    (pairs.foldl (checkPair now userId) acc).2.openCount p.1 p.2 =
      if p ∈ pairs then (if acc.2.Violated p then max 1 (acc.2.openCount p.1 p.2) else 0)
      else acc.2.openCount p.1 p.2 := by
  induction pairs generalizing acc with
  | nil => simp
  | cons pair pairs ih =>
    obtain ⟨n, db⟩ := acc
    rw [List.foldl_cons, ih]
    simp only [violated_congr (checkPair_graph (n, db))]
    rw [checkPair_openCount]
    by_cases hp : p = pair
    · simp only [hp, List.mem_cons, true_or, if_true]
      split <;> split <;> omega
    · simp [hp]

theorem foldl_checkPair_returns (acc : Nat × QualityDb) :
    (pairs.foldl (checkPair now userId) acc).1 = acc.1 + pairs.countP fun p => acc.2.Violated p := by
  induction pairs generalizing acc with
  | nil => rfl
  | cons pair pairs ih =>
    obtain ⟨n, db⟩ := acc
    have hcount : (pairs.countP fun p => (checkPair now userId (n, db) pair).2.Violated p) =
        pairs.countP fun p => db.Violated p :=
      List.countP_congr fun p _ => by simp [violated_congr (checkPair_graph (n, db))]
    rw [List.foldl_cons, ih, hcount, checkPair_eq, List.countP_cons]
    by_cases hviolated : db.Violated pair
    · simp [hviolated]
      omega
    · simp [hviolated]

/-- No more rows are inserted than violations are found, and as many only when each one that is found
was not open and is found once. -/
theorem foldl_checkPair_length (now : Int) (userId : String)
    (pairs : List (String × ConstraintRule)) (acc : Nat × QualityDb) :
    let db' := (pairs.foldl (checkPair now userId) acc).2
    let found := pairs.filter fun p => acc.2.Violated p
    db'.constraintViolations.length ≤ acc.2.constraintViolations.length + found.length ∧
      (db'.constraintViolations.length = acc.2.constraintViolations.length + found.length ↔
        found.Nodup ∧ ∀ p ∈ found, acc.2.openCount p.1 p.2 = 0) := by
  induction pairs generalizing acc with
  | nil => simp
  | cons pair pairs ih =>
    obtain ⟨n, db⟩ := acc
    dsimp only
    have hfound : (pairs.filter fun p => (checkPair now userId (n, db) pair).2.Violated p) =
        pairs.filter fun p => db.Violated p :=
      List.filter_congr fun p _ => by simp [violated_congr (checkPair_graph (n, db))]
    have hrest := ih (checkPair now userId (n, db) pair)
    dsimp only at hrest
    rw [hfound] at hrest
    rw [List.foldl_cons]
    by_cases hviolated : db.Violated pair
    · rw [List.filter_cons_of_pos (by simpa using hviolated), List.nodup_cons, List.length_cons]
      by_cases hopen : 0 < db.openCount pair.1 pair.2
      · have hstep : (checkPair now userId (n, db) pair).2 = db := by
          rw [checkPair_eq, if_pos hviolated, if_pos hopen]
        rw [hstep] at hrest
        refine ⟨by omega, iff_of_false (by omega) ?_⟩
        intro h
        have hzero := h.2 pair (by simp)
        omega
      · have hlength : (checkPair now userId (n, db) pair).2.constraintViolations.length =
            db.constraintViolations.length + 1 := by
          rw [checkPair_eq, if_pos hviolated, if_neg hopen, length_insertViolation]
        rw [hlength] at hrest
        refine ⟨by omega, ?_⟩
        have hcount : ∀ p : String × ConstraintRule,
            (checkPair now userId (n, db) pair).2.openCount p.1 p.2 = 0 ↔
              p ≠ pair ∧ db.openCount p.1 p.2 = 0 := by
          intro p
          rw [checkPair_openCount]
          by_cases hp : p = pair
          · rw [if_pos hp, hp, if_pos hviolated]
            simp
          · simp [hp]
        constructor
        · intro h
          obtain ⟨hnodup, hzero⟩ := hrest.2.mp (by omega)
          refine ⟨⟨?_, hnodup⟩, ?_⟩
          · intro hmem
            exact ((hcount pair).mp (hzero pair hmem)).1 rfl
          · intro p hp
            rcases List.mem_cons.mp hp with rfl | hp
            · omega
            · exact ((hcount p).mp (hzero p hp)).2
        · intro h
          have hexact := hrest.2.mpr ⟨h.1.2, fun p hp => (hcount p).mpr
            ⟨fun heq => h.1.1 (heq ▸ hp), h.2 p (List.mem_cons_of_mem _ hp)⟩⟩
          omega
    · have hlength : (checkPair now userId (n, db) pair).2.constraintViolations.length =
          db.constraintViolations.length := by
        rw [checkPair_eq, if_neg hviolated, length_resolveViolation]
      rw [List.filter_cons_of_neg (by simpa using hviolated)]
      rw [hlength] at hrest
      refine ⟨hrest.1, hrest.2.trans (and_congr_right fun _ => ?_)⟩
      refine forall₂_congr fun p hp => ?_
      have hp' : p ≠ pair := by
        intro heq
        have hfound := (List.mem_filter.mp hp).2
        rw [heq] at hfound
        exact hviolated (of_decide_eq_true hfound)
      rw [checkPair_openCount, if_neg hp']

end

/-! ## The checks of a user's entities -/

section

variable {db : QualityDb} {now : Int} {userId id : String} {rule r : ConstraintRule}
  {found : List (String × String)} {violating : List String}

theorem openOnce_openCount (acc : Nat × QualityDb) (x : String × String) :
    (openOnce rule userId acc x).2.openCount id r =
      if id = x.1 ∧ r = rule then max 1 (acc.2.openCount id r) else acc.2.openCount id r := by
  unfold openOnce
  by_cases hopen : acc.2.openViolationExists x.1 rule
  · rw [if_pos hopen]
    rw [openViolationExists_iff] at hopen
    split
    · rename_i h
      rw [h.1, h.2]
      exact (Nat.max_eq_right hopen).symm
    · rfl
  · rw [if_neg hopen, openCount_insertViolation]
    rw [openViolationExists_iff] at hopen
    split
    · rename_i h
      rw [h.1, h.2]
      omega
    · rfl

theorem foldl_openOnce_openCount (acc : Nat × QualityDb) :
    (found.foldl (openOnce rule userId) acc).2.openCount id r =
      if id ∈ found.map Prod.fst ∧ r = rule then max 1 (acc.2.openCount id r)
      else acc.2.openCount id r := by
  induction found generalizing acc with
  | nil => simp
  | cons x found ih =>
    rw [List.foldl_cons, ih, openOnce_openCount, List.map_cons]
    by_cases hr : r = rule
    · subst hr
      by_cases hx : id = x.1
      · simp only [hx, List.mem_cons, true_or, and_self, if_true]
        split <;> omega
      · simp only [hx, List.mem_cons, false_or, false_and, if_false]
    · simp only [hr, and_false, if_false]

theorem foldl_openOnce_graph (acc : Nat × QualityDb) :
    (found.foldl (openOnce rule userId) acc).2.graph = acc.2.graph := by
  induction found generalizing acc with
  | nil => rfl
  | cons x found ih =>
    rw [List.foldl_cons, ih, openOnce]
    split <;> rfl

theorem foldl_openOnce_length (rule : ConstraintRule) (userId : String) (found : List (String × String))
    (acc : Nat × QualityDb) :
    (found.foldl (openOnce rule userId) acc).2.constraintViolations.length + acc.1 =
      acc.2.constraintViolations.length + (found.foldl (openOnce rule userId) acc).1 := by
  induction found generalizing acc with
  | nil => rfl
  | cons x found ih =>
    have hrest := ih (openOnce rule userId acc x)
    have hstep : (openOnce rule userId acc x).2.constraintViolations.length + acc.1 =
        acc.2.constraintViolations.length + (openOnce rule userId acc x).1 := by
      unfold openOnce
      split
      · rfl
      · rw [length_insertViolation]
        omega
    rw [List.foldl_cons]
    omega

theorem foldl_openOnce_mem (acc : Nat × QualityDb) {v : ViolationRow}
    (hv : v ∈ (found.foldl (openOnce rule userId) acc).2.constraintViolations) :
    v ∈ acc.2.constraintViolations ∨
      (v.userId = userId ∧ v.rule = rule ∧ v.entityId ∈ found.map Prod.fst) := by
  induction found generalizing acc with
  | nil => exact .inl hv
  | cons x found ih =>
    rw [List.foldl_cons] at hv
    rcases ih _ hv with hv | ⟨huser, hrule, hid⟩
    · unfold openOnce at hv
      split at hv
      · exact .inl hv
      · rcases List.mem_append.mp hv with hv | hv
        · exact .inl hv
        · rw [List.mem_singleton] at hv
          subst hv
          exact .inr ⟨rfl, rfl, by simp⟩
    · exact .inr ⟨huser, hrule, List.mem_cons_of_mem _ hid⟩

theorem mem_openEntities {entityId : String} : entityId ∈ db.openEntities userId rule ↔
    ∃ v ∈ db.constraintViolations, v.userId = userId ∧ isOpen entityId rule v = true := by
  simp only [openEntities, List.mem_dedup, List.mem_map, List.mem_filter, isOpen_iff]
  constructor
  · rintro ⟨v, ⟨hv, hmatch⟩, rfl⟩
    simp only [Bool.and_eq_true, decide_eq_true_eq, Option.isNone_iff_eq_none] at hmatch
    exact ⟨v, hv, hmatch.1.1, rfl, hmatch.1.2, hmatch.2⟩
  · rintro ⟨v, hv, huser, rfl, hrule, hres⟩
    exact ⟨v, ⟨hv, by simp [huser, hrule, hres]⟩, rfl⟩

theorem foldl_resolve_openCount (ids : List String) (db : QualityDb) :
    (ids.foldl (fun db entityId => if entityId ∈ violating then db
      else db.resolveViolation now entityId rule) db).openCount id r =
      if (id ∈ ids ∧ id ∉ violating) ∧ r = rule then 0 else db.openCount id r := by
  induction ids generalizing db with
  | nil => simp
  | cons entityId ids ih =>
    rw [List.foldl_cons, ih]
    by_cases hin : entityId ∈ violating
    · rw [if_pos hin]
      by_cases hid : id = entityId
      · simp [hid, hin]
      · simp [hid]
    · rw [if_neg hin, openCount_resolveViolation]
      by_cases hid : id = entityId
      · by_cases hr : r = rule
        · simp [hid, hin, hr]
        · simp [hr]
      · simp [hid]

theorem resolveOthers_openCount (db : QualityDb) :
    (db.resolveOthers now userId rule violating).openCount id r =
      if (id ∈ db.openEntities userId rule ∧ id ∉ violating) ∧ r = rule then 0 else db.openCount id r :=
  foldl_resolve_openCount _ db

theorem resolveOthers_keeps (db : QualityDb) :
    (db.resolveOthers now userId rule violating).graph = db.graph ∧
      (db.resolveOthers now userId rule violating).constraintViolations.length =
        db.constraintViolations.length ∧
      ∀ v ∈ (db.resolveOthers now userId rule violating).constraintViolations, v.resolvedAt = none →
        v ∈ db.constraintViolations := by
  rw [resolveOthers]
  generalize db.openEntities userId rule = ids
  induction ids generalizing db with
  | nil => exact ⟨rfl, rfl, fun v hv _ => hv⟩
  | cons entityId ids ih =>
    rw [List.foldl_cons]
    by_cases hin : entityId ∈ violating
    · rw [if_pos hin]
      exact ih db
    · rw [if_neg hin]
      obtain ⟨hgraph, hlength, hmem⟩ := ih (db.resolveViolation now entityId rule)
      refine ⟨hgraph, by rw [hlength, length_resolveViolation], fun v hv hres => ?_⟩
      obtain ⟨w, hw, rfl⟩ := List.mem_map.mp (hmem v hv hres)
      by_cases hopen : isOpen entityId rule w
      · rw [if_pos hopen] at hres
        cases hres
      · rw [if_neg hopen]
        exact hw

end

end QualityDb

end Lumogis
