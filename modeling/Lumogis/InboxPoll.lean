import Lumogis.Lib.Prog
import Lumogis.Lib.Labelled
import Mathlib.Data.Fintype.Basic
import Mathlib.Tactic.SplitIfs

/-!
# InboxPoll

A file of the inbox under ticks of the poll: the fast path that leaves unchanged files alone, and the ingest of
the others. The writers of the file are outside; each write sets the mtime to the time of the write.

The fast path compares the mtime with `updated_at` of the index row, the ingest the content with `file_hash`.
The calls of an ingest to the vector store and the embedder change neither, and are left out.
-/

namespace Lumogis

open Prog Labelled

/-- Times in microseconds. -/
structure InboxFile (C : Type) where
  content : C
  mtime : Nat
  deriving DecidableEq

/-- The personal row of the path in `file_index`. -/
structure InboxRow where
  fileHash : String
  chunkCount : Nat
  updatedAt : Nat
  deriving DecidableEq

structure InboxStore (C : Type) where
  file : Option (InboxFile C)
  row : Option InboxRow
  now : Nat

inductive InboxErr where
  | fileNotFound | fileSystem | database | extractor

structure InboxEnv (C : Type) where
  fileHash : C → String
  extract : C → Except InboxErr String
  chunkText : String → List String
  /-- The chunk is dropped for a high-severity hit. -/
  blockedHigh : String → Bool
  /-- `_is_transient_ingest_error`. -/
  isTransient : InboxErr → Bool

abbrev InboxM (C α : Type) := Prog (InboxStore C) InboxErr α

namespace Inbox

variable {C : Type}

def stat : InboxM C (Option Nat) := query .fileSystem fun s => s.file.map InboxFile.mtime

def fetchRow : InboxM C (Option InboxRow) := query .database InboxStore.row

/-- The slack of the fast path. -/
def oneSecond : Nat := 1000000

/-- What the fast path makes of the mtime and the row. -/
def modifiedSince (mtime : Nat) : Option InboxRow → Bool
  | none => true
  | some r => decide (r.updatedAt + oneSecond < mtime)

def inboxPollShouldIngest : InboxM C Bool := do
  match ← stat with
  | none => return false
  | some mtime => do
    let existing ← fetchRow
    return modifiedSince mtime existing

def readFile {α : Type} (f : C → Except InboxErr α) : InboxM C α :=
  actE .fileSystem fun s =>
    match s.file with
    | none => (.error .fileNotFound, s)
    | some file => (f file.content, s)

/-- The row is the one of this hash. -/
def hasHash (hash : String) (existing : Option InboxRow) : Bool := existing.any (·.fileHash == hash)

/-- What an ingest leaves of the row. A blocked chunk keeps the old hash, so that the file is ingested again. -/
def indexed (env : InboxEnv C) (newHash : String) (existing : Option InboxRow) (chunks : List String) (now : Nat)
    (row : Option InboxRow) : Option InboxRow :=
  let written := chunks.countP fun chunk => !env.blockedHigh chunk
  if chunks = [] then
    if existing.isSome then row.map fun r => { r with chunkCount := 0, fileHash := newHash, updatedAt := now }
    else row
  else if chunks.any env.blockedHigh then
    if existing.isSome then row.map fun r => { r with chunkCount := written, updatedAt := now }
    else row
  else some { fileHash := newHash, chunkCount := written, updatedAt := now }

def recordIngest (env : InboxEnv C) (newHash : String) (existing : Option InboxRow) (chunks : List String) : InboxM C Unit :=
  act .database fun s => ((), { s with row := indexed env newHash existing chunks s.now s.row })

def ingestFile (env : InboxEnv C) : InboxM C Unit := do
  let newHash ← readFile fun content => .ok (env.fileHash content)
  let existing ← fetchRow
  if hasHash newHash existing then
    pure ()
  else do
    let text ← readFile env.extract
    recordIngest env newHash existing (env.chunkText text)

/-- The file is moved away. -/
def quarantineInboxFile : InboxM C Unit := act .fileSystem fun s => ((), { s with file := none })

/-- What the checks before an ingest say of the file: containment, size, and whether it has stopped growing. -/
inductive Admission where
  | admitted | refused
  /-- It has been growing for three ticks. -/
  | unstable

def ingestFileSafe (env : InboxEnv C) : Admission → InboxM C Unit
  | .refused => pure ()
  | .unstable => quarantineInboxFile
  | .admitted => do
    match ← (ingestFile env).attempt with
    | .ok _ => pure ()
    | .error e => if env.isTransient e then pure () else quarantineInboxFile

/-- What a tick does with the file. -/
def inboxPoll (env : InboxEnv C) (admission : Admission) : InboxM C Unit := do
  if ← inboxPollShouldIngest then ingestFileSafe env admission else pure ()

end Inbox

open Inbox

/-! ## Ticks and writes -/

/-- Where a tick is. -/
inductive InboxPhase where
  | idle
  | statted (mtime : Nat)
  /-- The file is to be ingested. -/
  | due
  | hashed (hash : String)
  /-- The row had another hash. -/
  | changed (hash : String) (existing : Option InboxRow)
  | extracted (hash : String) (existing : Option InboxRow) (chunks : List String)
  | failed
  deriving DecidableEq

structure InboxConfig (ι C : Type) where
  store : InboxStore C
  phase : ι → InboxPhase

inductive InboxLabel (ι C : Type) where
  | stat (i : ι)
  | decide (i : ι)
  | hash (i : ι)
  | lookup (i : ι)
  | extract (i : ι)
  | record (i : ι)
  /-- A call raises. -/
  | fail (i : ι)
  | quarantine (i : ι)
  | leave (i : ι)
  | write (content : C)
  | wait (n : Nat)

section System

variable {ι C : Type} [DecidableEq ι]

def InboxConfig.put (i : ι) (p : InboxPhase) (store : InboxStore C) (c : InboxConfig ι C) : InboxConfig ι C :=
  { store := store, phase := Function.update c.phase i p }

theorem InboxConfig.put_phase (i j : ι) (p : InboxPhase) (store : InboxStore C) (c : InboxConfig ι C) :
    (c.put i p store).phase j = if j = i then p else c.phase j := Function.update_apply ..

def inboxStep (env : InboxEnv C) : InboxLabel ι C → InboxConfig ι C → Option (InboxConfig ι C)
  | .stat i, c =>
    match c.phase i, c.store.file with
    | .idle, some f => some (c.put i (.statted f.mtime) c.store)
    | .idle, none => some c
    | _, _ => none
  | .decide i, c =>
    match c.phase i with
    | .statted mtime => some (c.put i (if modifiedSince mtime c.store.row then .due else .idle) c.store)
    | _ => none
  | .hash i, c =>
    match c.phase i, c.store.file with
    | .due, some f => some (c.put i (.hashed (env.fileHash f.content)) c.store)
    | .due, none => some (c.put i .failed c.store)
    | _, _ => none
  | .lookup i, c =>
    match c.phase i with
    | .hashed hash => some (c.put i (if hasHash hash c.store.row then .idle else .changed hash c.store.row) c.store)
    | _ => none
  | .extract i, c =>
    match c.phase i, c.store.file with
    | .changed hash existing, some f =>
      match env.extract f.content with
      | .ok text => some (c.put i (.extracted hash existing (env.chunkText text)) c.store)
      | .error _ => some (c.put i .failed c.store)
    | .changed _ _, none => some (c.put i .failed c.store)
    | _, _ => none
  | .record i, c =>
    match c.phase i with
    | .extracted hash existing chunks =>
      some (c.put i .idle { c.store with row := indexed env hash existing chunks c.store.now c.store.row })
    | _ => none
  | .fail i, c =>
    match c.phase i with
    | .idle | .statted _ | .failed => none
    | _ => some (c.put i .failed c.store)
  | .quarantine i, c =>
    match c.phase i with
    | .failed | .due => some (c.put i .idle { c.store with file := none })
    | _ => none
  | .leave i, c =>
    match c.phase i with
    | .failed | .due => some (c.put i .idle c.store)
    | _ => none
  | .write content, c => some { c with store := { c.store with file := some ⟨content, c.store.now⟩ } }
  | .wait n, c => some { c with store := { c.store with now := c.store.now + n } }

/-! ## The law and its condition -/

/-- `ingest_file` would skip the file too. -/
def InboxStore.Unchanged (env : InboxEnv C) (s : InboxStore C) : Prop :=
  ∀ f, s.file = some f → hasHash (env.fileHash f.content) s.row = true

/-- What the fast path leaves alone, `ingest_file` would. -/
def SkipsHonestly (env : InboxEnv C) (c : InboxConfig ι C) : Prop :=
  ∀ i mtime, c.phase i = .statted mtime → modifiedSince mtime c.store.row = false → c.store.Unchanged env

/-- The tick has looked at the file and is still to make up its mind, or to write down what it saw. -/
def InboxPhase.hasLooked : InboxPhase → Bool
  | .statted _ | .hashed _ | .changed _ _ | .extracted _ _ _ => true
  | .idle | .due | .failed => false

/-- The ingest has a row to keep, and a chunk was blocked. -/
def InboxPhase.keepsHash (env : InboxEnv C) : InboxPhase → Bool
  | .extracted _ existing chunks => existing.isSome && chunks.any env.blockedHigh
  | _ => false

/-- The write leaves the hash as it is, or falls while no tick is between its look at the file and what follows
from it, and more than a second after the row. -/
def UndisturbedWrite (env : InboxEnv C) (content : C) (c : InboxConfig ι C) : Prop :=
  (∃ f ∈ c.store.file, env.fileHash content = env.fileHash f.content) ∨
    (∀ i, (c.phase i).hasLooked = false) ∧ modifiedSince c.store.now c.store.row = true

/-- No write disturbs a tick, and no chunk of a file that has a row is blocked. -/
def InboxUndisturbed (env : InboxEnv C) : InboxLabel ι C → InboxConfig ι C → Prop
  | .write content, c => UndisturbedWrite env content c
  | .record i, c => (c.phase i).keepsHash env = false
  | _, _ => True

instance [Fintype ι] (env : InboxEnv C) : (l : InboxLabel ι C) → (c : InboxConfig ι C) → Decidable (InboxUndisturbed env l c)
  | .write _, _ => inferInstanceAs (Decidable (_ ∨ _ ∧ _))
  | .record i, c => inferInstanceAs (Decidable ((c.phase i).keepsHash env = false))
  | .stat _, _ | .decide _, _ | .hash _, _ | .lookup _, _ | .extract _, _ | .fail _, _ | .quarantine _, _ | .leave _, _
  | .wait _, _ => .isTrue trivial

/-- No tick is under way, and the fast path is right about the file as it is. -/
structure InboxStart (env : InboxEnv C) (c : InboxConfig ι C) : Prop where
  idle : ∀ i, c.phase i = .idle
  past : ∀ f, c.store.file = some f → f.mtime ≤ c.store.now
  honest : ∀ f, c.store.file = some f → modifiedSince f.mtime c.store.row = false → c.store.Unchanged env

/-- What a tick has seen is what there is. -/
def InboxPhase.Current (env : InboxEnv C) (s : InboxStore C) : InboxPhase → Prop
  | .statted mtime => modifiedSince mtime s.row = false → s.Unchanged env
  | .hashed hash | .changed hash _ | .extracted hash _ _ => ∀ f, s.file = some f → hash = env.fileHash f.content
  | .idle | .due | .failed => True

structure InboxInv (env : InboxEnv C) (c : InboxConfig ι C) : Prop where
  past : ∀ f, c.store.file = some f → f.mtime ≤ c.store.now
  honest : ∀ f, c.store.file = some f → modifiedSince f.mtime c.store.row = false → c.store.Unchanged env
  phases : ∀ i, (c.phase i).Current env c.store

variable {env : InboxEnv C} {c c' c₀ : InboxConfig ι C} {i : ι}

omit [DecidableEq ι] in
theorem InboxStart.inv (h : InboxStart env c) : InboxInv env c where
  past := h.past
  honest := h.honest
  phases i := by
    rw [h.idle i]
    trivial

omit [DecidableEq ι] in
theorem InboxInv.skipsHonestly (h : InboxInv env c) : SkipsHonestly env c := by
  intro i mtime hphase hskip
  have hcurrent := h.phases i
  rw [hphase] at hcurrent
  exact hcurrent hskip

theorem InboxInv.puts {p : InboxPhase} {s : InboxStore C} (hp : p.Current env s)
    (hpast : ∀ f, s.file = some f → f.mtime ≤ s.now)
    (hhonest : ∀ f, s.file = some f → modifiedSince f.mtime s.row = false → s.Unchanged env)
    (hphases : ∀ j, (c.phase j).Current env s) : InboxInv env (c.put i p s) := by
  refine ⟨hpast, hhonest, fun j => ?_⟩
  rw [InboxConfig.put_phase]
  split_ifs
  · exact hp
  · exact hphases j

theorem InboxInv.moves {p : InboxPhase} (h : InboxInv env c) (hp : p.Current env c.store) :
    InboxInv env (c.put i p c.store) := .puts hp h.past h.honest h.phases

theorem InboxInv.removes (h : InboxInv env c) : InboxInv env (c.put i .idle { c.store with file := none }) := by
  refine .puts trivial (fun f hf => by cases hf) (fun f hf => by cases hf) fun j => ?_
  have hcurrent := h.phases j
  cases hphase : c.phase j with
  | statted mtime => exact fun _ f hf => by cases hf
  | hashed hash => exact fun f hf => by cases hf
  | changed hash existing => exact fun f hf => by cases hf
  | extracted hash existing chunks => exact fun f hf => by cases hf
  | idle | due | failed => trivial

theorem unchanged_indexed {hash : String} {existing : Option InboxRow} {chunks : List String} {s : InboxStore C}
    (hhash : ∀ f, s.file = some f → hash = env.fileHash f.content)
    (hblocked : existing.isSome = true → chunks.any env.blockedHigh = false) :
    indexed env hash existing chunks s.now s.row = s.row ∨
      ({ s with row := indexed env hash existing chunks s.now s.row } : InboxStore C).Unchanged env := by
  unfold indexed
  split_ifs with hchunks hsome hany hsome
  · cases hrow : s.row with
    | none => exact .inl rfl
    | some r => exact .inr fun f hf => by simp [hasHash, hhash f hf]
  · exact .inl rfl
  · rw [hblocked hsome] at hany
    cases hany
  · exact .inl rfl
  · exact .inr fun f hf => by simp [hasHash, hhash f hf]

theorem InboxInv.records {row : Option InboxRow} (h : InboxInv env c)
    (hrow : row = c.store.row ∨ ({ c.store with row := row } : InboxStore C).Unchanged env) :
    InboxInv env (c.put i .idle { c.store with row := row }) := by
  rcases hrow with rfl | hunchanged
  · exact h.moves trivial
  · refine .puts trivial h.past (fun _ _ _ => hunchanged) fun j => ?_
    have hcurrent := h.phases j
    cases hphase : c.phase j with
    | statted mtime => exact fun _ => hunchanged
    | hashed hash => rw [hphase] at hcurrent; exact hcurrent
    | changed hash existing => rw [hphase] at hcurrent; exact hcurrent
    | extracted hash existing chunks => rw [hphase] at hcurrent; exact hcurrent
    | idle | due | failed => trivial

omit [DecidableEq ι] in
theorem InboxInv.waits (n : Nat) (h : InboxInv env c) :
    InboxInv env { c with store := { c.store with now := c.store.now + n } } where
  past f hf := Nat.le_trans (h.past f hf) (Nat.le_add_right _ _)
  honest := h.honest
  phases := h.phases

theorem modifiedSince_mono {m n : Nat} {row : Option InboxRow} (hmn : m ≤ n) (h : modifiedSince n row = false) :
    modifiedSince m row = false := by
  cases row with
  | none => cases h
  | some r =>
    simp only [modifiedSince, decide_eq_false_iff_not] at h ⊢
    omega

omit [DecidableEq ι] in
theorem InboxInv.writes {content : C} (h : InboxInv env c) (hw : UndisturbedWrite env content c) :
    InboxInv env { c with store := { c.store with file := some ⟨content, c.store.now⟩ } } := by
  have hpast : ∀ f, some (InboxFile.mk content c.store.now) = some f → f.mtime ≤ c.store.now := by
    intro f hf
    cases hf
    exact Nat.le_refl _
  rcases hw with ⟨f, hf, hhash⟩ | ⟨hquiet, hlater⟩
  · -- the hash stays
    have hkeeps : c.store.Unchanged env →
        ({ c.store with file := some ⟨content, c.store.now⟩ } : InboxStore C).Unchanged env := by
      intro hunchanged f' hf'
      cases hf'
      rw [hhash]
      exact hunchanged f hf
    refine ⟨hpast, fun f' hf' hskip => ?_, fun i => ?_⟩
    · cases hf'
      exact hkeeps (h.honest f hf (modifiedSince_mono (h.past f hf) hskip))
    · have hcurrent := h.phases i
      cases hphase : c.phase i with
      | statted mtime =>
        rw [hphase] at hcurrent
        exact fun hskip => hkeeps (hcurrent hskip)
      | hashed hash =>
        rw [hphase] at hcurrent
        intro f' hf'
        cases hf'
        rw [hhash]
        exact hcurrent f hf
      | changed hash existing =>
        rw [hphase] at hcurrent
        intro f' hf'
        cases hf'
        rw [hhash]
        exact hcurrent f hf
      | extracted hash existing chunks =>
        rw [hphase] at hcurrent
        intro f' hf'
        cases hf'
        rw [hhash]
        exact hcurrent f hf
      | idle | due | failed => trivial
  · refine ⟨hpast, fun f' hf' hskip => ?_, fun i => ?_⟩
    · cases hf'
      cases hlater.symm.trans hskip
    · have hlooked := hquiet i
      cases hphase : c.phase i with
      | statted mtime => rw [hphase] at hlooked; cases hlooked
      | hashed hash => rw [hphase] at hlooked; cases hlooked
      | changed hash existing => rw [hphase] at hlooked; cases hlooked
      | extracted hash existing chunks => rw [hphase] at hlooked; cases hlooked
      | idle | due | failed => trivial

theorem InboxInv.next {l : InboxLabel ι C} (h : InboxInv env c) (hl : InboxUndisturbed env l c)
    (hstep : inboxStep env l c = some c') : InboxInv env c' := by
  cases l with
  | stat i =>
    simp only [inboxStep] at hstep
    split at hstep
    · rename_i f hphase hfile
      cases hstep
      exact h.moves (h.honest f hfile)
    · cases hstep
      exact h
    · cases hstep
  | decide i =>
    simp only [inboxStep] at hstep
    split at hstep
    · cases hstep
      split_ifs
      · exact h.moves trivial
      · exact h.moves trivial
    · cases hstep
  | hash i =>
    simp only [inboxStep] at hstep
    split at hstep
    · rename_i f hphase hfile
      cases hstep
      exact h.moves fun f' hf' => by cases hfile.symm.trans hf'; rfl
    · cases hstep
      exact h.moves trivial
    · cases hstep
  | lookup i =>
    simp only [inboxStep] at hstep
    split at hstep
    · rename_i hash hphase
      cases hstep
      have hcurrent := h.phases i
      rw [hphase] at hcurrent
      split_ifs
      · exact h.moves trivial
      · exact h.moves hcurrent
    · cases hstep
  | extract i =>
    simp only [inboxStep] at hstep
    split at hstep
    · rename_i hash existing f hphase hfile
      have hcurrent := h.phases i
      rw [hphase] at hcurrent
      split at hstep
      · cases hstep
        exact h.moves hcurrent
      · cases hstep
        exact h.moves trivial
    · cases hstep
      exact h.moves trivial
    · cases hstep
  | record i =>
    simp only [inboxStep] at hstep
    split at hstep
    · rename_i hash existing chunks hphase
      cases hstep
      have hcurrent := h.phases i
      rw [hphase] at hcurrent
      have hkeeps : existing.isSome = true → chunks.any env.blockedHigh = false := by
        have hl : (c.phase i).keepsHash env = false := hl
        rw [hphase] at hl
        intro hsome
        simpa [InboxPhase.keepsHash, hsome] using hl
      exact h.records (unchanged_indexed hcurrent hkeeps)
    · cases hstep
  | fail i =>
    simp only [inboxStep] at hstep
    split at hstep
    · cases hstep
    · cases hstep
    · cases hstep
    · cases hstep
      exact h.moves trivial
  | quarantine i =>
    simp only [inboxStep] at hstep
    split at hstep
    · cases hstep
      exact h.removes
    · cases hstep
      exact h.removes
    · cases hstep
  | leave i =>
    simp only [inboxStep] at hstep
    split at hstep
    · cases hstep
      exact h.moves trivial
    · cases hstep
      exact h.moves trivial
    · cases hstep
  | write content =>
    cases hstep
    exact h.writes hl
  | wait n =>
    cases hstep
    exact h.waits n

theorem poll_skips_honestly (h₀ : InboxStart env c₀) (h : Reaches (inboxStep env) (InboxUndisturbed env) c₀ c) :
    SkipsHonestly env c :=
  InboxInv.skipsHonestly (h.invariant h₀.inv fun _ _ _ hc hl hstep => hc.next hl hstep)

/-! ## The program of a tick -/

/-- A run from `c` leads to a configuration with store `t` in which tick `i` is in phase `p`. -/
abbrev InboxRunsTo (env : InboxEnv C) (c : InboxConfig ι C) (i : ι) (p : InboxPhase) (t : InboxStore C) : Prop :=
  RunsTo (inboxStep env) (fun _ _ => True) InboxConfig.store c (fun c' => c'.phase i = p) t

variable {p q : InboxPhase} {s t : InboxStore C}

theorem InboxRunsTo.moves (h : InboxRunsTo env c i p s) (l : InboxLabel ι C)
    (hl : ∀ c' : InboxConfig ι C, c'.phase i = p → c'.store = s → inboxStep env l c' = some (c'.put i q t)) :
    InboxRunsTo env c i q t := by
  refine h.next (l := l) fun c' hphase hstore => ⟨trivial, _, hl c' hphase hstore, ?_, rfl⟩
  rw [InboxConfig.put_phase, if_pos rfl]

theorem inboxPollShouldIngest_runs (h : InboxRunsTo env c i .idle s) :
    wp (fun r t => ∃ b, r = .ok b ∧ InboxRunsTo env c i (if b then .due else .idle) t) inboxPollShouldIngest s := by
  refine wp_bind.mpr (wp_query.mpr ?_)
  show wp _ (match s.file.map InboxFile.mtime with | none => _ | some mtime => _) s
  cases hfile : s.file with
  | none => exact ⟨false, rfl, h⟩
  | some f =>
    have hstat : InboxRunsTo env c i (.statted f.mtime) s := by
      refine h.moves (.stat i) fun c' hphase hstore => ?_
      simp only [inboxStep, hphase, hstore, hfile]
    refine wp_bind.mpr (wp_query.mpr ⟨_, rfl, hstat.moves (.decide i) fun c' hphase hstore => ?_⟩)
    simp only [inboxStep, hphase, hstore]

theorem wp_readFile {α : Type} {f : C → Except InboxErr α} {Q : Except InboxErr α → InboxStore C → Prop} :
    wp Q (readFile f) s ↔ match s.file with
      | none => Q (.error .fileNotFound) s
      | some file => Q (f file.content) s := by
  rw [readFile, wp_actE]
  cases s.file <;> rfl

/-- Where an ingest leaves its tick. -/
def InboxPhase.afterIngest : Except InboxErr Unit → InboxPhase
  | .ok _ => .idle
  | .error _ => .failed

theorem ingestFile_runs (h : InboxRunsTo env c i .due s) :
    wp (fun r t => InboxRunsTo env c i (.afterIngest r) t) (ingestFile env) s := by
  refine wp_bind.mpr (wp_readFile.mpr ?_)
  cases hfile : s.file with
  | none =>
    refine h.moves (.hash i) fun c' hphase hstore => ?_
    simp only [inboxStep, hphase, hstore, hfile]
    rfl
  | some f =>
    have hhashed : InboxRunsTo env c i (.hashed (env.fileHash f.content)) s := by
      refine h.moves (.hash i) fun c' hphase hstore => ?_
      simp only [inboxStep, hphase, hstore, hfile]
    have hlookup : InboxRunsTo env c i (if hasHash (env.fileHash f.content) s.row then .idle
        else .changed (env.fileHash f.content) s.row) s := by
      refine hhashed.moves (.lookup i) fun c' hphase hstore => ?_
      simp only [inboxStep, hphase, hstore]
    refine wp_bind.mpr (wp_query.mpr ?_)
    by_cases hsame : hasHash (env.fileHash f.content) s.row = true
    · rw [if_pos hsame] at hlookup
      show wp _ (if hasHash (env.fileHash f.content) s.row = true then _ else _) s
      rw [if_pos hsame]
      exact hlookup
    · rw [if_neg hsame] at hlookup
      show wp _ (if hasHash (env.fileHash f.content) s.row = true then _ else _) s
      rw [if_neg hsame]
      refine wp_bind.mpr (wp_readFile.mpr ?_)
      rw [hfile]
      dsimp only
      cases htext : env.extract f.content with
      | error e =>
        refine hlookup.moves (.extract i) fun c' hphase hstore => ?_
        simp only [inboxStep, hphase, hstore, hfile, htext]
        rfl
      | ok text =>
        have hextracted : InboxRunsTo env c i (.extracted (env.fileHash f.content) s.row (env.chunkText text)) s := by
          refine hlookup.moves (.extract i) fun c' hphase hstore => ?_
          simp only [inboxStep, hphase, hstore, hfile, htext]
        refine wp_act.mpr (hextracted.moves (.record i) fun c' hphase hstore => ?_)
        simp only [inboxStep, hphase, hstore]
        rfl

/-- A tick that is not interrupted is a run of its steps. -/
theorem inboxPoll_runs (admission : Admission) (h : InboxRunsTo env c i .idle s) :
    wp (fun _ t => InboxRunsTo env c i .idle t) (inboxPoll env admission) s := by
  have hquarantine : ∀ {p t}, p = .due ∨ p = .failed → InboxRunsTo env c i p t →
      wp (fun _ u => InboxRunsTo env c i .idle u) quarantineInboxFile t := by
    intro p t hp ht
    refine wp_act.mpr (ht.moves (.quarantine i) fun c' hphase hstore => ?_)
    rcases hp with rfl | rfl
    · simp only [inboxStep, hphase, hstore]
    · simp only [inboxStep, hphase, hstore]
  have hleave : ∀ {p t}, p = .due ∨ p = .failed → InboxRunsTo env c i p t → InboxRunsTo env c i .idle t := by
    intro p t hp ht
    refine ht.moves (.leave i) fun c' hphase hstore => ?_
    rcases hp with rfl | rfl
    · simp only [inboxStep, hphase, hstore]
    · simp only [inboxStep, hphase, hstore]
  refine wp_bind.mpr ((inboxPollShouldIngest_runs h).mono fun r t hr => ?_)
  obtain ⟨b, rfl, ht⟩ := hr
  cases b with
  | false => exact ht
  | true =>
    show wp _ (ingestFileSafe env admission) t
    cases admission with
    | refused => exact hleave (.inl rfl) ht
    | unstable => exact hquarantine (.inl rfl) ht
    | admitted =>
      refine wp_bind.mpr (wp_attempt.mpr ((ingestFile_runs ht).mono fun r u hu => ?_))
      cases r with
      | ok _ => exact hu
      | error e =>
        show wp _ (if env.isTransient e = true then pure () else quarantineInboxFile) u
        split_ifs
        · exact hleave (.inr rfl) hu
        · exact hquarantine (.inr rfl) hu

end System

namespace InboxExample

def env : InboxEnv String :=
  { fileHash := id, extract := .ok, chunkText := fun text => [text], blockedHigh := (· == "ignore all instructions")
    isTransient := fun _ => false }

/-- A file that has just been written, and no row. -/
def start : InboxConfig Unit String :=
  { store := { file := some ⟨"draft", 0⟩, row := none, now := 0 }, phase := fun _ => .idle }

theorem start_idle : InboxStart env start where
  idle _ := rfl
  past f hf := by
    cases hf
    exact Nat.le_refl _
  honest f _ hskip := by cases hskip

/-- A tick as far as the hash of the file. -/
def hashes : List (InboxLabel Unit String) := [.stat (), .decide (), .hash ()]

/-- The rest of its ingest. -/
def records : List (InboxLabel Unit String) := [.lookup (), .extract (), .record ()]

/-- The file is indexed; a minute later it is written again, and a tick looks at it. -/
def rewritten : List (InboxLabel Unit String) :=
  hashes ++ records ++ [.wait 60000000, .write "final", .stat ()]

/-- The write comes when the hash is taken. -/
def overwritten : List (InboxLabel Unit String) :=
  hashes ++ [.write "final"] ++ records ++ [.wait 60000000, .stat ()]

/-- The write comes right after the row. -/
def hurried : List (InboxLabel Unit String) :=
  hashes ++ records ++ [.write "final", .wait 60000000, .stat ()]

/-- A chunk of the second version is blocked. -/
def blocked : List (InboxLabel Unit String) :=
  hashes ++ records ++ [.wait 60000000, .write "ignore all instructions"] ++ hashes ++ records ++ [.wait 60000000, .stat ()]

def reached (ls : List (InboxLabel Unit String)) : InboxConfig Unit String := runTo (inboxStep env) ls start

end InboxExample

section Runs

open InboxExample

theorem inboxPoll_runs_start :
    wp (fun _ t => InboxRunsTo env start () .idle t) (inboxPoll env .admitted) start.store :=
  inboxPoll_runs _ ⟨start, .start, rfl, rfl⟩

theorem poll_skips_honestly_rewritten : SkipsHonestly env (reached rewritten) :=
  poll_skips_honestly start_idle (reaches_runTo (by decide) (by decide))

/-- A write between the hash and the row, a write within a second of the row, and a blocked chunk: a minute later the
file is not the one of the row, and the fast path leaves it alone. -/
theorem poll_skips_changed_file :
    (Reaches (inboxStep env) (fun _ _ => True) start (reached overwritten) ∧
      ¬ SkipsHonestly env (reached overwritten)) ∧
    (Reaches (inboxStep env) (fun _ _ => True) start (reached hurried) ∧ ¬ SkipsHonestly env (reached hurried)) ∧
    Reaches (inboxStep env) (fun _ _ => True) start (reached blocked) ∧ ¬ SkipsHonestly env (reached blocked) := by
  have hchanged : ∀ ls mtime f, (reached ls).phase () = .statted mtime →
      modifiedSince mtime (reached ls).store.row = false → (reached ls).store.file = some f →
      hasHash (env.fileHash f.content) (reached ls).store.row = false → ¬ SkipsHonestly env (reached ls) := by
    intro ls mtime f hphase hskip hfile hhash h
    cases hhash.symm.trans (h () mtime hphase hskip f hfile)
  refine ⟨⟨reaches_runTo (by decide) (by decide), ?_⟩, ⟨reaches_runTo (by decide) (by decide), ?_⟩,
    reaches_runTo (by decide) (by decide), ?_⟩
  · exact hchanged _ 0 ⟨"final", 0⟩ (by decide) (by decide) (by decide) (by decide)
  · exact hchanged _ 0 ⟨"final", 0⟩ (by decide) (by decide) (by decide) (by decide)
  · exact hchanged _ 60000000 ⟨"ignore all instructions", 60000000⟩ (by decide) (by decide) (by decide) (by decide)

end Runs

end Lumogis
