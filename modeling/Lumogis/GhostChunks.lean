import Lumogis.UnshareSound
import Lumogis.Lib.Auxiliary

/-!
# GhostChunks

A share job, an unshare job, an ingest of the same path with its re-projection, and a purge, all on
one document and interleaved call by call. When all four have returned, no chunk of the document is
shared without its row (`noGhostChunks`).

`reproject_shared_on_reingest` reads the document's row, and whether it is shared, before it takes
the lock, so it may mirror chunks when the row is gone. What saves the document is the purge: it
takes the row away and then, under the same lock, every chunk of the path. The re-projection has
read the row before that, so its ingest has written its last chunk, and it finds nothing to mirror.

That the ingest has read the row is not to be seen in the stores. It is the auxiliary state here.
Without a purge nothing saves the document (`reproject_leaves_ghost`).
-/

namespace Lumogis

open Prog Relation

/-- The four operations on the document. -/
inductive Party where
  | share | unshare | ingest | purge
  deriving DecidableEq

/-- The session in which a party takes the lock. -/
def Party.session : Party → Nat
  | .share => 1
  | .unshare => 2
  | .ingest => 3
  | .purge => 4

def Party.run (env : Env) (u : String) (d : Nat) (file : SourceFile) (force : Bool)
    (jobId : Party → Nat) : Party → M Unit
  | .share => handleShare env Party.share.session u d (jobId .share)
  | .unshare => handleUnshare env Party.unshare.session u d (jobId .unshare)
  | .ingest => handleIngestUpload env Party.ingest.session file u force (jobId .ingest)
  | .purge => (purgeDocument env Party.purge.session u d).void

theorem Party.session_inj {p q : Party} (h : p.session = q.session) : p = q := by
  cases p <;> cases q <;> first | rfl | cases h

def HasRow (d : Nat) (s : Store) : Prop := ∃ r ∈ s.db.fileIndex, r.id = d

def HasRowAt (u path : String) (s : Store) : Prop :=
  ∃ r ∈ s.db.fileIndex, r.isPersonalAt u path = true

/-- A chunk that a mirroring of the path would find. -/
def HasChunk (u path : String) (s : Store) : Prop :=
  ∃ pt ∈ s.documents, pt.ofSource u path = true ∧ pt.scope = some .personal

def HoldsLockOf (d : Nat) (p : Party) (s : Store) : Prop := (advisoryKey2 d, p.session) ∈ s.locks

/-- What every state of a run satisfies: the key of the table and its index on personal paths, the
owner on shared chunks, and at most one holder of the lock. -/
structure DocumentInv (u : String) (d : Nat) (path : String) (s : Store) : Prop where
  row : ∀ r ∈ s.db.fileIndex, r.id = d →
    r.userId = u ∧ r.filePath = path ∧ r.scope = .personal ∧ r.publishedFrom = none
  unique : HasRow d s → ∀ r ∈ s.db.fileIndex, r.isPersonalAt u path = true → r.id = d
  seq : d < s.db.fileIndexSeq
  owned : ∀ pt ∈ s.documents, pt.sharedOf d = true → pt.userId = u
  single : ∀ a b, (advisoryKey2 d, a) ∈ s.locks → (advisoryKey2 d, b) ∈ s.locks → a = b

/-- The re-projection, if it has read the row, finds the row or no chunks, or is kept waiting by
the purge. -/
def Retained (u : String) (d : Nat) (path : String) (s : Store) : Prop :=
  HasRow d s ∨ ¬ HasChunk u path s ∨ HoldsLockOf d .purge s

/-- The store, and whether the ingest has read the document's row for its re-projection. -/
abbrev Watched := Store × Bool

/-- A call of `p`. -/
structure PartyMove (u : String) (d : Nat) (path : String) (p : Party) (x y : Watched) : Prop where
  inv : DocumentInv u d path y.1
  row_new : HasRow d y.1 → HasRow d x.1
  row_kept : (p ≠ .purge ∨ ∃ q, q ≠ p ∧ HoldsLockOf d q x.1) → HasRow d x.1 → HasRow d y.1
  locks : ∀ q, q ≠ p → (HoldsLockOf d q y.1 ↔ HoldsLockOf d q x.1)
  points : ∀ pt ∈ y.1.documents, pt.sharedOf d = true → pt ∈ x.1.documents ∨ HasRow d x.1
  chunks : (p ≠ .ingest ∨ x.2 = true) → HasChunk u path y.1 → HasChunk u path x.1
  rows : (p ≠ .ingest ∨ x.2 = true) → HasRowAt u path y.1 → HasRowAt u path x.1
  read : y.2 = x.2 ∨ (p = .ingest ∧ HasRow d x.1)
  txn : p ≠ .purge → y.1.openTxn = x.1.openTxn
  retained : p = .purge → x.2 = true → Retained u d path x.1 → Retained u d path y.1

/-- What `p` promises of its calls. -/
def PartyG (u : String) (d : Nat) (path : String) (p : Party) (x y : Watched) : Prop :=
  DocumentInv u d path x.1 → PartyMove u d path p x y

/-- What `p` knows of the calls of the others. -/
def PartyR (u : String) (d : Nat) (path : String) (p : Party) (x y : Watched) : Prop :=
  ∃ q, q ≠ p ∧ PartyG u d path q x y

section

variable {env : Env} {u : String} {d : Nat} {path : String} {p : Party}

/-! ## What the others leave alone -/

theorem PartyMove.stays {q : Party} {x y : Watched} (h : PartyMove u d path q x y)
    (hr : Retained u d path x.1) (hx : x.2 = true) : Retained u d path y.1 := by
  by_cases hq : q = .purge
  · exact h.retained hq hx hr
  · rcases hr with hrow | hchunk | hheld
    · exact .inl (h.row_kept (.inl hq) hrow)
    · exact .inr (.inl fun hc => hchunk (h.chunks (.inr hx) hc))
    · exact .inr (.inr ((h.locks .purge fun e => hq e.symm).mpr hheld))

theorem stable_of_move {P : Watched → Prop} (hinv : ∀ x, P x → DocumentInv u d path x.1)
    (h : ∀ q x y, q ≠ p → PartyMove u d path q x y → P x → P y) : Stable (PartyR u d path p) P := by
  rintro x y ⟨q, hq, hg⟩ hp
  exact h q x y hq (hg (hinv x hp)) hp

/-- The invariant, and nothing else. -/
def Calm (u : String) (d : Nat) (path : String) (x : Watched) : Prop := DocumentInv u d path x.1

theorem calm_stable : Stable (PartyR u d path p) (Calm u d path) :=
  stable_of_move (fun _ h => h) fun _ _ _ _ h _ => h.inv

/-- `p` has the lock and the document is there. -/
structure HoldsRow (u : String) (d : Nat) (path : String) (p : Party) (x : Watched) : Prop where
  inv : DocumentInv u d path x.1
  holds : HoldsLockOf d p x.1
  row : HasRow d x.1

theorem holdsRow_stable : Stable (PartyR u d path p) (HoldsRow u d path p) :=
  stable_of_move (fun _ h => h.inv) fun q x y hq hm h =>
    ⟨hm.inv, (hm.locks p fun e => hq e.symm).mpr h.holds,
      hm.row_kept (.inr ⟨p, fun e => hq e.symm, h.holds⟩) h.row⟩

/-- `p` has the lock. -/
structure HoldsLock (u : String) (d : Nat) (path : String) (p : Party) (x : Watched) : Prop where
  inv : DocumentInv u d path x.1
  holds : HoldsLockOf d p x.1

theorem holdsLock_stable : Stable (PartyR u d path p) (HoldsLock u d path p) :=
  stable_of_move (fun _ h => h.inv) fun q x y hq hm h =>
    ⟨hm.inv, (hm.locks p fun e => hq e.symm).mpr h.holds⟩

/-! ## Calls -/

/-- A call that takes points away, or touches nothing of the document. -/
structure Benign (s t : Store) : Prop where
  files : t.db.fileIndex = s.db.fileIndex
  seq : t.db.fileIndexSeq = s.db.fileIndexSeq
  locks : t.locks = s.locks
  txn : t.openTxn = s.openTxn
  points : ∀ pt ∈ t.documents, pt ∈ s.documents

theorem Benign.refl (s : Store) : Benign s s := ⟨rfl, rfl, rfl, rfl, fun _ h => h⟩

theorem Benign.of_entityArm (s t : Store) (h : EntityArm s t) : Benign s t := by
  obtain ⟨_, _, _, _, _, rfl⟩ := h
  exact ⟨rfl, rfl, rfl, rfl, fun _ h => h⟩

theorem Benign.of_jobArm (s t : Store) (h : JobArm s t) : Benign s t := by
  obtain ⟨_, rfl⟩ := h
  exact ⟨rfl, rfl, rfl, rfl, fun _ h => h⟩

theorem Benign.hasRow {s t : Store} (h : Benign s t) : HasRow d t ↔ HasRow d s := by
  unfold HasRow; rw [h.files]

theorem Benign.hasRowAt {s t : Store} (h : Benign s t) : HasRowAt u path t ↔ HasRowAt u path s := by
  unfold HasRowAt; rw [h.files]

theorem Benign.holds {s t : Store} (h : Benign s t) : HoldsLockOf d p t ↔ HoldsLockOf d p s := by
  unfold HoldsLockOf; rw [h.locks]

theorem hasChunk_of_subset {s t : Store} (h : ∀ pt ∈ t.documents, pt ∈ s.documents)
    (hc : HasChunk u path t) : HasChunk u path s := by
  obtain ⟨pt, hpt, hp⟩ := hc
  exact ⟨pt, h pt hpt, hp⟩

theorem Benign.inv {s t : Store} (h : Benign s t) (hi : DocumentInv u d path s) :
    DocumentInv u d path t := by
  refine ⟨?_, ?_, ?_, fun pt hpt => hi.owned pt (h.points pt hpt), ?_⟩
  · rw [h.files]; exact hi.row
  · rw [h.hasRow, h.files]; exact hi.unique
  · rw [h.seq]; exact hi.seq
  · rw [h.locks]; exact hi.single

theorem Benign.move {s t : Store} (h : Benign s t) (hi : DocumentInv u d path s) (γ : Bool) :
    PartyMove u d path p (s, γ) (t, γ) where
  inv := h.inv hi
  row_new := h.hasRow.mp
  row_kept _ := h.hasRow.mpr
  locks _ _ := h.holds
  points pt hpt _ := .inl (h.points pt hpt)
  chunks _ := hasChunk_of_subset h.points
  rows _ := h.hasRowAt.mp
  read := .inl rfl
  txn _ := h.txn
  retained _ _ hr := by
    rcases hr with hrow | hchunk | hheld
    · exact .inl (h.hasRow.mpr hrow)
    · exact .inr (.inl fun hc => hchunk (hasChunk_of_subset h.points hc))
    · exact .inr (.inr (h.holds.mpr hheld))

theorem Benign.rely {s t : Store} (h : Benign s t) (γ : Bool) : PartyR u d path p (s, γ) (t, γ) := by
  have hother : ∃ q : Party, q ≠ p := by
    cases p
    · exact ⟨.purge, by decide⟩
    · exact ⟨.purge, by decide⟩
    · exact ⟨.purge, by decide⟩
    · exact ⟨.share, by decide⟩
  obtain ⟨q, hq⟩ := hother
  exact ⟨q, hq, fun hi => h.move hi γ⟩

/-- A thread's program beside the auxiliary state. -/
abbrev SatParty (u : String) (d : Nat) (path : String) (p : Party) {α : Type}
    (Q : Except PyErr α → Watched → Prop) (prog : Prog Watched PyErr α) (x : Watched) : Prop :=
  Sat (PartyR u d path p) (fun _ _ => True) (PartyG u d path p) Q prog x

/-- A program whose calls all move along `φ` keeps `P`, if such moves keep it. -/
theorem sat_always {α : Type} {φ : Store → Store → Prop} {P : Watched → Prop} {prog : M α}
    (ha : Always φ prog) (hst : Stable (PartyR u d path p) P)
    (hmove : ∀ s t γ, P (s, γ) → φ s t → PartyMove u d path p (s, γ) (t, γ))
    (hkeep : ∀ s t γ, P (s, γ) → φ s t → P (t, γ)) {x : Watched} (hp : P x) :
    SatParty u d path p (fun _ => P) prog.lift x := by
  refine Sat.always (always_lift ha) ?_ hst ?_ hp
  · rintro ⟨s, γ⟩ ⟨t, γ'⟩ hs ⟨hφ, rfl⟩ - _
    exact hmove s t _ hs hφ
  · rintro ⟨s, γ⟩ ⟨t, γ'⟩ hs ⟨hφ, rfl⟩ -
    exact hkeep s t _ hs hφ

theorem sat_benign {α : Type} {P : Watched → Prop} {prog : M α} (ha : Always Benign prog)
    (hst : Stable (PartyR u d path p) P) (hinv : ∀ x, P x → DocumentInv u d path x.1)
    {x : Watched} (hp : P x) : SatParty u d path p (fun _ => P) prog.lift x :=
  sat_always ha hst (fun _ _ γ hs h => h.move (hinv _ hs) γ)
    (fun _ _ γ hs h => hst _ _ (h.rely γ) hs) hp

/-! ## The lock -/

theorem lockFree_iff {key : Nat} {s : Store} :
    s.lockFree key = true ↔ ∀ a, (key, a) ∉ s.locks := by
  simp only [Store.lockFree, List.all_eq_true, bne_iff_ne]
  constructor
  · intro h a ha
    exact h _ ha rfl
  · rintro h ⟨k, a⟩ hl rfl
    exact h a hl

theorem inv_of_locks {s : Store} {ls : List (Nat × Nat)} (hi : DocumentInv u d path s)
    (h : ∀ a b, (advisoryKey2 d, a) ∈ ls → (advisoryKey2 d, b) ∈ ls → a = b) :
    DocumentInv u d path { s with locks := ls } :=
  ⟨hi.row, hi.unique, hi.seq, hi.owned, h⟩

/-- Only locks have changed, and only those of `p`'s session. -/
theorem move_of_locks {s : Store} {ls : List (Nat × Nat)} {γ : Bool}
    (hi : DocumentInv u d path { s with locks := ls })
    (h : ∀ q, q ≠ p → (HoldsLockOf d q { s with locks := ls } ↔ HoldsLockOf d q s))
    (hr : p = .purge → γ = true → Retained u d path s → Retained u d path { s with locks := ls }) :
    PartyMove u d path p (s, γ) ({ s with locks := ls }, γ) where
  inv := hi
  row_new h := h
  row_kept _ h := h
  locks := h
  points _ hpt _ := .inl hpt
  chunks _ h := h
  rows _ h := h
  read := .inl rfl
  txn _ := rfl
  retained := hr

theorem acquire_move {s : Store} {key : Nat} {γ : Bool} (hi : DocumentInv u d path s)
    (hfree : s.lockFree key = true) :
    PartyMove u d path p (s, γ) ({ s with locks := (key, p.session) :: s.locks }, γ) := by
  have hnone := lockFree_iff.mp hfree
  refine move_of_locks (inv_of_locks hi ?_) ?_ ?_
  · intro a b ha hb
    rcases List.mem_cons.mp ha with ha' | ha' <;> rcases List.mem_cons.mp hb with hb' | hb'
    · exact (Prod.mk.inj ha').2.trans (Prod.mk.inj hb').2.symm
    · exact absurd ((Prod.mk.inj ha').1 ▸ hb') (hnone b)
    · exact absurd ((Prod.mk.inj hb').1 ▸ ha') (hnone a)
    · exact hi.single a b ha' hb'
  · intro q hq
    unfold HoldsLockOf
    rw [List.mem_cons]
    refine ⟨fun h => h.resolve_left fun e => hq ?_, .inr⟩
    exact Party.session_inj (Prod.mk.inj e).2
  · intro _ _ hr
    rcases hr with hrow | hchunk | hheld
    · exact .inl hrow
    · exact .inr (.inl hchunk)
    · exact .inr (.inr (List.mem_cons_of_mem _ hheld))

/-- Dropping locks of `p`'s own session. `f` is what stays. -/
theorem release_move {s : Store} {f : Nat × Nat → Bool} {γ : Bool} (hi : DocumentInv u d path s)
    (hf : ∀ l : Nat × Nat, l.2 ≠ p.session → f l = true)
    (hr : p = .purge → γ = true → HasRow d s ∨ ¬ HasChunk u path s) :
    PartyMove u d path p (s, γ) ({ s with locks := s.locks.filter f }, γ) := by
  refine move_of_locks (inv_of_locks hi fun a b ha hb => ?_) (fun q hq => ?_) fun hp hγ _ => ?_
  · exact hi.single a b (List.mem_filter.mp ha).1 (List.mem_filter.mp hb).1
  · unfold HoldsLockOf
    rw [List.mem_filter]
    exact ⟨And.left, fun h => ⟨h, hf _ fun e => hq (Party.session_inj e)⟩⟩
  · exact (hr hp hγ).imp_right .inl

section Lock

variable {α : Type} {key : Nat} {body : M α} {P A : Watched → Prop}
  {B : Except PyErr α → Watched → Prop}

theorem sat_unlock {Q : Watched → Prop} {prog : M Unit} {f : Nat × Nat → Bool}
    (hprog : prog = act .database fun s => ((), { s with locks := s.locks.filter f }))
    (hf : ∀ l : Nat × Nat, l.2 ≠ p.session → f l = true) (hst : Stable (PartyR u d path p) Q)
    (hinv : ∀ x, Q x → DocumentInv u d path x.1)
    (hrel : ∀ x, Q x → p = .purge → x.2 = true → HasRow d x.1 ∨ ¬ HasChunk u path x.1)
    (hlocks : ∀ (s : Store) γ ls, Q (s, γ) → DocumentInv u d path { s with locks := ls } →
      Q ({ s with locks := ls }, γ)) {x : Watched} (hx : Q x) :
    SatParty u d path p (okPost fun _ => Q) prog.attempt.lift x := by
  subst hprog
  rw [lift_attempt]
  refine Sat.attempt ?_
  intro y hy _ _
  have hq := hst.rtc hy hx
  obtain ⟨s, γ⟩ := y
  have hmove : PartyMove u d path p (s, γ) ({ s with locks := s.locks.filter f }, γ) :=
    release_move (hinv _ hq) hf (hrel _ hq)
  exact ⟨fun _ => hmove, fun z hz => hst.rtc hz (hlocks s γ _ hq hmove.inv)⟩

/-- The body runs with the lock. What it ends in must survive the loss of the lock, and must let a
re-projection of the document proceed when the party is the purge. -/
theorem sat_shareDocumentLock {d' : Nat} (hP : Stable (PartyR u d path p) P)
    (hPinv : ∀ x, P x → DocumentInv u d path x.1)
    (hA : ∀ (s : Store) γ, P (s, γ) → s.lockFree (advisoryKey2 d') = true →
      ∀ y, ReflTransGen (PartyR u d path p)
        ({ s with locks := (advisoryKey2 d', p.session) :: s.locks }, γ) y → A y)
    (hbody : ∀ x, A x → SatParty u d path p B body.lift x)
    (hB : ∀ r, Stable (PartyR u d path p) (B r))
    (hBinv : ∀ r x, B r x → DocumentInv u d path x.1)
    (hrel : ∀ r x, B r x → p = .purge → x.2 = true → HasRow d x.1 ∨ ¬ HasChunk u path x.1)
    (hlocks : ∀ r (s : Store) γ ls, B r (s, γ) → DocumentInv u d path { s with locks := ls } →
      B r ({ s with locks := ls }, γ)) {x : Watched} (hx : P x) :
    SatParty u d path p B (shareDocumentLock p.session d' body).lift x := by
  rw [shareDocumentLock, lift_bind, lift_attempt]
  refine Sat.bind_ok (P := fun r y => r = .ok () ∧ A y) (Sat.attempt ?_) fun r y hy => ?_
  · intro y hy hg _
    obtain ⟨s, γ⟩ := y
    have hp := hP.rtc hy hx
    exact ⟨fun _ => acquire_move (hPinv _ hp) hg, fun z hz => ⟨rfl, hA s γ hp hg z hz⟩⟩
  · obtain ⟨rfl, hA'⟩ := hy
    dsimp only
    rw [Prog.tryFinally, lift_bind, lift_attempt]
    refine Sat.bind_ok (P := B) (Sat.attempt (hbody y hA')) fun r z hz => ?_
    have hkey : ∀ l : Nat × Nat, l.2 ≠ p.session →
        decide (l ≠ (advisoryKey2 d', p.session)) = true := by
      intro l hl
      simp only [decide_eq_true_eq]
      rintro rfl
      exact hl rfl
    have hsess : ∀ l : Nat × Nat, l.2 ≠ p.session → (l.2 != p.session) = true := fun l hl => by
      simpa using hl
    rw [lift_bind, lift_bind]
    refine Sat.bind_ok (P := fun _ => B r) ?_ fun _ w hw => ?_
    · refine Sat.bind_ok (sat_unlock rfl (fun l hl => by simpa using hkey l hl) (hB r) (hBinv r)
        (hrel r) (hlocks r) hz) fun _ w hw => ?_
      rw [lift_bind]
      refine Sat.bind_ok (sat_unlock rfl hsess (hB r) (hBinv r) (hrel r) (hlocks r) hw)
        fun _ v hv => ?_
      exact fun t ht => (hB r).rtc ht hv
    · cases r <;> exact fun t ht => (hB _).rtc ht hw

end Lock

/-! ## Rows and chunks that come and go -/

/-- Updates, and inserts of rows that satisfy `new`, under ids that the sequence gives. -/
structure FilesGrow (new : FileRow → Prop) (s t : Store) : Prop where
  back : ∀ r' ∈ t.db.fileIndex, (∃ r ∈ s.db.fileIndex, r'.SameKey r) ∨
    (r'.id = s.db.fileIndexSeq ∧ new r')
  forth : ∀ r ∈ s.db.fileIndex, ∃ r' ∈ t.db.fileIndex, r'.SameKey r
  seq : s.db.fileIndexSeq ≤ t.db.fileIndexSeq

theorem isPersonalAt_congr {r r' : FileRow} (h : r'.SameKey r) :
    r'.isPersonalAt u path = r.isPersonalAt u path := by
  obtain ⟨-, h2, h3, h4, -⟩ := h
  simp [FileRow.isPersonalAt, h2, h3, h4]

section Grow

variable {new : FileRow → Prop} {s t : Store}

theorem FilesGrow.of_eq (h : t.db.fileIndex = s.db.fileIndex)
    (hseq : t.db.fileIndexSeq = s.db.fileIndexSeq) : FilesGrow new s t := by
  refine ⟨?_, ?_, Nat.le_of_eq hseq.symm⟩
  · rw [h]
    exact fun r hr => .inl ⟨r, hr, rfl, rfl, rfl, rfl, rfl⟩
  · rw [h]
    exact fun r hr => ⟨r, hr, rfl, rfl, rfl, rfl, rfl⟩

theorem FilesGrow.of_update {q : FileRow → Bool} {f : FileRow → FileRow}
    (hf : ∀ r, (f r).SameKey r) (h : t.db.fileIndex = Table.updateWhere q f s.db.fileIndex)
    (hseq : s.db.fileIndexSeq ≤ t.db.fileIndexSeq) : FilesGrow new s t := by
  refine ⟨?_, fun r hr => ?_, hseq⟩
  · rw [h]
    intro r' hr'
    rcases Table.mem_updateWhere.mp hr' with ⟨r, hr, -, rfl⟩ | ⟨hr, -⟩
    · exact .inl ⟨r, hr, hf r⟩
    · exact .inl ⟨r', hr, rfl, rfl, rfl, rfl, rfl⟩
  · rw [h]
    by_cases hq : q r = true
    · exact ⟨f r, Table.mem_updateWhere.mpr (.inl ⟨r, hr, hq, rfl⟩), hf r⟩
    · exact ⟨r, Table.mem_updateWhere.mpr (.inr ⟨hr, by simpa using hq⟩), rfl, rfl, rfl, rfl, rfl⟩

theorem FilesGrow.of_insert {row : FileRow} (hid : row.id = s.db.fileIndexSeq) (hnew : new row)
    (h : t.db.fileIndex = s.db.fileIndex ++ [row])
    (hseq : s.db.fileIndexSeq ≤ t.db.fileIndexSeq) : FilesGrow new s t := by
  refine ⟨?_, ?_, hseq⟩
  · rw [h]
    intro r' hr'
    rcases List.mem_append.mp hr' with hr | hr
    · exact .inl ⟨r', hr, rfl, rfl, rfl, rfl, rfl⟩
    · rw [List.mem_singleton.mp hr]
      exact .inr ⟨hid, hnew⟩
  · rw [h]
    exact fun r hr => ⟨r, List.mem_append_left _ hr, rfl, rfl, rfl, rfl, rfl⟩

theorem FilesGrow.hasRow (h : FilesGrow new s t) (hi : DocumentInv u d path s) :
    HasRow d t ↔ HasRow d s := by
  constructor
  · rintro ⟨r', hr', hid⟩
    rcases h.back r' hr' with ⟨r, hr, hk⟩ | ⟨hseq, -⟩
    · exact ⟨r, hr, hk.1.symm.trans hid⟩
    · have := hi.seq
      omega
  · rintro ⟨r, hr, hid⟩
    obtain ⟨r', hr', hk⟩ := h.forth r hr
    exact ⟨r', hr', hk.1.trans hid⟩

theorem FilesGrow.inv (h : FilesGrow new s t) (hi : DocumentInv u d path s)
    (hnew : ∀ r, new r → r.isPersonalAt u path = true → ¬ HasRow d s)
    (howned : ∀ pt ∈ t.documents, pt.sharedOf d = true → pt.userId = u)
    (hlocks : t.locks = s.locks) : DocumentInv u d path t := by
  refine ⟨fun r' hr' hid => ?_, fun hrow r' hr' hp => ?_,
    Nat.lt_of_lt_of_le hi.seq h.seq, howned, ?_⟩
  · rcases h.back r' hr' with ⟨r, hr, h1, h2, h3, h4, h5⟩ | ⟨hseq, -⟩
    · rw [h2, h3, h4, h5]
      exact hi.row r hr (h1.symm.trans hid)
    · have := hi.seq
      omega
  · have hrow' := (h.hasRow hi).mp hrow
    rcases h.back r' hr' with ⟨r, hr, hk⟩ | ⟨-, hn⟩
    · rw [hk.1]
      exact hi.unique hrow' r hr (by rw [← isPersonalAt_congr hk]; exact hp)
    · exact absurd hrow' (hnew r' hn hp)
  · rw [hlocks]; exact hi.single

end Grow

/-- A call of a mirroring of document `k` of the owner. -/
structure Mirroring (u : String) (k : Nat) (s t : Store) : Prop where
  files : FilesGrow (fun r => r.scope = .shared) s t
  locks : t.locks = s.locks
  txn : t.openTxn = s.openTxn
  points : ∀ pt ∈ t.documents, pt ∈ s.documents ∨
    (pt.scope = some .shared ∧ pt.userId = u ∧ pt.publishedFrom = some k)

theorem Mirroring.of_benign {k : Nat} (s t : Store) (h : Benign s t) : Mirroring u k s t :=
  ⟨.of_eq h.files h.seq, h.locks, h.txn, fun pt hpt => .inl (h.points pt hpt)⟩

theorem Mirroring.inv {k : Nat} {s t : Store} (h : Mirroring u k s t)
    (hi : DocumentInv u d path s) : DocumentInv u d path t := by
  refine h.files.inv hi (fun r hr hp => ?_) (fun pt hpt hs => ?_) h.locks
  · simp [FileRow.isPersonalAt, hr] at hp
  · exact (h.points pt hpt).elim (fun hm => hi.owned pt hm hs) fun hn => hn.2.1

theorem Mirroring.hasChunk {k : Nat} {s t : Store} (h : Mirroring u k s t)
    (hc : HasChunk u path t) : HasChunk u path s := by
  obtain ⟨pt, hpt, ho, hsc⟩ := hc
  rcases h.points pt hpt with hm | ⟨hsh, -, -⟩
  · exact ⟨pt, hm, ho, hsc⟩
  · rw [hsc] at hsh
    cases hsh

theorem Mirroring.move {k : Nat} {s t : Store} {γ : Bool} (h : Mirroring u k s t)
    (hp : p ≠ .purge) (hi : DocumentInv u d path s) (hk : k = d → HasRow d s) :
    PartyMove u d path p (s, γ) (t, γ) where
  inv := h.inv hi
  row_new := (h.files.hasRow hi).mp
  row_kept _ := (h.files.hasRow hi).mpr
  locks _ _ := by unfold HoldsLockOf; rw [h.locks]
  points pt hpt hs := by
    refine (h.points pt hpt).imp_right fun hn => hk ?_
    simp only [DocPoint.sharedOf, Bool.and_eq_true, beq_iff_eq] at hs
    exact Option.some.inj (hn.2.2.symm.trans hs.1)
  chunks _ := h.hasChunk
  rows _ := by
    rintro ⟨r', hr', hp⟩
    rcases h.files.back r' hr' with ⟨r, hr, hk⟩ | ⟨-, hn⟩
    · exact ⟨r, hr, by rw [← isPersonalAt_congr hk]; exact hp⟩
    · simp [FileRow.isPersonalAt, hn] at hp
  read := .inl rfl
  txn _ := h.txn
  retained h := absurd h hp

/-! ### Programs that mirror -/

theorem upsertFileProjection_grow {row r : FileRow} {src : Nat} {s : Store} {db : Db}
    (hid : row.id = s.db.fileIndexSeq) (hsc : row.scope = .shared)
    (h : s.db.upsertFileProjection row src = .ok (r, db)) :
    FilesGrow (fun r => r.scope = .shared) s { s with db := db } := by
  simp only [Db.upsertFileProjection] at h
  split at h
  · cases h
    refine .of_update ?_ rfl (Nat.le_succ _)
    exact fun r => ⟨rfl, rfl, rfl, rfl, rfl⟩
  · split at h
    · cases h
      exact .of_insert hid hsc rfl (Nat.le_succ _)
    · cases h

theorem benign_select {α : Type} (f : Db → α) : Always Benign (select f) :=
  always_select Benign.refl

theorem benign_deleteDocuments (q : DocPoint → Bool) : Always Benign (deleteDocuments q) :=
  always_act fun _ => ⟨rfl, rfl, rfl, rfl, fun _ h => Table.mem_of_mem_deleteWhere h⟩

theorem benign_unprojectFileChunks (src : Nat) (owner : String) (sc : Scope) :
    Always Benign (unprojectFileChunks src owner sc) := by
  unfold unprojectFileChunks
  split
  · trivial
  · exact benign_deleteDocuments _

theorem projectFileChunk_mirrors (src : FileRow) (n : Nat × Nat) (pt : DocPoint) :
    Always (Mirroring src.userId src.id) (projectFileChunk env src .shared n pt) := by
  have hrefl : ∀ s, Mirroring src.userId src.id s s := fun s => .of_benign s s (.refl s)
  unfold projectFileChunk
  split
  · trivial
  · refine Always.bind (chunkVector_frame hrefl env pt) fun v => ?_
    cases v with
    | none => trivial
    | some v =>
      cases pt.chunkIndex with
      | none => trivial
      | some ix =>
        have hup : Always (Mirroring src.userId src.id)
            (upsertDocument (chunkProjection env src .shared ix v pt)) := by
          refine always_act fun s => ⟨.of_eq rfl rfl, rfl, rfl, fun x hx => ?_⟩
          refine (Table.mem_upsert.mp hx).imp And.left ?_
          rintro rfl
          exact ⟨rfl, rfl, rfl⟩
        refine Always.bind hup.attempt fun r => ?_
        cases r <;> trivial

theorem projectFileChunks_mirrors (src : FileRow) :
    Always (Mirroring src.userId src.id) (projectFileChunks env src .shared) := by
  unfold projectFileChunks
  split
  · trivial
  · exact Always.bind (always_query fun s => .of_benign s s (.refl s)) fun chunks =>
      Always.foldM (fun n pt _ => projectFileChunk_mirrors src n pt) _

theorem projectFileWithStatus_mirrors (src : FileRow) (actor : String) :
    Always (Mirroring src.userId src.id) (projectFileWithStatus env src .shared actor) := by
  refine Always.bind (validateTargetScope_frame .shared) fun _ => ?_
  split
  · trivial
  · refine Always.bind ?_ fun row => Always.bind ?_ fun _ => Always.bind
      (projectFileChunks_mirrors src) fun n => trivial
    · refine always_statementE (fun s => .of_benign s s (.refl s)) fun s a db h => ?_
      exact ⟨upsertFileProjection_grow rfl rfl h, rfl, rfl, fun _ h => .inl h⟩
    · split
      · exact (benign_unprojectFileChunks _ _ _).mono Mirroring.of_benign
      · trivial

theorem cascade_benign (src : FileRow) (actor : String) :
    Always Benign (cascadeShareDocumentEntities env src actor .shared) :=
  (cascadeShareDocumentEntities_frame env src actor .shared).mono Benign.of_entityArm

/-! ### Deleted rows -/

theorem deleteFiles_subset {q : FileRow → Bool} {db : Db} {r : FileRow}
    (h : r ∈ (db.deleteFiles q).fileIndex) : r ∈ db.fileIndex := Table.mem_of_mem_deleteWhere h

/-- What is published is never the document's own row, so only `q` itself can take that away. -/
theorem deleteFiles_keeps {q : FileRow → Bool} {s : Store} (hi : DocumentInv u d path s)
    (hq : ∀ r ∈ s.db.fileIndex, r.id = d → q r = false) (hrow : HasRow d s) :
    HasRow d { s with db := s.db.deleteFiles q } := by
  obtain ⟨r, hr, hid⟩ := hrow
  refine ⟨r, Table.mem_deleteWhere.mpr ⟨hr, ?_⟩, hid⟩
  obtain ⟨-, -, -, hpf⟩ := hi.row r hr hid
  simp [hq r hr hid, hpf]

theorem inv_of_deleteFiles {q : FileRow → Bool} {s : Store} (hi : DocumentInv u d path s) :
    DocumentInv u d path { s with db := s.db.deleteFiles q } where
  row r hr := hi.row r (deleteFiles_subset hr)
  unique h r hr := by
    obtain ⟨r', hr', hid⟩ := h
    exact hi.unique ⟨r', deleteFiles_subset hr', hid⟩ r (deleteFiles_subset hr)
  seq := hi.seq
  owned := hi.owned
  single := hi.single

theorem deleteFiles_move {q : FileRow → Bool} {s : Store} {γ : Bool} (hi : DocumentInv u d path s)
    (hq : (∀ r ∈ s.db.fileIndex, r.id = d → q r = false) ∨ (p = .purge ∧ HoldsLockOf d .purge s)) :
    PartyMove u d path p (s, γ) ({ s with db := s.db.deleteFiles q }, γ) where
  inv := inv_of_deleteFiles hi
  row_new h := by
    obtain ⟨r, hr, hid⟩ := h
    exact ⟨r, deleteFiles_subset hr, hid⟩
  row_kept hp hrow := by
    refine hq.elim (fun h => deleteFiles_keeps hi h hrow) fun ⟨hpurge, hheld⟩ => ?_
    subst hpurge
    obtain ⟨q', hne, hq'⟩ := hp.resolve_left fun h => h rfl
    exact absurd (Party.session_inj (hi.single _ _ hq' hheld)) hne
  locks _ _ := Iff.rfl
  points _ hpt _ := .inl hpt
  chunks _ h := h
  rows _ h := by
    obtain ⟨r, hr, hp⟩ := h
    exact ⟨r, deleteFiles_subset hr, hp⟩
  read := .inl rfl
  txn _ := rfl
  retained _ _ hr := by
    rcases hq with h | ⟨-, hheld⟩
    · rcases hr with hrow | hrest
      · exact .inl (deleteFiles_keeps hi h hrow)
      · exact .inr hrest
    · exact .inr (.inr hheld)

/-! ## The share job -/

theorem sat_select {α : Type} {f : Db → α} {P : Watched → Prop} {Q : α → Watched → Prop}
    (hst : Stable (PartyR u d path p) P) (hinv : ∀ x, P x → DocumentInv u d path x.1)
    (hQ : ∀ a, Stable (PartyR u d path p) (Q a)) (h : ∀ x, P x → Q (f x.1.db) x) {x : Watched}
    (hx : P x) : SatParty u d path p (okPost Q) (select f).lift x := by
  intro y hy _ _
  have hp := hst.rtc hy hx
  exact ⟨fun hi => (Benign.refl y.1).move hi y.2, fun z hz => (hQ _).rtc hz (h y hp)⟩

theorem benign_progress (jobId : Nat) (stage : Stage) (msg : Option String) :
    Always Benign (updateIngestJobProgress jobId u stage msg) :=
  (updateIngestJobProgress_frame jobId u stage msg).mono Benign.of_jobArm

theorem holdsLock_acquired {s : Store} {γ : Bool} (hi : DocumentInv u d path s)
    (hfree : s.lockFree (advisoryKey2 d) = true) {y : Watched}
    (hy : ReflTransGen (PartyR u d path p)
      ({ s with locks := (advisoryKey2 d, p.session) :: s.locks }, γ) y) :
    HoldsLock u d path p y :=
  holdsLock_stable.rtc hy ⟨(acquire_move (γ := γ) hi hfree).inv, List.mem_cons_self⟩

theorem isSource_id {r : FileRow} (h : r.isSource u d = true) : r.id = d ∧ r.userId = u := by
  simp only [FileRow.isSource, Bool.and_eq_true, beq_iff_eq] at h
  exact h.1

theorem sat_mirroring {α : Type} {prog : M α} (hp : p ≠ .purge) (ha : Always (Mirroring u d) prog)
    {x : Watched} (hx : HoldsRow u d path p x) :
    SatParty u d path p (fun _ => HoldsRow u d path p) prog.lift x := by
  refine sat_always ha holdsRow_stable (fun s t γ hs h => h.move hp hs.inv fun _ => hs.row)
    (fun s t γ hs h => ⟨h.inv hs.inv, ?_, (h.files.hasRow hs.inv).mpr hs.row⟩) hx
  have hheld := hs.holds
  unfold HoldsLockOf at hheld ⊢
  rw [h.locks]
  exact hheld

/-- What holds once the shared document's row has been looked up. -/
def LookedUp (u : String) (d : Nat) (path : String) (src : Option FileRow) (y : Watched) : Prop :=
  match src with
  | none => HoldsLock u d path .share y
  | some r => HoldsRow u d path .share y ∧ r.isSource u d = true

theorem sat_shareLocked (jobId : Nat) {x : Watched} (hx : HoldsLock u d path .share x) :
    SatParty u d path .share (fun _ => Calm u d path) (shareLocked env u d jobId).lift x := by
  rw [shareLocked, lift_bind]
  refine Sat.bind_ok (P := LookedUp u d path) (sat_select holdsLock_stable (fun _ h => h.inv) ?_ ?_ hx)
    fun src y hy => ?_
  · intro src
    cases src with
    | none => exact holdsLock_stable
    | some r => exact holdsRow_stable.and (stable_const _)
  · intro y hy
    show LookedUp u d path (y.1.db.fileIndex.find? (FileRow.isSource u d)) y
    cases hf : y.1.db.fileIndex.find? (FileRow.isSource u d) with
    | none => exact hy
    | some r =>
      have hr := List.find?_some hf
      exact ⟨⟨hy.inv, hy.holds, r, List.mem_of_find?_eq_some hf, (isSource_id hr).1⟩, hr⟩
  · cases src with
    | none =>
      have ha : Always Benign (do
          updateIngestJobProgress jobId u .done (some "No longer shareable")
          pure none : M (Option (Nat × Nat))) := (benign_progress _ _ _).bind fun _ => trivial
      exact sat_benign ha calm_stable (fun _ h => h) hy.inv
    | some r =>
      obtain ⟨hrow, hr⟩ := hy
      obtain ⟨hid, hu⟩ := isSource_id hr
      have ha : Always (Mirroring u d) (do
          let n ← projectFileWithStatus env r .shared u
          let ent ← cascadeShareDocumentEntities env r u .shared
          pure (some (n.2.1 + ent.1, n.2.2 + ent.2)) : M (Option (Nat × Nat))) := by
        have hproj : Always (Mirroring r.userId r.id) (projectFileWithStatus env r .shared u) :=
          projectFileWithStatus_mirrors r u
        rw [hid, hu] at hproj
        exact hproj.bind fun n => ((cascade_benign r u).mono Mirroring.of_benign).bind
          fun ent => trivial
      exact (sat_mirroring (by decide) ha hrow).mono fun _ _ h => h.inv

theorem sat_handleShare (jobId : Nat) {x : Watched} (hx : Calm u d path x) :
    SatParty u d path .share (fun _ => Calm u d path)
      (handleShare env Party.share.session u d jobId).lift x := by
  have hquiet {α : Type} {prog : M α} (ha : Always Benign prog) {y : Watched}
      (hy : Calm u d path y) : SatParty u d path .share (fun _ => Calm u d path) prog.lift y :=
    sat_benign ha calm_stable (fun _ h => h) hy
  rw [handleShare, lift_bind]
  refine Sat.seq (hquiet (benign_select _) hx) (fun src y hy => ?_) fun _ _ h => h
  cases src with
  | none => exact hquiet (benign_progress _ _ _) hy
  | some src =>
    dsimp only
    rw [lift_bind]
    refine Sat.seq (hquiet (benign_progress _ _ _) hy) (fun _ y hy => ?_) fun _ _ h => h
    rw [lift_bind]
    refine Sat.seq ?_ (fun r y hy => ?_) fun _ _ h => h
    · exact sat_shareDocumentLock calm_stable (fun _ h => h)
        (fun s γ hs hfree y hy => holdsLock_acquired hs hfree hy) (fun y hy => sat_shareLocked jobId hy)
        (fun _ => calm_stable) (fun _ _ h => h) (fun _ _ _ h => by cases h) (fun _ _ _ _ _ h => h) hy
    · cases r with
      | none => exact hquiet (always_pure ()) hy
      | some n =>
        dsimp only
        split <;> exact hquiet (benign_progress _ _ _) hy

/-! ## The unshare job -/

theorem sat_unshareLocked (jobId : Nat) {x : Watched} (hx : Calm u d path x) :
    SatParty u d path .unshare (fun _ => Calm u d path) (unshareLocked env u d jobId).lift x := by
  let Unsharing (s t : Store) : Prop :=
    Benign s t ∨ t = { s with db := s.db.deleteFiles (FileRow.projects d .shared) }
  have hquiet {α : Type} {prog : M α} (ha : Always Benign prog) : Always Unsharing prog :=
    ha.mono fun _ _ => .inl
  have hunproject : Always Unsharing (unprojectFile env d .shared) := by
    refine Always.bind (always_statement fun s => .inr rfl) fun deleted => ?_
    cases deleted with
    | none => trivial
    | some row =>
      refine Always.bind (hquiet (benign_unprojectFileChunks _ _ _)) fun _ => ?_
      split
      · exact Always.bind
          (hquiet ((retractDocumentEntities_frame env _ _).mono Benign.of_entityArm)) fun _ => trivial
      · trivial
  have ha : Always Unsharing (unshareLocked env u d jobId) := by
    refine Always.bind (hquiet (benign_select _)) fun src => ?_
    cases src with
    | none => exact Always.bind (hquiet (benign_progress _ _ _)) fun _ => trivial
    | some src => exact Always.bind hunproject fun _ => trivial
  have hmove (s t : Store) (γ : Bool) (hi : DocumentInv u d path s) (h : Unsharing s t) :
      PartyMove u d path .unshare (s, γ) (t, γ) := by
    rcases h with hb | rfl
    · exact hb.move hi γ
    · refine deleteFiles_move hi (.inl fun r hr hid => ?_)
      obtain ⟨-, -, -, hpf⟩ := hi.row r hr hid
      simp [FileRow.projects, hpf]
  exact sat_always ha calm_stable (fun s t γ hs h => hmove s t γ hs h)
    (fun s t γ hs h => (hmove s t γ hs h).inv) hx

theorem sat_handleUnshare (jobId : Nat) {x : Watched} (hx : Calm u d path x) :
    SatParty u d path .unshare (fun _ => Calm u d path)
      (handleUnshare env Party.unshare.session u d jobId).lift x := by
  have hquiet {α : Type} {prog : M α} (ha : Always Benign prog) {y : Watched}
      (hy : Calm u d path y) : SatParty u d path .unshare (fun _ => Calm u d path) prog.lift y :=
    sat_benign ha calm_stable (fun _ h => h) hy
  rw [handleUnshare, lift_bind]
  refine Sat.seq (hquiet (benign_select _) hx) (fun src y hy => ?_) fun _ _ h => h
  cases src with
  | none => exact hquiet (benign_progress _ _ _) hy
  | some src =>
    dsimp only
    rw [lift_bind]
    refine Sat.seq (hquiet (benign_progress _ _ _) hy) (fun _ y hy => ?_) fun _ _ h => h
    rw [lift_bind]
    refine Sat.seq ?_ (fun r y hy => ?_) fun _ _ h => h
    · exact sat_shareDocumentLock (A := Calm u d path) calm_stable (fun _ h => h)
        (fun s γ hs hfree y hy => (holdsLock_acquired hs hfree hy).inv)
        (fun y hy => sat_unshareLocked jobId hy)
        (fun _ => calm_stable) (fun _ _ h => h) (fun _ _ _ h => by cases h) (fun _ _ _ _ _ h => h) hy
    · cases r with
      | false => exact hquiet (always_pure ()) hy
      | true => exact hquiet (benign_progress _ _ _) hy

/-! ## The ingest -/

/-- A call of `ingest_file` on the path. -/
structure Ingesting (u path : String) (s t : Store) : Prop where
  files : FilesGrow (fun _ => ∀ r ∈ s.db.fileIndex,
    ¬ (r.userId = u ∧ r.filePath = path ∧ r.publishedFrom = none)) s t
  locks : t.locks = s.locks
  txn : t.openTxn = s.openTxn
  points : ∀ pt ∈ t.documents, pt ∈ s.documents ∨ pt.scope = some .personal

theorem Ingesting.of_benign (s t : Store) (h : Benign s t) : Ingesting u path s t :=
  ⟨.of_eq h.files h.seq, h.locks, h.txn, fun pt hpt => .inl (h.points pt hpt)⟩

theorem Ingesting.refl (s : Store) : Ingesting u path s s := .of_benign s s (.refl s)

theorem not_sharedOf_of_personal {pt : DocPoint} (h : pt.scope = some .personal) :
    pt.sharedOf d = false := by
  simp [DocPoint.sharedOf, h]

theorem Ingesting.inv {s t : Store} (h : Ingesting u path s t) (hi : DocumentInv u d path s) :
    DocumentInv u d path t := by
  refine h.files.inv hi (fun _ hno _ hrow => ?_) (fun pt hpt hs => ?_) h.locks
  · obtain ⟨r, hr, hid⟩ := hrow
    obtain ⟨hu, hp, -, hpf⟩ := hi.row r hr hid
    exact hno r hr ⟨hu, hp, hpf⟩
  · refine (h.points pt hpt).elim (fun hm => hi.owned pt hm hs) fun hn => ?_
    rw [not_sharedOf_of_personal hn] at hs
    cases hs

theorem Ingesting.move {s t : Store} (h : Ingesting u path s t) (hi : DocumentInv u d path s) :
    PartyMove u d path .ingest (s, false) (t, false) where
  inv := h.inv hi
  row_new := (h.files.hasRow hi).mp
  row_kept _ := (h.files.hasRow hi).mpr
  locks _ _ := by unfold HoldsLockOf; rw [h.locks]
  points pt hpt hs := by
    refine (h.points pt hpt).imp_right fun hn => ?_
    rw [not_sharedOf_of_personal hn] at hs
    cases hs
  chunks hp := hp.elim (fun h => absurd rfl h) fun h => by cases h
  rows hp := hp.elim (fun h => absurd rfl h) fun h => by cases h
  read := .inl rfl
  txn _ := h.txn
  retained h := by cases h

theorem deleteChunkPoint_benign (filePath : String) (i : Nat) :
    Always Benign (deleteChunkPoint env u filePath i) :=
  (benign_deleteDocuments _).attempt.bind fun _ => trivial

theorem ingestChunkedText_ingests (ext text : String) (chunks : List String) :
    Always (Ingesting u path) (ingestChunkedText env u path ext text chunks) := by
  refine Always.bind (Always.foldM (fun n c _ => ?_) _) fun rows => ?_
  · unfold sanitiseChunk
    split
    · exact Always.bind ((deleteChunkPoint_benign _ _).mono Ingesting.of_benign) fun _ => trivial
    · trivial
  · refine Always.bind ?_ fun vectors => ?_
    · split
      · trivial
      · exact always_query Ingesting.refl
    · refine Always.bind (Always.forEach fun r _ => always_act fun s => ?_) fun _ => trivial
      refine ⟨.of_eq rfl rfl, rfl, rfl, fun x hx => ?_⟩
      refine (Table.mem_upsert.mp hx).imp And.left ?_
      rintro rfl
      rfl

theorem upsertFile_grow {hash ext : String} {n : Nat} {a : Unit} {s : Store} {db : Db}
    (h : s.db.upsertFile path hash ext n u = .ok (a, db)) :
    FilesGrow (fun _ => ∀ r ∈ s.db.fileIndex,
      ¬ (r.userId = u ∧ r.filePath = path ∧ r.publishedFrom = none)) s { s with db := db } := by
  simp only [Db.upsertFile] at h
  split at h
  · cases h
    refine .of_update ?_ rfl (Nat.le_succ _)
    exact fun r => ⟨rfl, rfl, rfl, rfl, rfl⟩
  · rename_i hno
    split at h
    · cases h
    · cases h
      refine .of_insert rfl (fun r hr hsrc => hno ?_) rfl (Nat.le_succ _)
      exact List.any_eq_true.mpr ⟨r, hr, by simp [hsrc.1, hsrc.2.1, hsrc.2.2]⟩

theorem updateFileRow_ingests {f : FileRow → FileRow} (hf : ∀ r, (f r).SameKey r) :
    Always (Ingesting u path) (updateFileRow u path f) :=
  always_execute fun s => ⟨.of_update hf rfl (Nat.le_refl _), rfl, rfl, fun _ h => .inl h⟩

theorem ingestFile_ingests (env : Env) (file : SourceFile) (force : Bool) {report : Stage → M Unit}
    (hreport : ∀ stage, Always Benign (report stage)) :
    Always (Ingesting u file.path) (ingestFile env file u force (some report)) := by
  have hprogress (stage : Stage) :
      Always (Ingesting u file.path) (reportProgress (some report) stage) :=
    (hreport stage).mono Ingesting.of_benign
  unfold ingestFile
  split
  · trivial
  split
  · refine Always.bind (always_select Ingesting.refl) fun existing => ?_
    split
    · trivial
    refine Always.bind ?_ fun _ => Always.bind (hprogress _) fun _ => ?_
    · refine Always.bind ((benign_deleteDocuments _).mono Ingesting.of_benign) fun _ => ?_
      exact Always.forEach fun i _ => (deleteChunkPoint_benign _ _).mono Ingesting.of_benign
    · split
      · trivial
      refine Always.bind (hprogress _) fun _ => ?_
      split
      · split
        · exact Always.bind (updateFileRow_ingests fun r => ⟨rfl, rfl, rfl, rfl, rfl⟩)
            fun _ => trivial
        · trivial
      · refine Always.bind (hprogress _) fun _ =>
          Always.bind (ingestChunkedText_ingests _ _ _) fun n => ?_
        refine Always.bind ?_ fun _ => Always.bind ?_ fun _ => Always.bind
          ((emitDocumentEntities_frame env file u).mono fun s t h =>
            .of_benign s t (.of_entityArm s t h)) fun _ => trivial
        · split
          · split
            · exact updateFileRow_ingests fun r => ⟨rfl, rfl, rfl, rfl, rfl⟩
            · trivial
          · exact always_statementE Ingesting.refl fun s a db h =>
              ⟨upsertFile_grow h, rfl, rfl, fun _ h => .inl h⟩
        · split
          · exact hprogress _
          · trivial
  · trivial

/-! ### The re-projection -/

/-- The ingest has not read the document's row. -/
def Unread (u : String) (d : Nat) (path : String) (x : Watched) : Prop :=
  DocumentInv u d path x.1 ∧ x.2 = false

/-- The ingest has read it, and may wait for the lock. -/
def Read (u : String) (d : Nat) (path : String) (x : Watched) : Prop :=
  DocumentInv u d path x.1 ∧ x.2 = true ∧ Retained u d path x.1

/-- The ingest has read the row, and there is nothing to mirror. -/
def NothingLeft (u : String) (d : Nat) (path : String) (x : Watched) : Prop :=
  DocumentInv u d path x.1 ∧ ¬ HasChunk u path x.1

theorem PartyMove.same_read {q : Party} {x y : Watched} (h : PartyMove u d path q x y)
    (hq : q ≠ .ingest) : y.2 = x.2 := h.read.resolve_right fun hr => hq hr.1

theorem unread_stable : Stable (PartyR u d path .ingest) (Unread u d path) :=
  stable_of_move (fun _ h => h.1) fun _ _ _ hq hm h => ⟨hm.inv, (hm.same_read hq).trans h.2⟩

theorem read_stable : Stable (PartyR u d path .ingest) (Read u d path) :=
  stable_of_move (fun _ h => h.1) fun _ _ _ hq hm h =>
    ⟨hm.inv, (hm.same_read hq).trans h.2.1, hm.stays h.2.2 h.2.1⟩

theorem nothingLeft_stable : Stable (PartyR u d path .ingest) (NothingLeft u d path) :=
  stable_of_move (fun _ h => h.1) fun _ _ _ hq hm h =>
    ⟨hm.inv, fun hc => h.2 (hm.chunks (.inl hq) hc)⟩

theorem projectFileChunks_none {src : FileRow} {chunks : List DocPoint} (n : Nat × Nat)
    (h : ∀ pt ∈ chunks, pt.scope ≠ some .personal) :
    foldM (projectFileChunk env src .shared) n chunks = .ret n := by
  induction chunks with
  | nil => rfl
  | cons pt chunks ih =>
    have hpt : projectFileChunk env src .shared n pt = .ret n :=
      if_pos (h pt (by simp))
    rw [foldM, hpt]
    exact ih fun x hx => h x (by simp [hx])

theorem sat_projectFileChunks_nothing {src : FileRow} (hu : src.userId = u)
    (hpath : src.filePath = path) {x : Watched} (hx : NothingLeft u d path x) :
    SatParty u d path .ingest (fun _ => NothingLeft u d path)
      (projectFileChunks env src .shared).lift x := by
  unfold projectFileChunks
  split
  · exact fun y hy => nothingLeft_stable.rtc hy hx
  · rw [lift_bind, hu, hpath]
    refine Sat.bind_ok (P := fun chunks y => NothingLeft u d path y ∧
      ∀ pt ∈ chunks, pt.scope ≠ some .personal) ?_ fun chunks y hy => ?_
    · intro y hy _ _
      have hn := nothingLeft_stable.rtc hy hx
      refine ⟨fun hi => (Benign.refl y.1).move hi y.2, fun z hz =>
        ⟨nothingLeft_stable.rtc hz hn, fun pt hpt hsc => hn.2 ?_⟩⟩
      obtain ⟨hm, ho⟩ := List.mem_filter.mp hpt
      exact ⟨pt, hm, ho, hsc⟩
    · rw [projectFileChunks_none _ hy.2]
      exact fun z hz => nothingLeft_stable.rtc hz hy.1

theorem reprojectLocked_mirrors (src : FileRow) (filePath : String) (removed : List String) :
    Always (Mirroring src.userId src.id) (reprojectLocked env src u filePath removed) := by
  refine Always.bind (((retractRemovedEntitiesOnReingest_frame env _ _ _).mono
    Benign.of_entityArm).mono Mirroring.of_benign) fun _ => ?_
  refine Always.bind ((benign_unprojectFileChunks _ _ _).mono Mirroring.of_benign) fun _ => ?_
  exact Always.bind (projectFileChunks_mirrors src) fun _ =>
    Always.bind ((cascade_benign src u).mono Mirroring.of_benign) fun _ => trivial

theorem isPersonalAt_columns {r : FileRow} {filePath : String}
    (h : r.isPersonalAt u filePath = true) : r.userId = u ∧ r.filePath = filePath := by
  simp only [FileRow.isPersonalAt, Bool.and_eq_true, beq_iff_eq] at h
  exact h.1

theorem sat_reprojectLocked {src : FileRow} {removed : List String}
    (hsrc : src.isPersonalAt u path = true) (hid : src.id = d) {x : Watched}
    (hx : HoldsLock u d path .ingest x) (hleft : HasRow d x.1 ∨ ¬ HasChunk u path x.1) :
    SatParty u d path .ingest (fun _ => Calm u d path)
      (reprojectLocked env src u path removed).lift x := by
  obtain ⟨hu, hpath⟩ := isPersonalAt_columns hsrc
  rcases hleft with hrow | hnone
  · have ha : Always (Mirroring src.userId src.id) (reprojectLocked env src u path removed) :=
      reprojectLocked_mirrors src path removed
    rw [hu, hid] at ha
    exact (sat_mirroring (by decide) ha ⟨hx.inv, hx.holds, hrow⟩).mono fun _ _ h => h.inv
  · have hquiet {α : Type} {prog : M α} (ha : Always Benign prog) {y : Watched}
        (hy : NothingLeft u d path y) :
        SatParty u d path .ingest (fun _ => NothingLeft u d path) prog.lift y :=
      sat_benign ha nothingLeft_stable (fun _ h => h.1) hy
    have hretract := (retractRemovedEntitiesOnReingest_frame env path u removed).mono
      Benign.of_entityArm
    rw [reprojectLocked, lift_bind]
    refine Sat.seq (hquiet hretract ⟨hx.inv, hnone⟩) (fun _ y hy => ?_) fun _ _ h => h.1
    rw [lift_bind]
    refine Sat.seq (hquiet (benign_unprojectFileChunks _ _ _) hy) (fun _ y hy => ?_)
      fun _ _ h => h.1
    rw [lift_bind]
    refine Sat.seq (sat_projectFileChunks_nothing hu hpath hy) (fun _ y hy => ?_)
      fun _ _ h => h.1
    exact (hquiet ((cascade_benign src u).bind fun _ => always_pure ()) hy).mono fun _ _ h => h.1

/-- `reproject_shared_on_reingest` once it has read the row. -/
def reprojectFrom (env : Env) (sess : Nat) (userId filePath : String) (removed : List String)
    (src : FileRow) : M Unit := do
  let shared ← select fun db => db.fileIndex.any fun r => r.projects src.id .shared && r.userId == userId
  if shared then
    (shareDocumentLock sess src.id (reprojectLocked env src userId filePath removed)).tryCatch
      fun _ => pure ()
  else
    pure ()

theorem sat_reprojectFrom {src : FileRow} {filePath : String} {removed : List String}
    {P A : Watched → Prop} (hP : Stable (PartyR u d path .ingest) P)
    (hPinv : ∀ x, P x → DocumentInv u d path x.1)
    (hA : ∀ (s : Store) γ, P (s, γ) → s.lockFree (advisoryKey2 src.id) = true →
      ∀ y, ReflTransGen (PartyR u d path .ingest)
        ({ s with locks := (advisoryKey2 src.id, Party.ingest.session) :: s.locks }, γ) y → A y)
    (hbody : ∀ x, A x → SatParty u d path .ingest (fun _ => Calm u d path)
      (reprojectLocked env src u filePath removed).lift x) {x : Watched} (hx : P x) :
    SatParty u d path .ingest (fun _ => Calm u d path)
      (reprojectFrom env Party.ingest.session u filePath removed src).lift x := by
  rw [reprojectFrom, lift_bind]
  refine Sat.seq (sat_benign (benign_select _) hP hPinv hx) (fun shared y hy => ?_)
    fun _ y h => hPinv y h
  cases shared with
  | false => exact fun z hz => calm_stable.rtc hz (hPinv y hy)
  | true =>
    simp only [if_true]
    rw [Prog.tryCatch, lift_bind, lift_attempt]
    have hlock := sat_shareDocumentLock (B := fun _ => Calm u d path) hP hPinv hA hbody
      (fun _ => calm_stable) (fun _ _ h => h) (fun _ _ _ h => by cases h) (fun _ _ _ _ _ h => h) hy
    refine Sat.bind_ok (P := fun _ => Calm u d path) (Sat.attempt hlock) fun r z hz => ?_
    cases r <;> exact fun w hw => calm_stable.rtc hw hz

theorem sat_reprojectFrom_document {src : FileRow} {removed : List String}
    (hsrc : src.isPersonalAt u path = true) (hid : src.id = d) {x : Watched}
    (hx : Read u d path x) : SatParty u d path .ingest (fun _ => Calm u d path)
      (reprojectFrom env Party.ingest.session u path removed src).lift x := by
  let A (y : Watched) : Prop :=
    HoldsLock u d path .ingest y ∧ (HasRow d y.1 ∨ ¬ HasChunk u path y.1)
  refine sat_reprojectFrom (A := A) read_stable (fun _ h => h.1) (fun s γ hs hfree y hy => ?_)
    (fun y hy => sat_reprojectLocked hsrc hid hy.1 hy.2) hx
  rw [hid] at hfree hy
  have hheld := holdsLock_acquired hs.1 hfree .refl (γ := γ) (p := .ingest)
  -- the lock is free, so the purge does not have it
  have hleft : HasRow d s ∨ ¬ HasChunk u path s := by
    rcases hs.2.2 with hrow | hchunk | hpurge
    · exact .inl hrow
    · exact .inr hchunk
    · exact absurd hpurge (lockFree_iff.mp hfree _)
  have hrow : HoldsRow u d path .ingest
      ({ s with locks := (advisoryKey2 d, Party.ingest.session) :: s.locks }, γ) → A y :=
    fun h => by
      have hy' := holdsRow_stable.rtc hy h
      exact ⟨⟨hy'.inv, hy'.holds⟩, .inl hy'.row⟩
  rcases hleft with h | h
  · exact hrow ⟨hheld.inv, hheld.holds, h⟩
  · have hy' := (holdsLock_stable.and nothingLeft_stable).rtc hy ⟨hheld, hheld.inv, h⟩
    exact ⟨hy'.1, .inr hy'.2.2⟩

theorem sat_reprojectFrom_other {src : FileRow} {filePath : String} {removed : List String}
    (hu : src.userId = u) (hid : src.id ≠ d) {x : Watched} (hx : Calm u d path x) :
    SatParty u d path .ingest (fun _ => Calm u d path)
      (reprojectFrom env Party.ingest.session u filePath removed src).lift x := by
  refine sat_reprojectFrom (A := Calm u d path) calm_stable (fun _ h => h)
    (fun s γ hs hfree y hy => calm_stable.rtc hy (acquire_move (γ := γ) hs hfree).inv)
    (fun y hy => ?_) hx
  have ha : Always (Mirroring src.userId src.id) (reprojectLocked env src u filePath removed) :=
    reprojectLocked_mirrors src filePath removed
  rw [hu] at ha
  exact sat_always ha calm_stable (fun s t γ hs h => h.move (by decide) hs fun e => absurd e hid)
    (fun s t γ hs h => h.inv hs) hy

/-! ### The thread -/

/-- The ingest with its auxiliary state: set when the row that the re-projection reads is the
document's. -/
def watchedIngest (env : Env) (u : String) (d : Nat) (file : SourceFile) (force : Bool)
    (jobId : Nat) : Prog Watched PyErr Unit := do
  let result ← (ingestFile env file u force
    (some fun stage => updateIngestJobProgress jobId u stage none)).lift
  if result.skipped then
    pure ()
  else if u = "" ∨ result.filePath = "" then
    pure ()
  else do
    match ← (act .database fun x : Watched =>
        let src := x.1.db.fileIndex.find? (FileRow.isPersonalAt u result.filePath)
        (src, (x.1, x.2 || src.any fun r => r.id == d)) :
        Prog Watched PyErr (Option FileRow)) with
    | none => pure ()
    | some src => (reprojectFrom env Party.ingest.session u result.filePath
        result.removedDocumentEntityIds src).lift

theorem watchedIngest_erases (file : SourceFile) (force : Bool) (jobId : Nat) :
    Erases (watchedIngest env u d file force jobId)
      (handleIngestUpload env Party.ingest.session file u force jobId) := by
  refine Erases.bind (erases_lift _) fun result => ?_
  unfold reprojectSharedOnReingest
  split
  · rfl
  split
  · rfl
  refine Erases.bind (erases_act fun s a => ⟨rfl, rfl⟩) fun src => ?_
  cases src with
  | none => rfl
  | some src => exact erases_lift _

theorem sat_watchedIngest {file : SourceFile} (force : Bool) (jobId : Nat) {x : Watched}
    (hx : Unread u d file.path x) : SatParty u d file.path .ingest (fun _ => Calm u d file.path)
      (watchedIngest env u d file force jobId) x := by
  have hingest : Always (Ingesting u file.path) (ingestFile env file u force
      (some fun stage => updateIngestJobProgress jobId u stage none)) :=
    ingestFile_ingests env file force fun stage => benign_progress jobId stage none
  refine Sat.seq (P := Unread u d file.path) ?_ (fun result y hy => ?_) fun _ _ h => h.1
  · refine sat_always hingest unread_stable (fun s t γ hs h => ?_)
      (fun s t γ hs h => ⟨h.inv hs.1, hs.2⟩) hx
    obtain ⟨hi, rfl⟩ := hs
    exact h.move hi
  have hdone : SatParty u d file.path .ingest (fun _ => Calm u d file.path) (.ret ()) y :=
    fun z hz => calm_stable.rtc hz hy.1
  dsimp only
  split
  · exact hdone
  split
  · exact hdone
  let Q : Option FileRow → Watched → Prop := fun src z => match src with
    | none => Calm u d file.path z
    | some r => Calm u d file.path z ∧ r.isPersonalAt u result.filePath = true ∧
        (r.id = d → Read u d file.path z ∧ r.filePath = file.path)
  refine Sat.bind_ok (P := Q) ?_ fun src z hz => ?_
  · intro z hz _ _
    obtain ⟨s, γ⟩ := z
    obtain ⟨hi, rfl⟩ := unread_stable.rtc hz hy
    cases hf : s.db.fileIndex.find? (FileRow.isPersonalAt u result.filePath) with
    | none =>
      simp only [hf, Option.any_none, Bool.or_false]
      exact ⟨fun _ => (Benign.refl s).move hi false, fun w hw => calm_stable.rtc hw hi⟩
    | some r =>
      have hr := List.find?_some hf
      by_cases hid : r.id = d
      · have hrow : HasRow d s := ⟨r, List.mem_of_find?_eq_some hf, hid⟩
        have hpath := (hi.row r (List.mem_of_find?_eq_some hf) hid).2.1
        simp only [hf, Option.any_some, hid, beq_self_eq_true, Bool.or_true]
        refine ⟨fun _ => ?_, fun w hw => ?_⟩
        · exact
            { inv := hi, row_new := fun h => h, row_kept := fun _ h => h, locks := fun _ _ => Iff.rfl,
              points := fun _ hpt _ => .inl hpt, chunks := fun _ h => h, rows := fun _ h => h,
              read := .inr ⟨rfl, hrow⟩, txn := fun _ => rfl, retained := fun h => by cases h }
        · have hread := read_stable.rtc hw ⟨hi, rfl, .inl hrow⟩
          exact ⟨hread.1, hr, fun _ => ⟨hread, hpath⟩⟩
      · have hfalse : (r.id == d) = false := by simpa using hid
        simp only [hf, Option.any_some, hfalse, Bool.or_false]
        exact ⟨fun _ => (Benign.refl s).move hi false,
          fun w hw => ⟨calm_stable.rtc hw hi, hr, fun h => absurd h hid⟩⟩
  · cases src with
    | none => exact fun w hw => calm_stable.rtc hw hz
    | some r =>
      obtain ⟨hcalm, hr, hread⟩ := hz
      obtain ⟨hu, hpath⟩ := isPersonalAt_columns hr
      by_cases hid : r.id = d
      · obtain ⟨hz', hfile⟩ := hread hid
        rw [hfile] at hpath
        dsimp only
        rw [← hpath] at hr ⊢
        exact sat_reprojectFrom_document hr hid hz'
      · exact sat_reprojectFrom_other hu hid hcalm

/-! ## The purge -/

/-- Before the purge takes the lock. -/
def Intact (u : String) (d : Nat) (path : String) (x : Watched) : Prop :=
  DocumentInv u d path x.1 ∧ HasRow d x.1 ∧ x.1.openTxn = none

/-- The purge has the lock and has deleted the row. If the ingest read it before, the path has no
row any more. -/
structure RowGone (u : String) (d : Nat) (path : String) (x : Watched) : Prop where
  held : HoldsLock u d path .purge x
  gone : ¬ HasRow d x.1
  path_gone : x.2 = true → ¬ HasRowAt u path x.1

/-- The chunks are gone as well. Nobody brings them back without the row. -/
structure Purged (u : String) (d : Nat) (path : String) (x : Watched) : Prop where
  inv : DocumentInv u d path x.1
  gone : ¬ HasRow d x.1
  chunks : x.2 = true → ¬ HasChunk u path x.1
  points : ∀ pt ∈ x.1.documents, pt.sharedOf d = false

theorem intact_stable : Stable (PartyR u d path .purge) (Intact u d path) :=
  stable_of_move (fun _ h => h.1) fun _ _ _ hq hm h =>
    ⟨hm.inv, hm.row_kept (.inl hq) h.2.1, (hm.txn hq).trans h.2.2⟩

theorem PartyMove.read_gone {q : Party} {x y : Watched} (h : PartyMove u d path q x y)
    (hgone : ¬ HasRow d x.1) : y.2 = x.2 := h.read.resolve_right fun hr => hgone hr.2

theorem rowGone_stable : Stable (PartyR u d path .purge) (RowGone u d path) :=
  stable_of_move (fun _ h => h.held.inv) fun q x y hq hm h => by
    have hread := hm.read_gone h.gone
    refine ⟨⟨hm.inv, (hm.locks .purge fun e => hq e.symm).mpr h.held.holds⟩,
      fun hrow => h.gone (hm.row_new hrow), fun hy hat => ?_⟩
    rw [hread] at hy
    exact h.path_gone hy (hm.rows (.inr hy) hat)

theorem purged_stable : Stable (PartyR u d path p) (Purged u d path) :=
  stable_of_move (fun _ h => h.inv) fun q x y hq hm h => by
    have hread := hm.read_gone h.gone
    refine ⟨hm.inv, fun hrow => h.gone (hm.row_new hrow), fun hy hc => ?_, fun pt hpt => ?_⟩
    · rw [hread] at hy
      exact h.chunks hy (hm.chunks (.inr hy) hc)
    · by_contra hs
      have hs' : pt.sharedOf d = true := by simpa using hs
      rcases hm.points pt hpt hs' with hold | hrow
      · rw [h.points pt hold] at hs'
        cases hs'
      · exact h.gone hrow

theorem rowGone_of_delete {s : Store} {γ : Bool} (hheld : HoldsLockOf d .purge s)
    (hi : DocumentInv u d path s) (hrow : HasRow d s) :
    RowGone u d path ({ s with db := s.db.deleteFiles (FileRow.isSource u d) }, γ) := by
  have hkey (r : FileRow) (hr : r ∈ s.db.fileIndex) (hid : r.id = d) : r.isSource u d = true := by
    obtain ⟨hu, -, hsc, -⟩ := hi.row r hr hid
    simp [FileRow.isSource, hid, hu, hsc]
  have hnone (r : FileRow) (hr : r ∈ (s.db.deleteFiles (FileRow.isSource u d)).fileIndex) :
      r.id ≠ d := by
    intro hid
    have hq := deleteFiles_rows _ _ r hr
    rw [hkey r (deleteFiles_subset hr) hid] at hq
    cases hq
  refine ⟨⟨inv_of_deleteFiles hi, hheld⟩, ?_, fun _ => ?_⟩
  · rintro ⟨r, hr, hid⟩
    exact hnone r hr hid
  · rintro ⟨r, hr, hat⟩
    exact hnone r hr (hi.unique hrow r (deleteFiles_subset hr) hat)

theorem sat_execute {P Q : Watched → Prop} {f : Db → Db}
    (hst : Stable (PartyR u d path p) P) (hQ : Stable (PartyR u d path p) Q)
    (h : ∀ (s : Store) γ, P (s, γ) →
      PartyMove u d path p (s, γ) ({ s with db := f s.db }, γ) ∧ Q ({ s with db := f s.db }, γ))
    {x : Watched} (hx : P x) : SatParty u d path p (okPost fun _ => Q) (execute f).lift x := by
  intro y hy _ _
  obtain ⟨hm, hq⟩ := h y.1 y.2 (hst.rtc hy hx)
  exact ⟨fun _ => hm, fun z hz => hQ.rtc hz hq⟩

theorem sat_benign_execute {P : Watched → Prop} {f : Db → Db} (ha : Always Benign (execute f))
    (hst : Stable (PartyR u d path p) P) (hinv : ∀ x, P x → DocumentInv u d path x.1) {x : Watched}
    (hx : P x) : SatParty u d path p (okPost fun _ => P) (execute f).lift x :=
  sat_execute hst hst (fun s γ hp => ⟨(ha.1 s rfl).move (hinv _ hp) γ,
    hst _ _ ((ha.1 s rfl).rely γ) hp⟩) hx

theorem sat_benign_when {cond : Prop} [Decidable cond] {P : Watched → Prop} {f : Db → Db}
    (ha : Always Benign (execute f)) (hst : Stable (PartyR u d path p) P)
    (hinv : ∀ x, P x → DocumentInv u d path x.1) {x : Watched} (hx : P x) :
    SatParty u d path p (okPost fun _ => P)
      (if cond then pure () else execute f : M Unit).lift x := by
  split
  · exact fun y hy => hst.rtc hy hx
  · exact sat_benign_execute ha hst hinv hx

theorem sat_benign_select {α : Type} {P : Watched → Prop} {f : Db → α}
    (hst : Stable (PartyR u d path p) P) (hinv : ∀ x, P x → DocumentInv u d path x.1) {x : Watched}
    (hx : P x) : SatParty u d path p (okPost fun _ => P) (select f).lift x :=
  sat_select hst hinv (fun _ => hst) (fun _ h => h) hx

theorem sat_purgeRows (chunkCount : Nat) {x : Watched} (hx : HoldsRow u d path .purge x) :
    SatParty u d path .purge (okPost fun _ => RowGone u d path)
      (purgeRows u d path chunkCount).lift x := by
  have hst : Stable (PartyR u d path .purge) (HoldsRow u d path .purge) := holdsRow_stable
  have hinv (y : Watched) (h : HoldsRow u d path .purge y) : DocumentInv u d path y.1 := h.inv
  have hentities {f : Db → Db} (h : ∀ s : Store, EntityArm s { s with db := f s.db }) :
      Always Benign (execute f) := always_execute fun s => .of_entityArm _ _ (h s)
  rw [purgeRows, lift_bind]
  refine Sat.bind_ok (sat_execute hst hst (fun s γ hs => ?_) hx) fun _ y hy => ?_
  · have hkeep (r : FileRow) (hr : r ∈ s.db.fileIndex) (hid : r.id = d) :
        (r.publishedFrom == some d) = false := by
      obtain ⟨-, -, -, hpf⟩ := hs.inv.row r hr hid
      simp [hpf]
    exact ⟨deleteFiles_move hs.inv (.inl hkeep),
      inv_of_deleteFiles hs.inv, hs.holds, deleteFiles_keeps hs.inv hkeep hs.row⟩
  rw [lift_bind]
  refine Sat.bind_ok (sat_benign_select hst hinv hy) fun plan y hy => ?_
  rw [lift_bind]
  refine Sat.bind_ok (sat_benign_select hst hinv hy) fun orphans y hy => ?_
  rw [lift_bind]
  refine Sat.bind_ok (sat_benign_execute (hentities fun s => ⟨_, _, _, _, _, rfl⟩) hst hinv hy)
    fun _ y hy => ?_
  rw [lift_bind]
  refine Sat.bind_ok (sat_benign_when (hentities fun s => ⟨_, _, _, _, _, rfl⟩) hst hinv hy)
    fun _ y hy => ?_
  rw [lift_bind]
  refine Sat.bind_ok (sat_benign_when (hentities fun s => ⟨_, _, _, _, _, rfl⟩) hst hinv hy)
    fun _ y hy => ?_
  rw [lift_bind]
  refine Sat.bind_ok (sat_benign_when (hentities fun s => ⟨_, _, _, _, _, rfl⟩) hst hinv hy)
    fun _ y hy => ?_
  rw [lift_bind]
  refine Sat.bind_ok (sat_execute hst rowGone_stable (fun s γ hs =>
    ⟨deleteFiles_move hs.inv (.inr ⟨rfl, hs.holds⟩),
      rowGone_of_delete hs.holds hs.inv hs.row⟩) hy) fun _ y hy => ?_
  rw [lift_bind]
  have htomb : Always Benign (execute (Db.insertTombstone
      { userId := u, documentId := d, filePath := path, chunkCount := chunkCount,
        qdrantDeleted := false, graphDeleted := false, qdrantEntitiesDeleted := false,
        orphanEntityIds := orphans, errors := [], resolved := false })) := by
    refine always_execute fun s => ?_
    unfold Db.insertTombstone
    split <;> exact ⟨rfl, rfl, rfl, rfl, fun _ h => h⟩
  refine Sat.bind_ok (sat_benign_execute htomb rowGone_stable (fun _ h => h.held.inv) hy)
    fun _ y hy => ?_
  exact fun z hz => rowGone_stable.rtc hz hy

theorem txn_move {s : Store} {γ : Bool} {o : Option Db} (hi : DocumentInv u d path s) :
    PartyMove u d path .purge (s, γ) ({ s with openTxn := o }, γ) where
  inv := ⟨hi.row, hi.unique, hi.seq, hi.owned, hi.single⟩
  row_new h := h
  row_kept _ h := h
  locks _ _ := Iff.rfl
  points _ hpt _ := .inl hpt
  chunks _ h := h
  rows _ h := h
  read := .inl rfl
  txn h := absurd rfl h
  retained _ _ h := h

theorem HoldsRow.of_txn {s : Store} {γ : Bool} {o : Option Db}
    (h : HoldsRow u d path p (s, γ)) : HoldsRow u d path p ({ s with openTxn := o }, γ) :=
  ⟨⟨h.inv.row, h.inv.unique, h.inv.seq, h.inv.owned, h.inv.single⟩, h.holds, h.row⟩

theorem RowGone.of_txn {s : Store} {γ : Bool} {o : Option Db} (h : RowGone u d path (s, γ)) :
    RowGone u d path ({ s with openTxn := o }, γ) :=
  ⟨⟨⟨h.held.inv.row, h.held.inv.unique, h.held.inv.seq, h.held.inv.owned, h.held.inv.single⟩,
    h.held.holds⟩, h.gone, h.path_gone⟩

theorem sat_purgeTransaction (chunkCount : Nat) {x : Watched} (hx : HoldsRow u d path .purge x)
    (hidle : x.1.openTxn = none) : SatParty u d path .purge (okPost fun _ => RowGone u d path)
      (transaction (purgeRows u d path chunkCount)).lift x := by
  have hst : Stable (PartyR u d path .purge) fun y =>
      HoldsRow u d path .purge y ∧ y.1.openTxn = none := by
    rintro y z ⟨q, hq, hg⟩ ⟨hrow, hopen⟩
    exact ⟨holdsRow_stable _ _ ⟨q, hq, hg⟩ hrow, ((hg hrow.inv).txn hq).trans hopen⟩
  rw [transaction, lift_bind]
  refine Sat.bind_ok (P := fun _ => HoldsRow u d path .purge) ?_ fun _ y hy => ?_
  · rw [beginTxn, actE, lift_bind]
    intro y hy _ _
    obtain ⟨s, γ⟩ := y
    obtain ⟨hrow, hopen⟩ := hst.rtc hy ⟨hx, hidle⟩
    dsimp only at hopen
    simp only [hopen]
    refine ⟨fun hi => txn_move hi, fun z hz => ?_⟩
    exact holdsRow_stable.rtc hz hrow.of_txn
  rw [lift_bind, lift_attempt, lift_bind]
  refine Sat.bind_ok (P := fun r z => ∃ gone, r = .ok gone ∧ RowGone u d path z)
    (Sat.attempt ?_) fun r z hz => ?_
  · refine Sat.bind_ok (sat_purgeRows chunkCount hy) fun gone z hz => ?_
    rw [lift_bind]
    refine Sat.bind_ok (P := fun _ => RowGone u d path) ?_ fun _ w hw => ?_
    · intro w hw _ _
      have hgone := rowGone_stable.rtc hw hz
      exact ⟨fun hi => txn_move hi, fun v hv => rowGone_stable.rtc hv hgone.of_txn⟩
    · exact fun v hv => ⟨gone, rfl, rowGone_stable.rtc hv hw⟩
  · obtain ⟨gone, rfl, hgone⟩ := hz
    exact fun w hw => rowGone_stable.rtc hw hgone

/-! ### The store arms -/

/-- The path holds no chunk that the re-projection could still mirror. -/
def PathCleared (u : String) (d : Nat) (path : String) (x : Watched) : Prop :=
  RowGone u d path x ∧ (x.2 = true → ¬ HasChunk u path x.1)

theorem pathCleared_stable : Stable (PartyR u d path .purge) (PathCleared u d path) :=
  stable_of_move (fun _ h => h.1.held.inv) fun q x y hq hm h => by
    refine ⟨rowGone_stable _ _ ⟨q, hq, fun _ => hm⟩ h.1, fun hy hc => ?_⟩
    rw [hm.read_gone h.1.gone] at hy
    exact h.2 hy (hm.chunks (.inr hy) hc)

theorem sat_deleteDocuments {P Q : Watched → Prop} {f : DocPoint → Bool}
    (hst : Stable (PartyR u d path p) P) (hinv : ∀ x, P x → DocumentInv u d path x.1)
    (hQ : Stable (PartyR u d path p) Q)
    (h : ∀ (s : Store) γ, P (s, γ) →
      Q ({ s with documents := Table.deleteWhere f s.documents }, γ)) {x : Watched} (hx : P x) :
    SatParty u d path p (okPost fun _ => Q) (deleteDocuments f).lift x := by
  intro y hy _ _
  have hp := hst.rtc hy hx
  exact ⟨fun _ => ((benign_deleteDocuments f).1 y.1 rfl).move (hinv y hp) y.2,
    fun z hz => hQ.rtc hz (h y.1 y.2 hp)⟩

theorem pathCleared_of_benign {s t : Store} {γ : Bool} (h : Benign s t)
    (hx : PathCleared u d path (s, γ)) : PathCleared u d path (t, γ) :=
  pathCleared_stable _ _ (h.rely γ) hx

theorem sat_clearPurgedPath (chunkCount : Nat) {x : Watched} (hx : RowGone u d path x) :
    SatParty u d path .purge (okPost fun _ => PathCleared u d path)
      (clearPurgedPath env u path chunkCount).lift x := by
  rw [clearPurgedPath, lift_bind]
  refine Sat.bind_ok (P := fun _ => PathCleared u d path) ?_ fun _ y hy => ?_
  · refine sat_deleteDocuments rowGone_stable (fun _ h => h.held.inv) pathCleared_stable
      (fun s γ hs => ?_) hx
    refine ⟨rowGone_stable _ _ (((benign_deleteDocuments _).1 s rfl).rely γ) hs, fun _ hc => ?_⟩
    obtain ⟨pt, hpt, ho, -⟩ := hc
    rw [(Table.mem_deleteWhere.mp hpt).2] at ho
    cases ho
  · rw [lift_forEach]
    refine Sat.forEach pathCleared_stable hy (fun i _ z hz => ?_) fun _ h => h
    refine (sat_deleteDocuments pathCleared_stable (fun _ h => h.1.held.inv) pathCleared_stable
      (fun s γ hs => pathCleared_of_benign ((benign_deleteDocuments _).1 s rfl) hs) hz).mono
      fun r w hw => ?_
    cases r with
    | ok _ => exact hw
    | error _ => exact hw.elim

theorem sat_qdrantArm (chunkCount : Nat) {skip : Bool} {x : Watched} (hx : RowGone u d path x)
    (hskip : x.2 = true → skip = false) :
    SatParty u d path .purge (okPost fun _ => Purged u d path)
      (qdrantArm env u path chunkCount d skip).lift x := by
  rw [qdrantArm, lift_bind]
  refine Sat.bind_ok (P := fun _ => PathCleared u d path) ?_ fun _ y hy => ?_
  · cases skip with
    | true =>
      have hcleared : PathCleared u d path x := ⟨hx, fun h => by cases hskip h⟩
      exact fun y hy => pathCleared_stable.rtc hy hcleared
    | false => exact sat_clearPurgedPath chunkCount hx
  · refine sat_deleteDocuments pathCleared_stable (fun _ h => h.1.held.inv) purged_stable
      (fun s γ hs => ?_) hy
    have hb := (benign_deleteDocuments (DocPoint.projects d u .shared)).1 s rfl
    have hcleared := pathCleared_of_benign hb hs
    refine ⟨hcleared.1.held.inv, hcleared.1.gone, hcleared.2, fun pt hpt => ?_⟩
    obtain ⟨hpt, hp⟩ := Table.mem_deleteWhere.mp hpt
    by_contra hc
    have hshared : pt.sharedOf d = true := by simpa using hc
    have hu := hs.1.held.inv.owned pt hpt hshared
    simp only [DocPoint.sharedOf, Bool.and_eq_true] at hshared
    simp [DocPoint.projects, hu, hshared.1, hshared.2] at hp

theorem retryStoreArm_benign {label : String} {arm : M Unit} (h : Always Benign arm) (n : Nat) :
    Always Benign (retryStoreArm env label arm n) := by
  induction n with
  | zero => trivial
  | succ n ih =>
    refine Always.bind h.attempt fun r => ?_
    cases r with
    | ok _ => trivial
    | error _ => exact Always.bind ih fun _ => trivial

theorem unlessDone_benign {done : Bool} {arm : M (Bool × List String)} (h : Always Benign arm) :
    Always Benign (unlessDone done arm) := by
  unfold unlessDone
  split
  · trivial
  · exact h

theorem deleteEntityPoints_benign (f : EntPoint → Bool) : Always Benign (deleteEntityPoints f) :=
  (deleteEntityPoints_frame f).mono Benign.of_entityArm

theorem runGraphArm_benign (skip : Bool) : Always Benign (runGraphArm env skip) := by
  unfold runGraphArm
  split
  · trivial
  · exact retryStoreArm_benign (always_query Benign.refl) _

theorem runQdrantEntityArm_benign (ids : List String) :
    Always Benign (runQdrantEntityArm env u ids) := by
  unfold runQdrantEntityArm
  split
  · trivial
  · exact retryStoreArm_benign (Always.bind (deleteEntityPoints_benign _) fun _ =>
      deleteEntityPoints_benign _) _

theorem tombstoneUpdate_benign (result : PurgeResult) :
    Always Benign (tombstoneUpdate u d result) :=
  always_execute fun _ => ⟨rfl, rfl, rfl, rfl, fun _ h => h⟩

theorem sat_runStoreArms (chunkCount : Nat) {result : PurgeResult}
    (hresult : result.qdrantDeleted = false) {x : Watched} (hx : RowGone u d path x) :
    SatParty u d path .purge (fun _ => Purged u d path)
      (runStoreArms env u d path chunkCount result).lift x := by
  rw [runStoreArms, lift_bind]
  let Q (skip : Bool) (y : Watched) : Prop := RowGone u d path y ∧ (y.2 = true → skip = false)
  refine Sat.bind_ok (P := Q) (sat_select rowGone_stable (fun _ h => h.held.inv) ?_ ?_ hx)
    fun skip y hy => ?_
  · intro skip
    refine stable_of_move (fun _ h => h.1.held.inv) fun q y z hq hm h => ?_
    refine ⟨rowGone_stable _ _ ⟨q, hq, fun _ => hm⟩ h.1, fun hz => h.2 ?_⟩
    rw [← hm.read_gone h.1.gone]
    exact hz
  · intro y hy
    refine ⟨hy, fun hread => ?_⟩
    have hnone : y.1.db.fileIndex.find? (FileRow.isPersonalAt u path) = none := by
      refine List.find?_eq_none.mpr fun r hr hat => ?_
      exact hy.path_gone hread ⟨r, hr, hat⟩
    simp only [hnone]
  rw [lift_bind, hresult]
  refine Sat.bind_ok (P := fun _ => Purged u d path) ?_ fun qdrant y hy => ?_
  · simp only [unlessDone, Bool.false_eq_true, if_false, runQdrantArm, retryAttempts, retryStoreArm]
    rw [lift_bind, lift_attempt]
    refine Sat.bind_ok (P := fun r z => r = .ok () ∧ Purged u d path z)
      (Sat.attempt ((sat_qdrantArm chunkCount hy.1 hy.2).mono fun r z hz => ?_)) fun r z hz => ?_
    · cases r with
      | ok _ => exact ⟨rfl, hz⟩
      | error _ => exact hz.elim
    · obtain ⟨rfl, hp⟩ := hz
      exact fun w hw => purged_stable.rtc hw hp
  · refine sat_benign ?_ purged_stable (fun _ h => h.inv) hy
    exact Always.bind (unlessDone_benign (runGraphArm_benign _)) fun _ =>
      Always.bind (unlessDone_benign (runQdrantEntityArm_benign _)) fun _ =>
        Always.bind (tombstoneUpdate_benign _) fun _ => trivial

theorem sat_purgeDocumentLocked (chunkCount : Nat) {x : Watched} (hx : HoldsRow u d path .purge x)
    (hidle : x.1.openTxn = none) : SatParty u d path .purge (fun _ => Purged u d path)
      (purgeDocumentLocked env u d path chunkCount).lift x := by
  rw [purgeDocumentLocked, lift_bind, lift_attempt]
  refine Sat.bind_ok (P := fun r z => ∃ gone, r = .ok gone ∧ RowGone u d path z)
    (Sat.attempt ((sat_purgeTransaction chunkCount hx hidle).mono fun r z hz => ?_))
    fun r y hy => ?_
  · cases r with
    | ok gone => exact ⟨gone, rfl, hz⟩
    | error _ => exact hz.elim
  · obtain ⟨gone, rfl, hgone⟩ := hy
    dsimp only
    rw [lift_bind]
    refine Sat.bind_ok (P := fun _ => RowGone u d path) ?_ fun _ z hz =>
      sat_runStoreArms chunkCount rfl hz
    unfold deleteSharedEntityPoints
    split
    · exact fun z hz => rowGone_stable.rtc hz hgone
    · rw [qdrantDeleteSafe, lift_bind, lift_attempt]
      have hdelete := sat_benign (deleteEntityPoints_benign
        fun pt => pt.publishedFromAny u gone.2 && pt.scope == some .shared)
        rowGone_stable (fun _ h => h.held.inv) hgone
      refine Sat.bind_ok (P := fun _ => RowGone u d path) (Sat.attempt hdelete) fun _ z hz => ?_
      exact fun w hw => rowGone_stable.rtc hw hz

/-- What holds once the purged document's row has been looked up. -/
def LookedUpPurge (u : String) (d : Nat) (path : String) (src : Option FileRow) (y : Watched) :
    Prop :=
  match src with
  | none => False
  | some r => Intact u d path y ∧ r.filePath = path

theorem sat_purgeDocument {x : Watched} (hx : Intact u d path x) :
    SatParty u d path .purge (fun _ => Purged u d path)
      (purgeDocument env Party.purge.session u d).lift x := by
  rw [purgeDocument, lift_bind]
  refine Sat.bind_ok (P := LookedUpPurge u d path) (sat_select intact_stable (fun _ h => h.1) ?_ ?_ hx)
    fun src y hy => ?_
  · intro src
    cases src with
    | none => exact stable_const False
    | some r => exact intact_stable.and (stable_const _)
  · intro y hy
    show LookedUpPurge u d path (y.1.db.fileIndex.find? (FileRow.isSource u d)) y
    obtain ⟨r, hr, hid⟩ := hy.2.1
    obtain ⟨hu, -, hsc, -⟩ := hy.1.row r hr hid
    have hsome : (y.1.db.fileIndex.find? (FileRow.isSource u d)).isSome :=
      List.find?_isSome.mpr ⟨r, hr, by simp [FileRow.isSource, hid, hu, hsc]⟩
    obtain ⟨r', hr'⟩ := Option.isSome_iff_exists.mp hsome
    rw [hr']
    have hid' := (isSource_id (List.find?_some hr')).1
    exact ⟨hy, (hy.1.row r' (List.mem_of_find?_eq_some hr') hid').2.1⟩
  · cases src with
    | none => exact hy.elim
    | some r =>
      obtain ⟨hintact, hpath⟩ := hy
      dsimp only
      rw [hpath]
      refine sat_shareDocumentLock
        (A := fun y => HoldsRow u d path .purge y ∧ y.1.openTxn = none)
        intact_stable (fun _ h => h.1) (fun s γ hs hfree y hy => ?_)
        (fun y hy => sat_purgeDocumentLocked _ hy.1 hy.2) (fun _ => purged_stable)
        (fun _ _ h => h.inv) (fun _ _ h _ hγ => .inr (h.chunks hγ))
        (fun _ s γ ls h hi => ⟨hi, h.gone, h.chunks, h.points⟩) hintact
      have hmove := acquire_move (p := .purge) (γ := γ) hs.1 hfree
      have hheld := (holdsLock_stable.and intact_stable).rtc hy
        ⟨⟨hmove.inv, List.mem_cons_self⟩, hmove.inv, hs.2.1, hs.2.2⟩
      exact ⟨⟨hheld.1.inv, hheld.1.holds, hheld.2.2.1⟩, hheld.2.2.2⟩

end

/-! ## The main result -/

/-- The document is ingested, and none of the four operations has started. -/
structure Ingested (u : String) (d : Nat) (path : String) (s : Store) : Prop where
  inv : DocumentInv u d path s
  row : HasRow d s
  idle : s.openTxn = none

/-- When the share, the unshare, the ingest and the purge have all returned or raised, every shared
chunk of the document has its row. -/
theorem noGhostChunks (env : Env) (u : String) (d : Nat) (file : SourceFile) (force : Bool)
    (jobId : Party → Nat) (s : Store) (c : Store × (Party → M Unit))
    (h₀ : Ingested u d file.path s)
    (hrun : ReflTransGen (Step fun _ _ _ => True) (s, Party.run env u d file force jobId) c)
    (hend : ∀ p, ∃ r, Ended (c.2 p) r) :
    ∀ pt ∈ c.1.documents, pt.sharedOf d = true →
      ∃ r ∈ c.1.db.fileIndex, r.projects d .shared = true := by
  let watched : Party → Prog Watched PyErr Unit := fun
    | .share => (handleShare env Party.share.session u d (jobId .share)).lift
    | .unshare => (handleUnshare env Party.unshare.session u d (jobId .unshare)).lift
    | .ingest => watchedIngest env u d file force (jobId .ingest)
    | .purge => (purgeDocument env Party.purge.session u d).void.lift
  have herases : ∀ p, Erases (watched p) (Party.run env u d file force jobId p) := by
    intro p
    cases p with
    | share => exact erases_lift _
    | unshare => exact erases_lift _
    | ingest => exact watchedIngest_erases file force (jobId .ingest)
    | purge => exact erases_lift _
  let Q : Party → Except PyErr Unit → Watched → Prop := fun
    | .purge, _ => Purged u d file.path
    | _, _ => Calm u d file.path
  have hsat : ∀ p, Sat (PartyR u d file.path p) (fun _ _ => True) (PartyG u d file.path p) (Q p)
      (watched p) (s, false) := by
    intro p
    cases p with
    | share => exact sat_handleShare _ h₀.inv
    | unshare => exact sat_handleUnshare _ h₀.inv
    | ingest => exact sat_watchedIngest force (jobId .ingest) ⟨h₀.inv, rfl⟩
    | purge =>
      show Sat _ _ _ _ (purgeDocument env Party.purge.session u d).void.lift _
      rw [void, lift_bind]
      refine Sat.seq (sat_purgeDocument ⟨h₀.inv, h₀.row, h₀.idle⟩) (fun _ y hy => ?_)
        fun _ _ h => h
      exact fun z hz => purged_stable.rtc hz hy
  obtain ⟨γ, ps, hrun', herases'⟩ := Erases.run (a := false) herases hrun
  have hfinal := Sat.par (R := PartyR u d file.path) (C := fun _ _ _ => True)
    (G := PartyG u d file.path) (fun i j hij x y hg => ⟨i, hij, hg⟩) hsat hrun' .purge
  obtain ⟨r, hr⟩ := hend .purge
  have hpurged : Purged u d file.path (c.1, γ) := hfinal.done ((herases' .purge).ended hr)
  intro pt hpt hshared
  rw [hpurged.points pt hpt] at hshared
  cases hshared

/-! ### Two runs -/

namespace GhostExample

def env : Env := .plain .disabled

def row : FileRow :=
  { id := 1, filePath := "/inbox/a.txt", fileHash := "h", fileType := ".txt", chunkCount := 0,
    ocrUsed := false, userId := "ann", scope := .personal, publishedFrom := none }

def sharedRow : FileRow := { row with id := 2, scope := .shared, publishedFrom := some 1 }

def job : JobRow :=
  { id := 7, userId := "ann", payload := .unshareDocument 1, status := .running, runAfter := 0,
    attempt := 0, error := none, startedAt := some 0, finishedAt := none, workerId := some "w",
    progressStage := none, progressPct := none, progressMessage := none }

/-- The file has changed since it was ingested. -/
def file : SourceFile :=
  { path := "/inbox/a.txt", ext := ".txt", hash := "k", text := .ok "hello", entities := [] }

/-- The document is shared. -/
def start : Store :=
  { Store.empty with
    db := { Db.empty with
      fileIndex := [row, sharedRow], fileIndexSeq := 3, userBatchJobs := [job] } }

def threads : Party → M Unit := Party.run env "ann" 1 file false fun _ => 7

/-- The ingest, up to where its re-projection has read that the document is shared, and an unshare
job. -/
def unshared : List Party := List.replicate 12 .ingest ++ List.replicate 9 .unshare

/-- Then a purge, a share job, and the re-projection. -/
def purged : List Party :=
  unshared ++ List.replicate 17 .purge ++ List.replicate 2 .share ++ List.replicate 5 .ingest

/-- Then the re-projection, and no purge. -/
def mirrored : List Party := unshared ++ List.replicate 6 .ingest

theorem ingested_start : Ingested "ann" 1 file.path start where
  inv :=
    { row := by decide
      unique := fun _ => by decide
      seq := by decide
      owned := by decide
      single := by intro a b ha; cases ha }
  row := ⟨row, by decide, rfl⟩
  idle := rfl

end GhostExample

open GhostExample in
/-- The re-projection finds the row gone and no chunk to mirror. -/
theorem noGhostChunks_purged :
    ((schedule purged (start, threads)).1.documents.all fun pt => !pt.sharedOf 1 ||
      (schedule purged (start, threads)).1.db.fileIndex.any (FileRow.projects 1 .shared)) = true := by
  have hend : ∀ p, ∃ r, Ended ((schedule purged (start, threads)).2 p) r := by
    intro p
    cases p
    · exact ⟨.ok (), rfl⟩
    · exact ⟨.ok (), rfl⟩
    · exact ⟨.ok (), rfl⟩
    · exact ⟨.ok (), rfl⟩
  have h := noGhostChunks env "ann" 1 file false (fun _ => 7) start _ ingested_start
    (schedule_reaches (by decide)) hend
  rw [List.all_eq_true]
  intro pt hpt
  cases hshared : pt.sharedOf 1 with
  | false => rfl
  | true => exact List.any_eq_true.mpr (h pt hpt hshared)

open GhostExample in
/-- Without the purge: the unshare job and the ingest have returned, and the document's chunk is
shared without a row. -/
theorem reproject_leaves_ghost :
    ∃ c, ReflTransGen (Step fun _ _ _ => True) (start, threads) c ∧
      Ended (c.2 .ingest) (.ok ()) ∧ Ended (c.2 .unshare) (.ok ()) ∧
      (∃ pt ∈ c.1.documents, pt.sharedOf 1 = true) ∧
      ∀ r ∈ c.1.db.fileIndex, r.projects 1 .shared = false := by
  refine ⟨schedule mirrored (start, threads), schedule_reaches (by decide), rfl, rfl, ?_, ?_⟩
  · decide
  · decide

end Lumogis
