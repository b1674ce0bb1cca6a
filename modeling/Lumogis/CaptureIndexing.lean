import Lumogis.Captures
import Lumogis.Frames
import Lumogis.Lib.Labelled

/-!
# CaptureIndexing

Calls of `index_capture` by any number of threads, one store call at a time, any of which may fail.
`created` keeps the notes that have been inserted for each capture.

`capture_has_one_note`: a capture never has two notes, or two points, and while it is `indexed` it
names its note and has both, in every run that inserts a note for a capture only while no note and
no point made for it is in the stores. Nothing in the code sees to that: the status is read once,
before the `INSERT`, and no statement claims the capture (`double_index_makes_two_notes`).
-/

namespace Lumogis

open Prog Labelled

inductive CapturePhase where
  | idle
  /-- The capture has been found indexable, with this text. -/
  | checked (key : CaptureKey) (combined : String)
  /-- The note has been inserted. -/
  | noted (key : CaptureKey) (combined : String) (noteId : Nat)
  /-- The point could not be written, and the note is to be deleted. -/
  | cleaning (key : CaptureKey) (noteId : Nat) (error : CaptureErr)
  | failing (key : CaptureKey) (error : CaptureErr)
  /-- The point has been written. -/
  | pointed (key : CaptureKey) (noteId : Nat)

/-- The note that the thread has in hand. -/
def CapturePhase.note : CapturePhase → Option Nat
  | .noted _ _ noteId | .cleaning _ noteId _ | .pointed _ noteId => some noteId
  | .idle | .checked _ _ | .failing _ _ => none

structure CaptureConfig (ι : Type) where
  store : CaptureStore
  phase : ι → CapturePhase
  /-- The notes inserted for a capture. -/
  created : CaptureKey → List Nat

inductive CaptureLabel (ι : Type) where
  | check (i : ι) (userId captureId : String) (fates : List Fate)
  | insert (i : ι) (fate : Fate)
  | point (i : ι) (fates : List Fate)
  | clean (i : ι) (fate : Fate)
  | fail (i : ι) (fate : Fate)
  | index (i : ι) (fate : Fate)
  | read (i : ι) (userId captureId : String) (fates : List Fate)

section System

variable {ι : Type} [DecidableEq ι]

namespace CaptureConfig

def put (i : ι) (p : CapturePhase) (store : CaptureStore) (c : CaptureConfig ι) : CaptureConfig ι :=
  { c with store := store, phase := Function.update c.phase i p }

/-- The notes drawn on the way to `t` are the capture's. -/
def record (key : CaptureKey) (t : CaptureStore) (c : CaptureConfig ι) : CaptureConfig ι :=
  { c with
    created := Function.update c.created key
      (c.created key ++ List.range' c.store.notesSeq (t.notesSeq - c.store.notesSeq)) }

theorem put_phase {i j : ι} {p : CapturePhase} {t : CaptureStore} {c : CaptureConfig ι} :
    (c.put i p t).phase j = if j = i then p else c.phase j := Function.update_apply ..

end CaptureConfig

def captureStep (env : CaptureEnv) :
    CaptureLabel ι → CaptureConfig ι → Option (CaptureConfig ι)
  | .check i userId captureId fates, c =>
    match c.phase i, (checkIndexable env userId captureId).execFates fates c.store with
    | .idle, some (.ok (key, combined), t) => some (c.put i (.checked key combined) t)
    | .idle, some (.error _, t) => some (c.put i .idle t)
    | _, _ => none
  | .insert i fate, c =>
    match c.phase i with
    | .checked key combined =>
      match (insertNote (captureNote key.1 combined)).execFates [fate] c.store with
      | some (.ok noteId, t) => some ((c.record key t).put i (.noted key combined noteId) t)
      | some (.error _, t) => some ((c.record key t).put i .idle t)
      | none => none
    | _ => none
  | .point i fates, c =>
    match c.phase i with
    | .noted key combined noteId =>
      match (writeNotePoint env key.1 combined noteId).execFates fates c.store with
      | some (.ok (), t) => some (c.put i (.pointed key noteId) t)
      | some (.error e, t) => some (c.put i (.cleaning key noteId e) t)
      | none => none
    | _ => none
  | .clean i fate, c =>
    match c.phase i with
    | .cleaning key noteId e =>
      match (deleteNote noteId).execFates [fate] c.store with
      | some (_, t) => some (c.put i (.failing key e) t)
      | none => none
    | _ => none
  | .fail i fate, c =>
    match c.phase i with
    | .failing key e =>
      match (markFailed key (shortIndexError (env.strError e))).execFates [fate] c.store with
      | some (_, t) => some (c.put i .idle t)
      | none => none
    | _ => none
  | .index i fate, c =>
    match c.phase i with
    | .pointed key noteId =>
      match (markIndexed key noteId).execFates [fate] c.store with
      | some (_, t) => some (c.put i .idle t)
      | none => none
    | _ => none
  | .read i userId captureId fates, c =>
    match c.phase i, (getCapture env userId captureId).execFates fates c.store with
    | .idle, some (_, t) => some (c.put i .idle t)
    | _, _ => none

/-! ## The law and its condition -/

def CaptureStore.HasNote (s : CaptureStore) (noteId : Nat) : Prop := (s.notes noteId).isSome = true

def CaptureStore.HasPoint (env : CaptureEnv) (s : CaptureStore) (key : CaptureKey) (noteId : Nat) :
    Prop :=
  (s.conversations (noteConversationPointId env key.1 noteId)).isSome = true

/-- A capture has at most one note and one point, and both when it is indexed. -/
structure OneNote (env : CaptureEnv) (c : CaptureConfig ι) (key : CaptureKey) : Prop where
  note : ∀ m ∈ c.created key, ∀ n ∈ c.created key, c.store.HasNote m → c.store.HasNote n → m = n
  point : ∀ m ∈ c.created key, ∀ n ∈ c.created key,
    c.store.HasPoint env key m → c.store.HasPoint env key n → m = n
  indexed : ∀ row ∈ c.store.captures key, row.status = .indexed →
    ∃ n ∈ c.created key, row.noteId = some n ∧ c.store.HasNote n ∧ c.store.HasPoint env key n

/-- A note is inserted only while the capture has none, and no point. -/
def InsertsFirst (env : CaptureEnv) (l : CaptureLabel ι) (c : CaptureConfig ι) : Prop :=
  match l with
  | .insert i _ =>
    match c.phase i with
    | .checked key _ => ∀ n ∈ c.created key, ¬ c.store.HasNote n ∧ ¬ c.store.HasPoint env key n
    | _ => True
  | _ => True

instance (s : CaptureStore) (n : Nat) : Decidable (s.HasNote n) :=
  inferInstanceAs (Decidable (_ = true))

instance (env : CaptureEnv) (s : CaptureStore) (key : CaptureKey) (n : Nat) :
    Decidable (s.HasPoint env key n) :=
  inferInstanceAs (Decidable (_ = true))

instance (env : CaptureEnv) (l : CaptureLabel ι) (c : CaptureConfig ι) :
    Decidable (InsertsFirst env l c) :=
  match l with
  | .insert i _ =>
    match h : c.phase i with
    | .checked key _ => decidable_of_iff
        (∀ n ∈ c.created key, ¬ c.store.HasNote n ∧ ¬ c.store.HasPoint env key n)
        (by simp [InsertsFirst, h])
    | .idle | .noted _ _ _ | .cleaning _ _ _ | .failing _ _ | .pointed _ _ =>
      .isTrue (by simp [InsertsFirst, h])
  | .check _ _ _ _ | .point _ _ | .clean _ _ | .fail _ _ | .index _ _ | .read _ _ _ _ =>
    .isTrue trivial

/-- What is relied on of the ids. -/
structure CaptureEnv.Sound (env : CaptureEnv) : Prop where
  uuid5 : Function.Injective env.uuid5
  uuid4 : Function.Injective env.uuid4
  plain : ∀ n, ':' ∉ (env.uuid4 n).toList

/-- Notes that are yet to be drawn are nowhere in the stores. -/
def CaptureStore.Undrawn (env : CaptureEnv) (s : CaptureStore) : Prop :=
  ∀ n, s.notesSeq ≤ n →
    ¬ s.HasNote n ∧ ∀ key : CaptureKey, ¬ s.HasPoint env key n

/-- No call is in progress. -/
structure CaptureStart (env : CaptureEnv) (c : CaptureConfig ι) : Prop where
  idle : ∀ i, c.phase i = .idle
  drawn : ∀ key, ∀ n ∈ c.created key, n < c.store.notesSeq
  apart : ∀ key key' n, n ∈ c.created key → n ∈ c.created key' → key = key'
  undrawn : c.store.Undrawn env
  law : ∀ key, OneNote env c key

/-! ## Ids -/

omit [DecidableEq ι] in
theorem suffix_injective {a b x y : List Char} (hx : ':' ∉ x) (hy : ':' ∉ y)
    (h : a ++ ':' :: x = b ++ ':' :: y) : x = y := by
  have htake : ∀ (l z : List Char), ':' ∉ z →
      (l ++ ':' :: z).reverse.takeWhile (· ≠ ':') = z.reverse := by
    intro l z hz
    rw [List.reverse_append, List.reverse_cons, List.append_assoc,
      List.takeWhile_append_of_pos (by
        intro c hc
        have : c ≠ ':' := fun he => hz (he ▸ List.mem_reverse.mp hc)
        simpa using this)]
    simp
  have := congrArg (fun l => l.reverse.takeWhile (· ≠ ':')) h
  simp only [htake a x hx, htake b y hy] at this
  exact List.reverse_injective this

theorem noteConversationPointId_injective {env : CaptureEnv} (hf : env.Sound)
    {user user' : String} {m n : Nat}
    (h : noteConversationPointId env user m = noteConversationPointId env user' n) : m = n := by
  have htext := congrArg String.toList (hf.uuid5 h)
  have hsuffix : ("capture-note::".toList ++ user.toList ++ [':']) ++ ':' :: (env.uuid4 m).toList =
      ("capture-note::".toList ++ user'.toList ++ [':']) ++ ':' :: (env.uuid4 n).toList := by
    have hcolon : "::".toList = [':', ':'] := rfl
    simpa only [String.toList_append, List.append_assoc, hcolon, List.cons_append,
      List.nil_append] using htext
  exact hf.uuid4 (String.toList_injective (suffix_injective (hf.plain m) (hf.plain n) hsuffix))

/-! ## The statements -/

section Statements

omit [DecidableEq ι]

variable {env : CaptureEnv} {s t : CaptureStore} {key key' : CaptureKey} {m n : Nat}

theorem getCapture_reads (env : CaptureEnv) (userId captureId : String) :
    Always Eq (getCapture env userId captureId) := by
  rw [getCapture]
  split
  · exact trivial
  · refine (always_query fun _ => rfl).bind fun row => ?_
    split
    · exact trivial
    · exact (always_query fun _ => rfl).bind fun _ => (always_query fun _ => rfl).bind fun _ => trivial

theorem checkIndexable_reads (env : CaptureEnv) (userId captureId : String) :
    Always Eq (checkIndexable env userId captureId) := by
  refine (getCapture_reads env userId captureId).bind fun detail => ?_
  cases indexableText detail <;> exact trivial

theorem execFates_reads {α : Type} {p : CaptureM α} {fates : List Fate} {r : Except CaptureErr α}
    (hp : Always Eq p) (h : p.execFates fates s = some (r, t)) : s = t :=
  (hp.post (fun _ => rfl) (fun _ _ _ => Eq.trans) s).faulty (faulty_iff.mpr ⟨fates, h⟩)

theorem writeNotePoint_fates {userId combined : String} {fates : List Fate}
    {r : Except CaptureErr Unit}
    (h : (writeNotePoint env userId combined n).execFates fates s = some (r, t)) :
    (t = s ∧ r ≠ .ok ()) ∨ t = s.upsertPoint (noteConversationPointId env userId n)
      (capturePoint env userId combined n (env.embed combined)) := by
  have hpost : Post (fun r t => (t = s ∧ r ≠ .ok ()) ∨
      t = s.upsertPoint (noteConversationPointId env userId n)
        (capturePoint env userId combined n (env.embed combined)))
      (writeNotePoint env userId combined n) s := by
    rw [writeNotePoint, post_bind, post_query]
    refine ⟨post_act.mpr ⟨.inr rfl, .inl ⟨rfl, by simp⟩, .inr rfl⟩, .inl ⟨rfl, by simp⟩⟩
  exact hpost.faulty (faulty_iff.mpr ⟨fates, h⟩)

theorem markIndexed_fates {fate : Fate} {r : Except CaptureErr Unit} (hn : s.HasNote n)
    (h : (markIndexed key n).execFates [fate] s = some (r, t)) :
    t = s ∨ t = s.updateCapture key fun row =>
      { row with status := .indexed, noteId := some n, lastError := none } := by
  have hpost : Post (fun _ t => t = s ∨ t = s.updateCapture key fun row =>
      { row with status := .indexed, noteId := some n, lastError := none })
      (markIndexed key n) s := by
    rw [markIndexed, post_actE]
    have hsome : (s.notes n).isSome = true := hn
    simp [hsome]
  exact hpost.faulty (faulty_iff.mpr ⟨[fate], h⟩)

theorem hasNote_insert {row : NoteRow} :
    (s.insertNote row).HasNote n ↔ n = s.notesSeq ∨ s.HasNote n := by
  by_cases h : n = s.notesSeq
  · simp [CaptureStore.HasNote, CaptureStore.insertNote, h]
  · simp [CaptureStore.HasNote, CaptureStore.insertNote, h]

theorem hasNote_delete : (s.deleteNote m).HasNote n ↔ n ≠ m ∧ s.HasNote n := by
  by_cases h : n = m
  · simp [CaptureStore.HasNote, CaptureStore.deleteNote, h]
  · simp [CaptureStore.HasNote, CaptureStore.deleteNote, h]

theorem hasPoint_upsert (hf : env.Sound) {point : NotePoint}
    (h : (s.upsertPoint (noteConversationPointId env key'.1 m) point).HasPoint env key n) :
    n = m ∨ s.HasPoint env key n := by
  by_cases hid : noteConversationPointId env key.1 n = noteConversationPointId env key'.1 m
  · exact .inl (noteConversationPointId_injective hf hid)
  · right
    simpa [CaptureStore.HasPoint, CaptureStore.upsertPoint, hid] using h

theorem hasPoint_upsert_self {point : NotePoint} :
    (s.upsertPoint (noteConversationPointId env key.1 n) point).HasPoint env key n := by
  simp [CaptureStore.HasPoint, CaptureStore.upsertPoint]

theorem CaptureStore.HasPoint.upsert {id : String} {point : NotePoint} (h : s.HasPoint env key n) :
    (s.upsertPoint id point).HasPoint env key n := by
  by_cases hid : noteConversationPointId env key.1 n = id
  · simp [CaptureStore.HasPoint, CaptureStore.upsertPoint, hid]
  · simpa [CaptureStore.HasPoint, CaptureStore.upsertPoint, hid] using h

theorem deleteNote_indexed {row : CaptureRow} (h : row ∈ (s.deleteNote m).captures key)
    (hi : row.status = .indexed) :
    ∃ row' ∈ s.captures key, row'.status = .indexed ∧
      (row'.noteId = some m ∧ row.noteId = none ∨ row'.noteId ≠ some m ∧ row.noteId = row'.noteId) := by
  obtain ⟨row', hrow', rfl⟩ := Option.map_eq_some_iff.mp h
  refine ⟨row', hrow', ?_⟩
  rw [CaptureRow.dropNote] at hi ⊢
  split
  · rename_i hm
    rw [if_pos hm] at hi
    exact ⟨hi, .inl ⟨hm, rfl⟩⟩
  · rename_i hm
    rw [if_neg hm] at hi
    exact ⟨hi, .inr ⟨hm, rfl⟩⟩

theorem updateCapture_captures {f : CaptureRow → CaptureRow} :
    (s.updateCapture key' f).captures key =
      if key = key' then (s.captures key).map f else s.captures key := by
  by_cases h : key = key'
  · simp [CaptureStore.updateCapture, h]
  · simp [CaptureStore.updateCapture, h]

theorem updateCapture_mem {f : CaptureRow → CaptureRow} {row : CaptureRow}
    (h : row ∈ (s.updateCapture key' f).captures key) :
    (key = key' ∧ ∃ row' ∈ s.captures key, row = f row') ∨ row ∈ s.captures key := by
  rw [updateCapture_captures] at h
  split at h
  · rename_i hkey
    obtain ⟨row', hrow', rfl⟩ := Option.map_eq_some_iff.mp h
    exact .inl ⟨hkey, row', hrow', rfl⟩
  · exact .inr h

end Statements

/-! ## What a step keeps -/

def CapturePhaseOk (env : CaptureEnv) (c : CaptureConfig ι) : CapturePhase → Prop
  | .noted key _ noteId => noteId ∈ c.created key ∧ c.store.HasNote noteId ∧
      ∀ m ∈ c.created key, ¬ c.store.HasPoint env key m
  | .cleaning key noteId _ => noteId ∈ c.created key
  | .pointed key noteId => noteId ∈ c.created key ∧ c.store.HasNote noteId ∧
      c.store.HasPoint env key noteId
  | .idle | .checked _ _ | .failing _ _ => True

/-- No capture is indexed under a note that a thread has in hand. -/
def CaptureConfig.Free (c : CaptureConfig ι) (n : Nat) : Prop :=
  ∀ key, ∀ row ∈ c.store.captures key, row.status = .indexed → row.noteId ≠ some n

structure CaptureInv (env : CaptureEnv) (c : CaptureConfig ι) : Prop where
  drawn : ∀ key, ∀ n ∈ c.created key, n < c.store.notesSeq
  apart : ∀ key key' n, n ∈ c.created key → n ∈ c.created key' → key = key'
  undrawn : c.store.Undrawn env
  law : ∀ key, OneNote env c key
  phase : ∀ i, CapturePhaseOk env c (c.phase i)
  owner : ∀ i j n, (c.phase i).note = some n → (c.phase j).note = some n → i = j
  free : ∀ i n, (c.phase i).note = some n → c.Free n

section Steps

variable {env : CaptureEnv} {c c' : CaptureConfig ι} {i : ι}

omit [DecidableEq ι] in
theorem CaptureStart.inv (h : CaptureStart env c) : CaptureInv env c where
  drawn := h.drawn
  apart := h.apart
  undrawn := h.undrawn
  law := h.law
  phase i := by rw [h.idle i]; trivial
  owner i j n hi := by rw [h.idle i] at hi; cases hi
  free i n hi := by rw [h.idle i] at hi; cases hi

theorem CaptureConfig.put_note {p : CapturePhase} {t : CaptureStore} {j : ι} {n : Nat}
    (hnote : p.note = none ∨ p.note = (c.phase i).note)
    (h : ((c.put i p t).phase j).note = some n) : (c.phase j).note = some n := by
  rw [CaptureConfig.put_phase] at h
  split at h
  · rename_i hj
    subst hj
    rcases hnote with hn | hn
    · rw [hn] at h
      cases h
    · rwa [← hn]
  · exact h

/-- A thread goes on with the note that it has, or without it, and the stores are `t`. -/
theorem CaptureInv.goes {p : CapturePhase} {t : CaptureStore} (h : CaptureInv env c)
    (hnote : p.note = none ∨ p.note = (c.phase i).note)
    (hseq : t.notesSeq = c.store.notesSeq) (hund : t.Undrawn env)
    (hlaw : ∀ key, OneNote env (c.put i p t) key)
    (hp : CapturePhaseOk env (c.put i p t) p)
    (hothers : ∀ j, j ≠ i → CapturePhaseOk env (c.put i p t) (c.phase j))
    (hfree : ∀ j n, ((c.put i p t).phase j).note = some n → (c.put i p t).Free n) :
    CaptureInv env (c.put i p t) where
  drawn key n hn := by
    show n < t.notesSeq
    rw [hseq]
    exact h.drawn key n hn
  apart := h.apart
  undrawn := hund
  law := hlaw
  phase j := by
    rw [CaptureConfig.put_phase]
    split
    · exact hp
    · rename_i hj
      exact hothers j hj
  owner j k n hj hk :=
    h.owner j k n (CaptureConfig.put_note hnote hj) (CaptureConfig.put_note hnote hk)
  free := hfree

theorem CaptureInv.stays {p : CapturePhase} (h : CaptureInv env c)
    (hnote : p.note = none ∨ p.note = (c.phase i).note) (hp : CapturePhaseOk env c p) :
    CaptureInv env (c.put i p c.store) :=
  h.goes hnote rfl h.undrawn
    (fun key => ⟨(h.law key).note, (h.law key).point, (h.law key).indexed⟩) hp (fun j _ => h.phase j)
    fun j n hj => h.free j n (CaptureConfig.put_note hnote hj)

omit [DecidableEq ι] in
theorem CaptureInv.created_of_note (h : CaptureInv env c) {n : Nat}
    (hn : (c.phase i).note = some n) : ∃ key, n ∈ c.created key := by
  have hp := h.phase i
  cases hi : c.phase i with
  | noted key combined noteId => rw [hi] at hn hp; cases hn; exact ⟨key, hp.1⟩
  | cleaning key noteId e => rw [hi] at hn hp; cases hn; exact ⟨key, hp⟩
  | pointed key noteId => rw [hi] at hn hp; cases hn; exact ⟨key, hp.1⟩
  | idle => rw [hi] at hn; cases hn
  | checked key combined => rw [hi] at hn; cases hn
  | failing key e => rw [hi] at hn; cases hn

/-! ### The `INSERT` -/

omit [DecidableEq ι] in
theorem CaptureConfig.record_created {key key' : CaptureKey} {row : NoteRow} {n : Nat} :
    n ∈ (c.record key' (c.store.insertNote row)).created key ↔
      n ∈ c.created key ∨ key = key' ∧ n = c.store.notesSeq := by
  simp only [CaptureConfig.record, Function.update_apply, CaptureStore.insertNote,
    Nat.add_sub_cancel_left, List.range'_one]
  split
  · rename_i h
    simp [h]
  · rename_i h
    simp [h]

omit [DecidableEq ι] in
theorem CaptureConfig.record_lost {key : CaptureKey} : c.record key c.store = c := by
  simp [CaptureConfig.record]

theorem CapturePhaseOk.insert {key : CaptureKey} {row : NoteRow} {p q : CapturePhase}
    (h : CaptureInv env c) (hp : CapturePhaseOk env c p) :
    CapturePhaseOk env ((c.record key (c.store.insertNote row)).put i q (c.store.insertNote row))
      p := by
  have hcreated : ∀ k n, n ∈ c.created k ∨ k = key ∧ n = c.store.notesSeq →
      n ∈ (c.record key (c.store.insertNote row)).created k :=
    fun _ _ => CaptureConfig.record_created.mpr
  cases p with
  | noted k combined n =>
    refine ⟨hcreated k n (.inl hp.1), hasNote_insert.mpr (.inr hp.2.1), fun m hm => ?_⟩
    rcases CaptureConfig.record_created.mp hm with hm | ⟨rfl, rfl⟩
    · exact hp.2.2 m hm
    · exact (h.undrawn _ (Nat.le_refl _)).2 k
  | cleaning k n e => exact hcreated k n (.inl hp)
  | pointed k n => exact ⟨hcreated k n (.inl hp.1), hasNote_insert.mpr (.inr hp.2.1), hp.2.2⟩
  | idle => trivial
  | checked k combined => trivial
  | failing k e => trivial

theorem OneNote.insert {key key' : CaptureKey} {row : NoteRow} (h : CaptureInv env c)
    (hfirst : ∀ n ∈ c.created key', ¬ c.store.HasNote n ∧ ¬ c.store.HasPoint env key' n)
    {q : CapturePhase} :
    OneNote env ((c.record key' (c.store.insertNote row)).put i q (c.store.insertNote row)) key := by
  have hlaw := h.law key
  have hnew : ¬ c.store.HasPoint env key c.store.notesSeq := (h.undrawn _ (Nat.le_refl _)).2 key
  constructor
  · intro m hm n hn hhm hhn
    rcases CaptureConfig.record_created.mp hm with hm | ⟨rfl, rfl⟩ <;>
      rcases CaptureConfig.record_created.mp hn with hn | ⟨hk, rfl⟩
    · rcases hasNote_insert.mp hhm with rfl | hhm
      · exact absurd (h.drawn key _ hm) (Nat.lt_irrefl _)
      · rcases hasNote_insert.mp hhn with rfl | hhn
        · exact absurd (h.drawn key _ hn) (Nat.lt_irrefl _)
        · exact hlaw.note m hm n hn hhm hhn
    · rcases hasNote_insert.mp hhm with rfl | hhm
      · rfl
      · exact absurd hhm (hfirst m (hk ▸ hm)).1
    · rcases hasNote_insert.mp hhn with rfl | hhn
      · rfl
      · exact absurd hhn (hfirst n hn).1
    · rfl
  · intro m hm n hn hhm hhn
    rcases CaptureConfig.record_created.mp hm with hm | ⟨-, rfl⟩
    · rcases CaptureConfig.record_created.mp hn with hn | ⟨-, rfl⟩
      · exact hlaw.point m hm n hn hhm hhn
      · exact absurd hhn hnew
    · exact absurd hhm hnew
  · intro r hr hi
    obtain ⟨n, hn, hid, hnote, hpoint⟩ := hlaw.indexed r hr hi
    exact ⟨n, CaptureConfig.record_created.mpr (.inl hn), hid, hasNote_insert.mpr (.inr hnote),
      hpoint⟩

theorem CaptureInv.inserts {key : CaptureKey} {combined : String} {row : NoteRow}
    {p : CapturePhase} (h : CaptureInv env c) (hi : c.phase i = .checked key combined)
    (hfirst : InsertsFirst env (.insert i .ok) c)
    (hp : p = .idle ∨ p = .noted key combined c.store.notesSeq) :
    CaptureInv env
      ((c.record key (c.store.insertNote row)).put i p (c.store.insertNote row)) := by
  simp only [InsertsFirst, hi] at hfirst
  have hheld : ∀ j n, (c.phase j).note = some n → n < c.store.notesSeq := by
    intro j n hj
    obtain ⟨k, hk⟩ := h.created_of_note hj
    exact h.drawn k n hk
  have hnote : ∀ n, p.note = some n → n = c.store.notesSeq := by
    intro n hn
    rcases hp with rfl | rfl <;> cases hn
    rfl
  constructor
  · intro k n hn
    show n < c.store.notesSeq + 1
    rcases CaptureConfig.record_created.mp hn with hn | ⟨-, rfl⟩
    · exact Nat.lt_succ_of_lt (h.drawn k n hn)
    · exact Nat.lt_succ_self _
  · intro k k' n hn hn'
    rcases CaptureConfig.record_created.mp hn with hn | ⟨hk, rfl⟩ <;>
      rcases CaptureConfig.record_created.mp hn' with hn' | ⟨hk', hseq⟩
    · exact h.apart k k' n hn hn'
    · subst hseq
      exact absurd (h.drawn k _ hn) (Nat.lt_irrefl _)
    · exact absurd (h.drawn k' _ hn') (Nat.lt_irrefl _)
    · exact hk.trans hk'.symm
  · intro n hn
    have hlt : c.store.notesSeq < n := hn
    refine ⟨fun hhas => ?_, (h.undrawn n (Nat.le_of_lt hlt)).2⟩
    rcases hasNote_insert.mp hhas with rfl | hhas
    · exact Nat.lt_irrefl _ hlt
    · exact (h.undrawn n (Nat.le_of_lt hlt)).1 hhas
  · exact fun k => OneNote.insert h hfirst
  · intro j
    rw [CaptureConfig.put_phase]
    split
    · rcases hp with rfl | rfl
      · trivial
      · refine ⟨CaptureConfig.record_created.mpr (.inr ⟨rfl, rfl⟩), hasNote_insert.mpr (.inl rfl),
          fun m hm => ?_⟩
        rcases CaptureConfig.record_created.mp hm with hm | ⟨-, rfl⟩
        · exact (hfirst m hm).2
        · exact (h.undrawn _ (Nat.le_refl _)).2 key
    · exact CapturePhaseOk.insert h (h.phase j)
  · intro j k n hj hk
    rw [CaptureConfig.put_phase] at hj hk
    split at hj <;> split at hk
    · rename_i hj' hk'
      exact hj'.trans hk'.symm
    · exact absurd (hheld k n hk) (by rw [hnote n hj]; exact Nat.lt_irrefl _)
    · exact absurd (hheld j n hj) (by rw [hnote n hk]; exact Nat.lt_irrefl _)
    · exact h.owner j k n hj hk
  · intro j n hj k r hr hindexed
    rw [CaptureConfig.put_phase] at hj
    split at hj
    · obtain rfl := hnote n hj
      obtain ⟨m, hm, hid, -⟩ := (h.law k).indexed r hr hindexed
      intro heq
      rw [hid] at heq
      cases heq
      exact Nat.lt_irrefl _ (h.drawn k _ hm)
    · exact h.free j n hj k r hr hindexed

/-! ### The other calls -/

theorem CaptureInv.points {key : CaptureKey} {combined : String} {n : Nat} {point : NotePoint}
    {p : CapturePhase} (hf : env.Sound) (h : CaptureInv env c)
    (hi : c.phase i = .noted key combined n)
    (hp : p = .pointed key n ∨ ∃ e, p = .cleaning key n e) :
    CaptureInv env
      (c.put i p (c.store.upsertPoint (noteConversationPointId env key.1 n) point)) := by
  have hphase := h.phase i
  rw [hi] at hphase
  obtain ⟨hcreated, hnote, hnone⟩ := hphase
  have hp' : p.note = (c.phase i).note := by
    rcases hp with rfl | ⟨e, rfl⟩ <;> rw [hi] <;> rfl
  refine h.goes (.inr hp') rfl ?_ ?_ ?_ ?_ fun j m hj => h.free j m (CaptureConfig.put_note (.inr hp') hj)
  · intro m hm
    refine ⟨(h.undrawn m hm).1, fun k hpoint => ?_⟩
    rcases hasPoint_upsert hf hpoint with rfl | hpoint
    · exact absurd (h.drawn key _ hcreated) (Nat.not_lt.mpr hm)
    · exact (h.undrawn m hm).2 k hpoint
  · intro k
    have hold : ∀ m ∈ c.created k, (c.store.upsertPoint (noteConversationPointId env key.1 n)
        point).HasPoint env k m → m = n ∨ k ≠ key ∧ c.store.HasPoint env k m := by
      intro m hm hpoint
      rcases hasPoint_upsert hf hpoint with rfl | hold
      · exact .inl rfl
      · refine .inr ⟨?_, hold⟩
        rintro rfl
        exact hnone m hm hold
    refine ⟨(h.law k).note, fun m hm m' hm' hpm hpm' => ?_, fun row hrow hindexed => ?_⟩
    · rcases hold m hm hpm with rfl | ⟨hk, hpm⟩
      · rcases hold m' hm' hpm' with rfl | ⟨hk, -⟩
        · rfl
        · exact absurd (h.apart k key _ hm hcreated) hk
      · rcases hold m' hm' hpm' with rfl | ⟨-, hpm'⟩
        · exact absurd (h.apart k key _ hm' hcreated) hk
        · exact (h.law k).point m hm m' hm' hpm hpm'
    · obtain ⟨m, hm, hid, hn, hpoint⟩ := (h.law k).indexed row hrow hindexed
      exact ⟨m, hm, hid, hn, hpoint.upsert⟩
  · rcases hp with rfl | ⟨e, rfl⟩
    · exact ⟨hcreated, hnote, hasPoint_upsert_self⟩
    · exact hcreated
  · intro j hj
    have hother := h.phase j
    cases hpj : c.phase j with
    | noted k combined' m =>
      rw [hpj] at hother
      refine ⟨hother.1, hother.2.1, fun m' hm' hpoint => ?_⟩
      rcases hasPoint_upsert hf hpoint with rfl | hpoint
      · -- both notes are there, so they are one
        obtain rfl := h.apart k key m' hm' hcreated
        have heq := (h.law k).note m hother.1 m' hcreated hother.2.1 hnote
        exact hj (h.owner j i m' (by rw [hpj, heq]; rfl) (by rw [hi]; rfl))
      · exact hother.2.2 m' hm' hpoint
    | cleaning k m e => rw [hpj] at hother; exact hother
    | pointed k m => rw [hpj] at hother; exact ⟨hother.1, hother.2.1, hother.2.2.upsert⟩
    | idle => trivial
    | checked k combined' => trivial
    | failing k e => trivial

theorem CaptureInv.cleans {key : CaptureKey} {n : Nat} {e : CaptureErr} (h : CaptureInv env c)
    (hi : c.phase i = .cleaning key n e) :
    CaptureInv env (c.put i (.failing key e) (c.store.deleteNote n)) := by
  have hheld : (c.phase i).note = some n := by rw [hi]; rfl
  have hne : ∀ j m, j ≠ i → (c.phase j).note = some m → m ≠ n := by
    rintro j m hj hm rfl
    exact hj (h.owner j i m hm hheld)
  refine h.goes (.inl rfl) rfl ?_ ?_ trivial ?_ ?_
  · intro m hm
    exact ⟨fun hhas => (h.undrawn m hm).1 (hasNote_delete.mp hhas).2, (h.undrawn m hm).2⟩
  · intro k
    refine ⟨fun m hm m' hm' hnm hnm' => (h.law k).note m hm m' hm' (hasNote_delete.mp hnm).2
      (hasNote_delete.mp hnm').2, (h.law k).point, fun row hrow hindexed => ?_⟩
    obtain ⟨row', hrow', hindexed', hid⟩ := deleteNote_indexed hrow hindexed
    have hfree := h.free i n hheld k row' hrow' hindexed'
    rcases hid with ⟨hid, -⟩ | ⟨-, hid⟩
    · exact absurd hid hfree
    · obtain ⟨m, hm, hm', hnote, hpoint⟩ := (h.law k).indexed row' hrow' hindexed'
      refine ⟨m, hm, hid.trans hm', hasNote_delete.mpr ⟨?_, hnote⟩, hpoint⟩
      rintro rfl
      exact hfree hm'
  · intro j hj
    have hother := h.phase j
    cases hpj : c.phase j with
    | noted k combined m =>
      rw [hpj] at hother
      exact ⟨hother.1, hasNote_delete.mpr ⟨hne j m hj (by rw [hpj]; rfl), hother.2.1⟩, hother.2.2⟩
    | cleaning k m e => rw [hpj] at hother; exact hother
    | pointed k m =>
      rw [hpj] at hother
      exact ⟨hother.1, hasNote_delete.mpr ⟨hne j m hj (by rw [hpj]; rfl), hother.2.1⟩, hother.2.2⟩
    | idle => trivial
    | checked k combined => trivial
    | failing k e => trivial
  · intro j m hj k row hrow hindexed
    obtain ⟨row', hrow', hindexed', hid⟩ := deleteNote_indexed hrow hindexed
    rcases hid with ⟨-, hid⟩ | ⟨-, hid⟩
    · rw [hid]
      simp
    · rw [hid]
      exact h.free j m (CaptureConfig.put_note (.inl rfl) hj) k row' hrow' hindexed'

theorem CaptureInv.updates {key : CaptureKey} {f : CaptureRow → CaptureRow} (h : CaptureInv env c)
    (hf : ∀ row, (f row).status = .indexed → ∃ n ∈ c.created key, (f row).noteId = some n ∧
      c.store.HasNote n ∧ c.store.HasPoint env key n ∧
      ∀ j, j ≠ i → (c.phase j).note ≠ some n) :
    CaptureInv env (c.put i .idle (c.store.updateCapture key f)) := by
  refine h.goes (.inl rfl) rfl h.undrawn ?_ trivial ?_ ?_
  · intro k
    refine ⟨(h.law k).note, (h.law k).point, fun row hrow hindexed => ?_⟩
    rcases updateCapture_mem hrow with ⟨rfl, row', -, rfl⟩ | hrow
    · obtain ⟨n, hn, hid, hnote, hpoint, -⟩ := hf row' hindexed
      exact ⟨n, hn, hid, hnote, hpoint⟩
    · exact (h.law k).indexed row hrow hindexed
  · intro j _
    exact h.phase j
  · intro j m hj k row hrow hindexed
    have hm := CaptureConfig.put_note (.inl rfl) hj
    rcases updateCapture_mem hrow with ⟨rfl, row', -, rfl⟩ | hrow
    · obtain ⟨n, -, hid, -, -, hfree⟩ := hf row' hindexed
      rw [hid]
      rintro ⟨⟩
      refine hfree j ?_ hm
      rintro rfl
      rw [CaptureConfig.put_phase, if_pos rfl] at hj
      cases hj
    · exact h.free j m hm k row hrow hindexed

theorem CaptureInv.indexes {key : CaptureKey} {n : Nat} (h : CaptureInv env c)
    (hi : c.phase i = .pointed key n) :
    CaptureInv env (c.put i .idle (c.store.updateCapture key fun row =>
      { row with status := .indexed, noteId := some n, lastError := none })) := by
  have hphase := h.phase i
  rw [hi] at hphase
  refine h.updates fun row _ => ⟨n, hphase.1, rfl, hphase.2.1, hphase.2.2, fun j hj hn => ?_⟩
  exact hj (h.owner j i n hn (by rw [hi]; rfl))

/-! ### Each label -/

theorem CaptureInv.next (hf : env.Sound) {l : CaptureLabel ι} (h : CaptureInv env c)
    (ha : InsertsFirst env l c) (hs : captureStep env l c = some c') : CaptureInv env c' := by
  cases l with
  | check i userId captureId fates =>
    simp only [captureStep] at hs
    generalize hexec : (checkIndexable env userId captureId).execFates fates c.store = r at hs
    split at hs
    · cases hs
      rw [← execFates_reads (checkIndexable_reads env userId captureId) hexec]
      exact h.stays (.inl rfl) trivial
    · cases hs
      rw [← execFates_reads (checkIndexable_reads env userId captureId) hexec]
      exact h.stays (.inl rfl) trivial
    · cases hs
  | insert i fate =>
    simp only [captureStep] at hs
    split at hs
    · rename_i key combined hi
      rw [insertNote, execFates_act] at hs
      cases fate with
      | ok => cases hs; exact h.inserts hi ha (.inr rfl)
      | lost =>
        cases hs
        rw [CaptureConfig.record_lost]
        exact h.stays (.inl rfl) trivial
      | late => cases hs; exact h.inserts hi ha (.inl rfl)
    · cases hs
  | point i fates =>
    simp only [captureStep] at hs
    split at hs
    · rename_i key combined n hi
      have hphase := h.phase i
      rw [hi] at hphase
      split at hs
      · rename_i t hexec
        cases hs
        rcases writeNotePoint_fates hexec with ⟨-, hr⟩ | rfl
        · exact absurd rfl hr
        · exact h.points hf hi (.inl rfl)
      · rename_i e t hexec
        cases hs
        rcases writeNotePoint_fates hexec with ⟨rfl, -⟩ | rfl
        · exact h.stays (.inr (by rw [hi]; rfl)) hphase.1
        · exact h.points hf hi (.inr ⟨e, rfl⟩)
      · cases hs
    · cases hs
  | clean i fate =>
    simp only [captureStep] at hs
    split at hs
    · rename_i key n e hi
      rw [deleteNote, execFates_act] at hs
      cases fate with
      | ok => cases hs; exact h.cleans hi
      | lost => cases hs; exact h.stays (.inl rfl) trivial
      | late => cases hs; exact h.cleans hi
    · cases hs
  | fail i fate =>
    simp only [captureStep] at hs
    split at hs
    · rw [markFailed, execFates_act] at hs
      cases fate with
      | ok => cases hs; exact h.updates fun row hrow => by cases hrow
      | lost => cases hs; exact h.stays (.inl rfl) trivial
      | late => cases hs; exact h.updates fun row hrow => by cases hrow
    · cases hs
  | index i fate =>
    simp only [captureStep] at hs
    split at hs
    · rename_i key n hi
      have hphase := h.phase i
      rw [hi] at hphase
      split at hs
      · rename_i r t hexec
        cases hs
        rcases markIndexed_fates hphase.2.1 hexec with rfl | rfl
        · exact h.stays (.inl rfl) trivial
        · exact h.indexes hi
      · cases hs
    · cases hs
  | read i userId captureId fates =>
    simp only [captureStep] at hs
    generalize hexec : (getCapture env userId captureId).execFates fates c.store = r at hs
    split at hs
    · cases hs
      rw [← execFates_reads (getCapture_reads env userId captureId) hexec]
      exact h.stays (.inl rfl) trivial
    · cases hs

/-- What holds after every run whose calls insert a note only where there is none. -/
theorem capture_has_one_note (hf : env.Sound) {c₀ : CaptureConfig ι} (h₀ : CaptureStart env c₀)
    (h : Reaches (captureStep env) (InsertsFirst env) c₀ c) (key : CaptureKey) :
    OneNote env c key :=
  (h.invariant h₀.inv fun _ _ _ hi ha hs => hi.next hf ha hs).law key

end Steps

/-! ## The function is a run -/

section Calls

variable {env : CaptureEnv} {c : CaptureConfig ι} {i : ι} {s : CaptureStore}

/-- A run from `c` leads to a configuration with store `s` in which thread `i` is at `p`. -/
abbrev CaptureRunsTo (env : CaptureEnv) (c : CaptureConfig ι) (i : ι) (p : CapturePhase)
    (s : CaptureStore) : Prop :=
  RunsTo (captureStep env) (fun _ _ => True) CaptureConfig.store c (fun c' => c'.phase i = p) s

theorem checkIndexable_runs (h : CaptureRunsTo env c i .idle s) (userId captureId : String) :
    Post (fun r t => match r with
      | .ok (key, combined) => CaptureRunsTo env c i (.checked key combined) t
      | .error _ => CaptureRunsTo env c i .idle t) (checkIndexable env userId captureId) s := by
  refine post_iff_faulty.mpr fun r t hr => ?_
  obtain ⟨fates, hexec⟩ := faulty_iff.mp hr
  cases r with
  | ok found =>
    refine h.next (l := .check i userId captureId fates) fun c' hc' hs => ?_
    subst hs
    simp only [captureStep, hc', hexec]
    exact ⟨trivial, _, rfl, Function.update_self .., rfl⟩
  | error e =>
    refine h.next (l := .check i userId captureId fates) fun c' hc' hs => ?_
    subst hs
    simp only [captureStep, hc', hexec]
    exact ⟨trivial, _, rfl, Function.update_self .., rfl⟩

theorem insertNote_runs {key : CaptureKey} {combined : String}
    (h : CaptureRunsTo env c i (.checked key combined) s) :
    Post (fun r t => match r with
      | .ok n => CaptureRunsTo env c i (.noted key combined n) t
      | .error _ => CaptureRunsTo env c i .idle t) (insertNote (captureNote key.1 combined)) s := by
  refine post_act_iff.mpr fun fate r t hr => ?_
  have hexec : (insertNote (captureNote key.1 combined)).execFates [fate] s = some (r, t) := hr
  cases r with
  | ok n =>
    refine h.next (l := .insert i fate) fun c' hc' hs => ?_
    subst hs
    simp only [captureStep, hc', hexec]
    exact ⟨trivial, _, rfl, Function.update_self .., rfl⟩
  | error e =>
    refine h.next (l := .insert i fate) fun c' hc' hs => ?_
    subst hs
    simp only [captureStep, hc', hexec]
    exact ⟨trivial, _, rfl, Function.update_self .., rfl⟩

theorem writeNotePoint_runs {key : CaptureKey} {combined : String} {n : Nat}
    (h : CaptureRunsTo env c i (.noted key combined n) s) :
    Post (fun r t => match r with
      | .ok () => CaptureRunsTo env c i (.pointed key n) t
      | .error e => CaptureRunsTo env c i (.cleaning key n e) t)
      (writeNotePoint env key.1 combined n) s := by
  refine post_iff_faulty.mpr fun r t hr => ?_
  obtain ⟨fates, hexec⟩ := faulty_iff.mp hr
  cases r with
  | ok u =>
    refine h.next (l := .point i fates) fun c' hc' hs => ?_
    subst hs
    simp only [captureStep, hc', hexec]
    exact ⟨trivial, _, rfl, Function.update_self .., rfl⟩
  | error e =>
    refine h.next (l := .point i fates) fun c' hc' hs => ?_
    subst hs
    simp only [captureStep, hc', hexec]
    exact ⟨trivial, _, rfl, Function.update_self .., rfl⟩

/-- The compensation of a call whose point could not be written. -/
theorem compensate_runs {key : CaptureKey} {n : Nat} {e : CaptureErr}
    (h : CaptureRunsTo env c i (.cleaning key n e) s) :
    Post (fun _ t => CaptureRunsTo env c i .idle t)
      (do
        let _ ← (deleteNote n).attempt
        markFailed key (shortIndexError (env.strError e))
        (.raise (.http 503 "index_memory_unavailable") : CaptureM CaptureDetail)) s := by
  rw [post_bind, post_attempt]
  refine post_act_iff.mpr fun fate r t hr => ?_
  have hexec : (deleteNote n).execFates [fate] s = some (r, t) := hr
  have hfailing : CaptureRunsTo env c i (.failing key e) t := by
    refine h.next (l := .clean i fate) fun c' hc' hs => ?_
    subst hs
    simp only [captureStep, hc', hexec]
    exact ⟨trivial, _, rfl, Function.update_self .., rfl⟩
  rw [seqPost, post_bind]
  refine post_act_iff.mpr fun fate' r' t' hr' => ?_
  have hexec' : (markFailed key (shortIndexError (env.strError e))).execFates [fate'] t =
      some (r', t') := hr'
  have hidle : CaptureRunsTo env c i .idle t' := by
    refine hfailing.next (l := .fail i fate') fun c' hc' hs => ?_
    subst hs
    simp only [captureStep, hc', hexec']
    exact ⟨trivial, _, rfl, Function.update_self .., rfl⟩
  cases r' <;> exact hidle

theorem markIndexed_runs {key : CaptureKey} {n : Nat}
    (h : CaptureRunsTo env c i (.pointed key n) s) :
    Post (fun _ t => CaptureRunsTo env c i .idle t) (markIndexed key n) s := by
  refine post_actE_iff.mpr fun fate r t hr => ?_
  have hexec : (markIndexed key n).execFates [fate] s = some (r, t) := hr
  refine h.next (l := .index i fate) fun c' hc' hs => ?_
  subst hs
  simp only [captureStep, hc', hexec]
  exact ⟨trivial, _, rfl, Function.update_self .., rfl⟩

theorem getCapture_runs (h : CaptureRunsTo env c i .idle s) (userId captureId : String) :
    Post (fun _ t => CaptureRunsTo env c i .idle t) (getCapture env userId captureId) s := by
  refine post_iff_faulty.mpr fun r t hr => ?_
  obtain ⟨fates, hexec⟩ := faulty_iff.mp hr
  refine h.next (l := .read i userId captureId fates) fun c' hc' hs => ?_
  subst hs
  simp only [captureStep, hc', hexec]
  exact ⟨trivial, _, rfl, Function.update_self .., rfl⟩

theorem checkIndexable_key (env : CaptureEnv) (userId captureId : String) (s : CaptureStore) :
    OnOk (fun found _ => found.1.1 = userId) (checkIndexable env userId captureId) s := by
  have hget : OnOk (fun detail _ => detail.key.1 = userId) (getCapture env userId captureId) s := by
    rw [getCapture]
    split
    · exact OnOk.raise
    · refine OnOk.bind (OnOk.query ?_)
      split
      · exact OnOk.raise
      · exact OnOk.bind (OnOk.query (OnOk.bind (OnOk.query (OnOk.ret rfl))))
  refine OnOk.bind (hget.mono fun detail t hkey => ?_)
  cases indexableText detail with
  | error e => exact OnOk.raise
  | ok combined => exact OnOk.ret hkey

/-- A call, whichever of its store calls fail. -/
theorem indexCapture_runs (h : CaptureRunsTo env c i .idle s) (userId captureId : String) :
    Post (fun _ t => CaptureRunsTo env c i .idle t) (indexCapture env userId captureId) s := by
  rw [indexCapture, post_bind]
  refine (Post.and (checkIndexable_runs h userId captureId)
    (checkIndexable_key env userId captureId s)).mono fun r t hr => ?_
  obtain ⟨hr, hkey⟩ := hr
  cases r with
  | error e => exact hr
  | ok found =>
    obtain ⟨⟨user, id⟩, combined⟩ := found
    obtain rfl : user = userId := hkey _ rfl
    rw [seqPost, post_bind]
    refine (insertNote_runs hr).mono fun r t hr => ?_
    cases r with
    | error e => exact hr
    | ok n =>
      rw [seqPost, post_bind, post_attempt]
      refine (writeNotePoint_runs hr).mono fun r t hr => ?_
      cases r with
      | error e => exact compensate_runs hr
      | ok u =>
        rw [seqPost, post_bind]
        refine (markIndexed_runs hr).mono fun r t hr => ?_
        cases r with
        | error e => exact hr
        | ok u => exact getCapture_runs hr _ _

end Calls

end System

namespace CaptureExample

def env : CaptureEnv :=
  { uuid5 := id, uuid4 := fun n => toString n, parseUuid := some, embed := fun _ => []
    strError := fun _ => "unavailable" }

theorem env_sound : env.Sound where
  uuid5 := Function.injective_id
  uuid4 := repr_injective
  plain n h := by
    have := Nat.isDigit_of_mem_toDigits (by decide) (by decide) (Nat.toList_repr ▸ h)
    simp at this

def key : CaptureKey := ("ann", "c1")

/-- A capture of one line, waiting to be indexed. -/
def start : CaptureConfig Bool :=
  { store :=
      { captures := fun k =>
          if k = key then some ⟨.pending, none, some "buy milk", none, none, none⟩ else none
        attachments := [], transcripts := [], notes := fun _ => none, notesSeq := 0
        conversations := fun _ => none }
    phase := fun _ => .idle
    created := fun _ => [] }

theorem start_idle : CaptureStart env start where
  idle _ := rfl
  drawn k n hn := by cases hn
  apart k k' n hn := by cases hn
  undrawn n _ := ⟨by simp [CaptureStore.HasNote, start], fun k => by simp [CaptureStore.HasPoint, start]⟩
  law k := by
    refine ⟨fun m hm => (by cases hm), fun m hm => (by cases hm), fun row hrow hindexed => ?_⟩
    simp only [start] at hrow
    split at hrow <;> cases hrow
    cases hindexed

def reached (ls : List (CaptureLabel Bool)) : CaptureConfig Bool :=
  (run (captureStep env) ls start).getD start

theorem run_reached {ls : List (CaptureLabel Bool)}
    (h : (run (captureStep env) ls start).isSome = true) :
    run (captureStep env) ls start = some (reached ls) := by
  obtain ⟨c, hc⟩ := Option.isSome_iff_exists.mp h
  rw [reached, hc]
  rfl

def checks (i : Bool) : CaptureLabel Bool := .check i "ann" "c1" []

/-- A call after its check, with nothing failing. -/
def finishes (i : Bool) : List (CaptureLabel Bool) := [.insert i .ok, .point i [], .index i .ok]

/-- A call whose upsert fails. -/
def fails (i : Bool) : List (CaptureLabel Bool) :=
  [checks i, .insert i .ok, .point i [.ok, .lost], .clean i .ok, .fail i .ok]

end CaptureExample

open CaptureExample in
theorem indexCapture_runs_start :
    Post (fun _ t => CaptureRunsTo env start true .idle t) (indexCapture env "ann" "c1") start.store :=
  indexCapture_runs ⟨start, .start, rfl, rfl⟩ _ _

open CaptureExample in
theorem capture_has_one_note_retried :
    OneNote env (reached (fails true ++ [checks false] ++ finishes false)) key :=
  capture_has_one_note env_sound start_idle
    (run_reaches (run_reached (by decide)) (by decide)) key

open CaptureExample in
/-- Both calls find the capture pending before either inserts its note. -/
theorem double_index_makes_two_notes :
    ∃ c, Reaches (captureStep env) (fun _ _ => True) start c ∧ (∀ i, c.phase i = .idle) ∧
      ¬ OneNote env c key := by
  refine ⟨reached ([checks true, checks false] ++ finishes true ++ finishes false),
    run_reaches (run_reached (by decide)) ?_, ?_, fun h => ?_⟩
  · simp [checks, finishes, Admitted]
  · intro i
    cases i <;> rfl
  · exact absurd (h.note 0 (by decide) 1 (by decide) (by decide) (by decide)) (by decide)

end Lumogis
