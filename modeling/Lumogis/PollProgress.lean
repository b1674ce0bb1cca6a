import Lumogis.PaperlessPolling
import Mathlib.Logic.Function.Iterate

/-!
# Lumogis.PollProgress

A poll tick in which nothing fails, run to its end (`pollPaperlessSource`). It moves the cursor exactly
when the first page it is given has a document with content and the first of these fits into the cap on
chunks; otherwise it ends where it began, and so does every later tick (`poll_progresses`).
-/

namespace Lumogis

open Labelled

variable {τ : Type} [LinearOrder τ]

/-- The next label of a tick in which nothing fails. -/
def faultless (written : PaperlessDocument τ → Nat) (t : PollTick τ) : PollLabel τ :=
  match t.docs with
  | [] => .request .answered
  | doc :: _ => .document ⟨written doc, 0, none⟩

/-- Nothing is left to do when there is no tick. -/
def tickStep (env : PollEnv) (written : PaperlessDocument τ → Nat) (st : PollState τ) : PollState τ :=
  match st.tick with
  | none => st
  | some t => (pollStep env (faultless written t) st).getD st

def PollState.started (st : PollState τ) : PollState τ := { st with tick := some { fetchSince := st.source.pollCursor } }

/-- `_poll_paperless_source`: every document takes a turn, and so does every page but the last. -/
def pollPaperlessSource (env : PollEnv) (written : PaperlessDocument τ → Nat) (st : PollState τ) : PollState τ :=
  (tickStep env written)^[2 * st.documents.length + 1] st.started

/-- The cursor has moved on, or everything after it is ingested. -/
def Progress (env : PollEnv) (st st' : PollState τ) : Prop :=
  (∃ c' ∈ st'.source.pollCursor, ∀ c ∈ st.source.pollCursor, c < c') ∨
    ∀ d ∈ listed st.documents st.source.pollCursor, hasContent d = true → st'.source.Ingested env d

instance (env : PollEnv) (st st' : PollState τ) : Decidable (Progress env st st') :=
  inferInstanceAs (Decidable ((∃ c' ∈ st'.source.pollCursor, ∀ c ∈ st.source.pollCursor, c < c') ∨ ∀ d ∈ _, _ → _))

/-- The first page has a document with content, and the first of these fits into the cap. -/
def FirstFits (env : PollEnv) (st : PollState τ) : Prop :=
  ∃ d ∈ (fetchDocumentsPage env st.documents st.source.pollCursor 1).head?,
    env.estChunks d.content ≤ maxPaperlessChunksPerTick

instance (env : PollEnv) (st : PollState τ) : Decidable (FirstFits env st) :=
  inferInstanceAs (Decidable (∃ d ∈ (fetchDocumentsPage env st.documents st.source.pollCursor 1).head?, _))

/-- There is nothing left to ingest. -/
def NothingToIngest (env : PollEnv) (st : PollState τ) : Prop :=
  ∀ d ∈ listed st.documents st.source.pollCursor, hasContent d = true → st.source.Ingested env d

section Proofs

variable {env : PollEnv} {written : PaperlessDocument τ → Nat} {st st' : PollState τ} {t : PollTick τ}
  {doc : PaperlessDocument τ} {rest : List (PaperlessDocument τ)}

/-! ## One turn -/

theorem tickStep_request (ht : st.tick = some t) (hdocs : t.docs = []) :
    tickStep env written st = { st with tick := pollPage env .answered st.documents t } := by
  simp [tickStep, faultless, ht, hdocs, pollStep]

theorem tickStep_document (ht : st.tick = some t) (hdocs : t.docs = doc :: rest) :
    tickStep env written st = { st with
      tick := (pollDocument env ⟨written doc, 0, none⟩ doc rest t st.source).1
      source := (pollDocument env ⟨written doc, 0, none⟩ doc rest t st.source).2 } := by
  simp [tickStep, faultless, ht, hdocs, pollStep]

theorem tickStep_idle (h : st.tick = none) : tickStep env written st = st := by
  simp [tickStep, h]

/-- Every turn is a step of the system. -/
theorem tickStep_reaches {s₀ : PollState τ} (h : Reaches (pollStep env) (fun _ _ => True) s₀ st) :
    Reaches (pollStep env) (fun _ _ => True) s₀ (tickStep env written st) := by
  cases ht : st.tick with
  | none => rwa [tickStep_idle ht]
  | some t =>
    cases hstep : pollStep env (faultless written t) st with
    | none =>
      simp only [tickStep, ht, hstep, Option.getD_none]
      exact h
    | some st' =>
      simp only [tickStep, ht, hstep, Option.getD_some]
      exact h.next trivial hstep

theorem poll_reaches (hidle : st.tick = none) :
    Reaches (pollStep env) (fun _ _ => True) st (pollPaperlessSource env written st) := by
  have hstart : Reaches (pollStep env) (fun _ _ => True) st st.started := by
    refine .single (l := .start) trivial ?_
    simp [pollStep, hidle, PollState.started]
  unfold pollPaperlessSource
  generalize 2 * st.documents.length + 1 = n
  induction n with
  | zero => exact hstart
  | succ n ih =>
    rw [Function.iterate_succ_apply']
    exact tickStep_reaches ih

/-! ## The tick ends -/

/-- What is left of the tick: the rows to come count twice, once for their page. -/
def ticksLeft (env : PollEnv) (st : PollState τ) : Nat :=
  match st.tick with
  | none => 0
  | some t => 1 + 2 * ((listed st.documents t.fetchSince).length - t.requested env) + t.docs.length

theorem ticksLeft_of_tick (ht : st.tick = some t) : ticksLeft env st =
    1 + 2 * ((listed st.documents t.fetchSince).length - t.requested env) + t.docs.length := by
  simp [ticksLeft, ht]

theorem ticksLeft_of_idle (h : st.tick = none) : ticksLeft env st = 0 := by
  simp [ticksLeft, h]

theorem idle_of_ticksLeft (h : ticksLeft env st = 0) : st.tick = none := by
  cases ht : st.tick with
  | none => rfl
  | some t =>
    rw [ticksLeft_of_tick ht] at h
    omega

/-- The tick is under way and has requested a page at least once, or is about to. -/
def PageOk (st : PollState τ) : Prop := ∀ t ∈ st.tick, 1 ≤ t.page

theorem fetchDocumentsPage_length_le {documents : List (PaperlessDocument τ)} :
    (fetchDocumentsPage env documents t.fetchSince t.page).length ≤
      min env.pageSize ((listed documents t.fetchSince).length - t.requested env) := by
  refine le_trans (List.length_filter_le _ _) (le_of_eq ?_)
  rw [pageRows, List.length_take, List.length_drop]
  rfl

theorem pollDocument_goneOn {fate : IngestFate} {t' : PollTick τ}
    (h : (pollDocument env fate doc rest t st.source).1 = some t') : GoneOn rest t t' := by
  unfold pollDocument at h
  by_cases hcaps : t.BelowCaps
  · rw [if_neg (not_not_intro hcaps)] at h
    split at h
    · obtain rfl := Option.some.inj h
      exact ⟨rfl, rfl, rfl, rfl⟩
    · split at h
      · cases h
      · split at h
        · cases h
        · split at h
          · cases h
          · obtain rfl := Option.some.inj h
            exact ⟨rfl, rfl, rfl, rfl⟩
  · rw [if_pos hcaps] at h
    cases h

theorem tickStep_ticksLeft (hpage : PageOk st) (ht : st.tick = some t) :
    PageOk (tickStep env written st) ∧ ticksLeft env (tickStep env written st) < ticksLeft env st := by
  have hone := hpage t ht
  rw [ticksLeft_of_tick ht]
  cases hdocs : t.docs with
  | nil =>
    rw [tickStep_request ht hdocs]
    by_cases hbrings : Brings env .answered st.documents t
    · have hne := List.length_pos_iff.mpr hbrings.2.2
      have hle := @fetchDocumentsPage_length_le _ _ env t st.documents
      rw [pollPage_of_brings hbrings]
      refine ⟨?_, ?_⟩
      · intro t' ht'
        obtain rfl := (Option.some.inj ht').symm
        exact Nat.le_add_left 1 _
      · rw [ticksLeft_of_tick rfl, requested_next hone rfl]
        simp only [List.length_nil]
        omega
    · rw [pollPage_of_not_brings hbrings]
      refine ⟨fun t' ht' => (by cases ht'), ?_⟩
      rw [ticksLeft_of_idle rfl]
      omega
  | cons doc rest =>
    rw [tickStep_document ht hdocs]
    cases hnext : (pollDocument env ⟨written doc, 0, none⟩ doc rest t st.source).1 with
    | none =>
      refine ⟨fun t' ht' => (by cases ht'), ?_⟩
      rw [ticksLeft_of_idle rfl]
      omega
    | some t' =>
      have hgone := pollDocument_goneOn hnext
      refine ⟨?_, ?_⟩
      · intro t'' ht''
        obtain rfl := Option.some.inj ht''
        rw [hgone.page]
        exact hone
      · rw [ticksLeft_of_tick rfl, PollTick.requested, hgone.page, hgone.docs, hgone.fetchSince]
        simp only [List.length_cons, PollTick.requested]
        omega

theorem iterate_ends (n : Nat) (hpage : PageOk st) (hn : ticksLeft env st ≤ n) :
    ((tickStep env written)^[n] st).tick = none := by
  induction n generalizing st with
  | zero => exact idle_of_ticksLeft (Nat.le_zero.mp hn)
  | succ n ih =>
    rw [Function.iterate_succ_apply]
    cases ht : st.tick with
    | none =>
      rw [tickStep_idle ht]
      refine ih hpage ?_
      rw [ticksLeft_of_idle ht]
      exact Nat.zero_le n
    | some t =>
      obtain ⟨hpage', hlt⟩ := @tickStep_ticksLeft _ _ env written _ _ hpage ht
      exact ih hpage' (by omega)

theorem poll_ends : (pollPaperlessSource env written st).tick = none := by
  refine iterate_ends _ ?_ ?_
  · intro t ht
    obtain rfl := (Option.some.inj ht).symm
    exact Nat.le_refl 1
  · rw [ticksLeft_of_tick rfl]
    have hle : (listed st.documents st.source.pollCursor).length ≤ st.documents.length := List.length_filter_le _ _
    simp only [PollState.started, List.length_nil]
    omega

/-! ## The cursor only moves on -/

/-- A later cursor. -/
def CursorLe (s s' : PaperlessSource τ) : Prop := ∀ c ∈ s.pollCursor, ∃ c' ∈ s'.pollCursor, c ≤ c'

theorem CursorLe.refl {s : PaperlessSource τ} : CursorLe s s := fun c hc => ⟨c, hc, le_refl c⟩

theorem CursorLe.advance {s : PaperlessSource τ} (w : τ) : CursorLe s (s.advance w) := by
  intro c hc
  rw [Option.mem_def] at hc
  simp only [PaperlessSource.advance, hc]
  by_cases hlt : c < w
  · rw [if_pos hlt]
    exact ⟨w, rfl, le_of_lt hlt⟩
  · rw [if_neg hlt]
    exact ⟨c, hc, le_refl c⟩

theorem ingest_cursorLe {fate : IngestFate} {stored : Option τ} {s : PaperlessSource τ} :
    CursorLe s (ingestExternalDocument env fate doc stored s).2 := by
  have hset : ∀ row, CursorLe s ((s.setRow doc.id row).advance doc.added) := fun row =>
    CursorLe.advance (s := s.setRow doc.id row) doc.added
  unfold ingestExternalDocument
  dsimp only
  split
  · exact .refl
  · split
    · exact .refl
    · split
      · exact .advance _
      · split
        · exact .refl
        · exact hset _
        · split
          · exact CursorLe.refl (s := s)
          · exact hset _

theorem pollDocument_cursorLe {fate : IngestFate} {s : PaperlessSource τ} :
    CursorLe s (pollDocument env fate doc rest t s).2 := by
  have hingest : CursorLe s (ingestExternalDocument env fate doc s.pollCursor s).2 := ingest_cursorLe
  unfold pollDocument
  dsimp only
  split
  · exact .refl
  · split
    · exact .refl
    · split
      · exact .refl
      · split
        · rename_i heq
          rwa [heq] at hingest
        · rename_i heq
          rw [heq] at hingest
          split <;> exact hingest

theorem tickStep_cursorLe : CursorLe st.source (tickStep env written st).source := by
  cases ht : st.tick with
  | none =>
    rw [tickStep_idle ht]
    exact .refl
  | some t =>
    cases hdocs : t.docs with
    | nil =>
      rw [tickStep_request ht hdocs]
      exact .refl
    | cons doc rest =>
      rw [tickStep_document ht hdocs]
      exact pollDocument_cursorLe

theorem iterate_cursorLe (n : Nat) : CursorLe st.source ((tickStep env written)^[n] st).source := by
  induction n generalizing st with
  | zero => exact .refl
  | succ n ih =>
    rw [Function.iterate_succ_apply]
    intro c hc
    obtain ⟨c', hc', hle⟩ := @tickStep_cursorLe _ _ env written _ c hc
    obtain ⟨c'', hc'', hle'⟩ := ih c' hc'
    exact ⟨c'', hc'', le_trans hle hle'⟩

theorem iterate_idle (h : st.tick = none) (n : Nat) : (tickStep env written)^[n] st = st :=
  Function.iterate_fixed (tickStep_idle h) n

/-! ## The first page -/

theorem started_turn : tickStep env written st.started =
    { st with tick := pollPage env .answered st.documents { fetchSince := st.source.pollCursor } } :=
  tickStep_request (t := { fetchSince := st.source.pollCursor }) rfl rfl

omit [LinearOrder τ] in
theorem belowCaps_first (hdone : t.docsDone = 0) (hused : t.chunksUsed = 0) : t.BelowCaps := by
  rw [PollTick.BelowCaps, hdone, hused]
  decide

theorem poll_of_empty_page (h : fetchDocumentsPage env st.documents st.source.pollCursor 1 = []) :
    (pollPaperlessSource env written st).source = st.source := by
  have hnot : ¬ Brings env .answered st.documents ({ fetchSince := st.source.pollCursor } : PollTick τ) :=
    fun hb => hb.2.2 h
  rw [pollPaperlessSource, Function.iterate_succ_apply, started_turn, pollPage_of_not_brings hnot, iterate_idle rfl]

/-- The tick of the first page. -/
def firstPage (env : PollEnv) (st : PollState τ) : PollTick τ where
  fetchSince := st.source.pollCursor
  page := 2
  docs := fetchDocumentsPage env st.documents st.source.pollCursor 1
  short := decide ((pageRows env st.documents st.source.pollCursor 1).length < env.pageSize)

theorem started_turn_brings (h : fetchDocumentsPage env st.documents st.source.pollCursor 1 = doc :: rest) :
    tickStep env written st.started = { st with tick := some (firstPage env st) } := by
  have hbrings : Brings env .answered st.documents ({ fetchSince := st.source.pollCursor } : PollTick τ) :=
    ⟨belowCaps_first rfl rfl, rfl, by simp [h]⟩
  rw [started_turn, pollPage_of_brings hbrings]
  rfl

theorem poll_first (h : fetchDocumentsPage env st.documents st.source.pollCursor 1 = doc :: rest) :
    ∃ n, pollPaperlessSource env written st = (tickStep env written)^[n] { st with
      tick := (pollDocument env ⟨written doc, 0, none⟩ doc rest (firstPage env st) st.source).1
      source := (pollDocument env ⟨written doc, 0, none⟩ doc rest (firstPage env st) st.source).2 } := by
  have hdocs : st.documents ≠ [] := by
    intro hnil
    simp [fetchDocumentsPage, pageRows, listed, hnil] at h
  obtain ⟨n, hn⟩ := Nat.exists_eq_add_of_le (List.length_pos_iff.mpr hdocs)
  refine ⟨2 * n + 1, ?_⟩
  have hfuel : 2 * st.documents.length + 1 = (2 * n + 1) + 1 + 1 := by omega
  rw [pollPaperlessSource, hfuel, Function.iterate_succ_apply, Function.iterate_succ_apply, started_turn_brings h]
  refine congrArg _ ?_
  exact @tickStep_document _ _ _ _ { st with tick := some (firstPage env st) } _ _ _ rfl h

theorem first_after_cursor (h : fetchDocumentsPage env st.documents st.source.pollCursor 1 = doc :: rest) :
    ∀ c ∈ st.source.pollCursor, c < doc.added := by
  have hmem : doc ∈ fetchDocumentsPage env st.documents st.source.pollCursor 1 := h ▸ List.mem_cons_self
  have hrow := List.mem_of_mem_take (List.mem_of_mem_filter hmem)
  exact (mem_listed.mp (List.mem_of_mem_drop hrow)).2

theorem poll_of_oversized (h : fetchDocumentsPage env st.documents st.source.pollCursor 1 = doc :: rest)
    (hfits : maxPaperlessChunksPerTick < env.estChunks doc.content) :
    (pollPaperlessSource env written st).source = st.source := by
  obtain ⟨n, hn⟩ := @poll_first _ _ _ written _ _ _ h
  have hcursor : ∀ c ∈ st.source.pollCursor, c ≤ doc.added := fun c hc => le_of_lt (first_after_cursor h c hc)
  have hcaps : (firstPage env st).BelowCaps := belowCaps_first rfl rfl
  have hover : maxPaperlessChunksPerTick < (firstPage env st).chunksUsed + env.estChunks doc.content := by
    simpa [firstPage] using hfits
  have hend : pollDocument env ⟨written doc, 0, none⟩ doc rest (firstPage env st) st.source = (none, st.source) := by
    unfold pollDocument
    rw [if_neg (not_not_intro hcaps), if_neg (not_skewed hcursor), if_pos hover]
  rw [hn, hend, iterate_idle rfl]

theorem poll_of_fits (h : fetchDocumentsPage env st.documents st.source.pollCursor 1 = doc :: rest)
    (hfits : env.estChunks doc.content ≤ maxPaperlessChunksPerTick) (hchunks : env.chunkCount doc.content ≠ none) :
    ∃ c' ∈ (pollPaperlessSource env written st).source.pollCursor, ∀ c ∈ st.source.pollCursor, c < c' := by
  obtain ⟨n, hn⟩ := @poll_first _ _ _ written _ _ _ h
  have hafter := first_after_cursor h
  have hcursor : ∀ c ∈ st.source.pollCursor, c ≤ doc.added := fun c hc => le_of_lt (hafter c hc)
  have hcommits : Commits env ⟨written doc, 0, none⟩ doc := ⟨by simp, hchunks, .inr rfl⟩
  have hstores : StoresRow env ⟨written doc, 0, none⟩ doc (firstPage env st) :=
    ⟨belowCaps_first rfl rfl, by simpa [firstPage] using hfits, hcommits⟩
  obtain ⟨-, hspec⟩ := @pollDocument_spec _ _ env ⟨written doc, 0, none⟩ _ rest _ (firstPage env st) hcursor
  obtain ⟨t', s', heq, -, hmoved⟩ | ⟨s', -, hgoes, -⟩ := hspec
  · rw [hn, heq]
    obtain ⟨c', hc', hle⟩ := @iterate_cursorLe _ _ env written { st with tick := some t', source := s' } n doc.added hmoved.cursor
    exact ⟨c', hc', fun c hc => lt_of_lt_of_le (hafter c hc) hle⟩
  · exact absurd ⟨hstores, .inr rfl⟩ hgoes

theorem progress_of_unmoved (h : st'.source = st.source) : Progress env st st' ↔ NothingToIngest env st := by
  refine ⟨fun hp => ?_, fun hn => .inr ?_⟩
  · cases hp with
    | inl hmoved =>
      obtain ⟨c', hc', hlt⟩ := hmoved
      rw [h] at hc'
      exact absurd (hlt c' hc') (lt_irrefl c')
    | inr hall =>
      rw [h] at hall
      exact hall
  · rw [h]
    exact hn

/-- A tick in which nothing fails ends, and makes progress exactly when it can take the first document. -/
theorem poll_progresses (hchunks : ∀ d ∈ st.documents, env.chunkCount d.content ≠ none) :
    (pollPaperlessSource env written st).tick = none ∧
      (Progress env st (pollPaperlessSource env written st) ↔ FirstFits env st ∨ NothingToIngest env st) := by
  refine ⟨poll_ends, ?_⟩
  cases h : fetchDocumentsPage env st.documents st.source.pollCursor 1 with
  | nil =>
    have hnot : ¬ FirstFits env st := by simp [FirstFits, h]
    rw [progress_of_unmoved (poll_of_empty_page h)]
    exact ⟨.inr, fun hor => hor.resolve_left hnot⟩
  | cons doc rest =>
    have hmem : doc ∈ fetchDocumentsPage env st.documents st.source.pollCursor 1 := h ▸ List.mem_cons_self
    have hrow := List.mem_of_mem_take (List.mem_of_mem_filter hmem)
    have hdoc : doc ∈ st.documents := (mem_listed.mp (List.mem_of_mem_drop hrow)).1
    have hiff : FirstFits env st ↔ env.estChunks doc.content ≤ maxPaperlessChunksPerTick := by simp [FirstFits, h]
    by_cases hfits : env.estChunks doc.content ≤ maxPaperlessChunksPerTick
    · exact ⟨fun _ => .inl (hiff.mpr hfits), fun _ => .inl (poll_of_fits h hfits (hchunks doc hdoc))⟩
    · rw [progress_of_unmoved (poll_of_oversized h (not_le.mp hfits))]
      exact ⟨.inr, fun hor => hor.resolve_left (mt hiff.mp hfits)⟩

end Proofs

/-! ## A page without text -/

/-- A source with a document a page. -/
def singleEnv : PollEnv := { plainPollEnv with pollPageSize := 1 }

/-- The oldest document is empty. -/
def blankFirst : PollState Nat := { PollState.start with documents := [⟨1, "", 0⟩, ⟨2, "two", 1⟩] }

theorem poll_progresses_pair : (pollPaperlessSource plainPollEnv (fun _ => 1) blankFirst).tick = none ∧
    (Progress plainPollEnv blankFirst (pollPaperlessSource plainPollEnv (fun _ => 1) blankFirst) ↔
      FirstFits plainPollEnv blankFirst ∨ NothingToIngest plainPollEnv blankFirst) ∧ FirstFits plainPollEnv blankFirst :=
  have h := @poll_progresses _ _ plainPollEnv (fun _ => 1) blankFirst (by decide)
  ⟨h.1, h.2, by decide⟩

theorem blank_page_stalls : ¬ ∀ (env : PollEnv) (written : PaperlessDocument Nat → Nat) (st : PollState Nat),
    (∀ d ∈ st.documents, env.chunkCount d.content ≠ none) →
      Progress env st (pollPaperlessSource env written st) := by
  intro h
  exact absurd (h singleEnv (fun _ => 1) blankFirst (by decide)) (by decide)

end Lumogis
