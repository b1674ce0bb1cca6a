import Lumogis.Lib.ChangeWatch
import Lumogis.Lib.Labelled
import Lumogis.SignalProcessing
import Mathlib.Logic.Function.Basic

/-!
# PageMonitor

The polls of watched pages. A source's content hash is remembered in the process; another hash makes a
signal for `process_signal`, and is remembered before that is called. So a change whose signal does not
get its row is not looked at again: what a poll fetched is the baseline or in the last stored change of the
source exactly if the poll that first found it stored it (`page_changes_kept_iff`). Seen from one source,
the polls are the observations of a `ChangeWatch` (`watch_poll`).
-/

namespace Lumogis.PageMonitor

open Labelled (Reaches)
open Permissions (isPySpace)
open Signals

variable {N F D : Type}

/-! ## The code -/

structure SourceConfig where
  id : Text
  name : Text
  sourceType : Text
  url : Text
  active : Bool
  userId : Text

/-- How the calls of one `_check_page` end. -/
structure PageCalls (N F : Type) where
  /-- `httpx.get` with `raise_for_status`. -/
  fetch : CallResult Text
  /-- `trafilatura.extract`. -/
  extract : Text → CallResult (Option Text)
  publishedAt : Nat
  createdAt : Nat
  processing : Calls N F

/-- `re.IGNORECASE` of a small letter: the dotless and the dotted I are an i too. -/
def foldLetter (c : Char) : Char :=
  if 0x41 ≤ c.toNat ∧ c.toNat ≤ 0x5a then Char.ofNat (c.toNat + 0x20)
  else if c.toNat = 0x130 ∨ c.toNat = 0x131 then 'i' else c

def beginsWith (tag s : Text) : Bool := tag.isPrefixOf (s.map foldLetter)

/-- What `<title[^>]*>([^<]+)</title>` captures at the beginning of a text. -/
def titleHere (s : Text) : Option Text :=
  if beginsWith "<title".toList s then
    match (s.drop 6).dropWhile (· ≠ '>') with
    | [] => none
    | _ :: rest =>
      let body := rest.takeWhile (· ≠ '<')
      if body ≠ [] ∧ beginsWith "</title>".toList (rest.drop body.length) then some body else none
  else none

/-- `_extract_title`. -/
def extractTitle : Text → Option Text
  | [] => none
  | c :: rest =>
    match titleHere (c :: rest) with
    | some title => some (Entries.strip isPySpace title)
    | none => extractTitle rest

structure RawPage where
  title : Text
  content : Text

/-- `PageScraper.poll`: the page, when there is text on it. -/
def scrape (source : SourceConfig) (calls : PageCalls N F) : CallResult (Option RawPage) :=
  match calls.fetch with
  | .raised => .returned none
  | .returned html =>
    if html = [] then .returned none
    else
      match calls.extract html with
      | .raised => .raised
      | .returned text =>
        if Entries.strip isPySpace (text.getD []) = [] then .returned none
        else
          let title := (extractTitle html).getD []
          .returned (some { title := if title = [] then source.name else title, content := text.getD [] })

/-- The process: the remembered hashes, the store, the id that is drawn next, and the log. -/
structure Monitor (N F D : Type) where
  hashes : Text → Option D := fun _ => none
  store : SignalStore N F := {}
  nextId : Nat := 0
  failures : List Failure := []

inductive Verdict where
  | baseline
  | unchanged
  | changed

section Scoring

variable [Scores F]

def changeSignal (source : SourceConfig) (calls : PageCalls N F) (page : RawPage) (drawn : Nat) : Signal N F where
  signalId := .drawn drawn
  sourceId := source.id
  title := "Page updated: ".toList ++ page.title
  url := source.url
  publishedAt := some calls.publishedAt
  contentSummary := .str []
  rawContent := page.content
  entities := .arr []
  topics := .arr [.str "page-change".toList]
  importanceScore := 0.0
  relevanceScore := 0.0
  notified := false
  createdAt := calls.createdAt
  userId := source.userId

variable [DecidableEq D]

def verdict (digest : Text → D) (stored : Option D) (content : Text) : Verdict :=
  match stored with
  | none => .baseline
  | some hash => if digest content = hash then .unchanged else .changed

def remember (digest : Text → D) (source : SourceConfig) (page : RawPage) (m : Monitor N F D) : Monitor N F D :=
  { m with hashes := Function.update m.hashes source.id (some (digest page.content)) }

/-- The change is made a signal of; an exception of `process_signal` is logged. -/
def signalChange (env : SignalEnv N F) (source : SourceConfig) (calls : PageCalls N F) (page : RawPage)
    (m : Monitor N F D) : Monitor N F D :=
  let processed := processSignal env calls.processing (changeSignal source calls page m.nextId) source.userId m.store
  { m with
    store := processed.store
    nextId := m.nextId + 1
    failures := m.failures ++ processed.failures ++ if processed.signal.isSome then [] else [.processing] }

/-- `_check_page`. -/
def checkPage (env : SignalEnv N F) (digest : Text → D) (source : SourceConfig) (calls : PageCalls N F)
    (m : Monitor N F D) : Monitor N F D :=
  match scrape source calls with
  | .raised => { m with failures := m.failures ++ [.uncaught] }
  | .returned none => { m with failures := m.failures ++ calls.fetch.logged .fetch }
  | .returned (some page) =>
    match verdict digest (m.hashes source.id) page.content with
    | .baseline => remember digest source page m
    | .unchanged => m
    | .changed => signalChange env source calls page (remember digest source page m)

/-- The rows that `_poll_all_pages` selects. -/
def isPageSource (source : SourceConfig) : Bool :=
  source.active && (source.sourceType = "page".toList || source.sourceType = "playwright".toList)

/-- The loop of `_poll_all_pages`, which an exception of the scraper ends. -/
def checkAll (env : SignalEnv N F) (digest : Text → D) (calls : Text → PageCalls N F) :
    List SourceConfig → Monitor N F D → Monitor N F D
  | [], m => m
  | source :: rest, m =>
    let checked := checkPage env digest source (calls source.id) m
    match scrape source (calls source.id) with
    | .raised => checked
    | .returned _ => checkAll env digest calls rest checked

def pollAllPages (env : SignalEnv N F) (digest : Text → D) (sources : CallResult (List SourceConfig))
    (calls : Text → PageCalls N F) (m : Monitor N F D) : Monitor N F D :=
  match sources with
  | .raised => { m with failures := m.failures ++ [.postgres] }
  | .returned rows => checkAll env digest calls (rows.filter isPageSource) m

end Scoring

/-! ## The history of the sources -/

/-- A check of one source. -/
structure Poll (N F : Type) where
  source : SourceConfig
  calls : PageCalls N F

/-- The text that a poll fetched. -/
def Poll.content (p : Poll N F) : Option Text :=
  match scrape p.source p.calls with
  | .returned (some page) => some page.content
  | _ => none

/-- The process with its history: of each source the first and the last text that a poll fetched, and of
each id that was drawn for a change the text of the change. -/
structure Traced (N F D : Type) where
  monitor : Monitor N F D
  baseline : Text → Option Text := fun _ => none
  seen : Text → Option Text := fun _ => none
  contents : SignalId → Option Text := fun _ => none

/-- The text of the last change of the source that is stored. -/
def Traced.lastChange (t : Traced N F D) (source : Text) : Option Text :=
  ((t.monitor.store.rows.filter fun row => row.sourceId = source).getLast?).bind fun row => t.contents row.signalId

/-- A text is the baseline of the source, or that of the last change stored. -/
def Accounted (t : Traced N F D) (source content : Text) : Prop :=
  t.baseline source = some content ∨ t.lastChange source = some content

variable {p : Poll N F} {t : Traced N F D} {page : RawPage} {source : Text}

theorem Poll.content_eq_some {c : Text} (h : p.content = some c) :
    ∃ page, scrape p.source p.calls = .returned (some page) ∧ page.content = c := by
  unfold Poll.content at h
  split at h
  · rename_i page hpage
    exact ⟨page, hpage, Option.some.inj h⟩
  · cases h

theorem Poll.content_of_scrape (h : scrape p.source p.calls = .returned (some page)) :
    p.content = some page.content := by
  rw [Poll.content, h]

/-- An id that is not drawn from `next` on. -/
def Before (next : Nat) (id : SignalId) : Prop := ∀ n, id = .drawn n → n < next

theorem Before.ne {next : Nat} {id : SignalId} (h : Before next id) : id ≠ .drawn next := by
  intro heq
  exact absurd (h next heq) (Nat.lt_irrefl _)

theorem Before.mono {next next' : Nat} {id : SignalId} (h : Before next id) (hle : next ≤ next') :
    Before next' id := by
  intro n hn
  exact Nat.lt_of_lt_of_le (h n hn) hle

/-- The ids of the rows were drawn. -/
def Drawn (t : Traced N F D) : Prop := ∀ row ∈ t.monitor.store.rows, Before t.monitor.nextId row.signalId

theorem lastChange_same {t' : Traced N F D} (hd : Drawn t) (hrows : t'.monitor.store.rows = t.monitor.store.rows)
    (hcontents : ∀ id, Before t.monitor.nextId id → t'.contents id = t.contents id) :
    t'.lastChange source = t.lastChange source := by
  rw [Traced.lastChange, Traced.lastChange, hrows]
  cases hl : (t.monitor.store.rows.filter fun row => row.sourceId = source).getLast? with
  | none => rfl
  | some row =>
    have hmem := List.mem_filter.mp (List.mem_of_getLast? hl)
    exact hcontents _ (hd row hmem.1)

theorem lastChange_append {t' : Traced N F D} {row : SignalRow N F} (hd : Drawn t)
    (hrows : t'.monitor.store.rows = t.monitor.store.rows ++ [row])
    (hcontents : ∀ id, Before t.monitor.nextId id → t'.contents id = t.contents id) :
    t'.lastChange source = if row.sourceId = source then t'.contents row.signalId else t.lastChange source := by
  by_cases hsource : row.sourceId = source
  · simp [Traced.lastChange, hrows, List.filter_append, hsource]
  · have hsame : t'.lastChange source
        = ({ t' with monitor := { t'.monitor with store := t.monitor.store } } : Traced N F D).lastChange source := by
      simp [Traced.lastChange, hrows, List.filter_append, hsource]
    rw [hsame, if_neg hsource]
    exact lastChange_same hd rfl hcontents

/-- A process begins: no hash is remembered, and the rows have ids that were drawn before. -/
structure Starts (m : Monitor N F D) : Prop where
  hashes : m.hashes = fun _ => none
  drawn : ∀ row ∈ m.store.rows, Before m.nextId row.signalId

/-- What is watched of one source. -/
def watch (t : Traced N F D) (source : Text) : ChangeWatch.Watch Text D where
  memory := t.monitor.hashes source
  seen := t.seen source
  baseline := t.baseline source
  recorded := t.lastChange source

/-- What holds of the process between polls. -/
structure Invariant (digest : Text → D) (t : Traced N F D) : Prop where
  drawn : Drawn t
  sound : ∀ source, ChangeWatch.Sound digest (watch t source)

theorem start_invariant (digest : Text → D) {m : Monitor N F D} (hm : Starts m) :
    Invariant digest { monitor := m } where
  drawn := hm.drawn
  sound source := ⟨by simp [watch, hm.hashes], fun c hc => by cases hc⟩

section History

variable [Scores F] [DecidableEq D]

def recordContent (digest : Text → D) (source content : Text) (t : Traced N F D) : Traced N F D :=
  match verdict digest (t.monitor.hashes source) content with
  | .baseline => { t with
      baseline := Function.update t.baseline source (some content)
      seen := Function.update t.seen source (some content) }
  | .unchanged => { t with seen := Function.update t.seen source (some content) }
  | .changed => { t with
      seen := Function.update t.seen source (some content)
      contents := Function.update t.contents (.drawn t.monitor.nextId) (some content) }

def pollStep (env : SignalEnv N F) (digest : Text → D) (p : Poll N F) (t : Traced N F D) : Traced N F D :=
  { p.content.elim t (recordContent digest p.source.id · t) with
    monitor := checkPage env digest p.source p.calls t.monitor }

/-- Nothing failed in the poll. -/
def Clean (env : SignalEnv N F) (digest : Text → D) (p : Poll N F) (t : Traced N F D) : Prop :=
  (pollStep env digest p t).monitor.failures = t.monitor.failures

/-- A text with the remembered hash is the one fetched last, and a change gets its row, unless the text is
accounted for already. -/
structure Keeps (env : SignalEnv N F) (digest : Text → D) (p : Poll N F) (t : Traced N F D) : Prop where
  same : ∀ page, scrape p.source p.calls = .returned (some page) →
    t.monitor.hashes p.source.id = some (digest page.content) →
    t.seen p.source.id = some page.content ∨ Accounted t p.source.id page.content
  changed : ∀ page hash, scrape p.source p.calls = .returned (some page) →
    t.monitor.hashes p.source.id = some hash → digest page.content ≠ hash →
    Persists env p.calls.processing (changeSignal p.source p.calls page t.monitor.nextId) p.source.userId ∨
      Accounted t p.source.id page.content

/-! ## What a poll does to what is watched -/

variable {env : SignalEnv N F} {digest : Text → D} {q : Poll N F}

theorem pollStep_idle (env : SignalEnv N F) (digest : Text → D) (t : Traced N F D) (h : p.content = none) :
    ∃ failures, pollStep env digest p t = { t with monitor := { t.monitor with failures := failures } } := by
  cases hs : scrape p.source p.calls with
  | raised => exact ⟨_, by simp [pollStep, h, checkPage, hs]; rfl⟩
  | returned page =>
    cases page with
    | none => exact ⟨_, by simp [pollStep, h, checkPage, hs]; rfl⟩
    | some page =>
      rw [Poll.content_of_scrape hs] at h
      cases h

theorem pollStep_page (h : scrape p.source p.calls = .returned (some page)) :
    pollStep env digest p t = { recordContent digest p.source.id page.content t with
      monitor := match verdict digest (t.monitor.hashes p.source.id) page.content with
        | .baseline => remember digest p.source page t.monitor
        | .unchanged => t.monitor
        | .changed => signalChange env p.source p.calls page (remember digest p.source page t.monitor) } := by
  simp only [pollStep, Poll.content_of_scrape h, checkPage, h, Option.elim_some]

/-- The processing that a change of the page gets. -/
abbrev Kept (env : SignalEnv N F) (p : Poll N F) (page : RawPage) (t : Traced N F D) : Prop :=
  Persists env p.calls.processing (changeSignal p.source p.calls page t.monitor.nextId) p.source.userId

theorem change_kept (hd : Drawn t) (h : scrape p.source p.calls = .returned (some page))
    (hv : verdict digest (t.monitor.hashes p.source.id) page.content = .changed) (hk : Kept env p page t) :
    ∃ row, row.signalId = .drawn t.monitor.nextId ∧ row.sourceId = p.source.id ∧
      (pollStep env digest p t).monitor.store.rows = t.monitor.store.rows ++ [row] := by
  have hfresh : ∀ row ∈ t.monitor.store.rows,
      row.signalId ≠ .drawn t.monitor.nextId := by
    intro row hrow
    exact (hd row hrow).ne
  obtain ⟨row, hid, hsource, hrows⟩ := processSignal_persists hk hfresh
  refine ⟨row, hid, hsource, ?_⟩
  rw [pollStep_page h, hv]
  exact hrows

theorem change_not_kept (h : scrape p.source p.calls = .returned (some page))
    (hv : verdict digest (t.monitor.hashes p.source.id) page.content = .changed) (hk : ¬ Kept env p page t) :
    (pollStep env digest p t).monitor.store.rows = t.monitor.store.rows := by
  rw [pollStep_page h, hv]
  exact processSignal_not_persists hk

theorem pollStep_contents {id : SignalId} (hid : Before t.monitor.nextId id) :
    (pollStep env digest p t).contents id = t.contents id := by
  cases hc : p.content with
  | none =>
    obtain ⟨failures, hidle⟩ := pollStep_idle env digest t hc
    rw [hidle]
  | some c =>
    obtain ⟨page, h, rfl⟩ := Poll.content_eq_some hc
    rw [pollStep_page h, recordContent]
    cases verdict digest (t.monitor.hashes p.source.id) page.content with
    | changed => exact Function.update_of_ne hid.ne _ _
    | _ => rfl

theorem pollStep_rows (env : SignalEnv N F) (digest : Text → D) (p : Poll N F) (hd : Drawn t) :
    ((pollStep env digest p t).monitor.store.rows = t.monitor.store.rows ∧
      t.monitor.nextId ≤ (pollStep env digest p t).monitor.nextId) ∨
    ∃ row, row.signalId = .drawn t.monitor.nextId ∧ row.sourceId = p.source.id ∧
      (pollStep env digest p t).monitor.store.rows = t.monitor.store.rows ++ [row] ∧
      t.monitor.nextId < (pollStep env digest p t).monitor.nextId := by
  cases hc : p.content with
  | none =>
    obtain ⟨failures, hidle⟩ := pollStep_idle env digest t hc
    rw [hidle]
    exact Or.inl ⟨rfl, Nat.le_refl _⟩
  | some c =>
    obtain ⟨page, h, rfl⟩ := Poll.content_eq_some hc
    cases hv : verdict digest (t.monitor.hashes p.source.id) page.content with
    | changed =>
      have hnext : (pollStep env digest p t).monitor.nextId = t.monitor.nextId + 1 := by
        rw [pollStep_page h, hv]
        rfl
      by_cases hk : Kept env p page t
      · obtain ⟨row, hid, hsource, hrows⟩ := change_kept hd h hv hk
        exact Or.inr ⟨row, hid, hsource, hrows, by omega⟩
      · exact Or.inl ⟨change_not_kept h hv hk, by omega⟩
    | baseline =>
      rw [pollStep_page h, hv]
      exact Or.inl ⟨rfl, Nat.le_refl _⟩
    | unchanged =>
      rw [pollStep_page h, hv]
      exact Or.inl ⟨rfl, Nat.le_refl _⟩

theorem pollStep_drawn (env : SignalEnv N F) (digest : Text → D) (p : Poll N F) (hd : Drawn t) :
    Drawn (pollStep env digest p t) := by
  intro row hrow
  rcases pollStep_rows env digest p hd with hsame | hnew
  · obtain ⟨hrows, hle⟩ := hsame
    rw [hrows] at hrow
    exact (hd row hrow).mono hle
  · obtain ⟨new, hid, _, hrows, hlt⟩ := hnew
    rw [hrows, List.mem_append, List.mem_singleton] at hrow
    rcases hrow with hold | rfl
    · exact (hd row hold).mono (Nat.le_of_lt hlt)
    · intro n hn
      rw [hid, SignalId.drawn.injEq] at hn
      omega

theorem watch_other (hd : Drawn t) (hne : source ≠ p.source.id) :
    watch (pollStep env digest p t) source = watch t source := by
  have hlast : (pollStep env digest p t).lastChange source = t.lastChange source := by
    rcases pollStep_rows env digest p hd with hsame | hnew
    · exact lastChange_same hd hsame.1 fun id hid => pollStep_contents hid
    · obtain ⟨row, _, hsource, hrows, _⟩ := hnew
      rw [lastChange_append hd hrows fun id hid => pollStep_contents hid, if_neg (by rw [hsource]; exact hne.symm)]
  cases hc : p.content with
  | none =>
    obtain ⟨failures, hidle⟩ := pollStep_idle env digest t hc
    rw [hidle]
    rfl
  | some c =>
    obtain ⟨page, h, rfl⟩ := Poll.content_eq_some hc
    simp only [watch, hlast, ChangeWatch.Watch.mk.injEq, and_true]
    rw [pollStep_page h, recordContent]
    cases verdict digest (t.monitor.hashes p.source.id) page.content <;>
      simp [remember, signalChange, hne]

theorem watch_poll (env : SignalEnv N F) (digest : Text → D) (hd : Drawn t)
    (h : scrape p.source p.calls = .returned (some page)) {kept : Bool}
    (hkept : kept = true ↔ Kept env p page t) :
    watch (pollStep env digest p t) p.source.id
      = ChangeWatch.observe digest page.content kept (watch t p.source.id) := by
  cases hm : t.monitor.hashes p.source.id with
  | none =>
    have hv : verdict digest (t.monitor.hashes p.source.id) page.content = .baseline := by rw [hm]; rfl
    have hlast : (pollStep env digest p t).lastChange p.source.id = t.lastChange p.source.id := by
      refine lastChange_same hd ?_ fun id hid => pollStep_contents hid
      rw [pollStep_page h, hv]
      rfl
    simp only [watch, hlast, ChangeWatch.observe, hm]
    rw [pollStep_page h, recordContent, hv]
    simp [remember]
  | some hash =>
    by_cases heq : digest page.content = hash
    · have hv : verdict digest (t.monitor.hashes p.source.id) page.content = .unchanged := by
        rw [hm, verdict, if_pos heq]
      have hlast : (pollStep env digest p t).lastChange p.source.id = t.lastChange p.source.id := by
        refine lastChange_same hd ?_ fun id hid => pollStep_contents hid
        rw [pollStep_page h, hv]
      simp only [watch, hlast, ChangeWatch.observe, hm, if_pos heq]
      rw [pollStep_page h, recordContent, hv]
      simp [hm]
    · have hv : verdict digest (t.monitor.hashes p.source.id) page.content = .changed := by
        rw [hm, verdict, if_neg heq]
      have hlast : (pollStep env digest p t).lastChange p.source.id
          = if kept then some page.content else t.lastChange p.source.id := by
        by_cases hk : Kept env p page t
        · obtain ⟨row, hid, hsource, hrows⟩ := change_kept hd h hv hk
          rw [lastChange_append hd hrows fun id hid => pollStep_contents hid, if_pos hsource,
            if_pos (hkept.mpr hk), hid, pollStep_page h, recordContent, hv]
          exact Function.update_self _ _ _
        · rw [if_neg fun htrue => hk (hkept.mp htrue)]
          exact lastChange_same hd (change_not_kept h hv hk) fun id hid => pollStep_contents hid
      simp only [watch, hlast, ChangeWatch.observe, hm, if_neg heq]
      rw [pollStep_page h, recordContent, hv]
      simp [remember, signalChange]

/-! ## Runs -/

omit [DecidableEq D] in
theorem keeps_iff (h : scrape p.source p.calls = .returned (some page)) {kept : Bool}
    (hkept : kept = true ↔ Kept env p page t) :
    ChangeWatch.Keeps digest page.content kept (watch t p.source.id) ↔ Keeps env digest p t := by
  have hpage : ∀ page', scrape p.source p.calls = .returned (some page') → page' = page := by
    intro page' h'
    rw [h] at h'
    cases h'
    rfl
  constructor
  · intro hk
    constructor
    · intro page' h' hm
      cases hpage page' h'
      exact hk.same hm
    · intro page' hash h' hm hne
      cases hpage page' h'
      exact (hk.changed hash hm hne).imp_left hkept.mp
  · intro hk
    refine ⟨fun hm => hk.same page h hm, fun hash hm hne => ?_⟩
    exact (hk.changed page hash h hm hne).imp_left hkept.mpr

theorem accounted_iff_keeps (env : SignalEnv N F) (hi : Invariant digest t)
    (h : scrape p.source p.calls = .returned (some page)) :
    Accounted (pollStep env digest p t) p.source.id page.content ↔ Keeps env digest p t := by
  classical
  have hkept : decide (Kept env p page t) = true ↔ Kept env p page t := decide_eq_true_iff
  rw [← keeps_iff h hkept, ← ChangeWatch.accounted_observe_iff (hi.sound p.source.id),
    ← watch_poll env digest hi.drawn h hkept]
  rfl

theorem pollStep_invariant (hi : Invariant digest t) (hk : Keeps env digest p t) :
    Invariant digest (pollStep env digest p t) where
  drawn := pollStep_drawn env digest p hi.drawn
  sound source := by
    classical
    by_cases hsource : source = p.source.id
    · cases hsource
      cases hc : p.content with
      | none =>
        obtain ⟨failures, hidle⟩ := pollStep_idle env digest t hc
        rw [hidle]
        exact hi.sound p.source.id
      | some c =>
        obtain ⟨page, h, rfl⟩ := Poll.content_eq_some hc
        have hkept : decide (Kept env p page t) = true ↔ Kept env p page t := decide_eq_true_iff
        rw [watch_poll env digest hi.drawn h hkept]
        exact ChangeWatch.observe_sound (hi.sound _) ((keeps_iff h hkept).mpr hk)
    · rw [watch_other hi.drawn hsource]
      exact hi.sound source

theorem pollStep_again (env : SignalEnv N F) (digest : Text → D) (hd : Drawn t)
    (h : scrape p.source p.calls = .returned (some page)) {page' : RawPage} (h' : scrape q.source q.calls = .returned (some page')) (hsource : q.source.id = p.source.id)
    (hcontent : page'.content = page.content) :
    Clean env digest q (pollStep env digest p t) ∧
    (Accounted (pollStep env digest q (pollStep env digest p t)) p.source.id page.content
      ↔ Accounted (pollStep env digest p t) p.source.id page.content) := by
  classical
  have hkept : decide (Kept env p page t) = true ↔ Kept env p page t := decide_eq_true_iff
  have hkept' : decide (Kept env q page' (pollStep env digest p t)) = true
      ↔ Kept env q page' (pollStep env digest p t) := decide_eq_true_iff
  have hwatch := watch_poll env digest hd h hkept
  have hmemory : (pollStep env digest p t).monitor.hashes p.source.id = some (digest page.content) := by
    have hm := congrArg ChangeWatch.Watch.memory hwatch
    rw [ChangeWatch.observe_memory] at hm
    exact hm
  constructor
  · have hv : verdict digest ((pollStep env digest p t).monitor.hashes q.source.id) page'.content = .unchanged := by
      rw [hsource, hmemory, hcontent, verdict, if_pos rfl]
    rw [Clean, pollStep_page h', hv]
  · have hwatch' := watch_poll env digest (pollStep_drawn env digest p hd) h' hkept'
    rw [hsource, hcontent, hwatch] at hwatch'
    have hagain := ChangeWatch.observe_again digest (watch t p.source.id) page.content
      (decide (Kept env p page t)) (decide (Kept env q page' (pollStep env digest p t))) page.content
    rw [← hwatch', ← hwatch] at hagain
    exact hagain

omit [DecidableEq D] in
theorem signalChange_clean {source : SourceConfig} {calls : PageCalls N F} {m : Monitor N F D}
    (h : (signalChange env source calls page m).failures = m.failures) :
    (processSignal env calls.processing (changeSignal source calls page m.nextId) source.userId m.store).failures = [] ∧
    (processSignal env calls.processing (changeSignal source calls page m.nextId) source.userId m.store).signal.isSome := by
  simp only [signalChange, List.append_assoc, List.append_right_eq_self, List.append_eq_nil_iff] at h
  obtain ⟨hfailures, hraised⟩ := h
  refine ⟨hfailures, ?_⟩
  by_contra hnone
  rw [if_neg hnone] at hraised
  cases hraised

theorem keeps_of_clean (hclean : Clean env digest p t)
    (hsame : ∀ page, scrape p.source p.calls = .returned (some page) →
      t.monitor.hashes p.source.id = some (digest page.content) → t.seen p.source.id = some page.content) :
    Keeps env digest p t where
  same page h hm := Or.inl (hsame page h hm)
  changed page hash h hm hne := by
    have hv : verdict digest (t.monitor.hashes p.source.id) page.content = .changed := by
      rw [hm, verdict, if_neg hne]
    rw [Clean, pollStep_page h, hv] at hclean
    obtain ⟨hfailures, hsignal⟩ := signalChange_clean hclean
    exact Or.inl (persists_of_clean hsignal hfailures)

/-- `_poll_all_pages` is a run of polls. -/
theorem checkAll_reaches (env : SignalEnv N F) (digest : Text → D) (calls : Text → PageCalls N F)
    (sources : List SourceConfig) (t : Traced N F D) :
    ∃ t', Reaches (fun p t => some (pollStep env digest p t)) (fun _ _ => True) t t' ∧
      t'.monitor = checkAll env digest calls sources t.monitor := by
  induction sources generalizing t with
  | nil => exact ⟨t, .start, rfl⟩
  | cons source rest ih =>
    let p : Poll N F := { source := source, calls := calls source.id }
    have hfirst : Reaches (fun p t => some (pollStep env digest p t)) (fun _ _ => True) t (pollStep env digest p t) :=
      Reaches.single (l := p) trivial rfl
    simp only [checkAll]
    cases scrape source (calls source.id) with
    | raised => exact ⟨_, hfirst, rfl⟩
    | returned page =>
      obtain ⟨t', hrest, hmonitor⟩ := ih (pollStep env digest p t)
      exact ⟨t', hfirst.trans hrest, hmonitor⟩

/-- In a run whose polls all meet the condition, what a poll fetched is accounted for after it exactly if
the poll meets it too; and after one that does not, the next poll that fetches the same text finds nothing
to do, fails in nothing, and leaves it unaccounted for. -/
theorem page_changes_kept_iff {m : Monitor N F D} (hm : Starts m)
    (hrun : Reaches (fun p t => some (pollStep env digest p t)) (Keeps env digest) { monitor := m } t)
    (p : Poll N F) {c : Text} (hc : p.content = some c) :
    (Accounted (pollStep env digest p t) p.source.id c ↔ Keeps env digest p t) ∧
    ∀ q : Poll N F, q.source.id = p.source.id → q.content = some c →
      Clean env digest q (pollStep env digest p t) ∧
      (Accounted (pollStep env digest q (pollStep env digest p t)) p.source.id c ↔ Keeps env digest p t) := by
  have hi : Invariant digest t := by
    refine hrun.invariant (start_invariant digest hm) ?_
    intro p s s' hs hk hstep
    cases hstep
    exact pollStep_invariant hs hk
  obtain ⟨page, h, rfl⟩ := Poll.content_eq_some hc
  have hfirst := accounted_iff_keeps env hi h
  refine ⟨hfirst, ?_⟩
  intro q hsource hq
  obtain ⟨page', h', hcontent⟩ := Poll.content_eq_some hq
  obtain ⟨hclean, hagain⟩ := pollStep_again env digest hi.drawn h h' hsource hcontent
  exact ⟨hclean, hagain.trans hfirst⟩

end History

/-! ## A change whose row is not inserted -/

instance : Scores Rat where
  decidableLT := inferInstance
  decidableLE := inferInstance

instance {t : Traced N F D} {source content : Text} : Decidable (Accounted t source content) :=
  inferInstanceAs (Decidable (_ ∨ _))

instance [Scores F] [DecidableEq D] {env : SignalEnv N F} {digest : Text → D} {p : Poll N F} {t : Traced N F D} :
    Decidable (Clean env digest p t) := inferInstanceAs (Decidable (_ = _))

/-- No model may be called. -/
def localEnv : SignalEnv Rat Rat where
  threshold := some 0.4
  needsUserKey := false
  lower := id
  loads := fun _ => none
  number := some
  parse := fun _ => none
  round := id
  sources := [("7".toList, "https://town.example/notices".toList, "Notices".toList)]

/-- The text that a poll of the source finds, and how its insert ends. -/
def notices (text : String) (insert : CallResult Unit) : Poll Rat Rat where
  source :=
    { id := "7".toList, name := "Notices".toList, sourceType := "page".toList,
      url := "https://town.example/notices".toList, active := true, userId := "u1".toList }
  calls :=
    { fetch := .returned "<html>".toList
      extract := fun _ => .returned (some text.toList)
      publishedAt := 0
      createdAt := 0
      processing :=
        { budget := .returned 2048, jobModel := .returned none, chat := fun _ _ => .raised,
          profile := .returned none, emit := fun _ => .returned .delivered, fireBackground := .returned (),
          insert := insert, embed := .returned () } }

def afterNotices (polls : List (Poll Rat Rat)) : Traced Rat Rat Text :=
  polls.foldl (fun t p => pollStep localEnv id p t) { monitor := {} }

theorem page_changes_kept_iff_notices :
    Accounted (afterNotices [notices "A" (.returned ()), notices "B" (.returned ())]) "7".toList "B".toList := by
  have hstart : Starts ({} : Monitor Rat Rat Text) := ⟨rfl, fun row hrow => by cases hrow⟩
  have hfirst : Keeps localEnv id (notices "A" (.returned ())) (afterNotices []) :=
    keeps_of_clean (by decide +kernel) fun page _ hm => by cases hm
  have hsecond : Keeps localEnv id (notices "B" (.returned ())) (afterNotices [notices "A" (.returned ())]) := by
    refine keeps_of_clean (by decide +kernel) fun page h hm => ?_
    have hpage := Poll.content_of_scrape h
    have htext : (notices "B" (.returned ())).content = some "B".toList := by decide +kernel
    have hhash : (afterNotices [notices "A" (.returned ())]).monitor.hashes "7".toList = some "A".toList := by
      decide +kernel
    rw [htext] at hpage
    have hsame := hhash.symm.trans hm
    rw [id, ← Option.some.inj hpage] at hsame
    exact absurd hsame (by decide)
  exact (page_changes_kept_iff hstart (Reaches.single hfirst rfl) (notices "B" (.returned ()))
    (by decide +kernel)).1.mpr hsecond

/-- The row of the change to "B" is not inserted; the next poll fetches "B", nothing fails in it, and the
last that was stored of the source is the baseline "A". -/
theorem change_lost : ∃ t, Reaches (fun p t => some (pollStep localEnv id p t)) (fun _ _ => True)
      { monitor := ({} : Monitor Rat Rat Text) } t ∧
    Clean localEnv id (notices "B" (.returned ())) t ∧
    (notices "B" (.returned ())).content = some "B".toList ∧
    ¬ Accounted (pollStep localEnv id (notices "B" (.returned ())) t) "7".toList "B".toList := by
  refine ⟨afterNotices [notices "A" (.returned ()), notices "B" .raised], ?_, by decide +kernel, by decide +kernel,
    by decide +kernel⟩
  exact (Reaches.single (l := notices "A" (.returned ())) trivial rfl).trans
    (Reaches.single (l := notices "B" .raised) trivial rfl)

end Lumogis.PageMonitor
