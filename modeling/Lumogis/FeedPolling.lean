import Lumogis.PageMonitor

/-!
# FeedPolling

The signal ticks of the feed monitor: an adapter's entries, the look for a row with the entry's url, and
`process_signal`. Ticks of different sources overlap, so the look, the processing and the insert of an entry
are steps of their own. Each entry carries what it is an entry of, its item, which no function reads; the
history knows of which item each row is, and of which items the user was told.

An item that a tick without store faults saw has one row and was told once in every run whose steps all
meet a condition (`items_taken_once`): a row with the entry's url is the item's, what is inserted is not
there yet and what is told was not told, and the reply of the model can be read. The condition is no
stronger than what keeps the counts from step to step (`keeps_iff`).
-/

namespace Lumogis.FeedPolling

open Labelled (Reaches)
open Permissions (isPySpace)
open Signals PageMonitor

variable {N F I : Type}

/-! ## The entries of the adapters -/

structure FeedEntry where
  title : Option Text
  link : Option Text
  summary : Option Text
  /-- The values of `content`. -/
  contents : List (Option Text)
  published : Option Nat

structure CalendarEvent where
  summary : Option Text
  location : Option Text
  description : Option Text
  uid : Option Text
  /-- The instant, and its ISO text. -/
  start : Option (Nat × Text)

/-- What an adapter fetched, each entry with its item. -/
inductive Fetched (N F I : Type) where
  | feed (entries : List (FeedEntry × I))
  | page (calls : PageCalls N F) (item : I)
  /-- `none`: an event that cannot be read. -/
  | calendar (events : List (Option CalendarEvent × I))
  | failed

structure FeedEnv (N F : Type) where
  signals : SignalEnv N F
  uuid5 : Text → Nat

structure Raw (N F I : Type) where
  signal : Signal N F
  item : I

def FeedEntry.raw (entry : FeedEntry) : Text :=
  let summary := entry.summary.getD []
  if summary = [] then (entry.contents.head?.getD none).getD [] else summary

def caldavSignalId (env : FeedEnv N F) (userId uid : Text) : SignalId :=
  .derived (env.uuid5 ("caldav::".toList ++ userId ++ "::".toList ++ uid))

section Adapters

variable [Scores F]

def rawSignal (source : SourceConfig) (id : SignalId) (title url content : Text) (topics : List Text)
    (published : Option Nat) (created : Nat) : Signal N F where
  signalId := id
  sourceId := source.id
  title := title
  url := url
  publishedAt := published
  contentSummary := .str []
  rawContent := content
  entities := .arr []
  topics := .arr (topics.map .str)
  importanceScore := 0.0
  relevanceScore := 0.0
  notified := false
  createdAt := created
  userId := source.userId

def feedSignal (source : SourceConfig) (entry : FeedEntry) (drawn created : Nat) : Signal N F :=
  rawSignal source (.drawn drawn) (Entries.strip isPySpace (entry.title.getD [])) (entry.link.getD []) entry.raw []
    entry.published created

def pageSignal (source : SourceConfig) (page : RawPage) (drawn created : Nat) : Signal N F :=
  rawSignal source (.drawn drawn) page.title source.url page.content [] none created

/-- `_event_to_signal`. An event without a uid gets a drawn one. -/
def eventSignal (env : FeedEnv N F) (source : SourceConfig) (event : CalendarEvent) (drawn created : Nat) :
    Signal N F :=
  let summary := event.summary.getD "Calendar Event".toList
  let id := match event.uid with
    | some uid => caldavSignalId env source.userId uid
    | none => .drawn drawn
  let line (label : String) (text : Option Text) : Text :=
    if text.getD [] = [] then [] else label.toList ++ text.getD []
  rawSignal source id ("Upcoming: ".toList ++ summary) []
    ("Event: ".toList ++ summary ++ line "\nLocation: " event.location ++ line "\nDescription: " event.description ++
      line "\nStarts: " (event.start.map Prod.snd))
    ["calendar".toList, "event".toList] (event.start.map Prod.fst) created

/-- `adapter.poll`, with the ids that it draws. -/
def rawSignals (env : FeedEnv N F) (source : SourceConfig) (created nextId : Nat) : Fetched N F I → List (Raw N F I)
  | .feed entries => (entries.take 20).zipIdx.map fun e =>
      { signal := feedSignal source e.1.1 (nextId + e.2) created, item := e.1.2 }
  | .page calls item =>
    match scrape source calls with
    | .returned (some page) => [{ signal := pageSignal source page nextId created, item := item }]
    | _ => []
  | .calendar events => events.zipIdx.filterMap fun e => e.1.1.map fun event =>
      { signal := eventSignal env source event (nextId + e.2) created, item := e.1.2 }
  | .failed => []

end Adapters

/-! ## Ticks -/

/-- Where a tick is with an entry. -/
inductive Stage (N F I : Type) where
  | idle
  | looked (raw : Raw N F I)
  | prepared (raw : Raw N F I) (signal : Signal N F)

/-- A tick of a source: the entries to come, the items it is done with, and whether the store failed it. -/
structure Tick (N F I : Type) where
  source : SourceConfig
  pending : List (Raw N F I)
  stage : Stage N F I := .idle
  seen : List I := []
  faulted : Bool := false

/-- The process, with its history: the items of the rows, the items told, and those that a tick saw in
which the store did not fail. -/
structure Feeds (N F I : Type) where
  store : SignalStore N F := {}
  nextId : Nat := 0
  ticks : Text → Option (Tick N F I) := fun _ => none
  items : SignalId → Option I := fun _ => none
  told : List I := []
  due : List I := []

inductive Act (N F I : Type) where
  | start (source : SourceConfig) (fetched : Fetched N F I) (created : Nat)
  | look (sourceId : Text) (query : CallResult Unit)
  | process (sourceId : Text) (calls : Calls N F)
  | store (sourceId : Text) (calls : Calls N F)
  | finish (sourceId : Text) (stamp : CallResult Unit)

/-- What `_is_duplicate` finds. -/
def isDuplicate (rows : List (SignalRow N F)) (url userId : Text) : Bool :=
  rows.any fun row => row.url = url ∧ row.userId = userId

/-- The entry to look for next, the one to process, and the one to store. -/
def Tick.next (tick : Tick N F I) : Option (Raw N F I) :=
  match tick.stage with
  | .idle => tick.pending.head?
  | _ => none

def Tick.looked (tick : Tick N F I) : Option (Raw N F I) :=
  match tick.stage with
  | .looked raw => some raw
  | _ => none

def Tick.ready (tick : Tick N F I) : Option (Raw N F I × Signal N F) :=
  match tick.stage with
  | .prepared raw signal => some (raw, signal)
  | _ => none

def Tick.done (tick : Tick N F I) (raw : Raw N F I) : Tick N F I :=
  { tick with stage := .idle, seen := raw.item :: tick.seen }

/-- `_is_duplicate`: an entry without a url is not looked for, and one that cannot be looked for is new. -/
def Tick.look (tick : Tick N F I) (raw : Raw N F I) (query : CallResult Unit) (rows : List (SignalRow N F)) :
    Tick N F I :=
  let tick := { tick with pending := tick.pending.tail }
  if raw.signal.url = [] then { tick with stage := .looked raw }
  else if query.failed then { tick with stage := .looked raw, faulted := true }
  else if isDuplicate rows raw.signal.url tick.source.userId then tick.done raw
  else { tick with stage := .looked raw }

/-- The reads of the store that processing makes before the insert. -/
def storeFault (calls : Calls N F) : Bool := calls.jobModel.failed || calls.profile.failed

section Steps

variable [Scores F] [DecidableEq I]

/-- `process_signal` up to the insert. An exception ends the entry. -/
def Tick.process (env : FeedEnv N F) (tick : Tick N F I) (raw : Raw N F I) (calls : Calls N F) : Tick N F I :=
  let tick := { tick with faulted := tick.faulted || storeFault calls }
  match prepare env.signals calls raw.signal tick.source.userId with
  | none => tick.done raw
  | some prepared => { tick with stage := .prepared raw prepared.1 }

/-- The insert makes a row. -/
def inserts (calls : Calls N F) (id : SignalId) (rows : List (SignalRow N F)) : Bool :=
  !calls.insert.failed && !rows.any fun row => row.signalId = id

def Tick.store (tick : Tick N F I) (raw : Raw N F I) (signal : Signal N F) (calls : Calls N F) : Tick N F I :=
  { tick.done raw with
    faulted := tick.faulted || calls.insert.failed || (hasSummary signal && calls.embed.failed) }

/-- A job whose tick is not over is not started again. -/
def feedStep (env : FeedEnv N F) : Act N F I → Feeds N F I → Option (Feeds N F I)
  | .start source fetched created, s =>
    match s.ticks source.id with
    | some _ => none
    | none =>
      let raws := rawSignals env source created s.nextId fetched
      some { s with
        nextId := s.nextId + raws.length
        ticks := Function.update s.ticks source.id (some { source := source, pending := raws }) }
  | .look sourceId query, s => do
    let tick ← s.ticks sourceId
    let raw ← tick.next
    return { s with ticks := Function.update s.ticks sourceId (some (tick.look raw query s.store.rows)) }
  | .process sourceId calls, s => do
    let tick ← s.ticks sourceId
    let raw ← tick.looked
    return { s with
      ticks := Function.update s.ticks sourceId (some (tick.process env raw calls))
      told := if notifies env.signals calls raw.signal tick.source.userId then raw.item :: s.told else s.told }
  | .store sourceId calls, s => do
    let tick ← s.ticks sourceId
    let ready ← tick.ready
    return { s with
      store := (persist env.signals calls ready.2 s.store).store
      ticks := Function.update s.ticks sourceId (some (tick.store ready.1 ready.2 calls))
      items := if inserts calls ready.2.signalId s.store.rows
        then Function.update s.items ready.2.signalId (some ready.1.item) else s.items }
  | .finish sourceId stamp, s => do
    let tick ← s.ticks sourceId
    match tick.stage, tick.pending with
    | .idle, [] =>
      return { s with
        ticks := Function.update s.ticks sourceId none
        due := if tick.faulted || stamp.failed then s.due else tick.seen ++ s.due }
    | _, _ => none

end Steps

/-! ## What is counted -/

variable [DecidableEq I]

/-- The rows of an item. -/
def Feeds.rowsOf (s : Feeds N F I) (item : I) : Nat :=
  s.store.rows.countP fun row => s.items row.signalId = some item

/-- At the beginning no tick runs, and no item has two rows or was told twice. -/
structure Begins (s : Feeds N F I) : Prop where
  ticks : s.ticks = fun _ => none
  due : s.due = []
  rows : ∀ item, s.rowsOf item ≤ 1
  told : ∀ item, s.told.count item ≤ 1

/-- The condition on a step. A row with the entry's url is of the entry's item. What is told was not told
before; a reply that cannot be read is for an item that has its row. What is inserted has no row yet, and
where the id has one it is the item's. -/
def Keeps [Scores F] (env : FeedEnv N F) : Act N F I → Feeds N F I → Prop
  | .look sourceId query, s => ∀ tick ∈ s.ticks sourceId, ∀ raw ∈ tick.next,
      raw.signal.url ≠ [] → query.failed = false →
      isDuplicate s.store.rows raw.signal.url tick.source.userId = true →
      tick.faulted = true ∨ s.rowsOf raw.item ≠ 0
  | .process sourceId calls, s => ∀ tick ∈ s.ticks sourceId, ∀ raw ∈ tick.looked,
      (notifies env.signals calls raw.signal tick.source.userId = true → raw.item ∉ s.told) ∧
      (¬ Prepares env.signals calls raw.signal tick.source.userId →
        (tick.faulted || storeFault calls) = true ∨ s.rowsOf raw.item ≠ 0)
  | .store sourceId calls, s => ∀ tick ∈ s.ticks sourceId, ∀ ready ∈ tick.ready,
      (inserts calls ready.2.signalId s.store.rows = true → s.rowsOf ready.1.item = 0) ∧
      (inserts calls ready.2.signalId s.store.rows = false →
        (tick.store ready.1 ready.2 calls).faulted = true ∨ s.rowsOf ready.1.item ≠ 0)
  | _, _ => True

/-! ## What a step keeps -/

structure Invariant (s : Feeds N F I) : Prop where
  rows : ∀ item, s.rowsOf item ≤ 1
  told : ∀ item, s.told.count item ≤ 1
  due : ∀ item ∈ s.due, s.rowsOf item ≠ 0
  seen : ∀ sourceId, ∀ tick ∈ s.ticks sourceId, tick.faulted = true ∨ ∀ item ∈ tick.seen, s.rowsOf item ≠ 0

theorem Begins.invariant {s : Feeds N F I} (h : Begins s) : Invariant s where
  rows := h.rows
  told := h.told
  due item hitem := by
    rw [h.due] at hitem
    cases hitem
  seen sourceId tick htick := by
    rw [h.ticks] at htick
    cases htick

/-- A tick is done with what it has seen: the store failed it, or all of it has a row. -/
def Tick.Settled (tick : Tick N F I) (s : Feeds N F I) : Prop :=
  tick.faulted = true ∨ ∀ item ∈ tick.seen, s.rowsOf item ≠ 0

theorem settled_done {s : Feeds N F I} {tick : Tick N F I} (h : tick.Settled s) (raw : Raw N F I) :
    (tick.done raw).Settled s ↔ tick.faulted = true ∨ s.rowsOf raw.item ≠ 0 := by
  constructor
  · rintro (hfault | hseen)
    · exact Or.inl hfault
    · exact Or.inr (hseen raw.item List.mem_cons_self)
  · intro hdone
    by_cases hfault : tick.faulted = true
    · exact Or.inl hfault
    · refine Or.inr fun item hitem => ?_
      rcases List.mem_cons.mp hitem with rfl | hold
      · exact hdone.resolve_left hfault
      · exact h.resolve_left hfault item hold

theorem invariant_update {s s' : Feeds N F I} (hi : Invariant s) {sourceId : Text} {tick : Tick N F I}
    (hrows : ∀ item, s'.rowsOf item = s.rowsOf item) (hdue : s'.due = s.due)
    (hticks : s'.ticks = Function.update s.ticks sourceId (some tick)) :
    Invariant s' ↔ (∀ item, s'.told.count item ≤ 1) ∧ tick.Settled s := by
  constructor
  · intro h
    refine ⟨h.told, ?_⟩
    have hseen := h.seen sourceId tick (by rw [hticks, Function.update_self]; rfl)
    simpa only [Tick.Settled, hrows] using hseen
  · intro h
    refine ⟨fun item => ?_, h.1, fun item hitem => ?_, fun id other hother => ?_⟩
    · rw [hrows]
      exact hi.rows item
    · rw [hrows]
      rw [hdue] at hitem
      exact hi.due item hitem
    · simp only [hrows]
      rw [hticks] at hother
      by_cases hid : id = sourceId
      · subst hid
        rw [Function.update_self] at hother
        cases hother
        exact h.2
      · rw [Function.update_of_ne hid] at hother
        exact hi.seen id other hother

section Steps

variable [Scores F] {env : FeedEnv N F} {s s' : Feeds N F I} {sourceId : Text} {calls : Calls N F}
  {query stamp : CallResult Unit}

theorem look_keeps (hi : Invariant s) (hstep : feedStep env (.look sourceId query) s = some s') :
    Invariant s' ↔ Keeps env (.look sourceId query) s := by
  simp only [feedStep, Option.bind_eq_bind, Option.bind_eq_some_iff, Option.pure_def, Option.some.injEq] at hstep
  obtain ⟨tick, htick, raw, hraw, rfl⟩ := hstep
  have hsettled : tick.Settled s := hi.seen sourceId tick htick
  have hkeeps : Keeps env (.look sourceId query) s ↔ (raw.signal.url ≠ [] → query.failed = false →
      isDuplicate s.store.rows raw.signal.url tick.source.userId = true →
      tick.faulted = true ∨ s.rowsOf raw.item ≠ 0) := by
    simp only [Keeps, htick, hraw, Option.mem_def, Option.some.injEq, forall_eq']
  have hrest : ({ tick with pending := tick.pending.tail } : Tick N F I).Settled s := hsettled
  rw [hkeeps]
  refine Iff.trans (invariant_update hi (fun _ => rfl) rfl rfl) ?_
  rw [Tick.look]
  constructor
  · intro h hurl hquery hdup
    have htick' := h.2
    rw [if_neg hurl, hquery, if_neg Bool.false_ne_true, if_pos hdup] at htick'
    exact (settled_done hrest raw).mp htick'
  · intro h
    refine ⟨hi.told, ?_⟩
    by_cases hurl : raw.signal.url = []
    · rw [if_pos hurl]
      exact hsettled
    · rw [if_neg hurl]
      cases hquery : query.failed with
      | true => exact Or.inl rfl
      | false =>
        rw [if_neg Bool.false_ne_true]
        by_cases hdup : isDuplicate s.store.rows raw.signal.url tick.source.userId = true
        · rw [if_pos hdup]
          exact (settled_done hrest raw).mpr
            (h hurl hquery hdup)
        · rw [if_neg hdup]
          exact hsettled

theorem process_keeps (hi : Invariant s) (hstep : feedStep env (.process sourceId calls) s = some s') :
    Invariant s' ↔ Keeps env (.process sourceId calls) s := by
  simp only [feedStep, Option.bind_eq_bind, Option.bind_eq_some_iff, Option.pure_def, Option.some.injEq] at hstep
  obtain ⟨tick, htick, raw, hraw, rfl⟩ := hstep
  have hsettled : tick.Settled s := hi.seen sourceId tick htick
  have hmarked : ({ tick with faulted := tick.faulted || storeFault calls } : Tick N F I).Settled s := by
    rcases hsettled with hfault | hseen
    · exact Or.inl (by simp [hfault])
    · exact Or.inr hseen
  have hkeeps : Keeps env (.process sourceId calls) s ↔
      (notifies env.signals calls raw.signal tick.source.userId = true → raw.item ∉ s.told) ∧
      (¬ Prepares env.signals calls raw.signal tick.source.userId →
        (tick.faulted || storeFault calls) = true ∨ s.rowsOf raw.item ≠ 0) := by
    simp only [Keeps, htick, hraw, Option.mem_def, Option.some.injEq, forall_eq']
  rw [hkeeps]
  refine Iff.trans (invariant_update hi (fun _ => rfl) rfl rfl) (and_congr ?_ ?_)
  · -- what is told once more
    by_cases hnotifies : notifies env.signals calls raw.signal tick.source.userId = true
    · simp only [hnotifies, if_true, forall_const]
      constructor
      · intro h hmem
        have hcount := h raw.item
        rw [List.count_cons_self] at hcount
        have hpos := List.count_pos_iff.mpr hmem
        omega
      · intro hnew item
        have hold := hi.told item
        rw [List.count_cons]
        split
        · rename_i heq
          rw [beq_iff_eq] at heq
          subst heq
          rw [List.count_eq_zero.mpr hnew]
        · omega
    · simp only [hnotifies, Bool.false_eq_true, if_false, false_implies, iff_true]
      exact hi.told
  · -- what is seen without a row
    rw [Tick.process]
    cases hprepare : prepare env.signals calls raw.signal tick.source.userId with
    | none =>
      have hnot : ¬ Prepares env.signals calls raw.signal tick.source.userId := by
        rw [← prepare_isSome_iff, hprepare]
        exact Bool.false_ne_true
      simp only [hnot, not_false_eq_true, forall_const]
      exact settled_done hmarked raw
    | some prepared =>
      have hprepares : Prepares env.signals calls raw.signal tick.source.userId := by
        rw [← prepare_isSome_iff, hprepare]
        rfl
      simp only [hprepares, not_true_eq_false, false_implies, iff_true]
      exact hmarked

omit [Scores F] in
theorem persist_rows {signal : Signal N F} {store : SignalStore N F} :
    (persist env.signals calls signal store).store.rows =
      if inserts calls signal.signalId store.rows then store.rows ++ [rowOf env.signals signal] else store.rows := by
  cases hinsert : calls.insert with
  | raised =>
    simp only [persist, inserts, hinsert, CallResult.failed, Bool.not_true, Bool.false_and, Bool.false_eq_true,
      if_false]
  | returned u =>
    have hstored : (persist env.signals calls signal store).store.rows
        = insertRow (rowOf env.signals signal) store.rows := by simp only [persist, hinsert]
    have hid : (rowOf env.signals signal).signalId = signal.signalId := rfl
    rw [hstored, insertRow, hid, inserts, hinsert]
    cases store.rows.any fun row => decide (row.signalId = signal.signalId) <;> rfl

omit [Scores F] in
theorem rowsOf_store {raw : Raw N F I} {signal : Signal N F}
    (hrows : s'.store.rows = (persist env.signals calls signal s.store).store.rows)
    (hitems : s'.items = if inserts calls signal.signalId s.store.rows
      then Function.update s.items signal.signalId (some raw.item) else s.items) (item : I) :
    s'.rowsOf item = s.rowsOf item +
      if inserts calls signal.signalId s.store.rows = true ∧ raw.item = item then 1 else 0 := by
  rw [Feeds.rowsOf, Feeds.rowsOf, hrows, hitems, persist_rows]
  by_cases hinserts : inserts calls signal.signalId s.store.rows = true
  · have hnew : ∀ row ∈ s.store.rows, row.signalId ≠ signal.signalId := by
      intro row hrow heq
      simp only [inserts, Bool.and_eq_true, Bool.not_eq_true', List.any_eq_false, decide_eq_true_eq] at hinserts
      exact hinserts.2 row hrow heq
    rw [if_pos hinserts, if_pos hinserts, List.countP_append]
    have hold : s.store.rows.countP (fun row =>
        decide (Function.update s.items signal.signalId (some raw.item) row.signalId = some item))
        = s.store.rows.countP fun row => decide (s.items row.signalId = some item) := by
      apply List.countP_congr
      intro row hrow
      rw [Function.update_of_ne (hnew row hrow)]
    rw [hold]
    simp [rowOf, hinserts, List.countP_cons]
  · simp [hinserts]

theorem store_keeps (hi : Invariant s) (hstep : feedStep env (.store sourceId calls) s = some s') :
    Invariant s' ↔ Keeps env (.store sourceId calls) s := by
  simp only [feedStep, Option.bind_eq_bind, Option.bind_eq_some_iff, Option.pure_def, Option.some.injEq] at hstep
  obtain ⟨tick, htick, ready, hready, hs'⟩ := hstep
  have hcount : ∀ item, s'.rowsOf item = s.rowsOf item +
      if inserts calls ready.2.signalId s.store.rows = true ∧ ready.1.item = item then 1 else 0 := by
    intro item
    subst hs'
    exact rowsOf_store rfl rfl item
  have hdue : s'.due = s.due := by rw [← hs']
  have htold : s'.told = s.told := by rw [← hs']
  have hticks : s'.ticks = Function.update s.ticks sourceId (some (tick.store ready.1 ready.2 calls)) := by rw [← hs']
  have hmarked : ({ tick with faulted := tick.faulted || calls.insert.failed ||
      (hasSummary ready.2 && calls.embed.failed) } : Tick N F I).Settled s := by
    rcases hi.seen sourceId tick htick with hfault | hseen
    · exact Or.inl (by simp [hfault])
    · exact Or.inr hseen
  have hkeeps : Keeps env (.store sourceId calls) s ↔
      (inserts calls ready.2.signalId s.store.rows = true → s.rowsOf ready.1.item = 0) ∧
      (inserts calls ready.2.signalId s.store.rows = false →
        (tick.store ready.1 ready.2 calls).faulted = true ∨ s.rowsOf ready.1.item ≠ 0) := by
    simp only [Keeps, htick, hready, Option.mem_def, Option.some.injEq, forall_eq']
  rw [hkeeps]
  cases hinserts : inserts calls ready.2.signalId s.store.rows with
  | false =>
    simp only [hinserts, Bool.false_eq_true, false_and, if_false, Nat.add_zero] at hcount
    simp only [Bool.false_eq_true, false_implies, true_and, forall_const]
    refine Iff.trans (invariant_update hi hcount hdue hticks) ?_
    rw [htold]
    exact (and_iff_right hi.told).trans (settled_done hmarked ready.1)
  | true =>
    simp only [hinserts, true_and] at hcount
    simp only [forall_const, Bool.true_eq_false, false_implies, and_true]
    have hgrows : ∀ item, s.rowsOf item ≠ 0 → s'.rowsOf item ≠ 0 := by
      intro item hitem
      rw [hcount item]
      omega
    have hitem : s'.rowsOf ready.1.item = s.rowsOf ready.1.item + 1 := by rw [hcount, if_pos rfl]
    constructor
    · intro h
      have hone := h.rows ready.1.item
      omega
    · intro hnone
      refine ⟨fun item => ?_, by rw [htold]; exact hi.told, fun item hmem => ?_, fun id other hother => ?_⟩
      · have hold := hi.rows item
        rw [hcount item]
        split
        · rename_i heq
          rw [← heq, hnone]
        · exact hold
      · rw [hdue] at hmem
        exact hgrows item (hi.due item hmem)
      · rw [hticks] at hother
        by_cases hid : id = sourceId
        · subst hid
          rw [Function.update_self] at hother
          cases hother
          refine hmarked.imp_right fun hseen item hmem => ?_
          rcases List.mem_cons.mp hmem with rfl | hold
          · rw [hitem]
            omega
          · exact hgrows item (hseen item hold)
        · rw [Function.update_of_ne hid] at hother
          exact (hi.seen id other hother).imp_right fun hseen item hmem => hgrows item (hseen item hmem)

theorem keeps_iff {act : Act N F I} (hi : Invariant s) (hstep : feedStep env act s = some s') :
    Invariant s' ↔ Keeps env act s := by
  cases act with
  | look sourceId query => exact look_keeps hi hstep
  | process sourceId calls => exact process_keeps hi hstep
  | store sourceId calls => exact store_keeps hi hstep
  | start source fetched created =>
    refine iff_of_true ?_ trivial
    simp only [feedStep] at hstep
    split at hstep
    · cases hstep
    · cases hstep
      have hnew : ({ source := source, pending := rawSignals env source created s.nextId fetched } :
          Tick N F I).Settled s := Or.inr fun item hmem => absurd hmem List.not_mem_nil
      refine Iff.mpr (invariant_update hi (fun _ => rfl) rfl rfl) ⟨hi.told, hnew⟩
  | finish sourceId stamp =>
    refine iff_of_true ?_ trivial
    simp only [feedStep, Option.bind_eq_bind, Option.bind_eq_some_iff] at hstep
    obtain ⟨tick, htick, hstep⟩ := hstep
    split at hstep
    · cases hstep
      refine ⟨hi.rows, hi.told, fun item hmem => ?_, fun id other hother => ?_⟩
      · by_cases hfault : (tick.faulted || stamp.failed) = true
        · rw [if_pos hfault] at hmem
          exact hi.due item hmem
        · rw [if_neg hfault, List.mem_append] at hmem
          rcases hmem with hseen | hold
          · rcases hi.seen sourceId tick htick with hf | hall
            · exact absurd (by rw [hf, Bool.true_or]) hfault
            · exact hall item hseen
          · exact hi.due item hold
      · have hother' : Function.update s.ticks sourceId none id = some other := hother
        by_cases hid : id = sourceId
        · subst hid
          rw [Function.update_self] at hother'
          cases hother'
        · rw [Function.update_of_ne hid] at hother'
          exact hi.seen id other hother'
    · cases hstep

end Steps

/-! ## Two runs -/

instance [Scores F] {env : FeedEnv N F} : (act : Act N F I) → (s : Feeds N F I) → Decidable (Keeps env act s)
  | .look sourceId _, s => inferInstanceAs (Decidable (∀ tick ∈ s.ticks sourceId, ∀ raw ∈ tick.next, _))
  | .process sourceId _, s => inferInstanceAs (Decidable (∀ tick ∈ s.ticks sourceId, ∀ raw ∈ tick.looked, _))
  | .store sourceId _, s => inferInstanceAs (Decidable (∀ tick ∈ s.ticks sourceId, ∀ ready ∈ tick.ready, _))
  | .start _ _ _, _ => .isTrue trivial
  | .finish _ _, _ => .isTrue trivial

namespace FeedExample

def env : FeedEnv Rat Rat where
  signals := localEnv
  uuid5 := fun name => name.foldl (fun hash c => hash * 1114112 + c.toNat) 0

def source (sourceType : String) : SourceConfig where
  id := "3".toList
  name := "Town".toList
  sourceType := sourceType.toList
  url := "https://town.example".toList
  active := true
  userId := "u1".toList

def entry (link : Text) : FeedEntry where
  title := some "Market".toList
  link := some link
  summary := some "On Saturday".toList
  contents := []
  published := none

def calls : Calls Rat Rat := (notices "" (.returned ())).calls.processing

/-- The steps of an entry that is taken. -/
def take : List (Act Rat Rat Nat) :=
  [.look "3".toList (.returned ()), .process "3".toList calls, .store "3".toList calls]

end FeedExample

end Lumogis.FeedPolling
