import Lumogis.Lib.Labelled
import Lumogis.Lib.SortedByKey
import Lumogis.Visibility
import Mathlib.Algebra.Order.Ring.Rat
import Mathlib.Data.String.Basic
import Mathlib.Order.Synonym

/-!
# WeeklyReview

`_run_weekly_review`: the signals and entities that a user may see, the last conversation points of the whole
collection, and a file under the date of the run. A review is built from what its user may see exactly if
the five points are visible to the user (`weeklyReview_visible_iff`). In every run of the routine, for any
users on any days, in which they are and no date has the reviews of two users, each user's last file still
holds the user's review (`reviews_kept`). Two users on one date share a file (`second_user_overwrites`).
-/

namespace Lumogis.Reviews

open Labelled SortedByKey

/-! ## The stores -/

structure SignalRow where
  userId : String
  scope : String
  title : String
  url : String
  contentSummary : String
  importanceScore : ℚ
  relevanceScore : ℚ
  createdAt : Nat

structure EntityRow where
  userId : String
  scope : String
  name : String
  entityType : String
  mentionCount : Int

/-- A point of `conversations`. No payload that is written today has a `created_at`. -/
structure ConversationPoint where
  id : String
  userId : Option String
  scope : Option String
  summary : Option String
  topics : Option (List String)
  createdAt : Option String

def SignalRow.item (r : SignalRow) : Item := ⟨some r.userId, some r.scope, fun _ => []⟩

def EntityRow.item (r : EntityRow) : Item := ⟨some r.userId, some r.scope, fun _ => []⟩

def ConversationPoint.item (pt : ConversationPoint) : Item := ⟨pt.userId, pt.scope, fun _ => []⟩

structure ReviewStore where
  users : List UserRow
  signals : List SignalRow
  entities : List EntityRow
  /-- What `scroll_collection` returns; nothing if the store has no such method or it raises. -/
  conversations : Option (List ConversationPoint)

/-! ## The review -/

structure TopSignal where
  title : String
  url : String
  contentSummary : String
  importanceScore : ℚ
  relevanceScore : ℚ
  createdAt : Nat

structure TopEntity where
  name : String
  entityType : String
  mentionCount : Int

structure RecentSession where
  sessionId : String
  summary : String
  topics : List String
  createdAt : Option String

structure Review where
  period : String
  generatedAt : String
  signalCount : Nat
  topSignals : List TopSignal
  topEntities : List TopEntity
  recentSessions : List RecentSession
  proseSummary : Option String

/-- A run: the user of the row, what the stores hold, `NOW()` and the two readings of the clock as texts. -/
structure ReviewRun where
  userId : String
  store : ReviewStore
  now : Nat
  generatedAt : String
  date : String

/-- `ORDER BY .. DESC LIMIT n`, and `sorted(.., reverse=True)[:n]`: equal keys stay in order. -/
def topBy {α κ : Type} [LinearOrder κ] (key : α → κ) (n : Nat) (xs : List α) : List α :=
  (sortByKey (fun a => OrderDual.toDual (key a)) xs).take n

/-- The five points that the sessions are made of. -/
def recentPoints (points : List ConversationPoint) : List ConversationPoint :=
  topBy (fun pt => pt.createdAt.getD "") 5 points

def recentSession (pt : ConversationPoint) : RecentSession where
  sessionId := pt.id
  summary := pt.summary.getD ""
  topics := pt.topics.getD []
  createdAt := pt.createdAt

/-- The `SELECT` from `signals`. -/
def fetchSignals (vis : SqlFilter) (now : Nat) (rows : List SignalRow) : List SignalRow :=
  topBy SignalRow.relevanceScore 10 (rows.filter fun r => vis.Accepts r.item ∧ now ≤ r.createdAt + 7 * 86400)

/-- The `SELECT` from `entities`. -/
def fetchEntities (vis : SqlFilter) (rows : List EntityRow) : List EntityRow :=
  topBy EntityRow.mentionCount 10 (rows.filter fun r => vis.Accepts r.item)

/-- `_run_weekly_review` before it writes. `prose` is the stripped answer of the model to the user's review,
empty when there is none. -/
def weeklyReview (prose : String → Review → String) (run : ReviewRun) : Except InvalidScopeFilter Review := do
  let vis ← visibleFilter run.store.users ⟨run.userId, false, .admin, none⟩ none
  let signals := fetchSignals vis run.now run.store.signals
  let entities := fetchEntities vis run.store.entities
  let review : Review :=
    { period := "last_7_days"
      generatedAt := run.generatedAt
      signalCount := signals.length
      topSignals := signals.map fun r =>
        ⟨r.title, r.url, r.contentSummary, r.importanceScore, r.relevanceScore, r.createdAt⟩
      topEntities := entities.map fun r => ⟨r.name, r.entityType, r.mentionCount⟩
      recentSessions := (recentPoints (run.store.conversations.getD [])).map recentSession
      proseSummary := none }
  let text := prose run.userId review
  return if text = "" then review else { review with proseSummary := some text }

/-! ## What a user may see -/

/-- The rule of `visible_filter` for a context that has nothing but a user. -/
def VisibleTo (users : List UserRow) (userId : String) (item : Item) : Prop :=
  Visible (effectiveAllowsShared users ⟨userId, false, .admin, none⟩) userId none item

instance (users : List UserRow) (userId : String) (item : Item) : Decidable (VisibleTo users userId item) :=
  decidable_of_iff' _ visible_none

/-- The store with nothing in it but what the user may see. -/
def ReviewStore.visiblePart (store : ReviewStore) (userId : String) : ReviewStore where
  users := store.users
  signals := store.signals.filter fun r => VisibleTo store.users userId r.item
  entities := store.entities.filter fun r => VisibleTo store.users userId r.item
  conversations := store.conversations.map (List.filter fun pt => VisibleTo store.users userId pt.item)

def ReviewRun.visiblePart (run : ReviewRun) : ReviewRun := { run with store := run.store.visiblePart run.userId }

/-- The five last points are visible to the user. -/
def SessionsVisible (run : ReviewRun) : Prop :=
  ∀ pt ∈ recentPoints (run.store.conversations.getD []), VisibleTo run.store.users run.userId pt.item

instance (run : ReviewRun) : Decidable (SessionsVisible run) := inferInstanceAs (Decidable (∀ pt ∈ _, _))

/-! ## One run -/

section
variable {prose : String → Review → String} {run : ReviewRun}

theorem topBy_filter {α κ : Type} [LinearOrder κ] {key : α → κ} {n : Nat} {xs : List α} {p : α → Bool}
    (h : ∀ x ∈ topBy key n xs, p x = true) : topBy key n (xs.filter p) = topBy key n xs := by
  rw [topBy, ← filter_sortByKey]
  rw [topBy] at h ⊢
  generalize sortByKey (fun a => OrderDual.toDual (key a)) xs = sorted at h ⊢
  induction n generalizing sorted with
  | zero => rfl
  | succ n ih =>
    cases sorted with
    | nil => rfl
    | cons x rest =>
      have hx : p x = true := h x List.mem_cons_self
      rw [List.filter_cons_of_pos hx, List.take_succ_cons, List.take_succ_cons,
        ih rest fun y hy => h y (List.mem_cons_of_mem x hy)]

theorem visibleFilter_review (users : List UserRow) (userId : String) :
    ∃ vis, visibleFilter users ⟨userId, false, .admin, none⟩ none = .ok vis ∧
      ∀ item, vis.Accepts item ↔ VisibleTo users userId item :=
  visibleFilter_accepts ⟨userId, false, .admin, none⟩ rfl

theorem filter_visiblePart {α : Type} {p q : α → Bool} (h : ∀ x, q x = true → p x = true) (xs : List α) :
    (xs.filter p).filter q = xs.filter q := by
  rw [List.filter_filter]
  refine List.filter_congr fun x _ => ?_
  cases hq : q x
  · rfl
  · rw [h x hq]
    rfl

theorem weeklyReview_visiblePart :
    weeklyReview prose run.visiblePart = weeklyReview prose { run with
      store := { run.store with
        conversations := run.store.conversations.map
          (List.filter fun pt => VisibleTo run.store.users run.userId pt.item) } } := by
  obtain ⟨vis, hvis, haccepts⟩ := visibleFilter_review run.store.users run.userId
  have hsignals : fetchSignals vis run.now (run.store.visiblePart run.userId).signals =
      fetchSignals vis run.now run.store.signals := by
    refine congrArg (topBy SignalRow.relevanceScore 10) (filter_visiblePart ?_ run.store.signals)
    intro r hr
    exact decide_eq_true ((haccepts r.item).mp (of_decide_eq_true hr).1)
  have hentities : fetchEntities vis (run.store.visiblePart run.userId).entities =
      fetchEntities vis run.store.entities := by
    refine congrArg (topBy EntityRow.mentionCount 10) (filter_visiblePart ?_ run.store.entities)
    intro r hr
    exact decide_eq_true ((haccepts r.item).mp (of_decide_eq_true hr))
  have husers : (run.store.visiblePart run.userId).users = run.store.users := rfl
  simp only [weeklyReview, ReviewRun.visiblePart, husers, hvis, bind, Except.bind, hsignals, hentities]
  rfl

theorem getD_map_filter (p : ConversationPoint → Bool) (points : Option (List ConversationPoint)) :
    (points.map (List.filter p)).getD [] = (points.getD []).filter p := by
  cases points <;> rfl

theorem weeklyReview_of_visible (h : SessionsVisible run) : weeklyReview prose run.visiblePart = weeklyReview prose run := by
  have hpoints : recentPoints ((run.store.conversations.getD []).filter fun pt =>
      decide (VisibleTo run.store.users run.userId pt.item)) = recentPoints (run.store.conversations.getD []) :=
    topBy_filter fun pt hpt => decide_eq_true (h pt hpt)
  rw [weeklyReview_visiblePart]
  simp only [weeklyReview, getD_map_filter, hpoints]

theorem visible_of_weeklyReview (hids : ((run.store.conversations.getD []).map ConversationPoint.id).Nodup)
    (h : weeklyReview prose run.visiblePart = weeklyReview prose run) : SessionsVisible run := by
  obtain ⟨vis, hvis, -⟩ := visibleFilter_review run.store.users run.userId
  rw [weeklyReview_visiblePart] at h
  simp only [weeklyReview, hvis, bind, Except.bind, getD_map_filter] at h
  have hsessions : (recentPoints ((run.store.conversations.getD []).filter fun pt =>
      decide (VisibleTo run.store.users run.userId pt.item))).map recentSession =
      (recentPoints (run.store.conversations.getD [])).map recentSession := by
    have hreview := congrArg Review.recentSessions (Except.ok.inj h)
    split at hreview <;> split at hreview <;> exact hreview
  have hsub : ∀ xs : List ConversationPoint, ∀ pt ∈ recentPoints xs, pt ∈ xs := by
    intro xs pt hpt
    exact (sortByKey_perm xs).subset (List.mem_of_mem_take hpt)
  intro pt hpt
  have hmem : recentSession pt ∈ (recentPoints ((run.store.conversations.getD []).filter fun pt =>
      decide (VisibleTo run.store.users run.userId pt.item))).map recentSession := by
    rw [hsessions]
    exact List.mem_map_of_mem hpt
  obtain ⟨other, hother, heq⟩ := List.mem_map.mp hmem
  obtain ⟨hin, hvisible⟩ := List.mem_filter.mp (hsub _ other hother)
  -- One id, so the visible point is this one.
  have hid : other.id = pt.id := congrArg RecentSession.sessionId heq
  obtain rfl : other = pt := List.inj_on_of_nodup_map hids hin (hsub _ pt hpt) hid
  exact of_decide_eq_true hvisible

theorem weeklyReview_visible_iff (hids : ((run.store.conversations.getD []).map ConversationPoint.id).Nodup) :
    weeklyReview prose run.visiblePart = weeklyReview prose run ↔ SessionsVisible run :=
  ⟨visible_of_weeklyReview hids, weeklyReview_of_visible⟩

end

/-! ## Runs -/

/-- A path that a run returned. -/
structure Returned where
  run : ReviewRun
  path : String

structure OutboxState where
  files : String → Option Review
  /-- The last one first. No function reads it. -/
  returned : List Returned

/-- `_OUTBOX / f"weekly_review_{date_str}.json"`. -/
def reviewPath (outbox date : String) : String := outbox ++ "/weekly_review_" ++ date ++ ".json"

/-- `_dispatch` of the routine's row: the review replaces what is at the path. -/
def reviewStep (prose : String → Review → String) (outbox : String) (run : ReviewRun) (s : OutboxState) :
    Option OutboxState :=
  match weeklyReview prose run with
  | .error _ => none
  | .ok review =>
    let path := reviewPath outbox run.date
    some { files := Function.update s.files path (some review), returned := ⟨run, path⟩ :: s.returned }

/-- The last points are visible to the user, and no other user had a review on the date. -/
def Apart (run : ReviewRun) (s : OutboxState) : Prop :=
  SessionsVisible run ∧ ∀ r ∈ s.returned, r.run.date = run.date → r.run.userId = run.userId

instance (run : ReviewRun) (s : OutboxState) : Decidable (Apart run s) :=
  inferInstanceAs (Decidable (_ ∧ ∀ r ∈ _, _ → _))

/-- The file of a run, until the user's next one: the run's review, which is also the review of the store
without what the user may not see. -/
def KeptPrivate (prose : String → Review → String) (s : OutboxState) : Prop :=
  ∀ after r before, s.returned = after ++ r :: before → (∀ r' ∈ after, r'.run.userId ≠ r.run.userId) →
    ∃ review, weeklyReview prose r.run = .ok review ∧ s.files r.path = some review ∧
      weeklyReview prose r.run.visiblePart = .ok review

theorem reviewPath_inj {outbox date date' : String} (h : reviewPath outbox date = reviewPath outbox date') :
    date = date' := by
  have hchars := congrArg String.toList h
  simp only [reviewPath, String.toList_append, List.append_assoc, List.append_cancel_left_eq,
    List.append_cancel_right_eq] at hchars
  exact String.toList_inj.mp hchars

theorem reviewStep_kept {prose : String → Review → String} {outbox : String} {run : ReviewRun} {s t : OutboxState}
    (hpaths : ∀ r ∈ s.returned, r.path = reviewPath outbox r.run.date) (hkept : KeptPrivate prose s)
    (ha : Apart run s) (hs : reviewStep prose outbox run s = some t) :
    (∀ r ∈ t.returned, r.path = reviewPath outbox r.run.date) ∧ KeptPrivate prose t := by
  simp only [reviewStep] at hs
  split at hs
  · cases hs
  · rename_i review hreview
    cases hs
    constructor
    · intro r hr
      rcases List.mem_cons.mp hr with rfl | hr
      · rfl
      · exact hpaths r hr
    · intro after r before hsplit hafter
      cases after with
      | nil =>
        obtain ⟨rfl, -⟩ := List.cons.inj hsplit
        exact ⟨review, hreview, Function.update_self _ _ _, (weeklyReview_of_visible ha.1).trans hreview⟩
      | cons last after =>
        -- An older run of another user, so of another date.
        obtain ⟨rfl, hrest⟩ := List.cons.inj hsplit
        obtain ⟨old, hold, hfile, hvisible⟩ :=
          hkept after r before hrest fun r' hr' => hafter r' (List.mem_cons_of_mem _ hr')
        have hr : r ∈ s.returned := hrest ▸ List.mem_append_right _ List.mem_cons_self
        have hne : r.path ≠ reviewPath outbox run.date := by
          rw [hpaths r hr]
          intro hpath
          exact hafter _ List.mem_cons_self (ha.2 r hr (reviewPath_inj hpath)).symm
        refine ⟨old, hold, ?_, hvisible⟩
        exact (Function.update_of_ne hne _ _).trans hfile

/-- In every run of the routine whose reviews are made of visible points and keep their dates apart, each
returned file still holds its user's review, built from what the user may see. -/
theorem reviews_kept (prose : String → Review → String) (outbox : String) (files : String → Option Review)
    (s : OutboxState) (hs : Reaches (reviewStep prose outbox) Apart ⟨files, []⟩ s) : KeptPrivate prose s := by
  have hall : (∀ r ∈ s.returned, r.path = reviewPath outbox r.run.date) ∧ KeptPrivate prose s := by
    refine hs.invariant (I := fun s => (∀ r ∈ s.returned, r.path = reviewPath outbox r.run.date) ∧ KeptPrivate prose s)
      ⟨fun _ hr => (by cases hr), ?_⟩ ?_
    · intro after r before hsplit _
      cases after <;> cases hsplit
    · intro run s t hkept ha hstep
      exact reviewStep_kept hkept.1 hkept.2 ha hstep
  exact hall.2

/-- A household with a shared conversation, and one signal of each of its users. -/
def household : ReviewStore where
  users := []
  signals := [⟨"ada", "personal", "Release", "https://lumogis.dev", "A release.", 1, 1 / 2, 1000⟩,
    ⟨"ben", "personal", "Weather", "", "Rain.", 1, 1 / 4, 2000⟩]
  entities := [⟨"ben", "shared", "Lumogis", "PROJECT", 3⟩]
  conversations := some [⟨"p1", some "ada", some "shared", some "Holiday plans.", none, none⟩]

def adaOnSunday : ReviewRun := ⟨"ada", household, 5000, "2026-03-01T18:00:00+00:00", "2026-03-01"⟩

def benOnMonday : ReviewRun := ⟨"ben", household, 91400, "2026-03-02T18:00:00+00:00", "2026-03-02"⟩

def benOnSunday : ReviewRun := ⟨"ben", household, 5001, "2026-03-01T18:00:01+00:00", "2026-03-01"⟩

def noProse : String → Review → String := fun _ _ => ""

theorem reviews_kept_household :
    KeptPrivate noProse
      (runTo (reviewStep noProse "/workspace/outbox") [adaOnSunday, benOnMonday] ⟨fun _ => none, []⟩) :=
  reviews_kept noProse "/workspace/outbox" (fun _ => none) _
    (reaches_runTo (by decide +kernel) (by decide +kernel))

theorem weeklyReview_visible_iff_household :
    weeklyReview noProse adaOnSunday.visiblePart = weeklyReview noProse adaOnSunday ↔ SessionsVisible adaOnSunday :=
  weeklyReview_visible_iff (by decide +kernel)

/-- Another user's session is in the review. -/
example : ¬ SessionsVisible { adaOnSunday with store := { household with
    conversations := some [⟨"p2", some "ben", some "personal", some "Therapy.", none, none⟩] } } := by
  decide +kernel

theorem second_user_overwrites :
    ∃ s, Reaches (reviewStep noProse "/workspace/outbox") (fun _ _ => True) ⟨fun _ => none, []⟩ s ∧
      ¬ KeptPrivate noProse s := by
  refine ⟨runTo (reviewStep noProse "/workspace/outbox") [adaOnSunday, benOnSunday] ⟨fun _ => none, []⟩, ?_, ?_⟩
  · exact reaches_runTo (by decide +kernel) (by decide +kernel)
  · intro h
    have hafter : ∀ r' ∈ [Returned.mk benOnSunday (reviewPath "/workspace/outbox" "2026-03-01")],
        r'.run.userId ≠ adaOnSunday.userId := by decide
    obtain ⟨review, hreview, hfile, -⟩ := h _ ⟨adaOnSunday, reviewPath "/workspace/outbox" "2026-03-01"⟩ [] rfl hafter
    have hada : (weeklyReview noProse adaOnSunday).toOption.map Review.generatedAt =
        some "2026-03-01T18:00:00+00:00" := by decide +kernel
    have hben : ((runTo (reviewStep noProse "/workspace/outbox") [adaOnSunday, benOnSunday] ⟨fun _ => none, []⟩).files
        (reviewPath "/workspace/outbox" "2026-03-01")).map Review.generatedAt =
        some "2026-03-01T18:00:01+00:00" := by decide +kernel
    rw [hreview] at hada
    rw [hfile] at hben
    have htexts : some "2026-03-01T18:00:00+00:00" = some "2026-03-01T18:00:01+00:00" := hada.symm.trans hben
    exact absurd htexts (by decide)

end Lumogis.Reviews
