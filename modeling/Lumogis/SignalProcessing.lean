import Lumogis.ContextBudget
import Lumogis.Lib.Entries
import Lumogis.Lib.Json
import Lumogis.NotificationDispatch

/-!
# SignalProcessing

`process_signal`: the language model's summary of a signal, its relevance, the notification and the row.
What the model replies is read field by field, and a reply that cannot be read raises; the calls whose
failure is swallowed leave it in `failures`. A signal gets its row exactly if nothing raises before the
insert and the insert succeeds (`processSignal_persists`, `processSignal_not_persists`).
-/

namespace Lumogis.Signals

open Json (Value)
open Permissions (isPySpace)

variable {N F : Type}

/-! ## The data -/

/-- A random UUID by its place in the order of drawing, and a UUID made of a name. -/
inductive SignalId where
  | drawn (n : Nat)
  | derived (hash : Nat)
  deriving DecidableEq

/-- The summary, the entities and the topics are what the model replied, of any type. -/
structure Signal (N F : Type) where
  signalId : SignalId
  sourceId : Text
  title : Text
  url : Text
  publishedAt : Option Nat
  contentSummary : Value N Text
  rawContent : Text
  entities : Value N Text
  topics : Value N Text
  importanceScore : F
  relevanceScore : F
  notified : Bool
  createdAt : Nat
  userId : Text

structure RelevanceProfile where
  trackedLocations : List Text
  trackedTopics : List Text
  trackedEntities : List Text
  trackedKeywords : List Text

/-- A row of `signals`. -/
structure SignalRow (N F : Type) where
  signalId : SignalId
  userId : Text
  sourceId : Text
  title : Text
  url : Text
  publishedAt : Option Nat
  contentSummary : Value N Text
  entities : Value N Text
  topics : Value N Text
  importanceScore : F
  relevanceScore : F
  notified : Bool
  createdAt : Nat
  scope : Text
  sourceUrl : Option Text
  sourceLabel : Option Text

/-- A point of the collection `signals`, by the signal that its id is made of. -/
structure SignalPoint (F : Type) where
  signalId : SignalId
  sourceId : Text
  title : Text
  url : Text
  importanceScore : F
  relevanceScore : F
  userId : Text
  scope : Text

structure SignalStore (N F : Type) where
  rows : List (SignalRow N F) := []
  points : List (SignalPoint F) := []

/-- The failures that are logged and swallowed, and the one that ends a poll. -/
inductive Failure where
  | fetch
  | llm
  | notJson
  | profile
  | notifier
  | postgres
  | qdrant
  | processing
  | uncaught
  deriving DecidableEq

inductive CallResult (α : Type) where
  | raised
  | returned (a : α)

/-- What a swallowed exception leaves in the log. -/
def CallResult.logged {α : Type} (failure : Failure) : CallResult α → List Failure
  | .raised => [failure]
  | .returned _ => []

def CallResult.failed {α : Type} : CallResult α → Bool
  | .raised => true
  | .returned _ => false

/-- What a process is configured with, and the functions on text and numbers that it has from elsewhere. -/
structure SignalEnv (N F : Type) where
  /-- `SIGNAL_RELEVANCE_THRESHOLD`, where it is a number. -/
  threshold : Option F
  needsUserKey : Bool
  lower : Text → Text
  loads : Text → Option (Value N Text)
  /-- `float` of a number and of a text. -/
  number : N → Option F
  parse : Text → Option F
  /-- `round(_, 4)`. -/
  round : F → F
  /-- The id, the url and the name in `sources`. -/
  sources : List (Text × Text × Text)

/-- How the calls end that a round of `process_signal` makes. -/
structure Calls (N F : Type) where
  budget : CallResult Int
  /-- `resolve_job_model`. -/
  jobModel : CallResult (Option Text)
  chat : Text → Text → CallResult Text
  profile : CallResult (Option RelevanceProfile)
  emit : Signal N F → CallResult DispatchOutcome
  fireBackground : CallResult Unit
  insert : CallResult Unit
  embed : CallResult Unit

/-! ## The reply of the model -/

def prompt (title content : Text) : Text :=
  ("Analyse the following content item. Respond with a single JSON object — no markdown.\n\n" ++
    "Title: ").toList ++ title ++ "\nContent: ".toList ++ content ++
  ("\n\nRequired JSON keys:\n" ++
    "  \"content_summary\": one or two sentence summary (max 200 chars)\n" ++
    "  \"topics\": list of 1-5 short lowercase topic strings\n" ++
    "  \"entities\": list of objects with \"name\" (string) and \"type\" " ++
    "(\"PERSON\"|\"ORG\"|\"PLACE\"|\"CONCEPT\")\n" ++
    "  \"importance_score\": float 0.0-1.0 — higher means more novel, specific, and actionable\n\n" ++
    "Example:\n" ++
    "\x7b\"content_summary\":\"RBA holds cash rate at 4.35%.\"," ++
    "\"topics\":[\"monetary policy\",\"interest rates\"]," ++
    "\"entities\":[\x7b\"name\":\"Reserve Bank of Australia\",\"type\":\"ORG\"\x7d]," ++
    "\"importance_score\":0.75\x7d\n").toList

/-- Where `str.splitlines` ends a line. -/
def isLineBreak (c : Char) : Bool :=
  (0x0a ≤ c.toNat && c.toNat ≤ 0x0d) || (0x1c ≤ c.toNat && c.toNat ≤ 0x1e) ||
    c.toNat = 0x85 || c.toNat = 0x2028 || c.toNat = 0x2029

/-- `str.splitlines`, behind a line that has begun. -/
def splitlinesFrom (line : Text) : Text → List Text
  | [] => if line = [] then [] else [line]
  | '\r' :: '\n' :: rest => line :: splitlinesFrom [] rest
  | c :: rest => if isLineBreak c then line :: splitlinesFrom [] rest else splitlinesFrom (line ++ [c]) rest

/-- The text without its code fences. -/
def unfenced (raw : Text) : Text :=
  if "```".toList.isPrefixOf raw then
    "\n".toList.intercalate ((splitlinesFrom [] raw).filter fun line => !"```".toList.isPrefixOf line)
  else raw

/-- `_call_llm`: the reply, an empty object when there is none. -/
def callLlm (env : SignalEnv N F) (calls : Calls N F) (title content userId : Text) :
    CallResult (Value N Text × List Failure) :=
  if env.needsUserKey && userId.isEmpty then .returned (.obj [], [])
  else
    match calls.jobModel with
    | .raised => .raised
    | .returned model =>
      if model.getD [] = [] then .returned (.obj [], [])
      else
        match calls.chat (model.getD []) (prompt title content) with
        | .raised => .returned (.obj [], [.llm])
        | .returned text =>
          match env.loads (unfenced (Entries.strip isPySpace text)) with
          | none => .returned (.obj [], [.notJson])
          | some data => .returned (data, [])

/-- The member of an object under a key, the last of them. -/
def member (members : List (Text × Value N Text)) (key : String) : Option (Value N Text) :=
  (members.reverse.find? fun m => m.1 = key.toList).map Prod.snd

/-- `value[:500]`. -/
def slice500 : Value N Text → Option (Value N Text)
  | .str s => some (.str (s.take 500))
  | .arr items => some (.arr (items.take 500))
  | _ => none

def asText : Value N Text → Option Text
  | .str s => some s
  | _ => none

/-- The texts that iterating a value gives, when it gives texts only. -/
def iterTexts : Value N Text → Option (List Text)
  | .str s => some (s.map fun c => [c])
  | .arr items => items.mapM asText
  | .obj members => some (members.map Prod.fst)
  | _ => none

/-- `e.get("name", "")`, a text. -/
def nameOf : Value N Text → Option Text
  | .obj members => (member members "name").elim (some []) asText
  | _ => none

def iterNames : Value N Text → Option (List Text)
  | .arr items => items.mapM nameOf
  | .str [] => some []
  | .obj [] => some []
  | _ => none

/-! ## Notifying and storing -/

/-- `_notify`. -/
def notify (calls : Calls N F) (signal : Signal N F) : Bool :=
  match calls.emit signal with
  | .raised => false
  | .returned outcome => outcome ∈ [DispatchOutcome.delivered, .partially, .allSkipped]

def scopeOf (sourceId : Text) : Text :=
  if sourceId = "__system__".toList then "system".toList else "personal".toList

def rowOf (env : SignalEnv N F) (signal : Signal N F) : SignalRow N F where
  signalId := signal.signalId
  userId := signal.userId
  sourceId := signal.sourceId
  title := signal.title
  url := signal.url
  publishedAt := signal.publishedAt
  contentSummary := signal.contentSummary
  entities := signal.entities
  topics := signal.topics
  importanceScore := signal.importanceScore
  relevanceScore := signal.relevanceScore
  notified := signal.notified
  createdAt := signal.createdAt
  scope := scopeOf signal.sourceId
  sourceUrl := (env.sources.find? fun s => s.1 = signal.sourceId).map fun s => s.2.1
  sourceLabel := (env.sources.find? fun s => s.1 = signal.sourceId).map fun s => s.2.2

def pointOf (signal : Signal N F) : SignalPoint F where
  signalId := signal.signalId
  sourceId := signal.sourceId
  title := signal.title
  url := signal.url
  importanceScore := signal.importanceScore
  relevanceScore := signal.relevanceScore
  userId := signal.userId
  scope := scopeOf signal.sourceId

/-- `ON CONFLICT (signal_id) DO NOTHING`. -/
def insertRow (row : SignalRow N F) (rows : List (SignalRow N F)) : List (SignalRow N F) :=
  if rows.any fun r => r.signalId = row.signalId then rows else rows ++ [row]

/-- `bool` of a summary. -/
def hasSummary (signal : Signal N F) : Bool :=
  match signal.contentSummary with
  | .str s => !s.isEmpty
  | .arr items => !items.isEmpty
  | _ => false

/-- The notification of a signal goes out on some channel. -/
def notified (calls : Calls N F) (signal : Signal N F) : Bool :=
  match calls.emit signal with
  | .raised => false
  | .returned outcome => outcome ∈ [DispatchOutcome.delivered, .partially]

structure Processed (N F : Type) where
  signal : Option (Signal N F)
  store : SignalStore N F
  failures : List Failure

/-- `_persist`. -/
def persist (env : SignalEnv N F) (calls : Calls N F) (signal : Signal N F) (store : SignalStore N F) :
    Processed N F where
  signal := some signal
  store :=
    { rows := match calls.insert with
        | .raised => store.rows
        | .returned _ => insertRow (rowOf env signal) store.rows
      points := match hasSummary signal, calls.embed with
        | true, .returned _ => Table.upsert SignalPoint.signalId (pointOf signal) store.points
        | _, _ => store.points }
  failures := calls.insert.logged .postgres ++ if hasSummary signal then calls.embed.logged .qdrant else []

/-! ## Scores -/

/-- What the scores are computed with; neither law nor order is used of it. -/
class Scores (F : Type) extends OfScientific F, NatCast F, Add F, Mul F, Div F, LT F, LE F where
  decidableLT : DecidableLT F
  decidableLE : DecidableLE F

attribute [reducible, instance] Scores.decidableLT Scores.decidableLE

section Scoring

variable [Scores F]

/-- `float`. -/
def toFloat (env : SignalEnv N F) : Value N Text → Option F
  | .num n => env.number n
  | .str s => env.parse s
  | .bool b => some (if b then 1.0 else 0.0)
  | _ => none

/-- `min` and `max` of two, which take the first where they cannot tell. -/
def pyMin (a b : F) : F := if b < a then b else a

def pyMax (a b : F) : F := if a < b then b else a

/-- The signal as the reply describes it; `none` where reading it raises. -/
def readReply (env : SignalEnv N F) (raw : Signal N F) (userId : Text) : Value N Text → Option (Signal N F)
  | .obj members => do
    let importance ← (member members "importance_score").elim (some 0.0) (toFloat env)
    let summary ← slice500 ((member members "content_summary").getD (.str raw.title))
    return { raw with
      contentSummary := summary
      rawContent := []
      entities := (member members "entities").getD (.arr [])
      topics := (member members "topics").getD (.arr [])
      importanceScore := pyMax 0.0 (pyMin 1.0 importance)
      relevanceScore := 0.0
      notified := false
      userId := userId }
  | _ => none

/-- `_fraction_match`: `found` is membership in a set, or in a text. -/
def fractionMatch (env : SignalEnv N F) (tracked : List Text) (found : Text → Bool) : F :=
  if tracked = [] then 0.0
  else pyMin 1.0 ((tracked.countP fun item => found (env.lower item) : Nat) / (tracked.length : Nat))

/-- `match_relevance`; `none` where it raises. -/
def matchRelevance (env : SignalEnv N F) (signal : Signal N F) (profile : RelevanceProfile) : Option F := do
  let topics ← iterTexts signal.topics
  let names ← iterNames signal.entities
  let summary ← asText signal.contentSummary
  let text := env.lower (signal.title ++ " ".toList ++ summary)
  let topicScore := fractionMatch env profile.trackedTopics fun t => (topics.map env.lower).contains t
  let locationScore := fractionMatch env profile.trackedLocations fun t => decide (t <:+: text)
  let entityScore := fractionMatch env profile.trackedEntities fun t => (names.map env.lower).contains t
  let keywordScore := fractionMatch env profile.trackedKeywords fun t => decide (t <:+: text)
  let score := 0.30 * topicScore + 0.20 * locationScore + 0.20 * entityScore + 0.20 * keywordScore
    + 0.10 * signal.importanceScore
  return env.round (pyMin 1.0 score)

/-- The relevance to the profile that was loaded; a signal without one keeps its own. -/
def scored (env : SignalEnv N F) (signal : Signal N F) : CallResult (Option RelevanceProfile) → Option (Signal N F)
  | .returned (some profile) => do
    let relevance ← matchRelevance env signal profile
    return { signal with relevanceScore := relevance }
  | _ => some signal

/-- What is above the threshold is notified and passed on; `none` where passing it on raises. -/
def announce (calls : Calls N F) (threshold : F) (signal : Signal N F) :
    Option (Signal N F) :=
  if threshold ≤ signal.relevanceScore then
    match calls.fireBackground with
    | .raised => none
    | .returned _ => some { signal with notified := notify calls signal }
  else some signal

/-- The signal with its scores; `none` where reading the reply or matching it raises. -/
def assess (env : SignalEnv N F) (calls : Calls N F) (raw : Signal N F) (userId : Text) :
    Option (Signal N F × List Failure) :=
  match env.threshold, calls.budget with
  | some _, .returned budget =>
    match callLlm env calls raw.title (truncateTextAt raw.rawContent (budget - 500)) userId with
    | .raised => none
    | .returned (data, failures) => do
      let signal ← readReply env raw userId data
      let signal ← scored env signal calls.profile
      return (signal, failures ++ calls.profile.logged .profile)
  | _, _ => none

/-- What `process_signal` does before it stores the signal; `none` where it raises. -/
def prepare (env : SignalEnv N F) (calls : Calls N F) (raw : Signal N F) (userId : Text) :
    Option (Signal N F × List Failure) := do
  let threshold ← env.threshold
  let (signal, failures) ← assess env calls raw userId
  let announced ← announce calls threshold signal
  let unnotified := if threshold ≤ signal.relevanceScore then (calls.emit signal).logged .notifier else []
  return (announced, failures ++ unnotified)

/-- The user is told of the signal. -/
def notifies (env : SignalEnv N F) (calls : Calls N F) (raw : Signal N F) (userId : Text) : Bool :=
  match env.threshold, assess env calls raw userId with
  | some threshold, some assessed =>
    decide (threshold ≤ assessed.1.relevanceScore) && notified calls assessed.1
  | _, _ => false

def processSignal (env : SignalEnv N F) (calls : Calls N F) (raw : Signal N F) (userId : Text)
    (store : SignalStore N F) : Processed N F :=
  match prepare env calls raw userId with
  | none => { signal := none, store := store, failures := [] }
  | some (signal, failures) =>
    let stored := persist env calls signal store
    { stored with failures := failures ++ stored.failures }

/-! ## When a signal gets its row -/

variable {env : SignalEnv N F} {calls : Calls N F} {raw signal : Signal N F} {userId : Text}
  {store : SignalStore N F} {data : Value N Text} {members : List (Text × Value N Text)} {threshold : F}
  {failures : List Failure}

/-- Reading the members of a reply raises nowhere: the importance is a number, the summary can be cut, and
where they are matched with a profile the topics, the names of the entities and the summary are texts. -/
structure Readable (env : SignalEnv N F) (profile : CallResult (Option RelevanceProfile))
    (members : List (Text × Value N Text)) : Prop where
  importance : ∀ v ∈ member members "importance_score", (toFloat env v).isSome
  summary : ∀ v ∈ member members "content_summary", (slice500 v).isSome
  matched : ∀ p, profile = .returned (some p) →
    (∀ v ∈ member members "topics", (iterTexts v).isSome) ∧
    (∀ v ∈ member members "entities", (iterNames v).isSome) ∧
    ∀ v ∈ member members "content_summary", (asText v).isSome

/-- Nothing raises before the signal is stored. -/
structure Prepares (env : SignalEnv N F) (calls : Calls N F) (raw : Signal N F) (userId : Text) : Prop where
  threshold : env.threshold.isSome
  reply : ∃ budget members failures, calls.budget = .returned budget ∧
    callLlm env calls raw.title (truncateTextAt raw.rawContent (budget - 500)) userId
      = .returned (.obj members, failures) ∧
    Readable env calls.profile members ∧
    ∀ t signal, env.threshold = some t →
      (readReply env raw userId (.obj members)).bind (scored env · calls.profile) = some signal →
      t ≤ signal.relevanceScore → calls.fireBackground = .returned ()

theorem slice500_asText {v w : Value N Text} (h : slice500 v = some w) :
    (asText w).isSome = (asText v).isSome := by
  cases v <;> simp [slice500] at h <;> subst h <;> rfl

theorem readReply_isSome : (readReply env raw userId (.obj members)).isSome ↔
    (∀ v ∈ member members "importance_score", (toFloat env v).isSome) ∧
    ∀ v ∈ member members "content_summary", (slice500 v).isSome := by
  cases hi : member members "importance_score" with
  | none =>
    cases hs : member members "content_summary" with
    | none => simp [readReply, hi, hs, slice500]
    | some v => cases hv : slice500 v <;> simp [readReply, hi, hs, hv]
  | some x =>
    cases hx : toFloat env x with
    | none => simp [readReply, hi, hx]
    | some f =>
      cases hs : member members "content_summary" with
      | none => simp [readReply, hi, hs, hx, slice500]
      | some v => cases hv : slice500 v <;> simp [readReply, hi, hs, hx, hv]

theorem readReply_fields (h : readReply env raw userId (.obj members) = some signal) :
    signal.signalId = raw.signalId ∧ signal.sourceId = raw.sourceId ∧
    signal.topics = (member members "topics").getD (.arr []) ∧
    signal.entities = (member members "entities").getD (.arr []) ∧
    slice500 ((member members "content_summary").getD (.str raw.title)) = some signal.contentSummary := by
  simp only [readReply, Option.bind_eq_bind, Option.bind_eq_some_iff, Option.pure_def, Option.some.injEq] at h
  obtain ⟨importance, _, summary, hsummary, rfl⟩ := h
  exact ⟨rfl, rfl, rfl, rfl, hsummary⟩

theorem matchRelevance_isSome {profile : RelevanceProfile} : (matchRelevance env signal profile).isSome ↔
    (iterTexts signal.topics).isSome ∧ (iterNames signal.entities).isSome ∧
      (asText signal.contentSummary).isSome := by
  cases ht : iterTexts signal.topics <;> cases hn : iterNames signal.entities <;>
    cases hs : asText signal.contentSummary <;> simp [matchRelevance, ht, hn, hs]

theorem getD_isSome {α β : Type} {f : α → Option β} {o : Option α} {d : α} (hd : (f d).isSome) :
    (f (o.getD d)).isSome ↔ ∀ v ∈ o, (f v).isSome := by
  cases o with
  | none => simp [hd]
  | some v => simp

theorem scored_isSome (h : readReply env raw userId (.obj members) = some signal) :
    (scored env signal calls.profile).isSome ↔ ∀ p, calls.profile = .returned (some p) →
      (∀ v ∈ member members "topics", (iterTexts v).isSome) ∧
      (∀ v ∈ member members "entities", (iterNames v).isSome) ∧
      ∀ v ∈ member members "content_summary", (asText v).isSome := by
  obtain ⟨_, _, htopics, hentities, hsummary⟩ := readReply_fields h
  have ht : (iterTexts signal.topics).isSome ↔ ∀ v ∈ member members "topics", (iterTexts v).isSome := by
    rw [htopics]
    exact getD_isSome rfl
  have hn : (iterNames signal.entities).isSome ↔ ∀ v ∈ member members "entities", (iterNames v).isSome := by
    rw [hentities]
    exact getD_isSome rfl
  have hs : (asText signal.contentSummary).isSome ↔
      ∀ v ∈ member members "content_summary", (asText v).isSome := by
    rw [slice500_asText hsummary]
    exact getD_isSome rfl
  cases hp : calls.profile with
  | raised => simp [scored]
  | returned profile =>
    cases profile with
    | none => simp [scored]
    | some profile =>
      have hscored : (scored env signal (.returned (some profile))).isSome ↔
          (matchRelevance env signal profile).isSome := by
        cases hm : matchRelevance env signal profile <;> simp [scored, hm]
      rw [hscored, matchRelevance_isSome, ht, hn, hs]
      simp

theorem announce_isSome : (announce calls threshold signal).isSome ↔
    (threshold ≤ signal.relevanceScore → calls.fireBackground = .returned ()) := by
  by_cases h : threshold ≤ signal.relevanceScore
  · cases hf : calls.fireBackground <;> simp [announce, h, hf]
  · simp [announce, h]

theorem assess_eq_some (h : assess env calls raw userId = some (signal, failures)) :
    ∃ budget members read, calls.budget = .returned budget ∧
      (∃ failures, callLlm env calls raw.title (truncateTextAt raw.rawContent (budget - 500)) userId
        = .returned (.obj members, failures)) ∧
      readReply env raw userId (.obj members) = some read ∧ scored env read calls.profile = some signal := by
  unfold assess at h
  split at h
  · rename_i budget _ hbudget
    split at h
    · cases h
    · rename_i data _ hreply
      simp only [Option.bind_eq_bind, Option.bind_eq_some_iff, Option.pure_def, Option.some.injEq,
        Prod.mk.injEq] at h
      obtain ⟨read, hread, matched, hmatched, rfl, _⟩ := h
      cases data with
      | obj members => exact ⟨budget, members, read, hbudget, ⟨_, hreply⟩, hread, hmatched⟩
      | _ => cases hread
  · cases h

theorem prepare_eq_some (h : prepare env calls raw userId = some (signal, failures)) :
    ∃ threshold budget members read matched, env.threshold = some threshold ∧ calls.budget = .returned budget ∧
      (∃ failures, callLlm env calls raw.title (truncateTextAt raw.rawContent (budget - 500)) userId
        = .returned (.obj members, failures)) ∧
      readReply env raw userId (.obj members) = some read ∧ scored env read calls.profile = some matched ∧
      announce calls threshold matched = some signal := by
  simp only [prepare, Option.bind_eq_bind, Option.bind_eq_some_iff, Option.pure_def, Option.some.injEq,
    Prod.mk.injEq, Prod.exists] at h
  obtain ⟨threshold, hthreshold, matched, _, hassess, announced, hannounced, rfl, _⟩ := h
  obtain ⟨budget, members, read, hbudget, hreply, hread, hmatched⟩ := assess_eq_some hassess
  exact ⟨threshold, budget, members, read, matched, hthreshold, hbudget, hreply, hread, hmatched, hannounced⟩

theorem prepare_isSome_iff : (prepare env calls raw userId).isSome ↔ Prepares env calls raw userId := by
  constructor
  · intro h
    obtain ⟨⟨announced, failures⟩, hprepared⟩ := Option.isSome_iff_exists.mp h
    obtain ⟨threshold, budget, members, read, matched, hthreshold, hbudget, ⟨f, hreply⟩, hread, hmatched,
      hannounced⟩ := prepare_eq_some hprepared
    have hr : (readReply env raw userId (.obj members)).isSome := by rw [hread]; rfl
    have hm : (scored env read calls.profile).isSome := by rw [hmatched]; rfl
    have ha : (announce calls threshold matched).isSome := by rw [hannounced]; rfl
    obtain ⟨himportance, hsummary⟩ := readReply_isSome.mp hr
    refine ⟨by rw [hthreshold]; rfl, budget, members, f, hbudget, hreply,
      ⟨himportance, hsummary, (scored_isSome hread).mp hm⟩, ?_⟩
    intro t signal ht hsignal
    rw [hread, Option.bind_some, hmatched] at hsignal
    rw [hthreshold] at ht
    cases hsignal
    cases ht
    exact announce_isSome.mp ha
  · intro h
    obtain ⟨threshold, hthreshold⟩ := Option.isSome_iff_exists.mp h.threshold
    obtain ⟨budget, members, failures, hbudget, hreply, hreadable, hpassed⟩ := h.reply
    have hr : (readReply env raw userId (.obj members)).isSome :=
      readReply_isSome.mpr ⟨hreadable.importance, hreadable.summary⟩
    obtain ⟨read, hread⟩ := Option.isSome_iff_exists.mp hr
    obtain ⟨matched, hmatched⟩ := Option.isSome_iff_exists.mp ((scored_isSome hread).mpr hreadable.matched)
    have hsignal : (readReply env raw userId (.obj members)).bind (scored env · calls.profile) = some matched := by
      rw [hread, Option.bind_some, hmatched]
    obtain ⟨announced, hannounced⟩ := Option.isSome_iff_exists.mp
      (announce_isSome.mpr (hpassed threshold matched hthreshold hsignal))
    simp [prepare, assess, hthreshold, hbudget, hreply, hread, hmatched, hannounced]

theorem scored_ids {profile : CallResult (Option RelevanceProfile)} {matched : Signal N F}
    (h : scored env signal profile = some matched) :
    matched.signalId = signal.signalId ∧ matched.sourceId = signal.sourceId := by
  unfold scored at h
  split at h
  · simp only [Option.bind_eq_bind, Option.bind_eq_some_iff, Option.pure_def, Option.some.injEq] at h
    obtain ⟨relevance, _, rfl⟩ := h
    exact ⟨rfl, rfl⟩
  · cases h
    exact ⟨rfl, rfl⟩

theorem announce_ids {announced : Signal N F} (h : announce calls threshold signal = some announced) :
    announced.signalId = signal.signalId ∧ announced.sourceId = signal.sourceId := by
  unfold announce at h
  split at h
  · split at h
    · cases h
    · cases h
      exact ⟨rfl, rfl⟩
  · cases h
    exact ⟨rfl, rfl⟩

theorem prepare_ids (h : prepare env calls raw userId = some (signal, failures)) :
    signal.signalId = raw.signalId ∧ signal.sourceId = raw.sourceId := by
  obtain ⟨_, _, _, read, matched, _, _, _, hread, hmatched, hannounced⟩ := prepare_eq_some h
  obtain ⟨hid, hsource⟩ := announce_ids hannounced
  obtain ⟨hid', hsource'⟩ := scored_ids hmatched
  obtain ⟨hid'', hsource'', _⟩ := readReply_fields hread
  exact ⟨by rw [hid, hid', hid''], by rw [hsource, hsource', hsource'']⟩

instance : Decidable (Prepares env calls raw userId) := decidable_of_iff _ prepare_isSome_iff

/-- The signal reaches the insert, and the insert succeeds. -/
structure Persists (env : SignalEnv N F) (calls : Calls N F) (raw : Signal N F) (userId : Text) : Prop where
  prepared : Prepares env calls raw userId
  inserted : calls.insert = .returned ()

theorem processSignal_persists (h : Persists env calls raw userId)
    (hfresh : ∀ row ∈ store.rows, row.signalId ≠ raw.signalId) :
    ∃ row, row.signalId = raw.signalId ∧ row.sourceId = raw.sourceId ∧
      (processSignal env calls raw userId store).store.rows = store.rows ++ [row] := by
  obtain ⟨⟨signal, failures⟩, hprepared⟩ := Option.isSome_iff_exists.mp (prepare_isSome_iff.mpr h.prepared)
  obtain ⟨hid, hsource⟩ := prepare_ids hprepared
  refine ⟨rowOf env signal, hid, hsource, ?_⟩
  have hnew : (store.rows.any fun r => r.signalId = (rowOf env signal).signalId) = false := by
    rw [List.any_eq_false]
    intro row hrow
    have hne := hfresh row hrow
    simpa [rowOf, hid] using hne
  simp [processSignal, hprepared, persist, h.inserted, insertRow, hnew]

theorem processSignal_not_persists (h : ¬ Persists env calls raw userId) :
    (processSignal env calls raw userId store).store.rows = store.rows := by
  cases hp : prepare env calls raw userId with
  | none => simp [processSignal, hp]
  | some prepared =>
    have hprepares : Prepares env calls raw userId := prepare_isSome_iff.mp (by rw [hp]; rfl)
    cases hinsert : calls.insert with
    | raised => simp [processSignal, hp, persist, hinsert]
    | returned u => exact absurd ⟨hprepares, hinsert⟩ h

theorem persists_of_clean (hsignal : (processSignal env calls raw userId store).signal.isSome)
    (hfailures : (processSignal env calls raw userId store).failures = []) :
    Persists env calls raw userId := by
  cases hp : prepare env calls raw userId with
  | none => simp [processSignal, hp] at hsignal
  | some prepared =>
    refine ⟨prepare_isSome_iff.mp (by rw [hp]; rfl), ?_⟩
    cases hinsert : calls.insert with
    | raised => simp [processSignal, hp, persist, hinsert, CallResult.logged] at hfailures
    | returned u => rfl

end Scoring

end Lumogis.Signals
