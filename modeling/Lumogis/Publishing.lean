import Lumogis.Permissions
import Lumogis.Projection
import Lumogis.Lib.Fault
import Lumogis.Lib.Table
import Mathlib.Logic.Function.Basic

/-!
# Lumogis.Publishing

Publishing and unpublishing the resources that are one point each: notes, audio memos, sessions, entities
and signals. A publish writes the point before the row and takes the point back when the row cannot be
written; an unpublish deletes the row and then, best effort, the point.

A run meets each of its remote calls at most once, so a fault is placed by naming the call
(`PublishFaults`). The embedder is a parameter that may fail on any text.
-/

namespace Lumogis.Publish

/-! ## Rows, points and faults -/

/-- The publishable resources with one point each. -/
inductive Resource where
  | notes | audioMemos | sessions | entities | signals
  deriving DecidableEq

inductive Collection where
  | conversations | entities | signals
  deriving DecidableEq

def Resource.table : Resource → String
  | .notes => "notes"
  | .audioMemos => "audio_memos"
  | .sessions => "sessions"
  | .entities => "entities"
  | .signals => "signals"

def Resource.pkCol : Resource → String
  | .notes => "note_id"
  | .audioMemos => "audio_id"
  | .sessions => "session_id"
  | .entities => "entity_id"
  | .signals => "signal_id"

def Resource.collection : Resource → Collection
  | .notes | .audioMemos | .sessions => .conversations
  | .entities => .entities
  | .signals => .signals

def Collection.name : Collection → String
  | .conversations => "conversations"
  | .entities => "entities"
  | .signals => "signals"

/-- A value of a row, a payload or a request body. -/
inductive Value where
  | null
  | text (s : String)
  | int (n : Int)
  | real (q : Rat)
  | bool (b : Bool)
  | list (xs : List String)
  deriving DecidableEq

/-- `bool(v)`. -/
def Value.truthy : Value → Bool
  | .null => false
  | .text s => s != ""
  | .int n => n != 0
  | .real q => q != 0
  | .bool b => b
  | .list xs => !xs.isEmpty

/-- `v or d`. -/
def Value.orElse (v d : Value) : Value := if v.truthy then v else d

/-- A text, for a value that the column's type makes one. -/
def Value.str : Value → String
  | .text s => s
  | _ => ""

def Value.strings : Value → List String
  | .list xs => xs
  | _ => []

abbrev Fields := List (String × Value)

def Fields.get (fields : Fields) (key : String) : Value := (fields.lookup key).getD .null

structure Row where
  pk : String
  userId : String
  scope : Scope
  publishedFrom : Option String
  fields : Fields

def Row.get (row : Row) (key : String) : Value := row.fields.get key

structure Point where
  id : String
  vector : Embedding
  userId : String
  scope : Option Scope
  publishedFrom : Option String
  payload : Fields

structure PublishStore where
  rows : Resource → List Row
  points : Collection → List Point

inductive PublishErr where
  | value (message : String)
  | database
  | vectorStore
  | http (status : Nat) (error message : String)

/-- What becomes of each remote call of a run. -/
structure PublishFaults where
  fetch : Prog.Fate
  existing : Prog.Fate
  upsert : Prog.Fate
  insert : Prog.Fate
  deleteRow : Prog.Fate
  deletePoint : Prog.Fate

def PublishFaults.none : PublishFaults := ⟨.ok, .ok, .ok, .ok, .ok, .ok⟩

/-- At most one call faults. -/
def PublishFaults.Single (faults : PublishFaults) : Prop :=
  ([faults.fetch, faults.existing, faults.upsert, faults.insert, faults.deleteRow, faults.deletePoint].filter
    (· ≠ .ok)).length ≤ 1

structure PublishEnv extends Env where
  embedder : String → Option Embedding
  /-- `json.dumps`. -/
  dumps : Value → String
  /-- `str(exc)`. -/
  message : PublishErr → String

abbrev PublishM := ReaderT PublishFaults (ExceptT PublishErr (StateM PublishStore))

def PublishM.exec {α : Type} (p : PublishM α) (faults : PublishFaults) (s : PublishStore) :
    Except PublishErr α × PublishStore := p faults s

/-- A remote call with the given fate. -/
def remote {α : Type} (fate : PublishFaults → Prog.Fate) (e : PublishErr)
    (f : PublishStore → Except PublishErr α × PublishStore) : PublishM α := fun faults s =>
  match fate faults with
  | .ok => f s
  | .lost => (.error e, s)
  | .late => (.error e, (f s).2)

/-! ## `services/projection.py` -/

def validateTargetScope (targetScope : Scope) : PublishM Unit :=
  if targetScope = .personal then
    throw (.value "projection target_scope must be 'shared' or 'system'; got 'personal'")
  else
    pure ()

/-- Skips the upsert when there is no vector. -/
def qdrantUpsertSafe (c : Collection) (vector : Option Embedding) (pt : Embedding → Point) : PublishM Unit :=
  match vector with
  | none => pure ()
  | some v => remote (·.upsert) .vectorStore fun s =>
    (.ok (), { s with points := Function.update s.points c (Table.upsert Point.id (pt v) (s.points c)) })

/-- Best-effort delete. -/
def qdrantDeleteSafe (c : Collection) (pointId : String) : PublishM Unit :=
  tryCatch (remote (·.deletePoint) .vectorStore fun s =>
    (.ok (), { s with points := Function.update s.points c (Table.deleteWhere (fun pt => pt.id == pointId) (s.points c)) }))
    fun _ => pure ()

/-- The projection row of `src` in `targetScope`. -/
def Row.projects (src : String) (targetScope : Scope) (row : Row) : Bool :=
  row.publishedFrom == some src && row.scope == targetScope

/-- `INSERT ... ON CONFLICT (published_from, scope) DO UPDATE ... RETURNING *`; `published_from` refers to a row of
the table, and the primary key has to be free. -/
def upsertProjection (src : String) (row : Row) (adopt : Row → Row) (rows : List Row) : Except PublishErr (Row × List Row) :=
  match rows.find? (Row.projects src row.scope) with
  | some old => .ok (adopt old, Table.updateWhere (Row.projects src row.scope) adopt rows)
  | none =>
    if rows.any (fun r => r.pk == src) && !rows.any (fun r => r.pk == row.pk) then
      .ok (row, rows ++ [row])
    else
      .error .database

/-- The insert of a single-point projection; when it fails the point is deleted again and the failure is raised. -/
def insertProjectionOrRollbackQdrant (r : Resource) (pointId src : String) (row : Row) (adopt : Row → Row) :
    PublishM Row :=
  tryCatch (remote (·.insert) .database fun s =>
    match upsertProjection src row adopt (s.rows r) with
    | .ok (row, rows) => (.ok row, { s with rows := Function.update s.rows r rows })
    | .error e => (.error e, s))
    fun e => do
      qdrantDeleteSafe r.collection pointId
      throw e

/-- `DO UPDATE SET col = EXCLUDED.col` for each of the columns. -/
def Row.adoptCols (cols : List String) (excluded old : Row) : Row :=
  { old with fields := old.fields.map fun f => (f.1, if f.1 ∈ cols then excluded.get f.1 else f.2) }

/-- What a resource contributes to its projection: the text that is embedded, the payload and the row's columns
besides those every projection has, and the columns that a conflict updates. -/
structure Draft where
  text : String
  payload : Fields
  columns : Fields
  adopt : Row → Row → Row

def Draft.row (draft : Draft) (env : PublishEnv) (r : Resource) (srcPk : String) (targetScope : Scope)
    (actor : String) : Row :=
  { pk := projectionPk env.toEnv r.table srcPk targetScope, userId := actor, scope := targetScope,
    publishedFrom := some srcPk, fields := draft.columns }

def Draft.point (draft : Draft) (env : PublishEnv) (r : Resource) (srcPk : String) (targetScope : Scope)
    (actor : String) (vector : Embedding) : Point :=
  { id := projectionPointId env.toEnv r.collection.name srcPk targetScope
    vector := vector
    userId := actor
    scope := some targetScope
    publishedFrom := some srcPk
    payload := (r.pkCol, .text (projectionPk env.toEnv r.table srcPk targetScope)) :: draft.payload }

/-- Point first, then the row. -/
def projectDraft (env : PublishEnv) (r : Resource) (srcPk : String) (targetScope : Scope) (actor : String)
    (draft : Draft) : PublishM Row := do
  qdrantUpsertSafe r.collection (env.embedder draft.text) (draft.point env r srcPk targetScope actor)
  insertProjectionOrRollbackQdrant r (projectionPointId env.toEnv r.collection.name srcPk targetScope) srcPk
    (draft.row env r srcPk targetScope actor) (draft.adopt (draft.row env r srcPk targetScope actor))

def noteDraft (src : Row) : Draft :=
  let text := (src.get "text").orElse (.text "")
  { text := text.str
    payload := [("text", text)]
    columns := [("text", text), ("source", (src.get "source").orElse (.text "quick_capture")), ("graph_projected_at", .null)]
    adopt := Row.adoptCols ["text", "graph_projected_at"] }

def audioMemoDraft (src : Row) : Draft :=
  let transcript := (src.get "transcript").orElse (.text "")
  { text := transcript.str
    payload := [("transcript", transcript)]
    columns := [("file_path", (src.get "file_path").orElse (.text "")), ("transcript", src.get "transcript"),
      ("duration_seconds", src.get "duration_seconds"), ("whisper_model", src.get "whisper_model"),
      ("transcribed_at", src.get "transcribed_at"), ("graph_projected_at", .null)]
    adopt := Row.adoptCols ["transcript", "duration_seconds", "whisper_model", "graph_projected_at"] }

def sessionDraft (src : Row) (summaryText : Value) : Draft :=
  let topics := (src.get "topics").orElse (.list [])
  let entities := (src.get "entities").orElse (.list [])
  { text := summaryText.str ++ " Topics: " ++ String.intercalate ", " topics.strings
    payload := [("summary", summaryText), ("topics", topics), ("entities", entities)]
    columns := [("summary", summaryText), ("topics", topics), ("entities", entities),
      ("entity_ids", (src.get "entity_ids").orElse (.list [])), ("graph_projected_at", .null)]
    adopt := Row.adoptCols ["summary", "topics", "entities", "entity_ids", "graph_projected_at"] }

/-- `share_origin` after a conflict: `NULL` adopts the incoming origin, equal origins stay, others become
`multiple`. -/
def promoteShareOrigin (old excluded : Value) : Value :=
  if old = .null then excluded else if old = excluded then old else .text "multiple"

def entityDraft (src : Row) (shareOrigin : String) : Draft :=
  let name := (src.get "name").orElse (.text "")
  let entityType := (src.get "entity_type").orElse (.text "")
  { text := name.str ++ " " ++ entityType.str
    payload := [("name", name), ("entity_type", entityType)]
    columns := [("name", name), ("entity_type", entityType), ("aliases", (src.get "aliases").orElse (.list [])),
      ("context_tags", (src.get "context_tags").orElse (.list [])),
      ("mention_count", (src.get "mention_count").orElse (.int 1)), ("extraction_quality", src.get "extraction_quality"),
      ("share_origin", .text shareOrigin), ("is_staged", .bool false)]
    adopt := fun excluded old =>
      let adopted := Row.adoptCols ["name", "entity_type", "aliases", "context_tags", "mention_count"] excluded old
      { adopted with fields := adopted.fields.map fun f =>
          (f.1, if f.1 = "share_origin" then promoteShareOrigin f.2 (excluded.get "share_origin") else f.2) } }

def jsonOrDefault (env : PublishEnv) (value : Value) (default : String) : Value :=
  match value with
  | .null => .text default
  | .text s => .text s
  | v => .text (env.dumps v)

def signalDraft (env : PublishEnv) (src : Row) : Draft :=
  let title := (src.get "title").orElse (.text "")
  let summary := (src.get "content_summary").orElse (.text "")
  let url := (src.get "url").orElse (.text "")
  { text := title.str ++ " " ++ summary.str
    payload := [("title", title), ("url", url)]
    columns := [("source_id", (src.get "source_id").orElse (.text "")), ("title", title), ("url", url),
      ("published_at", src.get "published_at"), ("content_summary", summary),
      ("entities", jsonOrDefault env (src.get "entities") "[]"), ("topics", jsonOrDefault env (src.get "topics") "[]"),
      ("importance_score", (src.get "importance_score").orElse (.real 0)),
      ("relevance_score", (src.get "relevance_score").orElse (.real 0)),
      ("notified", .bool (src.get "notified").truthy), ("source_url", src.get "source_url"),
      ("source_label", src.get "source_label")]
    adopt := Row.adoptCols ["title", "url", "content_summary", "entities", "topics", "importance_score",
      "relevance_score", "source_url", "source_label"] }

def projectNote (env : PublishEnv) (src : Row) (targetScope : Scope) (actor : String) : PublishM Row := do
  validateTargetScope targetScope
  projectDraft env .notes src.pk targetScope actor (noteDraft src)

def projectAudioMemo (env : PublishEnv) (src : Row) (targetScope : Scope) (actor : String) : PublishM Row := do
  validateTargetScope targetScope
  projectDraft env .audioMemos src.pk targetScope actor (audioMemoDraft src)

/-- The household's summary: the sharer's, else the one already shared, else the source's. -/
def sharedSummaryText (src : Row) (targetScope : Scope) (sharedSummary : Option String) : PublishM Value := do
  let override := Permissions.strip (sharedSummary.getD "")
  if override ≠ "" then
    pure (.text override)
  else
    let existing : Option Row ← remote (·.existing) .database fun s =>
      (.ok ((s.rows .sessions).find? (Row.projects src.pk targetScope)), s)
    let shared := (existing.map fun row => row.get "summary").getD Value.null
    pure (shared.orElse ((src.get "summary").orElse (.text "")))

def projectSession (env : PublishEnv) (src : Row) (targetScope : Scope) (actor : String) (sharedSummary : Option String) :
    PublishM Row := do
  validateTargetScope targetScope
  let summaryText ← sharedSummaryText src targetScope sharedSummary
  projectDraft env .sessions src.pk targetScope actor (sessionDraft src summaryText)

def projectEntity (env : PublishEnv) (src : Row) (targetScope : Scope) (actor : String) (shareOrigin : String) :
    PublishM Row := do
  validateTargetScope targetScope
  if shareOrigin ≠ "document" ∧ shareOrigin ≠ "user" then
    throw (.value ("share_origin must be 'document' or 'user'; got '" ++ shareOrigin ++ "'"))
  else
    projectDraft env .entities src.pk targetScope actor (entityDraft src shareOrigin)

def projectSignal (env : PublishEnv) (src : Row) (targetScope : Scope) (actor : String) : PublishM Row := do
  validateTargetScope targetScope
  projectDraft env .signals src.pk targetScope actor (signalDraft env src)

/-- Deletes the projection row and, best effort, its point; counts the rows. -/
def unprojectUuidPk (env : PublishEnv) (r : Resource) (srcPk : String) (targetScope : Scope) : PublishM Nat := do
  let deleted ← remote (·.deleteRow) .database fun s =>
    (.ok ((s.rows r).any (Row.projects srcPk targetScope)),
      { s with rows := Function.update s.rows r (Table.deleteWhere (Row.projects srcPk targetScope) (s.rows r)) })
  qdrantDeleteSafe r.collection (projectionPointId env.toEnv r.collection.name srcPk targetScope)
  pure (if deleted then 1 else 0)

def unprojectNote (env : PublishEnv) (srcPk : String) : PublishM Nat := unprojectUuidPk env .notes srcPk .shared

def unprojectAudioMemo (env : PublishEnv) (srcPk : String) : PublishM Nat := unprojectUuidPk env .audioMemos srcPk .shared

def unprojectSession (env : PublishEnv) (srcPk : String) : PublishM Nat := unprojectUuidPk env .sessions srcPk .shared

def unprojectEntity (env : PublishEnv) (srcPk : String) : PublishM Nat := unprojectUuidPk env .entities srcPk .shared

def unprojectSignal (env : PublishEnv) (srcPk : String) : PublishM Nat := unprojectUuidPk env .signals srcPk .shared

/-! ## `routes/scope.py` -/

/-- The body of a publish request; an absent scope is `none`, an absent summary `null`. -/
structure PublishBody where
  scope : Option Value
  sharedSummary : Value

def PublishBody.empty : PublishBody := ⟨none, .null⟩

/-- Only `shared` is accepted. -/
def validatePublishScope (body : PublishBody) : PublishM Scope :=
  if body.scope.getD (.text "shared") ≠ .text "shared" then
    throw (.http 400 "invalid_scope" ("Only scope='shared' is accepted by v1 publish routes. " ++
      "system-scoped rows are produced by system-owned writers."))
  else
    pure .shared

/-- The caller's personal row. -/
def fetchUuidPk (r : Resource) (pk userId : String) : PublishM (Option Row) :=
  remote (·.fetch) .database fun s =>
    (.ok ((s.rows r).find? fun row => row.pk == pk && row.userId == userId && row.scope == .personal), s)

def notFound (r : Resource) (pk : String) : PublishErr :=
  .http 404 "not_found" (r.table ++ "/" ++ pk ++ " not found or not owned by caller")

/-- Staged entities are not published. -/
def prePublish (r : Resource) (src : Row) : PublishM Unit :=
  if r = .entities ∧ (src.get "is_staged").truthy then
    throw (.http 409 "entity_is_staged"
      "Entity is quarantined; promote it via /admin/review-queue/decide before publishing.")
  else
    pure ()

def project (env : PublishEnv) : Resource → Row → Scope → String → PublishM Row
  | .notes, src, targetScope, actor => projectNote env src targetScope actor
  | .audioMemos, src, targetScope, actor => projectAudioMemo env src targetScope actor
  | .sessions, src, targetScope, actor => projectSession env src targetScope actor none
  | .entities, src, targetScope, actor => projectEntity env src targetScope actor "user"
  | .signals, src, targetScope, actor => projectSignal env src targetScope actor

def unproject (env : PublishEnv) : Resource → String → PublishM Nat
  | .notes, pk => unprojectNote env pk
  | .audioMemos, pk => unprojectAudioMemo env pk
  | .sessions, pk => unprojectSession env pk
  | .entities, pk => unprojectEntity env pk
  | .signals, pk => unprojectSignal env pk

/-- The part of the row that the response shows. -/
def serialiseProjection (r : Resource) (row : Row) : Fields :=
  [("resource", .text r.table), ("scope", .text row.scope.name), (r.pkCol, .text row.pk)] ++
    (["name", "title", "summary", "text", "transcript", "url"].filter fun key => (row.get key).truthy).map fun key =>
      (key, row.get key)

def publishOne (env : PublishEnv) (r : Resource) (pk : String) (body : PublishBody) (actor : String) :
    PublishM Fields := do
  let targetScope ← validatePublishScope body
  match ← fetchUuidPk r pk actor with
  | none => throw (notFound r pk)
  | some src => do
    prePublish r src
    let row ← tryCatch (project env r src targetScope actor) fun e =>
      throw (.http 502 "projection_failed" (env.message e))
    pure (serialiseProjection r row)

def sharedSummaryMaxChars : Nat := 8000

/-- The summary of the request, when it is one. -/
def validateSharedSummary (body : PublishBody) : PublishM (Option String) :=
  match body.sharedSummary with
  | .null => pure none
  | .text s =>
    if sharedSummaryMaxChars < s.length then
      throw (.http 400 "shared_summary_too_long" "shared_summary exceeds 8000 characters")
    else
      pure (some s)
  | _ => throw (.http 400 "invalid_shared_summary" "shared_summary must be a string when provided")

/-- Sessions have a handler of their own, which passes the summary on. -/
def publishSession (env : PublishEnv) (pk : String) (body : PublishBody) (actor : String) : PublishM Fields := do
  let targetScope ← validatePublishScope body
  match ← fetchUuidPk .sessions pk actor with
  | none => throw (notFound .sessions pk)
  | some src => do
    prePublish .sessions src
    let sharedSummary ← validateSharedSummary body
    let row ← tryCatch (projectSession env src targetScope actor sharedSummary) fun e =>
      throw (.http 502 "projection_failed" (env.message e))
    pure (serialiseProjection .sessions row)

/-- `POST /api/v1/<resource>/<pk>/publish`. -/
def publish (env : PublishEnv) (r : Resource) (pk : String) (body : PublishBody) (actor : String) : PublishM Fields :=
  match r with
  | .sessions => publishSession env pk body actor
  | r => publishOne env r pk body actor

/-- `DELETE /api/v1/<resource>/<pk>/publish`; 204 also when no row was deleted. -/
def unpublishOne (env : PublishEnv) (r : Resource) (pk actor : String) : PublishM Unit := do
  match ← fetchUuidPk r pk actor with
  | none => throw (notFound r pk)
  | some _ => do
    let _ ← tryCatch (unproject env r pk) fun e => throw (.http 502 "unprojection_failed" (env.message e))
    pure ()

end Lumogis.Publish
