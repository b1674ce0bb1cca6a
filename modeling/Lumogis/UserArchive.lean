import Mathlib.Data.List.Basic

/-!
# UserArchive

The rows of a user archive and what an import makes of them before it inserts them: each row is
rewritten to the new user, and loses its `id` where the table draws its keys from a sequence.
-/

namespace Lumogis

/-- A value of a row in the archive. -/
inductive Cell where
  | null
  | int (n : Int)
  | text (s : String)
  /-- Any other JSON value, by its text. -/
  | json (s : String)
  deriving DecidableEq

/-- The columns of a row, in the order of the archive. -/
abbrev ArchiveRow := List (String × Cell)

def userExportTables : List String :=
  ["file_index", "entities", "sessions", "web_conversations", "web_messages", "notes", "audio_memos",
    "signals", "review_queue", "action_log", "audit_log", "entity_relations", "memories",
    "entity_edges", "sources", "external_documents", "relevance_profiles", "review_decisions",
    "known_distinct_entity_pairs", "connector_permissions", "routine_do_tracking",
    "deduplication_runs", "dedup_candidates", "routines", "feedback_log", "edge_scores",
    "constraint_violations", "captures", "capture_attachments", "capture_transcripts",
    "notification_preferences", "notification_user_settings", "privacy_user_settings"]

/-- The tables with a column `scope`. -/
def tablesWithScope : List String :=
  ["file_index", "entities", "sessions", "web_conversations", "notes", "audio_memos", "signals",
    "review_queue", "action_log", "audit_log"]

/-- The tables whose keys other tables refer to, with those keys. -/
def parentTables : List (String × String) :=
  [("entities", "entity_id"), ("sessions", "session_id"), ("notes", "note_id"),
    ("audio_memos", "audio_id"), ("signals", "signal_id"), ("sources", "id"),
    ("deduplication_runs", "run_id")]

def parentTableNames : List String := parentTables.map Prod.fst

def serialPkTables : List String :=
  ["file_index", "entity_relations", "review_queue", "connector_permissions",
    "routine_do_tracking", "action_log", "audit_log", "feedback_log", "edge_scores",
    "dedup_candidates"]

theorem userExportTables_nodup : userExportTables.Nodup := by decide

theorem users_not_exported : "users" ∉ userExportTables := by decide

/-! ## Rows -/

def ArchiveRow.get (row : ArchiveRow) (column : String) : Option Cell := row.lookup column

/-- `[a-z_][a-z0-9_]*$`; the `$` also matches before a final newline. -/
def isColumnName (s : String) : Bool :=
  let word := if s.toList.getLast? = some '\n' then s.toList.dropLast else s.toList
  match word with
  | [] => false
  | c :: cs =>
    (('a' ≤ c && c ≤ 'z') || c == '_') &&
      cs.all fun c => ('a' ≤ c && c ≤ 'z') || ('0' ≤ c && c ≤ '9') || c == '_'

def stripIdForSerialTable (table : String) (row : ArchiveRow) : ArchiveRow :=
  if table ∈ serialPkTables then row.filter fun column => column.1 != "id" else row

/-- `str` of a value that is not null. -/
def Cell.str : Cell → String
  | .null => "None"
  | .int n => toString n
  | .text s | .json s => s

/-- The key of a media file under the new user's prefix. -/
def rewriteStorageKey (fromUser newUserId oldKey : String) : String :=
  let stem := fromUser ++ "/"
  if stem.toList.isPrefixOf oldKey.toList then
    newUserId ++ "/" ++ String.ofList (oldKey.toList.drop stem.length)
  else if '/' ∉ oldKey.toList then newUserId ++ "/" ++ oldKey
  else oldKey

/-- What a column of an archived row becomes for the new user. -/
def rewriteValue (table fromUser newUserId column : String) (value : Cell) : Cell :=
  if column = "user_id" then .text newUserId
  else if table = "capture_attachments" ∧ column = "storage_key" ∧ value ≠ .null ∧
      rewriteStorageKey fromUser newUserId value.str ≠ value.str then
    .text (rewriteStorageKey fromUser newUserId value.str)
  else value

def rewriteRow (table fromUser newUserId : String) (row : ArchiveRow) : ArchiveRow :=
  row.map fun column => (column.1, rewriteValue table fromUser newUserId column.1 column.2)

/-- The row of the `INSERT`. -/
def importedRow (table fromUser newUserId : String) (row : ArchiveRow) : ArchiveRow :=
  stripIdForSerialTable table (rewriteRow table fromUser newUserId row)

/-- Rows without columns, or with a column of no valid name, are passed over. -/
def ArchiveRow.insertable (row : ArchiveRow) : Bool :=
  !row.isEmpty && row.all fun column => isColumnName column.1

end Lumogis
