import Lumogis.Conversations
import Lumogis.Lib.Fault
import Lumogis.Lib.Labelled

/-!
# SessionIsolation

Runs of `store_session` by any users, with any session ids and with faults at any of their calls.

The upsert into `sessions` goes by the session id alone, while the one of a web conversation has the
owner in its `WHERE`. `session_rows_isolated`: in every run whose calls find, under their session
id, no row of another user and no projection, every call leaves the rows of the other users and all
projections as they are; and a call that meets such a row and no fault rewrites it
(`session_row_overwritten`).
-/

namespace Lumogis

open Prog Labelled Conversations

structure StoreSessionCall where
  summary : SessionSummary
  userId : String
  entityIds : List String
  scope : Scope
  /-- What becomes of the call's calls. -/
  fates : List Fate

namespace StoreSessionCall

def row (call : StoreSessionCall) : SessionSummaryRow :=
  sessionRow call.summary call.userId call.entityIds call.scope

def key (call : StoreSessionCall) : ConversationKey := ⟨call.userId, call.summary.sessionId⟩

def step (env : ConversationEnv) (call : StoreSessionCall) (s : ConversationStore) :
    Option ConversationStore :=
  ((storeSession env call.summary call.userId call.entityIds call.scope).execFates call.fates s).map
    Prod.snd

end StoreSessionCall

/-- A row that a call by `u` must leave alone: of another user, or a projection. -/
def SessionSummaryRow.foreign (u : String) (r : SessionSummaryRow) : Bool :=
  r.userId != u || r.publishedFrom.isSome

def KeepsForeign (u : String) (s t : ConversationStore) : Prop :=
  ∀ r ∈ s.tables.sessions, r.foreign u = true → r ∈ t.tables.sessions

/-- The call is skipped, or there is no foreign row under its session id in which it would change
anything. -/
def StoreSessionCall.spares (call : StoreSessionCall) (s : ConversationStore) : Bool :=
  s.tables.purged call.key ||
    s.tables.sessions.all fun r =>
      !(r.sessionId == call.summary.sessionId && r.foreign call.userId) || call.row.updated r == r

section Calls

variable {env : ConversationEnv} {call : StoreSessionCall} {s t : ConversationStore}

theorem KeepsForeign.of_tables {u : String} (h : t.tables = s.tables) : KeepsForeign u s t := by
  intro r hr _
  rw [h]
  exact hr

theorem ensureConn_tables (h : s.saved = none) : s.ensureConn.tables = s.tables := by
  unfold ConversationStore.ensureConn
  split
  · simp [ConversationStore.restored, h]
  · rfl

theorem ensureConn_saved (h : s.saved = none) : s.ensureConn.saved = none := by
  unfold ConversationStore.ensureConn
  split
  · rfl
  · exact h

theorem upsertSession_keeps_iff (hs : s.tables.purged call.key = false)
    (ht : t.tables = s.tables.upsertSession call.row) :
    KeepsForeign call.userId s t ↔ call.spares s = true := by
  have hid : call.row.sessionId = call.summary.sessionId := rfl
  simp only [StoreSessionCall.spares, hs, Bool.false_or, List.all_eq_true, Bool.or_eq_true,
    Bool.not_eq_true', Bool.and_eq_false_iff, beq_iff_eq]
  simp only [KeepsForeign, ht, ConversationTables.upsertSession, hid]
  constructor
  · intro h r hr
    by_cases hsid : r.sessionId = call.summary.sessionId
    · cases hf : r.foreign call.userId with
      | false => exact .inl (.inr rfl)
      | true =>
        have hany : s.tables.sessions.any (·.sessionId == call.summary.sessionId) = true :=
          List.any_eq_true.mpr ⟨r, hr, by simp [hsid]⟩
        have hkept := h r hr hf
        rw [if_pos hany, Table.mem_updateWhere] at hkept
        rcases hkept with ⟨x, -, -, rfl⟩ | ⟨-, hne⟩
        · exact .inr rfl
        · simp [hsid] at hne
    · exact .inl (.inl (by simpa using hsid))
  · intro h r hr hf
    split
    · rw [Table.mem_updateWhere]
      rcases h r hr with (hne | hno) | hsame
      · exact .inr ⟨hr, hne⟩
      · rw [hf] at hno
        cases hno
      · by_cases hsid : r.sessionId = call.summary.sessionId
        · exact .inl ⟨r, hr, by simp [hsid], hsame⟩
        · exact .inr ⟨hr, by simpa using hsid⟩
    · exact List.mem_append_left _ hr

/-- What a call can leave: the tables as before, or as the upsert leaves them. -/
structure StoreSessionCall.Leaves (call : StoreSessionCall) (s t : ConversationStore) : Prop where
  saved : t.saved = none
  tables : t.tables = s.tables ∨
    s.tables.purged call.key = false ∧ t.tables = s.tables.upsertSession call.row

theorem upsertSessionSafe_post {u : ConversationStore} (hu : u.saved = none)
    (hsame : u.tables = s.tables) (hp : s.tables.purged call.key = false) :
    Post (fun _ t => call.Leaves s t) (upsertSessionSafe call.row) u := by
  have hafter := (ensureConn_tables hu).trans hsame
  have hdone : call.Leaves s
      (u.ensureConn.setTables (u.ensureConn.tables.upsertSession call.row)) :=
    ⟨ensureConn_saved hu, .inr ⟨hp, by simp [ConversationStore.setTables, hafter]⟩⟩
  exact post_tryCatch.mpr (post_act.mpr ⟨hdone, ⟨hu, .inl hsame⟩, hdone⟩)

theorem storeSession_post (hs : s.saved = none) :
    Post (fun _ t => call.Leaves s t)
      (storeSession env call.summary call.userId call.entityIds call.scope) s := by
  have hsame := ensureConn_tables hs
  have hconn : call.Leaves s s.ensureConn := ⟨ensureConn_saved hs, .inl hsame⟩
  have hkey : s.ensureConn.tables.purged ⟨call.userId, call.summary.sessionId⟩ =
      s.tables.purged call.key := by
    rw [hsame]
    rfl
  unfold storeSession
  refine post_bind.mpr (post_act.mpr ⟨?_, ⟨hs, .inl rfl⟩, hconn⟩)
  simp only [seqPost, hkey]
  split
  · exact hconn
  · rename_i hp
    have hp : s.tables.purged call.key = false := by simpa using hp
    split
    · exact upsertSessionSafe_post (ensureConn_saved hs) hsame hp
    · refine post_bind.mpr (post_query.mpr ⟨?_, hconn⟩)
      refine post_bind.mpr (post_act.mpr ⟨?_, hconn, ⟨ensureConn_saved hs, .inl hsame⟩⟩)
      exact upsertSessionSafe_post (ensureConn_saved hs) hsame hp

theorem storeSession_wp (hs : s.saved = none) :
    wp (fun _ t => t.tables = if s.tables.purged call.key then s.tables
        else s.tables.upsertSession call.row)
      (storeSession env call.summary call.userId call.entityIds call.scope) s := by
  have hsame := ensureConn_tables hs
  have hupsert {u : ConversationStore} (hu : u.saved = none) (hut : u.tables = s.tables) :
      wp (fun _ t => t.tables = s.tables.upsertSession call.row) (upsertSessionSafe call.row) u := by
    refine wp_tryCatch.mpr (wp_act.mpr ?_)
    simp [ConversationStore.setTables, ensureConn_tables hu, hut]
  have hkey : s.ensureConn.tables.purged ⟨call.userId, call.summary.sessionId⟩ =
      s.tables.purged call.key := by
    rw [hsame]
    rfl
  unfold storeSession
  refine wp_bind.mpr (wp_act.mpr ?_)
  simp only [seqPost, hkey]
  cases s.tables.purged call.key with
  | true => exact hsame
  | false =>
    simp only [Bool.false_eq_true, if_false]
    split
    · exact hupsert (ensureConn_saved hs) hsame
    · exact wp_bind.mpr (wp_query.mpr (wp_bind.mpr (wp_act.mpr
        (hupsert (ensureConn_saved hs) hsame))))

theorem spares_of_purged (h : s.tables.purged call.key = true) : call.spares s = true := by
  simp [StoreSessionCall.spares, h]

theorem storeSession_step_leaves (hs : s.saved = none) (h : call.step env s = some t) :
    call.Leaves s t := by
  obtain ⟨⟨r, u⟩, hrun, rfl⟩ := Option.map_eq_some_iff.mp h
  exact Post.faulty (storeSession_post hs) (faulty_iff.mpr ⟨_, hrun⟩)

theorem storeSession_step_keeps (hs : s.saved = none) (hspares : call.spares s = true)
    (h : call.step env s = some t) : KeepsForeign call.userId s t := by
  rcases (storeSession_step_leaves hs h).tables with ht | ⟨hp, ht⟩
  · exact .of_tables ht
  · exact (upsertSession_keeps_iff hp ht).mpr hspares

theorem storeSession_step_keeps_iff (hs : s.saved = none) (hfates : call.fates = [])
    (h : call.step env s = some t) : KeepsForeign call.userId s t ↔ call.spares s = true := by
  obtain ⟨⟨r, u⟩, hrun, rfl⟩ := Option.map_eq_some_iff.mp h
  rw [hfates, execFates_nil] at hrun
  have ht := (storeSession_wp hs).exec hrun
  cases hp : s.tables.purged call.key with
  | true =>
    rw [hp, if_pos rfl] at ht
    exact iff_of_true (.of_tables ht) (spares_of_purged hp)
  | false =>
    rw [hp, if_neg Bool.false_ne_true] at ht
    exact upsertSession_keeps_iff hp ht

/-- In every state of every run: a call that spares the foreign rows keeps them, and a call without
faults keeps them only then. -/
theorem session_rows_isolated {s₀ : ConversationStore} (h₀ : s₀.saved = none)
    (hruns : Reaches (StoreSessionCall.step env) (fun _ _ => True) s₀ s)
    (h : call.step env s = some t) :
    (call.spares s = true → KeepsForeign call.userId s t) ∧
      (call.fates = [] → (KeepsForeign call.userId s t ↔ call.spares s = true)) := by
  have hs := hruns.invariant h₀ fun _ _ _ hi _ hstep => (storeSession_step_leaves hi hstep).saved
  exact ⟨fun hspares => storeSession_step_keeps hs hspares h,
    fun hfates => storeSession_step_keeps_iff hs hfates h⟩

end Calls

namespace IsolationExample

def env : ConversationEnv :=
  { Env.plain .disabled with
    rcSessionEndStub := false
    summarize := fun _ => ("", [], [])
    sessionEntityIds := fun _ => []
    strConversationError := fun _ => "error" }

def empty : ConversationStore :=
  { tables := { sessions := [], webConversations := [], webMessages := [], purgedConversations := []
                actionProposals := [], userBatchJobs := [], now := 0 }
    saved := none, aborted := false, points := [] }

def store (userId sessionId summary : String) : StoreSessionCall :=
  { summary := ⟨sessionId, summary, [], []⟩, userId := userId, entityIds := [], scope := .personal
    fates := [] }

def reached (calls : List StoreSessionCall) : ConversationStore :=
  (run (StoreSessionCall.step env) calls empty).getD empty

theorem admitted (calls : List StoreSessionCall) (s : ConversationStore) :
    Admitted (StoreSessionCall.step env) (fun _ _ => True) calls s := by
  induction calls generalizing s with
  | nil => trivial
  | cons call calls ih => exact ⟨trivial, fun t _ => ih t⟩

theorem alice_stored : Reaches (StoreSessionCall.step env) (fun _ _ => True) empty
    (reached [store "alice" "s" "a"]) :=
  run_reaches (show run _ [store "alice" "s" "a"] _ = some _ from rfl) (admitted _ _)

end IsolationExample

section Runs

open IsolationExample

theorem session_rows_isolated_apart : KeepsForeign "bob" (reached [store "alice" "s" "a"])
    (reached [store "alice" "s" "a", store "bob" "t" "b"]) :=
  (session_rows_isolated rfl alice_stored
    (show (store "bob" "t" "b").step env _ = some _ from rfl)).1 (by decide)

/-- Bob ends a session with the id of Alice's, and her row has his summary. -/
theorem session_row_overwritten :
    ∃ s t, Reaches (StoreSessionCall.step env) (fun _ _ => True) empty s ∧
      (store "bob" "s" "b").step env s = some t ∧ ¬ KeepsForeign "bob" s t := by
  refine ⟨_, _, alice_stored, rfl, fun h => ?_⟩
  exact absurd (h (store "alice" "s" "a").row (by decide) (by decide)) (by decide)

end Runs

end Lumogis
