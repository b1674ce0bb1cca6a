import Lumogis.ConversationRuns
import Lumogis.Lib.Fault

/-!
# Lumogis.PurgeSweeper

The deletion of a conversation and the sweeper that finishes partial purges. The test for a target looks at
the sessions, the web conversations and the tombstones; the purge at the sessions and the tombstones; the
sweeper at the tombstones that are not resolved.

A tombstone records how its arms ended. A purge of a conversation whose tombstone is already resolved records
anew without opening it again.
-/

namespace Lumogis

open Prog

namespace Conversations

/-- A live session, a web conversation or a tombstone. -/
def conversationPurgeTargetExists (k : ConversationKey) : ConversationM Bool := do
  let row ← dbQuery fun t => t.sessions.any fun r => k.isSession r && r.scope == .personal
  if row then
    return true
  else do
    let wc ← dbQuery fun t => t.webConversations.any k.isHeader
    if wc then return true else isConversationPurged k

def deleteConversation (env : ConversationEnv) (k : ConversationKey) : ConversationM SessionPurgeResult := do
  if ← conversationPurgeTargetExists k then
    purgeSessionMemory env k
  else
    .raise (.conversationNotFound k.sessionId)

/-! ## The sweeper -/

/-- `_SWEEPER_MAX_ATTEMPTS`. -/
def sweeperMaxAttempts : Nat := 20

/-- `_SWEEPER_MIN_AGE_MINUTES`, in seconds. -/
def sweeperMinAge : Nat := 5 * 60

def sweeperLimit : Nat := 100

/-- The tombstones that a pass looks for. -/
def isDue (now : Nat) (r : PurgedConversationRow) : Bool :=
  !r.resolved && decide (r.sweepAttempts < sweeperMaxAttempts) && decide (r.purgedAt + sweeperMinAge < now)

/-- The oldest of them. -/
def partialPurges (t : ConversationTables) : List PurgedConversationRow :=
  ((t.purgedConversations.filter (isDue t.now)).mergeSort fun a b => decide (a.purgedAt ≤ b.purgedAt)).take sweeperLimit

/-- The update at the end of `_sweep_one`. -/
def recordSweep (k : ConversationKey) (result : SessionPurgeResult) (t : ConversationTables) : ConversationTables :=
  { t with
    purgedConversations := Table.updateWhere k.isTombstone
      (fun r => { r with
        qdrantDeleted := result.qdrantDeleted
        graphDeleted := result.graphDeleted
        errors := result.errors
        sweepAttempts := r.sweepAttempts + 1
        resolved := r.resolved || !result.incomplete }) t.purgedConversations }

/-- Retries the arms that the tombstone says have failed. -/
def sweepStores (env : ConversationEnv) (row : PurgedConversationRow) : ConversationM SessionPurgeResult := do
  let k : ConversationKey := ⟨row.userId, row.conversationId⟩
  let qdrant ← if row.qdrantDeleted then pure (true, []) else
    retryArm env "qdrant[sweep]" (forEach deletePoint (purgePointIds env k)) sessionRetryAttempts
  let graph ← if row.graphDeleted || !env.hasGraphStore then pure (true, []) else
    retryArm env "graph[sweep]" (query .graphStore fun _ => ()) sessionRetryAttempts
  return { SessionPurgeResult.start with
    postgresDeleted := true
    qdrantDeleted := qdrant.1
    graphDeleted := graph.1
    errors := qdrant.2 ++ graph.2 }

end Conversations

open Conversations

section Purges

variable {env : ConversationEnv} {k : ConversationKey} {s t : ConversationStore}

/-! ## A purge without faults -/

/-- No transaction is open. -/
def ConversationStore.Idle (s : ConversationStore) : Prop := s.saved = none ∧ s.aborted = false

theorem ensureConn_idle (h : s.Idle) : s.ensureConn = s := by
  rw [ConversationStore.ensureConn, h.2]
  rfl

/-- What a purge without faults leaves. -/
def ConversationStore.purged (env : ConversationEnv) (k : ConversationKey) (stmts : List SessionPurgeStmt)
    (s : ConversationStore) : ConversationStore :=
  { s with
    tables := updateTombstone k .complete ((stmts.foldl (fun t stmt => stmt.run k t) s.tables).cancelJobs k)
    points := (purgePointIds env k).foldl (fun pts id => Table.deleteWhere (·.id == id) pts) s.points }

theorem wp_stmts (stmts : List SessionPurgeStmt) (h : s.aborted = false) :
    wp (fun r t => r = .ok () ∧ t = s.setTables (stmts.foldl (fun t stmt => stmt.run k t) s.tables))
      (forEach (fun stmt : SessionPurgeStmt => dbExecute (stmt.run k)) stmts) s := by
  induction stmts generalizing s with
  | nil => exact ⟨rfl, rfl⟩
  | cons stmt stmts ih =>
    have hconn : s.ensureConn = s := by rw [ConversationStore.ensureConn, h]; rfl
    refine wp_bind.mpr (wp_act.mpr ?_)
    rw [hconn]
    exact ih (s := s.setTables (stmt.run k s.tables)) h

theorem wp_purgeTransaction (stmts : List SessionPurgeStmt) (h : s.Idle) :
    wp (fun r t => r = .ok () ∧ t = s.setTables (stmts.foldl (fun t stmt => stmt.run k t) s.tables))
      (purgeTransaction k stmts) s := by
  have hsaved : ¬ s.saved.isSome = true := by simp [h.1]
  rw [purgeTransaction, Conversations.transaction, wp_bind, Conversations.beginTransaction, wp_actE, ensureConn_idle h]
  simp only [if_neg hsaved]
  refine wp_bind.mpr (wp_attempt.mpr (wp_bind.mpr ((wp_stmts (s := { s with saved := some s.tables }) stmts h.2).mono fun r t hr => ?_)))
  obtain ⟨rfl, rfl⟩ := hr
  refine ⟨rfl, rfl, ?_⟩
  have haborted : s.aborted = false := h.2
  have hnone : s.saved = none := h.1
  simp [ConversationStore.setTables, haborted, hnone]

theorem wp_dropPoints (ids : List String) :
    wp (fun r t => r = .ok () ∧ t = { s with points := ids.foldl (fun pts id => Table.deleteWhere (·.id == id) pts) s.points })
      (forEach deletePoint ids) s := by
  induction ids generalizing s with
  | nil => exact ⟨rfl, rfl⟩
  | cons id ids ih => exact wp_bind.mpr (wp_act.mpr (ih (s := s.dropPoint id)))

theorem wp_purgeArms (h : s.Idle) : wp (fun r t => r = .ok .complete ∧ t = s.purged env k []) (purgeArms env k) s := by
  rw [purgeArms, wp_bind, cancelPendingSessionEndJobs, dbExecute, wp_act, ensureConn_idle h]
  refine wp_bind.mpr ((wp_retryArm (wp_dropPoints _)).mono fun r t hr => ?_)
  obtain ⟨rfl, rfl⟩ := hr
  simp only [seqPost]
  have hend : ∀ u : ConversationStore, u.Idle → wp (fun r t => r = .ok .complete ∧
      t = u.setTables (updateTombstone k .complete u.tables)) (do
        let _ ← (dbExecute (updateTombstone k .complete)).attempt
        return SessionPurgeResult.complete : ConversationM SessionPurgeResult) u := by
    intro u hu
    refine wp_bind.mpr (wp_attempt.mpr (wp_act.mpr ⟨rfl, ?_⟩))
    rw [ensureConn_idle hu]
  by_cases hgraph : env.hasGraphStore = true
  · rw [if_pos hgraph]
    refine wp_bind.mpr ((wp_retryArm (P := fun t' => t' = _) (wp_query.mpr ⟨rfl, rfl⟩)).mono fun r t' hr => ?_)
    obtain ⟨rfl, rfl⟩ := hr
    exact hend _ h
  · rw [if_neg hgraph]
    exact hend _ h

theorem setTables_purged (stmts : List SessionPurgeStmt) :
    (s.setTables (stmts.foldl (fun t stmt => stmt.run k t) s.tables)).purged env k [] = s.purged env k stmts := rfl

/-- The statements that the purge of a conversation runs, when it goes on. -/
def purgeStmts (k : ConversationKey) (t : ConversationTables) : List SessionPurgeStmt :=
  if t.sessions.any fun r => k.isSession r && r.scope == .personal then postgresArm else webCleanup

/-- The purge goes on when there is a personal session or a tombstone. -/
def Purgeable (k : ConversationKey) (t : ConversationTables) : Prop :=
  (∃ r ∈ t.sessions, k.isSession r = true ∧ r.scope = .personal) ∨ t.purged k = true

theorem wp_purgeSessionMemory (h : s.Idle) : wp (fun _ t =>
    (Purgeable k s.tables → t = s.purged env k (purgeStmts k s.tables)) ∧ (¬ Purgeable k s.tables → t = s))
      (purgeSessionMemory env k) s := by
  have hsession : (∃ r ∈ s.tables.sessions, k.isSession r = true ∧ r.scope = .personal) ↔
      (s.tables.sessions.any fun r => k.isSession r && r.scope == .personal) = true := by simp
  rw [purgeSessionMemory, wp_bind, dbQuery, wp_act, ensureConn_idle h]
  simp only [seqPost]
  rw [wp_bind, isConversationPurged, dbQuery, wp_act, ensureConn_idle h]
  simp only [seqPost, Purgeable, purgeStmts, hsession]
  -- what the transaction and the arms leave
  have hgo : ∀ stmts (f : Except ConversationErr Unit → ConversationM SessionPurgeResult), f (.ok ()) = purgeArms env k →
      wp (fun _ t => t = s.purged env k stmts) ((purgeTransaction k stmts).attempt >>= f) s := by
    intro stmts f hf
    refine wp_bind.mpr (wp_attempt.mpr ((wp_purgeTransaction stmts h).mono fun r t hr => ?_))
    obtain ⟨rfl, rfl⟩ := hr
    show wp _ (f (.ok ())) _
    rw [hf]
    have hidle : (s.setTables (stmts.foldl (fun t stmt => stmt.run k t) s.tables)).Idle := h
    refine (wp_purgeArms hidle).mono fun r t hr => ?_
    rw [hr.2, setTables_purged]
  cases hs : s.tables.sessions.any fun r => k.isSession r && r.scope == .personal with
  | true =>
    simp only [Bool.not_true, Bool.false_and, Bool.false_eq_true, if_false, if_true, true_or, not_true_eq_false,
      false_implies, and_true, forall_const]
    exact hgo _ _ rfl
  | false =>
    cases hp : s.tables.purged k with
    | true =>
      simp only [Bool.not_false, Bool.not_true, Bool.and_false, Bool.false_eq_true, if_false, or_true,
        not_true_eq_false, false_implies, and_true, forall_const]
      exact hgo _ _ rfl
    | false => simp

theorem mem_purged_points {stmts : List SessionPurgeStmt} {pt : ConversationPoint} :
    pt ∈ (s.purged env k stmts).points ↔ pt ∈ s.points ∧ pt.id ∉ purgePointIds env k := by
  show pt ∈ (purgePointIds env k).foldl (fun pts id => Table.deleteWhere (·.id == id) pts) s.points ↔ _
  generalize s.points = pts
  induction purgePointIds env k generalizing pts with
  | nil => simp
  | cons id ids ih =>
    rw [List.foldl_cons, ih, Table.mem_deleteWhere, List.mem_cons, not_or, beq_eq_false_iff_ne, and_assoc]

theorem purged_rows (stmts : List SessionPurgeStmt) :
    (s.purged env k stmts).tables.sessions = (stmts.foldl (fun t stmt => stmt.run k t) s.tables).sessions ∧
      (s.purged env k stmts).tables.webConversations = (stmts.foldl (fun t stmt => stmt.run k t) s.tables).webConversations ∧
      (s.purged env k stmts).tables.webMessages = (stmts.foldl (fun t stmt => stmt.run k t) s.tables).webMessages ∧
      (s.purged env k stmts).tables.purged k = (stmts.foldl (fun t stmt => stmt.run k t) s.tables).purged k :=
  ⟨rfl, rfl, rfl, purged_updateTombstone .complete⟩

theorem purgeStmts_headers {r : WebConversationRow}
    (h : r ∈ ((purgeStmts k s.tables).foldl (fun t stmt => stmt.run k t) s.tables).webConversations) :
    k.isHeader r = false := by
  unfold purgeStmts at h
  split at h
  · exact (Table.mem_deleteWhere.mp h).2
  · exact (Table.mem_deleteWhere.mp h).2

theorem purgeStmts_messages {m : WebMessageRow}
    (h : m ∈ ((purgeStmts k s.tables).foldl (fun t stmt => stmt.run k t) s.tables).webMessages) :
    k.isMessage m = false := by
  unfold purgeStmts at h
  split at h
  · exact (Table.mem_deleteWhere.mp (Table.mem_of_mem_deleteWhere h)).2
  · exact (Table.mem_deleteWhere.mp (Table.mem_of_mem_deleteWhere h)).2

theorem purgeStmts_purged (h : Purgeable k s.tables) :
    ((purgeStmts k s.tables).foldl (fun t stmt => stmt.run k t) s.tables).purged k = true := by
  unfold purgeStmts
  split
  · exact purged_insertTombstone
  · rename_i hnone
    obtain ⟨r, hr, hsession, hscope⟩ | hp := h
    · exact absurd (List.any_eq_true.mpr ⟨r, hr, by simp [hsession, hscope]⟩) hnone
    · exact hp

theorem mem_stmts_sessions {stmts : List SessionPurgeStmt} {tables : ConversationTables} {r : SessionSummaryRow}
    (h : r ∈ (stmts.foldl (fun t stmt => stmt.run k t) tables).sessions) : r ∈ tables.sessions := by
  induction stmts generalizing tables with
  | nil => exact h
  | cons stmt stmts ih => exact mem_run_sessions (ih h)

theorem purgeStmts_sessions (hkeys : (s.tables.sessions.map SessionSummaryRow.sessionId).Nodup) :
    (∀ r ∈ ((purgeStmts k s.tables).foldl (fun t stmt => stmt.run k t) s.tables).sessions, k.isSession r = false) ↔
      PersonalSessions k s.tables := by
  unfold purgeStmts
  split
  · rename_i hany
    obtain ⟨p, hp, hmatch⟩ := List.any_eq_true.mp hany
    obtain ⟨hsession, hscope⟩ : k.isSession p = true ∧ p.scope = .personal := by simpa using hmatch
    have hpersonal : PersonalSessions k s.tables := by
      intro r hr hrow
      have hid : r.sessionId = p.sessionId := by
        simp only [ConversationKey.isSession, Bool.and_eq_true, beq_iff_eq] at hrow hsession
        rw [hrow.1, hsession.1]
      rw [List.inj_on_of_nodup_map hkeys hr hp hid]
      exact hscope
    refine iff_of_true (fun r hr => ?_) hpersonal
    obtain ⟨hr, hkeep⟩ := Table.mem_deleteWhere.mp hr
    cases hrow : k.isSession r with
    | false => rfl
    | true =>
      have hstored := @mem_stmts_sessions k [.tombstone, .messages, .header, .projections] s.tables r hr
      have hscope := hpersonal r hstored hrow
      simp [hrow, hscope] at hkeep
  · rename_i hnone
    have hno : ∀ r ∈ s.tables.sessions, k.isSession r = true → r.scope ≠ .personal := by
      simpa using hnone
    constructor
    · intro h r hr hrow
      exact absurd hrow (by simp [h r hr])
    · intro h r hr
      cases hrow : k.isSession r with
      | false => rfl
      | true => exact absurd (h r hr hrow) (hno r hr hrow)

/-- A session, a web conversation or a tombstone: what the target test looks for. -/
def TargetExists (k : ConversationKey) (t : ConversationTables) : Prop :=
  (∃ r ∈ t.sessions, k.isSession r = true ∧ r.scope = .personal) ∨
    (∃ r ∈ t.webConversations, k.isHeader r = true) ∨ t.purged k = true

/-- The purge finds what the target test found, there is no projection under the session's id, and the
session's points are where the writers put them. -/
def PurgeReaches (env : ConversationEnv) (k : ConversationKey) (s : ConversationStore) : Prop :=
  Purgeable k s.tables ∧ PersonalSessions k s.tables ∧ ∀ pt ∈ s.points, k.isPoint pt = true → pt.id ∈ purgePointIds env k

theorem purge_gone_iff (h : s.Idle) (hkeys : (s.tables.sessions.map SessionSummaryRow.sessionId).Nodup)
    (htarget : TargetExists k s.tables) {r : Except ConversationErr SessionPurgeResult}
    (hrun : (purgeSessionMemory env k).exec s = some (r, t)) :
    (ConversationGone env k t ∧ t.tables.purged k = true) ↔ PurgeReaches env k s := by
  obtain ⟨hgo, hstop⟩ := (@wp_purgeSessionMemory env k s h).exec hrun
  by_cases hp : Purgeable k s.tables
  · obtain rfl := hgo hp
    obtain ⟨hsessions, hheaders, hmessages, htombstone⟩ := @purged_rows env k s (purgeStmts k s.tables)
    have hpersonal := purgeStmts_sessions (k := k) hkeys
    constructor
    · rintro ⟨hgone, -⟩
      refine ⟨hp, hpersonal.mp fun r hr => hgone.sessions r (hsessions ▸ hr), fun pt hpt hmine => ?_⟩
      by_contra hid
      have hgone := (hgone.points pt (mem_purged_points.mpr ⟨hpt, hid⟩)).1
      rw [hmine] at hgone
      cases hgone
    · intro hreach
      refine ⟨⟨fun r hr => hpersonal.mpr hreach.2.1 r (hsessions ▸ hr), fun r hr => purgeStmts_headers (hheaders ▸ hr),
        fun m hm => purgeStmts_messages (hmessages ▸ hm), fun pt hpt => ?_⟩, htombstone.trans (purgeStmts_purged hp)⟩
      obtain ⟨hpt, hid⟩ := mem_purged_points.mp hpt
      refine ⟨?_, hid⟩
      cases hmine : k.isPoint pt with
      | false => rfl
      | true => exact absurd (hreach.2.2 pt hpt hmine) hid
  · obtain rfl := hstop hp
    refine iff_of_false (fun hgone => ?_) fun hreach => hp hreach.1
    obtain ⟨r, hr, hmatch⟩ | ⟨r, hr, hheader⟩ | htomb := htarget
    · exact hp (.inl ⟨r, hr, hmatch⟩)
    · exact absurd hheader (by simp [hgone.1.headers r hr])
    · exact hp (.inr htomb)

/-! ## Runs of purges and sweeps -/

namespace Conversations

/-- `purge_session_memory` up to its store arms; `none` when they are to run. -/
def purgeSessionRows (env : ConversationEnv) (k : ConversationKey) : ConversationM (Option SessionPurgeResult) := do
  let sessionFound ← dbQuery fun t => t.sessions.any fun r => k.isSession r && r.scope == .personal
  let tombstone ← isConversationPurged k
  if !sessionFound && !tombstone then
    return some SessionPurgeResult.start
  else
    match ← (purgeTransaction k (if sessionFound then postgresArm else webCleanup)).attempt with
    | .error e =>
      return some { SessionPurgeResult.start with
        errors := ["postgres: " ++ env.strConversationError e] }
    | .ok _ => do
      cancelPendingSessionEndJobs k
      return none

def purgeSessionStores (env : ConversationEnv) (k : ConversationKey) : ConversationM SessionPurgeResult := do
  let qdrant ← retryArm env "qdrant" (forEach deletePoint (purgePointIds env k)) sessionRetryAttempts
  let graph ← if env.hasGraphStore then
      retryArm env "graph" (query .graphStore fun _ => ()) sessionRetryAttempts
    else pure (true, [])
  return { SessionPurgeResult.start with
    postgresDeleted := true
    qdrantDeleted := qdrant.1
    graphDeleted := graph.1
    errors := qdrant.2 ++ graph.2 }

theorem purgeSessionMemory_eq : purgeSessionMemory env k = (do
    match ← purgeSessionRows env k with
    | some result => return result
    | none => do
      let result ← purgeSessionStores env k
      let _ ← (dbExecute (updateTombstone k result)).attempt
      return result) := by
  rw [purgeSessionMemory, purgeSessionRows]
  simp only [bind_assoc]
  congr 1
  funext sessionFound
  congr 1
  funext tombstone
  split
  · rfl
  · simp only [bind_assoc]
    congr 1
    funext r
    cases r with
    | ok _ =>
      have hstores : ∀ f : SessionPurgeResult → ConversationM SessionPurgeResult,
          (purgeSessionStores env k >>= f) = (do
            let qdrant ← retryArm env "qdrant" (forEach deletePoint (purgePointIds env k)) sessionRetryAttempts
            let graph ← if env.hasGraphStore then
                retryArm env "graph" (query .graphStore fun _ => ()) sessionRetryAttempts
              else pure (true, [])
            f { SessionPurgeResult.start with
              postgresDeleted := true
              qdrantDeleted := qdrant.1
              graphDeleted := graph.1
              errors := qdrant.2 ++ graph.2 }) := by
        intro f
        rw [purgeSessionStores, bind_assoc]
        congr 1
        funext qdrant
        split
        · exact bind_assoc _ _ _
        · rfl
      show purgeArms env k = (cancelPendingSessionEndJobs k >>= fun _ => purgeSessionStores env k >>= _)
      rw [hstores]
      rfl
    | error e => rfl

/-! ### The parts of the calls -/

inductive StoreArm where
  | qdrant | graph

def SessionPurgeResult.deleted (result : SessionPurgeResult) : StoreArm → Bool
  | .qdrant => result.qdrantDeleted
  | .graph => result.graphDeleted

end Conversations

namespace PurgedConversationRow

def key (r : PurgedConversationRow) : ConversationKey := ⟨r.userId, r.conversationId⟩

def deleted (r : PurgedConversationRow) : StoreArm → Bool
  | .qdrant => r.qdrantDeleted
  | .graph => r.graphDeleted

end PurgedConversationRow

/-- What a purge or a pass of the sweeper has still to do. -/
inductive PurgeCall where
  /-- The rows are gone; the arms are to run. -/
  | clearing (k : ConversationKey)
  | recording (k : ConversationKey) (result : SessionPurgeResult)
  /-- A pass has read the tombstone. -/
  | due (row : PurgedConversationRow)
  | swept (k : ConversationKey) (result : SessionPurgeResult)

/-- `succeeded`: the arms that have been run to their end; `sweeps`: one entry for each tombstone that a pass
has been through. -/
structure PurgeConfig where
  store : ConversationStore
  calls : List PurgeCall
  succeeded : List (ConversationKey × StoreArm)
  sweeps : List ConversationKey

/-- The fates are those of the database calls and the store calls of the part, in order. -/
inductive PurgeLabel where
  | purge (k : ConversationKey) (fates : List Fate)
  | pass (fates : List Fate)
  /-- The next part of a call. -/
  | next (i : Nat) (fates : List Fate)
  /-- Everything else in the process; the tombstones are not touched. -/
  | elsewhere (s : ConversationStore)
  /-- The process is restarted. -/
  | restart

/-- The arms among those that had to run which have succeeded. -/
def newlySucceeded (k : ConversationKey) (done : StoreArm → Bool) (result : SessionPurgeResult) :
    List (ConversationKey × StoreArm) :=
  ([.qdrant, .graph].filter fun arm => result.deleted arm && !done arm).map (k, ·)

def KeepsTombstones (s t : ConversationStore) : Prop :=
  t.tables.purgedConversations = s.tables.purgedConversations ∧ t.saved = s.saved ∧ t.aborted = s.aborted

instance : Decidable (KeepsTombstones s t) := inferInstanceAs (Decidable (_ ∧ _ ∧ _))

def purgeStep (env : ConversationEnv) : PurgeLabel → PurgeConfig → Option PurgeConfig
  | .purge k fates, c =>
    ((purgeSessionRows env k).execFates fates c.store).map fun x => { c with
      store := x.2
      calls := if x.1 = .ok none then .clearing k :: c.calls else c.calls }
  | .pass fates, c =>
    ((dbQuery partialPurges).execFates fates c.store).map fun x => { c with
      store := x.2
      calls := match x.1 with
        | .ok rows => rows.map .due ++ c.calls
        | .error _ => c.calls }
  | .next i fates, c =>
    match c.calls[i]? with
    | none => none
    | some (.clearing k) =>
      ((purgeSessionStores env k).execFates fates c.store).map fun x =>
        match x.1 with
        | .ok result => { c with
            store := x.2
            calls := c.calls.set i (.recording k result)
            succeeded := newlySucceeded k (fun _ => false) result ++ c.succeeded }
        | .error _ => { c with store := x.2, calls := c.calls.eraseIdx i }
    | some (.recording k result) =>
      ((dbExecute (updateTombstone k result)).execFates fates c.store).map fun x =>
        { c with store := x.2, calls := c.calls.eraseIdx i }
    | some (.due row) =>
      ((sweepStores env row).execFates fates c.store).map fun x =>
        match x.1 with
        | .ok result => { c with
            store := x.2
            calls := c.calls.set i (.swept row.key result)
            succeeded := newlySucceeded row.key row.deleted result ++ c.succeeded }
        | .error _ => { c with store := x.2, calls := c.calls.eraseIdx i }
    | some (.swept k result) =>
      ((dbExecute (recordSweep k result)).execFates fates c.store).map fun x =>
        { c with store := x.2, calls := c.calls.eraseIdx i, sweeps := k :: c.sweeps }
  | .elsewhere s, c => if KeepsTombstones c.store s then some { c with store := s } else none
  | .restart, c => some { c with store := c.store.restored, calls := [] }

/-! ### What the tombstones record -/

variable {succeeded succeeded' : List (ConversationKey × StoreArm)} {sweeps sweeps' : List ConversationKey}

/-- The tombstone claims no more than what has been done. -/
structure PurgedConversationRow.Recorded (succeeded : List (ConversationKey × StoreArm)) (sweeps : List ConversationKey)
    (r : PurgedConversationRow) : Prop where
  arms : ∀ arm, r.deleted arm = true → (r.key, arm) ∈ succeeded
  resolved : r.resolved = true → ∀ arm, (r.key, arm) ∈ succeeded
  attempts : r.sweepAttempts ≤ sweeps.count r.key

/-- The tables, and those that a rollback brings back. -/
def ConversationStore.snapshots (s : ConversationStore) : List ConversationTables := s.tables :: s.saved.toList

structure ConversationStore.Recorded (succeeded : List (ConversationKey × StoreArm)) (sweeps : List ConversationKey)
    (s : ConversationStore) : Prop where
  aborted : s.aborted = false
  rows : ∀ t ∈ s.snapshots, ∀ r ∈ t.purgedConversations, r.Recorded succeeded sweeps

/-- Only the store arms can be missing. -/
def Conversations.SessionPurgeResult.PastRows (result : SessionPurgeResult) : Prop :=
  result.postgresDeleted = true ∧ result.qdrantEntitiesDeleted = true

def Conversations.SessionPurgeResult.Recorded (succeeded : List (ConversationKey × StoreArm)) (k : ConversationKey)
    (result : SessionPurgeResult) : Prop :=
  result.PastRows ∧ ∀ arm, result.deleted arm = true → (k, arm) ∈ succeeded

def PurgeCall.Recorded (succeeded : List (ConversationKey × StoreArm)) : PurgeCall → Prop
  | .clearing _ => True
  | .due row => ∀ arm, row.deleted arm = true → (row.key, arm) ∈ succeeded
  | .recording k result | .swept k result => result.Recorded succeeded k

structure PurgeConfig.Recorded (c : PurgeConfig) : Prop where
  store : c.store.Recorded c.succeeded c.sweeps
  calls : ∀ call ∈ c.calls, call.Recorded c.succeeded

theorem PurgedConversationRow.Recorded.mono {r : PurgedConversationRow} (h : r.Recorded succeeded sweeps)
    (harms : succeeded ⊆ succeeded') (hsweeps : ∀ k, sweeps.count k ≤ sweeps'.count k) :
    r.Recorded succeeded' sweeps' where
  arms arm harm := harms (h.arms arm harm)
  resolved hr arm := harms (h.resolved hr arm)
  attempts := h.attempts.trans (hsweeps _)

theorem ConversationStore.Recorded.mono (h : s.Recorded succeeded sweeps) (harms : succeeded ⊆ succeeded')
    (hsweeps : ∀ k, sweeps.count k ≤ sweeps'.count k) : s.Recorded succeeded' sweeps' where
  aborted := h.aborted
  rows t ht r hr := (h.rows t ht r hr).mono harms hsweeps

theorem PurgeCall.Recorded.mono {call : PurgeCall} (h : call.Recorded succeeded) (harms : succeeded ⊆ succeeded') :
    call.Recorded succeeded' := by
  cases call with
  | clearing k => trivial
  | due row => exact fun arm harm => harms (h arm harm)
  | recording k result => exact ⟨h.1, fun arm harm => harms (h.2 arm harm)⟩
  | swept k result => exact ⟨h.1, fun arm harm => harms (h.2 arm harm)⟩

theorem KeepsTombstones.recorded (hk : KeepsTombstones s t) (h : s.Recorded succeeded sweeps) :
    t.Recorded succeeded sweeps := by
  obtain ⟨htables, hsaved, haborted⟩ := hk
  refine ⟨haborted.trans h.aborted, fun u hu r hr => ?_⟩
  rcases List.mem_cons.mp hu with rfl | hu
  · exact h.rows s.tables List.mem_cons_self r (htables ▸ hr)
  · exact h.rows u (List.mem_cons_of_mem _ (hsaved ▸ hu)) r hr

theorem ConversationStore.Recorded.conn (h : s.Recorded succeeded sweeps) : s.ensureConn = s := by
  rw [ConversationStore.ensureConn, h.aborted]
  rfl

theorem ConversationStore.Recorded.setTables {tables : ConversationTables} (h : s.Recorded succeeded sweeps)
    (ht : ∀ r ∈ tables.purgedConversations, r.Recorded succeeded sweeps) :
    (s.setTables tables).Recorded succeeded sweeps := by
  refine ⟨h.aborted, fun u hu r hr => ?_⟩
  rcases List.mem_cons.mp hu with rfl | hu
  · exact ht r hr
  · exact h.rows u (List.mem_cons_of_mem _ hu) r hr

theorem recorded_begin (h : s.Recorded succeeded sweeps) :
    ({ s with saved := some s.tables } : ConversationStore).Recorded succeeded sweeps := by
  refine ⟨h.aborted, fun u hu r hr => ?_⟩
  obtain rfl : u = s.tables := by simpa [ConversationStore.snapshots] using hu
  exact h.rows _ List.mem_cons_self r hr

theorem recorded_commit (h : s.Recorded succeeded sweeps) :
    ({ s with saved := none } : ConversationStore).Recorded succeeded sweeps := by
  refine ⟨h.aborted, fun u hu r hr => ?_⟩
  obtain rfl : u = s.tables := by simpa [ConversationStore.snapshots] using hu
  exact h.rows _ List.mem_cons_self r hr

theorem recorded_restored (h : s.Recorded succeeded sweeps) : s.restored.Recorded succeeded sweeps := by
  refine ⟨rfl, fun u hu r hr => ?_⟩
  obtain rfl : u = s.saved.getD s.tables := by simpa [ConversationStore.snapshots, ConversationStore.restored] using hu
  cases hsaved : s.saved with
  | none =>
    rw [hsaved] at hr
    exact h.rows _ List.mem_cons_self r hr
  | some saved =>
    rw [hsaved] at hr
    exact h.rows saved (List.mem_cons_of_mem _ (by rw [hsaved]; exact List.mem_singleton.mpr rfl)) r hr

theorem recorded_stmt {tables : ConversationTables} (stmt : SessionPurgeStmt)
    (h : ∀ r ∈ tables.purgedConversations, r.Recorded succeeded sweeps) :
    ∀ r ∈ (stmt.run k tables).purgedConversations, r.Recorded succeeded sweeps := by
  cases stmt with
  | tombstone =>
    intro r hr
    simp only [SessionPurgeStmt.run, ConversationTables.insertTombstone] at hr
    split_ifs at hr with hp
    · exact h r hr
    · rcases List.mem_append.mp hr with hr | hr
      · exact h r hr
      · obtain rfl := List.mem_singleton.mp hr
        refine ⟨fun arm harm => ?_, fun hresolved => (by cases hresolved), Nat.zero_le _⟩
        cases arm <;> cases harm
  | messages => exact h
  | header => exact h
  | projections => exact h
  | session => exact h

theorem always_purgeSessionRows : Always (fun s t => s.Recorded succeeded sweeps → t.Recorded succeeded sweeps)
    (purgeSessionRows env k) := by
  have hread : ∀ {α : Type} (f : ConversationTables → α),
      Always (fun s t => s.Recorded succeeded sweeps → t.Recorded succeeded sweeps) (dbQuery f) := by
    intro α f
    exact always_act fun s h => h.conn.symm ▸ h
  have hwrite : ∀ f : ConversationTables → ConversationTables,
      (∀ tables, (∀ r ∈ tables.purgedConversations, r.Recorded succeeded sweeps) →
        ∀ r ∈ (f tables).purgedConversations, r.Recorded succeeded sweeps) →
      Always (fun s t => s.Recorded succeeded sweeps → t.Recorded succeeded sweeps) (dbExecute f) := by
    intro f hf
    refine always_act fun s h => ?_
    rw [h.conn]
    exact h.setTables (hf _ (h.rows _ List.mem_cons_self))
  have htransaction : ∀ stmts, Always (fun s t => s.Recorded succeeded sweeps → t.Recorded succeeded sweeps)
      (purgeTransaction k stmts) := by
    intro stmts
    refine Always.bind (always_actE fun s h => ?_) fun _ => Always.bind (Always.attempt (Always.bind
      (Always.forEach fun stmt _ => hwrite _ fun tables => recorded_stmt stmt) fun _ =>
        Always.bind (always_act fun s h => ?_) fun _ => trivial)) fun r => ?_
    · rw [h.conn]
      dsimp only
      split
      · exact h
      · exact recorded_begin h
    · rw [if_neg (by simp [h.aborted])]
      exact recorded_commit h
    · cases r with
      | ok a => trivial
      | error e => exact Always.bind (Always.attempt (always_act fun s h => recorded_restored h)) fun _ => trivial
  refine Always.bind (hread _) fun sessionFound => Always.bind (hread _) fun tombstone => ?_
  split
  · trivial
  · refine Always.bind (Always.attempt (htransaction _)) fun r => ?_
    cases r with
    | ok _ => exact Always.bind (hwrite _ fun tables h => h) fun _ => trivial
    | error e => trivial

theorem keepsTombstones_refl : KeepsTombstones s s := ⟨rfl, rfl, rfl⟩

theorem KeepsTombstones.trans {u : ConversationStore} (h : KeepsTombstones s t) (h' : KeepsTombstones t u) :
    KeepsTombstones s u := ⟨h'.1.trans h.1, h'.2.1.trans h.2.1, h'.2.2.trans h.2.2⟩

theorem always_retryArm {φ : ConversationStore → ConversationStore → Prop} {label : String} {arm : ConversationM Unit}
    (harm : Always φ arm) (attempts : Nat) : Always φ (retryArm env label arm attempts) := by
  induction attempts with
  | zero => trivial
  | succ attempts ih =>
    refine Always.bind harm.attempt fun r => ?_
    cases r with
    | ok _ => trivial
    | error e => exact Always.bind ih fun _ => trivial

theorem always_deletePoints (ids : List String) : Always KeepsTombstones (forEach deletePoint ids) :=
  Always.forEach fun _ _ => always_act fun _ => ⟨rfl, rfl, rfl⟩

theorem always_graph {φ : ConversationStore → ConversationStore → Prop} (h : ∀ s, φ s s) :
    Always φ (query .graphStore fun _ => () : ConversationM Unit) := always_query h

theorem always_purgeSessionStores : Always KeepsTombstones (purgeSessionStores env k) := by
  refine Always.bind (always_retryArm (always_deletePoints _) _) fun qdrant => ?_
  split
  · exact Always.bind (always_retryArm (always_graph fun _ => keepsTombstones_refl) _) fun graph => trivial
  · trivial

theorem always_sweepStores (row : PurgedConversationRow) : Always KeepsTombstones (sweepStores env row) := by
  have hgraph : ∀ qdrant : Bool × List String, Always KeepsTombstones (do
      let graph ← if row.graphDeleted || !env.hasGraphStore then pure (true, []) else
        retryArm env "graph[sweep]" (query .graphStore fun _ => ()) sessionRetryAttempts
      return { SessionPurgeResult.start with
        postgresDeleted := true
        qdrantDeleted := qdrant.1
        graphDeleted := graph.1
        errors := qdrant.2 ++ graph.2 } : ConversationM SessionPurgeResult) := by
    intro qdrant
    split
    · trivial
    · exact Always.bind (always_retryArm (always_graph fun _ => keepsTombstones_refl) _) fun graph => trivial
  rw [sweepStores]
  split
  · exact hgraph _
  · exact Always.bind (always_retryArm (always_deletePoints _) _) hgraph

/-! ### What an arm has done when it succeeds -/

def PointsGone (env : ConversationEnv) (k : ConversationKey) (s : ConversationStore) : Prop :=
  ∀ pt ∈ s.points, pt.id ∉ purgePointIds env k

theorem onOk_deletePoints (ids : List String) : OnOk (fun _ t => ∀ pt ∈ t.points, pt.id ∉ ids) (forEach deletePoint ids) s := by
  refine OnOk.forEach (fun done t => ∀ pt ∈ t.points, pt.id ∉ done) (fun _ _ => List.not_mem_nil)
    (fun done id t _ hdone => OnOk.act fun pt hpt hmem => ?_) fun t h => h
  obtain ⟨hpt, hid⟩ := Table.mem_deleteWhere.mp hpt
  rcases List.mem_append.mp hmem with hmem | hmem
  · exact hdone pt hpt hmem
  · simp [List.mem_singleton.mp hmem] at hid

theorem onOk_retryArm {label : String} {arm : ConversationM Unit} {done : ConversationStore → Prop}
    (harm : ∀ s, OnOk (fun _ t => done t) arm s) (attempts : Nat) :
    OnOk (fun r t => r.1 = true → done t) (retryArm env label arm attempts) s := by
  induction attempts generalizing s with
  | zero => exact OnOk.ret fun h => by cases h
  | succ attempts ih =>
    refine OnOk.bind (OnOk.attempt (Post.mono (harm s) fun r t hr => ?_))
    cases r with
    | ok _ => exact OnOk.ret fun _ => hr () rfl
    | error e => exact OnOk.bind (ih.mono fun r t hr => OnOk.ret hr)

theorem onOk_retryGraph {label : String} (attempts : Nat) :
    OnOk (fun _ t => t = s) (retryArm env label (query .graphStore fun _ => ()) attempts) s :=
  (always_retryArm (φ := fun s t => t = s) (always_graph fun _ => rfl) attempts).onOk (fun _ => rfl)
    (fun _ _ _ h h' => h'.trans h) s

theorem onOk_purgeSessionStores : OnOk (fun result t => result.PastRows ∧
    (result.deleted .qdrant = true → PointsGone env k t)) (purgeSessionStores env k) s := by
  refine OnOk.bind ((onOk_retryArm (fun _ => onOk_deletePoints _) _).mono fun qdrant t hq => ?_)
  split
  · exact OnOk.bind ((onOk_retryGraph _).mono fun graph u hu => OnOk.ret ⟨⟨rfl, rfl⟩, fun h => hu ▸ hq h⟩)
  · exact OnOk.ret ⟨⟨rfl, rfl⟩, hq⟩

theorem onOk_sweepStores (row : PurgedConversationRow) : OnOk (fun result t => result.PastRows ∧
    (result.deleted .qdrant = true → row.deleted .qdrant = false → PointsGone env row.key t)) (sweepStores env row) s := by
  have hgraph : ∀ (qdrant : Bool × List String) t,
      (qdrant.1 = true → row.deleted .qdrant = false → PointsGone env row.key t) →
      OnOk (fun result t => result.PastRows ∧
        (result.deleted .qdrant = true → row.deleted .qdrant = false → PointsGone env row.key t)) (do
        let graph ← if row.graphDeleted || !env.hasGraphStore then pure (true, []) else
          retryArm env "graph[sweep]" (query .graphStore fun _ => ()) sessionRetryAttempts
        return { SessionPurgeResult.start with
          postgresDeleted := true
          qdrantDeleted := qdrant.1
          graphDeleted := graph.1
          errors := qdrant.2 ++ graph.2 } : ConversationM SessionPurgeResult) t := by
    intro qdrant t hq
    split
    · exact OnOk.ret ⟨⟨rfl, rfl⟩, hq⟩
    · exact OnOk.bind ((onOk_retryGraph _).mono fun graph u hu => OnOk.ret ⟨⟨rfl, rfl⟩, fun h hrow => hu ▸ hq h hrow⟩)
  rw [sweepStores]
  split
  · rename_i hrow
    exact hgraph _ _ fun _ hno => by cases hrow.symm.trans hno
  · exact OnOk.bind ((onOk_retryArm (fun _ => onOk_deletePoints _) _).mono fun qdrant t hq => hgraph _ _ fun h _ => hq h)

/-! ### Steps and runs -/

variable {c c' c₀ : PurgeConfig}

theorem mem_partialPurges {tables : ConversationTables} {r : PurgedConversationRow} (h : r ∈ partialPurges tables) :
    r ∈ tables.purgedConversations ∧ isDue tables.now r = true :=
  List.mem_filter.mp (List.mem_mergeSort.mp (List.mem_of_mem_take h))

theorem partialPurges_of_due {tables : ConversationTables} {r : PurgedConversationRow}
    (hr : r ∈ tables.purgedConversations) (hdue : isDue tables.now r = true)
    (hcount : (tables.purgedConversations.filter (isDue tables.now)).countP (fun x => decide (x.purgedAt ≤ r.purgedAt)) ≤
      sweeperLimit) : r ∈ partialPurges tables := by
  rw [partialPurges]
  generalize hrows : tables.purgedConversations.filter (isDue tables.now) = rows at hcount
  have hmem : r ∈ rows.mergeSort fun a b => decide (a.purgedAt ≤ b.purgedAt) :=
    List.mem_mergeSort.mpr (hrows ▸ List.mem_filter.mpr ⟨hr, hdue⟩)
  have hsorted : (rows.mergeSort fun a b => decide (a.purgedAt ≤ b.purgedAt)).Pairwise
      fun a b => decide (a.purgedAt ≤ b.purgedAt) = true :=
    List.pairwise_mergeSort (by simp only [decide_eq_true_eq]; omega) (by simp only [Bool.or_eq_true, decide_eq_true_eq]; omega) rows
  rw [← (List.mergeSort_perm rows fun a b => decide (a.purgedAt ≤ b.purgedAt)).countP_eq] at hcount
  obtain ⟨older, younger, hsplit⟩ := List.append_of_mem hmem
  rw [hsplit] at hcount hsorted ⊢
  -- those before it count, and so does it
  have holder : older.countP (fun x => decide (x.purgedAt ≤ r.purgedAt)) = older.length :=
    List.countP_eq_length.mpr fun x hx => (List.pairwise_append.mp hsorted).2.2 x hx r List.mem_cons_self
  rw [List.countP_append, List.countP_cons, holder] at hcount
  simp only [le_refl, decide_true, if_true] at hcount
  obtain ⟨n, hn⟩ : ∃ n, sweeperLimit - older.length = n + 1 := ⟨sweeperLimit - older.length - 1, by omega⟩
  rw [List.take_append, hn, List.take_succ_cons]
  exact List.mem_append_right _ List.mem_cons_self

theorem mem_newlySucceeded {done : StoreArm → Bool} {result : SessionPurgeResult} {arm : StoreArm} :
    (k, arm) ∈ newlySucceeded k done result ↔ result.deleted arm = true ∧ done arm = false := by
  cases arm <;> simp [newlySucceeded]

theorem isTombstone_key {r : PurgedConversationRow} (h : k.isTombstone r = true) : r.key = k := by
  simp only [ConversationKey.isTombstone, Bool.and_eq_true, beq_iff_eq] at h
  rw [PurgedConversationRow.key, h.1, h.2]

theorem Conversations.SessionPurgeResult.Recorded.complete {result : SessionPurgeResult}
    (h : result.Recorded succeeded k) (hcomplete : result.incomplete = false) (arm : StoreArm) : (k, arm) ∈ succeeded := by
  have hboth : result.qdrantDeleted = true ∧ result.graphDeleted = true := by
    simpa [SessionPurgeResult.incomplete, h.1.1, h.1.2] using hcomplete
  cases arm with
  | qdrant => exact h.2 .qdrant hboth.1
  | graph => exact h.2 .graph hboth.2

theorem recorded_updateTombstone {tables : ConversationTables} {result : SessionPurgeResult}
    (hresult : result.Recorded succeeded k) (h : ∀ r ∈ tables.purgedConversations, r.Recorded succeeded sweeps) :
    ∀ r ∈ (updateTombstone k result tables).purgedConversations, r.Recorded succeeded sweeps := by
  intro r hr
  rcases Table.mem_updateWhere.mp hr with ⟨x, hx, hkey, rfl⟩ | ⟨hr, -⟩
  · have hk : x.key = k := isTombstone_key hkey
    refine ⟨fun arm harm => ?_, fun hresolved arm => ?_, (h x hx).attempts⟩
    · have hdeleted : result.deleted arm = true := by cases arm <;> exact harm
      exact hk ▸ hresult.2 arm hdeleted
    · rcases Bool.or_eq_true_iff.mp hresolved with hold | hnew
      · exact (h x hx).resolved hold arm
      · exact hk ▸ hresult.complete (by simpa using hnew) arm
  · exact h r hr

theorem recorded_recordSweep {tables : ConversationTables} {result : SessionPurgeResult}
    (hresult : result.Recorded succeeded k) (h : ∀ r ∈ tables.purgedConversations, r.Recorded succeeded sweeps) :
    ∀ r ∈ (recordSweep k result tables).purgedConversations, r.Recorded succeeded (k :: sweeps) := by
  intro r hr
  rcases Table.mem_updateWhere.mp hr with ⟨x, hx, hkey, rfl⟩ | ⟨hr, -⟩
  · have hk : x.key = k := isTombstone_key hkey
    refine ⟨fun arm harm => ?_, fun hresolved arm => ?_, ?_⟩
    · have hdeleted : result.deleted arm = true := by cases arm <;> exact harm
      exact hk ▸ hresult.2 arm hdeleted
    · rcases Bool.or_eq_true_iff.mp hresolved with hold | hnew
      · exact (h x hx).resolved hold arm
      · exact hk ▸ hresult.complete (by simpa using hnew) arm
    · have hold : x.sweepAttempts ≤ sweeps.count k := hk ▸ (h x hx).attempts
      show x.sweepAttempts + 1 ≤ (k :: sweeps).count x.key
      rw [hk, List.count_cons_self]
      omega
  · exact (h r hr).mono (fun _ h => h) fun _ => List.count_le_count_cons

theorem always_fates {φ : ConversationStore → ConversationStore → Prop} {α : Type} {p : ConversationM α} (h : Always φ p)
    (hr : ∀ s, φ s s) (ht : ∀ a b c, φ a b → φ b c → φ a c) {fates : List Fate} {r : Except ConversationErr α}
    (hrun : p.execFates fates s = some (r, t)) : φ s t :=
  (h.post hr ht s).faulty (faulty_iff.mpr ⟨fates, hrun⟩)

theorem recorded_execute {f : ConversationTables → ConversationTables} {fates : List Fate}
    {r : Except ConversationErr Unit} (h : s.Recorded succeeded sweeps)
    (hsweeps : ∀ k, sweeps.count k ≤ sweeps'.count k)
    (hf : ∀ r ∈ (f s.tables).purgedConversations, r.Recorded succeeded sweeps')
    (hrun : (dbExecute f).execFates fates s = some (r, t)) : t.Recorded succeeded sweeps' := by
  have hold : s.Recorded succeeded sweeps' := h.mono (fun _ h => h) hsweeps
  have hnew : (s.ensureConn.setTables (f s.ensureConn.tables)).Recorded succeeded sweeps' := by
    rw [h.conn]
    exact hold.setTables hf
  have hpost : Post (fun _ t => t.Recorded succeeded sweeps') (dbExecute f) s := post_act.mpr ⟨hnew, hold, hnew⟩
  exact hpost.faulty (faulty_iff.mpr ⟨fates, hrun⟩)

theorem PurgeConfig.Recorded.next {l : PurgeLabel} (h : c.Recorded) (hstep : purgeStep env l c = some c') :
    c'.Recorded := by
  have herase : ∀ i, ∀ call ∈ c.calls.eraseIdx i, call.Recorded c.succeeded :=
    fun i call hcall => h.calls call (List.mem_of_mem_eraseIdx hcall)
  -- the arms that have run are added, and the call goes on with their result
  have harms : ∀ {i : Nat} {k : ConversationKey} {done : StoreArm → Bool} {result : SessionPurgeResult} {call : PurgeCall}
      {u : ConversationStore}, KeepsTombstones c.store u → result.PastRows →
      (∀ arm, done arm = true → (k, arm) ∈ c.succeeded) →
      (result.Recorded (newlySucceeded k done result ++ c.succeeded) k →
        call.Recorded (newlySucceeded k done result ++ c.succeeded)) →
      ({ c with store := u, calls := c.calls.set i call, succeeded := newlySucceeded k done result ++ c.succeeded } :
        PurgeConfig).Recorded := by
    intro i k done result call u hu hrows hdone hcall
    have hsub : c.succeeded ⊆ newlySucceeded k done result ++ c.succeeded := List.subset_append_right _ _
    refine ⟨(hu.recorded h.store).mono hsub fun _ => le_rfl, fun x hx => ?_⟩
    rcases List.mem_or_eq_of_mem_set hx with hx | rfl
    · exact (h.calls x hx).mono hsub
    · refine hcall ⟨hrows, fun arm harm => List.mem_append.mpr ?_⟩
      cases hd : done arm with
      | true => exact .inr (hdone arm hd)
      | false => exact .inl (mem_newlySucceeded.mpr ⟨harm, hd⟩)
  cases l with
  | purge k fates =>
    obtain ⟨x, hx, rfl⟩ := Option.map_eq_some_iff.mp hstep
    have hstore : x.2.Recorded c.succeeded c.sweeps :=
      always_fates (φ := fun s t => s.Recorded c.succeeded c.sweeps → t.Recorded c.succeeded c.sweeps)
        always_purgeSessionRows (fun _ h => h) (fun _ _ _ h h' hs => h' (h hs)) (show _ = some (x.1, x.2) from hx) h.store
    refine ⟨hstore, fun call hcall => ?_⟩
    dsimp only at hcall
    split at hcall
    · rcases List.mem_cons.mp hcall with rfl | hcall
      · trivial
      · exact h.calls call hcall
    · exact h.calls call hcall
  | pass fates =>
    obtain ⟨x, hx, rfl⟩ := Option.map_eq_some_iff.mp hstep
    have hread : Post (fun r t => t = c.store ∧ ∀ rows, r = .ok rows → rows = partialPurges c.store.tables)
        (dbQuery partialPurges) c.store := by
      refine post_act.mpr ?_
      rw [h.store.conn]
      exact ⟨⟨rfl, fun rows hrows => (by cases hrows; rfl)⟩, ⟨rfl, fun rows hrows => (by cases hrows)⟩,
        ⟨rfl, fun rows hrows => (by cases hrows)⟩⟩
    obtain ⟨hstore, hrows⟩ := hread.faulty (faulty_iff.mpr ⟨fates, show _ = some (x.1, x.2) from hx⟩)
    refine ⟨hstore ▸ h.store, fun call hcall => ?_⟩
    dsimp only at hcall
    split at hcall
    · rename_i rows hx'
      rcases List.mem_append.mp hcall with hcall | hcall
      · obtain ⟨row, hrow, rfl⟩ := List.mem_map.mp hcall
        exact (h.store.rows _ List.mem_cons_self row (mem_partialPurges (hrows rows hx' ▸ hrow)).1).arms
      · exact h.calls call hcall
    · exact h.calls call hcall
  | next i fates =>
    rw [purgeStep] at hstep
    split at hstep
    · cases hstep
    · rename_i k hcall
      obtain ⟨x, hx, rfl⟩ := Option.map_eq_some_iff.mp hstep
      have hrun : (purgeSessionStores env k).execFates fates c.store = some (x.1, x.2) := hx
      have hkeeps := always_fates always_purgeSessionStores (fun _ => keepsTombstones_refl) (fun _ _ _ h h' => h.trans h') hrun
      split
      · rename_i result hresult
        have hrows := (onOk_purgeSessionStores.faulty (faulty_iff.mpr ⟨fates, hresult ▸ hrun⟩)).1
        exact harms hkeeps hrows (fun _ hdone => by cases hdone) fun hrec => hrec
      · exact ⟨hkeeps.recorded h.store, herase i⟩
    · rename_i k result hcall
      obtain ⟨x, hx, rfl⟩ := Option.map_eq_some_iff.mp hstep
      have hresult : result.Recorded c.succeeded k := h.calls _ (List.mem_of_getElem? hcall)
      refine ⟨recorded_execute h.store (fun _ => le_rfl) ?_ (show _ = some (x.1, x.2) from hx), herase i⟩
      exact recorded_updateTombstone hresult (h.store.rows _ List.mem_cons_self)
    · rename_i row hcall
      obtain ⟨x, hx, rfl⟩ := Option.map_eq_some_iff.mp hstep
      have hrun : (sweepStores env row).execFates fates c.store = some (x.1, x.2) := hx
      have hkeeps := always_fates (always_sweepStores row) (fun _ => keepsTombstones_refl) (fun _ _ _ h h' => h.trans h') hrun
      split
      · rename_i result hresult
        have hrows := ((onOk_sweepStores row).faulty (faulty_iff.mpr ⟨fates, hresult ▸ hrun⟩)).1
        exact harms hkeeps hrows (h.calls _ (List.mem_of_getElem? hcall)) fun hrec => hrec
      · exact ⟨hkeeps.recorded h.store, herase i⟩
    · rename_i k result hcall
      obtain ⟨x, hx, rfl⟩ := Option.map_eq_some_iff.mp hstep
      have hresult : result.Recorded c.succeeded k := h.calls _ (List.mem_of_getElem? hcall)
      refine ⟨recorded_execute h.store (fun _ => List.count_le_count_cons) ?_ (show _ = some (x.1, x.2) from hx), herase i⟩
      exact recorded_recordSweep hresult (h.store.rows _ List.mem_cons_self)
  | elsewhere s =>
    rw [purgeStep] at hstep
    split at hstep
    · rename_i hkeeps
      cases hstep
      exact ⟨hkeeps.recorded h.store, h.calls⟩
    · cases hstep
  | restart =>
    cases hstep
    exact ⟨recorded_restored h.store, fun call hcall => absurd hcall List.not_mem_nil⟩

/-! ### Whole calls -/

/-- A run leads from `c` to this store and these calls. -/
def PurgeRunsTo (env : ConversationEnv) (c : PurgeConfig) (calls : List PurgeCall) (s : ConversationStore) : Prop :=
  ∃ c', Labelled.Reaches (purgeStep env) (fun _ _ => True) c c' ∧ c'.calls = calls ∧ c'.store = s

theorem PurgeRunsTo.part {α : Type} {p : ConversationM α} {calls : List PurgeCall}
    {next : Except ConversationErr α → List PurgeCall} (h : PurgeRunsTo env c calls s)
    (hstep : ∀ c', c'.calls = calls → c'.store = s → ∀ fates r t, p.execFates fates s = some (r, t) →
      ∃ l c'', purgeStep env l c' = some c'' ∧ c''.calls = next r ∧ c''.store = t) :
    Post (fun r t => PurgeRunsTo env c (next r) t) p s := by
  refine post_iff_faulty.mpr fun r t hrun => ?_
  obtain ⟨fates, hfates⟩ := faulty_iff.mp hrun
  obtain ⟨c', hreach, hcalls, hstore⟩ := h
  obtain ⟨l, c'', hl, hcalls', hstore'⟩ := hstep c' hcalls hstore fates r t hfates
  exact ⟨c'', hreach.next trivial hl, hcalls', hstore'⟩

/-- A purge, whatever faults occur. -/
theorem purgeSessionMemory_run {calls : List PurgeCall} (h : PurgeRunsTo env c calls s) :
    Post (fun _ t => PurgeRunsTo env c calls t) (purgeSessionMemory env k) s := by
  have hrows : Post (fun r t => PurgeRunsTo env c (if r = .ok none then .clearing k :: calls else calls) t)
      (purgeSessionRows env k) s := by
    refine h.part fun c' hcalls hstore fates r t hrun => ?_
    exact ⟨.purge k fates, _, by rw [purgeStep, hcalls, hstore]; exact congrArg (Option.map _) hrun, rfl, rfl⟩
  have hstores : ∀ u, PurgeRunsTo env c (.clearing k :: calls) u →
      Post (fun r t => PurgeRunsTo env c (match r with
        | .ok result => .recording k result :: calls
        | .error _ => calls) t) (purgeSessionStores env k) u := by
    intro u hu
    refine hu.part fun c' hcalls hstore fates r t hrun => ?_
    refine ⟨.next 0 fates, _, by rw [purgeStep, hcalls, hstore]; exact congrArg (Option.map _) hrun, ?_⟩
    cases r <;> exact ⟨rfl, rfl⟩
  have hrecord : ∀ result u, PurgeRunsTo env c (.recording k result :: calls) u →
      Post (fun _ t => PurgeRunsTo env c calls t) (dbExecute (updateTombstone k result)) u := by
    intro result u hu
    refine hu.part fun c' hcalls hstore fates r t hrun => ?_
    exact ⟨.next 0 fates, _, by rw [purgeStep, hcalls, hstore]; exact congrArg (Option.map _) hrun, rfl, rfl⟩
  rw [purgeSessionMemory_eq]
  refine post_bind.mpr (hrows.mono fun r t ht => ?_)
  cases r with
  | error e => exact ht
  | ok found =>
    cases found with
    | some result => exact ht
    | none =>
      refine post_bind.mpr ((hstores t ht).mono fun r u hu => ?_)
      cases r with
      | error e => exact hu
      | ok result => exact post_bind.mpr (post_attempt.mpr ((hrecord result u hu).mono fun r v hv => hv))

/-- Neither tombstones nor calls. -/
structure PurgeStart (c : PurgeConfig) : Prop where
  saved : c.store.saved = none
  aborted : c.store.aborted = false
  tombstones : c.store.tables.purgedConversations = []
  calls : c.calls = []

theorem PurgeStart.recorded (h : PurgeStart c) : c.Recorded := by
  refine ⟨⟨h.aborted, fun t ht r hr => ?_⟩, fun call hcall => ?_⟩
  · obtain rfl : t = c.store.tables := by simpa [ConversationStore.snapshots, h.saved] using ht
    rw [h.tombstones] at hr
    cases hr
  · rw [h.calls] at hcall
    cases hcall

/-- The tombstones that a pass takes before this one, and itself. -/
def dueBefore (t : ConversationTables) (r : PurgedConversationRow) : Nat :=
  (t.purgedConversations.filter (isDue t.now)).countP fun x => decide (x.purgedAt ≤ r.purgedAt)

theorem purge_and_sweep (h₀ : PurgeStart c₀) (h : Labelled.Reaches (purgeStep env) (fun _ _ => True) c₀ c) :
    (∀ k s, s.Idle → (s.tables.sessions.map SessionSummaryRow.sessionId).Nodup → PurgeReaches env k s →
      ∃ r t, (purgeSessionMemory env k).exec s = some (r, t) ∧ ConversationGone env k t ∧ t.tables.purged k = true) ∧
    (∀ r ∈ c.store.tables.purgedConversations, r.resolved = true → ∀ arm, (r.key, arm) ∈ c.succeeded) ∧
    ∀ r ∈ c.store.tables.purgedConversations, r.resolved = false → c.sweeps.count r.key < sweeperMaxAttempts →
      r.purgedAt + sweeperMinAge < c.store.tables.now → dueBefore c.store.tables r ≤ sweeperLimit →
      ∃ c', purgeStep env (.pass []) c = some c' ∧ .due r ∈ c'.calls := by
  have hrec : c.Recorded := h.invariant h₀.recorded fun _ _ _ hc _ hstep => hc.next hstep
  refine ⟨fun k s hidle hkeys hreach => ?_, fun r hr => (hrec.store.rows _ List.mem_cons_self r hr).resolved,
    fun r hr hresolved hsweeps hage hbefore => ?_⟩
  · obtain ⟨r, t, hrun, -⟩ := wp_iff.mp (@wp_purgeSessionMemory env k s hidle)
    have htarget : TargetExists k s.tables := by
      rcases hreach.1 with hsession | htombstone
      · exact .inl hsession
      · exact .inr (.inr htombstone)
    exact ⟨r, t, hrun, (purge_gone_iff hidle hkeys htarget hrun).mpr hreach⟩
  · have hattempts : r.sweepAttempts < sweeperMaxAttempts :=
      (hrec.store.rows _ List.mem_cons_self r hr).attempts.trans_lt hsweeps
    have hdue : isDue c.store.tables.now r = true := by simp [isDue, hresolved, hattempts, hage]
    refine ⟨{ c with calls := (partialPurges c.store.tables).map .due ++ c.calls }, ?_, ?_⟩
    · rw [purgeStep, execFates_nil, dbQuery, exec_act, hrec.store.conn]
      rfl
    · exact List.mem_append_left _ (List.mem_map_of_mem (partialPurges_of_due hr hdue hbefore))

end Purges

namespace SweeperExample

def env : ConversationEnv := { PurgeExample.env with hasGraphStore := true }

def k : ConversationKey := PurgeExample.k

/-- A session with its header. -/
def start : PurgeConfig :=
  { store := PurgeExample.start.store, calls := [], succeeded := [], sweeps := [] }

theorem start_idle : PurgeStart start := ⟨rfl, rfl, rfl, rfl⟩

/-- The fates of a purge's arms when the graph store is down. -/
def graphDown : List Fate := [.ok, .ok, .ok, .lost, .lost, .lost]

def purge (fates : List Fate) : List PurgeLabel := [.purge k [], .next 0 fates, .next 0 []]

/-- The sweeper retries the graph arm alone. -/
def sweep : List PurgeLabel := [.pass [], .next 0 [.lost, .lost, .lost], .next 0 []]

def reached (ls : List PurgeLabel) : PurgeConfig := Labelled.runTo (purgeStep env) ls start

def waits (now : Nat) (ls : List PurgeLabel) : PurgeLabel :=
  .elsewhere ((reached ls).store.setTables { (reached ls).store.tables with now := now })

/-- A purge with the graph store down, an hour later. -/
def partialPurge : List PurgeLabel := purge graphDown ++ [waits 3600 (purge graphDown)]

/-- Twenty passes with the graph store down. -/
def oftenSwept : List PurgeLabel := partialPurge ++ (List.replicate 20 sweep).flatten

/-- Purged without a fault, and again with the graph store down. -/
def repurged : List PurgeLabel := purge [] ++ purge graphDown

/-- A conversation of the web client that has no session yet. -/
def webOnly : ConversationStore :=
  PurgeExample.start.store.setTables { PurgeExample.start.store.tables with sessions := [] }

/-- A tombstone whose graph arm has failed and that no pass looks at, however long it waits. -/
def Stranded (c : PurgeConfig) : Prop :=
  ∃ r ∈ c.store.tables.purgedConversations, r.graphDeleted = false ∧
    ∀ now, r ∉ partialPurges { c.store.tables with now := now }

theorem stranded_of_never_due {c : PurgeConfig} {r : PurgedConversationRow} (hr : r ∈ c.store.tables.purgedConversations)
    (hgraph : r.graphDeleted = false) (hnever : r.resolved = true ∨ sweeperMaxAttempts ≤ r.sweepAttempts) : Stranded c := by
  refine ⟨r, hr, hgraph, fun now hmem => ?_⟩
  have hdue := (mem_partialPurges hmem).2
  simp only [isDue, Bool.and_eq_true, Bool.not_eq_true', decide_eq_true_eq] at hdue
  rcases hnever with hresolved | hswept
  · cases hresolved.symm.trans hdue.1.1
  · omega

end SweeperExample

section Sweeper

open SweeperExample

theorem purge_and_sweep_partial : ∃ c', purgeStep env (.pass []) (reached partialPurge) = some c' ∧
    .due ⟨"alice", "s", true, false, ["graph: ", "graph: ", "graph: "], false, 0, 0⟩ ∈ c'.calls :=
  (purge_and_sweep start_idle (@Labelled.reaches_runTo _ _ _ _ _ partialPurge (by decide +kernel) (by decide +kernel))).2.2 _
    (by decide +kernel) rfl (by decide +kernel) (by decide +kernel) (by decide +kernel)

/-- The target test finds a web conversation that the purge then leaves alone. A tombstone that the sweeper has
tried twenty times is left as it is, and so is one that was resolved before its graph arm failed. -/
theorem target_left_behind :
    ((conversationPurgeTargetExists k).exec webOnly = some (.ok true, webOnly) ∧
      (purgeSessionMemory env k).exec webOnly = some (.ok .start, webOnly) ∧ ¬ ConversationGone env k webOnly) ∧
    (∃ c, Labelled.Reaches (purgeStep env) (fun _ _ => True) start c ∧ c.calls = [] ∧ Stranded c) ∧
    ∃ c, Labelled.Reaches (purgeStep env) (fun _ _ => True) start c ∧ c.calls = [] ∧ Stranded c ∧
      ∀ r ∈ c.store.tables.purgedConversations, r.resolved = true :=
  ⟨⟨by decide +kernel, by decide +kernel, fun h => absurd h.headers (by decide +kernel)⟩,
    ⟨reached oftenSwept, Labelled.reaches_runTo (by decide +kernel) (by decide +kernel), by decide +kernel,
      @stranded_of_never_due _ ⟨"alice", "s", true, false, ["graph[sweep]: ", "graph[sweep]: ", "graph[sweep]: "], false, 20, 0⟩
        (by decide +kernel) rfl (.inr (by decide))⟩,
    ⟨reached repurged, Labelled.reaches_runTo (by decide +kernel) (by decide +kernel), by decide +kernel,
      @stranded_of_never_due _ ⟨"alice", "s", true, false, ["graph: ", "graph: ", "graph: "], true, 0, 0⟩
        (by decide +kernel) rfl (.inl rfl), by decide +kernel⟩⟩

end Sweeper

end Lumogis
