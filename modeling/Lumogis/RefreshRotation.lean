import Lumogis.AuthSessions
import Lumogis.Lib.Labelled
import Mathlib.Tactic.SplitIfs

/-!
# RefreshRotation

Rotations of refresh tokens as a system: any number of threads that present a token or revoke the
sessions of a family or of a user, one statement at a time, beside logins and revocations of single
sessions.

`rotation_once`: in every run in which the row of the presented token is still active when the
successor is inserted, a token is rotated at most once, and what was rotated from a token that a
returned call has revoked is revoked too. `rotate_refresh` reads the row before its transaction and
does not ask whether its `UPDATE` matched, so two calls with one token can both succeed
(`token_rotated_twice`), and a rotation can outlive a revocation (`rotation_survives_revocation`).
-/

namespace Lumogis

open Prog Labelled AuthSessions

/-- The arguments of `rotate_refresh`. -/
structure Presented where
  userId : String
  jti : String
  refreshJwt : String
  refreshTtlSeconds : Nat

/-- The calls that revoke the sessions of a family or of a user. -/
inductive Revocation where
  | reuse (familyId : String)
  | password (userId pwHash : String)
  | disable (userId : String)
  | all (userId : String)

inductive RevokeStmt where
  | sessions (r : Revocation)
  | bump (userId : String)
  | password (userId pwHash : String)
  | disable (userId : String)

namespace Revocation

/-- The sessions that are revoked. -/
def covers : Revocation → AuthSessionRow → Bool
  | .reuse familyId, row => row.familyId == familyId
  | .password userId _, row => row.userId == userId
  | .disable userId, row => row.userId == userId
  | .all userId, row => row.userId == userId

/-- The statements inside the transaction. -/
def statements : Revocation → List RevokeStmt
  | .reuse familyId => [.sessions (.reuse familyId)]
  | .password userId pwHash => [.password userId pwHash, .sessions (.password userId pwHash)]
  | .disable userId => [.sessions (.disable userId), .disable userId]
  | .all userId => [.bump userId, .sessions (.all userId)]

end Revocation

def RevokeStmt.run : RevokeStmt → AuthM Unit
  | .sessions (.reuse familyId) => revokeFamily familyId
  | .sessions (.password userId _) => revokeAllActiveInTransactionForUser userId
  | .sessions (.disable userId) => revokeAllActiveInTransactionForUser userId
  | .sessions (.all userId) => revokeAllActiveInTransactionForUser userId
  | .bump userId => do
    match ← bumpTokenVersion userId with
    | none => .raise (.runtime "user row missing during token bump")
    | some _ => pure ()
  | .password userId pwHash => updatePassword userId pwHash
  | .disable userId => updateDisabled userId

/-- The ids of the sessions that the statement revokes, the inactive ones included. -/
def RevokeStmt.covered (rows : List AuthSessionRow) : RevokeStmt → List String
  | .sessions r => (rows.filter r.covers).map AuthSessionRow.id
  | .bump _ | .password _ _ | .disable _ => []

inductive AuthPhase where
  | idle
  /-- The row was read and found valid; `users` is next. -/
  | checked (p : Presented) (sess : AuthSessionRow)
  | minting (p : Presented) (sess : AuthSessionRow)
  /-- The transaction is next. -/
  | minted (p : Presented) (row : AuthSessionRow)
  | begun (p : Presented) (row : AuthSessionRow)
  | inserted (p : Presented) (row : AuthSessionRow)
  | updated (p : Presented) (row : AuthSessionRow)
  | revoke (r : Revocation)
  /-- Statements still to come, and the ids of the rows that were revoked. -/
  | revoking (todo : List RevokeStmt) (ids : List String)
  /-- A statement of the transaction has failed. -/
  | failed

/-- A transaction is open. -/
def AuthPhase.inTransaction : AuthPhase → Bool
  | .begun _ _ => true
  | .inserted _ _ => true
  | .updated _ _ => true
  | .revoking _ _ => true
  | .failed => true
  | _ => false

/-- The id of a successor that is not inserted yet. -/
def AuthPhase.pending : AuthPhase → Option String
  | .minted _ row => some row.id
  | .begun _ row => some row.id
  | _ => none

structure RotatedSession where
  jti : String
  newId : String
  deriving DecidableEq

structure AuthConfig (ι : Type) where
  store : AuthStore
  phase : ι → AuthPhase
  /-- The user and the family of every session that was ever inserted. -/
  born : String → Option (String × String)
  /-- The rotations that have returned. -/
  rotated : List RotatedSession
  /-- For each revoking call that has returned, the ids of the rows that it covered. -/
  revocations : List (List String)

inductive AuthLabel (ι : Type) where
  | present (i : ι) (p : Presented)
  | readVersion (i : ι)
  | mint (i : ι)
  | revokeCall (i : ι) (r : Revocation)
  | beginTransaction (i : ι)
  | insert (i : ι)
  | update (i : ι)
  | revokeStmt (i : ι)
  | commit (i : ι)
  | rollback (i : ι)
  | login (userId refreshJwt deviceLabel ipHash uaHash : String) (ttl : Nat)
  | revokeById (sessionId : String)
  | wait (seconds : Nat)

section System

variable {ι : Type} [DecidableEq ι]

def AuthConfig.put (i : ι) (p : AuthPhase) (store : AuthStore) (c : AuthConfig ι) : AuthConfig ι :=
  { c with store := store, phase := Function.update c.phase i p }

def AuthConfig.bear (row : AuthSessionRow) (c : AuthConfig ι) : AuthConfig ι :=
  { c with born := Function.update c.born row.id (some (row.userId, row.familyId)) }

/-- Where a rotation goes once it has read its row. -/
def presentedPhase (env : AuthEnv) (now : Nat) (p : Presented) :
    Option AuthSessionRow → AuthPhase
  | none => .idle
  | some sess =>
    if sess.revokedAt.isSome then
      if env.hashRefreshPlaintext p.refreshJwt ≠ sess.refreshTokenHash then .idle
      else .revoke (.reuse sess.familyId)
    else if sess.expiresAt < now then .idle
    else if env.hashRefreshPlaintext p.refreshJwt ≠ sess.refreshTokenHash then .idle
    else .checked p sess

/-- The row of `insert_login_session`. -/
def loginRow (env : AuthEnv) (s : AuthStore) (userId refreshJwt deviceLabel ipHash uaHash : String)
    (ttl : Nat) : AuthSessionRow :=
  { id := env.uuid4 s.drawn, userId := userId, familyId := env.uuid4 s.drawn
    refreshTokenHash := env.hashRefreshPlaintext refreshJwt
    expiresAt := s.now + ttl, revokedAt := none
    deviceLabel := deviceLabel, ipHash := ipHash, uaHash := uaHash }

def AuthStore.draw (s : AuthStore) : AuthStore := { s with drawn := s.drawn + 1 }

def authStep (env : AuthEnv) : AuthLabel ι → AuthConfig ι → Option (AuthConfig ι)
  | .present i p, c =>
    match c.phase i, (selectSession p.jti p.userId).exec c.store with
    | .idle, some (.ok row, t) => some (c.put i (presentedPhase env c.store.now p row) t)
    | _, _ => none
  | .readVersion i, c =>
    match c.phase i with
    | .checked p sess =>
      match (selectTokenVersion p.userId).exec c.store with
      | some (.ok (some _), t) => some (c.put i (.minting p sess) t)
      | some (_, t) => some (c.put i .idle t)
      | none => none
    | _ => none
  | .mint i, c =>
    match c.phase i with
    | .minting p sess =>
      let newId := env.uuid4 c.store.drawn
      let newRefresh := env.mintRefreshToken p.userId newId c.store.now
      some (c.put i (.minted p (successor env sess p.userId newId newRefresh
        (c.store.now + p.refreshTtlSeconds))) c.store.draw)
    | _ => none
  | .revokeCall i r, c =>
    match c.phase i with
    | .idle => some (c.put i (.revoke r) c.store)
    | _ => none
  | .beginTransaction i, c =>
    match c.phase i, AuthSessions.beginTransaction.exec c.store with
    | .minted p row, some (.ok (), t) => some (c.put i (.begun p row) t)
    | .minted _ _, some (.error _, t) => some (c.put i .idle t)
    | .revoke r, some (.ok (), t) => some (c.put i (.revoking r.statements []) t)
    | .revoke _, some (.error _, t) => some (c.put i .idle t)
    | _, _ => none
  | .insert i, c =>
    match c.phase i with
    | .begun p row =>
      match (insertSession row).exec c.store with
      | some (.ok (), t) => some ((c.put i (.inserted p row) t).bear row)
      | some (.error _, t) => some (c.put i .failed t)
      | none => none
    | _ => none
  | .update i, c =>
    match c.phase i with
    | .inserted p row => some (c.put i (.updated p row) (c.store.revokeWhere (·.id == p.jti)))
    | _ => none
  | .revokeStmt i, c =>
    match c.phase i with
    | .revoking (stmt :: todo) ids =>
      match stmt.run.exec c.store with
      | some (.ok (), t) =>
        some (c.put i (.revoking todo (ids ++ stmt.covered c.store.tables.authSessions)) t)
      | some (.error _, t) => some (c.put i .failed t)
      | none => none
    | _ => none
  | .commit i, c =>
    match c.phase i, AuthSessions.commit.exec c.store with
    | .updated p row, some (_, t) =>
      some { c.put i .idle t with rotated := ⟨p.jti, row.id⟩ :: c.rotated }
    | .revoking [] ids, some (_, t) =>
      some { c.put i .idle t with revocations := ids :: c.revocations }
    | _, _ => none
  | .rollback i, c =>
    match c.phase i, AuthSessions.rollback.exec c.store with
    | .failed, some (_, t) => some (c.put i .idle t)
    | _, _ => none
  | .login userId refreshJwt deviceLabel ipHash uaHash ttl, c =>
    let row := loginRow env c.store userId refreshJwt deviceLabel ipHash uaHash ttl
    match (insertSession row).exec c.store.draw with
    | some (.ok (), t) => some ({ c with store := t }.bear row)
    | some (.error _, t) => some { c with store := t }
    | none => none
  | .revokeById sessionId, c =>
    some { c with store := c.store.revokeWhere (·.id == sessionId) }
  | .wait seconds, c => some { c with store := { c.store with now := c.store.now + seconds } }

/-! ## The law and its condition -/

/-- No active row has this id. -/
def RevokedIn (t : AuthTables) (id : String) : Prop :=
  ∀ row ∈ t.authSessions, row.id = id → row.revokedAt ≠ none

structure RotationOnce (c : AuthConfig ι) : Prop where
  once : (c.rotated.map RotatedSession.jti).Nodup
  dead : ∀ ids ∈ c.revocations, ∀ x ∈ c.rotated, x.jti ∈ ids → RevokedIn c.store.tables x.newId

/-- The row of the presented token is active when the successor is inserted. -/
def PresentedActive (l : AuthLabel ι) (c : AuthConfig ι) : Prop :=
  match l with
  | .insert i =>
    match c.phase i with
    | .begun p _ => ∃ row ∈ c.store.tables.authSessions, row.id = p.jti ∧ row.revokedAt = none
    | _ => True
  | _ => True

instance (l : AuthLabel ι) (c : AuthConfig ι) : Decidable (PresentedActive l c) :=
  match l with
  | .insert i =>
    match h : c.phase i with
    | .begun p _ => decidable_of_iff
        (∃ row ∈ c.store.tables.authSessions, row.id = p.jti ∧ row.revokedAt = none)
        (by simp [PresentedActive, h])
    | .idle | .checked _ _ | .minting _ _ | .minted _ _ | .inserted _ _ | .updated _ _ | .revoke _
    | .revoking _ _ | .failed => .isTrue (by simp [PresentedActive, h])
  | .present _ _ | .readVersion _ | .mint _ | .revokeCall _ _ | .beginTransaction _ | .update _
  | .revokeStmt _ | .commit _ | .rollback _ | .login _ _ _ _ _ _ | .revokeById _ | .wait _ =>
    .isTrue trivial

/-- No call is in progress. -/
structure AuthStart (env : AuthEnv) (c : AuthConfig ι) : Prop where
  idle : ∀ i, c.phase i = .idle
  saved : c.store.saved = none
  born : ∀ row ∈ c.store.tables.authSessions, c.born row.id = some (row.userId, row.familyId)
  fresh : ∀ n, c.store.drawn ≤ n → c.born (env.uuid4 n) = none
  rotated : c.rotated = []
  revocations : c.revocations = []

/-! ## What a run keeps -/

structure TablesOk (c : AuthConfig ι) (t : AuthTables) : Prop where
  born : ∀ row ∈ t.authSessions, c.born row.id = some (row.userId, row.familyId)
  rotated : ∀ x ∈ c.rotated, RevokedIn t x.jti
  revoked : ∀ ids ∈ c.revocations, ∀ id ∈ ids, RevokedIn t id
  dead : ∀ ids ∈ c.revocations, ∀ x ∈ c.rotated, x.jti ∈ ids → RevokedIn t x.newId

/-- The presented token has not been rotated, and no returned call has revoked it. -/
structure Unspent (c : AuthConfig ι) (p : Presented) (row : AuthSessionRow) : Prop where
  kin : c.born row.id = c.born p.jti
  born : c.born p.jti ≠ none
  rotated : p.jti ∉ c.rotated.map RotatedSession.jti
  revoked : ∀ ids ∈ c.revocations, p.jti ∉ ids

def AuthPhaseOk (env : AuthEnv) (c : AuthConfig ι) : AuthPhase → Prop
  | .checked p sess => c.born p.jti = some (p.userId, sess.familyId)
  | .minting p sess => c.born p.jti = some (p.userId, sess.familyId)
  | .minted p row | .begun p row =>
    c.born p.jti = some (row.userId, row.familyId) ∧ c.born row.id = none ∧
      ∀ n, c.store.drawn ≤ n → row.id ≠ env.uuid4 n
  | .inserted p row => Unspent c p row
  | .updated p row => Unspent c p row ∧ RevokedIn c.store.tables p.jti
  | .revoking _ ids =>
    (∀ id ∈ ids, c.born id ≠ none ∧ RevokedIn c.store.tables id) ∧
      ∀ x ∈ c.rotated, x.jti ∈ ids → RevokedIn c.store.tables x.newId
  | .idle | .revoke _ | .failed => True

structure AuthInv (env : AuthEnv) (c : AuthConfig ι) : Prop where
  tables : TablesOk c c.store.tables
  saved : ∀ t ∈ c.store.saved, TablesOk c t
  alone : ∀ i, (c.phase i).inTransaction = true → c.store.saved.isSome = true ∧
    ∀ k, (c.phase k).inTransaction = true → k = i
  fresh : ∀ n, c.store.drawn ≤ n → c.born (env.uuid4 n) = none
  kin : ∀ x ∈ c.rotated, c.born x.jti ≠ none ∧ c.born x.newId = c.born x.jti
  known : ∀ ids ∈ c.revocations, ∀ id ∈ ids, c.born id ≠ none
  once : (c.rotated.map RotatedSession.jti).Nodup
  phase : ∀ i, AuthPhaseOk env c (c.phase i)
  pending : ∀ i k id, (c.phase i).pending = some id → (c.phase k).pending = some id → i = k

omit [DecidableEq ι] in
theorem AuthStart.inv {env : AuthEnv} {c : AuthConfig ι} (h : AuthStart env c) : AuthInv env c where
  tables :=
    { born := h.born
      rotated := fun x hx => by rw [h.rotated] at hx; cases hx
      revoked := fun ids hids => by rw [h.revocations] at hids; cases hids
      dead := fun ids hids => by rw [h.revocations] at hids; cases hids }
  saved t ht := by rw [h.saved] at ht; cases ht
  alone i hi := by rw [h.idle i] at hi; cases hi
  fresh := h.fresh
  kin x hx := by rw [h.rotated] at hx; cases hx
  known ids hids := by rw [h.revocations] at hids; cases hids
  once := by rw [h.rotated]; exact List.nodup_nil
  phase i := by rw [h.idle i]; trivial
  pending i k id hi := by rw [h.idle i] at hi; cases hi

omit [DecidableEq ι] in
theorem AuthInv.rotationOnce {env : AuthEnv} {c : AuthConfig ι} (h : AuthInv env c) :
    RotationOnce c :=
  ⟨h.once, h.tables.dead⟩

/-! ### Tables that evolve -/

/-- Rows are revoked, never restored, and new rows have ids that were not in use. -/
def Evolves (born : String → Option (String × String)) (t t' : AuthTables) : Prop :=
  ∀ row' ∈ t'.authSessions, (∃ row ∈ t.authSessions, row.id = row'.id ∧ row.userId = row'.userId ∧
    row.familyId = row'.familyId ∧ (row.revokedAt ≠ none → row'.revokedAt ≠ none)) ∨
    born row'.id = none

theorem evolves_refl {born : String → Option (String × String)} {t t' : AuthTables}
    (h : t'.authSessions = t.authSessions) : Evolves born t t' :=
  fun row hrow => .inl ⟨row, h ▸ hrow, rfl, rfl, rfl, id⟩

theorem evolves_insert {born : String → Option (String × String)} {t t' : AuthTables}
    {row : AuthSessionRow} (h : t'.authSessions = t.authSessions ++ [row])
    (hrow : born row.id = none) : Evolves born t t' := by
  intro row' hrow'
  rw [h, List.mem_append, List.mem_singleton] at hrow'
  rcases hrow' with hrow' | rfl
  · exact .inl ⟨row', hrow', rfl, rfl, rfl, id⟩
  · exact .inr hrow

theorem mem_revokeWhere {s : AuthStore} {p : AuthSessionRow → Bool} {row' : AuthSessionRow}
    (h : row' ∈ (s.revokeWhere p).tables.authSessions) :
    ∃ row ∈ s.tables.authSessions, row.id = row'.id ∧ row.userId = row'.userId ∧
      row.familyId = row'.familyId ∧ (row.revokedAt ≠ none → row'.revokedAt ≠ none) ∧
      (p row = true → row'.revokedAt ≠ none) := by
  rcases Table.mem_updateWhere.mp h with ⟨row, hrow, -, rfl⟩ | ⟨hrow, hp⟩
  · exact ⟨row, hrow, rfl, rfl, rfl, fun _ => by simp, fun _ => by simp⟩
  · refine ⟨row', hrow, rfl, rfl, rfl, id, fun hpr hnone => ?_⟩
    simp [hpr, hnone] at hp

theorem evolves_revokeWhere {born : String → Option (String × String)} {s : AuthStore}
    {p : AuthSessionRow → Bool} : Evolves born s.tables (s.revokeWhere p).tables := fun _ hrow' => by
  obtain ⟨row, hrow, hid, hu, hf, hr, -⟩ := mem_revokeWhere hrow'
  exact .inl ⟨row, hrow, hid, hu, hf, hr⟩

theorem RevokedIn.evolves {born : String → Option (String × String)} {t t' : AuthTables} {id : String}
    (h : RevokedIn t id) (ht : Evolves born t t') (hid : born id ≠ none) : RevokedIn t' id := by
  intro row' hrow' he
  rcases ht row' hrow' with ⟨row, hrow, hrid, -, -, hr⟩ | hnew
  · exact hr (h row hrow (hrid.trans he))
  · exact absurd (he ▸ hnew) hid

section Moves

variable {env : AuthEnv} {c c' : AuthConfig ι}

omit [DecidableEq ι]

theorem AuthInv.newId_born (h : AuthInv env c) {x : RotatedSession} (hx : x ∈ c.rotated) :
    c.born x.newId ≠ none := by
  rw [(h.kin x hx).2]
  exact (h.kin x hx).1

theorem TablesOk.evolves {t t' : AuthTables} (h : TablesOk c t) (hi : AuthInv env c)
    (ht : Evolves c.born t t')
    (hborn : ∀ row ∈ t'.authSessions, c'.born row.id = some (row.userId, row.familyId))
    (hrot : c'.rotated = c.rotated) (hrev : c'.revocations = c.revocations) : TablesOk c' t' where
  born := hborn
  rotated x hx := by
    rw [hrot] at hx
    exact (h.rotated x hx).evolves ht (hi.kin x hx).1
  revoked ids hids id hid := by
    rw [hrev] at hids
    exact (h.revoked ids hids id hid).evolves ht (hi.known ids hids id hid)
  dead ids hids x hx hxi := by
    rw [hrev] at hids
    rw [hrot] at hx
    exact (h.dead ids hids x hx hxi).evolves ht (hi.newId_born hx)

theorem TablesOk.same {t : AuthTables} (h : TablesOk c t)
    (hborn : ∀ id v, c.born id = some v → c'.born id = some v)
    (hrot : c'.rotated = c.rotated) (hrev : c'.revocations = c.revocations) : TablesOk c' t where
  born row hrow := hborn _ _ (h.born row hrow)
  rotated x hx := h.rotated x (hrot ▸ hx)
  revoked ids hids := h.revoked ids (hrev ▸ hids)
  dead ids hids x hx := h.dead ids (hrev ▸ hids) x (hrot ▸ hx)

theorem TablesOk.keeps {t t' : AuthTables} (h : TablesOk c t) (hi : AuthInv env c)
    (ht : ∀ born, Evolves born t t') : TablesOk c t' := by
  refine h.evolves hi (ht _) (fun row' hrow' => ?_) rfl rfl
  rcases ht (fun _ => some ("", "")) row' hrow' with ⟨row, hrow, hid, hu, hf, -⟩ | hnone
  · have := h.born row hrow
    rwa [hid, hu, hf] at this
  · cases hnone

theorem Unspent.mono {p : Presented} {row : AuthSessionRow} (h : Unspent c p row)
    (hborn : ∀ id v, c.born id = some v → c'.born id = some v)
    (hrot : c'.rotated = c.rotated) (hrev : c'.revocations = c.revocations) : Unspent c' p row := by
  obtain ⟨v, hv⟩ := Option.ne_none_iff_exists'.mp h.born
  have hp := hborn _ _ hv
  have hrow := hborn _ _ (h.kin.trans hv)
  exact ⟨hrow.trans hp.symm, by rw [hp]; exact Option.some_ne_none v, hrot ▸ h.rotated,
    hrev ▸ h.revoked⟩

theorem AuthPhaseOk.mono {p : AuthPhase} (h : AuthPhaseOk env c p) (hi : AuthInv env c)
    (hborn : ∀ id v, c.born id = some v → c'.born id = some v)
    (hdrawn : c.store.drawn ≤ c'.store.drawn)
    (hpend : ∀ id, p.pending = some id → c'.born id = none)
    (ht : p.inTransaction = true → Evolves c.born c.store.tables c'.store.tables)
    (hrot : c'.rotated = c.rotated) (hrev : c'.revocations = c.revocations) :
    AuthPhaseOk env c' p := by
  have hsome : ∀ id, c.born id ≠ none → c'.born id ≠ none := fun id hid => by
    obtain ⟨v, hv⟩ := Option.ne_none_iff_exists'.mp hid
    rw [hborn _ _ hv]
    exact Option.some_ne_none v
  cases p with
  | idle => trivial
  | checked p sess => exact hborn _ _ h
  | minting p sess => exact hborn _ _ h
  | minted p row => exact ⟨hborn _ _ h.1, hpend _ rfl, fun n hn => h.2.2 n (Nat.le_trans hdrawn hn)⟩
  | begun p row => exact ⟨hborn _ _ h.1, hpend _ rfl, fun n hn => h.2.2 n (Nat.le_trans hdrawn hn)⟩
  | inserted p row => exact Unspent.mono h hborn hrot hrev
  | updated p row => exact ⟨h.1.mono hborn hrot hrev, h.2.evolves (ht rfl) h.1.born⟩
  | revoke r => trivial
  | revoking todo ids =>
    refine ⟨fun id hid => ⟨hsome id (h.1 id hid).1, (h.1 id hid).2.evolves (ht rfl) (h.1 id hid).1⟩,
      fun x hx hxi => ?_⟩
    rw [hrot] at hx
    exact (h.2 x hx hxi).evolves (ht rfl) (hi.newId_born hx)
  | failed => trivial

theorem AuthInv.pending_unborn (h : AuthInv env c) {k : ι} {id : String}
    (hid : (c.phase k).pending = some id) :
    c.born id = none ∧ ∀ n, c.store.drawn ≤ n → id ≠ env.uuid4 n := by
  have hok := h.phase k
  cases hp : c.phase k with
  | minted p row => rw [hp] at hok hid; cases hid; exact hok.2
  | begun p row => rw [hp] at hok hid; cases hid; exact hok.2
  | _ => rw [hp] at hid; cases hid

theorem AuthInv.move (h : AuthInv env c)
    (hphase : ∀ k, c'.phase k = c.phase k ∨ AuthPhaseOk env c' (c'.phase k))
    (hpend : ∀ k id, c'.phase k = c.phase k → (c.phase k).pending = some id → c'.born id = none)
    (hevolves : Evolves c.born c.store.tables c'.store.tables ∨
      ∀ k, c'.phase k = c.phase k → (c.phase k).inTransaction = false)
    (hborn : ∀ id v, c.born id = some v → c'.born id = some v)
    (hdrawn : c.store.drawn ≤ c'.store.drawn)
    (hfresh : ∀ n, c'.store.drawn ≤ n → c'.born (env.uuid4 n) = none)
    (htables : TablesOk c' c'.store.tables) (hsaved : ∀ t ∈ c'.store.saved, TablesOk c' t)
    (halone : ∀ i, (c'.phase i).inTransaction = true → c'.store.saved.isSome = true ∧
      ∀ k, (c'.phase k).inTransaction = true → k = i)
    (hpending : ∀ i k id, (c'.phase i).pending = some id → (c'.phase k).pending = some id → i = k)
    (hrot : c'.rotated = c.rotated) (hrev : c'.revocations = c.revocations) : AuthInv env c' where
  tables := htables
  saved := hsaved
  alone := halone
  fresh := hfresh
  kin x hx := by
    rw [hrot] at hx
    obtain ⟨hsome, hkin⟩ := h.kin x hx
    obtain ⟨v, hv⟩ := Option.ne_none_iff_exists'.mp hsome
    rw [hborn _ _ hv, hborn _ _ (hkin.trans hv)]
    exact ⟨Option.some_ne_none v, rfl⟩
  known ids hids id hid := by
    rw [hrev] at hids
    obtain ⟨v, hv⟩ := Option.ne_none_iff_exists'.mp (h.known ids hids id hid)
    rw [hborn _ _ hv]
    exact Option.some_ne_none v
  once := hrot ▸ h.once
  phase k := by
    rcases hphase k with he | hk
    · rw [he]
      refine (h.phase k).mono h hborn hdrawn (fun id hid => hpend k id he hid) (fun ht => ?_) hrot hrev
      rcases hevolves with hev | hno
      · exact hev
      · rw [hno k he] at ht
        cases ht
    · exact hk
  pending := hpending

end Moves

section Threads

variable {env : AuthEnv} {c : AuthConfig ι} {i : ι} {q : AuthPhase}

theorem AuthConfig.update_phase (c : AuthConfig ι) (i : ι) (q : AuthPhase) (k : ι) :
    k = i ∧ Function.update c.phase i q k = q ∨
      k ≠ i ∧ Function.update c.phase i q k = c.phase k := by
  by_cases hk : k = i
  · subst hk
    exact .inl ⟨rfl, Function.update_self ..⟩
  · exact .inr ⟨hk, Function.update_of_ne hk ..⟩

theorem AuthInv.put_pending (h : AuthInv env c)
    (hq : ∀ id, q.pending = some id → ∀ k, k ≠ i → (c.phase k).pending ≠ some id) :
    ∀ j k id, (Function.update c.phase i q j).pending = some id →
      (Function.update c.phase i q k).pending = some id → j = k := by
  intro j k id hj hk
  rcases c.update_phase i q j with ⟨hji, hjq⟩ | ⟨hji, hjo⟩ <;>
    rcases c.update_phase i q k with ⟨hki, hkq⟩ | ⟨hki, hko⟩
  · rw [hji, hki]
  · rw [hjq] at hj
    rw [hko] at hk
    exact absurd hk (hq id hj k hki)
  · rw [hjo] at hj
    rw [hkq] at hk
    exact absurd hj (hq id hk j hji)
  · rw [hjo] at hj
    rw [hko] at hk
    exact h.pending j k id hj hk

/-- The transaction, if `q` is in one, is the one that thread `i` has open. -/
theorem AuthInv.put_alone (h : AuthInv env c) {store : AuthStore}
    (hsaved : store.saved.isSome = c.store.saved.isSome)
    (hq : q.inTransaction = true → (c.phase i).inTransaction = true) :
    ∀ j, (Function.update c.phase i q j).inTransaction = true → store.saved.isSome = true ∧
      ∀ k, (Function.update c.phase i q k).inTransaction = true → k = j := by
  have hback : ∀ k, (Function.update c.phase i q k).inTransaction = true →
      (c.phase k).inTransaction = true := by
    intro k hk
    rcases c.update_phase i q k with ⟨rfl, hkq⟩ | ⟨-, hko⟩
    · exact hq (hkq ▸ hk)
    · exact hko ▸ hk
  intro j hj
  rw [hsaved]
  exact ⟨(h.alone j (hback j hj)).1, fun k hk => (h.alone j (hback j hj)).2 k (hback k hk)⟩

theorem AuthInv.puts (h : AuthInv env c) {store : AuthStore}
    (hq : AuthPhaseOk env (c.put i q store) q)
    (hpend : ∀ id, q.pending = some id → ∀ k, k ≠ i → (c.phase k).pending ≠ some id)
    (htrans : q.inTransaction = true → (c.phase i).inTransaction = true)
    (hevolves : ∀ born, Evolves born c.store.tables store.tables)
    (hsaved : store.saved = c.store.saved) (hdrawn : c.store.drawn ≤ store.drawn) :
    AuthInv env (c.put i q store) := by
  have htables : TablesOk (c.put i q store) store.tables :=
    (h.tables.keeps h hevolves).same (fun _ _ hv => hv) rfl rfl
  refine h.move (fun k => ?_) (fun k id _ hid => ?_) (.inl (hevolves _)) (fun _ _ hv => hv) hdrawn
    (fun n hn => h.fresh n (Nat.le_trans hdrawn hn)) htables (fun t ht => ?_)
    (h.put_alone (congrArg _ hsaved) htrans) (h.put_pending hpend) rfl rfl
  · rcases c.update_phase i q k with ⟨-, hk⟩ | ⟨-, hk⟩
    · right
      show AuthPhaseOk env _ (Function.update c.phase i q k)
      rw [hk]
      exact hq
    · exact .inl hk
  · exact (h.pending_unborn hid).1
  · have ht' : t ∈ c.store.saved := by rw [← hsaved]; exact ht
    exact (h.saved t ht').same (fun _ _ hv => hv) rfl rfl

theorem AuthInv.goes (h : AuthInv env c) (hq : AuthPhaseOk env (c.put i q c.store) q)
    (hpend : q.pending = none) (htrans : q.inTransaction = true → (c.phase i).inTransaction = true) :
    AuthInv env (c.put i q c.store) :=
  h.puts hq (fun id hid => by rw [hpend] at hid; cases hid) htrans (fun _ => evolves_refl rfl) rfl
    (Nat.le_refl _)

omit [DecidableEq ι] in
theorem AuthInv.outside (h : AuthInv env c) {store : AuthStore}
    (hevolves : ∀ born, Evolves born c.store.tables store.tables)
    (hsaved : store.saved = c.store.saved) (hdrawn : c.store.drawn ≤ store.drawn) :
    AuthInv env { c with store := store } := by
  have htables : TablesOk { c with store := store } store.tables :=
    (h.tables.keeps h hevolves).same (fun _ _ hv => hv) rfl rfl
  refine h.move (fun k => .inl rfl) (fun k id _ hid => (h.pending_unborn hid).1) (.inl (hevolves _))
    (fun _ _ hv => hv) hdrawn (fun n hn => h.fresh n (Nat.le_trans hdrawn hn)) htables
    (fun t ht => ?_) (fun j hj => ?_) h.pending rfl rfl
  · have ht' : t ∈ c.store.saved := by rw [← hsaved]; exact ht
    exact (h.saved t ht').same (fun _ _ hv => hv) rfl rfl
  · have := h.alone j hj
    rw [← hsaved] at this
    exact this

omit [DecidableEq ι] in
theorem AuthInv.births (h : AuthInv env c) {c' : AuthConfig ι} {row : AuthSessionRow}
    (hunborn : c.born row.id = none)
    (hrows : c'.store.tables.authSessions = c.store.tables.authSessions ++ [row])
    (hsaved : c'.store.saved = c.store.saved) (hdrawn : c.store.drawn ≤ c'.store.drawn)
    (hborn : c'.born = Function.update c.born row.id (some (row.userId, row.familyId)))
    (hfresh : ∀ n, c'.store.drawn ≤ n → row.id ≠ env.uuid4 n)
    (hphase : ∀ k, c'.phase k = c.phase k ∨ AuthPhaseOk env c' (c'.phase k))
    (hpend : ∀ k, c'.phase k = c.phase k → (c.phase k).pending ≠ some row.id)
    (halone : ∀ i, (c'.phase i).inTransaction = true → c'.store.saved.isSome = true ∧
      ∀ k, (c'.phase k).inTransaction = true → k = i)
    (hpending : ∀ i k id, (c'.phase i).pending = some id → (c'.phase k).pending = some id → i = k)
    (hrot : c'.rotated = c.rotated) (hrev : c'.revocations = c.revocations) : AuthInv env c' := by
  have hmono : ∀ id v, c.born id = some v → c'.born id = some v := by
    intro id v hv
    rw [hborn, Function.update_of_ne (fun he => by rw [he, hunborn] at hv; cases hv), hv]
  have hother : ∀ id, id ≠ row.id → c'.born id = c.born id := fun id hid => by
    rw [hborn, Function.update_of_ne hid]
  refine h.move hphase (fun k id he hid => ?_) (.inl (evolves_insert hrows hunborn)) hmono hdrawn
    (fun n hn => ?_) ?_ (fun t ht => ?_) halone hpending hrot hrev
  · rw [hother id fun heq => hpend k he (heq ▸ hid)]
    exact (h.pending_unborn hid).1
  · rw [hother _ (hfresh n hn).symm]
    exact h.fresh n (Nat.le_trans hdrawn hn)
  · refine h.tables.evolves h (evolves_insert hrows hunborn) (fun row' hrow' => ?_) hrot hrev
    rw [hrows, List.mem_append, List.mem_singleton] at hrow'
    rcases hrow' with hrow' | rfl
    · exact hmono _ _ (h.tables.born row' hrow')
    · rw [hborn, Function.update_self]
  · have ht' : t ∈ c.store.saved := by rw [← hsaved]; exact ht
    exact (h.saved t ht').same hmono hrot hrev

/-! ### The statements of a revocation -/

theorem Revocation.covers_eq (r : Revocation) {row row' : AuthSessionRow}
    (hu : row.userId = row'.userId) (hf : row.familyId = row'.familyId) :
    r.covers row = r.covers row' := by
  cases r <;> simp [Revocation.covers, hu, hf]

omit [DecidableEq ι] in
theorem AuthInv.revokedIn_covers (h : AuthInv env c) {r : Revocation} {row : AuthSessionRow}
    {id : String} (hrow : row ∈ c.store.tables.authSessions) (hr : r.covers row = true)
    (hid : c.born id = c.born row.id) : RevokedIn (c.store.revokeWhere r.covers).tables id := by
  intro row' hrow' he
  obtain ⟨row₀, hrow₀, hid₀, -, -, -, hrev⟩ := mem_revokeWhere hrow'
  refine hrev ?_
  have hkin := (h.tables.born row₀ hrow₀).symm.trans
    ((congrArg c.born (hid₀.trans he)).trans (hid.trans (h.tables.born row hrow)))
  obtain ⟨hu, hf⟩ := Prod.mk.inj (Option.some.inj hkin)
  rw [r.covers_eq hu hf, hr]

theorem AuthInv.revokes (h : AuthInv env c) {r : Revocation} {todo rest : List RevokeStmt}
    {ids : List String} (hi : c.phase i = .revoking todo ids) :
    AuthInv env (c.put i (.revoking rest
      (ids ++ (c.store.tables.authSessions.filter r.covers).map AuthSessionRow.id))
      (c.store.revokeWhere r.covers)) := by
  have hold := h.phase i
  rw [hi] at hold
  refine h.puts ⟨fun id hid => ?_, fun x hx hxi => ?_⟩ (fun id hid => by cases hid)
    (fun _ => by rw [hi]; rfl) (fun _ => evolves_revokeWhere) rfl (Nat.le_refl _)
  · rcases List.mem_append.mp hid with hid | hid
    · exact ⟨(hold.1 id hid).1, (hold.1 id hid).2.evolves evolves_revokeWhere (hold.1 id hid).1⟩
    · obtain ⟨row, hrow, rfl⟩ := List.mem_map.mp hid
      obtain ⟨hrow, hr⟩ := List.mem_filter.mp hrow
      refine ⟨?_, h.revokedIn_covers hrow hr rfl⟩
      show c.born row.id ≠ none
      rw [h.tables.born row hrow]
      exact Option.some_ne_none _
  · rcases List.mem_append.mp hxi with hxi | hxi
    · exact (hold.2 x hx hxi).evolves evolves_revokeWhere (h.newId_born hx)
    · obtain ⟨row, hrow, hid⟩ := List.mem_map.mp hxi
      obtain ⟨hrow, hr⟩ := List.mem_filter.mp hrow
      exact h.revokedIn_covers hrow hr (by rw [(h.kin x hx).2, hid])

theorem AuthInv.usersStmt (h : AuthInv env c) {todo rest : List RevokeStmt} {ids : List String}
    {store : AuthStore} (hi : c.phase i = .revoking todo ids)
    (hrows : store.tables.authSessions = c.store.tables.authSessions)
    (hsaved : store.saved = c.store.saved) (hdrawn : store.drawn = c.store.drawn) :
    AuthInv env (c.put i (.revoking rest (ids ++ [])) store) := by
  have hold := h.phase i
  rw [hi] at hold
  rw [List.append_nil]
  refine h.puts ⟨fun id hid => ?_, fun x hx hxi => ?_⟩ (fun id hid => by cases hid)
    (fun _ => by rw [hi]; rfl) (fun _ => evolves_refl hrows) hsaved (Nat.le_of_eq hdrawn.symm)
  · exact ⟨(hold.1 id hid).1, (hold.1 id hid).2.evolves (evolves_refl hrows) (hold.1 id hid).1⟩
  · exact (hold.2 x hx hxi).evolves (evolves_refl hrows) (h.newId_born hx)

/-! ### The ends of transactions -/

theorem AuthInv.begins (h : AuthInv env c) (hsaved : c.store.saved = none)
    (hq : AuthPhaseOk env (c.put i q { c.store with saved := some c.store.tables }) q)
    (hpend : ∀ id, q.pending = some id → (c.phase i).pending = some id) :
    AuthInv env (c.put i q { c.store with saved := some c.store.tables }) := by
  have hclosed : ∀ k, (c.phase k).inTransaction = false := by
    intro k
    cases hk : (c.phase k).inTransaction with
    | false => rfl
    | true =>
      have := (h.alone k hk).1
      rw [hsaved] at this
      cases this
  have halone : ∀ k, (Function.update c.phase i q k).inTransaction = true → k = i := by
    intro k hk
    rcases c.update_phase i q k with ⟨hki, -⟩ | ⟨-, hko⟩
    · exact hki
    · rw [hko, hclosed k] at hk
      cases hk
  refine h.move (fun k => ?_) (fun k id _ hid => (h.pending_unborn hid).1)
    (.inl (evolves_refl rfl)) (fun _ _ hv => hv) (Nat.le_refl _) h.fresh
    (h.tables.same (fun _ _ hv => hv) rfl rfl) (fun t ht => ?_)
    (fun j hj => ⟨rfl, fun k hk => (halone k hk).trans (halone j hj).symm⟩)
    (h.put_pending fun id hid k hk hkid => hk (h.pending k i id hkid (hpend id hid))) rfl rfl
  · rcases c.update_phase i q k with ⟨-, hk⟩ | ⟨-, hk⟩
    · right
      show AuthPhaseOk env _ (Function.update c.phase i q k)
      rw [hk]
      exact hq
    · exact .inl hk
  · cases Option.some.inj (Option.mem_def.mp ht)
    exact h.tables.same (fun _ _ hv => hv) rfl rfl

theorem AuthInv.closed (h : AuthInv env c) (hi : (c.phase i).inTransaction = true) (k : ι) :
    (Function.update c.phase i .idle k).inTransaction = false := by
  rcases c.update_phase i .idle k with ⟨-, hk⟩ | ⟨hki, hk⟩
  · rw [hk]
    rfl
  · rw [hk]
    cases ht : (c.phase k).inTransaction with
    | false => rfl
    | true => exact absurd ((h.alone i hi).2 k ht) hki

/-- The phases once thread `i` has left its transaction. -/
theorem AuthInv.phase_closed (h : AuthInv env c) {c' : AuthConfig ι}
    (hi : (c.phase i).inTransaction = true) (hphase : c'.phase = Function.update c.phase i .idle)
    (hborn : c'.born = c.born) (hdrawn : c'.store.drawn = c.store.drawn) (k : ι) :
    AuthPhaseOk env c' (c'.phase k) := by
  rw [hphase]
  rcases c.update_phase i .idle k with ⟨-, hk⟩ | ⟨hki, hk⟩
  · rw [hk]
    trivial
  · rw [hk]
    have hok := h.phase k
    have hout : (c.phase k).inTransaction = false := by
      have := h.closed hi k
      rwa [hk] at this
    cases hp : c.phase k with
    | idle => trivial
    | revoke r => trivial
    | failed => trivial
    | checked p sess => rw [hp] at hok; simpa [AuthPhaseOk, hborn] using hok
    | minting p sess => rw [hp] at hok; simpa [AuthPhaseOk, hborn] using hok
    | minted p row => rw [hp] at hok; simpa [AuthPhaseOk, hborn, hdrawn] using hok
    | begun p row => rw [hp] at hout; cases hout
    | inserted p row => rw [hp] at hout; cases hout
    | updated p row => rw [hp] at hout; cases hout
    | revoking todo ids => rw [hp] at hout; cases hout

theorem AuthInv.commitsRotation (h : AuthInv env c) {p : Presented} {row : AuthSessionRow}
    (hi : c.phase i = .updated p row) :
    AuthInv env { c.put i .idle { c.store with saved := none } with
      rotated := ⟨p.jti, row.id⟩ :: c.rotated } := by
  have hin : (c.phase i).inTransaction = true := by rw [hi]; rfl
  have hok := h.phase i
  rw [hi] at hok
  obtain ⟨hfree, hrevoked⟩ := hok
  refine
    { tables := ⟨h.tables.born, fun x hx => ?_, h.tables.revoked, fun ids hids x hx hxi => ?_⟩
      saved := fun t ht => by cases ht
      alone := fun j hj => absurd ((h.closed hin j).symm.trans hj) (by decide)
      fresh := h.fresh
      kin := fun x hx => ?_
      known := h.known
      once := List.nodup_cons.mpr ⟨hfree.rotated, h.once⟩
      phase := h.phase_closed hin rfl rfl rfl
      pending := h.put_pending fun id hid => by cases hid }
  · rcases List.mem_cons.mp hx with rfl | hx
    · exact hrevoked
    · exact h.tables.rotated x hx
  · rcases List.mem_cons.mp hx with rfl | hx
    · exact absurd hxi (hfree.revoked ids hids)
    · exact h.tables.dead ids hids x hx hxi
  · rcases List.mem_cons.mp hx with rfl | hx
    · exact ⟨hfree.born, hfree.kin⟩
    · exact h.kin x hx

theorem AuthInv.commitsRevocation (h : AuthInv env c) {ids : List String}
    (hi : c.phase i = .revoking [] ids) :
    AuthInv env { c.put i .idle { c.store with saved := none } with
      revocations := ids :: c.revocations } := by
  have hin : (c.phase i).inTransaction = true := by rw [hi]; rfl
  have hok := h.phase i
  rw [hi] at hok
  refine
    { tables := ⟨h.tables.born, h.tables.rotated, fun ids' hids => ?_, fun ids' hids => ?_⟩
      saved := fun t ht => by cases ht
      alone := fun j hj => absurd ((h.closed hin j).symm.trans hj) (by decide)
      fresh := h.fresh
      kin := h.kin
      known := fun ids' hids => ?_
      once := h.once
      phase := h.phase_closed hin rfl rfl rfl
      pending := h.put_pending fun id hid => by cases hid }
  · rcases List.mem_cons.mp hids with rfl | hids
    · exact fun id hid => (hok.1 id hid).2
    · exact h.tables.revoked ids' hids
  · rcases List.mem_cons.mp hids with rfl | hids
    · exact hok.2
    · exact h.tables.dead ids' hids
  · rcases List.mem_cons.mp hids with rfl | hids
    · exact fun id hid => (hok.1 id hid).1
    · exact h.known ids' hids

theorem AuthInv.rollsBack (h : AuthInv env c) (hi : c.phase i = .failed) :
    AuthInv env (c.put i .idle
      { c.store with tables := c.store.saved.getD c.store.tables, saved := none }) := by
  have hin : (c.phase i).inTransaction = true := by rw [hi]; rfl
  refine
    { tables := ?_
      saved := fun t ht => by cases ht
      alone := fun j hj => absurd ((h.closed hin j).symm.trans hj) (by decide)
      fresh := h.fresh
      kin := h.kin
      known := h.known
      once := h.once
      phase := h.phase_closed hin rfl rfl rfl
      pending := h.put_pending fun id hid => by cases hid }
  cases hs : c.store.saved with
  | none => exact h.tables.same (fun _ _ hv => hv) rfl rfl
  | some t => exact (h.saved t hs).same (fun _ _ hv => hv) rfl rfl

/-! ### Each label -/

theorem AuthInv.inserts (h : AuthInv env c) {p : Presented} {row : AuthSessionRow}
    (hi : c.phase i = .begun p row) (ha : PresentedActive (.insert i) c) :
    AuthInv env ((c.put i (.inserted p row)
      (c.store.setSessions (c.store.tables.authSessions ++ [row]))).bear row) := by
  have hok := h.phase i
  rw [hi] at hok
  obtain ⟨hjti, hunborn, hfresh⟩ := hok
  simp only [PresentedActive, hi] at ha
  obtain ⟨active, hactive, hid, hnone⟩ := ha
  have hne : p.jti ≠ row.id := fun he => by rw [he, hunborn] at hjti; cases hjti
  have hpend : (c.phase i).pending = some row.id := by rw [hi]; rfl
  have hfree : ∀ c' : AuthConfig ι,
      c'.born = Function.update c.born row.id (some (row.userId, row.familyId)) →
      c'.rotated = c.rotated → c'.revocations = c.revocations → Unspent c' p row := by
    intro c' hborn hrot hrev
    have hb : c'.born p.jti = some (row.userId, row.familyId) := by
      rw [hborn, Function.update_of_ne hne, hjti]
    refine ⟨by rw [hb, hborn, Function.update_self], by rw [hb]; exact Option.some_ne_none _, ?_, ?_⟩
    · rw [hrot]
      intro hmem
      obtain ⟨x, hx, hxj⟩ := List.mem_map.mp hmem
      exact h.tables.rotated x hx active hactive (hid.trans hxj.symm) hnone
    · rw [hrev]
      exact fun ids hids hmem => h.tables.revoked ids hids p.jti hmem active hactive hid hnone
  refine h.births hunborn rfl rfl (Nat.le_refl _) rfl hfresh (fun k => ?_) (fun k he hk => ?_)
    (h.put_alone rfl fun _ => by rw [hi]; rfl) (h.put_pending fun id hid => by cases hid) rfl rfl
  · rcases c.update_phase i (.inserted p row) k with ⟨-, hk⟩ | ⟨-, hk⟩
    · right
      show AuthPhaseOk env _ (Function.update c.phase i (.inserted p row) k)
      rw [hk]
      exact hfree _ rfl rfl rfl
    · exact .inl hk
  · have hki : k = i := h.pending k i row.id hk hpend
    rw [hki] at he
    have hmoved : AuthPhase.inserted p row = c.phase i := by
      rw [← he]
      exact (Function.update_self i (AuthPhase.inserted p row) c.phase).symm
    rw [hi] at hmoved
    cases hmoved

omit [DecidableEq ι] in
theorem AuthInv.logsIn (h : AuthInv env c) (hinj : Function.Injective env.uuid4)
    {row : AuthSessionRow} {store : AuthStore} (hid : row.id = env.uuid4 c.store.drawn)
    (hstore : store = c.store.draw.setSessions (c.store.tables.authSessions ++ [row])) :
    AuthInv env ({ c with store := store }.bear row) := by
  subst hstore
  have hunborn : c.born row.id = none := by
    rw [hid]
    exact h.fresh _ (Nat.le_refl _)
  have hnew : ∀ n, c.store.drawn + 1 ≤ n → row.id ≠ env.uuid4 n := fun n hn he => by
    have := hinj (hid.symm.trans he)
    omega
  exact h.births hunborn rfl rfl (Nat.le_succ _) rfl hnew (fun _ => .inl rfl)
    (fun k _ hk => (h.pending_unborn hk).2 _ (Nat.le_refl _) hid) h.alone h.pending rfl rfl

theorem AuthInv.runsStmt (h : AuthInv env c) {stmt : RevokeStmt} {todo : List RevokeStmt}
    {ids : List String} (hi : c.phase i = .revoking (stmt :: todo) ids)
    {r : Except AuthErr Unit} {t : AuthStore} (hr : stmt.run.exec c.store = some (r, t)) :
    (r = .ok () → AuthInv env
      (c.put i (.revoking todo (ids ++ stmt.covered c.store.tables.authSessions)) t)) ∧
    ((∃ e, r = .error e) → AuthInv env (c.put i .failed t)) := by
  cases stmt with
  | sessions rv =>
    have ht : r = .ok () ∧ t = c.store.revokeWhere rv.covers := by
      cases rv <;> (cases hr; exact ⟨rfl, rfl⟩)
    obtain ⟨rfl, rfl⟩ := ht
    exact ⟨fun _ => h.revokes hi, fun he => by obtain ⟨e, he⟩ := he; cases he⟩
  | bump userId =>
    have hrun : ∃ r', (r, t) = (r', c.store.updateUser userId fun x =>
        { x with tokenVersion := x.tokenVersion + 1 }) := by
      simp only [RevokeStmt.run, bumpTokenVersion, exec_bind, exec_act, Option.bind_some, thenExec]
        at hr
      cases hf : c.store.tables.users.find? (·.id == userId) with
      | none => simp only [hf, Option.map_none] at hr; cases hr; exact ⟨_, rfl⟩
      | some x => simp only [hf, Option.map_some] at hr; cases hr; exact ⟨_, rfl⟩
    obtain ⟨r', hrt⟩ := hrun
    cases hrt
    refine ⟨fun _ => h.usersStmt hi rfl rfl rfl, fun _ => ?_⟩
    exact h.puts trivial (fun id hid => by cases hid) (fun _ => by rw [hi]; rfl)
      (fun _ => evolves_refl rfl) rfl (Nat.le_refl _)
  | password userId pwHash =>
    cases hr
    exact ⟨fun _ => h.usersStmt hi rfl rfl rfl, fun he => by obtain ⟨e, he⟩ := he; cases he⟩
  | disable userId =>
    cases hr
    exact ⟨fun _ => h.usersStmt hi rfl rfl rfl, fun he => by obtain ⟨e, he⟩ := he; cases he⟩

theorem AuthInv.next {c' : AuthConfig ι} {l : AuthLabel ι} (h : AuthInv env c)
    (hinj : Function.Injective env.uuid4) (ha : PresentedActive l c)
    (hs : authStep env l c = some c') : AuthInv env c' := by
  cases l with
  | present i p =>
    simp only [authStep, selectSession, exec_query] at hs
    split at hs
    · rename_i row t _ hr
      cases hr
      cases hs
      cases hf : c.store.tables.authSessions.find? fun r => r.id == p.jti && r.userId == p.userId with
      | none => exact h.goes trivial rfl (fun hq => by cases hq)
      | some sess =>
        have hsess := List.find?_some hf
        simp only [Bool.and_eq_true, beq_iff_eq] at hsess
        have hborn := h.tables.born sess (List.mem_of_find?_eq_some hf)
        rw [hsess.1, hsess.2] at hborn
        simp only [presentedPhase]
        split_ifs
        · exact h.goes trivial rfl (fun hq => by cases hq)
        · exact h.goes trivial rfl (fun hq => by cases hq)
        · exact h.goes trivial rfl (fun hq => by cases hq)
        · exact h.goes trivial rfl (fun hq => by cases hq)
        · exact h.goes hborn rfl (fun hq => by cases hq)
    · cases hs
  | readVersion i =>
    simp only [authStep, selectTokenVersion, exec_query] at hs
    split at hs
    · rename_i p sess hi
      have hok := h.phase i
      rw [hi] at hok
      split at hs
      · rename_i hr
        simp only [Option.some.injEq, Prod.mk.injEq] at hr
        rw [← hr.2] at hs
        cases hs
        exact h.goes hok rfl (fun hq => by cases hq)
      · rename_i hr
        simp only [Option.some.injEq, Prod.mk.injEq] at hr
        rw [← hr.2] at hs
        cases hs
        exact h.goes trivial rfl (fun hq => by cases hq)
      · cases hs
    · cases hs
  | mint i =>
    simp only [authStep] at hs
    split at hs
    · rename_i p sess hi
      cases hs
      have hok := h.phase i
      rw [hi] at hok
      refine h.puts ⟨hok, h.fresh _ (Nat.le_refl _), fun n hn he => ?_⟩ (fun id hid k _ hk => ?_)
        (fun hq => by cases hq) (fun _ => evolves_refl rfl) rfl (Nat.le_succ _)
      · have hnew := hinj he
        have hn' : c.store.drawn + 1 ≤ n := hn
        omega
      · cases hid
        exact (h.pending_unborn hk).2 _ (Nat.le_refl _) rfl
    · cases hs
  | revokeCall i r =>
    simp only [authStep] at hs
    split at hs
    · cases hs
      exact h.goes trivial rfl (fun hq => by cases hq)
    · cases hs
  | beginTransaction i =>
    simp only [authStep, AuthSessions.beginTransaction, exec_actE] at hs
    split at hs
    · rename_i p row t hi hr
      cases hs
      have hok := h.phase i
      rw [hi] at hok
      split at hr
      · cases hr
      · rename_i hsaved
        cases hr
        exact h.begins (by simpa using hsaved) hok fun id hid => by rw [hi]; exact hid
    · rename_i p row e t hi hr
      cases hs
      split at hr
      · cases hr
        exact h.goes trivial rfl (fun hq => by cases hq)
      · cases hr
    · rename_i r t hi hr
      cases hs
      split at hr
      · cases hr
      · rename_i hsaved
        cases hr
        refine h.begins (by simpa using hsaved) ⟨fun id hid => (by cases hid), ?_⟩
          fun id hid => by cases hid
        exact fun x _ hx => by cases hx
    · rename_i r e t hi hr
      cases hs
      split at hr
      · cases hr
        exact h.goes trivial rfl (fun hq => by cases hq)
      · cases hr
    · cases hs
  | insert i =>
    simp only [authStep] at hs
    split at hs
    · rename_i p row hi
      rw [insertSession, exec_actE] at hs
      by_cases hdup : c.store.tables.authSessions.any (·.id == row.id) = true
      · simp only [if_pos hdup] at hs
        cases hs
        exact h.goes trivial rfl (fun _ => by rw [hi]; rfl)
      · simp only [if_neg hdup] at hs
        cases hs
        exact h.inserts hi ha
    · cases hs
  | update i =>
    simp only [authStep] at hs
    split at hs
    · rename_i p row hi
      cases hs
      have hok := h.phase i
      rw [hi] at hok
      refine h.puts ⟨Unspent.mono hok (fun _ _ hv => hv) rfl rfl, ?_⟩ (fun id hid => by cases hid)
        (fun _ => by rw [hi]; rfl) (fun _ => evolves_revokeWhere) rfl (Nat.le_refl _)
      intro row' hrow' he
      obtain ⟨row₀, _, hid, -, -, -, hrev⟩ := mem_revokeWhere hrow'
      exact hrev (by simp [hid, he])
    · cases hs
  | revokeStmt i =>
    simp only [authStep] at hs
    split at hs
    · rename_i stmt todo ids hi
      cases hr : stmt.run.exec c.store with
      | none => simp only [hr] at hs; cases hs
      | some rt =>
        obtain ⟨r, t⟩ := rt
        cases r with
        | ok u => simp only [hr] at hs; cases hs; exact (h.runsStmt hi hr).1 rfl
        | error e => simp only [hr] at hs; cases hs; exact (h.runsStmt hi hr).2 ⟨e, rfl⟩
    · cases hs
  | commit i =>
    simp only [authStep, AuthSessions.commit, exec_act] at hs
    split at hs
    · rename_i hi hr
      cases hr
      cases hs
      exact h.commitsRotation hi
    · rename_i hi hr
      cases hr
      cases hs
      exact h.commitsRevocation hi
    · cases hs
  | rollback i =>
    simp only [authStep, AuthSessions.rollback, exec_act] at hs
    split at hs
    · rename_i hi hr
      cases hr
      cases hs
      exact h.rollsBack hi
    · cases hs
  | login userId refreshJwt deviceLabel ipHash uaHash ttl =>
    simp only [authStep, insertSession, exec_actE] at hs
    split at hs
    · rename_i t hr
      cases hs
      split at hr
      · cases hr
      · cases hr
        exact h.logsIn hinj rfl rfl
    · rename_i e t hr
      cases hs
      split at hr
      · cases hr
        exact h.outside (fun _ => evolves_refl rfl) rfl (Nat.le_succ _)
      · cases hr
    · cases hs
  | revokeById sessionId =>
    cases hs
    exact h.outside (fun _ => evolves_revokeWhere) rfl (Nat.le_refl _)
  | wait seconds =>
    cases hs
    exact h.outside (fun _ => evolves_refl rfl) rfl (Nat.le_refl _)

/-- What holds after every run whose rotations find their row active. -/
theorem rotation_once {c₀ : AuthConfig ι} (hinj : Function.Injective env.uuid4)
    (h₀ : AuthStart env c₀) (h : Reaches (authStep env) PresentedActive c₀ c) : RotationOnce c :=
  (h.invariant h₀.inv fun _ _ _ hi ha hs => hi.next hinj ha hs).rotationOnce

end Threads

/-! ## The functions are runs -/

section Calls

variable {env : AuthEnv} {c : AuthConfig ι} {i : ι} {s : AuthStore}

/-- A run from `c` leads to a configuration with store `t` in which the phase of thread `i` is in
`P`. -/
abbrev AuthRunsTo (env : AuthEnv) (c : AuthConfig ι) (i : ι) (P : AuthPhase → Prop)
    (t : AuthStore) : Prop :=
  RunsTo (authStep env) (fun _ _ => True) AuthConfig.store c (fun c' => P (c'.phase i)) t

omit [DecidableEq ι] in
theorem wp_transaction {α : Type} {body : AuthM α} {Q : Except AuthErr α → AuthStore → Prop}
    (hnested : s.saved.isSome = true → Q (.error .nestedTransaction) s)
    (hbody : s.saved = none →
      wp (fun r t => match r with
        | .ok a => Q (.ok a) { t with saved := none }
        | .error e => Q (.error e) { t with tables := t.saved.getD t.tables, saved := none })
        body { s with saved := some s.tables }) : wp Q (transaction body) s := by
  rw [transaction, wp_bind, AuthSessions.beginTransaction, wp_actE]
  by_cases hs : s.saved.isSome = true
  · simp only [if_pos hs]
    exact hnested hs
  · simp only [if_neg hs]
    refine wp_bind.mpr (wp_attempt.mpr (wp_bind.mpr ?_))
    refine (hbody (by simpa using hs)).mono fun r t hr => ?_
    cases r with
    | ok a => exact ⟨rfl, hr⟩
    | error e => exact ⟨rfl, hr⟩

theorem AuthRunsTo.begins {p : Presented} {row : AuthSessionRow}
    (h : AuthRunsTo env c i (· = .minted p row) s) :
    (s.saved.isSome = true → AuthRunsTo env c i (· = .idle) s) ∧
      (s.saved = none → AuthRunsTo env c i (· = .begun p row) { s with saved := some s.tables }) := by
  constructor
  · intro hs
    refine h.next (l := .beginTransaction i) fun c' hc' hcs => ⟨trivial, ?_⟩
    subst hcs
    simp only [authStep, hc', AuthSessions.beginTransaction, exec_actE, if_pos hs]
    exact ⟨_, rfl, Function.update_self .., rfl⟩
  · intro hs
    refine h.next (l := .beginTransaction i) fun c' hc' hcs => ⟨trivial, ?_⟩
    subst hcs
    simp only [authStep, hc', AuthSessions.beginTransaction, exec_actE, hs, Option.isSome_none,
      Bool.false_eq_true, if_false]
    exact ⟨_, rfl, Function.update_self .., rfl⟩

theorem AuthRunsTo.beginsRevocation {r : Revocation} (h : AuthRunsTo env c i (· = .revoke r) s) :
    (s.saved.isSome = true → AuthRunsTo env c i (· = .idle) s) ∧
      (s.saved = none → AuthRunsTo env c i (fun q => ∃ ids, q = .revoking r.statements ids)
        { s with saved := some s.tables }) := by
  constructor
  · intro hs
    refine h.next (l := .beginTransaction i) fun c' hc' hcs => ⟨trivial, ?_⟩
    subst hcs
    simp only [authStep, hc', AuthSessions.beginTransaction, exec_actE, if_pos hs]
    exact ⟨_, rfl, Function.update_self .., rfl⟩
  · intro hs
    refine h.next (l := .beginTransaction i) fun c' hc' hcs => ⟨trivial, ?_⟩
    subst hcs
    simp only [authStep, hc', AuthSessions.beginTransaction, exec_actE, hs, Option.isSome_none,
      Bool.false_eq_true, if_false]
    exact ⟨_, rfl, ⟨_, Function.update_self ..⟩, rfl⟩

theorem AuthRunsTo.commits
    (h : AuthRunsTo env c i (fun q => ∃ ids, q = .revoking [] ids) s) :
    AuthRunsTo env c i (· = .idle) { s with saved := none } := by
  refine h.next (l := .commit i) fun c' hc' hcs => ⟨trivial, ?_⟩
  obtain ⟨ids, hc'⟩ := hc'
  subst hcs
  simp only [authStep, hc', AuthSessions.commit, exec_act]
  exact ⟨_, rfl, Function.update_self .., rfl⟩

theorem AuthRunsTo.rollsBack (h : AuthRunsTo env c i (· = .failed) s) :
    AuthRunsTo env c i (· = .idle)
      { s with tables := s.saved.getD s.tables, saved := none } := by
  refine h.next (l := .rollback i) fun c' hc' hcs => ⟨trivial, ?_⟩
  subst hcs
  simp only [authStep, hc', AuthSessions.rollback, exec_act]
  exact ⟨_, rfl, Function.update_self .., rfl⟩

omit [DecidableEq ι] in
theorem RevokeStmt.exec_run (stmt : RevokeStmt) (s : AuthStore) :
    ∃ r t, stmt.run.exec s = some (r, t) := by
  cases stmt with
  | sessions r => cases r <;> exact ⟨_, _, rfl⟩
  | bump userId =>
    simp only [RevokeStmt.run, bumpTokenVersion, exec_bind, exec_act, Option.bind_some, thenExec]
    cases s.tables.users.find? (·.id == userId) with
    | none => exact ⟨_, _, rfl⟩
    | some row => exact ⟨_, _, rfl⟩
  | password userId pwHash => exact ⟨_, _, rfl⟩
  | disable userId => exact ⟨_, _, rfl⟩

theorem AuthRunsTo.revokes {stmt : RevokeStmt} {todo : List RevokeStmt}
    (h : AuthRunsTo env c i (fun q => ∃ ids, q = .revoking (stmt :: todo) ids) s) :
    wp (fun r t => match r with
      | .ok _ => AuthRunsTo env c i (fun q => ∃ ids, q = .revoking todo ids) t
      | .error _ => AuthRunsTo env c i (· = .failed) t) stmt.run s := by
  have hnext : ∀ r t, stmt.run.exec s = some (r, t) → match r with
      | .ok _ => AuthRunsTo env c i (fun q => ∃ ids, q = .revoking todo ids) t
      | .error _ => AuthRunsTo env c i (· = .failed) t := by
    intro r t hr
    cases r with
    | ok u =>
      refine h.next (l := .revokeStmt i) fun c' hc' hcs => ⟨trivial, ?_⟩
      obtain ⟨ids, hc'⟩ := hc'
      subst hcs
      simp only [authStep, hc', hr]
      exact ⟨_, rfl, ⟨_, Function.update_self ..⟩, rfl⟩
    | error e =>
      refine h.next (l := .revokeStmt i) fun c' hc' hcs => ⟨trivial, ?_⟩
      obtain ⟨ids, hc'⟩ := hc'
      subst hcs
      simp only [authStep, hc', hr]
      exact ⟨_, rfl, Function.update_self .., rfl⟩
  obtain ⟨r, t, hr⟩ := stmt.exec_run s
  exact wp_iff.mpr ⟨r, t, hr, hnext r t hr⟩

theorem AuthRunsTo.revocation {α : Type} {r : Revocation} {body : AuthM α}
    (h : AuthRunsTo env c i (· = .revoke r) s)
    (hbody : ∀ t, AuthRunsTo env c i (fun q => ∃ ids, q = .revoking r.statements ids) t →
      wp (fun x t => match x with
        | .ok _ => AuthRunsTo env c i (fun q => ∃ ids, q = .revoking [] ids) t
        | .error _ => AuthRunsTo env c i (· = .failed) t) body t) :
    wp (fun _ t => AuthRunsTo env c i (· = .idle) t) (transaction body) s := by
  refine wp_transaction h.beginsRevocation.1 fun hs => ?_
  refine (hbody _ (h.beginsRevocation.2 hs)).mono fun x t hx => ?_
  cases x with
  | ok a => exact hx.commits
  | error e => exact hx.rollsBack

theorem AuthRunsTo.revokeCall (h : AuthRunsTo env c i (· = .idle) s) (r : Revocation) :
    AuthRunsTo env c i (· = .revoke r) s := by
  refine h.next (l := .revokeCall i r) fun c' hc' hcs => ⟨trivial, ?_⟩
  subst hcs
  simp only [authStep, hc']
  exact ⟨_, rfl, Function.update_self .., rfl⟩

theorem handleReuse_runs {sess : AuthSessionRow}
    (h : AuthRunsTo env c i (· = .revoke (.reuse sess.familyId)) s) :
    wp (fun _ t => AuthRunsTo env c i (· = .idle) t) (handleReuse sess) s :=
  h.revocation fun _ ht => (AuthRunsTo.revokes ht).mono fun x t hx => by cases x <;> exact hx

theorem bumpTokenVersionAndRevokeAllSessions_runs (h : AuthRunsTo env c i (· = .idle) s)
    (userId : String) :
    wp (fun _ t => AuthRunsTo env c i (· = .idle) t)
      (bumpTokenVersionAndRevokeAllSessions userId) s := by
  refine (h.revokeCall (.all userId)).revocation fun t ht => ?_
  have hbump := AuthRunsTo.revokes ht
  simp only [RevokeStmt.run, bumpTokenVersion, wp_bind, wp_act, seqPost] at hbump ⊢
  cases hf : t.tables.users.find? (·.id == userId) with
  | none =>
    simp only [hf, Option.map_none] at hbump ⊢
    exact hbump
  | some row =>
    simp only [hf, Option.map_some] at hbump ⊢
    refine wp_bind.mpr ((AuthRunsTo.revokes hbump).mono fun x t hx => ?_)
    cases x <;> exact hx

theorem applyNewPassword_runs (h : AuthRunsTo env c i (· = .idle) s) (userId newPassword : String) :
    wp (fun _ t => AuthRunsTo env c i (· = .idle) t)
      (applyNewPassword env userId newPassword) s := by
  rw [applyNewPassword]
  split
  · exact h
  · refine (h.revokeCall (.password userId (env.hashPassword newPassword))).revocation
      fun t ht => wp_bind.mpr ((AuthRunsTo.revokes ht).mono fun x t hx => ?_)
    cases x with
    | ok u => exact AuthRunsTo.revokes hx
    | error e => exact hx

theorem setDisabled_runs (h : AuthRunsTo env c i (· = .idle) s) (userId : String) :
    wp (fun _ t => AuthRunsTo env c i (· = .idle) t) (setDisabled userId) s := by
  refine (h.revokeCall (.disable userId)).revocation
    fun t ht => wp_bind.mpr ((AuthRunsTo.revokes ht).mono fun x t hx => ?_)
  cases x with
  | ok u => exact AuthRunsTo.revokes hx
  | error e => exact hx

theorem AuthRunsTo.insertsRow {p : Presented} {row : AuthSessionRow}
    (h : AuthRunsTo env c i (· = .begun p row) s) :
    wp (fun r t => match r with
      | .ok _ => AuthRunsTo env c i (· = .inserted p row) t
      | .error _ => AuthRunsTo env c i (· = .failed) t) (insertSession row) s := by
  rw [insertSession, wp_actE]
  by_cases hdup : s.tables.authSessions.any (·.id == row.id) = true
  · simp only [if_pos hdup]
    refine h.next (l := .insert i) fun c' hc' hcs => ⟨trivial, ?_⟩
    subst hcs
    simp only [authStep, hc', insertSession, exec_actE, if_pos hdup]
    exact ⟨_, rfl, Function.update_self .., rfl⟩
  · simp only [if_neg hdup]
    refine h.next (l := .insert i) fun c' hc' hcs => ⟨trivial, ?_⟩
    subst hcs
    simp only [authStep, hc', insertSession, exec_actE, if_neg hdup]
    exact ⟨_, rfl, Function.update_self .., rfl⟩

theorem AuthRunsTo.rotates {p : Presented} {row : AuthSessionRow}
    (h : AuthRunsTo env c i (· = .minted p row) s) :
    wp (fun _ t => AuthRunsTo env c i (· = .idle) t)
      (transaction do insertSession row; AuthSessions.revokeById p.jti) s := by
  refine wp_transaction h.begins.1 fun hs => wp_bind.mpr ?_
  refine (AuthRunsTo.insertsRow (h.begins.2 hs)).mono fun r t hr => ?_
  cases r with
  | error e => exact hr.rollsBack
  | ok u =>
    have hupdated : AuthRunsTo env c i (· = .updated p row) (t.revokeWhere (·.id == p.jti)) := by
      refine RunsTo.next hr (l := .update i) fun c' hc' hcs => ⟨trivial, ?_⟩
      subst hcs
      simp only [authStep, hc']
      exact ⟨_, rfl, Function.update_self .., rfl⟩
    refine wp_act.mpr (hupdated.next (l := .commit i) fun c' hc' hcs => ⟨trivial, ?_⟩)
    rw [← hcs]
    simp only [authStep, hc', AuthSessions.commit, exec_act]
    exact ⟨_, rfl, Function.update_self .., rfl⟩

theorem rotateRefresh_runs (h : AuthRunsTo env c i (· = .idle) s) (userId jti refreshJwt : String)
    (refreshTtlSeconds : Nat) :
    wp (fun _ t => AuthRunsTo env c i (· = .idle) t)
      (rotateRefresh env userId jti refreshJwt refreshTtlSeconds) s := by
  let p : Presented := ⟨userId, jti, refreshJwt, refreshTtlSeconds⟩
  have hread : AuthRunsTo env c i (· = presentedPhase env s.now p
      (s.tables.authSessions.find? fun r => r.id == jti && r.userId == userId)) s := by
    refine h.next (l := .present i p) fun c' hc' hcs => ⟨trivial, ?_⟩
    subst hcs
    simp only [authStep, hc', selectSession, exec_query]
    exact ⟨_, rfl, Function.update_self .., rfl⟩
  unfold rotateRefresh
  refine wp_bind.mpr (wp_query.mpr ?_)
  simp only [seqPost]
  rw [wp_bind, selectSession, wp_query]
  simp only [seqPost]
  cases hf : s.tables.authSessions.find? fun r => r.id == jti && r.userId == userId with
  | none => exact h
  | some sess =>
    rw [hf] at hread
    simp only [presentedPhase] at hread
    by_cases hrev : sess.revokedAt.isSome = true
    · simp only [if_pos hrev] at hread ⊢
      by_cases hhash : env.hashRefreshPlaintext refreshJwt ≠ sess.refreshTokenHash
      · simp only [if_pos hhash]
        exact h
      · have hreuse : AuthRunsTo env c i (· = .revoke (.reuse sess.familyId)) s :=
          hread.mono fun _ hc' => Eq.trans hc' (if_neg hhash)
        simp only [if_neg hhash]
        refine wp_bind.mpr ((handleReuse_runs hreuse).mono fun r t ht => ?_)
        cases r <;> exact ht
    · simp only [if_neg hrev] at hread ⊢
      by_cases hexp : sess.expiresAt < s.now
      · simp only [if_pos hexp]
        exact h
      · simp only [if_neg hexp] at hread ⊢
        by_cases hhash : env.hashRefreshPlaintext refreshJwt ≠ sess.refreshTokenHash
        · simp only [if_pos hhash]
          exact h
        · have hchecked : AuthRunsTo env c i (· = .checked p sess) s :=
            hread.mono fun _ hc' => Eq.trans hc' (if_neg hhash)
          simp only [if_neg hhash]
          rw [wp_bind, selectTokenVersion, wp_query]
          simp only [seqPost]
          cases hu : s.tables.users.find? (·.id == userId) with
          | none => exact h
          | some user =>
            have hminting : AuthRunsTo env c i (· = .minting p sess) s := by
              refine hchecked.next (l := .readVersion i) fun c' hc' hcs => ⟨trivial, ?_⟩
              subst hcs
              simp only [authStep, hc', selectTokenVersion, exec_query, p, hu, Option.map_some]
              exact ⟨_, rfl, Function.update_self .., rfl⟩
            have hminted : AuthRunsTo env c i (· = .minted p (successor env sess userId
                (env.uuid4 s.drawn) (env.mintRefreshToken userId (env.uuid4 s.drawn) s.now)
                (s.now + refreshTtlSeconds))) s.draw := by
              refine hminting.next (l := .mint i) fun c' hc' hcs => ⟨trivial, ?_⟩
              subst hcs
              simp only [authStep, hc']
              exact ⟨_, rfl, Function.update_self .., rfl⟩
            simp only [Option.map_some, wp_bind, uuid4, wp_act, AuthSessions.clock, wp_query, seqPost]
            refine (AuthRunsTo.rotates hminted).mono fun r t ht => ?_
            cases r <;> exact ht

end Calls

end System

namespace RotationExample

def env : AuthEnv :=
  { uuid4 := fun n => String.ofList (List.replicate n 'u')
    hashRefreshPlaintext := id
    mintRefreshToken := fun _ jti _ => jti
    validPassword := fun _ => true
    hashPassword := id }

theorem uuid4_injective : Function.Injective env.uuid4 := by
  intro m n h
  have := congrArg (fun s => s.toList.length) h
  simpa [env] using this

def session : AuthSessionRow :=
  { id := "s", userId := "alice", familyId := "s", refreshTokenHash := "token", expiresAt := 9
    revokedAt := none, deviceLabel := "Desktop", ipHash := "", uaHash := "" }

def start : AuthConfig (Fin 2) :=
  { store :=
      { tables := { authSessions := [session], users := [⟨"alice", "", false, 1⟩] }
        saved := none, now := 1, drawn := 0 }
    phase := fun _ => .idle
    born := Function.update (fun _ => none) "s" (some ("alice", "s"))
    rotated := []
    revocations := [] }

theorem start_idle : AuthStart env start where
  idle _ := rfl
  saved := rfl
  born row hrow := by
    cases List.mem_singleton.mp hrow
    rfl
  fresh n _ := by
    have hne : env.uuid4 n ≠ "s" := fun h => by
      have hlist := congrArg String.toList h
      simp only [env, String.toList_ofList] at hlist
      have hs : 's' ∈ List.replicate n 'u' := by rw [hlist]; decide
      exact absurd (List.eq_of_mem_replicate hs) (by decide)
    exact Function.update_of_ne hne (some ("alice", "s")) fun _ => none
  rotated := rfl
  revocations := rfl

def presented : Presented := ⟨"alice", "s", "token", 60⟩

/-- The statements of a rotation, from the read to the end of the transaction. -/
def rotation (i : Fin 2) : List (AuthLabel (Fin 2)) :=
  [.readVersion i, .mint i, .beginTransaction i, .insert i, .update i, .commit i]

def reached (ls : List (AuthLabel (Fin 2))) : AuthConfig (Fin 2) :=
  (run (authStep env) ls start).getD start

theorem run_reached {ls : List (AuthLabel (Fin 2))}
    (h : (run (authStep env) ls start).isSome = true) :
    run (authStep env) ls start = some (reached ls) := by
  obtain ⟨c, hc⟩ := Option.isSome_iff_exists.mp h
  rw [reached, hc]
  rfl

end RotationExample

section Runs

open RotationExample

theorem rotateRefresh_runs_session :
    wp (fun _ t => AuthRunsTo env start 0 (· = .idle) t) (rotateRefresh env "alice" "s" "token" 60) start.store :=
  rotateRefresh_runs ⟨start, .start, rfl, rfl⟩ "alice" "s" "token" 60

/-- The token is rotated, then presented again: the reuse is detected. -/
theorem rotation_once_reused : RotationOnce (reached (.present 0 presented :: rotation 0 ++
    [.present 1 presented, .beginTransaction 1, .revokeStmt 1, .commit 1])) :=
  rotation_once uuid4_injective start_idle (run_reaches (run_reached (by decide)) (by decide))

/-- Two calls read the active row before either of them rotates: both return a session. And a
rotation that has read its row goes on after the password was changed: its session is active. -/
theorem rotation_not_once :
    (∃ c, Reaches (authStep env) (fun _ _ => True) start c ∧
      c.rotated.map RotatedSession.jti = ["s", "s"] ∧ ¬ RotationOnce c) ∧
    ∃ c, Reaches (authStep env) (fun _ _ => True) start c ∧ c.revocations = [["s"]] ∧
      c.rotated = [⟨"s", ""⟩] ∧
      (∃ row ∈ c.store.tables.authSessions, row.id = "" ∧ row.revokedAt = none) ∧
      ¬ RotationOnce c :=
  ⟨⟨reached ([.present 0 presented, .present 1 presented] ++ RotationExample.rotation 0 ++
        RotationExample.rotation 1),
      run_reaches (run_reached (by decide)) (by decide), by decide, fun h => absurd h.once (by decide)⟩,
    ⟨reached ([.present 0 presented, .revokeCall 1 (.password "alice" "new"), .beginTransaction 1,
        .revokeStmt 1, .revokeStmt 1, .commit 1] ++ RotationExample.rotation 0),
      run_reaches (run_reached (by decide)) (by decide), by decide, by decide, by decide, fun h =>
        absurd (h.dead ["s"] (by decide) ⟨"s", ""⟩ (by decide) (by decide)) (by
          simp only [RevokedIn]
          decide)⟩⟩

end Runs

end Lumogis
