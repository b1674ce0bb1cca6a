import Lumogis.RefreshRotation

/-!
# RefreshRoute

`POST /api/v1/auth/refresh`, with a log of the calls of `rotate_refresh`. Each call runs alone. When the
presented token is live, the call returns a successor that is live and the token is spent, or it
changes nothing.
-/

namespace Lumogis

open Prog AuthSessions

/-- A refresh JWT, and what `verify_refresh_token` reads in it. -/
structure RefreshToken where
  sub : String
  jti : String
  jwt : String
  deriving DecidableEq

/-- A call of `rotate_refresh`: the new session, or what was raised. -/
structure RotateCall where
  token : RefreshToken
  outcome : Except AuthErr String
  deriving DecidableEq

structure RefreshServer where
  store : AuthStore
  /-- The latest first. -/
  calls : List RotateCall := []

inductive RefreshReply where
  | session (token : RefreshToken)
  | refused (status : Nat)

/-- The status of the answer when `rotate_refresh` raises. -/
def rotationStatus : AuthErr → Nat
  | .refresh => 401
  | .refreshReuse => 401
  | _ => 500

/-- `refresh`. `verified` says whether the JWT verifies at this time. -/
def refresh (env : AuthEnv) (refreshTtlSeconds : Nat) (verified : Bool) (cookie : Option RefreshToken)
    (s : RefreshServer) : RefreshReply × RefreshServer :=
  match cookie with
  | none => (.refused 401, s)
  | some token =>
    if !verified then (.refused 401, s)
    else
      match s.store.tables.users.find? (·.id == token.sub) with
      | none => (.refused 401, s)
      | some user =>
        if user.disabled then (.refused 401, s)
        else
          match (rotateRefresh env token.sub token.jti token.jwt refreshTtlSeconds).exec s.store with
          | some (.ok (newSid, newRefresh, _), store) =>
            let s := { store := store, calls := ⟨token, .ok newSid⟩ :: s.calls }
            match store.tables.users.find? (·.id == token.sub) with
            | none => (.refused 401, s)
            | some _ => (.session ⟨token.sub, newSid, newRefresh⟩, s)
          | some (.error e, store) =>
            (.refused (rotationStatus e), { store := store, calls := ⟨token, .error e⟩ :: s.calls })
          | none => (.refused 500, s)

/-! ## Live and spent tokens -/

/-- The row of the token is active. -/
def RefreshToken.Live (t : RefreshToken) (env : AuthEnv) (s : AuthStore) : Prop :=
  ∃ row ∈ s.tables.authSessions, row.id = t.jti ∧ row.userId = t.sub ∧ row.revokedAt = none ∧
    row.refreshTokenHash = env.hashRefreshPlaintext t.jwt

/-- The row of the token is there and revoked. -/
structure RefreshToken.Spent (t : RefreshToken) (s : AuthStore) : Prop where
  mem : t.jti ∈ s.tables.authSessions.map AuthSessionRow.id
  revoked : RevokedIn s.tables t.jti

def RotateCall.rotated (c : RotateCall) : Bool := c.outcome.isOk

/-- No call presents a token that an earlier call has rotated, and none revokes a family for reuse. -/
structure NeverReused (calls : List RotateCall) : Prop where
  once : calls.Pairwise fun later earlier => earlier.rotated = true → later.token ≠ earlier.token
  kept : ∀ call ∈ calls, call.outcome ≠ .error .refreshReuse

/-- What holds of the server between two requests. -/
structure RefreshServer.Sound (s : RefreshServer) : Prop where
  closed : s.store.saved = none
  /-- The primary key. -/
  nodup : (s.store.tables.authSessions.map AuthSessionRow.id).Nodup
  spent : ∀ call ∈ s.calls, call.rotated = true → call.token.Spent s.store
  never : NeverReused s.calls

section Rotation

variable {env : AuthEnv} {t : RefreshToken} {s : AuthStore} {refreshTtlSeconds : Nat}

theorem RefreshToken.Live.not_spent (h : t.Live env s) : ¬ t.Spent s := by
  intro hspent
  obtain ⟨row, hrow, hid, -, hactive, -⟩ := h
  exact hspent.revoked row hrow hid hactive

theorem RefreshToken.Live.find (h : t.Live env s) (hnodup : (s.tables.authSessions.map AuthSessionRow.id).Nodup) :
    ∃ row, s.tables.authSessions.find? (fun r => r.id == t.jti && r.userId == t.sub) = some row ∧
      row.id = t.jti ∧ row.revokedAt = none ∧ row.refreshTokenHash = env.hashRefreshPlaintext t.jwt := by
  obtain ⟨row, hrow, hid, huser, hactive, hhash⟩ := h
  cases hfind : s.tables.authSessions.find? (fun r => r.id == t.jti && r.userId == t.sub) with
  | none =>
    have hno := List.find?_eq_none.mp hfind row hrow
    simp [hid, huser] at hno
  | some row' =>
    have hfound := List.find?_some hfind
    simp only [Bool.and_eq_true, beq_iff_eq] at hfound
    have hsame : row' = row :=
      List.inj_on_of_nodup_map hnodup (List.mem_of_find?_eq_some hfind) hrow (hfound.1.trans hid.symm)
    subst hsame
    exact ⟨row', rfl, hid, hactive, hhash⟩

/-- What a rotation leaves when the presented token is live. -/
inductive Rotated (env : AuthEnv) (t : RefreshToken) (s : AuthStore) :
    Except AuthErr (String × String × Nat) → AuthStore → Prop where
  | fresh (row : AuthSessionRow) (newRefresh : String) (tokenVersion : Nat) {s' : AuthStore}
    (hnew : row.id ∉ s.tables.authSessions.map AuthSessionRow.id) (huser : row.userId = t.sub)
    (hactive : row.revokedAt = none) (hhash : row.refreshTokenHash = env.hashRefreshPlaintext newRefresh)
    (hrows : s'.tables.authSessions = Table.updateWhere (fun r => r.id == t.jti && r.revokedAt.isNone)
      (fun r => { r with revokedAt := some s.now }) (s.tables.authSessions ++ [row]))
    (husers : s'.tables.users = s.tables.users) (hclosed : s'.saved = none) :
    Rotated env t s (.ok (row.id, newRefresh, tokenVersion)) s'
  | unchanged {e : AuthErr} {s' : AuthStore} (he : e ≠ .refreshReuse) (htables : s'.tables = s.tables)
    (hclosed : s'.saved = none) : Rotated env t s (.error e) s'

theorem rotateRefresh_live (h : t.Live env s) (hnodup : (s.tables.authSessions.map AuthSessionRow.id).Nodup)
    (hclosed : s.saved = none) :
    wp (Rotated env t s) (rotateRefresh env t.sub t.jti t.jwt refreshTtlSeconds) s := by
  obtain ⟨row, hfind, hid, hactive, hhash⟩ := h.find hnodup
  have hrefused : Rotated env t s (.error .refresh) s := .unchanged (by simp) rfl hclosed
  unfold rotateRefresh
  rw [wp_bind, AuthSessions.clock, wp_query]
  simp only [seqPost]
  rw [wp_bind, selectSession, wp_query]
  simp only [seqPost, hfind, hactive, Option.isSome_none, Bool.false_eq_true, if_false, hhash, ne_eq, not_true]
  by_cases hexp : row.expiresAt < s.now
  · rw [if_pos hexp]
    exact hrefused
  rw [if_neg hexp, wp_bind, selectTokenVersion, wp_query]
  simp only [seqPost]
  cases hu : s.tables.users.find? (·.id == t.sub) with
  | none => exact hrefused
  | some user =>
    simp only [Option.map_some, wp_bind, uuid4, wp_act, wp_query, seqPost]
    refine wp_transaction (fun hopen => ?_) fun _ => ?_
    · simp [hclosed] at hopen
    · rw [wp_bind, insertSession, wp_actE]
      generalize hrow : successor env row t.sub (env.uuid4 s.drawn)
        (env.mintRefreshToken t.sub (env.uuid4 s.drawn) s.now) (s.now + refreshTtlSeconds) = new
      by_cases htaken : s.tables.authSessions.any (·.id == new.id) = true
      · simp only [if_pos htaken]
        exact .unchanged (by simp) rfl rfl
      · simp only [if_neg htaken, seqPost, revokeById, wp_act]
        subst hrow
        refine wp_ret.mpr (Rotated.fresh (successor env row t.sub (env.uuid4 s.drawn)
          (env.mintRefreshToken t.sub (env.uuid4 s.drawn) s.now) (s.now + refreshTtlSeconds)) _ _
          (fun hmem => ?_) rfl rfl rfl rfl rfl rfl)
        obtain ⟨old, hold, he⟩ := List.mem_map.mp hmem
        exact htaken (List.any_eq_true.mpr ⟨old, hold, beq_iff_eq.mpr he⟩)

/-! ## The route -/

/-- The token that the client has after the answer to a request with `t`. -/
def RefreshReply.leaves (t : RefreshToken) : RefreshReply → RefreshToken
  | session token => token
  | refused _ => t

structure Refreshed (env : AuthEnv) (t : RefreshToken) (reply : RefreshReply) (server : RefreshServer) : Prop where
  sound : server.Sound
  live : (reply.leaves t).Live env server.store

variable {server : RefreshServer}

theorem NeverReused.call (h : server.Sound) (hlive : t.Live env server.store) {outcome : Except AuthErr String}
    (houtcome : outcome ≠ .error .refreshReuse) : NeverReused (⟨t, outcome⟩ :: server.calls) where
  once := by
    refine List.pairwise_cons.mpr ⟨fun earlier hearlier hrotated he => ?_, h.never.once⟩
    have hspent := h.spent earlier hearlier hrotated
    rw [← he] at hspent
    exact hlive.not_spent hspent
  kept call hcall := by
    rcases List.mem_cons.mp hcall with rfl | hcall
    · exact houtcome
    · exact h.never.kept call hcall

theorem RefreshServer.Sound.raised (h : server.Sound) (hlive : t.Live env server.store) {store : AuthStore}
    {e : AuthErr} (htables : store.tables = server.store.tables) (hclosed : store.saved = none)
    (he : e ≠ .refreshReuse) :
    RefreshServer.Sound { store := store, calls := ⟨t, .error e⟩ :: server.calls } where
  closed := hclosed
  nodup := by
    simp only [htables]
    exact h.nodup
  spent call hcall hrotated := by
    rcases List.mem_cons.mp hcall with rfl | hcall
    · cases hrotated
    · obtain ⟨hmem, hrevoked⟩ := h.spent call hcall hrotated
      constructor
      · simp only [htables]
        exact hmem
      · simp only [htables]
        exact hrevoked
  never := NeverReused.call h hlive fun heq => he (Except.error.inj heq)

section Successor

variable {row : AuthSessionRow} {store : AuthStore}
  (hrows : store.tables.authSessions = Table.updateWhere (fun r => r.id == t.jti && r.revokedAt.isNone)
    (fun r => { r with revokedAt := some server.store.now }) (server.store.tables.authSessions ++ [row]))

include hrows

theorem map_id_rotated : store.tables.authSessions.map AuthSessionRow.id =
    server.store.tables.authSessions.map AuthSessionRow.id ++ [row.id] := by
  rw [hrows, Table.updateWhere, List.map_map]
  have hid : (AuthSessionRow.id ∘ fun r : AuthSessionRow =>
      if (r.id == t.jti && r.revokedAt.isNone) = true then { r with revokedAt := some server.store.now } else r) =
        AuthSessionRow.id := by
    funext r
    simp only [Function.comp_apply]
    split <;> rfl
  rw [hid, List.map_append, List.map_singleton]

theorem spent_rotated {t' : RefreshToken} (hnew : row.id ∉ server.store.tables.authSessions.map AuthSessionRow.id)
    (h : t'.jti = t.jti ∧ t.jti ∈ server.store.tables.authSessions.map AuthSessionRow.id ∨
      t'.Spent server.store) : t'.Spent store := by
  have hmem : t'.jti ∈ server.store.tables.authSessions.map AuthSessionRow.id := by
    rcases h with ⟨he, hmem⟩ | h
    · rw [he]
      exact hmem
    · exact h.mem
  constructor
  · rw [map_id_rotated hrows]
    exact List.mem_append_left _ hmem
  · intro r hr hid hactive
    rw [hrows] at hr
    rcases Table.mem_updateWhere.mp hr with ⟨old, -, -, rfl⟩ | ⟨hr, hother⟩
    · cases hactive
    rcases List.mem_append.mp hr with hr | hr
    · rcases h with ⟨he, -⟩ | h
      · simp [hid, he, hactive] at hother
      · exact h.revoked r hr hid hactive
    · rw [List.mem_singleton.mp hr] at hid
      exact hnew (hid ▸ hmem)

theorem live_rotated (hnew : row.id ∉ server.store.tables.authSessions.map AuthSessionRow.id)
    (hlive : t.Live env server.store) {newRefresh : String} (huser : row.userId = t.sub)
    (hactive : row.revokedAt = none) (hhash : row.refreshTokenHash = env.hashRefreshPlaintext newRefresh) :
    RefreshToken.Live ⟨t.sub, row.id, newRefresh⟩ env store := by
  refine ⟨row, ?_, rfl, huser, hactive, hhash⟩
  rw [hrows]
  refine Table.mem_updateWhere.mpr (.inr ⟨List.mem_append_right _ (List.mem_singleton_self _), ?_⟩)
  have hne : row.id ≠ t.jti := by
    intro he
    obtain ⟨old, hold, hid, -⟩ := hlive
    exact hnew (List.mem_map.mpr ⟨old, hold, hid.trans he.symm⟩)
  simp [hne]

theorem RefreshServer.Sound.rotated (h : server.Sound) (hlive : t.Live env server.store)
    (hnew : row.id ∉ server.store.tables.authSessions.map AuthSessionRow.id) (hclosed : store.saved = none) :
    RefreshServer.Sound { store := store, calls := ⟨t, .ok row.id⟩ :: server.calls } where
  closed := hclosed
  nodup := by
    rw [map_id_rotated hrows]
    exact List.nodup_append.mpr ⟨h.nodup, List.nodup_singleton _, fun id hid id' hid' he => by
      rw [List.mem_singleton.mp hid'] at he
      exact hnew (he ▸ hid)⟩
  spent call hcall hrotated := by
    rcases List.mem_cons.mp hcall with rfl | hcall
    · obtain ⟨old, hold, hid, -⟩ := hlive
      exact spent_rotated hrows hnew (.inl ⟨rfl, List.mem_map.mpr ⟨old, hold, hid⟩⟩)
    · exact spent_rotated hrows hnew (.inr (h.spent call hcall hrotated))
  never := NeverReused.call h hlive fun heq => by cases heq

end Successor

theorem refresh_live (h : server.Sound) (hlive : t.Live env server.store) (verified : Bool) :
    Refreshed env t (refresh env refreshTtlSeconds verified (some t) server).1
      (refresh env refreshTtlSeconds verified (some t) server).2 := by
  have hsame (status : Nat) : Refreshed env t (.refused status) server := ⟨h, hlive⟩
  simp only [refresh]
  cases verified with
  | false => exact hsame 401
  | true =>
    simp only [Bool.not_true, Bool.false_eq_true, if_false]
    cases huser : server.store.tables.users.find? (·.id == t.sub) with
    | none => exact hsame 401
    | some user =>
      by_cases hdisabled : user.disabled = true
      · simp only [hdisabled, if_true]
        exact hsame 401
      simp only [hdisabled]
      have hwp : wp (Rotated env t server.store) (rotateRefresh env t.sub t.jti t.jwt refreshTtlSeconds)
          server.store := rotateRefresh_live hlive h.nodup h.closed
      obtain ⟨r, store, hexec, hrotated⟩ := wp_iff.mp hwp
      cases hrotated with
      | fresh row newRefresh tokenVersion hnew hrowUser hactive hhash hrows husers hclosed =>
        rw [← husers] at huser
        simp only [hexec, huser]
        exact ⟨h.rotated hrows hlive hnew hclosed, live_rotated hrows hnew hlive hrowUser hactive hhash⟩
      | unchanged he htables hclosed =>
        simp only [hexec]
        have hlive' : t.Live env store := by
          rw [RefreshToken.Live, htables]
          exact hlive
        exact ⟨h.raised hlive htables hclosed he, hlive'⟩

end Rotation

end Lumogis
