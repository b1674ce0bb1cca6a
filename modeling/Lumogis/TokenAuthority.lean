import Lumogis.AuthSessions
import Lumogis.TokenVersions

/-!
# TokenAuthority

What an access token may do against what its account is: login and refresh issue tokens that carry
the role and the version of the account, `require_admin` reads the role off the token, and only the
version ties it to the row. One call at a time, over any accounts; the caches of versions and of
session verdicts live on between the calls.

`Revoking`: no admin is demoted who still has a live token of the current version, and none is
deleted who has an unexpired token of a version that the cache still gives. In a run of such calls
`require_admin` accepts the tokens of active admins only (`authority_follows_account`).
-/

namespace Lumogis

open Labelled

structure AccessToken where
  userId : String
  role : Role
  tokenVersion : Nat
  /-- The `sid` claim. -/
  sid : String
  exp : Nat
  deriving DecidableEq

structure AuthoritySettings where
  tokens : TokenSettings
  /-- `sid_revocation_cache_ttl_seconds()`. -/
  sidTtl : Nat
  accessTtl : Nat
  refreshTtl : Nat

structure AuthorityEnv where
  sessions : AuthEnv
  lower : String → String
  /-- `_ph.verify`. -/
  verify : (passwordHash password : String) → Bool

structure Authority where
  users : Users
  sessions : List AuthSessionRow
  versions : TTLLRU Nat
  sids : TTLLRU Bool
  now : Nat
  issued : List AccessToken

def AuthSessionRow.revoked (now : Nat) (r : AuthSessionRow) : AuthSessionRow :=
  { r with revokedAt := some now }

/-- `is_session_revoked`: the row is missing, or revoked. -/
def isSessionRevoked (sessions : List AuthSessionRow) (sid userId : String) : Bool :=
  match sessions.find? fun r => r.id == sid && r.userId == userId with
  | none => true
  | some r => r.revokedAt.isSome

namespace Authority

/-! ## Requests -/

def sidMustDenyAccess (settings : AuthoritySettings) (sub sid : String) (s : Authority) :
    Bool × Authority :=
  let looked := s.sids.getFresh settings.sidTtl s.now sid
  match looked.1 with
  | some deny => (deny, { s with sids := looked.2 })
  | none =>
    let deny := isSessionRevoked s.sessions sid sub
    (deny, { s with sids :=
      if settings.sidTtl = 0 then looked.2 else looked.2.put s.now sid deny })

/-- `verify_token`, `jwt_revocation_failure_reason` and `require_admin`: whether the token is
accepted, and the caches after the request. -/
def requireAdmin (settings : AuthoritySettings) (t : AccessToken) (s : Authority) :
    Bool × Authority :=
  if t.exp ≤ s.now then (false, s)
  else
    let resolved := resolveCurrentTokenVersion settings.tokens s.users s.now t.userId s.versions
    let s := { s with versions := resolved.2 }
    let denied :=
      if t.tokenVersion = resolved.1 ∧ settings.tokens.requireSidRevocationCheck = true then
        s.sidMustDenyAccess settings t.userId t.sid
      else (false, s)
    ((jwtRevocationFailureReason settings.tokens (some t.tokenVersion) resolved.1 denied.1).isNone &&
      t.role == .admin, denied.2)

/-! ## Accounts and sessions -/

/-- The post-commit calls of `invalidate_sid_cache`. -/
def invalidateSids (sids : List String) (s : Authority) : Authority :=
  { s with sids := sids.foldl (fun c sid => c.invalidate sid) s.sids }

/-- Revokes the active sessions that satisfy `p`, and drops their cached verdicts. -/
def revoke (p : AuthSessionRow → Bool) (s : Authority) : Authority :=
  let active r := p r && r.revokedAt.isNone
  let sessions := Table.updateWhere active (AuthSessionRow.revoked s.now) s.sessions
  { s with sessions := sessions }.invalidateSids ((s.sessions.filter active).map AuthSessionRow.id)

def issue (settings : AuthoritySettings) (userId sid : String) (role : Role) (tokenVersion : Nat)
    (s : Authority) : Authority :=
  { s with issued := { userId := userId, role := role, tokenVersion := tokenVersion, sid := sid
                       exp := s.now + settings.accessTtl } :: s.issued }

/-- `_row_to_internal` reads `int(row.get("token_version") or 1)`. -/
def internalTokenVersion (r : AccountRow) : Nat := if r.tokenVersion = 0 then 1 else r.tokenVersion

def verifyCredentials (env : AuthorityEnv) (email password : String) (s : Authority) :
    Option (String × AccountRow) :=
  match s.users.entries.find? fun e => env.lower e.2.email == env.lower email with
  | none => none
  | some e =>
    if e.2.disabled then none
    else if env.verify e.2.passwordHash password then some (e.1, e.2) else none

/-- What the client sends along with a login. -/
structure Client where
  deviceLabel : String
  ipHash : String
  uaHash : String

def login (env : AuthorityEnv) (settings : AuthoritySettings) (email password sessionId : String)
    (client : Client) (s : Authority) : Authority :=
  match s.verifyCredentials env email password with
  | none => s
  | some (userId, r) =>
    let row : AuthSessionRow :=
      { id := sessionId, userId := userId, familyId := sessionId
        refreshTokenHash := env.sessions.hashRefreshPlaintext
          (env.sessions.mintRefreshToken userId sessionId s.now)
        expiresAt := s.now + settings.refreshTtl, revokedAt := none
        deviceLabel := client.deviceLabel, ipHash := client.ipHash, uaHash := client.uaHash }
    { s with sessions := s.sessions ++ [row] }.issue settings userId sessionId r.role
      (internalTokenVersion r)

/-- The route `refresh`, with `rotate_refresh`. -/
def refresh (env : AuthorityEnv) (settings : AuthoritySettings)
    (userId jti refreshJwt newId : String) (s : Authority) : Authority :=
  match s.users.lookup userId with
  | none => s
  | some user =>
    if user.disabled then s
    else
      match s.sessions.find? fun r => r.id == jti && r.userId == userId with
      | none => s
      | some sess =>
        let presentedHash := env.sessions.hashRefreshPlaintext refreshJwt
        if sess.revokedAt.isSome then
          if presentedHash ≠ sess.refreshTokenHash then s
          else s.revoke fun r => r.familyId == sess.familyId
        else if sess.expiresAt < s.now then s
        else if presentedHash ≠ sess.refreshTokenHash then s
        else
          let row := AuthSessions.successor env.sessions sess userId newId
            (env.sessions.mintRefreshToken userId newId s.now) (s.now + settings.refreshTtl)
          ({ s with sessions := s.sessions ++ [row] }.revoke fun r => r.id == jti).issue settings
            userId newId user.role user.tokenVersion

/-- The bumping calls, `set_disabled(user_id, True)` and `_apply_new_password`, when they run
alone. -/
def change (userId : String) (ch : Change) (s : Authority) : Authority :=
  let s := { s with users := ch.apply userId s.users }.revoke fun r => r.userId == userId
  { s with versions := s.versions.invalidate userId }

def applyNewPassword (env : AuthorityEnv) (userId newPassword : String) (s : Authority) : Authority :=
  if env.sessions.validPassword newPassword then
    s.change userId (.password (env.sessions.hashPassword newPassword))
  else s

/-- Drops the cached verdicts of the user's sessions, and deletes the sessions and the user. The
cached version stays. -/
def removeUser (userId : String) (s : Authority) : Authority :=
  let sids := (s.sessions.filter fun r => r.userId == userId).map AuthSessionRow.id
  { s.invalidateSids sids with
    sessions := Table.deleteWhere (fun r => r.userId == userId) s.sessions
    users := s.users.delete userId }

def deleteUser (userId : String) (s : Authority) : Authority :=
  match s.users.lookup userId with
  | none => s
  | some _ => s.removeUser userId

end Authority

inductive AuthorityLabel where
  | request (t : AccessToken)
  | login (email password sessionId : String) (client : Authority.Client)
  | refresh (userId jti refreshJwt newId : String)
  | updateRole (userId : String) (role : Role)
  | disable (userId : String)
  | enable (userId : String)
  | delete (userId : String)
  | password (userId newPassword : String)
  | tick

/-- No token and no session has the id. -/
def Authority.Unused (s : Authority) (sid : String) : Prop :=
  sid ∉ s.issued.map (·.sid) ∧ sid ∉ s.sessions.map AuthSessionRow.id

instance (s : Authority) (sid : String) : Decidable (s.Unused sid) :=
  inferInstanceAs (Decidable (_ ∧ _))

/-- Requests carry tokens that have been issued, and `uuid4` draws an unused id. -/
def authorityStep (env : AuthorityEnv) (settings : AuthoritySettings) :
    AuthorityLabel → Authority → Option Authority
  | .request t, s => if t ∈ s.issued then some (s.requireAdmin settings t).2 else none
  | .login email password sessionId client, s =>
    if s.Unused sessionId then some (s.login env settings email password sessionId client) else none
  | .refresh userId jti refreshJwt newId, s =>
    if s.Unused newId then some (s.refresh env settings userId jti refreshJwt newId) else none
  | .updateRole userId role, s => some { s with users := s.users.updateRole userId role }
  | .disable userId, s => some (s.change userId .disable)
  | .enable userId, s => some { s with users := s.users.enable userId }
  | .delete userId, s => some (s.deleteUser userId)
  | .password userId newPassword, s => some (s.applyNewPassword env userId newPassword)
  | .tick, s => some { s with now := s.now + 1 }

/-! ## The law and its condition -/

/-- `require_admin` accepts the issued tokens of active admins only. -/
def AuthorityFollows (settings : AuthoritySettings) (s : Authority) : Prop :=
  ∀ t ∈ s.issued, (s.requireAdmin settings t).1 = true →
    ∃ r, s.users.lookup t.userId = some r ∧ r.activeAdmin = true

/-- The session check stops the token. -/
def Authority.Denied (settings : AuthoritySettings) (s : Authority) (t : AccessToken) : Prop :=
  settings.tokens.requireSidRevocationCheck = true ∧ isSessionRevoked s.sessions t.sid t.userId = true

instance (settings : AuthoritySettings) (s : Authority) (t : AccessToken) :
    Decidable (s.Denied settings t) := inferInstanceAs (Decidable (_ ∧ _))

/-- Who is demoted has no admin token of the current version that is neither expired nor denied. Who
is deleted has no unexpired admin token of a version that the cache still gives, unless sessions are
checked. -/
def Revoking (settings : AuthoritySettings) (l : AuthorityLabel) (s : Authority) : Prop :=
  match l with
  | .updateRole userId .user => ∀ t ∈ s.issued, t.userId = userId → t.role = .admin →
    t.tokenVersion = s.users.versionOf userId → s.now < t.exp → s.Denied settings t
  | .delete userId => ∀ t ∈ s.issued, t.userId = userId → t.role = .admin → s.now < t.exp →
    (s.versions.getFresh settings.tokens.ttl s.now userId).1 = some t.tokenVersion →
      settings.tokens.requireSidRevocationCheck = true
  | _ => True

instance (settings : AuthoritySettings) (l : AuthorityLabel) (s : Authority) :
    Decidable (Revoking settings l s) :=
  match l with
  | .updateRole userId .user => inferInstanceAs (Decidable (∀ t ∈ s.issued, t.userId = userId →
      t.role = .admin → t.tokenVersion = s.users.versionOf userId → s.now < t.exp →
        s.Denied settings t))
  | .delete userId => inferInstanceAs (Decidable (∀ t ∈ s.issued, t.userId = userId →
      t.role = .admin → s.now < t.exp →
        (s.versions.getFresh settings.tokens.ttl s.now userId).1 = some t.tokenVersion →
          settings.tokens.requireSidRevocationCheck = true))
  | .updateRole _ .admin | .request _ | .login _ _ _ _ | .refresh _ _ _ _ | .disable _ | .enable _
  | .password _ _ | .tick => .isTrue trivial

/-- A new process: nothing is cached and nothing issued. Versions count from 1. -/
structure AuthorityStart (s : Authority) : Prop where
  version : ∀ userId r, s.users.lookup userId = some r → 1 ≤ r.tokenVersion
  versions : s.versions.data = ∅
  sids : s.sids.data = ∅
  issued : s.issued = []

/-! ## What a run keeps -/

/-- What is known of a token. -/
structure TokenOk (settings : AuthoritySettings) (s : Authority) (t : AccessToken) : Prop where
  pos : 1 ≤ t.tokenVersion
  version : ∀ r, s.users.lookup t.userId = some r → t.tokenVersion ≤ r.tokenVersion
  /-- A live admin token of the current version belongs to an active admin. -/
  role : ∀ r, s.users.lookup t.userId = some r → t.tokenVersion = r.tokenVersion →
    t.role = .admin → s.now < t.exp → ¬ s.Denied settings t → r.activeAdmin = true
  /-- The version of a deleted user's live admin token is not in the cache. -/
  gone : s.users.lookup t.userId = none → t.role = .admin → s.now < t.exp →
    ¬ s.Denied settings t → ∀ ts, s.versions.data.lookup t.userId = some (t.tokenVersion, ts) →
      settings.tokens.ttl ≠ 0 → settings.tokens.ttl < s.now - ts
  sid : s.sids.held t.sid = some false → isSessionRevoked s.sessions t.sid t.userId = false

structure AuthorityInv (settings : AuthoritySettings) (s : Authority) : Prop where
  pos : ∀ userId r, s.users.lookup userId = some r → 1 ≤ r.tokenVersion
  /-- The cached versions of those who are there are those of the rows. -/
  cached : ∀ userId r version, s.users.lookup userId = some r →
    s.versions.held userId = some version → version = r.tokenVersion
  tokens : ∀ t ∈ s.issued, TokenOk settings s t
  owner : ∀ t ∈ s.issued, ∀ t' ∈ s.issued, t.sid = t'.sid → t.userId = t'.userId
  known : ∀ sid deny, s.sids.held sid = some deny → sid ∈ s.issued.map (·.sid)

section Authorities

variable {settings : AuthoritySettings} {s s' : Authority} {t : AccessToken}

/-! ### Sessions -/

section Sessions

variable {sessions : List AuthSessionRow} {sid userId : String} {p : AuthSessionRow → Bool} {now : Nat}

theorem find?_revoke : (Table.updateWhere p (AuthSessionRow.revoked now) sessions).find?
    (fun r => r.id == sid && r.userId == userId) =
      (sessions.find? fun r => r.id == sid && r.userId == userId).map
        fun r => if p r then r.revoked now else r :=
  Table.find?_updateWhere fun _ => rfl

theorem isSessionRevoked_revoke (h : isSessionRevoked sessions sid userId = true) :
    isSessionRevoked (Table.updateWhere p (AuthSessionRow.revoked now) sessions) sid userId = true := by
  rw [isSessionRevoked] at h ⊢
  rw [find?_revoke]
  cases hr : sessions.find? fun r => r.id == sid && r.userId == userId with
  | none => rfl
  | some r =>
    rw [hr] at h
    simp only [Option.map_some]
    split
    · rfl
    · exact h

/-- Only the sessions that satisfy `p` are revoked. -/
theorem isSessionRevoked_revoke_of_not_mem (h : isSessionRevoked sessions sid userId = false)
    (hsid : sid ∉ (sessions.filter p).map AuthSessionRow.id) :
    isSessionRevoked (Table.updateWhere p (AuthSessionRow.revoked now) sessions) sid userId =
      false := by
  rw [isSessionRevoked] at h ⊢
  rw [find?_revoke]
  cases hr : sessions.find? fun r => r.id == sid && r.userId == userId with
  | none => rw [hr] at h; cases h
  | some r =>
    rw [hr] at h
    have hfound := List.find?_some hr
    have hmem := List.mem_of_find?_eq_some hr
    have hp : p r = false := by
      cases hp : p r with
      | false => rfl
      | true =>
        refine absurd (List.mem_map.mpr ⟨r, List.mem_filter.mpr ⟨hmem, hp⟩, ?_⟩) hsid
        simp only [Bool.and_eq_true, beq_iff_eq] at hfound
        exact hfound.1
    simp only [Option.map_some, hp]
    exact h

theorem mem_of_isSessionRevoked (h : isSessionRevoked sessions sid userId = false) :
    sid ∈ (sessions.filter fun r => r.userId == userId).map AuthSessionRow.id := by
  rw [isSessionRevoked] at h
  cases hr : sessions.find? fun r => r.id == sid && r.userId == userId with
  | none => rw [hr] at h; cases h
  | some r =>
    have hfound := List.find?_some hr
    simp only [Bool.and_eq_true, beq_iff_eq] at hfound
    refine List.mem_map.mpr ⟨r, List.mem_filter.mpr ⟨List.mem_of_find?_eq_some hr, ?_⟩, hfound.1⟩
    simp [hfound.2]

theorem isSessionRevoked_delete_self :
    isSessionRevoked (Table.deleteWhere (fun r => r.userId == userId) sessions) sid userId = true := by
  have hnone : (Table.deleteWhere (fun r => r.userId == userId) sessions).find?
      (fun r => r.id == sid && r.userId == userId) = none := by
    rw [List.find?_eq_none]
    intro r hr
    have hp := (Table.mem_deleteWhere.mp hr).2
    simp only [beq_eq_false_iff_ne] at hp
    simp [hp]
  rw [isSessionRevoked, hnone]

theorem isSessionRevoked_delete_ne {u : String} (hu : userId ≠ u) :
    isSessionRevoked (Table.deleteWhere (fun r => r.userId == u) sessions) sid userId =
      isSessionRevoked sessions sid userId := by
  rw [isSessionRevoked, isSessionRevoked, Table.deleteWhere, List.find?_filter]
  have hsame : (fun r : AuthSessionRow => (!(r.userId == u)) && (r.id == sid && r.userId == userId)) =
      fun r => r.id == sid && r.userId == userId := by
    funext r
    by_cases hr : r.userId = userId
    · simp [hr, hu]
    · simp [hr]
  simp only [Bool.decide_and, Bool.decide_eq_true, hsame]

theorem isSessionRevoked_append {row : AuthSessionRow} (hrow : row.id ≠ sid) :
    isSessionRevoked (sessions ++ [row]) sid userId = isSessionRevoked sessions sid userId := by
  rw [isSessionRevoked, isSessionRevoked, List.find?_append]
  have hnone : [row].find? (fun r => r.id == sid && r.userId == userId) = none := by
    simp [hrow]
  rw [hnone, Option.or_none]

end Sessions

theorem Authority.held_invalidateSids {sids : List String} {sid : String} {deny : Bool}
    (h : (s.invalidateSids sids).sids.held sid = some deny) :
    s.sids.held sid = some deny ∧ sid ∉ sids := by
  rw [invalidateSids] at h
  induction sids generalizing s with
  | nil => exact ⟨h, by simp⟩
  | cons x xs ih =>
    obtain ⟨hheld, hxs⟩ := ih (s := { s with sids := s.sids.invalidate x }) h
    rw [TTLLRU.held_invalidate] at hheld
    split at hheld
    · cases hheld
    · rename_i hx
      exact ⟨hheld, by simp [hx, hxs]⟩

/-! ### Each operation -/

theorem TokenOk.later (h : TokenOk settings s t) (hnow : s.now ≤ s'.now)
    (hrow : ∀ r', s'.users.lookup t.userId = some r' → ∃ r, s.users.lookup t.userId = some r ∧
      (r.tokenVersion < r'.tokenVersion ∨ r.tokenVersion = r'.tokenVersion ∧
        (t.tokenVersion = r.tokenVersion → t.role = .admin → s'.now < t.exp →
          ¬ s'.Denied settings t → r.activeAdmin = true → r'.activeAdmin = true)))
    (hgone : s'.users.lookup t.userId = none → s.users.lookup t.userId = none ∧
      ∀ e, s'.versions.data.lookup t.userId = some e → s.versions.data.lookup t.userId = some e)
    (hrevoked : isSessionRevoked s.sessions t.sid t.userId = true →
      isSessionRevoked s'.sessions t.sid t.userId = true)
    (hsid : s'.sids.held t.sid = some false → isSessionRevoked s'.sessions t.sid t.userId = false) :
    TokenOk settings s' t where
  pos := h.pos
  version r' hr' := by
    obtain ⟨r, hr, hlt | ⟨heq, -⟩⟩ := hrow r' hr'
    · have hle := h.version r hr
      omega
    · have hle := h.version r hr
      omega
  role r' hr' htv hrole hexp hdenied := by
    obtain ⟨r, hr, hlt | ⟨heq, hadmin⟩⟩ := hrow r' hr'
    · have hle := h.version r hr
      omega
    · have htv' : t.tokenVersion = r.tokenVersion := by omega
      refine hadmin htv' hrole hexp hdenied (h.role r hr htv' hrole (by omega) fun hd => ?_)
      exact hdenied ⟨hd.1, hrevoked hd.2⟩
  gone hnone hrole hexp hdenied ts hts httl := by
    obtain ⟨hold, hcache⟩ := hgone hnone
    have hlt := h.gone hold hrole (by omega) (fun hd => hdenied ⟨hd.1, hrevoked hd.2⟩) ts
      (hcache _ hts) httl
    omega
  sid := hsid

theorem AuthorityInv.sessions {sessions : List AuthSessionRow} {sids : TTLLRU Bool}
    (h : AuthorityInv settings s)
    (hrevoked : ∀ t ∈ s.issued, isSessionRevoked s.sessions t.sid t.userId = true →
      isSessionRevoked sessions t.sid t.userId = true)
    (hsid : ∀ t ∈ s.issued, sids.held t.sid = some false →
      isSessionRevoked sessions t.sid t.userId = false)
    (hknown : ∀ sid deny, sids.held sid = some deny → sid ∈ s.issued.map (·.sid)) :
    AuthorityInv settings { s with sessions := sessions, sids := sids } where
  pos := h.pos
  cached := h.cached
  tokens t ht := (h.tokens t ht).later (Nat.le_refl _)
    (fun r hr => ⟨r, hr, .inr ⟨rfl, fun _ _ _ _ hadmin => hadmin⟩⟩)
    (fun hnone => ⟨hnone, fun _ he => he⟩) (hrevoked t ht) (hsid t ht)
  owner := h.owner
  known := hknown

theorem AuthorityInv.revoke (h : AuthorityInv settings s) (p : AuthSessionRow → Bool) :
    AuthorityInv settings (s.revoke p) := by
  refine h.sessions (fun t _ hrev => isSessionRevoked_revoke hrev) (fun t ht hheld => ?_)
    fun sid deny hheld => ?_
  · obtain ⟨hold, hsid⟩ := Authority.held_invalidateSids (s := { s with sessions := _ }) hheld
    exact isSessionRevoked_revoke_of_not_mem ((h.tokens t ht).sid hold) hsid
  · exact h.known sid deny (Authority.held_invalidateSids (s := { s with sessions := _ }) hheld).1

theorem AuthorityInv.append (h : AuthorityInv settings s) (row : AuthSessionRow)
    (hunused : s.Unused row.id) :
    AuthorityInv settings { s with sessions := s.sessions ++ [row] } := by
  have hne : ∀ t ∈ s.issued, row.id ≠ t.sid := by
    intro t ht he
    exact hunused.1 (List.mem_map.mpr ⟨t, ht, he.symm⟩)
  refine h.sessions (fun t ht hrev => ?_) (fun t ht hheld => ?_) h.known
  · rwa [isSessionRevoked_append (hne t ht)]
  · rw [isSessionRevoked_append (hne t ht)]
    exact (h.tokens t ht).sid hheld

theorem AuthorityInv.issue (h : AuthorityInv settings s) {userId sid : String} {r : AccountRow}
    {version : Nat} (hr : s.users.lookup userId = some r) (henabled : r.disabled = false)
    (hversion : version = r.tokenVersion) (hsid : sid ∉ s.issued.map (·.sid)) :
    AuthorityInv settings (s.issue settings userId sid r.role version) where
  pos := h.pos
  cached := h.cached
  tokens t ht := by
    rcases List.mem_cons.mp ht with rfl | ht
    · subst hversion
      refine ⟨h.pos userId r hr, fun r' hr' => ?_, fun r' hr' _ hrole _ _ => ?_, fun hnone => ?_,
        fun hheld => absurd (h.known _ _ hheld) hsid⟩
      · cases hr.symm.trans hr'
        exact Nat.le_refl _
      · cases hr.symm.trans hr'
        have hadmin : r.role = .admin := hrole
        rw [AccountRow.activeAdmin, hadmin, henabled]
        rfl
      · cases hr.symm.trans hnone
    · have hok := h.tokens t ht
      exact ⟨hok.pos, hok.version, hok.role, hok.gone, hok.sid⟩
  owner t ht t' ht' he := by
    rcases List.mem_cons.mp ht with rfl | ht
    · rcases List.mem_cons.mp ht' with rfl | ht'
      · rfl
      · exact absurd (List.mem_map.mpr ⟨t', ht', he.symm⟩) hsid
    · rcases List.mem_cons.mp ht' with rfl | ht'
      · exact absurd (List.mem_map.mpr ⟨t, ht, he⟩) hsid
      · exact h.owner t ht t' ht' he
  known sid' deny hheld := List.mem_cons_of_mem _ (h.known sid' deny hheld)

theorem AuthorityInv.rows (h : AuthorityInv settings s) {users : Users} {versions : TTLLRU Nat}
    (hpos : ∀ userId r, users.lookup userId = some r → 1 ≤ r.tokenVersion)
    (hcached : ∀ userId r version, users.lookup userId = some r →
      versions.held userId = some version → version = r.tokenVersion)
    (hlookup : ∀ userId e, versions.data.lookup userId = some e →
      s.versions.data.lookup userId = some e)
    (hnone : ∀ userId, users.lookup userId = none → s.users.lookup userId = none)
    (hrow : ∀ t ∈ s.issued, ∀ r', users.lookup t.userId = some r' →
      ∃ r, s.users.lookup t.userId = some r ∧ (r.tokenVersion < r'.tokenVersion ∨
        r.tokenVersion = r'.tokenVersion ∧ (t.tokenVersion = r.tokenVersion → t.role = .admin →
          s.now < t.exp → ¬ s.Denied settings t → r.activeAdmin = true → r'.activeAdmin = true))) :
    AuthorityInv settings { s with users := users, versions := versions } where
  pos := hpos
  cached := hcached
  tokens t ht := (h.tokens t ht).later (Nat.le_refl _) (hrow t ht)
    (fun h' => ⟨hnone _ h', fun e he => hlookup _ e he⟩) id (h.tokens t ht).sid
  owner := h.owner
  known := h.known

theorem Users.lookup_update_none {userId u : String} {f : AccountRow → AccountRow} {users : Users}
    (h : (users.update userId f).lookup u = none) : users.lookup u = none := by
  rw [lookup_update] at h
  split at h
  · exact Option.map_eq_none_iff.mp h
  · exact h

/-- An `UPDATE` that keeps the version. -/
theorem AuthorityInv.update (h : AuthorityInv settings s) {userId : String}
    {f : AccountRow → AccountRow} (hversion : ∀ r, (f r).tokenVersion = r.tokenVersion)
    (hadmin : ∀ t ∈ s.issued, t.userId = userId → ∀ r, s.users.lookup userId = some r →
      t.tokenVersion = r.tokenVersion → t.role = .admin → s.now < t.exp → ¬ s.Denied settings t →
        r.activeAdmin = true → (f r).activeAdmin = true) :
    AuthorityInv settings { s with users := s.users.update userId f } := by
  have hrow : ∀ u r', (s.users.update userId f).lookup u = some r' →
      ∃ r, s.users.lookup u = some r ∧ r.tokenVersion = r'.tokenVersion ∧
        (u = userId ∧ r' = f r ∨ r' = r) := by
    intro u r' hr'
    rw [Users.lookup_update] at hr'
    split at hr'
    · rename_i hu
      obtain ⟨r, hr, rfl⟩ := Option.map_eq_some_iff.mp hr'
      exact ⟨r, hr, (hversion r).symm, .inl ⟨hu, rfl⟩⟩
    · exact ⟨r', hr', rfl, .inr rfl⟩
  refine h.rows (fun u r' hr' => ?_) (fun u r' version hr' hheld => ?_) (fun _ _ he => he)
    (fun u hu => Users.lookup_update_none hu) fun t ht r' hr' => ?_
  · obtain ⟨r, hr, hv, -⟩ := hrow u r' hr'
    have hpos := h.pos u r hr
    omega
  · obtain ⟨r, hr, hv, -⟩ := hrow u r' hr'
    rw [← hv]
    exact h.cached u r version hr hheld
  · obtain ⟨r, hr, hv, ⟨hu, rfl⟩ | rfl⟩ := hrow t.userId r' hr'
    · refine ⟨r, hr, .inr ⟨hv, ?_⟩⟩
      rw [hu] at hr
      exact hadmin t ht hu r hr
    · exact ⟨r', hr, .inr ⟨rfl, fun _ _ _ _ hadmin => hadmin⟩⟩

/-- An `UPDATE` that bumps the version, with the invalidation of the cached one. -/
theorem AuthorityInv.bump (h : AuthorityInv settings s) (userId : String) (change : Change) :
    AuthorityInv settings { s with
      users := change.apply userId s.users, versions := s.versions.invalidate userId } := by
  have hself : ∀ r', (change.apply userId s.users).lookup userId = some r' →
      ∃ r, s.users.lookup userId = some r ∧ r.tokenVersion < r'.tokenVersion := by
    intro r' hr'
    have hv := change.lookup_apply userId s.users
    rw [hr'] at hv
    obtain ⟨r, hr, he⟩ := Option.map_eq_some_iff.mp hv.symm
    exact ⟨r, hr, by omega⟩
  have hother : ∀ u, u ≠ userId → (change.apply userId s.users).lookup u = s.users.lookup u := by
    intro u hu
    cases change with
    | password pwHash => simp [Change.apply, Users.updatePassword, Users.lookup_update, hu]
    | disable => simp [Change.apply, Users.disable, Users.lookup_update, hu]
  refine h.rows (fun u r' hr' => ?_) (fun u r' version hr' hheld => ?_) (fun u e he => ?_)
    (fun u hu => ?_) fun t ht r' hr' => ?_
  · by_cases hu : u = userId
    · obtain ⟨r, hr, hlt⟩ := hself r' (hu ▸ hr')
      omega
    · rw [hother u hu] at hr'
      exact h.pos u r' hr'
  · rw [TTLLRU.held_invalidate] at hheld
    split at hheld
    · cases hheld
    · rename_i hu
      rw [hother u hu] at hr'
      exact h.cached u r' version hr' hheld
  · rw [TTLLRU.lookup_invalidate] at he
    split at he
    · cases he
    · exact he
  · cases change with
    | password pwHash => exact Users.lookup_update_none hu
    | disable => exact Users.lookup_update_none hu
  · by_cases hu : t.userId = userId
    · obtain ⟨r, hr, hlt⟩ := hself r' (hu ▸ hr')
      exact ⟨r, hu ▸ hr, .inl hlt⟩
    · rw [hother _ hu] at hr'
      exact ⟨r', hr', .inr ⟨rfl, fun _ _ _ _ hadmin => hadmin⟩⟩

theorem AuthorityInv.change (h : AuthorityInv settings s) (userId : String) (ch : Change) :
    AuthorityInv settings (s.change userId ch) :=
  (h.bump userId ch).revoke fun r => r.userId == userId

theorem AuthorityInv.remove (h : AuthorityInv settings s) {userId : String}
    (ha : Revoking settings (.delete userId) s) : AuthorityInv settings (s.removeUser userId) := by
  have hheld {sid deny} (h' : (s.removeUser userId).sids.held sid = some deny) :
      s.sids.held sid = some deny ∧
        sid ∉ (s.sessions.filter fun r => r.userId == userId).map AuthSessionRow.id :=
    Authority.held_invalidateSids (s := s) h'
  have hlookup (u : String) : (s.removeUser userId).users.lookup u =
      if u = userId then none else s.users.lookup u := Users.lookup_delete
  refine ⟨fun u r' hr' => ?_, fun u r' version hr' => ?_, fun t ht => ?_, h.owner,
    fun sid deny h' => h.known sid deny (hheld h').1⟩
  · rw [hlookup] at hr'
    split at hr'
    · cases hr'
    · exact h.pos u r' hr'
  · rw [hlookup] at hr'
    split at hr'
    · cases hr'
    · exact h.cached u r' version hr'
  · have hok := h.tokens t ht
    by_cases hu : t.userId = userId
    · subst hu
      have hnone : (s.removeUser t.userId).users.lookup t.userId = none := by
        rw [hlookup, if_pos rfl]
      have hdead : isSessionRevoked (s.removeUser t.userId).sessions t.sid t.userId = true :=
        isSessionRevoked_delete_self
      refine ⟨hok.pos, fun r hr => ?_, fun r hr => ?_, fun _ hrole hexp hdenied ts hts httl => ?_,
        fun h' => ?_⟩
      · cases hnone.symm.trans hr
      · cases hnone.symm.trans hr
      · refine Nat.lt_of_not_le fun hfresh => hdenied ⟨?_, hdead⟩
        refine ha t ht rfl hrole hexp (TTLLRU.getFresh_of_lookup hts httl hfresh)
      · obtain ⟨hold, hsid⟩ := hheld h'
        exact absurd (mem_of_isSessionRevoked (hok.sid hold)) hsid
    · have hsame : (s.removeUser userId).users.lookup t.userId = s.users.lookup t.userId := by
        rw [hlookup, if_neg hu]
      have hrevoked : isSessionRevoked (s.removeUser userId).sessions t.sid t.userId =
          isSessionRevoked s.sessions t.sid t.userId := isSessionRevoked_delete_ne hu
      refine hok.later (Nat.le_refl _) (fun r hr => ?_) (fun hnone => ?_) (fun h' => ?_) fun h' => ?_
      · exact ⟨r, hsame ▸ hr, .inr ⟨rfl, fun _ _ _ _ hadmin => hadmin⟩⟩
      · exact ⟨hsame ▸ hnone, fun _ he => he⟩
      · rwa [hrevoked]
      · rw [hrevoked]
        exact hok.sid (hheld h').1

theorem AuthorityInv.tick (h : AuthorityInv settings s) :
    AuthorityInv settings { s with now := s.now + 1 } where
  pos := h.pos
  cached := h.cached
  tokens t ht := (h.tokens t ht).later (Nat.le_succ _)
    (fun r hr => ⟨r, hr, .inr ⟨rfl, fun _ _ _ _ hadmin => hadmin⟩⟩)
    (fun hnone => ⟨hnone, fun _ he => he⟩) id (h.tokens t ht).sid
  owner := h.owner
  known := h.known

/-! ### Requests -/

theorem AuthorityInv.resolve (h : AuthorityInv settings s) (userId : String) :
    (∀ r, s.users.lookup userId = some r → (resolveCurrentTokenVersion settings.tokens s.users s.now
        userId s.versions).1 = r.tokenVersion) ∧
      AuthorityInv settings { s with versions := (resolveCurrentTokenVersion settings.tokens s.users
        s.now userId s.versions).2 } := by
  -- the cache stores what it stored, or the row that was selected
  have hkeep {versions : TTLLRU Nat} (hold : ∀ u e, versions.data.lookup u = some e →
      s.versions.data.lookup u = some e ∨
        ∃ r, s.users.lookup u = some r ∧ e.1 = r.tokenVersion) :
      AuthorityInv settings { s with versions := versions } := by
    refine ⟨h.pos, fun u r version hr hheld => ?_, fun t ht => ?_, h.owner, h.known⟩
    · obtain ⟨e, he, rfl⟩ := Option.map_eq_some_iff.mp hheld
      rcases hold u e he with hlookup | ⟨r', hr', hv⟩
      · refine h.cached u r e.1 hr ?_
        rw [TTLLRU.held, hlookup]
        rfl
      · cases hr.symm.trans hr'
        exact hv
    · have hok := h.tokens t ht
      refine hok.later (Nat.le_refl _) (fun r hr => ⟨r, hr, .inr ⟨rfl, fun _ _ _ _ ha => ha⟩⟩)
        (fun hnone => ⟨hnone, fun e he => ?_⟩) id hok.sid
      rcases hold t.userId e he with hlookup | ⟨r', hr', -⟩
      · exact hlookup
      · cases hr'.symm.trans hnone
  rw [resolveCurrentTokenVersion]
  cases hhit : (s.versions.getFresh settings.tokens.ttl s.now userId).1 with
  | some version =>
    refine ⟨fun r hr => h.cached userId r version hr (TTLLRU.held_of_hit hhit), ?_⟩
    exact hkeep fun u e he => .inl (TTLLRU.lookup_getFresh he)
  | none =>
    cases hrow : s.users.lookup userId with
    | none =>
      refine ⟨fun r hr => (by cases hr), ?_⟩
      exact hkeep fun u e he => .inl (TTLLRU.lookup_getFresh he)
    | some r =>
      refine ⟨fun r' hr' => by cases hr'; rfl, hkeep fun u e he => ?_⟩
      simp only at he
      split at he
      · exact .inl (TTLLRU.lookup_getFresh he)
      · have hput := TTLLRU.lookup_put he
        split at hput
        · rename_i hu
          cases hput
          exact .inr ⟨r, hu ▸ hrow, rfl⟩
        · exact .inl (TTLLRU.lookup_getFresh hput)

theorem AuthorityInv.sidMustDenyAccess (h : AuthorityInv settings s) (ht : t ∈ s.issued) :
    ((s.sidMustDenyAccess settings t.userId t.sid).1 = false →
        isSessionRevoked s.sessions t.sid t.userId = false) ∧
      AuthorityInv settings (s.sidMustDenyAccess settings t.userId t.sid).2 := by
  -- the cache stores what it stored, or the verdict on the session of `t`
  have hkeep {sids : TTLLRU Bool} (hold : ∀ sid deny, sids.held sid = some deny →
      s.sids.held sid = some deny ∨
        sid = t.sid ∧ deny = isSessionRevoked s.sessions t.sid t.userId) :
      AuthorityInv settings { s with sids := sids } := by
    refine h.sessions (fun _ _ => id) (fun t' ht' hheld => ?_) fun sid deny hheld => ?_
    · rcases hold t'.sid false hheld with hheld | ⟨hsid, hdeny⟩
      · exact (h.tokens t' ht').sid hheld
      · rw [hsid, h.owner t' ht' t ht hsid, ← hdeny]
    · rcases hold sid deny hheld with hheld | ⟨rfl, -⟩
      · exact h.known sid deny hheld
      · exact List.mem_map_of_mem ht
  have hlooked : ∀ sid deny, (s.sids.getFresh settings.sidTtl s.now t.sid).2.held sid = some deny →
      s.sids.held sid = some deny := by
    intro sid deny hheld
    obtain ⟨e, he, rfl⟩ := Option.map_eq_some_iff.mp hheld
    rw [TTLLRU.held, TTLLRU.lookup_getFresh he]
    rfl
  rw [Authority.sidMustDenyAccess]
  cases hhit : (s.sids.getFresh settings.sidTtl s.now t.sid).1 with
  | some deny =>
    refine ⟨fun hd => ?_, hkeep fun sid deny hheld => .inl (hlooked sid deny hheld)⟩
    cases hd
    exact (h.tokens t ht).sid (TTLLRU.held_of_hit hhit)
  | none =>
    refine ⟨id, hkeep fun sid deny hheld => ?_⟩
    split at hheld
    · exact .inl (hlooked sid deny hheld)
    · have hput := TTLLRU.held_put hheld
      split at hput
      · rename_i hsid
        cases hput
        exact .inr ⟨hsid, rfl⟩
      · exact .inl (hlooked sid deny hput)

theorem AuthorityInv.resolve_gone (h : AuthorityInv settings s) (ht : t ∈ s.issued)
    (hnone : s.users.lookup t.userId = none) (hrole : t.role = .admin) (hexp : s.now < t.exp)
    (htv : t.tokenVersion = (resolveCurrentTokenVersion settings.tokens s.users s.now t.userId
      s.versions).1) : s.Denied settings t := by
  have hok := h.tokens t ht
  rw [resolveCurrentTokenVersion] at htv
  cases hhit : (s.versions.getFresh settings.tokens.ttl s.now t.userId).1 with
  | some version =>
    rw [hhit] at htv
    obtain ⟨⟨ts, hlookup, httl, hfresh⟩, -⟩ := TTLLRU.getFresh_hit hhit
    have hversion : t.tokenVersion = version := htv
    subst hversion
    refine Decidable.byContradiction fun hdenied => ?_
    have hlt := hok.gone hnone hrole hexp hdenied ts hlookup httl
    omega
  | none =>
    rw [hhit, hnone] at htv
    have hzero : t.tokenVersion = 0 := htv
    have hpos := hok.pos
    omega

theorem AuthorityInv.requireAdmin (h : AuthorityInv settings s) (ht : t ∈ s.issued) :
    ((s.requireAdmin settings t).1 = true →
        ∃ r, s.users.lookup t.userId = some r ∧ r.activeAdmin = true) ∧
      AuthorityInv settings (s.requireAdmin settings t).2 := by
  rw [Authority.requireAdmin]
  split
  · exact ⟨fun ha => (by cases ha), h⟩
  · rename_i hexp
    obtain ⟨hrow, hresolved⟩ := h.resolve t.userId
    have hverdict := hresolved.sidMustDenyAccess (t := t) ht
    refine ⟨fun hacc => ?_, ?_⟩
    · obtain ⟨hreason, hrole⟩ := Bool.and_eq_true_iff.mp hacc
      obtain ⟨htv, hsid⟩ := jwtRevocationFailureReason_isNone.mp hreason
      have hadmin : t.role = .admin := by simpa using hrole
      have hlive : s.now < t.exp := Nat.lt_of_not_le hexp
      have hdenied : ¬ s.Denied settings t := by
        rintro ⟨hrequired, hrevoked⟩
        rw [if_pos ⟨htv, hrequired⟩, hrequired, Bool.true_and] at hsid
        exact absurd (hrevoked.symm.trans (hverdict.1 hsid)) (by simp)
      cases hlookup : s.users.lookup t.userId with
      | none => exact absurd (h.resolve_gone ht hlookup hadmin hlive htv) hdenied
      | some r =>
        refine ⟨r, rfl, (h.tokens t ht).role r hlookup ?_ hadmin hlive hdenied⟩
        rw [htv, hrow r hlookup]
    · show AuthorityInv settings (ite _ _ _ : Bool × Authority).2
      split
      · exact hverdict.2
      · exact hresolved

/-! ### Logins and refreshes -/

theorem Authority.verifyCredentials_some {env : AuthorityEnv} {email password userId : String}
    {r : AccountRow} (h : s.verifyCredentials env email password = some (userId, r)) :
    s.users.lookup userId = some r ∧ r.disabled = false := by
  rw [verifyCredentials] at h
  split at h
  · cases h
  · rename_i e hfind
    split at h
    · cases h
    · rename_i henabled
      split at h
      · cases h
        have hmem := List.mem_of_find?_eq_some hfind
        exact ⟨AList.mem_lookup_iff.mpr hmem, by simpa using henabled⟩
      · cases h

theorem AuthorityInv.login {env : AuthorityEnv} {email password sessionId : String}
    {client : Authority.Client} (h : AuthorityInv settings s) (hunused : s.Unused sessionId) :
    AuthorityInv settings (s.login env settings email password sessionId client) := by
  rw [Authority.login]
  cases hv : s.verifyCredentials env email password with
  | none => exact h
  | some u =>
    obtain ⟨userId, r⟩ := u
    obtain ⟨hr, henabled⟩ := Authority.verifyCredentials_some hv
    have hversion : Authority.internalTokenVersion r = r.tokenVersion := by
      have hpos := h.pos userId r hr
      rw [Authority.internalTokenVersion, if_neg (by omega)]
    exact (h.append { id := sessionId, userId := userId, familyId := sessionId
                      refreshTokenHash := _, expiresAt := _, revokedAt := none
                      deviceLabel := _, ipHash := _, uaHash := _ } hunused).issue
      hr henabled hversion hunused.1

theorem AuthorityInv.refresh {env : AuthorityEnv} {userId jti refreshJwt newId : String}
    (h : AuthorityInv settings s) (hunused : s.Unused newId) :
    AuthorityInv settings (s.refresh env settings userId jti refreshJwt newId) := by
  rw [Authority.refresh]
  cases hr : s.users.lookup userId with
  | none => exact h
  | some user =>
    simp only
    split
    · exact h
    · rename_i henabled
      split
      · exact h
      · rename_i sess _
        split
        · split
          · exact h
          · exact h.revoke _
        · split
          · exact h
          · split
            · exact h
            · exact ((h.append (AuthSessions.successor env.sessions sess userId newId _ _)
                hunused).revoke fun r => r.id == jti).issue hr (by simpa using henabled) rfl hunused.1

/-! ## Runs -/

theorem AuthorityInv.next {env : AuthorityEnv} {l : AuthorityLabel} (h : AuthorityInv settings s)
    (ha : Revoking settings l s) (hs : authorityStep env settings l s = some s') :
    AuthorityInv settings s' := by
  cases l with
  | request t =>
    simp only [authorityStep] at hs
    split at hs
    · rename_i ht
      cases hs
      exact (h.requireAdmin ht).2
    · cases hs
  | login email password sessionId client =>
    simp only [authorityStep] at hs
    split at hs
    · rename_i hunused
      cases hs
      exact h.login hunused
    · cases hs
  | refresh userId jti refreshJwt newId =>
    simp only [authorityStep] at hs
    split at hs
    · rename_i hunused
      cases hs
      exact h.refresh hunused
    · cases hs
  | updateRole userId role =>
    cases hs
    refine h.update (fun _ => rfl) fun t ht hu r hr htv hrole hexp hdenied hadmin => ?_
    cases role with
    | admin =>
      simp only [AccountRow.activeAdmin] at hadmin ⊢
      simp_all
    | user =>
      refine absurd (ha t ht hu hrole ?_ hexp) hdenied
      rw [htv, Users.versionOf, hr]
      rfl
  | disable userId =>
    cases hs
    exact h.change userId .disable
  | enable userId =>
    cases hs
    refine h.update (fun _ => rfl) fun t _ _ r _ _ _ _ _ hadmin => ?_
    simp only [AccountRow.activeAdmin] at hadmin ⊢
    simp_all
  | delete userId =>
    cases hs
    rw [Authority.deleteUser]
    split
    · exact h
    · exact h.remove ha
  | password userId newPassword =>
    cases hs
    rw [Authority.applyNewPassword]
    split
    · exact h.change userId _
    · exact h
  | tick =>
    cases hs
    exact h.tick

theorem AuthorityStart.inv (h : AuthorityStart s) : AuthorityInv settings s where
  pos := h.version
  cached userId r version _ hheld := by
    rw [TTLLRU.held, h.versions] at hheld
    cases hheld
  tokens t ht := by
    rw [h.issued] at ht
    cases ht
  owner t ht := by
    rw [h.issued] at ht
    cases ht
  known sid deny hheld := by
    rw [TTLLRU.held, h.sids] at hheld
    cases hheld

/-- In a run of revoking calls `require_admin` accepts the tokens of active admins only. -/
theorem authority_follows_account {env : AuthorityEnv} (hs : AuthorityStart s)
    (h : Reaches (authorityStep env settings) (Revoking settings) s s') :
    AuthorityFollows settings s' := by
  have hinv : AuthorityInv settings s' :=
    h.invariant hs.inv fun _ _ _ hi ha ht => hi.next ha ht
  intro t ht hacc
  exact (hinv.requireAdmin ht).1 hacc

end Authorities

namespace AuthorityExample

def env : AuthorityEnv :=
  { sessions :=
      { uuid4 := fun _ => "", hashRefreshPlaintext := id, mintRefreshToken := fun _ jti _ => jti
        validPassword := fun _ => true, hashPassword := id }
    lower := id
    verify := fun passwordHash password => passwordHash == password }

def settings : AuthoritySettings :=
  { tokens := { ttl := 30, requireTvClaim := false, requireSidRevocationCheck := false }
    sidTtl := 30, accessTtl := 900, refreshTtl := 2592000 }

def admin (email passwordHash : String) : AccountRow :=
  { email := email, passwordHash := passwordHash, role := .admin, disabled := false
    tokenVersion := 1, allowsShared := true }

/-- Two admins. -/
def start : Authority :=
  { users := (AList.singleton "alice" (admin "alice@home.example" "a")).insert "bob"
      (admin "bob@home.example" "b")
    sessions := [], versions := { maxsize := 4096, data := ∅ }
    sids := { maxsize := 4096, data := ∅ }, now := 0, issued := [] }

theorem start_new : AuthorityStart start where
  version userId r hr := by
    simp only [start] at hr
    by_cases hb : userId = "bob"
    · rw [hb, AList.lookup_insert] at hr
      cases hr
      exact Nat.le_refl _
    · rw [AList.lookup_insert_ne hb] at hr
      by_cases ha : userId = "alice"
      · rw [ha] at hr
        cases hr
        exact Nat.le_refl _
      · have hnone : (AList.singleton "alice" (admin "alice@home.example" "a") : Users).lookup userId =
            none := by
          rw [AList.lookup_eq_none, AList.mem_keys, AList.keys_singleton]
          simpa using ha
        rw [hnone] at hr
        cases hr
  versions := rfl
  sids := rfl
  issued := rfl

def client : Authority.Client := { deviceLabel := "Firefox", ipHash := "", uaHash := "" }

def bobs : AccessToken :=
  { userId := "bob", role := .admin, tokenVersion := 1, sid := "s1", exp := 900 }

def reached (ls : List AuthorityLabel) : Authority :=
  (run (authorityStep env settings) ls start).getD start

theorem run_reached {ls : List AuthorityLabel}
    (h : (run (authorityStep env settings) ls start).isSome = true) :
    run (authorityStep env settings) ls start = some (reached ls) := by
  obtain ⟨c, hc⟩ := Option.isSome_iff_exists.mp h
  rw [reached, hc]
  rfl

/-- Bob's sessions are ended before he is demoted. -/
def endedFirst : List AuthorityLabel :=
  [.login "bob@home.example" "b" "s1" client, .request bobs, .disable "bob",
    .updateRole "bob" .user, .enable "bob"]

end AuthorityExample

open AuthorityExample

theorem authority_follows_endedFirst :
    AuthorityFollows AuthorityExample.settings (AuthorityExample.reached endedFirst) ∧
      bobs ∈ (AuthorityExample.reached endedFirst).issued :=
  ⟨authority_follows_account AuthorityExample.start_new
    (run_reaches (AuthorityExample.run_reached (by decide)) (by decide)), by decide⟩

/-- Bob logs in and is demoted: `require_admin` goes on accepting his token. -/
theorem demoted_token_accepted : ∃ s, Reaches (authorityStep AuthorityExample.env
    AuthorityExample.settings) (fun _ _ => True) AuthorityExample.start s ∧
      bobs ∈ s.issued ∧ (s.requireAdmin AuthorityExample.settings bobs).1 = true ∧
        (s.users.lookup "bob").map (·.role) = some .user ∧
          ¬ AuthorityFollows AuthorityExample.settings s := by
  refine ⟨AuthorityExample.reached
    [.login "bob@home.example" "b" "s1" client, .updateRole "bob" .user],
    run_reaches (AuthorityExample.run_reached (by decide)) (by decide), by decide, by decide,
    by decide, fun h => ?_⟩
  obtain ⟨r, hr, hadmin⟩ := h bobs (by decide) (by decide)
  cases hr
  cases hadmin

end Lumogis
