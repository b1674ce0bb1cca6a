import Lumogis.Accounts
import Lumogis.Lib.ReadThrough

/-!
# TokenVersions

Access tokens carry the `token_version` of their account. A request compares it with the version
that the cache of the process holds, or loads the row and stores its version in the cache; a password
change or a disabling bumps the version in a transaction and drops the cached one after the commit.
`tokenStep`: these calls in any order, one access to the table or to the cache at a time. The
statements of a transaction are seen as they are executed, since every call uses one connection.

`Prompt`: no version is stored in the cache that is older than a bump whose invalidation has
happened, and no token of a version that is still to be invalidated meets an older cached one. A run
of such steps rejects the tokens that are older than a bumping call that had returned, and accepts
the current ones (`revocation_takes_effect`).
-/

namespace Lumogis

open Labelled

structure TokenSettings where
  /-- `token_version_cache_ttl_seconds()`; 0 switches the cache off. -/
  ttl : Nat
  requireTvClaim : Bool
  requireSidRevocationCheck : Bool

/-- `jwt_revocation_failure_reason`, with the version that `resolve_current_token_version` gives and
the verdict on the session of the token. -/
def jwtRevocationFailureReason (settings : TokenSettings) (tv : Option Nat) (current : Nat)
    (sidDenied : Bool) : Option String :=
  let sid := if settings.requireSidRevocationCheck && sidDenied then some "invalid token" else none
  match tv with
  | none => if settings.requireTvClaim then some "invalid token" else sid
  | some tv => if tv ≠ current then some "invalid token" else sid

theorem jwtRevocationFailureReason_isNone {settings : TokenSettings} {tv current : Nat}
    {sidDenied : Bool} :
    (jwtRevocationFailureReason settings (some tv) current sidDenied).isNone = true ↔
      tv = current ∧ (settings.requireSidRevocationCheck && sidDenied) = false := by
  simp only [jwtRevocationFailureReason]
  by_cases htv : tv = current
  · cases hsid : settings.requireSidRevocationCheck && sidDenied with
    | false => simp [htv]
    | true => simp [htv]
  · simp [htv]

def resolveCurrentTokenVersion (settings : TokenSettings) (users : Users) (now : Nat)
    (userId : String) (cache : TTLLRU Nat) : Nat × TTLLRU Nat :=
  let looked := cache.getFresh settings.ttl now userId
  match looked.1 with
  | some version => (version, looked.2)
  | none =>
    match users.lookup userId with
    | none => (0, looked.2)
    | some r =>
      (r.tokenVersion, if settings.ttl = 0 then looked.2 else looked.2.put now userId r.tokenVersion)

inductive Change where
  /-- `_apply_new_password`. -/
  | password (pwHash : String)
  /-- `set_disabled(user_id, True)`. -/
  | disable

/-- The `UPDATE` of a change, which bumps the version. -/
def Change.apply : Change → String → Users → Users
  | .password pwHash, userId => Users.updatePassword userId pwHash
  | .disable, userId => Users.disable userId

/-- The version in the row; a user without a row counts as version 0. -/
def Users.versionOf (users : Users) (userId : String) : Nat :=
  ((users.lookup userId).map AccountRow.tokenVersion).getD 0

/-- The authentication of a token. -/
structure Authentication where
  userId : String
  tv : Nat
  /-- What the check of the token's session would say. -/
  sidDenied : Bool
  /-- The newest version whose bumping call had returned when the authentication began. -/
  since : Nat
  /-- The version of the row when it began. -/
  began : Nat

structure Decision where
  request : Authentication
  /-- What `resolve_current_token_version` returned. -/
  answer : Nat
  /-- The version of the row when the token is decided on. -/
  current : Nat

def Decision.accepted (settings : TokenSettings) (d : Decision) : Bool :=
  (jwtRevocationFailureReason settings (some d.request.tv) d.answer d.request.sidDenied).isNone

inductive TokenPhase where
  | idle
  | missed (request : Authentication)
  /-- The row has been selected. -/
  | selected (request : Authentication) (version : Option Nat)
  /-- A transaction is open. -/
  | began (userId : String) (change : Change)
  /-- The row has been updated, to this version if it is there. -/
  | updated (userId : String) (version : Option Nat)
  | committed (userId : String) (version : Option Nat)
  /-- The cached version has been dropped. -/
  | invalidated (userId : String) (version : Option Nat)

structure TokenConfig (ι : Type) where
  users : Users
  cache : TTLLRU Nat
  now : Nat
  inTransaction : Bool
  /-- The newest version whose bumping call has returned. -/
  returned : String → Nat
  phase : ι → TokenPhase
  decisions : List Decision

inductive TokenLabel (ι : Type) where
  /-- Looks the cache up for a token of the user with the claim `tv`. -/
  | lookUp (i : ι) (userId : String) (tv : Nat) (sidDenied : Bool)
  | select (i : ι)
  | put (i : ι)
  | begin (i : ι) (userId : String) (change : Change)
  | update (i : ι)
  | commit (i : ι)
  | invalidate (i : ι)
  | return_ (i : ι)
  /-- `set_disabled(user_id, False)`. -/
  | enable (userId : String)
  | tick

section System

variable {ι : Type} [DecidableEq ι]

namespace TokenConfig

def version (c : TokenConfig ι) (userId : String) : Nat := c.users.versionOf userId

def move (i : ι) (p : TokenPhase) (c : TokenConfig ι) : TokenConfig ι :=
  { c with phase := Function.update c.phase i p }

def decide (request : Authentication) (answer : Nat) (c : TokenConfig ι) : TokenConfig ι :=
  { c with decisions := ⟨request, answer, c.version request.userId⟩ :: c.decisions }

end TokenConfig

def tokenStep (settings : TokenSettings) : TokenLabel ι → TokenConfig ι → Option (TokenConfig ι)
  | .lookUp i userId tv sidDenied, c =>
    match c.phase i with
    | .idle =>
      let request : Authentication :=
        { userId := userId, tv := tv, sidDenied := sidDenied
          since := c.returned userId, began := c.version userId }
      let looked := c.cache.getFresh settings.ttl c.now userId
      match looked.1 with
      | some version => some ({ c with cache := looked.2 }.decide request version)
      | none => some ({ c with cache := looked.2 }.move i (.missed request))
    | _ => none
  | .select i, c =>
    match c.phase i with
    | .missed request =>
      some (c.move i (.selected request
        ((c.users.lookup request.userId).map AccountRow.tokenVersion)))
    | _ => none
  | .put i, c =>
    match c.phase i with
    | .selected request none => some ((c.move i .idle).decide request 0)
    | .selected request (some version) =>
      let cache := if settings.ttl = 0 then c.cache else c.cache.put c.now request.userId version
      some (({ c with cache := cache }.move i .idle).decide request version)
    | _ => none
  | .begin i userId change, c =>
    match c.phase i, c.inTransaction with
    | .idle, false => some ({ c with inTransaction := true }.move i (.began userId change))
    | _, _ => none
  | .update i, c =>
    match c.phase i with
    | .began userId change =>
      let users := change.apply userId c.users
      some ({ c with users := users }.move i
        (.updated userId ((users.lookup userId).map AccountRow.tokenVersion)))
    | _ => none
  | .commit i, c =>
    match c.phase i with
    | .updated userId version =>
      some ({ c with inTransaction := false }.move i (.committed userId version))
    | _ => none
  | .invalidate i, c =>
    match c.phase i with
    | .committed userId version =>
      some ({ c with cache := c.cache.invalidate userId }.move i (.invalidated userId version))
    | _ => none
  | .return_ i, c =>
    match c.phase i with
    | .invalidated userId version =>
      let returned := max (c.returned userId) (version.getD 0)
      some ({ c with returned := Function.update c.returned userId returned }.move i .idle)
    | _ => none
  | .enable userId, c => some { c with users := c.users.enable userId }
  | .tick, c => some { c with now := c.now + 1 }

/-! ## The law and its condition -/

/-- An accepted token is no older than the bumping calls that had returned; a token of the version
that the row has all along is accepted, unless its session is denied. -/
def Decision.Lawful (settings : TokenSettings) (d : Decision) : Prop :=
  (d.accepted settings = true → d.request.since ≤ d.request.tv) ∧
    (d.request.tv = d.request.began → d.request.tv = d.current →
      (settings.requireSidRevocationCheck && d.request.sidDenied) = false →
        d.accepted settings = true)

instance (settings : TokenSettings) (d : Decision) : Decidable (d.Lawful settings) :=
  inferInstanceAs (Decidable (_ ∧ _))

/-- A bump that has dropped the cached version did not make one newer than `version`. -/
def TokenPhase.InvalidatedUpTo (userId : String) (version : Nat) : TokenPhase → Prop
  | .invalidated u (some v) => u = userId → v ≤ version
  | _ => True

instance (userId : String) (version : Nat) (p : TokenPhase) :
    Decidable (p.InvalidatedUpTo userId version) :=
  match p with
  | .invalidated u (some v) => inferInstanceAs (Decidable (u = userId → v ≤ version))
  | .invalidated _ none | .idle | .missed _ | .selected _ _ | .began _ _ | .updated _ _
  | .committed _ _ => .isTrue trivial

/-- The row of the user has been updated, and the cached version is still to be dropped. -/
def TokenPhase.Bumping (userId : String) : TokenPhase → Prop
  | .updated u _ => u = userId
  | .committed u _ => u = userId
  | _ => False

instance (userId : String) (p : TokenPhase) : Decidable (p.Bumping userId) :=
  match p with
  | .updated u _ | .committed u _ => inferInstanceAs (Decidable (u = userId))
  | .invalidated _ _ | .idle | .missed _ | .selected _ _ | .began _ _ => .isFalse id

/-- What the thread is about to put into the cache. -/
def TokenPhase.toPut : TokenPhase → Option (Authentication × Nat)
  | .selected request (some version) => some (request, version)
  | _ => none

/-- A version that is put into the cache is not older than a bump whose invalidation has happened;
and a token of a version that is still to be invalidated does not meet an older cached one. -/
def Prompt (settings : TokenSettings) (l : TokenLabel ι) (c : TokenConfig ι) : Prop :=
  match l with
  | .put i => ∀ x ∈ (c.phase i).toPut, settings.ttl ≠ 0 → c.returned x.1.userId ≤ x.2 ∧
    ∀ j, (c.phase j).InvalidatedUpTo x.1.userId x.2
  | .lookUp _ userId tv _ => ∀ version ∈ (c.cache.getFresh settings.ttl c.now userId).1,
    tv = c.version userId → ∀ j, (c.phase j).Bumping userId → version = tv
  | _ => True

instance (settings : TokenSettings) (l : TokenLabel Bool) (c : TokenConfig Bool) :
    Decidable (Prompt settings l c) :=
  match l with
  | .put i => inferInstanceAs (Decidable (∀ x ∈ (c.phase i).toPut, _ → _))
  | .lookUp _ userId tv _ => inferInstanceAs (Decidable
      (∀ version ∈ (c.cache.getFresh settings.ttl c.now userId).1,
        tv = c.version userId → ∀ j, (c.phase j).Bumping userId → version = tv))
  | .select _ | .begin _ _ _ | .update _ | .commit _ | .invalidate _ | .return_ _ | .enable _
  | .tick => .isTrue trivial

/-- Nobody is in the middle of a call, and the cached versions are those of the rows. -/
structure TokenStart (c : TokenConfig ι) : Prop where
  returned : ∀ userId, c.returned userId = c.version userId
  cached : ∀ userId version, c.cache.held userId = some version → version = c.version userId
  idle : ∀ i, c.phase i = .idle
  decisions : c.decisions = []

/-! ## The cache is a read-through cache of the rows -/

open ReadThrough (Use Config Fresh)

def TokenPhase.readThrough : TokenPhase → ReadThrough.Phase String String
  | .idle => .idle
  | .missed request => .missed request.userId request.since
  | .selected request version => .loaded request.userId request.since (version.getD 0)
  | .began _ _ => .idle
  | .updated userId (some version) => .wrote userId version
  | .committed userId (some version) => .wrote userId version
  | .invalidated userId (some version) => .dropping userId version []
  | .updated _ none | .committed _ none | .invalidated _ none => .idle

def Decision.use (d : Decision) : Use String :=
  { slot := d.request.userId, since := d.request.since, version := d.answer, current := d.current }

def TokenConfig.readThrough (c : TokenConfig ι) : Config ι String String :=
  { version := c.version, floor := c.returned, slot := c.cache.held
    phase := fun i => (c.phase i).readThrough, uses := c.decisions.map Decision.use }

abbrev ReadThroughRun : Config ι String String → Config ι String String → Prop :=
  Reaches (ReadThrough.step id) (Fresh id)

variable {settings : TokenSettings} {c t : TokenConfig ι} {i : ι}

omit [DecidableEq ι]

theorem Users.versionOf_update {userId u : String} {f : AccountRow → AccountRow} {users : Users} :
    (users.update userId f).versionOf u =
      if u = userId then ((users.lookup u).map fun r => (f r).tokenVersion).getD 0
      else users.versionOf u := by
  rw [versionOf, lookup_update]
  split
  · rw [Option.map_map]
    rfl
  · rfl

theorem Change.lookup_apply (change : Change) (userId : String) (users : Users) :
    ((change.apply userId users).lookup userId).map AccountRow.tokenVersion =
      (users.lookup userId).map fun r => r.tokenVersion + 1 := by
  cases change with
  | password pwHash => simp [Change.apply, Users.updatePassword, Users.lookup_update, AccountRow.bump,
      Function.comp_def]
  | disable => simp [Change.apply, Users.disable, Users.lookup_update, AccountRow.bump,
      Function.comp_def]

theorem Change.versionOf_apply_ne (change : Change) {userId u : String} (users : Users)
    (hu : u ≠ userId) : (change.apply userId users).versionOf u = users.versionOf u := by
  cases change with
  | password pwHash => simp [Change.apply, Users.updatePassword, Users.versionOf_update, hu]
  | disable => simp [Change.apply, Users.disable, Users.versionOf_update, hu]

theorem Users.versionOf_enable (userId u : String) (users : Users) :
    (users.enable userId).versionOf u = users.versionOf u := by
  rw [Users.enable, versionOf_update]
  split
  · rfl
  · rfl

namespace TokenConfig

theorem readThrough_phase {p : TokenPhase} (hi : c.phase i = p) :
    c.readThrough.phase i = p.readThrough := congrArg TokenPhase.readThrough hi

theorem readThrough_record {request : Authentication} {answer : Nat} :
    (c.decide request answer).readThrough =
      c.readThrough.record id request.userId request.since answer := rfl

theorem readThrough_cache {cache : TTLLRU Nat} (h : ∀ k, cache.held k = c.cache.held k) :
    ({ c with cache := cache } : TokenConfig ι).readThrough = c.readThrough := by
  have hslot : cache.held = c.cache.held := funext h
  simp only [readThrough, hslot]
  rfl

theorem readThrough_users {users : Users} (h : users.versionOf = c.users.versionOf) :
    ({ c with users := users } : TokenConfig ι).readThrough = c.readThrough := by
  have hversion : ({ c with users := users } : TokenConfig ι).version = c.version := h
  simp only [readThrough, hversion]

theorem readThrough_invalidate {u : String} :
    ({ c with cache := c.cache.invalidate u } : TokenConfig ι).readThrough =
      { c.readThrough with slot := fun k => if k = u then none else c.readThrough.slot k } := by
  have hslot : (c.cache.invalidate u).held = fun k => if k = u then none else c.cache.held k :=
    funext fun _ => TTLLRU.held_invalidate
  simp only [readThrough, hslot]
  rfl

theorem readThrough_move [DecidableEq ι] {p : TokenPhase} :
    (c.move i p).readThrough = c.readThrough.move i p.readThrough := by
  have hphase : (fun j => (Function.update c.phase i p j).readThrough) =
      Function.update (fun j => (c.phase j).readThrough) i p.readThrough := by
    funext j
    exact Function.apply_update (fun _ => TokenPhase.readThrough) c.phase i p j
  simp only [readThrough, move, Config.move, hphase]
  rfl

theorem readThrough_move_same [DecidableEq ι] {p q : TokenPhase} (hi : c.phase i = p)
    (h : q.readThrough = p.readThrough) : (c.move i q).readThrough = c.readThrough := by
  rw [readThrough_move, h, ← readThrough_phase hi, Config.move, Function.update_eq_self]

end TokenConfig

/-! ### Each label -/

section Labels

variable [DecidableEq ι] {userId : String} {tv : Nat} {sidDenied : Bool}

theorem lookUp_readThrough (hs : tokenStep settings (.lookUp i userId tv sidDenied) c = some t) :
    ReadThroughRun c.readThrough t.readThrough := by
  simp only [tokenStep] at hs
  split at hs
  · rename_i hi
    split at hs
    · rename_i version hhit
      cases hs
      have hheld := TTLLRU.held_of_hit hhit
      have hsame (k : String) : (c.cache.getFresh settings.ttl c.now userId).2.held k =
          c.cache.held k := congrArg (Option.map Prod.fst) ((TTLLRU.getFresh_hit hhit).2 k)
      refine .next .start (l := .hit i userId) trivial ?_
      rw [TokenConfig.readThrough_record, TokenConfig.readThrough_cache hsame, ReadThrough.step,
        TokenConfig.readThrough_phase hi, show c.readThrough.slot userId = some version from hheld]
      rfl
    · rename_i hmiss
      cases hs
      rw [TokenConfig.readThrough_move]
      rcases TTLLRU.getFresh_miss hmiss with hc | hc
      · rw [hc]
        refine .next .start (l := .miss i userId) trivial ?_
        rw [ReadThrough.step, TokenConfig.readThrough_phase hi]
        rfl
      · rw [hc]
        rw [TokenConfig.readThrough_invalidate]
        refine .next (.next .start (l := .evict fun k => decide (k = userId)) trivial rfl)
          (l := .miss i userId) trivial ?_
        simp only [ReadThrough.step, TokenConfig.readThrough_phase hi, TokenPhase.readThrough,
          decide_eq_true_eq]
        rfl
  · cases hs

theorem select_readThrough (hs : tokenStep settings (.select i) c = some t) :
    ReadThroughRun c.readThrough t.readThrough := by
  simp only [tokenStep] at hs
  split at hs
  · rename_i request hi
    cases hs
    refine .next .start (l := .load i) trivial ?_
    rw [ReadThrough.step, TokenConfig.readThrough_phase hi, TokenConfig.readThrough_move]
    rfl
  · cases hs

omit [DecidableEq ι] in
/-- What `Prompt` asks of a `put` is what a read-through cache asks of filling a slot. -/
theorem Prompt.fresh {request : Authentication} {version : Nat} (ha : Prompt settings (.put i) c)
    (hi : c.phase i = .selected request (some version)) (httl : settings.ttl ≠ 0) :
    Fresh id (.fill i) c.readThrough := by
  obtain ⟨hreturned, hinvalidated⟩ := ha (request, version) (by rw [hi]; rfl) httl
  intro k since v hk
  rw [TokenConfig.readThrough_phase hi] at hk
  cases hk
  refine ⟨hreturned, fun j w rest hj _ => ?_⟩
  have hinv := hinvalidated j
  revert hj hinv
  show (c.phase j).readThrough = _ → _
  cases c.phase j with
  | invalidated u v' =>
    cases v' with
    | none => intro hj; cases hj
    | some v' => intro hj hinv; cases hj; exact hinv rfl
  | updated u v' => cases v' <;> intro hj <;> cases hj
  | committed u v' => cases v' <;> intro hj <;> cases hj
  | _ => intro hj; cases hj

/-- A `put` fills the slot of the user and may drop others. -/
theorem put_readThrough (ha : Prompt settings (.put i) c)
    (hs : tokenStep settings (.put i) c = some t) : ReadThroughRun c.readThrough t.readThrough := by
  simp only [tokenStep] at hs
  split at hs
  · rename_i request hi
    cases hs
    refine .next .start (l := .use i) trivial ?_
    rw [ReadThrough.step, TokenConfig.readThrough_phase hi, TokenConfig.readThrough_record,
      TokenConfig.readThrough_move]
    rfl
  · rename_i request version hi
    have hphase := TokenConfig.readThrough_phase hi
    have huse (c' : Config ι String String) (hc' : c'.phase = c.readThrough.phase) :
        ReadThroughRun c' ((c'.move i .idle).record id request.userId request.since version) := by
      refine .next .start (l := .use i) trivial ?_
      rw [ReadThrough.step, hc', hphase]
      rfl
    cases hs
    rw [TokenConfig.readThrough_record, TokenConfig.readThrough_move]
    by_cases httl : settings.ttl = 0
    · simp only [if_pos httl]
      exact huse _ rfl
    · simp only [if_neg httl]
      have hfill : ReadThrough.step id (.fill i) c.readThrough = some { c.readThrough with
          slot := Function.update c.readThrough.slot request.userId (some version) } := by
        rw [ReadThrough.step, hphase]
        rfl
      have hevict : ReadThrough.step id
          (.evict fun k => ((c.cache.put c.now request.userId version).held k).isNone)
          { c.readThrough with
            slot := Function.update c.readThrough.slot request.userId (some version) } =
          some { c with cache := c.cache.put c.now request.userId version }.readThrough := by
        have hslot : (fun k => if ((c.cache.put c.now request.userId version).held k).isNone then none
            else Function.update c.cache.held request.userId (some version) k) =
              (c.cache.put c.now request.userId version).held := by
          funext k
          cases hput : (c.cache.put c.now request.userId version).held k with
          | none => rfl
          | some w => exact (Function.update_apply _ _ _ _).trans (TTLLRU.held_put hput)
        exact congrArg (fun slot => some { c.readThrough with slot := slot }) hslot
      refine ((Reaches.single (ha.fresh hi httl) hfill).trans ?_).trans (huse _ rfl)
      exact Reaches.single (l := .evict _) trivial hevict
  · cases hs

theorem begin_readThrough {change : Change}
    (hs : tokenStep settings (.begin i userId change) c = some t) :
    t.readThrough = c.readThrough := by
  simp only [tokenStep] at hs
  split at hs
  · rename_i hi _
    cases hs
    exact TokenConfig.readThrough_move_same (c := { c with inTransaction := true }) hi rfl
  · cases hs

theorem update_readThrough (hs : tokenStep settings (.update i) c = some t) :
    ReadThroughRun c.readThrough t.readThrough := by
  simp only [tokenStep] at hs
  split at hs
  · rename_i u change hi
    cases hs
    have hrow := Change.lookup_apply change u c.users
    have hother : ∀ v, v ≠ u → (change.apply u c.users).versionOf v = c.users.versionOf v :=
      fun v hv => change.versionOf_apply_ne c.users hv
    rw [hrow]
    have hversion : (change.apply u c.users).versionOf u =
        ((c.users.lookup u).map fun r => r.tokenVersion + 1).getD 0 := congrArg (Option.getD · 0) hrow
    cases hlookup : c.users.lookup u with
    | none =>
      have hsame : (change.apply u c.users).versionOf = c.users.versionOf := by
        funext v
        by_cases hv : v = u
        · rw [hv, hversion, hlookup, Users.versionOf, hlookup]
          rfl
        · exact hother v hv
      have hmove := TokenConfig.readThrough_move_same
        (c := { c with users := change.apply u c.users }) (q := .updated u none) hi rfl
      rw [Option.map_none, hmove, TokenConfig.readThrough_users hsame]
      exact .start
    | some r =>
      have hbump : (change.apply u c.users).versionOf =
          Function.update c.users.versionOf u (c.users.versionOf u + 1) := by
        funext v
        by_cases hv : v = u
        · rw [hv, Function.update_self, hversion, hlookup, Users.versionOf, hlookup]
          rfl
        · rw [Function.update_of_ne hv]
          exact hother v hv
      have hold : c.users.versionOf u = r.tokenVersion := by
        rw [Users.versionOf, hlookup]
        rfl
      rw [TokenConfig.readThrough_move]
      refine Reaches.single (l := .write i u) trivial ?_
      rw [ReadThrough.step, TokenConfig.readThrough_phase hi]
      show some (Config.move i (.wrote u (c.users.versionOf u + 1)) { c.readThrough with
        version := Function.update c.users.versionOf u (c.users.versionOf u + 1) }) = _
      rw [← hbump, hold]
      rfl
  · cases hs

theorem commit_readThrough (hs : tokenStep settings (.commit i) c = some t) :
    t.readThrough = c.readThrough := by
  simp only [tokenStep] at hs
  split at hs
  · rename_i u version hi
    cases hs
    refine TokenConfig.readThrough_move_same (c := { c with inTransaction := false }) hi ?_
    cases version with
    | none => rfl
    | some version => rfl
  · cases hs

theorem invalidate_readThrough (hs : tokenStep settings (.invalidate i) c = some t) :
    ReadThroughRun c.readThrough t.readThrough := by
  simp only [tokenStep] at hs
  split at hs
  · rename_i u version hi
    have hphase := TokenConfig.readThrough_phase hi
    cases hs
    cases version with
    | none =>
      have hmove := TokenConfig.readThrough_move_same
        (c := { c with cache := c.cache.invalidate u }) (q := .invalidated u none) hi rfl
      rw [hmove, TokenConfig.readThrough_invalidate]
      refine Reaches.single (l := .evict fun k => decide (k = u)) trivial ?_
      simp only [ReadThrough.step, decide_eq_true_eq]
    | some version =>
      rw [TokenConfig.readThrough_move, TokenConfig.readThrough_invalidate]
      refine (Reaches.single (l := .snapshot i [u]) ?_ ?_ : ReadThroughRun c.readThrough
        (c.readThrough.move i (.dropping u version [u]))).trans (Reaches.single (l := .drop i) trivial ?_)
      · intro r v hr k hk _
        rw [hphase] at hr
        cases hr
        exact List.mem_singleton.mpr hk
      · rw [ReadThrough.step, hphase]
        rfl
      · have hslot : Function.update c.readThrough.slot u none =
            fun k => if k = u then none else c.readThrough.slot k :=
          funext fun k => Function.update_apply _ _ _ _
        rw [ReadThrough.step_drop (Config.move_phase_self i _ _), ← hslot]
        exact congrArg some (Config.move_move i _ _ { c.readThrough with
          slot := Function.update c.readThrough.slot u none })
  · cases hs

theorem return_readThrough (hs : tokenStep settings (.return_ i) c = some t) :
    ReadThroughRun c.readThrough t.readThrough := by
  simp only [tokenStep] at hs
  split at hs
  · rename_i u version hi
    have hphase := TokenConfig.readThrough_phase hi
    cases hs
    cases version with
    | none =>
      have hreturned : Function.update c.returned u (max (c.returned u) 0) = c.returned := by
        rw [Nat.max_zero, Function.update_eq_self]
      rw [Option.getD_none, hreturned]
      show ReadThroughRun c.readThrough (c.move i .idle).readThrough
      rw [TokenConfig.readThrough_move_same (q := .idle) hi rfl]
      exact .start
    | some version =>
      rw [TokenConfig.readThrough_move]
      refine Reaches.single (l := .return_ i) trivial ?_
      rw [ReadThrough.step, hphase]
      rfl
  · cases hs

theorem tokenStep_readThrough {l : TokenLabel ι} (ha : Prompt settings l c)
    (hs : tokenStep settings l c = some t) : ReadThroughRun c.readThrough t.readThrough := by
  cases l with
  | lookUp i userId tv sidDenied => exact lookUp_readThrough hs
  | select i => exact select_readThrough hs
  | put i => exact put_readThrough ha hs
  | begin i userId change =>
    rw [begin_readThrough hs]
    exact .start
  | update i => exact update_readThrough hs
  | commit i =>
    rw [commit_readThrough hs]
    exact .start
  | invalidate i => exact invalidate_readThrough hs
  | return_ i => exact return_readThrough hs
  | enable userId =>
    cases hs
    rw [TokenConfig.readThrough_users (funext fun u => Users.versionOf_enable userId u c.users)]
    exact .start
  | tick =>
    cases hs
    exact .start

end Labels

/-! ## Every decision of a run -/

/-- What is known of a request in flight: what it loads is no older than the row was when it
began. -/
def TokenPhase.Ok (c : TokenConfig ι) : TokenPhase → Prop
  | .missed request => request.began ≤ c.version request.userId
  | .selected request version => request.began ≤ version.getD 0
  | _ => True

structure TokenInv (settings : TokenSettings) (c : TokenConfig ι) : Prop where
  cache : ReadThrough.Inv id c.readThrough
  phase : ∀ i, (c.phase i).Ok c
  decisions : ∀ d ∈ c.decisions, d.request.tv = d.request.began → d.request.tv = d.current →
    d.answer = d.request.tv

theorem TokenStart.inv (h : TokenStart c) : TokenInv settings c where
  cache := ReadThrough.Start.inv
    { floor := h.returned
      slot := h.cached
      phase := fun i => TokenConfig.readThrough_phase (h.idle i)
      uses := by
        show c.decisions.map Decision.use = []
        rw [h.decisions]
        rfl }
  phase i := by
    rw [h.idle i]
    trivial
  decisions d hd := by
    rw [h.decisions] at hd
    cases hd

theorem TokenPhase.Ok.mono {p : TokenPhase} (h : p.Ok c)
    (hversion : ∀ u, c.version u ≤ t.version u) : p.Ok t := by
  cases p with
  | missed request => exact Nat.le_trans h (hversion _)
  | _ => exact h

section Decisions

variable [DecidableEq ι] {userId : String} {tv : Nat} {sidDenied : Bool}

omit [DecidableEq ι] in
theorem TokenInv.bumping {version : Nat} (h : TokenInv settings c)
    (hheld : c.cache.held userId = some version) (hlt : version < c.version userId) :
    ∃ j, (c.phase j).Bumping userId := by
  obtain ⟨j, hj⟩ := h.cache.pending (k := userId) hheld hlt
  refine ⟨j, ?_⟩
  revert hj
  show (c.phase j).readThrough.Pending id userId → _
  cases c.phase j with
  | updated u v =>
    cases v with
    | none => intro hj; exact hj.elim
    | some v => intro hj; exact hj
  | committed u v =>
    cases v with
    | none => intro hj; exact hj.elim
    | some v => intro hj; exact hj
  | invalidated u v =>
    cases v with
    | none => intro hj; exact hj.elim
    | some v => intro hj; cases hj.2
  | _ => intro hj; exact hj.elim

omit [DecidableEq ι] in
theorem TokenInv.hit_current {version : Nat} (h : TokenInv settings c)
    (ha : Prompt settings (.lookUp i userId tv sidDenied) c)
    (hhit : (c.cache.getFresh settings.ttl c.now userId).1 = some version)
    (htv : tv = c.version userId) : version = tv := by
  have hheld := TTLLRU.held_of_hit hhit
  have hle : version ≤ c.version userId := (h.cache.slot userId version hheld).2
  rcases Nat.lt_or_ge version (c.version userId) with hlt | hge
  · obtain ⟨j, hj⟩ := h.bumping hheld hlt
    exact ha version hhit htv j hj
  · omega

theorem phase_ok_update {p : TokenPhase} (h : ∀ j, (c.phase j).Ok t) (hp : p.Ok t) (j : ι) :
    (Function.update c.phase i p j).Ok t := by
  by_cases hj : j = i
  · subst hj
    rwa [Function.update_self]
  · rw [Function.update_of_ne hj]
    exact h j

theorem TokenInv.next {l : TokenLabel ι} (h : TokenInv settings c) (ha : Prompt settings l c)
    (hs : tokenStep settings l c = some t) : TokenInv settings t := by
  have hrun := tokenStep_readThrough ha hs
  have hcache := ReadThrough.Inv.reaches hrun h.cache
  have hversion : ∀ u, c.version u ≤ t.version u := ReadThrough.version_reaches hrun
  have hphase : ∀ j, (c.phase j).Ok t := fun j => (h.phase j).mono hversion
  cases l with
  | lookUp i userId tv sidDenied =>
    simp only [tokenStep] at hs
    split at hs
    · rename_i hi
      split at hs
      · rename_i version hhit
        cases hs
        refine ⟨hcache, hphase, fun d hd => ?_⟩
        rcases List.mem_cons.mp hd with rfl | hd
        · intro htv _
          exact h.hit_current ha hhit htv
        · exact h.decisions d hd
      · cases hs
        exact ⟨hcache, phase_ok_update hphase (Nat.le_refl _), h.decisions⟩
    · cases hs
  | select i =>
    simp only [tokenStep] at hs
    split at hs
    · rename_i request hi
      cases hs
      have hok := h.phase i
      rw [hi] at hok
      exact ⟨hcache, phase_ok_update hphase hok, h.decisions⟩
    · cases hs
  | put i =>
    -- the answer lies between the versions at the beginning and now
    have hput {request : Authentication} {answer : Nat} (hbegan : request.began ≤ answer)
        (ht : t.decisions = ⟨request, answer, c.version request.userId⟩ :: c.decisions)
        (hidle : t.phase = Function.update c.phase i .idle) : TokenInv settings t := by
      refine ⟨hcache, fun j => ?_, fun d hd => ?_⟩
      · rw [hidle]
        exact phase_ok_update (p := .idle) hphase trivial j
      · have hle := (hcache.uses d.use (List.mem_map_of_mem hd)).2
        rw [ht] at hd
        rcases List.mem_cons.mp hd with rfl | hd
        · intro htv hcurrent
          simp only [Decision.use] at htv hcurrent hle ⊢
          omega
        · exact h.decisions d hd
    have hok := h.phase i
    simp only [tokenStep] at hs
    split at hs
    · rename_i request hi
      cases hs
      rw [hi] at hok
      exact hput hok rfl rfl
    · rename_i request version hi
      cases hs
      rw [hi] at hok
      exact hput hok rfl rfl
    · cases hs
  | begin i userId change | update i | commit i | invalidate i | return_ i =>
    simp only [tokenStep] at hs
    split at hs
    · cases hs
      exact ⟨hcache, phase_ok_update hphase trivial, h.decisions⟩
    · cases hs
  | enable userId =>
    cases hs
    exact ⟨hcache, hphase, h.decisions⟩
  | tick =>
    cases hs
    exact ⟨hcache, hphase, h.decisions⟩

end Decisions

theorem TokenInv.lawful (h : TokenInv settings c) : ∀ d ∈ c.decisions, d.Lawful settings := by
  intro d hd
  have hfresh := h.cache.uses d.use (List.mem_map_of_mem hd)
  refine ⟨fun hacc => ?_, fun hbegan hcurrent hsid => ?_⟩
  · have htv := (jwtRevocationFailureReason_isNone.mp hacc).1
    have hsince : d.request.since ≤ d.answer := hfresh.1
    omega
  · have hanswer := h.decisions d hd hbegan hcurrent
    exact jwtRevocationFailureReason_isNone.mpr ⟨hanswer.symm, hsid⟩

end System

section Runs

variable {ι : Type} [DecidableEq ι] {settings : TokenSettings} {s c : TokenConfig ι}

theorem TokenInv.reaches (h : Reaches (tokenStep settings) (Prompt settings) s c)
    (hs : TokenInv settings s) : TokenInv settings c :=
  h.invariant hs fun _ _ _ hi ha ht => hi.next ha ht

/-- Every decision of a run of prompt steps is lawful. -/
theorem revocation_takes_effect (hs : TokenStart s)
    (h : Reaches (tokenStep settings) (Prompt settings) s c) :
    ∀ d ∈ c.decisions, d.Lawful settings :=
  (TokenInv.reaches h hs.inv).lawful

end Runs

namespace TokenExample

def settings : TokenSettings :=
  { ttl := 30, requireTvClaim := true, requireSidRevocationCheck := false }

/-- One account of version 1, and nothing in the cache. -/
def start : TokenConfig Bool :=
  let users : Users := AList.singleton "alice"
    { email := "alice@home.example", passwordHash := "argon2", role := .user, disabled := false
      tokenVersion := 1, allowsShared := true }
  { users := users, cache := { maxsize := 4096, data := ∅ }, now := 0, inTransaction := false
    returned := users.versionOf
    phase := fun _ => .idle, decisions := [] }

theorem start_idle : TokenStart start where
  returned _ := rfl
  cached _ _ h := by cases h
  idle _ := rfl
  decisions := rfl

def reached (ls : List (TokenLabel Bool)) : TokenConfig Bool :=
  (run (tokenStep settings) ls start).getD start

theorem run_reached {ls : List (TokenLabel Bool)}
    (h : (run (tokenStep settings) ls start).isSome = true) :
    run (tokenStep settings) ls start = some (reached ls) := by
  obtain ⟨c, hc⟩ := Option.isSome_iff_exists.mp h
  rw [reached, hc]
  rfl

/-- The calls of thread `true` that disable alice. -/
def disabling : List (TokenLabel Bool) :=
  [.begin true "alice" .disable, .update true, .commit true, .invalidate true, .return_ true]

/-- Alice's token is accepted, and rejected after the disabling. -/
def quiet : List (TokenLabel Bool) :=
  [.lookUp false "alice" 1 false, .select false, .put false] ++ disabling ++
    [.lookUp false "alice" 1 false, .select false, .put false]

/-- The request of thread `false` selects version 1 before the disabling and stores it afterwards. -/
def late : List (TokenLabel Bool) :=
  [.lookUp false "alice" 1 false, .select false] ++ disabling ++ [.put false, .lookUp true "alice" 1 false]

end TokenExample

open TokenExample

theorem revocation_takes_effect_quiet :
    (∀ d ∈ (reached quiet).decisions, d.Lawful TokenExample.settings) ∧
      (reached quiet).decisions.map (Decision.accepted TokenExample.settings) = [false, true] :=
  ⟨revocation_takes_effect start_idle (run_reaches (run_reached (by decide)) (by decide)), by decide⟩

/-- The token of version 1 is accepted after the disabling has returned. -/
theorem late_put_accepts_old_token : ∃ c,
    Reaches (tokenStep TokenExample.settings) (fun _ _ => True) start c ∧
      ∃ d ∈ c.decisions, d.accepted TokenExample.settings = true ∧ d.request.since = 2 ∧
        d.request.tv = 1 ∧ ¬ d.Lawful TokenExample.settings :=
  ⟨reached late, run_reaches (run_reached (by decide)) (by decide), by decide⟩

end Lumogis
