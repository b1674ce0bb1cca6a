import Lumogis.Invites

/-!
# InviteRuns

Runs of `redeem_invite` and `revoke_invite`. `Isolated`: a redemption writes and commits in its own
open transaction, no rollback takes a revocation with it, a revocation's `UPDATE` does not find the
invite used, and the `SELECT` after a `COMMIT` does not fail. In a run of such steps an invite is
single-use (`SingleUse`, `invites_single_use`).
-/

namespace Lumogis

open Labelled

namespace InviteTables

/-- The user was created from an invite, or has used one. -/
def Trace (user : String) (t : InviteTables) : Prop :=
  (∃ o ∈ t.origins, o.user = user) ∨ ∃ id row, t.invites.lookup id = some row ∧ row.usedBy = some user

end InviteTables

/-- What has been committed keeps the promises of an invite. -/
structure SingleUse {ι : Type} (c : InviteConfig ι) : Prop where
  one : ∀ o ∈ c.durable.origins, ∀ o' ∈ c.durable.origins, o.invite = o'.invite → o = o'
  live : ∀ o ∈ c.durable.origins, ∀ row, c.durable.invites.lookup o.invite = some row →
    o.createdAt < row.expiresAt
  revoked : ∀ o ∈ c.durable.origins, o.invite ∉ c.reported
  raised : ∀ user ∈ c.raised, ¬ c.durable.Trace user

section System

variable {ι : Type}

/-- The step ends the open transaction without its writes. -/
def InviteLabel.losesTxn (failed : Bool) : InviteLabel ι → Bool
  | .rollback _ => true
  | .commit _ ok => ok && failed
  | .tick => false
  | _ => failed

/-- Whoever's invite is revoked in `t` has it revoked in `s`. -/
def KeepsRevocations (s t : InviteTables) : Prop :=
  ∀ e ∈ t.invites.entries, e.2.revokedAt.isSome = true →
    (s.invites.lookup e.1).any (fun row => row.revokedAt.isSome) = true

/-- The statement runs in the caller's own transaction, which nothing has aborted. -/
def InviteConfig.InOwnTxn [DecidableEq ι] (i : ι) (c : InviteConfig ι) : Prop :=
  c.txn.any (fun t => decide (t.owner = i) && !t.failed) = true

/-- The user whom the caller is creating. -/
def InvitePhase.creates : InvitePhase → Option String
  | .redeem r _ => some r.user
  | _ => none

/-- The invite that the caller is revoking. -/
def InvitePhase.revokes : InvitePhase → Option String
  | .revoke invite _ => some invite
  | _ => none

/-- What `Isolated` asks of the state in which a statement of a call runs. -/
def InviteConfig.Alone [DecidableEq ι] (c : InviteConfig ι) : InviteLabel ι → Prop
  | .consume i true => c.InOwnTxn i
  | .insertUser i true => c.InOwnTxn i
  | .commit i true => c.txn.any (fun t => decide (t.owner = i)) = true
  | .updateRevoked i true => ∀ invite ∈ (c.phase i).revokes,
    ∀ row ∈ c.ensureConn.tables.invites.lookup invite, row.usedAt = none
  | .selectUser i false => ∀ user ∈ (c.phase i).creates,
    c.ensureConn.tables.users.lookup user = none
  | _ => True

/-- See the head of the file. -/
def Isolated [DecidableEq ι] (l : InviteLabel ι) (c : InviteConfig ι) : Prop :=
  (∀ t ∈ c.txn, l.losesTxn t.failed = true → KeepsRevocations t.saved c.tables) ∧ c.Alone l

instance (s t : InviteTables) : Decidable (KeepsRevocations s t) :=
  inferInstanceAs (Decidable (∀ e ∈ _, _))

instance InviteConfig.Alone.decidable [DecidableEq ι] (c : InviteConfig ι) :
    (l : InviteLabel ι) → Decidable (c.Alone l)
  | .consume _ true | .insertUser _ true | .commit _ true => inferInstanceAs (Decidable (_ = true))
  | .updateRevoked _ true => inferInstanceAs (Decidable (∀ _ ∈ _, ∀ _ ∈ _, _ = _))
  | .selectUser _ false => inferInstanceAs (Decidable (∀ _ ∈ _, _ = _))
  | .consume _ false | .insertUser _ false | .commit _ false | .updateRevoked _ false
  | .selectUser _ true | .redeem .. | .begin _ | .selectEmail .. | .rollback _ | .revoke ..
  | .audit .. | .tick => inferInstanceAs (Decidable True)

instance [DecidableEq ι] (l : InviteLabel ι) (c : InviteConfig ι) : Decidable (Isolated l c) :=
  inferInstanceAs (Decidable (_ ∧ _))

/-- Nobody is in the middle of a call, and the ids in the tables have been drawn. -/
structure InviteStart (c : InviteConfig ι) : Prop where
  idle : ∀ i, c.phase i = .idle
  txn : c.txn = none
  origins : c.tables.origins = []
  reported : c.reported = []
  raised : c.raised = []
  drawn : ∀ id row user, c.tables.invites.lookup id = some row → row.usedBy = some user →
    user ∈ c.drawn

/-! ## What a run keeps -/

/-- A user that was created from an invite is the one who used it. -/
structure InviteTables.Ok (t : InviteTables) : Prop where
  origin : ∀ o ∈ t.origins, ∃ row, t.invites.lookup o.invite = some row ∧
    row.usedBy = some o.user ∧ row.usedAt.isSome = true ∧ row.revokedAt = none ∧
      o.createdAt < row.expiresAt
  user : ∀ o ∈ t.origins, ∀ o' ∈ t.origins, o.user = o'.user → o = o'

/-- What the redemption has done in its own transaction. -/
def RedeemStage.Own (r : Redemption) (started : Option Nat) (t : InviteTables) :
    RedeemStage → Prop
  | .consumed => (∀ o ∈ t.origins, o.user ≠ r.user) ∧ ∃ row now,
    t.invites.lookup r.invite = some row ∧ row.usedBy = some r.user ∧ row.usedAt.isSome = true ∧
      row.revokedAt = none ∧ started = some now ∧ now < row.expiresAt
  | .inserted => (t.users.lookup r.user).isSome = true
  | .raising => True
  | _ => ¬ t.Trace r.user

/-- Nothing has been committed. -/
def RedeemStage.Pending (c : InviteConfig ι) (i : ι) (r : Redemption) (stage : RedeemStage) : Prop :=
  (∀ t ∈ c.txn, ¬ t.saved.Trace r.user) ∧
    (∀ t ∈ c.txn, t.owner = i → stage.Own r t.started c.tables) ∧
      ((∀ t ∈ c.txn, t.owner ≠ i) → ¬ c.tables.Trace r.user)

/-- There is no trace of the user. -/
def InviteConfig.Clean (user : String) (c : InviteConfig ι) : Prop :=
  ¬ c.tables.Trace user ∧ ∀ t ∈ c.txn, ¬ t.saved.Trace user

/-- Until it has committed, a redemption has left nothing outside its own transaction; then it has
created its user, or nothing. -/
def RedeemStage.Ok (c : InviteConfig ι) (i : ι) (r : Redemption) : RedeemStage → Prop
  | .auditing => True
  | .committed => (c.tables.users.lookup r.user).isSome = true ∧
      (∀ t ∈ c.txn, (t.saved.users.lookup r.user).isSome = true) ∨ c.Clean r.user
  | stage => stage.Pending c i r

/-- The two tables have the same invites. -/
def SameInvites (s t : InviteTables) : Prop :=
  ∀ id, (s.invites.lookup id).isSome = (t.invites.lookup id).isSome

structure InviteInv (c : InviteConfig ι) : Prop where
  tables : c.tables.Ok
  saved : ∀ t ∈ c.txn, t.saved.Ok ∧ (∀ o ∈ t.saved.origins, o ∈ c.tables.origins) ∧
    SameInvites t.saved c.tables
  /-- An invite whose revocation has been reported, or will be, is revoked. -/
  revoked : ∀ invite, (invite ∈ c.reported ∨ ∃ i, c.phase i = .revoke invite .updated) →
    ∀ row, c.tables.invites.lookup invite = some row → row.revokedAt.isSome = true
  raised : ∀ user ∈ c.raised, user ∈ c.drawn ∧ c.Clean user
  redeem : ∀ i r stage, c.phase i = .redeem r stage →
    r.user ∈ c.drawn ∧ r.user ∉ c.raised ∧ stage.Ok c i r
  distinct : ∀ i j r r' stage stage', c.phase i = .redeem r stage →
    c.phase j = .redeem r' stage' → r.user = r'.user → i = j
  drawn : ∀ user, (c.tables.Trace user ∨ ∃ t ∈ c.txn, t.saved.Trace user) → user ∈ c.drawn

variable {c : InviteConfig ι} {i : ι}

/-! ### Law -/

theorem InviteInv.durable (h : InviteInv c) :
    c.durable.Ok ∧ (∀ o ∈ c.durable.origins, o ∈ c.tables.origins) ∧
      ∀ user ∈ c.raised, ¬ c.durable.Trace user := by
  rw [InviteConfig.durable]
  cases ht : c.txn with
  | none => exact ⟨h.tables, fun _ ho => ho, fun user hu => (h.raised user hu).2.1⟩
  | some t =>
    obtain ⟨hok, hsub, -⟩ := h.saved t ht
    exact ⟨hok, hsub, fun user hu => (h.raised user hu).2.2 t ht⟩

theorem InviteInv.singleUse (h : InviteInv c) : SingleUse c := by
  obtain ⟨hok, hsub, hraised⟩ := h.durable
  refine ⟨fun o ho o' ho' he => ?_, fun o ho row hrow => ?_, fun o ho hrep => ?_, hraised⟩
  · obtain ⟨row, hrow, hused, -⟩ := hok.origin o ho
    obtain ⟨row', hrow', hused', -⟩ := hok.origin o' ho'
    rw [← he] at hrow'
    cases hrow.symm.trans hrow'
    exact hok.user o ho o' ho' (Option.some.inj (hused.symm.trans hused'))
  · obtain ⟨row', hrow', -, -, -, hlive⟩ := hok.origin o ho
    cases hrow.symm.trans hrow'
    exact hlive
  · obtain ⟨row, hrow, -, -, hnone, -⟩ := h.tables.origin o (hsub o ho)
    have hsome := h.revoked o.invite (.inl hrep) row hrow
    rw [hnone] at hsome
    cases hsome

/-! ### The connection -/

theorem RedeemStage.Pending.durable {r : Redemption} {stage : RedeemStage}
    (h : stage.Pending c i r) : ¬ c.durable.Trace r.user := by
  rw [InviteConfig.durable]
  cases ht : c.txn with
  | none => exact h.2.2 fun t ht' => by cases ht.symm.trans ht'
  | some t => exact h.1 t ht

theorem InviteConfig.Clean.durable {user : String} (h : c.Clean user) :
    ¬ c.durable.Trace user := by
  rw [InviteConfig.durable]
  cases ht : c.txn with
  | none => exact h.1
  | some t => exact h.2 t ht

theorem InviteConfig.Clean.send {user : String} (h : c.Clean user) (ok : Bool) :
    (c.send ok).Clean user := by
  refine ⟨h.1, fun t ht => ?_⟩
  obtain ⟨t', ht', rfl⟩ := Option.map_eq_some_iff.mp ht
  exact h.2 t' ht'

theorem RedeemStage.ok_of_clean {r : Redemption} {stage : RedeemStage} (h : c.Clean r.user)
    (hstage : stage ≠ .consumed ∧ stage ≠ .inserted) : stage.Ok c i r := by
  cases stage with
  | auditing => trivial
  | committed => exact .inr h
  | consumed => exact absurd rfl hstage.1
  | inserted => exact absurd rfl hstage.2
  | found | begun | checked => exact ⟨h.2, fun _ _ _ => h.1, fun _ => h.1⟩
  | raising => exact ⟨h.2, fun _ _ _ => trivial, fun _ => h.1⟩

theorem RedeemStage.Ok.undo {r : Redemption} {stage : RedeemStage} (h : stage.Ok c i r) :
    stage.Ok c.undo i r := by
  cases stage with
  | auditing => trivial
  | committed =>
    rcases h with ⟨hmade, hsaved⟩ | hclean
    · refine .inl ⟨?_, fun t ht => (by cases ht)⟩
      show (c.durable.users.lookup r.user).isSome = true
      rw [InviteConfig.durable]
      cases ht : c.txn with
      | none => exact hmade
      | some t => exact hsaved t ht
    · exact .inr ⟨hclean.durable, fun t ht => (by cases ht)⟩
  | found | begun | checked | consumed | inserted | raising =>
    exact ⟨fun t ht => (by cases ht), fun t ht => (by cases ht), fun _ => Pending.durable h⟩

theorem KeepsRevocations.row {s t : InviteTables} (h : KeepsRevocations s t) {id : String}
    {row row' : InviteRow} (hrow : t.invites.lookup id = some row) (hrev : row.revokedAt.isSome = true)
    (hrow' : s.invites.lookup id = some row') : row'.revokedAt.isSome = true := by
  have hany := h ⟨id, row⟩ (AList.mem_lookup_iff.mp hrow) hrev
  rw [hrow'] at hany
  exact hany

theorem InviteInv.undo (h : InviteInv c)
    (hkeep : ∀ t ∈ c.txn, KeepsRevocations t.saved c.tables) : InviteInv c.undo where
  tables := h.durable.1
  saved t ht := by cases ht
  revoked invite hinv row hrow := by
    have hrev := h.revoked invite hinv
    have hdurable : c.durable.invites.lookup invite = some row := hrow
    rw [InviteConfig.durable] at hdurable
    cases ht : c.txn with
    | none =>
      rw [ht] at hdurable
      exact hrev row hdurable
    | some t =>
      rw [ht] at hdurable
      have hsame := (h.saved t ht).2.2 invite
      rw [hdurable] at hsame
      obtain ⟨row', hrow'⟩ := Option.isSome_iff_exists.mp hsame.symm
      exact (hkeep t ht).row hrow' (hrev row' hrow') hdurable
  raised user hu := ⟨(h.raised user hu).1, h.durable.2.2 user hu, fun t ht => (by cases ht)⟩
  redeem i r stage hi := by
    obtain ⟨hdrawn, hraised, hok⟩ := h.redeem i r stage hi
    exact ⟨hdrawn, hraised, hok.undo⟩
  distinct := h.distinct
  drawn user hu := by
    rcases hu with hu | ⟨t, ht, -⟩
    · refine h.drawn user ?_
      have hdurable : c.durable.Trace user := hu
      rw [InviteConfig.durable] at hdurable
      cases ht : c.txn with
      | none =>
        rw [ht] at hdurable
        exact .inl hdurable
      | some t =>
        rw [ht] at hdurable
        exact .inr ⟨t, rfl, hdurable⟩
    · cases ht

theorem InviteInv.ensureConn (h : InviteInv c)
    (hkeep : ∀ t ∈ c.txn, t.failed = true → KeepsRevocations t.saved c.tables) :
    InviteInv c.ensureConn := by
  rw [InviteConfig.ensureConn]
  cases ht : c.txn with
  | none => exact h
  | some t =>
    simp only
    split
    · rename_i hfailed
      exact h.undo fun t' ht' => by
        cases ht.symm.trans ht'
        exact hkeep t ht hfailed
    · exact h

theorem InviteInv.send (h : InviteInv c) (ok : Bool) : InviteInv (c.send ok) := by
  have htxn : ∀ t ∈ (c.send ok).txn, ∃ t' ∈ c.txn, t.saved = t'.saved ∧ t.owner = t'.owner ∧
      ∀ now, t'.started = some now → t.started = some now := by
    intro t ht
    obtain ⟨t', ht', rfl⟩ := Option.map_eq_some_iff.mp ht
    refine ⟨t', ht', rfl, rfl, fun now hnow => ?_⟩
    rw [InviteConfig.sqlNow, ht']
    simp [hnow]
  have htxn' : ∀ t' ∈ c.txn, ∃ t ∈ (c.send ok).txn, t.saved = t'.saved ∧ t.owner = t'.owner ∧
      ∀ now, t'.started = some now → t.started = some now := by
    intro t' ht'
    refine ⟨_, Option.map_eq_some_iff.mpr ⟨t', ht', rfl⟩, rfl, rfl, fun now hnow => ?_⟩
    rw [InviteConfig.sqlNow, ht']
    simp [hnow]
  have hsaved {P : InviteTables → Prop} (hP : ∀ t ∈ c.txn, P t.saved) :
      ∀ t ∈ (c.send ok).txn, P t.saved := by
    intro t ht
    obtain ⟨t', ht', he, -⟩ := htxn t ht
    rw [he]
    exact hP t' ht'
  refine ⟨h.tables, hsaved (P := fun s => s.Ok ∧ (∀ o ∈ s.origins, o ∈ c.tables.origins) ∧
    SameInvites s c.tables) h.saved, h.revoked, fun user hu => ?_, fun i r stage hi => ?_, h.distinct,
    fun user hu => ?_⟩
  · obtain ⟨hdrawn, htables, htrace⟩ := h.raised user hu
    exact ⟨hdrawn, htables, hsaved (P := fun s => ¬ s.Trace user) htrace⟩
  · obtain ⟨hdrawn, hraised, hok⟩ := h.redeem i r stage hi
    refine ⟨hdrawn, hraised, ?_⟩
    have hpending (h : stage.Pending c i r) : stage.Pending (c.send ok) i r := by
      refine ⟨hsaved (P := fun s => ¬ s.Trace r.user) h.1, fun t ht howner => ?_, fun hne => ?_⟩
      · obtain ⟨t', ht', -, he, hstarted⟩ := htxn t ht
        have hown := h.2.1 t' ht' (he ▸ howner)
        cases stage with
        | consumed =>
          obtain ⟨hnew, row, now, hrow, hby, hat, hrev, hnow, hlive⟩ := hown
          exact ⟨hnew, row, now, hrow, hby, hat, hrev, hstarted now hnow, hlive⟩
        | _ => exact hown
      · refine h.2.2 fun t' ht' howner => ?_
        obtain ⟨t, ht, -, he, -⟩ := htxn' t' ht'
        exact hne t ht (he.trans howner)
    cases stage with
    | auditing => trivial
    | committed =>
      rcases hok with ⟨hmade, hmades⟩ | hclean
      · exact .inl ⟨hmade, hsaved (P := fun s => (s.users.lookup r.user).isSome = true) hmades⟩
      · exact .inr ⟨hclean.1, hsaved (P := fun s => ¬ s.Trace r.user) hclean.2⟩
    | found | begun | checked | consumed | inserted | raising => exact hpending hok
  · rcases hu with hu | ⟨t, ht, htrace⟩
    · exact h.drawn user (.inl hu)
    · obtain ⟨t', ht', he, -⟩ := htxn t ht
      exact h.drawn user (.inr ⟨t', ht', he ▸ htrace⟩)

/-! ### Writes -/

/-- `t'` is `t` after a write: it leaves used invites and revocations alone, and what it records is
about `who`. -/
structure InviteTables.Writes (who : Option String) (t t' : InviteTables) : Prop where
  ok : t'.Ok
  origins : ∀ o ∈ t.origins, o ∈ t'.origins
  created : ∀ o ∈ t'.origins, o ∈ t.origins ∨ who = some o.user
  same : SameInvites t t'
  used : ∀ id row, t.invites.lookup id = some row → row.usedAt.isSome = true →
    t'.invites.lookup id = some row
  revoked : ∀ id row row', t.invites.lookup id = some row → t'.invites.lookup id = some row' →
    row.revokedAt.isSome = true → row'.revokedAt.isSome = true
  trace : ∀ user, t'.Trace user → t.Trace user ∨ who = some user
  users : ∀ user, (t.users.lookup user).isSome = true → (t'.users.lookup user).isSome = true

theorem InviteInv.write {who : Option String} {tables : InviteTables} (h : InviteInv c)
    (hw : InviteTables.Writes who c.tables tables)
    (hfresh : ∀ i r stage, c.phase i = .redeem r stage → who ≠ some r.user)
    (hdrawn : ∀ user ∈ who, user ∈ c.drawn ∧ user ∉ c.raised) : InviteInv (c.setTables tables) := by
  have hclean {user : String} (hne : who ≠ some user) (hc : ¬ c.tables.Trace user) :
      ¬ tables.Trace user := fun ht => (hw.trace user ht).elim hc hne
  refine ⟨hw.ok, fun t ht => ?_, fun invite hinv row hrow => ?_, fun user hu => ?_,
    fun i r stage hi => ?_, h.distinct, fun user hu => ?_⟩
  · obtain ⟨hok, hsub, hsame⟩ := h.saved t ht
    exact ⟨hok, fun o ho => hw.origins o (hsub o ho), fun id => (hsame id).trans (hw.same id)⟩
  · have hnew : tables.invites.lookup invite = some row := hrow
    have hsame := hw.same invite
    rw [hnew] at hsame
    obtain ⟨row', hrow'⟩ := Option.isSome_iff_exists.mp hsame
    exact hw.revoked invite row' row hrow' hrow (h.revoked invite hinv row' hrow')
  · obtain ⟨hd, hc, hsaved⟩ := h.raised user hu
    exact ⟨hd, hclean (fun he => (hdrawn user he).2 hu) hc, hsaved⟩
  · obtain ⟨hd, hraised, hok⟩ := h.redeem i r stage hi
    refine ⟨hd, hraised, ?_⟩
    have hne := hfresh i r stage hi
    have hpending (h : stage.Pending c i r) : stage.Pending (c.setTables tables) i r := by
      refine ⟨h.1, fun t ht howner => ?_, fun hother => hclean hne (h.2.2 hother)⟩
      have hown := h.2.1 t ht howner
      cases stage with
      | consumed =>
        obtain ⟨hnew, row, now, hrow, hby, hat, hrest⟩ := hown
        refine ⟨fun o ho => ?_, row, now, hw.used _ row hrow hat, hby, hat, hrest⟩
        rcases hw.created o ho with ho | hwho
        · exact hnew o ho
        · intro he
          exact hne (he ▸ hwho)
      | inserted => exact hw.users _ hown
      | raising => trivial
      | found | begun | checked | committed | auditing => exact hclean hne hown
    cases stage with
    | auditing => trivial
    | committed =>
      rcases hok with ⟨hmade, hmades⟩ | hc
      · exact .inl ⟨hw.users _ hmade, hmades⟩
      · exact .inr ⟨hclean hne hc.1, hc.2⟩
    | found | begun | checked | consumed | inserted | raising => exact hpending hok
  · rcases hu with hu | hu
    · rcases hw.trace user hu with hu | hu
      · exact h.drawn user (.inl hu)
      · exact (hdrawn user hu).1
    · exact h.drawn user (.inr hu)

theorem InviteTables.lookup_updateInvite {id k : String} {p : InviteRow → Bool}
    {f : InviteRow → InviteRow} {t : InviteTables} : (t.updateInvite id p f).invites.lookup k =
      if k = id then (t.invites.lookup k).map fun r => if p r then f r else r
      else t.invites.lookup k := by
  rw [updateInvite]
  by_cases hk : k = id
  · subst hk
    rw [if_pos rfl]
    cases hrow : t.invites.lookup k with
    | none => exact hrow
    | some r =>
      simp only [Option.map_some]
      split
      · exact AList.lookup_insert _
      · exact hrow
  · rw [if_neg hk]
    cases hrow : t.invites.lookup id with
    | none => rfl
    | some r =>
      simp only
      split
      · exact AList.lookup_insert_ne hk
      · rfl

theorem InviteTables.updateInvite_rest (id : String) (p : InviteRow → Bool)
    (f : InviteRow → InviteRow) (t : InviteTables) :
    (t.updateInvite id p f).origins = t.origins ∧ (t.updateInvite id p f).users = t.users := by
  rw [updateInvite]
  split
  · split
    · exact ⟨rfl, rfl⟩
    · exact ⟨rfl, rfl⟩
  · exact ⟨rfl, rfl⟩

theorem InviteTables.Ok.updateInvite {t : InviteTables} (h : t.Ok) {id : String}
    {p : InviteRow → Bool} {f : InviteRow → InviteRow} {who : Option String}
    (hp : ∀ row, p row = true → row.unspent = true)
    (hwho : ∀ row user, (f row).usedBy = some user → row.usedBy = some user ∨ who = some user) :
    Writes who t (t.updateInvite id p f) := by
  obtain ⟨horigins, husers⟩ := updateInvite_rest id p f t
  have hrow {k row} (hk : t.invites.lookup k = some row) : (t.updateInvite id p f).invites.lookup k =
      some (if k = id ∧ p row = true then f row else row) := by
    rw [lookup_updateInvite, hk]
    by_cases hid : k = id
    · simp [hid]
    · simp [hid]
  have hspent {k row} (hk : t.invites.lookup k = some row) (hs : row.unspent = false) :
      (t.updateInvite id p f).invites.lookup k = some row := by
    rw [hrow hk, if_neg]
    rintro ⟨-, hpr⟩
    rw [hp row hpr] at hs
    cases hs
  have hused {row : InviteRow} (hs : row.usedAt.isSome = true) : row.unspent = false := by
    rw [InviteRow.unspent, Option.isNone_eq_false_iff.mpr hs]
    rfl
  refine ⟨⟨fun o ho => ?_, ?_⟩, ?_, ?_, fun k => ?_, fun k row hk hs => hspent hk (hused hs),
    fun k row row' hk hk' hs => ?_, fun user hu => ?_, ?_⟩
  · rw [horigins] at ho
    obtain ⟨row, hk, hby, hat, hrest⟩ := h.origin o ho
    exact ⟨row, hspent hk (hused hat), hby, hat, hrest⟩
  · rw [horigins]
    exact h.user
  · rw [horigins]
    exact fun o ho => ho
  · rw [horigins]
    exact fun o ho => .inl ho
  · cases hk : t.invites.lookup k with
    | none =>
      rw [lookup_updateInvite, hk]
      split
      · rfl
      · rfl
    | some row =>
      rw [hrow hk]
      rfl
  · have hrevoked : row.unspent = false := by
      rw [InviteRow.unspent, Option.isNone_eq_false_iff.mpr hs, Bool.and_false]
    rw [hspent hk hrevoked] at hk'
    cases hk'
    exact hs
  · rcases hu with ⟨o, ho, he⟩ | ⟨k, row', hk', hby⟩
    · rw [horigins] at ho
      exact .inl (.inl ⟨o, ho, he⟩)
    · cases hk : t.invites.lookup k with
      | none =>
        rw [lookup_updateInvite, hk] at hk'
        split at hk'
        · cases hk'
        · cases hk'
      | some row =>
        rw [hrow hk] at hk'
        cases hk'
        split at hby
        · rcases hwho row user hby with hold | hwho
          · exact .inl (.inr ⟨k, row, hk, hold⟩)
          · exact .inr hwho
        · exact .inl (.inr ⟨k, row, hk, hby⟩)
  · rw [husers]
    exact fun _ hu => hu

theorem consumeInvite_writes {t : InviteTables} (h : t.Ok) (r : Redemption) (now : Nat) :
    InviteTables.Writes (some r.user) t (consumeInvite r now t) :=
  h.updateInvite (fun row hp => by
      simp only [InviteRow.active, Bool.and_eq_true] at hp
      exact hp.1)
    fun _ _ hby => .inr hby

theorem revokeInvite_writes {t : InviteTables} (h : t.Ok) (invite : String) (now : Nat) :
    InviteTables.Writes none t (revokeInvite invite now t) :=
  h.updateInvite (fun _ hp => hp) fun _ _ hby => .inl hby

theorem insertUser_writes {t : InviteTables} (h : t.Ok) {r : Redemption} {now : Nat} {row : InviteRow}
    (hnew : ∀ o ∈ t.origins, o.user ≠ r.user) (hrow : t.invites.lookup r.invite = some row)
    (hby : row.usedBy = some r.user) (hat : row.usedAt.isSome = true) (hrev : row.revokedAt = none)
    (hlive : now < row.expiresAt) : InviteTables.Writes (some r.user) t (insertUser r now t) where
  ok := by
    refine ⟨fun o ho => ?_, fun o ho o' ho' he => ?_⟩
    · rcases List.mem_cons.mp ho with rfl | ho
      · exact ⟨row, hrow, hby, hat, hrev, hlive⟩
      · exact h.origin o ho
    · rcases List.mem_cons.mp ho with rfl | ho
      · rcases List.mem_cons.mp ho' with rfl | ho'
        · rfl
        · exact absurd he.symm (hnew o' ho')
      · rcases List.mem_cons.mp ho' with rfl | ho'
        · exact absurd he (hnew o ho)
        · exact h.user o ho o' ho' he
  origins o ho := List.mem_cons_of_mem _ ho
  created o ho := by
    rcases List.mem_cons.mp ho with rfl | ho
    · exact .inr rfl
    · exact .inl ho
  same _ := rfl
  used _ _ hk _ := hk
  revoked _ _ _ hk hk' hs := by
    cases hk.symm.trans hk'
    exact hs
  trace user hu := by
    rcases hu with ⟨o, ho, he⟩ | hu
    · rcases List.mem_cons.mp ho with rfl | ho
      · exact .inr (congrArg some he)
      · exact .inl (.inl ⟨o, ho, he⟩)
    · exact .inl (.inr hu)
  users user hu := by
    show ((t.users.insert r.user r.account).lookup user).isSome = true
    by_cases he : user = r.user
    · subst he
      rw [AList.lookup_insert]
      rfl
    · rwa [AList.lookup_insert_ne he]

/-- What a caller must know when it enters a phase. -/
def InvitePhase.Ok (c : InviteConfig ι) (i : ι) : InvitePhase → Prop
  | .redeem r stage => r.user ∈ c.drawn ∧ r.user ∉ c.raised ∧ stage.Ok c i r ∧
    ∀ j r' stage', j ≠ i → c.phase j = .redeem r' stage' → r.user ≠ r'.user
  | .revoke invite .updated =>
    ∀ row, c.tables.invites.lookup invite = some row → row.revokedAt.isSome = true
  | _ => True

theorem InviteInv.phase (h : InviteInv c) : (c.phase i).Ok c i := by
  cases hi : c.phase i with
  | idle => trivial
  | redeem r stage =>
    obtain ⟨hd, hraised, hok⟩ := h.redeem i r stage hi
    exact ⟨hd, hraised, hok, fun j r' stage' hj hphase he =>
      hj (h.distinct i j r r' stage stage' hi hphase he).symm⟩
  | revoke invite stage =>
    cases stage with
    | selected => trivial
    | updated => exact h.revoked invite (.inr ⟨i, hi⟩)

theorem InviteInv.stage {r : Redemption} {stage stage' : RedeemStage} (h : InviteInv c)
    (hi : c.phase i = .redeem r stage) (hok : stage'.Ok c i r) :
    (InvitePhase.redeem r stage').Ok c i := by
  have hphase := h.phase (i := i)
  rw [hi] at hphase
  exact ⟨hphase.1, hphase.2.1, hok, hphase.2.2.2⟩

theorem InviteInv.draw (h : InviteInv c) (user : String) :
    InviteInv { c with drawn := user :: c.drawn } where
  tables := h.tables
  saved := h.saved
  revoked := h.revoked
  raised u hu := ⟨List.mem_cons_of_mem _ (h.raised u hu).1, (h.raised u hu).2⟩
  redeem i r stage hi := by
    obtain ⟨hd, hraised, hok⟩ := h.redeem i r stage hi
    exact ⟨List.mem_cons_of_mem _ hd, hraised, hok⟩
  distinct := h.distinct
  drawn u hu := List.mem_cons_of_mem _ (h.drawn u hu)

theorem InviteInv.open (h : InviteInv c) (ht : c.txn = none) (hi : c.phase i = .idle) :
    InviteInv { c with
      txn := some { owner := i, saved := c.tables, failed := false, started := none } } := by
  have hclean {user : String} (hc : c.Clean user) : ¬ c.tables.Trace user := hc.1
  refine ⟨h.tables, fun t ht' => ?_, h.revoked, fun user hu => ?_, fun j r stage hj => ?_,
    h.distinct, fun user hu => ?_⟩
  · cases ht'
    exact ⟨h.tables, fun _ ho => ho, fun _ => rfl⟩
  · obtain ⟨hd, hc⟩ := h.raised user hu
    exact ⟨hd, hc.1, fun t ht' => by cases ht'; exact hc.1⟩
  · obtain ⟨hd, hraised, hok⟩ := h.redeem j r stage hj
    refine ⟨hd, hraised, ?_⟩
    have hpending (hp : stage.Pending c j r) : stage.Pending { c with
        txn := some { owner := i, saved := c.tables, failed := false, started := none } } j r := by
      have hc := hp.2.2 fun t ht' => by cases ht.symm.trans ht'
      refine ⟨fun t ht' => by cases ht'; exact hc, fun t ht' howner => ?_, fun _ => hc⟩
      cases ht'
      have hij : i = j := howner
      subst hij
      cases hi.symm.trans hj
    cases stage with
    | auditing => trivial
    | committed =>
      rcases hok with ⟨hmade, -⟩ | hc
      · exact .inl ⟨hmade, fun t ht' => by cases ht'; exact hmade⟩
      · exact .inr ⟨hc.1, fun t ht' => by cases ht'; exact hc.1⟩
    | found | begun | checked | consumed | inserted | raising => exact hpending hok
  · rcases hu with hu | ⟨t, ht', hu⟩
    · exact h.drawn user (.inl hu)
    · cases ht'
      exact h.drawn user (.inl hu)

theorem InviteInv.close (h : InviteInv c) {t : InviteTxn ι} (ht : c.txn = some t)
    (hi : c.phase t.owner = .idle) : InviteInv { c with txn := none } := by
  refine ⟨h.tables, fun t' ht' => (by cases ht'), h.revoked, fun user hu => ?_,
    fun j r stage hj => ?_, h.distinct, fun user hu => ?_⟩
  · obtain ⟨hd, hc⟩ := h.raised user hu
    exact ⟨hd, hc.1, fun t' ht' => (by cases ht')⟩
  · obtain ⟨hd, hraised, hok⟩ := h.redeem j r stage hj
    refine ⟨hd, hraised, ?_⟩
    have hpending (hp : stage.Pending c j r) : stage.Pending { c with txn := none } j r := by
      refine ⟨fun t' ht' => (by cases ht'), fun t' ht' => (by cases ht'), fun _ => hp.2.2 ?_⟩
      intro t' ht' howner
      cases ht.symm.trans ht'
      rw [howner] at hi
      cases hi.symm.trans hj
    cases stage with
    | auditing => trivial
    | committed =>
      rcases hok with ⟨hmade, -⟩ | hc
      · exact .inl ⟨hmade, fun t' ht' => (by cases ht')⟩
      · exact .inr ⟨hc.1, fun t' ht' => (by cases ht')⟩
    | found | begun | checked | consumed | inserted | raising => exact hpending hok
  · rcases hu with hu | ⟨t', ht', -⟩
    · exact h.drawn user (.inl hu)
    · cases ht'

variable [DecidableEq ι]

theorem InviteInv.move {p : InvitePhase} (h : InviteInv c) (hp : p.Ok c i) :
    InviteInv (c.move i p) := by
  have hphase : ∀ j, (c.move i p).phase j = if j = i then p else c.phase j :=
    fun j => Function.update_apply _ _ _ _
  refine ⟨h.tables, h.saved, fun invite hinv => ?_, h.raised, fun j r stage hj => ?_,
    fun j k r r' stage stage' hj hk he => ?_, h.drawn⟩
  · rcases hinv with hrep | ⟨j, hj⟩
    · exact h.revoked invite (.inl hrep)
    · rw [hphase] at hj
      split at hj
      · rw [hj] at hp
        exact hp
      · exact h.revoked invite (.inr ⟨j, hj⟩)
  · rw [hphase] at hj
    split at hj
    · rename_i he
      subst he
      rw [hj] at hp
      exact ⟨hp.1, hp.2.1, hp.2.2.1⟩
    · exact h.redeem j r stage hj
  · rw [hphase] at hj hk
    split at hj
    · rename_i hji
      split at hk
      · rename_i hki
        rw [hji, hki]
      · rename_i hki
        rw [hj] at hp
        exact absurd he (hp.2.2.2 k r' stage' hki hk)
    · rename_i hji
      split at hk
      · rw [hk] at hp
        exact absurd he.symm (hp.2.2.2 j r stage hji hj)
      · exact h.distinct j k r r' stage stage' hj hk he

theorem InviteInv.idle (h : InviteInv c) : InviteInv (c.move i .idle) := h.move trivial

theorem InviteInv.others {r : Redemption} {stage : RedeemStage} (h : InviteInv c)
    (hi : c.phase i = .redeem r stage) :
    ∀ j r' stage', j ≠ i → (c.move i .idle).phase j = .redeem r' stage' → r.user ≠ r'.user := by
  intro j r' stage' hji hj he
  have hcj : (c.move i .idle).phase j = c.phase j := Function.update_of_ne hji _ _
  exact hji (h.distinct i j r r' stage stage' hi (hcj ▸ hj) he).symm

theorem InviteInv.raise {r : Redemption} {stage : RedeemStage} (h : InviteInv c)
    (hi : c.phase i = .redeem r stage) (hclean : c.Clean r.user) : InviteInv (c.raise i r.user) := by
  have hphase := h.phase (i := i)
  rw [hi] at hphase
  obtain ⟨hd, -, -, hothers⟩ := hphase
  have hidle := h.move (i := i) (p := .idle) trivial
  refine ⟨hidle.tables, hidle.saved, hidle.revoked, fun user hu => ?_, fun j r' stage' hj => ?_,
    hidle.distinct, hidle.drawn⟩
  · rcases List.mem_cons.mp hu with rfl | hu
    · exact ⟨hd, hclean⟩
    · exact h.raised user hu
  · obtain ⟨hd', hraised', hok'⟩ := hidle.redeem j r' stage' hj
    refine ⟨hd', fun hmem => ?_, hok'⟩
    rcases List.mem_cons.mp hmem with he | hmem
    · by_cases hji : j = i
      · subst hji
        have hidle' : (c.move j .idle).phase j = .idle := Function.update_self ..
        cases hidle'.symm.trans hj
      · have hcj : (c.move i .idle).phase j = c.phase j := Function.update_of_ne hji _ _
        exact hothers j r' stage' hji (hcj ▸ hj) he.symm
    · exact hraised' hmem

theorem InviteInv.report {invite : String} (h : InviteInv c)
    (hi : c.phase i = .revoke invite .updated) :
    InviteInv ({ c with reported := invite :: c.reported }.move i .idle) := by
  have hidle := h.move (i := i) (p := .idle) trivial
  refine ⟨hidle.tables, hidle.saved, fun invite' hinv => ?_, hidle.raised, hidle.redeem,
    hidle.distinct, hidle.drawn⟩
  rcases hinv with hrep | hupdated
  · rcases List.mem_cons.mp hrep with rfl | hrep
    · exact h.revoked invite' (.inr ⟨i, hi⟩)
    · exact h.revoked invite' (.inl hrep)
  · exact hidle.revoked invite' (.inr hupdated)

/-! ### Each step -/

section Steps

variable {env : InviteEnv} {t : InviteConfig ι}

omit [DecidableEq ι] in
theorem ensureConn_rest : c.ensureConn.phase = c.phase ∧ c.ensureConn.drawn = c.drawn ∧
    c.ensureConn.reported = c.reported := by
  rw [InviteConfig.ensureConn]
  cases c.txn with
  | none => exact ⟨rfl, rfl, rfl⟩
  | some t =>
    simp only
    split
    · exact ⟨rfl, rfl, rfl⟩
    · exact ⟨rfl, rfl, rfl⟩

theorem InviteConfig.InOwnTxn.ensureConn (h : c.InOwnTxn i) : c.ensureConn = c ∧
    ∃ t, c.txn = some t ∧ t.owner = i := by
  rw [InviteConfig.InOwnTxn] at h
  cases ht : c.txn with
  | none => rw [ht] at h; cases h
  | some t =>
    rw [ht] at h
    simp only [Option.any_some, Bool.and_eq_true, decide_eq_true_eq, Bool.not_eq_true'] at h
    refine ⟨?_, t, rfl, h.1⟩
    rw [InviteConfig.ensureConn, ht]
    simp [h.2]

omit [DecidableEq ι] in
theorem findInvite_user {plaintext email password user : String} {r : Redemption}
    (h : findInvite env plaintext email password user c = some r) : r.user = user := by
  obtain ⟨parsed, -, h⟩ := Option.bind_eq_some_iff.mp h
  obtain ⟨e, -, h⟩ := Option.bind_eq_some_iff.mp h
  split at h
  · obtain ⟨normalised, -, h⟩ := Option.bind_eq_some_iff.mp h
    split at h
    · cases h
      rfl
    · cases h
  · cases h

theorem InviteInv.ensured {l : InviteLabel ι} (h : InviteInv c) (ha : Isolated l c)
    (hl : ∀ failed, l.losesTxn failed = failed) : InviteInv c.ensureConn :=
  h.ensureConn fun t ht hfailed => ha.1 t ht (by rw [hl]; exact hfailed)

theorem InviteInv.clean {r : Redemption} {stage : RedeemStage} (h : InviteInv c)
    (hi : c.phase i = .redeem r stage)
    (hstage : stage = .found ∨ stage = .begun ∨ stage = .checked) : c.Clean r.user := by
  obtain ⟨-, -, hok⟩ := h.redeem i r stage hi
  have hclean (hp : stage.Pending c i r) (hown : ∀ started, stage.Own r started c.tables →
      ¬ c.tables.Trace r.user) : c.Clean r.user := by
    refine ⟨?_, hp.1⟩
    by_cases howner : ∃ t ∈ c.txn, t.owner = i
    · obtain ⟨t, ht, ho⟩ := howner
      exact hown _ (hp.2.1 t ht ho)
    · exact hp.2.2 fun t ht ho => howner ⟨t, ht, ho⟩
  rcases hstage with rfl | rfl | rfl
  · exact hclean hok fun _ hown => hown
  · exact hclean hok fun _ hown => hown
  · exact hclean hok fun _ hown => hown

theorem InviteInv.next_redeem {plaintext email password user : String} {ok : Bool}
    (h : InviteInv c) (ha : Isolated (.redeem i plaintext email password user ok) c)
    (hs : inviteStep env (.redeem i plaintext email password user ok) c = some t) :
    InviteInv t := by
  have he := h.ensured ha fun _ => rfl
  obtain ⟨hphase, hdrawn, -⟩ := ensureConn_rest (c := c)
  simp only [inviteStep] at hs
  split at hs
  · split at hs
    · cases hs
    · rename_i hunused
      split at hs
      · cases hs
        exact h
      · split at hs
        · cases hs
          exact he.send ok
        · rename_i r hfound
          cases hs
          have huser : r.user = user := by
            cases ok with
            | false => cases hfound
            | true => exact findInvite_user hfound
          rw [← hdrawn, ← huser] at hunused
          have hclean : c.ensureConn.Clean r.user :=
            ⟨fun htrace => hunused (he.drawn _ (.inl htrace)),
              fun t ht htrace => hunused (he.drawn _ (.inr ⟨t, ht, htrace⟩))⟩
          have hsent := he.send ok
          have hfound : RedeemStage.found.Ok (c.ensureConn.send ok) i r :=
            RedeemStage.ok_of_clean (hclean.send ok) ⟨by decide, by decide⟩
          rw [← hdrawn]
          refine (hsent.draw user).move (p := .redeem r .found) ⟨huser ▸ List.mem_cons_self ..,
            fun hmem => ?_, hfound, fun j r' stage' _ hj hne => ?_⟩
          · exact hunused (he.raised _ hmem).1
          · exact hunused (hne ▸ (he.redeem j r' stage' hj).1)
  · cases hs

theorem InviteInv.pass {r : Redemption} {stage stage' : RedeemStage} (h : InviteInv c)
    (hi : c.phase i = .redeem r stage) (hstage : stage = .found ∨ stage = .begun ∨ stage = .checked)
    (hstage' : stage' ≠ .consumed ∧ stage' ≠ .inserted) (ok : Bool) :
    InviteInv ((c.send ok).move i (.redeem r stage')) :=
  (h.send ok).move ((h.send ok).stage hi
    (RedeemStage.ok_of_clean ((h.clean hi hstage).send ok) hstage'))

theorem InviteInv.next_begin (h : InviteInv c) (ha : Isolated (.begin i) c)
    (hs : inviteStep env (.begin i) c = some t) : InviteInv t := by
  have he := h.ensured ha fun _ => rfl
  obtain ⟨hphase, -, -⟩ := ensureConn_rest (c := c)
  simp only [inviteStep] at hs
  split at hs
  · rename_i r hi
    rw [← hphase] at hi
    have hclean := he.clean hi (.inl rfl)
    split at hs
    · cases hs
      exact he.raise hi hclean
    · rename_i htxn
      cases hs
      have hopen := he.idle.open (i := i) htxn (Function.update_self ..)
      have hbegun := hopen.move (i := i) (p := .redeem r .begun) <| by
        obtain ⟨hd, hraised, -⟩ := he.redeem i r .found hi
        refine ⟨hd, hraised, RedeemStage.ok_of_clean ⟨hclean.1, fun t' ht' => ?_⟩
          ⟨by decide, by decide⟩, he.others hi⟩
        cases ht'
        exact hclean.1
      simpa only [InviteConfig.move, Function.update_idem] using hbegun
  · cases hs

theorem InviteInv.next_selectEmail {ok : Bool} (h : InviteInv c)
    (ha : Isolated (.selectEmail i ok) c) (hs : inviteStep env (.selectEmail i ok) c = some t) :
    InviteInv t := by
  have he := h.ensured ha fun _ => rfl
  obtain ⟨hphase, -, -⟩ := ensureConn_rest (c := c)
  simp only [inviteStep] at hs
  split at hs
  · rename_i r hi
    rw [← hphase] at hi
    cases hs
    refine he.pass hi (.inr (.inl rfl)) ?_ ok
    split
    · exact ⟨by decide, by decide⟩
    · exact ⟨by decide, by decide⟩
  · cases hs

theorem InviteInv.own_write {r : Redemption} {stage stage' : RedeemStage} {tables : InviteTables}
    (h : InviteInv c) (hi : c.phase i = .redeem r stage) (hown : c.InOwnTxn i)
    (hsaved : ∀ t ∈ c.txn, ¬ t.saved.Trace r.user)
    (hw : InviteTables.Writes (some r.user) c.tables tables)
    (hstage : stage'.Own r (some c.sqlNow) tables)
    (hstage' : stage' = .consumed ∨ stage' = .inserted) :
    InviteInv (((c.send true).setTables tables).move i (.redeem r stage')) := by
  obtain ⟨-, txn, htxn, howner⟩ := hown.ensureConn
  obtain ⟨hd, hraised, -⟩ := h.redeem i r stage hi
  have hother := h.others hi
  have hwrite : InviteInv (((c.move i .idle).send true).setTables tables) := by
    refine (h.idle.send true).write hw (fun j r' stage' hj he => ?_) fun user hu => ?_
    · by_cases hji : j = i
      · subst hji
        have hidle : (c.move j .idle).phase j = .idle := Function.update_self ..
        cases hidle.symm.trans hj
      · exact hother j r' stage' hji hj (Option.some.inj he)
    · cases hu
      exact ⟨hd, hraised⟩
  have hpending : stage'.Pending (((c.move i .idle).send true).setTables tables) i r := by
    refine ⟨fun t ht => ?_, fun t ht _ => ?_, fun hne => ?_⟩
    · obtain ⟨t', ht', rfl⟩ := Option.map_eq_some_iff.mp ht
      exact hsaved t' ht'
    · obtain ⟨t', -, rfl⟩ := Option.map_eq_some_iff.mp ht
      exact hstage
    · refine absurd howner (hne { txn with failed := !true, started := some c.sqlNow } ?_)
      exact Option.map_eq_some_iff.mpr ⟨txn, htxn, rfl⟩
  have hmoved := hwrite.move (i := i) (p := .redeem r stage') <| by
    refine ⟨hd, hraised, ?_, hother⟩
    rcases hstage' with rfl | rfl
    · exact hpending
    · exact hpending
  simpa only [InviteConfig.move, InviteConfig.send, InviteConfig.setTables, InviteConfig.sqlNow,
    Function.update_idem] using hmoved

theorem InviteInv.next_consume {ok : Bool} (h : InviteInv c) (ha : Isolated (.consume i ok) c)
    (hs : inviteStep env (.consume i ok) c = some t) : InviteInv t := by
  have he := h.ensured ha fun _ => rfl
  obtain ⟨hphase, -, -⟩ := ensureConn_rest (c := c)
  simp only [inviteStep] at hs
  split at hs
  · rename_i r hi
    split at hs
    · rename_i hcond
      cases hs
      obtain ⟨rfl, hrow⟩ := Bool.and_eq_true_iff.mp hcond
      obtain ⟨hsame, -⟩ := InviteConfig.InOwnTxn.ensureConn ha.2
      rw [hsame] at hrow ⊢
      obtain ⟨htrace, hsaved⟩ := h.clean hi (.inr (.inr rfl))
      refine h.own_write hi ha.2 hsaved (consumeInvite_writes h.tables r c.sqlNow) ⟨fun o ho hu => ?_, ?_⟩
        (.inl rfl)
      · rw [consumeInvite, (InviteTables.updateInvite_rest ..).1] at ho
        exact htrace (.inl ⟨o, ho, hu⟩)
      · rw [consumable] at hrow
        split at hrow
        · rename_i row hlookup
          have hnew : (consumeInvite r c.sqlNow c.tables).invites.lookup r.invite =
              some { row with usedAt := some c.sqlNow, usedBy := some r.user } := by
            rw [consumeInvite, InviteTables.lookup_updateInvite, if_pos rfl, hlookup]
            simp [hrow]
          simp only [InviteRow.active, InviteRow.unspent, Bool.and_eq_true, decide_eq_true_eq,
            Option.isNone_iff_eq_none] at hrow
          exact ⟨_, c.sqlNow, hnew, rfl, rfl, hrow.1.2, rfl, hrow.2⟩
        · cases hrow
    · cases hs
      rw [← hphase] at hi
      exact he.pass hi (.inr (.inr rfl)) ⟨by decide, by decide⟩ ok
  · cases hs

theorem InviteInv.abort {r : Redemption} {stage : RedeemStage} (h : InviteInv c)
    (hi : c.phase i = .redeem r stage) (hstage : stage = .consumed ∨ stage = .inserted) :
    InviteInv (c.move i (.redeem r .raising)) := by
  obtain ⟨-, -, hok⟩ := h.redeem i r stage hi
  have hraising (hp : stage.Pending c i r) : RedeemStage.raising.Ok c i r :=
    ⟨hp.1, fun _ _ _ => trivial, hp.2.2⟩
  rcases hstage with rfl | rfl
  · exact h.move (h.stage hi (hraising hok))
  · exact h.move (h.stage hi (hraising hok))

theorem InviteInv.next_insertUser {ok : Bool} (h : InviteInv c)
    (ha : Isolated (.insertUser i ok) c) (hs : inviteStep env (.insertUser i ok) c = some t) :
    InviteInv t := by
  have he := h.ensured ha fun _ => rfl
  obtain ⟨hphase, -, -⟩ := ensureConn_rest (c := c)
  simp only [inviteStep] at hs
  split at hs
  · rename_i r hi
    split at hs
    · rename_i hcond
      cases hs
      obtain ⟨rfl, -⟩ := Bool.and_eq_true_iff.mp hcond
      obtain ⟨hsame, txn, htxn, howner⟩ := InviteConfig.InOwnTxn.ensureConn ha.2
      rw [hsame]
      obtain ⟨-, -, hsaved, hconsumed, -⟩ := h.redeem i r .consumed hi
      obtain ⟨hnew, row, now, hrow, hby, hat, hrev, hstarted, hlive⟩ := hconsumed txn htxn howner
      have hnow : c.sqlNow = now := by
        rw [InviteConfig.sqlNow, htxn]
        simp [hstarted]
      refine h.own_write hi ha.2 hsaved
        (insertUser_writes h.tables hnew hrow hby hat hrev (hnow ▸ hlive)) ?_ (.inr rfl)
      show ((c.tables.users.insert r.user r.account).lookup r.user).isSome = true
      rw [AList.lookup_insert]
      rfl
    · cases hs
      rw [← hphase] at hi
      exact (he.send false).abort hi (.inl rfl)
  · cases hs

theorem InviteInv.next_commit {ok : Bool} (h : InviteInv c) (ha : Isolated (.commit i ok) c)
    (hs : inviteStep env (.commit i ok) c = some t) : InviteInv t := by
  simp only [inviteStep] at hs
  split at hs
  · rename_i r hi
    cases hs
    obtain ⟨hd, hraised, hp⟩ := h.redeem i r .inserted hi
    cases ok with
    | false => exact h.abort hi (.inr rfl)
    | true =>
      rw [if_pos rfl, InviteConfig.commit]
      obtain ⟨hkeep, howner⟩ := ha
      cases ht : c.txn with
      | none =>
        rw [InviteConfig.Alone, ht] at howner
        cases howner
      | some txn =>
        rw [InviteConfig.Alone, ht] at howner
        have howner : txn.owner = i := by simpa using howner
        simp only
        split
        · rename_i hfailed
          -- the server answers the `COMMIT` of an aborted transaction with a rollback
          have hundone := h.undo fun t' ht' => hkeep t' ht' (by
            cases ht.symm.trans ht'
            simpa [InviteLabel.losesTxn] using hfailed)
          exact hundone.move (hundone.stage hi (.inr ⟨hp.durable, fun t' ht' => (by cases ht')⟩))
        · have hclosed := h.idle (i := i) |>.close ht (by rw [howner]; exact Function.update_self ..)
          have hmade := hp.2.1 txn ht howner
          have hmoved := hclosed.move (i := i) (p := .redeem r .committed)
            ⟨hd, hraised, .inl ⟨hmade, fun t' ht' => (by cases ht')⟩, h.others hi⟩
          simpa only [InviteConfig.move, Function.update_idem] using hmoved
  · cases hs

theorem InviteInv.next_rollback (h : InviteInv c) (ha : Isolated (.rollback i) c)
    (hs : inviteStep env (.rollback i) c = some t) : InviteInv t := by
  simp only [inviteStep] at hs
  split at hs
  · rename_i r hi
    cases hs
    obtain ⟨-, -, hp⟩ := h.redeem i r .raising hi
    have hundone := h.undo fun t' ht' => ha.1 t' ht' rfl
    exact hundone.raise hi ⟨hp.durable, fun t' ht' => (by cases ht')⟩
  · cases hs

theorem InviteInv.next_selectUser {ok : Bool} (h : InviteInv c)
    (ha : Isolated (.selectUser i ok) c) (hs : inviteStep env (.selectUser i ok) c = some t) :
    InviteInv t := by
  have he := h.ensured ha fun _ => rfl
  obtain ⟨hphase, -, -⟩ := ensureConn_rest (c := c)
  simp only [inviteStep] at hs
  split at hs
  · rename_i r hi
    have hi' : c.ensureConn.phase i = .redeem r .committed := hphase ▸ hi
    split at hs
    · cases hs
      exact (he.send ok).move ((he.send ok).stage hi' trivial)
    · rename_i hcond
      cases hs
      obtain ⟨-, -, ⟨hmade, -⟩ | hclean⟩ := he.redeem i r .committed hi'
      · cases ok with
        | true => exact absurd hmade (by simpa using hcond)
        | false =>
          have hnone := ha.2 r.user (by rw [hi]; rfl)
          rw [hnone] at hmade
          cases hmade
      · exact (he.send ok).raise hi' (hclean.send ok)
  · cases hs

theorem InviteInv.next_revoke {invite : String} {ok : Bool} (h : InviteInv c)
    (ha : Isolated (.revoke i invite ok) c) (hs : inviteStep env (.revoke i invite ok) c = some t) :
    InviteInv t := by
  have he := h.ensured ha fun _ => rfl
  simp only [inviteStep] at hs
  split at hs
  · split at hs
    · cases hs
      exact (he.send ok).move trivial
    · cases hs
      exact he.send ok
  · cases hs

theorem InviteInv.next_updateRevoked {ok : Bool} (h : InviteInv c)
    (ha : Isolated (.updateRevoked i ok) c) (hs : inviteStep env (.updateRevoked i ok) c = some t) :
    InviteInv t := by
  have he := h.ensured ha fun _ => rfl
  simp only [inviteStep] at hs
  split at hs
  · rename_i invite hi
    split at hs
    · rename_i hok
      subst hok
      cases hs
      have hunused := ha.2 invite (by rw [hi]; rfl)
      have hwrite := (he.send true).write (revokeInvite_writes he.tables invite c.ensureConn.sqlNow)
        (fun _ _ _ _ hnone => (by cases hnone)) fun _ hnone => (by cases hnone)
      refine hwrite.move (p := .revoke invite .updated) fun row hrow => ?_
      have hlookup : (revokeInvite invite c.ensureConn.sqlNow c.ensureConn.tables).invites.lookup invite =
        some row := hrow
      rw [revokeInvite, InviteTables.lookup_updateInvite, if_pos rfl] at hlookup
      obtain ⟨row', hrow', rfl⟩ := Option.map_eq_some_iff.mp hlookup
      split
      · rfl
      · rename_i hspent
        rw [Option.isSome_iff_ne_none]
        simpa [InviteRow.unspent, hunused row' hrow'] using hspent
    · cases hs
      exact (he.send false).idle
  · cases hs

theorem InviteInv.next_audit {ok : Bool} (h : InviteInv c) (ha : Isolated (.audit i ok) c)
    (hs : inviteStep env (.audit i ok) c = some t) : InviteInv t := by
  have he := h.ensured ha fun _ => rfl
  obtain ⟨hphase, -, hreported⟩ := ensureConn_rest (c := c)
  simp only [inviteStep] at hs
  split at hs
  · cases hs
    exact (he.send ok).idle
  · rename_i invite hi
    cases hs
    rw [← hreported]
    exact (he.send ok).report (hphase ▸ hi)
  · cases hs

omit [DecidableEq ι] in
theorem InviteInv.next_tick (h : InviteInv c) : InviteInv { c with now := c.now + 1 } :=
  ⟨h.tables, h.saved, h.revoked, h.raised, h.redeem, h.distinct, h.drawn⟩

theorem InviteInv.next (l : InviteLabel ι) (h : InviteInv c) (ha : Isolated l c)
    (hs : inviteStep env l c = some t) : InviteInv t := by
  cases l with
  | redeem i plaintext email password user ok => exact h.next_redeem ha hs
  | begin i => exact h.next_begin ha hs
  | selectEmail i ok => exact h.next_selectEmail ha hs
  | consume i ok => exact h.next_consume ha hs
  | insertUser i ok => exact h.next_insertUser ha hs
  | commit i ok => exact h.next_commit ha hs
  | rollback i => exact h.next_rollback ha hs
  | selectUser i ok => exact h.next_selectUser ha hs
  | revoke i invite ok => exact h.next_revoke ha hs
  | updateRevoked i ok => exact h.next_updateRevoked ha hs
  | audit i ok => exact h.next_audit ha hs
  | tick =>
    cases hs
    exact h.next_tick

omit [DecidableEq ι] in
theorem InviteStart.inv (h : InviteStart c) : InviteInv c where
  tables := by
    refine ⟨fun o ho => ?_, fun o ho => ?_⟩
    · rw [h.origins] at ho
      cases ho
    · rw [h.origins] at ho
      cases ho
  saved t ht := by
    rw [h.txn] at ht
    cases ht
  revoked invite hinv := by
    rcases hinv with hrep | ⟨i, hi⟩
    · rw [h.reported] at hrep
      cases hrep
    · rw [h.idle i] at hi
      cases hi
  raised user hu := by
    rw [h.raised] at hu
    cases hu
  redeem i r stage hi := by
    rw [h.idle i] at hi
    cases hi
  distinct i j r r' stage stage' hi := by
    rw [h.idle i] at hi
    cases hi
  drawn user hu := by
    rcases hu with (⟨o, ho, -⟩ | ⟨id, row, hrow, hby⟩) | ⟨t, ht, -⟩
    · rw [h.origins] at ho
      cases ho
    · exact h.drawn id row user hrow hby
    · rw [h.txn] at ht
      cases ht

end Steps

/-- In a run of isolated steps, an invite is single-use in every state that is reached. -/
theorem invites_single_use (env : InviteEnv) {c₀ c : InviteConfig ι}
    (h₀ : InviteStart c₀) (h : Reaches (inviteStep env) Isolated c₀ c) : SingleUse c :=
  (h.invariant h₀.inv fun l _ _ hi ha hs => hi.next l ha hs).singleUse

end System

namespace InviteExample

def env : InviteEnv :=
  { lower := id, sha256 := id, validateEmail := some, validPassword := fun _ => true
    hashPassword := id }

def plaintext : String := "linv_0123456789abcdef"

/-- One invite, and nobody has used it. -/
def start : InviteConfig Bool :=
  let invite : InviteRow :=
    { tokenPrefix := "0123456789abcdef", tokenHash := plaintext, role := .user
      allowsShared := false, expiresAt := 10, usedAt := none, usedBy := none, revokedAt := none }
  { tables := { invites := AList.singleton "invite" invite, users := ∅, origins := [] }
    txn := none, now := 0, phase := fun _ => .idle, reported := [], raised := [], drawn := [] }

theorem start_idle : InviteStart start where
  idle _ := rfl
  txn := rfl
  origins := rfl
  reported := rfl
  raised := rfl
  drawn id row user hrow hby := by
    have hmem := AList.mem_lookup_iff.mp hrow
    cases List.mem_singleton.mp hmem
    cases hby

/-- Bob redeems the invite. -/
def redemption : List (InviteLabel Bool) :=
  [.redeem false plaintext "bob@home.example" "secret" "bob" true, .begin false, .selectEmail false true,
    .consume false true, .insertUser false true, .commit false true, .selectUser false true, .audit false true]

/-- The invite is found unused by a revocation, which goes on after the redemption. -/
def lateRevocation : List (InviteLabel Bool) :=
  .revoke true "invite" true :: redemption ++ [.updateRevoked true true, .audit true true]

end InviteExample

section Examples

open InviteExample

theorem invites_single_use_redemption :
    SingleUse (runTo (inviteStep InviteExample.env) redemption InviteExample.start) :=
  invites_single_use InviteExample.env InviteExample.start_idle
    (reaches_runTo (by decide) (by decide))

/-- The revocation reports success, and bob has been created from the invite. -/
theorem late_revocation_reported : ∃ c, Reaches (inviteStep InviteExample.env) (fun _ _ => True)
    InviteExample.start c ∧ "invite" ∈ c.reported ∧
      c.durable.origins = [{ invite := "invite", user := "bob", createdAt := 0 }] ∧
        ¬ SingleUse c := by
  refine ⟨runTo (inviteStep InviteExample.env) lateRevocation InviteExample.start,
    reaches_runTo (by decide) (by decide), by decide, by decide, ?_⟩
  intro h
  exact h.revoked { invite := "invite", user := "bob", createdAt := 0 } (by decide) (by decide)

end Examples

end Lumogis
