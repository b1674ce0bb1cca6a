import Lumogis.LlmProviders
import Lumogis.Lib.ReadThrough

/-!
# LlmKeyChanges

Calls of `get_llm_provider`, `put_payload` and `delete_payload` in any order, one access to the
credentials or to the cache of adapters at a time. A change of a credential drops the slots of its
user one by one after its statement; it stops at a slot that somebody else has dropped meanwhile, and
its listener's exception is only logged. The credentials of the household and of the instance have
tables of their own, which no adapter is made from and whose changes drop nothing.

`Timely`: no adapter is stored whose key is older than a change that has returned or has passed its
slot, and no invalidation stops before it has dropped the slots of its credential. In a run of such
steps no call returns an adapter that is older than a change which had returned when the call began
(`key_changes_take_effect`).
-/

namespace Lumogis

open Labelled

/-- A row of `user_connector_credentials`. -/
abbrev CredentialRow := Option UserId × String

/-- Where a credential is kept. -/
inductive CredentialTier where
  | user (userId : Option UserId)
  | household
  | instanceSystem
  deriving DecidableEq

/-- An adapter in the cache. -/
structure CachedAdapter where
  adapter : LlmAdapter
  /-- How many changes the row of its key had seen when the key was read. -/
  version : Nat

structure ProviderRequest where
  userId : Option UserId
  modelName : String
  cfg : ModelConfig
  slot : LlmSlot
  /-- The newest change of the row that had returned when the call began. -/
  since : Nat

/-- An adapter that a call has returned. -/
structure Taken where
  slot : LlmSlot
  since : Nat
  version : Nat

inductive KeyPhase where
  | idle
  | missed (request : ProviderRequest)
  /-- The key has been read. -/
  | keyed (request : ProviderRequest) (key : String) (version : Nat)
  | constructed (request : ProviderRequest) (made : CachedAdapter)
  | stored (request : ProviderRequest)
  /-- The statement of a change has run. -/
  | changed (row : CredentialRow) (version : Nat)
  /-- Slots that are still to be dropped. -/
  | invalidating (row : CredentialRow) (version : Nat) (rest : List LlmSlot)
  /-- `_fire_change` is over. -/
  | fired (row : CredentialRow) (version : Nat)

structure KeyConfig (ι : Type) where
  credentials : LlmCredentials
  /-- `household_connector_credentials` and `instance_system_connector_credentials`. -/
  sharedCredentials : AList fun _ : CredentialTier × String => Option LlmPayload
  instances : AList fun _ : LlmSlot => CachedAdapter
  /-- How many changes a row has seen, and the newest one that has returned. -/
  version : CredentialRow → Nat
  returned : CredentialRow → Nat
  phase : ι → KeyPhase
  taken : List Taken

inductive KeyLabel (ι : Type) where
  /-- The privacy check, the configuration and the look at the cache. -/
  | lookUp (i : ι) (settings : PrivacySettings) (judged installed : List String)
      (modelName : String) (userId : Option UserId)
  | readKey (i : ι) (ok : Bool)
  | construct (i : ι)
  | store (i : ι)
  /-- `return _instances[cache_key]`. -/
  | take (i : ι)
  /-- The `UPSERT` of `put_payload`. -/
  | put (i : ι) (tier : CredentialTier) (connector : String) (payload : LlmPayload) (ok : Bool)
  /-- The `DELETE` of `delete_payload`. -/
  | delete (i : ι) (tier : CredentialTier) (connector : String) (ok : Bool)
  /-- `to_drop`; it fails when the cache grows meanwhile. -/
  | snapshot (i : ι) (ok : Bool)
  | drop (i : ι)
  | return_ (i : ι)
  /-- `invalidate_llm_cache` drops a slot. -/
  | evict (slot : LlmSlot)

section System

variable {ι : Type} [DecidableEq ι]

/-- The row that the key of a slot's adapter is read from. -/
def credentialRow (models : ModelsConfig) : LlmSlot → Option CredentialRow
  | .cloud userId modelName =>
    ((models.yaml.lookup modelName).bind fun cfg => (truthy cfg.apiKeyEnv).bind
      connectorForApiKeyEnv).map fun connector => (userId, connector)
  | .shared _ => none

namespace KeyConfig

def move (i : ι) (p : KeyPhase) (c : KeyConfig ι) : KeyConfig ι :=
  { c with phase := Function.update c.phase i p }

omit [DecidableEq ι] in
/-- `version`, for a slot that may have no row. -/
def versionOf (c : KeyConfig ι) (row : Option CredentialRow) : Nat := (row.map c.version).getD 0

omit [DecidableEq ι] in
def returnedOf (c : KeyConfig ι) (row : Option CredentialRow) : Nat := (row.map c.returned).getD 0

/-- The call returns the adapter. -/
def take (slot : LlmSlot) (since : Nat) (made : CachedAdapter) (c : KeyConfig ι) : KeyConfig ι :=
  { c with taken := { slot := slot, since := since, version := made.version } :: c.taken }

/-- A change of the row. -/
def change (i : ι) (row : CredentialRow) (credentials : LlmCredentials) (c : KeyConfig ι) :
    KeyConfig ι :=
  { c with credentials := credentials
           version := Function.update c.version row (c.version row + 1) }.move i
    (.changed row (c.version row + 1))

end KeyConfig

/-- What a call finds before it looks at the cache. -/
def findSlot (env : LlmEnv) (models : ModelsConfig) (settings : PrivacySettings)
    (judged installed : List String) (modelName : String) (userId : Option UserId) :
    Except LlmError (ModelConfig × LlmSlot) := do
  assertRemoteAllowed env models settings judged modelName userId
  match models.getModelConfig installed modelName with
  | none => .error (.unknownModel modelName)
  | some cfg =>
    let slot ← slotOf env cfg modelName userId
    .ok (cfg, slot)

def keyStep (env : LlmEnv) (models : ModelsConfig) : KeyLabel ι → KeyConfig ι → Option (KeyConfig ι)
  | .lookUp i settings judged installed modelName userId, c =>
    match c.phase i with
    | .idle =>
      match findSlot env models settings judged installed modelName userId with
      | .error _ => some c
      | .ok (cfg, slot) =>
        let since := c.returnedOf (credentialRow models slot)
        match c.instances.lookup slot with
        | some made => some (c.take slot since made)
        | none => some (c.move i (.missed { userId := userId, modelName := modelName, cfg := cfg
                                            slot := slot, since := since }))
    | _ => none
  | .readKey i ok, c =>
    match c.phase i with
    | .missed request =>
      match adapterType request.cfg, effectiveKey env c.credentials request.cfg request.userId with
      | .ok _, .ok key =>
        if ok then some (c.move i
          (.keyed request key (c.versionOf (credentialRow models request.slot))))
        else some (c.move i .idle)
      | _, _ => some (c.move i .idle)
    | _ => none
  | .construct i, c =>
    match c.phase i with
    | .keyed request key version =>
      match adapterType request.cfg >>= fun kind =>
        buildAdapter request.cfg request.modelName kind key with
      | .ok adapter =>
        some (c.move i (.constructed request { adapter := adapter, version := version }))
      | .error _ => some (c.move i .idle)
    | _ => none
  | .store i, c =>
    match c.phase i with
    | .constructed request made =>
      some ({ c with instances := c.instances.insert request.slot made }.move i (.stored request))
    | _ => none
  | .take i, c =>
    match c.phase i with
    | .stored request =>
      match c.instances.lookup request.slot with
      | some made => some ((c.take request.slot request.since made).move i .idle)
      -- `KeyError`
      | none => some (c.move i .idle)
    | _ => none
  | .put i tier connector payload ok, c =>
    match c.phase i, tier with
    | .idle, .user userId =>
      if ok then some (c.change i (userId, connector)
        (c.credentials.insert (userId, connector) (some payload)))
      else some c
    | .idle, tier =>
      if ok then some { c with
        sharedCredentials := c.sharedCredentials.insert (tier, connector) (some payload) }
      else some c
    | _, _ => none
  | .delete i tier connector ok, c =>
    match c.phase i, tier with
    | .idle, .user userId =>
      if ok && (c.credentials.lookup (userId, connector)).isSome then
        some (c.change i (userId, connector) (c.credentials.erase (userId, connector)))
      else some c
    | .idle, tier =>
      if ok then some { c with sharedCredentials := c.sharedCredentials.erase (tier, connector) }
      else some c
    | _, _ => none
  | .snapshot i ok, c =>
    match c.phase i with
    | .changed row version =>
      if "llm_".toList.isPrefixOf row.2.toList && ok then
        some (c.move i (.invalidating row version
          (c.instances.keys.filter (LlmSlot.belongsTo row.1))))
      else some (c.move i (.fired row version))
    | _ => none
  | .drop i, c =>
    match c.phase i with
    | .invalidating row version [] => some (c.move i (.fired row version))
    | .invalidating row version (slot :: rest) =>
      if slot ∈ c.instances then
        some ({ c with instances := c.instances.erase slot }.move i (.invalidating row version rest))
      -- `KeyError`
      else some (c.move i (.fired row version))
    | _ => none
  | .return_ i, c =>
    match c.phase i with
    | .fired row version =>
      some ({ c with returned := Function.update c.returned row (max (c.returned row) version) }.move i
        .idle)
    | _ => none
  | .evict slot, c => some { c with instances := c.instances.erase slot }

/-! ## The law and its condition -/

/-- The change that the thread is making is over for the slot. -/
def KeyPhase.passed (models : ModelsConfig) (slot : LlmSlot) : KeyPhase → Option Nat
  | .invalidating row version rest =>
    if credentialRow models slot = some row ∧ slot ∉ rest then some version else none
  | .fired row version => if credentialRow models slot = some row then some version else none
  | _ => none

namespace KeyConfig

omit [DecidableEq ι]

/-- No slot of these is filled from the row. -/
def NoneFilled (models : ModelsConfig) (row : CredentialRow) (slots : List LlmSlot)
    (c : KeyConfig ι) : Prop :=
  ∀ slot ∈ slots, credentialRow models slot = some row → slot ∉ c.instances

/-- What `Timely` asks of a thread that stores, takes a snapshot or drops. -/
def StoresFresh (models : ModelsConfig) (c : KeyConfig ι) : KeyPhase → Prop
  | .constructed request made =>
    c.returnedOf (credentialRow models request.slot) ≤ made.version ∧
      ∀ j, ∀ version ∈ (c.phase j).passed models request.slot, version ≤ made.version
  | _ => True

def SeesAll (models : ModelsConfig) (c : KeyConfig ι) : KeyPhase → Prop
  | .changed row _ => c.NoneFilled models row c.instances.keys
  | _ => True

def DropsAll (models : ModelsConfig) (c : KeyConfig ι) : KeyPhase → Prop
  | .invalidating row _ (slot :: rest) => slot ∈ c.instances ∨ c.NoneFilled models row rest
  | _ => True

end KeyConfig

omit [DecidableEq ι] in
/-- See the head of the file. -/
def Timely (models : ModelsConfig) (l : KeyLabel ι) (c : KeyConfig ι) : Prop :=
  match l with
  | .store i => c.StoresFresh models (c.phase i)
  | .snapshot i false => c.SeesAll models (c.phase i)
  | .drop i => c.DropsAll models (c.phase i)
  | _ => True

section Decidable

variable {models : ModelsConfig} {c : KeyConfig Bool}

instance {row : CredentialRow} {slots : List LlmSlot} : Decidable (c.NoneFilled models row slots) :=
  inferInstanceAs (Decidable (∀ slot ∈ slots, _ → _))

instance KeyConfig.StoresFresh.decidable : (p : KeyPhase) → Decidable (c.StoresFresh models p)
  | .constructed _ _ => inferInstanceAs (Decidable (_ ∧ ∀ _, ∀ version ∈ _, _))
  | .idle | .missed _ | .keyed .. | .stored _ | .changed .. | .invalidating .. | .fired .. =>
    inferInstanceAs (Decidable True)

instance KeyConfig.SeesAll.decidable : (p : KeyPhase) → Decidable (c.SeesAll models p)
  | .changed _ _ => inferInstanceAs (Decidable (c.NoneFilled models _ _))
  | .idle | .missed _ | .keyed .. | .constructed .. | .stored _ | .invalidating .. | .fired .. =>
    inferInstanceAs (Decidable True)

instance KeyConfig.DropsAll.decidable : (p : KeyPhase) → Decidable (c.DropsAll models p)
  | .invalidating _ _ (_ :: _) => inferInstanceAs (Decidable (_ ∨ c.NoneFilled models _ _))
  | .idle | .missed _ | .keyed .. | .constructed .. | .stored _ | .changed .. | .invalidating _ _ []
  | .fired .. => inferInstanceAs (Decidable True)

instance Timely.decidable (c : KeyConfig Bool) : (l : KeyLabel Bool) → Decidable (Timely models l c)
  | .store i => inferInstanceAs (Decidable (c.StoresFresh models (c.phase i)))
  | .snapshot i false => inferInstanceAs (Decidable (c.SeesAll models (c.phase i)))
  | .drop i => inferInstanceAs (Decidable (c.DropsAll models (c.phase i)))
  | .lookUp .. | .readKey .. | .construct _ | .take _ | .put .. | .delete .. | .snapshot _ true
  | .return_ _ | .evict _ => inferInstanceAs (Decidable True)

end Decidable

/-- Nobody is in the middle of a call, and the cache is as the credentials. -/
structure KeyStart (models : ModelsConfig) (c : KeyConfig ι) : Prop where
  returned : ∀ row, c.returned row = c.version row
  cached : ∀ slot made, c.instances.lookup slot = some made →
    made.version = c.versionOf (credentialRow models slot)
  idle : ∀ i, c.phase i = .idle
  taken : c.taken = []

/-! ## The cache is a read-through cache of the credentials -/

open ReadThrough (Config Fresh)

def KeyPhase.readThrough (models : ModelsConfig) : KeyPhase → ReadThrough.Phase LlmSlot (Option CredentialRow)
  | .idle => .idle
  | .missed request => .missed request.slot request.since
  | .keyed request _ version => .loaded request.slot request.since version
  | .constructed request made => .loaded request.slot request.since made.version
  | .stored _ => .idle
  | .changed row version => .wrote (some row) version
  | .invalidating row version rest =>
    .dropping (some row) version (rest.filter fun slot => credentialRow models slot = some row)
  | .fired row version => .dropping (some row) version []

omit [DecidableEq ι] in
def KeyConfig.readThrough (models : ModelsConfig) (c : KeyConfig ι) :
    Config ι LlmSlot (Option CredentialRow) :=
  { version := c.versionOf, floor := c.returnedOf
    slot := fun slot => (c.instances.lookup slot).map CachedAdapter.version
    phase := fun i => (c.phase i).readThrough models, uses := [] }

abbrev KeyRun (models : ModelsConfig) :
    Config ι LlmSlot (Option CredentialRow) → Config ι LlmSlot (Option CredentialRow) → Prop :=
  Reaches (ReadThrough.step (credentialRow models)) (Fresh (credentialRow models))

variable {env : LlmEnv} {models : ModelsConfig} {c t : KeyConfig ι} {i : ι}

theorem KeyConfig.readThrough_move (p : KeyPhase) : (c.move i p).readThrough models =
    (c.readThrough models).move i (p.readThrough models) := by
  have hphase : (fun j => ((c.move i p).phase j).readThrough models) =
      Function.update (c.readThrough models).phase i (p.readThrough models) := by
    funext j
    show (Function.update c.phase i p j).readThrough models = _
    rw [Function.apply_update (fun _ q => KeyPhase.readThrough models q)]
    rfl
  show { c.readThrough models with phase := fun j => ((c.move i p).phase j).readThrough models } = _
  rw [hphase]
  rfl

omit [DecidableEq ι] in
theorem KeyConfig.readThrough_phase (models : ModelsConfig) {p : KeyPhase} (hi : c.phase i = p) :
    (c.readThrough models).phase i = p.readThrough models := congrArg (KeyPhase.readThrough models) hi

omit [DecidableEq ι] in
theorem KeyConfig.readThrough_insert (slot : LlmSlot) (made : CachedAdapter) :
    ({ c with instances := c.instances.insert slot made }).readThrough models =
      { c.readThrough models with
        slot := Function.update (c.readThrough models).slot slot (some made.version) } := by
  have hslot : (fun k => ((c.instances.insert slot made).lookup k).map CachedAdapter.version) =
      Function.update (c.readThrough models).slot slot (some made.version) := by
    funext k
    by_cases hk : k = slot
    · subst hk
      rw [Function.update_self, AList.lookup_insert]
      rfl
    · rw [Function.update_of_ne hk, AList.lookup_insert_ne hk]
      rfl
  rw [← hslot]
  rfl

omit [DecidableEq ι] in
theorem KeyConfig.readThrough_erase (slot : LlmSlot) :
    ({ c with instances := c.instances.erase slot }).readThrough models =
      { c.readThrough models with slot := Function.update (c.readThrough models).slot slot none } := by
  have hslot : (fun k => ((c.instances.erase slot).lookup k).map CachedAdapter.version) =
      Function.update (c.readThrough models).slot slot none := by
    funext k
    by_cases hk : k = slot
    · subst hk
      rw [Function.update_self, AList.lookup_erase]
      rfl
    · rw [Function.update_of_ne hk, AList.lookup_erase_ne hk]
      rfl
  rw [← hslot]
  rfl

omit [DecidableEq ι] in
theorem lookup_row_update (f : CredentialRow → Nat) (row : CredentialRow) (n : Nat) :
    (fun r : Option CredentialRow => (r.map (Function.update f row n)).getD 0) =
      Function.update (fun r : Option CredentialRow => (r.map f).getD 0) (some row) n := by
  funext r
  cases r with
  | none => rw [Function.update_of_ne (by simp)]; rfl
  | some r =>
    by_cases hr : r = row
    · subst hr
      simp
    · have hne : (some r : Option CredentialRow) ≠ some row := by simp [hr]
      rw [Function.update_of_ne hne]
      simp [hr]

theorem KeyConfig.readThrough_move_same (models : ModelsConfig) {p q : KeyPhase} (hi : c.phase i = p)
    (hq : q.readThrough models = p.readThrough models) :
    (c.move i q).readThrough models = c.readThrough models := by
  rw [KeyConfig.readThrough_move, hq, ← hi]
  show { c.readThrough models with
    phase := Function.update (c.readThrough models).phase i ((c.readThrough models).phase i) } = _
  rw [Function.update_eq_self]

theorem move_keyRun {p : KeyPhase} {l : ReadThrough.Label ι LlmSlot (Option CredentialRow)}
    (ha : Fresh (credentialRow models) l (c.readThrough models))
    (hs : ReadThrough.step (credentialRow models) l (c.readThrough models) =
      some ((c.readThrough models).move i (p.readThrough models))) :
    KeyRun models (c.readThrough models) ((c.move i p).readThrough models) := by
  rw [KeyConfig.readThrough_move]
  exact Reaches.single ha hs

theorem abandon_keyRun {p q : KeyPhase} (hi : c.phase i = p)
    (hp : ∃ k since, p.readThrough models = .missed k since ∨
      ∃ version, p.readThrough models = .loaded k since version)
    (hq : q.readThrough models = .idle) :
    KeyRun models (c.readThrough models) ((c.move i q).readThrough models) := by
  have hphase := KeyConfig.readThrough_phase models hi
  obtain ⟨k, since, hmissed | ⟨version, hloaded⟩⟩ := hp
  · refine move_keyRun (l := .abandon i) trivial ?_
    rw [ReadThrough.step, hphase, hmissed, hq]
  · refine move_keyRun (l := .abandon i) trivial ?_
    rw [ReadThrough.step, hphase, hloaded, hq]

omit [DecidableEq ι] in
theorem KeyPhase.passed_of_dropping {p : KeyPhase} {slot : LlmSlot} {version : Nat}
    {rest : List LlmSlot} (hp : p.readThrough models = .dropping (credentialRow models slot) version rest)
    (hrest : slot ∉ rest) : p.passed models slot = some version := by
  cases p with
  | invalidating row v rest' =>
    obtain ⟨hrow, rfl, rfl⟩ : some row = credentialRow models slot ∧ v = version ∧
        rest'.filter (fun slot => credentialRow models slot = some row) = rest := by
      simpa [KeyPhase.readThrough] using hp
    exact if_pos ⟨hrow.symm, fun hmem => hrest (by simp [hmem, hrow])⟩
  | fired row v =>
    obtain ⟨hrow, rfl, -⟩ : some row = credentialRow models slot ∧ v = version ∧ [] = rest := by
      simpa [KeyPhase.readThrough] using hp
    exact if_pos hrow.symm
  | idle | stored request => cases hp
  | missed request => cases hp
  | keyed request key v => cases hp
  | constructed request made => cases hp
  | changed row v => cases hp

section Labels

variable {settings : PrivacySettings} {judged installed : List String} {modelName : String}
  {userId : Option UserId} {tier : CredentialTier} {connector : String} {payload : LlmPayload}
  {ok : Bool} {slot : LlmSlot}

theorem lookUp_keyRun
    (hs : keyStep env models (.lookUp i settings judged installed modelName userId) c = some t) :
    KeyRun models (c.readThrough models) (t.readThrough models) := by
  simp only [keyStep] at hs
  split at hs
  · rename_i hi
    split at hs
    · cases hs
      exact .start
    · rename_i cfg slot _
      split at hs
      · cases hs
        exact .start
      · cases hs
        refine move_keyRun (l := .miss i slot) trivial ?_
        rw [ReadThrough.step, KeyConfig.readThrough_phase models hi]
        rfl
  · cases hs

theorem readKey_keyRun (hs : keyStep env models (.readKey i ok) c = some t) :
    KeyRun models (c.readThrough models) (t.readThrough models) := by
  simp only [keyStep] at hs
  split at hs
  · rename_i request hi
    have habandon : KeyRun models (c.readThrough models) ((c.move i .idle).readThrough models) :=
      abandon_keyRun hi ⟨_, _, .inl rfl⟩ rfl
    split at hs
    · split at hs
      · cases hs
        refine move_keyRun (l := .load i) trivial ?_
        rw [ReadThrough.step, KeyConfig.readThrough_phase models hi]
        rfl
      · cases hs
        exact habandon
    · cases hs
      exact habandon
  · cases hs

theorem construct_keyRun (hs : keyStep env models (.construct i) c = some t) :
    KeyRun models (c.readThrough models) (t.readThrough models) := by
  simp only [keyStep] at hs
  split at hs
  · rename_i request key version hi
    split at hs
    · cases hs
      rw [KeyConfig.readThrough_move_same (q := .constructed _ _) models hi rfl]
      exact .start
    · cases hs
      exact abandon_keyRun hi ⟨_, _, .inr ⟨_, rfl⟩⟩ rfl
  · cases hs

theorem store_keyRun (ha : Timely models (.store i) c)
    (hs : keyStep env models (.store i) c = some t) :
    KeyRun models (c.readThrough models) (t.readThrough models) := by
  simp only [keyStep] at hs
  split at hs
  · rename_i request made hi
    cases hs
    have hphase := KeyConfig.readThrough_phase models hi
    have hfresh : c.StoresFresh models (.constructed request made) := hi ▸ ha
    have hfill : KeyRun models (c.readThrough models)
        (({ c with instances := c.instances.insert request.slot made }).readThrough models) := by
      rw [KeyConfig.readThrough_insert]
      refine Reaches.single (l := .fill i) ?_ ?_
      · intro k since version hk
        rw [hphase] at hk
        cases hk
        refine ⟨hfresh.1, fun j v rest hj hrest => hfresh.2 j v ?_⟩
        exact KeyPhase.passed_of_dropping hj hrest
      · rw [ReadThrough.step, hphase]
        rfl
    exact hfill.trans (abandon_keyRun (p := .constructed request made) hi
      ⟨_, _, .inr ⟨_, rfl⟩⟩ rfl)
  · cases hs

theorem take_keyRun (hs : keyStep env models (.take i) c = some t) :
    KeyRun models (c.readThrough models) (t.readThrough models) := by
  simp only [keyStep] at hs
  split at hs
  · rename_i request hi
    split at hs
    · rename_i made _
      cases hs
      have hsame := KeyConfig.readThrough_move_same (c := c.take request.slot request.since made)
        (q := .idle) models hi rfl
      rw [hsame]
      exact .start
    · cases hs
      rw [KeyConfig.readThrough_move_same (q := .idle) models hi rfl]
      exact .start
  · cases hs

theorem change_keyRun {row : CredentialRow} {credentials : LlmCredentials}
    (hi : c.phase i = .idle) :
    KeyRun models (c.readThrough models) ((c.change i row credentials).readThrough models) := by
  rw [KeyConfig.change, KeyConfig.readThrough_move]
  refine Reaches.single (l := .write i (some row)) trivial ?_
  have hversion := lookup_row_update c.version row (c.version row + 1)
  rw [ReadThrough.step, KeyConfig.readThrough_phase models hi]
  show some (Config.move i (.wrote (some row) (c.version row + 1)) { c.readThrough models with
    version := Function.update (fun r : Option CredentialRow => (r.map c.version).getD 0) (some row)
      (c.version row + 1) }) = _
  rw [← hversion]
  rfl

theorem put_keyRun (hs : keyStep env models (.put i tier connector payload ok) c = some t) :
    KeyRun models (c.readThrough models) (t.readThrough models) := by
  simp only [keyStep] at hs
  split at hs
  · rename_i userId hi
    split at hs
    · cases hs
      exact change_keyRun hi
    · cases hs
      exact .start
  · split at hs
    · cases hs
      exact .start
    · cases hs
      exact .start
  · cases hs

theorem delete_keyRun (hs : keyStep env models (.delete i tier connector ok) c = some t) :
    KeyRun models (c.readThrough models) (t.readThrough models) := by
  simp only [keyStep] at hs
  split at hs
  · rename_i userId hi
    split at hs
    · cases hs
      exact change_keyRun hi
    · cases hs
      exact .start
  · split at hs
    · cases hs
      exact .start
    · cases hs
      exact .start
  · cases hs

omit [DecidableEq ι] in
theorem slot_isSome : ((c.readThrough models).slot slot).isSome = true ↔ slot ∈ c.instances := by
  rw [← AList.lookup_isSome]
  exact iff_of_eq (congrArg (· = true) (Option.isSome_map ..))

omit [DecidableEq ι] in
theorem credentialRow_some {row : CredentialRow} (h : credentialRow models slot = some row) :
    slot.belongsTo row.1 = true ∧ "llm_".toList.isPrefixOf row.2.toList = true := by
  cases slot with
  | shared modelName => cases h
  | cloud userId modelName =>
    obtain ⟨connector, hconnector, rfl⟩ := Option.map_eq_some_iff.mp h
    obtain ⟨cfg, -, hcfg⟩ := Option.bind_eq_some_iff.mp hconnector
    obtain ⟨apiKeyEnv, -, hmapped⟩ := Option.bind_eq_some_iff.mp hcfg
    exact ⟨LlmSlot.belongsTo_iff.mpr ⟨modelName, rfl⟩, connectorForApiKeyEnv_llm hmapped⟩

theorem snapshot_keyRun (ha : Timely models (.snapshot i ok) c)
    (hs : keyStep env models (.snapshot i ok) c = some t) :
    KeyRun models (c.readThrough models) (t.readThrough models) := by
  simp only [keyStep] at hs
  split at hs
  · rename_i row version hi
    have hphase := KeyConfig.readThrough_phase models hi
    have hsnapshot {ks : List LlmSlot} {p : KeyPhase} (hp : p.readThrough models =
        .dropping (some row) version ks) (hall : ∀ slot ∈ c.instances,
          credentialRow models slot = some row → slot ∈ ks) :
        KeyRun models (c.readThrough models) ((c.move i p).readThrough models) := by
      refine move_keyRun (l := .snapshot i ks) ?_ ?_
      · intro r v hr slot hslot hfilled
        rw [hphase] at hr
        cases hr
        exact hall slot (slot_isSome.mp hfilled) hslot
      · rw [ReadThrough.step, hphase, hp]
        rfl
    split at hs
    · cases hs
      refine hsnapshot rfl fun slot hfilled hrow => ?_
      have hkeys : slot ∈ c.instances.keys := AList.mem_keys.mpr hfilled
      simp [hkeys, hrow, (credentialRow_some hrow).1]
    · rename_i hcut
      cases hs
      refine hsnapshot rfl fun slot hfilled hrow => ?_
      cases ok with
      | true =>
        rw [(credentialRow_some hrow).2] at hcut
        exact absurd rfl hcut
      | false =>
        have hsees : c.SeesAll models (.changed row version) := hi ▸ ha
        exact absurd hfilled (hsees slot (AList.mem_keys.mpr hfilled) hrow)
  · cases hs

theorem drop_keyRun (ha : Timely models (.drop i) c)
    (hs : keyStep env models (.drop i) c = some t) :
    KeyRun models (c.readThrough models) (t.readThrough models) := by
  simp only [keyStep] at hs
  split at hs
  · rename_i row version hi
    cases hs
    rw [KeyConfig.readThrough_move_same (q := .fired row version) models hi rfl]
    exact .start
  · rename_i row version slot rest hi
    have hphase := KeyConfig.readThrough_phase models hi
    split at hs
    · cases hs
      by_cases hrow : credentialRow models slot = some row
      · rw [KeyConfig.readThrough_move, KeyConfig.readThrough_erase]
        refine Reaches.single (l := .drop i) trivial ?_
        have hrest : (slot :: rest).filter (fun slot => credentialRow models slot = some row) =
            slot :: rest.filter fun slot => credentialRow models slot = some row := by
          simp [hrow]
        rw [KeyPhase.readThrough, hrest] at hphase
        exact ReadThrough.step_drop hphase
      · have hsame := KeyConfig.readThrough_move_same (q := .invalidating row version rest)
          (c := { c with instances := c.instances.erase slot }) models hi
          (by simp [KeyPhase.readThrough, hrow])
        rw [hsame, KeyConfig.readThrough_erase]
        refine Reaches.single (l := .evict fun k => decide (k = slot)) trivial ?_
        have hslot : Function.update (c.readThrough models).slot slot none =
            fun k => if k = slot then none else (c.readThrough models).slot k :=
          funext fun k => Function.update_apply _ _ _ _
        simp only [ReadThrough.step, decide_eq_true_eq, hslot]
    · rename_i hgone
      cases hs
      have hdrops : c.DropsAll models (.invalidating row version (slot :: rest)) := hi ▸ ha
      have hnone : ∀ k ∈ (slot :: rest).filter (fun slot => credentialRow models slot = some row),
          (c.readThrough models).slot k = none := by
        intro k hk
        rw [List.mem_filter, decide_eq_true_eq] at hk
        have hout : k ∉ c.instances := by
          rcases List.mem_cons.mp hk.1 with rfl | hrest
          · exact hgone
          · exact hdrops.resolve_left hgone k hrest hk.2
        exact Option.not_isSome_iff_eq_none.mp fun hsome => hout (slot_isSome.mp hsome)
      rw [KeyConfig.readThrough_move]
      exact ReadThrough.reaches_drops hphase hnone
  · cases hs

theorem return_keyRun (hs : keyStep env models (.return_ i) c = some t) :
    KeyRun models (c.readThrough models) (t.readThrough models) := by
  simp only [keyStep] at hs
  split at hs
  · rename_i row version hi
    cases hs
    rw [KeyConfig.readThrough_move]
    refine Reaches.single (l := .return_ i) trivial ?_
    have hreturned := lookup_row_update c.returned row (max (c.returned row) version)
    rw [ReadThrough.step, KeyConfig.readThrough_phase models hi]
    show some (Config.move i .idle { c.readThrough models with
      floor := Function.update (fun r : Option CredentialRow => (r.map c.returned).getD 0) (some row)
        (max (c.returned row) version) }) = _
    rw [← hreturned]
    rfl
  · cases hs

theorem keyStep_keyRun {l : KeyLabel ι} (ha : Timely models l c)
    (hs : keyStep env models l c = some t) :
    KeyRun models (c.readThrough models) (t.readThrough models) := by
  cases l with
  | lookUp i settings judged installed modelName userId => exact lookUp_keyRun hs
  | readKey i ok => exact readKey_keyRun hs
  | construct i => exact construct_keyRun hs
  | store i => exact store_keyRun ha hs
  | take i => exact take_keyRun hs
  | put i tier connector payload ok => exact put_keyRun hs
  | delete i tier connector ok => exact delete_keyRun hs
  | snapshot i ok => exact snapshot_keyRun ha hs
  | drop i => exact drop_keyRun ha hs
  | return_ i => exact return_keyRun hs
  | evict slot =>
    cases hs
    rw [KeyConfig.readThrough_erase]
    refine Reaches.single (l := .evict fun k => decide (k = slot)) trivial ?_
    have hslot : Function.update (c.readThrough models).slot slot none =
        fun k => if k = slot then none else (c.readThrough models).slot k :=
      funext fun k => Function.update_apply _ _ _ _
    simp only [ReadThrough.step, decide_eq_true_eq, hslot]

end Labels

/-! ## Every call of a run -/

/-- The call that the thread is making. -/
def KeyPhase.request : KeyPhase → Option ProviderRequest
  | .missed request | .keyed request _ _ | .constructed request _ | .stored request => some request
  | _ => none

structure KeyInv (models : ModelsConfig) (c : KeyConfig ι) : Prop where
  cache : ReadThrough.Inv (credentialRow models) (c.readThrough models)
  since : ∀ i, ∀ request ∈ (c.phase i).request,
    request.since ≤ c.returnedOf (credentialRow models request.slot)
  taken : ∀ x ∈ c.taken, x.since ≤ x.version

omit [DecidableEq ι] in
theorem KeyStart.inv (h : KeyStart models c) : KeyInv models c where
  cache := ReadThrough.Start.inv
    { floor := fun row => (by
        show (row.map c.returned).getD 0 = (row.map c.version).getD 0
        rw [show c.returned = c.version from funext h.returned])
      slot := fun slot w hw => (by
        obtain ⟨made, hmade, rfl⟩ := Option.map_eq_some_iff.mp hw
        exact h.cached slot made hmade)
      phase := fun i => KeyConfig.readThrough_phase models (h.idle i)
      uses := rfl }
  since i request hi := by
    rw [h.idle i] at hi
    cases hi
  taken x hx := by
    rw [h.taken] at hx
    cases hx

/-- What a step may do to the calls: the changes that have returned only grow, a call is the one that
the thread was making or begins now, and what is taken is in the cache. -/
structure KeyMoves (models : ModelsConfig) (c t : KeyConfig ι) : Prop where
  returned : ∀ row, c.returned row ≤ t.returned row
  request : ∀ i, ∀ request ∈ (t.phase i).request, request ∈ (c.phase i).request ∨
    request.since = c.returnedOf (credentialRow models request.slot)
  taken : ∀ x ∈ t.taken, x ∈ c.taken ∨
    x.since ≤ c.returnedOf (credentialRow models x.slot) ∧
      ∃ made, c.instances.lookup x.slot = some made ∧ x.version = made.version

omit [DecidableEq ι] in
theorem KeyMoves.same {d : KeyConfig ι} (hreturned : d.returned = c.returned)
    (hphase : d.phase = c.phase) (htaken : d.taken = c.taken) : KeyMoves models c d where
  returned row := by rw [hreturned]
  request i request hr := .inl (by rwa [← hphase])
  taken x hx := .inl (by rwa [← htaken])

theorem KeyMoves.move {d : KeyConfig ι} {p : KeyPhase} (h : KeyMoves models c d)
    (hp : ∀ request ∈ p.request, request ∈ (c.phase i).request ∨
      request.since = c.returnedOf (credentialRow models request.slot)) :
    KeyMoves models c (d.move i p) where
  returned := h.returned
  request j request hr := by
    by_cases hj : j = i
    · subst hj
      have hself : (d.move j p).phase j = p := Function.update_self ..
      rw [hself] at hr
      exact hp request hr
    · have hother : (d.move i p).phase j = d.phase j := Function.update_of_ne hj ..
      rw [hother] at hr
      exact h.request j request hr
  taken := h.taken

omit [DecidableEq ι] in
theorem KeyMoves.take {slot : LlmSlot} {since : Nat} {made : CachedAdapter}
    (hsince : since ≤ c.returnedOf (credentialRow models slot))
    (hmade : c.instances.lookup slot = some made) : KeyMoves models c (c.take slot since made) where
  returned _ := Nat.le_refl _
  request _ _ hr := .inl hr
  taken x hx := by
    rcases List.mem_cons.mp hx with rfl | hx
    · exact .inr ⟨hsince, made, hmade, rfl⟩
    · exact .inl hx

theorem keyStep_moves {l : KeyLabel ι} (hsince : ∀ i, ∀ request ∈ (c.phase i).request,
      request.since ≤ c.returnedOf (credentialRow models request.slot))
    (hs : keyStep env models l c = some t) : KeyMoves models c t := by
  have hsame : KeyMoves models c c := KeyMoves.same rfl rfl rfl
  have hidle {i : ι} : KeyMoves models c (c.move i .idle) := hsame.move fun _ hr => by cases hr
  cases l with
  | lookUp i settings judged installed modelName userId =>
    simp only [keyStep] at hs
    split at hs
    · split at hs
      · cases hs
        exact hsame
      · split at hs
        · rename_i made hmade
          cases hs
          exact KeyMoves.take (Nat.le_refl _) hmade
        · cases hs
          refine hsame.move fun request hr => ?_
          cases hr
          exact .inr rfl
    · cases hs
  | readKey i ok =>
    simp only [keyStep] at hs
    split at hs
    · rename_i request hi
      split at hs
      · split at hs
        · cases hs
          exact hsame.move fun request hr => .inl (by rw [hi]; exact hr)
        · cases hs
          exact hidle
      · cases hs
        exact hidle
    · cases hs
  | construct i =>
    simp only [keyStep] at hs
    split at hs
    · rename_i request key version hi
      split at hs
      · cases hs
        exact hsame.move fun request hr => .inl (by rw [hi]; exact hr)
      · cases hs
        exact hidle
    · cases hs
  | store i =>
    simp only [keyStep] at hs
    split at hs
    · rename_i request made hi
      cases hs
      refine KeyMoves.move (KeyMoves.same rfl rfl rfl) fun request hr => .inl ?_
      rw [hi]
      exact hr
    · cases hs
  | take i =>
    simp only [keyStep] at hs
    split at hs
    · rename_i request hi
      split at hs
      · rename_i made hmade
        cases hs
        have hle := hsince i request (by rw [hi]; rfl)
        exact (KeyMoves.take hle hmade).move fun _ hr => by cases hr
      · cases hs
        exact hidle
    · cases hs
  | put i tier connector payload ok | delete i tier connector ok =>
    simp only [keyStep] at hs
    split at hs
    · split at hs
      · cases hs
        rw [KeyConfig.change]
        exact KeyMoves.move (KeyMoves.same rfl rfl rfl) fun _ hr => by cases hr
      · cases hs
        exact hsame
    · split at hs
      · cases hs
        exact KeyMoves.same rfl rfl rfl
      · cases hs
        exact hsame
    · cases hs
  | snapshot i ok =>
    simp only [keyStep] at hs
    split at hs
    · split at hs
      · cases hs
        exact hsame.move fun _ hr => by cases hr
      · cases hs
        exact hsame.move fun _ hr => by cases hr
    · cases hs
  | drop i =>
    simp only [keyStep] at hs
    split at hs
    · cases hs
      exact hsame.move fun _ hr => by cases hr
    · split at hs
      · cases hs
        exact KeyMoves.move (KeyMoves.same rfl rfl rfl) fun _ hr => by cases hr
      · cases hs
        exact hsame.move fun _ hr => by cases hr
    · cases hs
  | return_ i =>
    simp only [keyStep] at hs
    split at hs
    · rename_i row version hi
      cases hs
      refine KeyMoves.move ⟨fun row' => ?_, fun _ _ hr => .inl hr, fun _ hx => .inl hx⟩ fun _ hr => by
        cases hr
      show c.returned row' ≤ Function.update c.returned row (max (c.returned row) version) row'
      by_cases hrow : row' = row
      · subst hrow
        rw [Function.update_self]
        exact Nat.le_max_left _ _
      · rw [Function.update_of_ne hrow]
    · cases hs
  | evict slot =>
    cases hs
    exact KeyMoves.same rfl rfl rfl

theorem KeyInv.next {l : KeyLabel ι} (h : KeyInv models c) (ha : Timely models l c)
    (hs : keyStep env models l c = some t) : KeyInv models t := by
  obtain ⟨hreturned, hrequest, htaken⟩ := keyStep_moves h.since hs
  have hreturnedOf (row : Option CredentialRow) : c.returnedOf row ≤ t.returnedOf row := by
    cases row with
    | none => exact Nat.le_refl _
    | some row => exact hreturned row
  refine ⟨ReadThrough.Inv.reaches (keyStep_keyRun ha hs) h.cache, fun i request hr => ?_,
    fun x hx => ?_⟩
  · refine Nat.le_trans ?_ (hreturnedOf _)
    rcases hrequest i request hr with hr | hr
    · exact h.since i request hr
    · exact Nat.le_of_eq hr
  · rcases htaken x hx with hx | ⟨hsince, made, hmade, hversion⟩
    · exact h.taken x hx
    · have hslot : (c.readThrough models).slot x.slot = some made.version := by
        show (c.instances.lookup x.slot).map CachedAdapter.version = _
        rw [hmade]
        rfl
      rw [hversion]
      exact Nat.le_trans hsince (h.cache.slot x.slot made.version hslot).1

/-- In a run of timely steps, no call returns an adapter whose key is older than a change that had
returned when the call began. -/
theorem key_changes_take_effect {s : KeyConfig ι} (hs : KeyStart models s)
    (h : Reaches (keyStep env models) (Timely models) s c) : ∀ x ∈ c.taken, x.since ≤ x.version :=
  (h.invariant hs.inv fun _ _ _ hi ha ht => hi.next ha ht).taken

end System

namespace KeyExample

def env : LlmEnv := { strip := id, getenv := fun _ => none, authEnabled := true }

def alice : UserId := ⟨"alice", by decide⟩

def models : ModelsConfig :=
  { yaml := AList.singleton "claude"
      { adapter := some "anthropic", model := some "claude-sonnet", baseUrl := none, proxyUrl := none
        apiKeyEnv := some "ANTHROPIC_API_KEY", contextBudget := none }
    ollamaBaseUrl := "http://ollama:11434/v1", embeddingModel := "nomic-embed-text" }

def settings : PrivacySettings :=
  { privacyMode := some "allow_cloud", privacyModeLocked := none, restriction := fun _ => none }

/-- Alice has a key, and nothing is cached. -/
def start : KeyConfig Bool :=
  { credentials := AList.singleton (some alice, "llm_anthropic") (some [("api_key", some "old")])
    sharedCredentials := ∅, instances := ∅, version := fun _ => 0, returned := fun _ => 0
    phase := fun _ => .idle, taken := [] }

theorem start_idle : KeyStart models start where
  returned _ := rfl
  cached _ _ h := by cases h
  idle _ := rfl
  taken := rfl

def begin_ (i : Bool) : KeyLabel Bool := .lookUp i settings [] [] "claude" (some alice)

/-- Thread `true` gives alice a new key; `drops` slots are dropped. -/
def newKey (drops : Nat) : List (KeyLabel Bool) :=
  [.put true (.user (some alice)) "llm_anthropic" [("api_key", some "new")] true, .snapshot true true] ++
    List.replicate drops (.drop true) ++ [.drop true, .return_ true]

/-- One call before the change and one after it. -/
def quiet : List (KeyLabel Bool) :=
  [begin_ false, .readKey false true, .construct false, .store false, .take false] ++ newKey 1 ++
    [begin_ false, .readKey false true, .construct false, .store false, .take false]

/-- The call of thread `false` reads the old key before the change and stores its adapter afterwards. -/
def late : List (KeyLabel Bool) :=
  [begin_ false, .readKey false true] ++ newKey 0 ++ [.construct false, .store false, .take false, begin_ true]

end KeyExample

section Examples

open KeyExample

theorem key_changes_take_effect_quiet :
    (∀ x ∈ (runTo (keyStep KeyExample.env KeyExample.models) quiet KeyExample.start).taken,
      x.since ≤ x.version) ∧
    (runTo (keyStep KeyExample.env KeyExample.models) quiet KeyExample.start).taken.map
      (fun x => (x.since, x.version)) = [(1, 1), (0, 0)] :=
  ⟨key_changes_take_effect KeyExample.start_idle (reaches_runTo (by decide) (by decide)), by decide⟩

/-- The call that begins after the change gets an adapter with the old key. -/
theorem late_store_keeps_old_key : ∃ c,
    Reaches (keyStep KeyExample.env KeyExample.models) (fun _ _ => True) KeyExample.start c ∧
      (∃ x ∈ c.taken, x.since = 1 ∧ x.version = 0) ∧
        (c.instances.lookup (.cloud (some alice) "claude")).map (·.adapter.apiKey) = some (some "old") :=
  ⟨runTo (keyStep KeyExample.env KeyExample.models) late KeyExample.start,
    reaches_runTo (by decide) (by decide), by decide, by decide⟩

end Examples

end Lumogis
