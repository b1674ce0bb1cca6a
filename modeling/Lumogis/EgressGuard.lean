import Lumogis.LocalOnly
import Mathlib.Data.Finset.Lattice.Basic
import Mathlib.Data.Finset.Option

/-!
# Lumogis.EgressGuard

The egress guard: `build_allowlist`, and the wrapper that opens a scope with it around each call of an
adapter. The wrapper keeps the user for whom the adapter was made, and an adapter without a key is
made once for all users. The list is read from the entries of all models and the adapter from its own
entry, with other fallbacks. `egress_agrees` says exactly when the two agree for the user of the
adapter.
-/

namespace Lumogis

open Labelled

/-- The process: also `str.lower`, `str.isspace` and `urlparse(...).hostname`. -/
structure EgressEnv extends LlmEnv where
  lower : String → String
  space : Char → Bool
  hostname : String → Option String

/-! ## The allowlist -/

def loopbackHosts : Finset String := {"localhost", "127.0.0.1", "::1"}

/-- `_CLOUD_DEFAULT_HOSTS`. -/
def cloudDefaultHosts : List (String × String) := [("anthropic", "api.anthropic.com"), ("openai", "api.openai.com")]

/-- `_host_from_url`. -/
def hostFromUrl (env : EgressEnv) (url : Option String) : Option String :=
  match truthy url with
  | none => none
  | some url =>
    if env.strip url = "" then none
    else truthy (some (env.lower (env.strip ((env.hostname (env.strip url)).getD ""))))

/-- `_add_env_host`. -/
def addEnvHost (env : EgressEnv) (hosts : Finset String) (value : Option String) : Finset String :=
  match truthy value with
  | none => hosts
  | some value =>
    if env.strip value = "" then hosts
    else insert ((hostFromUrl env (some (env.strip value))).getD (env.lower (env.strip value))) hosts

/-- `_outbound_private_host_allowlist`. -/
def outboundPrivateHostAllowlist (env : EgressEnv) : Finset String :=
  let raw := env.strip ((env.getenv "LUMOGIS_OUTBOUND_PRIVATE_HOST_ALLOWLIST").getD "")
  let parts := (raw.toList.splitOnP fun c => env.space c || c == ',').map String.ofList
  ((parts.filter (· ≠ "")).map env.lower).toFinset

/-- The hosts that the environment gives. -/
def environmentHosts (env : EgressEnv) : Finset String :=
  let hosts := addEnvHost env loopbackHosts (some ((env.getenv "POSTGRES_HOST").getD "postgres"))
  let hosts := addEnvHost env hosts (some ((env.getenv "QDRANT_URL").getD "http://qdrant:6333"))
  let hosts := addEnvHost env hosts (some ((env.getenv "FALKORDB_URL").getD "redis://falkordb:6379"))
  let hosts := addEnvHost env hosts (env.getenv "NTFY_URL")
  let hosts := addEnvHost env hosts (some ((env.getenv "OLLAMA_URL").getD "http://ollama:11434"))
  hosts ∪ outboundPrivateHostAllowlist env

/-- What is read at a moment when an adapter is used. -/
structure EgressMoment where
  settings : PrivacySettings
  /-- What Ollama listed when the hosts of its models were last taken. -/
  ollamaListing : List String
  listing : List String
  /-- What Ollama lists when a model is judged. -/
  judged : String → List String

/-- `_dynamic_ollama_hosts`. -/
def dynamicOllamaHosts (env : EgressEnv) (models : ModelsConfig) (now : EgressMoment) : Finset String :=
  ((models.dynamicOllamaModels now.ollamaListing).entries.filterMap fun e => hostFromUrl env e.2.baseUrl).toFinset

/-- `get_all_models_config`. -/
def ModelsConfig.allModels (models : ModelsConfig) (installed : List String) : AList fun _ : String => ModelConfig :=
  models.dynamicOllamaModels installed ∪ models.yaml

/-- `_cloud_policy_allows`. -/
def cloudPolicyAllows (env : EgressEnv) (now : EgressMoment) (userId : Option UserId) : Bool :=
  (now.settings.effectivePrivacyMode env.toLlmEnv userId).effective == .allowCloud

/-- The hosts of a model that is judged local. -/
def localHosts (env : EgressEnv) (cfg : ModelConfig) : Finset String := (hostFromUrl env cfg.baseUrl).toFinset

/-- The hosts of any other model. -/
def remoteHosts (env : EgressEnv) (cfg : ModelConfig) : Finset String :=
  (hostFromUrl env cfg.proxyUrl).toFinset ∪ (hostFromUrl env cfg.baseUrl).toFinset ∪
    (cloudDefaultHosts.lookup (cfg.adapter.getD "")).toFinset

def judgedLocal (models : ModelsConfig) (now : EgressMoment) (name : String) : Bool :=
  models.isLocalModel (now.judged name) name

/-- The hosts that the list takes from the entry of a model. -/
def modelHosts (env : EgressEnv) (models : ModelsConfig) (now : EgressMoment) (cloudAllowed : Bool) (name : String)
    (cfg : ModelConfig) : Finset String :=
  if judgedLocal models now name then localHosts env cfg
  else if !cloudAllowed then ∅ else remoteHosts env cfg

def buildAllowlist (env : EgressEnv) (models : ModelsConfig) (now : EgressMoment) (userId : Option UserId) :
    Finset String :=
  (models.allModels now.listing).entries.foldl
    (fun hosts e => hosts ∪ modelHosts env models now (cloudPolicyAllows env now userId) e.1 e.2)
    (environmentHosts env ∪ dynamicOllamaHosts env models now)

/-! ## The guard -/

/-- The adapter and the user for whom the guard builds its list. -/
structure EgressGuardingLLMProvider where
  inner : LlmAdapter
  userId : Option UserId

abbrev GuardedInstances := AList fun _ : LlmSlot => EgressGuardingLLMProvider

/-- `get_llm_provider` with the guard on. -/
def getGuardedProvider (env : LlmEnv) (models : ModelsConfig) (call : ProviderCall) (instances : GuardedInstances) :
    Except LlmError (EgressGuardingLLMProvider × GuardedInstances) := do
  assertRemoteAllowed env models call.settings call.judged call.modelName call.userId
  match models.getModelConfig call.installed call.modelName with
  | none => .error (.unknownModel call.modelName)
  | some cfg =>
    let slot ← slotOf env cfg call.modelName call.userId
    match instances.lookup slot with
    | some provider => .ok (provider, instances)
    | none =>
      let adapter ← createAdapter env call cfg
      let provider : EgressGuardingLLMProvider := ⟨adapter, call.userId⟩
      .ok (provider, instances.insert slot provider)

/-- A provider that a call has returned. -/
structure GivenProvider where
  userId : Option UserId
  modelName : String
  provider : EgressGuardingLLMProvider

structure EgressState where
  instances : GuardedInstances := ∅
  given : List GivenProvider := []

def egressStep (env : LlmEnv) (models : ModelsConfig) : ProviderLabel → EgressState → Option EgressState
  | .call call, s =>
    match getGuardedProvider env models call s.instances with
    | .ok (provider, instances) => some ⟨instances, ⟨call.userId, call.modelName, provider⟩ :: s.given⟩
    | .error _ => some s
  | .drop slot, s => some { s with instances := s.instances.erase slot }

section Agreement

variable {env : EgressEnv} {models : ModelsConfig} {now : EgressMoment}

/-- The host that an adapter connects to, by its SDK and the URL that it was given. -/
abbrev Connects := AdapterKind → Option String → String

/-- The list in force when the user of a given provider uses it is the user's and has the host that the
adapter connects to. Under the local-only policy, `is_local_model` judges local each model that gives
it a host. -/
structure GivenProvider.Agrees (g : GivenProvider) (env : EgressEnv) (models : ModelsConfig) (connects : Connects)
    (now : EgressMoment) : Prop where
  policy : buildAllowlist env models now g.provider.userId = buildAllowlist env models now g.userId
  host : connects g.provider.inner.kind g.provider.inner.baseUrl ∈ buildAllowlist env models now g.provider.userId
  model : cloudPolicyAllows env now g.userId = false → ∀ name cfg,
    (models.allModels now.listing).lookup name = some cfg →
      modelHosts env models now (cloudPolicyAllows env now g.provider.userId) name cfg ≠ ∅ →
        judgedLocal models now name = true
  ollama : cloudPolicyAllows env now g.userId = false → ∀ name cfg,
    (models.dynamicOllamaModels now.ollamaListing).lookup name = some cfg → hostFromUrl env cfg.baseUrl ≠ none →
      models.isLocalModel now.ollamaListing name = true

/-! ## The condition -/

/-- What `get_model_config` returns for the name, up to the model that Ollama runs. -/
def ModelsConfig.configOf (models : ModelsConfig) (name : String) : ModelConfig :=
  (models.yaml.lookup name).getD (models.ollamaModel name)

def ModelConfig.kind (cfg : ModelConfig) : AdapterKind :=
  if cfg.adapter = some "anthropic" then .anthropic else .openai

/-- The URL that the adapter of the entry is given. -/
def ModelConfig.sentTo (cfg : ModelConfig) : Option String :=
  if cfg.adapter = some "anthropic" then truthy cfg.proxyUrl else (truthy cfg.proxyUrl).or (truthy cfg.baseUrl)

/-- The host that the adapter of a model connects to. -/
def ModelsConfig.destination (models : ModelsConfig) (connects : Connects) (name : String) : String :=
  connects (models.configOf name).kind (models.configOf name).sentTo

/-- The host is on the list whatever the policy. -/
inductive LocallyListed (env : EgressEnv) (models : ModelsConfig) (now : EgressMoment) (host : String) : Prop where
  | given (h : host ∈ environmentHosts env ∪ dynamicOllamaHosts env models now)
  /-- A model that is judged local has it in its `base_url`. -/
  | judged (name : String) (cfg : ModelConfig) (hcfg : (models.allModels now.listing).lookup name = some cfg)
    (hjudged : judgedLocal models now name = true) (h : host ∈ localHosts env cfg)

/-- The host is on the list of a user who may use the cloud. -/
def RemotelyListed (env : EgressEnv) (models : ModelsConfig) (now : EgressMoment) (host : String) : Prop :=
  ∃ name cfg, (models.allModels now.listing).lookup name = some cfg ∧ judgedLocal models now name = false ∧
    host ∈ remoteHosts env cfg

/-- The policy of the user for whom the adapter was made is that of the user who uses it, or the
difference does not show. -/
inductive PolicyMatches (env : EgressEnv) (models : ModelsConfig) (now : EgressMoment) (maker user : Option UserId) :
    Prop where
  | same (h : cloudPolicyAllows env now maker = cloudPolicyAllows env now user)
  | covered (huser : cloudPolicyAllows env now user = true) (hmaker : cloudPolicyAllows env now maker = false)
    (h : ∀ host, RemotelyListed env models now host → LocallyListed env models now host)
  | silent (huser : cloudPolicyAllows env now user = false) (hmaker : cloudPolicyAllows env now maker = true)
    (h : ∀ host, ¬ RemotelyListed env models now host)

/-- The user's policy lists the host to which the adapter of the model connects. -/
def DestinationListed (env : EgressEnv) (models : ModelsConfig) (connects : Connects) (now : EgressMoment)
    (user : Option UserId) (modelName : String) : Prop :=
  LocallyListed env models now (models.destination connects modelName) ∨
    cloudPolicyAllows env now user = true ∧ RemotelyListed env models now (models.destination connects modelName)

/-- Under the local-only policy, the URL of Ollama gives no host, or is judged local for each model that
Ollama lists. -/
def OllamaJudged (env : EgressEnv) (models : ModelsConfig) (now : EgressMoment) (user : Option UserId) : Prop :=
  cloudPolicyAllows env now user = false → hostFromUrl env (some models.ollamaBaseUrl) ≠ none →
    ∀ name ∈ models.dynamicOllamaModels now.ollamaListing, isOllamaUrl (models.configOf name).baseUrl = true

/-! ## The list -/

theorem mem_foldl_union {α β : Type} [DecidableEq β] {f : α → Finset β} {b : β} {as : List α} {bs : Finset β} :
    b ∈ as.foldl (fun bs a => bs ∪ f a) bs ↔ b ∈ bs ∨ ∃ a ∈ as, b ∈ f a := by
  induction as generalizing bs with
  | nil => simp
  | cons a as ih =>
    rw [List.foldl_cons, ih]
    simp only [Finset.mem_union, List.mem_cons, exists_eq_or_imp, or_assoc]

variable {user maker : Option UserId} {host : String} {connects : Connects}

theorem mem_buildAllowlist :
    host ∈ buildAllowlist env models now user ↔
      LocallyListed env models now host ∨
        cloudPolicyAllows env now user = true ∧ RemotelyListed env models now host := by
  rw [buildAllowlist, mem_foldl_union]
  constructor
  · intro h
    rcases h with h | ⟨e, he, h⟩
    · exact .inl (.given h)
    have hcfg : (models.allModels now.listing).lookup e.1 = some e.2 := AList.mem_lookup_iff.mpr he
    rw [modelHosts] at h
    cases hjudged : judgedLocal models now e.1 with
    | true =>
      rw [hjudged, if_pos rfl] at h
      exact .inl (.judged e.1 e.2 hcfg hjudged h)
    | false =>
      cases hcloud : cloudPolicyAllows env now user with
      | true =>
        simp only [hjudged, hcloud] at h
        exact .inr ⟨rfl, e.1, e.2, hcfg, hjudged, h⟩
      | false => simp [hjudged, hcloud] at h
  · intro h
    rcases h with h | ⟨hcloud, name, cfg, hcfg, hjudged, h⟩
    · cases h with
      | given h => exact .inl h
      | judged name cfg hcfg hjudged h =>
        have hhost : host ∈ modelHosts env models now (cloudPolicyAllows env now user) name cfg := by
          rw [modelHosts, hjudged, if_pos rfl]
          exact h
        exact .inr ⟨⟨name, cfg⟩, AList.mem_lookup_iff.mp hcfg, hhost⟩
    · have hhost : host ∈ modelHosts env models now (cloudPolicyAllows env now user) name cfg := by
        simpa [modelHosts, hjudged, hcloud] using h
      exact .inr ⟨⟨name, cfg⟩, AList.mem_lookup_iff.mp hcfg, hhost⟩

theorem buildAllowlist_congr (h : cloudPolicyAllows env now maker = cloudPolicyAllows env now user) :
    buildAllowlist env models now maker = buildAllowlist env models now user := by
  ext host
  rw [mem_buildAllowlist, mem_buildAllowlist, h]

theorem judgedLocal_of_modelHosts {name : String} {cfg : ModelConfig}
    (h : modelHosts env models now false name cfg ≠ ∅) : judgedLocal models now name = true := by
  by_contra hjudged
  simp [modelHosts, hjudged] at h

theorem RemotelyListed.modelHosts (h : RemotelyListed env models now host) :
    ∃ name cfg, (models.allModels now.listing).lookup name = some cfg ∧ judgedLocal models now name = false ∧
      modelHosts env models now true name cfg ≠ ∅ := by
  obtain ⟨name, cfg, hcfg, hjudged, hhost⟩ := h
  have hne : remoteHosts env cfg ≠ ∅ := Finset.ne_empty_of_mem hhost
  exact ⟨name, cfg, hcfg, hjudged, by simpa [Lumogis.modelHosts, hjudged] using hne⟩

/-- The policies match if and only if the two lists are one, and no model that is not judged local gives
a host to a user who may not use the cloud. -/
theorem policyMatches_iff :
    PolicyMatches env models now maker user ↔
      buildAllowlist env models now maker = buildAllowlist env models now user ∧
        (cloudPolicyAllows env now user = false → ∀ name cfg,
          (models.allModels now.listing).lookup name = some cfg →
            modelHosts env models now (cloudPolicyAllows env now maker) name cfg ≠ ∅ →
              judgedLocal models now name = true) := by
  constructor
  · intro h
    cases h with
    | same h =>
      refine ⟨buildAllowlist_congr h, fun huser name cfg hcfg hhosts => ?_⟩
      rw [h, huser] at hhosts
      exact judgedLocal_of_modelHosts hhosts
    | covered huser hmaker h =>
      constructor
      · ext host
        simp only [mem_buildAllowlist, huser, hmaker, Bool.false_eq_true, false_and, or_false, true_and]
        exact ⟨Or.inl, fun hlisted => hlisted.elim id (h host)⟩
      · intro hfalse
        rw [huser] at hfalse
        cases hfalse
    | silent huser hmaker h =>
      constructor
      · ext host
        simp only [mem_buildAllowlist, huser, hmaker, h host, and_false]
      · intro _ name cfg hcfg hhosts
        by_contra hjudged
        have hjudged : judgedLocal models now name = false := by simpa using hjudged
        obtain ⟨host, hhost⟩ := Finset.nonempty_iff_ne_empty.mpr hhosts
        exact h host ⟨name, cfg, hcfg, hjudged, by simpa [modelHosts, hjudged, hmaker] using hhost⟩
  · intro h
    obtain ⟨hlist, hmodel⟩ := h
    cases hmaker : cloudPolicyAllows env now maker <;> cases huser : cloudPolicyAllows env now user
    · exact .same (hmaker.trans huser.symm)
    · refine .covered huser hmaker fun host hremote => ?_
      have hhost : host ∈ buildAllowlist env models now maker := by
        rw [hlist]
        exact mem_buildAllowlist.mpr (.inr ⟨huser, hremote⟩)
      rcases mem_buildAllowlist.mp hhost with hlocal | ⟨hcloud, -⟩
      · exact hlocal
      · rw [hmaker] at hcloud
        cases hcloud
    · refine .silent huser hmaker fun host hremote => ?_
      obtain ⟨name, cfg, hcfg, hjudged, hhosts⟩ := hremote.modelHosts
      rw [← hmaker] at hhosts
      have hlocal := hmodel huser name cfg hcfg hhosts
      rw [hjudged] at hlocal
      cases hlocal
    · exact .same (hmaker.trans huser.symm)

/-! ## The adapter of a model -/

theorem configOf_eq {installed : List String} {name : String} {cfg : ModelConfig}
    (h : models.getModelConfig installed name = some cfg) :
    cfg.kind = (models.configOf name).kind ∧ cfg.sentTo = (models.configOf name).sentTo ∧
      cfg.baseUrl = (models.configOf name).baseUrl ∧ cfg.apiKeyEnv = (models.configOf name).apiKeyEnv := by
  rw [ModelsConfig.getModelConfig] at h
  rw [ModelsConfig.configOf]
  cases hyaml : models.yaml.lookup name with
  | some c =>
    rw [hyaml] at h
    cases h
    exact ⟨rfl, rfl, rfl, rfl⟩
  | none =>
    rw [hyaml] at h
    obtain ⟨full, rfl⟩ := lookup_dynamicOllamaModels h
    exact ⟨rfl, rfl, rfl, rfl⟩

theorem isLocalModel_dynamic {installed : List String} {name : String}
    (h : name ∈ models.dynamicOllamaModels installed) :
    models.isLocalModel installed name = isOllamaUrl (models.configOf name).baseUrl := by
  have hsome : ∃ cfg, models.getModelConfig installed name = some cfg := by
    rw [ModelsConfig.getModelConfig]
    cases models.yaml.lookup name with
    | some cfg => exact ⟨cfg, rfl⟩
    | none => exact Option.isSome_iff_exists.mp (AList.lookup_isSome.mpr h)
  obtain ⟨cfg, hcfg⟩ := hsome
  obtain ⟨-, -, hurl, -⟩ := configOf_eq hcfg
  rw [ModelsConfig.isLocalModel, hcfg, ← hurl]

theorem ollamaJudged_iff :
    OllamaJudged env models now user ↔
      (cloudPolicyAllows env now user = false → ∀ name cfg,
        (models.dynamicOllamaModels now.ollamaListing).lookup name = some cfg →
          hostFromUrl env cfg.baseUrl ≠ none → models.isLocalModel now.ollamaListing name = true) := by
  constructor
  · intro h huser name cfg hcfg hhost
    have hmem : name ∈ models.dynamicOllamaModels now.ollamaListing :=
      AList.lookup_isSome.mp (Option.isSome_iff_exists.mpr ⟨cfg, hcfg⟩)
    obtain ⟨full, rfl⟩ := lookup_dynamicOllamaModels hcfg
    rw [isLocalModel_dynamic hmem]
    exact h huser hhost name hmem
  · intro h huser hhost name hmem
    obtain ⟨cfg, hcfg⟩ := Option.isSome_iff_exists.mp (AList.lookup_isSome.mpr hmem)
    have hlocal := h huser name cfg hcfg
    obtain ⟨full, rfl⟩ := lookup_dynamicOllamaModels hcfg
    rw [← isLocalModel_dynamic hmem]
    exact hlocal hhost

/-- The adapter connects as the configuration of the model says. -/
def LlmAdapter.MadeFor (adapter : LlmAdapter) (models : ModelsConfig) (name : String) : Prop :=
  adapter.kind = (models.configOf name).kind ∧ adapter.baseUrl = (models.configOf name).sentTo

theorem buildAdapter_sentTo {cfg : ModelConfig} {modelName kind key : String} {adapter : LlmAdapter}
    (h : buildAdapter cfg modelName kind key = .ok adapter) (hkind : cfg.adapter = some kind) :
    adapter.kind = cfg.kind ∧ adapter.baseUrl = cfg.sentTo := by
  rw [buildAdapter] at h
  rw [ModelConfig.kind, ModelConfig.sentTo, hkind]
  split at h
  · rename_i he
    subst he
    split at h
    · cases h
      exact ⟨rfl, rfl⟩
    · cases h
  · rename_i hne
    have hne : ¬ some kind = some "anthropic" := fun he => hne (Option.some.inj he)
    rw [if_neg hne, if_neg hne]
    split at h
    · split at h
      · cases h
        exact ⟨rfl, rfl⟩
      · cases h
    · cases h

theorem createAdapter_madeFor {env : LlmEnv} {call : ProviderCall} {cfg : ModelConfig} {adapter : LlmAdapter}
    (hcfg : models.getModelConfig call.installed call.modelName = some cfg)
    (h : createAdapter env call cfg = .ok adapter) : adapter.MadeFor models call.modelName := by
  obtain ⟨kind, key, hkind, hbuilt⟩ := createAdapter_ok h
  obtain ⟨hadapterKind, hsent⟩ := buildAdapter_sentTo hbuilt hkind
  obtain ⟨hcfgKind, hcfgSent, -, -⟩ := configOf_eq hcfg
  exact ⟨hadapterKind.trans hcfgKind, hsent.trans hcfgSent⟩

/-! ## Runs -/

theorem getGuardedProvider_ok {env : LlmEnv} {call : ProviderCall} {instances instances' : GuardedInstances}
    {provider : EgressGuardingLLMProvider}
    (h : getGuardedProvider env models call instances = .ok (provider, instances')) :
    ∃ cfg slot, models.getModelConfig call.installed call.modelName = some cfg ∧
      slotOf env cfg call.modelName call.userId = .ok slot ∧
        (instances.lookup slot = some provider ∧ instances' = instances ∨
          createAdapter env call cfg = .ok provider.inner ∧ provider.userId = call.userId ∧
            instances' = instances.insert slot provider) := by
  obtain ⟨_, -, h⟩ := except_bind_ok h
  split at h
  · cases h
  · rename_i cfg hcfg
    obtain ⟨slot, hslot, h⟩ := except_bind_ok h
    refine ⟨cfg, slot, hcfg, hslot, ?_⟩
    split at h
    · rename_i provider' hcached
      cases h
      exact .inl ⟨hcached, rfl⟩
    · obtain ⟨adapter, hcreated, h⟩ := except_bind_ok h
      cases h
      exact .inr ⟨hcreated, rfl, rfl⟩

/-- The adapters, kept and given, are those of their models. -/
structure EgressState.Made (models : ModelsConfig) (s : EgressState) : Prop where
  kept : ∀ slot provider, s.instances.lookup slot = some provider → provider.inner.MadeFor models slot.modelName
  given : ∀ g ∈ s.given, g.provider.inner.MadeFor models g.modelName

/-- The guard of a model with a key is that of the user whose slot it is in. -/
structure EgressState.Own (models : ModelsConfig) (s : EgressState) : Prop where
  kept : ∀ userId modelName provider, s.instances.lookup (.cloud userId modelName) = some provider →
    provider.userId = userId
  given : ∀ g ∈ s.given, truthy (models.configOf g.modelName).apiKeyEnv ≠ none → g.provider.userId = g.userId

theorem slotOf_keyed {env : LlmEnv} {cfg : ModelConfig} {modelName : String} {userId : Option UserId} {slot : LlmSlot}
    (h : slotOf env cfg modelName userId = .ok slot) (hkey : truthy cfg.apiKeyEnv ≠ none) :
    slot = .cloud userId modelName := by
  rw [slotOf] at h
  split at h
  · rename_i hnone
    exact absurd hnone hkey
  · split at h
    · cases h
    · cases h
      rfl

theorem EgressState.Own.call {env : LlmEnv} {call : ProviderCall} {s : EgressState} {instances' : GuardedInstances}
    {provider : EgressGuardingLLMProvider} (hown : s.Own models)
    (h : getGuardedProvider env models call s.instances = .ok (provider, instances')) :
    EgressState.Own models ⟨instances', ⟨call.userId, call.modelName, provider⟩ :: s.given⟩ := by
  obtain ⟨cfg, slot, hcfg, hslot, hcase⟩ := getGuardedProvider_ok h
  have hcloud : ∀ userId modelName, slot = .cloud userId modelName → userId = call.userId := by
    intro userId modelName he
    subst he
    rw [slotOf] at hslot
    split at hslot
    · cases hslot
    · split at hslot
      · cases hslot
      · cases hslot
        rfl
  constructor
  · intro userId modelName provider' hlookup
    rcases hcase with ⟨-, rfl⟩ | ⟨-, huser, rfl⟩
    · exact hown.kept userId modelName provider' hlookup
    · rcases lookup_insert_cases hlookup with ⟨he, rfl⟩ | hlookup
      · rw [huser, hcloud userId modelName he.symm]
      · exact hown.kept userId modelName provider' hlookup
  · intro g hg hkey
    rcases List.mem_cons.mp hg with rfl | hg
    · rw [← (configOf_eq hcfg).2.2.2] at hkey
      have hkeyed := slotOf_keyed hslot hkey
      subst hkeyed
      rcases hcase with ⟨hcached, -⟩ | ⟨-, huser, -⟩
      · exact hown.kept _ _ _ hcached
      · exact huser
    · exact hown.given g hg hkey

theorem EgressState.Made.call {env : LlmEnv} {call : ProviderCall} {s : EgressState}
    {instances' : GuardedInstances} {provider : EgressGuardingLLMProvider} (hmade : s.Made models)
    (h : getGuardedProvider env models call s.instances = .ok (provider, instances')) :
    EgressState.Made models ⟨instances', ⟨call.userId, call.modelName, provider⟩ :: s.given⟩ := by
  obtain ⟨cfg, slot, hcfg, hslot, hcase⟩ := getGuardedProvider_ok h
  have hname := slotOf_modelName hslot
  have hprovider : provider.inner.MadeFor models call.modelName := by
    rcases hcase with ⟨hcached, -⟩ | ⟨hcreated, -, -⟩
    · rw [← hname]
      exact hmade.kept slot provider hcached
    · exact createAdapter_madeFor hcfg hcreated
  constructor
  · intro slot' provider' hlookup
    rcases hcase with ⟨-, rfl⟩ | ⟨-, -, rfl⟩
    · exact hmade.kept slot' provider' hlookup
    · rcases lookup_insert_cases hlookup with ⟨rfl, rfl⟩ | hlookup
      · rw [hname]
        exact hprovider
      · exact hmade.kept slot' provider' hlookup
  · intro g hg
    rcases List.mem_cons.mp hg with rfl | hg
    · exact hprovider
    · exact hmade.given g hg

theorem EgressState.Made.next {env : LlmEnv} {l : ProviderLabel} {s t : EgressState} (hmade : s.Made models)
    (hs : egressStep env models l s = some t) : t.Made models := by
  cases l with
  | call call =>
    simp only [egressStep] at hs
    split at hs
    · rename_i provider instances hcall
      cases hs
      exact hmade.call hcall
    · cases hs
      exact hmade
  | drop slot =>
    cases hs
    refine ⟨fun slot' provider hlookup => ?_, hmade.given⟩
    by_cases he : slot' = slot
    · subst he
      rw [AList.lookup_erase] at hlookup
      cases hlookup
    · rw [AList.lookup_erase_ne he] at hlookup
      exact hmade.kept slot' provider hlookup

theorem EgressState.Made.reached {env : LlmEnv} {s : EgressState}
    (h : Reaches (egressStep env models) (fun _ _ => True) {} s) : s.Made models := by
  refine h.invariant ⟨fun slot provider hlookup => ?_, fun g hg => ?_⟩ fun l s t hmade _ hs => hmade.next hs
  · rw [AList.lookup_empty] at hlookup
    cases hlookup
  · cases hg

theorem GivenProvider.agrees_iff {g : GivenProvider} (hmade : g.provider.inner.MadeFor models g.modelName) :
    g.Agrees env models connects now ↔
      PolicyMatches env models now g.provider.userId g.userId ∧
        DestinationListed env models connects now g.userId g.modelName ∧ OllamaJudged env models now g.userId := by
  have hdestination :
      connects g.provider.inner.kind g.provider.inner.baseUrl = models.destination connects g.modelName := by
    rw [ModelsConfig.destination, hmade.1, hmade.2]
  have hlisted : models.destination connects g.modelName ∈ buildAllowlist env models now g.userId ↔
      DestinationListed env models connects now g.userId g.modelName := mem_buildAllowlist
  rw [policyMatches_iff, ollamaJudged_iff]
  constructor
  · intro h
    have hhost := h.host
    rw [hdestination, h.policy] at hhost
    exact ⟨⟨h.policy, h.model⟩, hlisted.mp hhost, h.ollama⟩
  · intro h
    obtain ⟨⟨hpolicy, hmodel⟩, hhost, hollama⟩ := h
    have hhost := hlisted.mpr hhost
    rw [← hdestination, ← hpolicy] at hhost
    exact ⟨hpolicy, hhost, hmodel, hollama⟩

/-- In every run of calls, the list in force for the user of a given provider agrees with the adapter if
and only if the policy of the user for whom it was made matches, the user's policy lists where the
model's adapter connects to, and what Ollama lists is judged local. -/
theorem egress_agrees (env : EgressEnv) (models : ModelsConfig) (connects : Connects) (s : EgressState)
    (h : Reaches (egressStep env.toLlmEnv models) (fun _ _ => True) {} s) (g : GivenProvider) (hg : g ∈ s.given)
    (now : EgressMoment) :
    g.Agrees env models connects now ↔
      PolicyMatches env models now g.provider.userId g.userId ∧
        DestinationListed env models connects now g.userId g.modelName ∧ OllamaJudged env models now g.userId :=
  GivenProvider.agrees_iff ((EgressState.Made.reached h).given g hg)

end Agreement

namespace EgressExample

/-- A local model without a key. -/
def llama : ModelConfig :=
  { adapter := some "openai", model := some "llama3.2", baseUrl := some "http://ollama:11434/v1", proxyUrl := none
    apiKeyEnv := none, contextBudget := none }

/-- A model of a cloud, with a key. -/
def gpt : ModelConfig :=
  { adapter := some "openai", model := some "gpt-4o", baseUrl := none, proxyUrl := none
    apiKeyEnv := some "OPENAI_API_KEY", contextBudget := none }

def models : ModelsConfig :=
  { yaml := (AList.singleton "llama" llama).insert "gpt" gpt, ollamaBaseUrl := "http://ollama:11434/v1"
    embeddingModel := "nomic-embed-text" }

/-- `hostname` is that of the one URL in use. -/
def env : EgressEnv :=
  { strip := id, getenv := fun _ => none, authEnabled := true, lower := id, space := fun c => c == ' '
    hostname := fun url => if url = "http://ollama:11434/v1" then some "ollama" else none }

/-- The SDK of OpenAI has a default. -/
def connects : Connects
  | .anthropic, url => (hostFromUrl env url).getD "api.anthropic.com"
  | .openai, url => (hostFromUrl env url).getD "api.openai.com"

theorem plain_alice : ':' ∉ "alice".toList ∧ "alice" ≠ "" ∧ "alice" ≠ "_global" ∧ "alice" ≠ "_local" := by decide

theorem plain_bob : ':' ∉ "bob".toList ∧ "bob" ≠ "" ∧ "bob" ≠ "_global" ∧ "bob" ≠ "_local" := by decide

def alice : UserId := ⟨"alice", plain_alice⟩
def bob : UserId := ⟨"bob", plain_bob⟩

/-- The instance allows the cloud, and bob does not. -/
def settings : PrivacySettings :=
  { privacyMode := some "allow_cloud", privacyModeLocked := none
    restriction := fun userId => if userId = bob then some "local_only" else none }

def now : EgressMoment := { settings := settings, ollamaListing := [], listing := [], judged := fun _ => [] }

def call (userId : UserId) : ProviderCall :=
  { modelName := "llama", userId := some userId, settings := settings, judged := [], installed := []
    credentials := ∅ }

/-- Alice calls first. -/
def guarded : EgressGuardingLLMProvider :=
  { inner := { kind := .openai, model := "llama3.2", apiKey := none, baseUrl := some "http://ollama:11434/v1"
               contextBudget := none }
    userId := some alice }

def reached : EgressState :=
  { instances := (∅ : GuardedInstances).insert (.shared "llama") guarded
    given := [⟨some bob, "llama", guarded⟩, ⟨some alice, "llama", guarded⟩] }

theorem lookup_llama : models.yaml.lookup "llama" = some llama := rfl

theorem llama_local : isOllamaUrl llama.baseUrl = true := by decide +kernel

theorem allowed (userId : UserId) :
    assertRemoteAllowed env.toLlmEnv models (call userId).settings (call userId).judged (call userId).modelName
      (call userId).userId = .ok () := by
  have hlocal : models.isLocalModel [] "llama" = true := by
    rw [ModelsConfig.isLocalModel, getModelConfig_yaml lookup_llama]
    exact llama_local
  rw [assertRemoteAllowed]
  exact if_pos hlocal

theorem created : getGuardedProvider env.toLlmEnv models (call alice) ∅ =
    .ok (guarded, (∅ : GuardedInstances).insert (.shared "llama") guarded) := by
  have hcfg : models.getModelConfig (call alice).installed (call alice).modelName = some llama :=
    getModelConfig_yaml lookup_llama _
  have hslot : slotOf env.toLlmEnv llama (call alice).modelName (call alice).userId = .ok (.shared "llama") := rfl
  have hadapter : createAdapter env.toLlmEnv (call alice) llama = .ok guarded.inner := by
    have hbuilt : buildAdapter llama "llama" "openai" "" = .ok guarded.inner := by
      simp [buildAdapter, llama, guarded, truthy]
    exact hbuilt
  simp only [getGuardedProvider, allowed, hcfg, hslot, hadapter, AList.lookup_empty, bind, Except.bind]
  rfl

theorem cached : getGuardedProvider env.toLlmEnv models (call bob)
    ((∅ : GuardedInstances).insert (.shared "llama") guarded) =
      .ok (guarded, (∅ : GuardedInstances).insert (.shared "llama") guarded) := by
  have hcfg : models.getModelConfig (call bob).installed (call bob).modelName = some llama :=
    getModelConfig_yaml lookup_llama _
  have hslot : slotOf env.toLlmEnv llama (call bob).modelName (call bob).userId = .ok (.shared "llama") := rfl
  simp only [getGuardedProvider, allowed, hcfg, hslot, AList.lookup_insert, bind, Except.bind]

theorem reached_reaches : Reaches (egressStep env.toLlmEnv models) (fun _ _ => True) {} reached := by
  have hfirst : egressStep env.toLlmEnv models (.call (call alice)) {} =
      some ⟨(∅ : GuardedInstances).insert (.shared "llama") guarded, [⟨some alice, "llama", guarded⟩]⟩ := by
    simp only [egressStep, created]
    rfl
  refine (Reaches.single trivial hfirst).next (l := .call (call bob)) trivial ?_
  simp only [egressStep, cached]
  rfl

theorem lookup_listed : (models.allModels now.listing).lookup "llama" = some llama := rfl

theorem llama_judged : judgedLocal models now "llama" = true := by
  rw [judgedLocal, ModelsConfig.isLocalModel, getModelConfig_yaml lookup_llama]
  exact llama_local

theorem host_llama : hostFromUrl env llama.baseUrl = some "ollama" := by
  have hurl : truthy (some "http://ollama:11434/v1") = some "http://ollama:11434/v1" := by decide
  have hhost : truthy (some "ollama") = some "ollama" := by decide
  simp [hostFromUrl, llama, env, hurl, hhost]

theorem destination_llama : models.destination connects "llama" = "ollama" := by
  have hsent : (models.configOf "llama").sentTo = llama.baseUrl := by
    simp [ModelsConfig.configOf, lookup_llama, llama, ModelConfig.sentTo, truthy]
  have hkind : (models.configOf "llama").kind = .openai := by
    simp [ModelsConfig.configOf, lookup_llama, llama, ModelConfig.kind]
  rw [ModelsConfig.destination, hsent, hkind]
  simp [connects, host_llama]

theorem gpt_remote : RemotelyListed env models now "api.openai.com" := by
  refine ⟨"gpt", gpt, rfl, by decide +kernel, ?_⟩
  have hdefault : cloudDefaultHosts.lookup (gpt.adapter.getD "") = some "api.openai.com" := by decide
  rw [remoteHosts, hdefault]
  simp

end EgressExample

section Examples

open EgressExample

/-- The list for alice agrees with the adapter that she was given. -/
theorem egress_agrees_alice : GivenProvider.Agrees ⟨some alice, "llama", guarded⟩ env models connects now := by
  refine (egress_agrees env models connects reached reached_reaches ⟨some alice, "llama", guarded⟩ ?_ now).mpr
    ⟨.same rfl, .inl ?_, fun huser => ?_⟩
  · simp [reached]
  · refine .judged "llama" llama lookup_listed llama_judged ?_
    rw [destination_llama, localHosts, host_llama]
    simp
  · cases huser

/-- Bob may not use the cloud. He is given the adapter that was made for alice, and when he uses it the
host of a cloud model, which only her policy adds, is on the list. -/
theorem shared_guard_lists_cloud :
    Reaches (egressStep env.toLlmEnv models) (fun _ _ => True) {} reached ∧
      ⟨some bob, "llama", guarded⟩ ∈ reached.given ∧ cloudPolicyAllows env now (some bob) = false ∧
      "api.openai.com" ∈ buildAllowlist env models now guarded.userId ∧ judgedLocal models now "gpt" = false ∧
      ¬ GivenProvider.Agrees ⟨some bob, "llama", guarded⟩ env models connects now := by
  have hmade : guarded.inner.MadeFor models "llama" :=
    (EgressState.Made.reached reached_reaches).given ⟨some bob, "llama", guarded⟩ (by simp [reached])
  have hlisted : "api.openai.com" ∈ buildAllowlist env models now guarded.userId :=
    mem_buildAllowlist.mpr (.inr ⟨rfl, gpt_remote⟩)
  refine ⟨reached_reaches, by simp [reached], rfl, hlisted, by decide +kernel, fun hagrees => ?_⟩
  obtain ⟨hpolicy, -, -⟩ := (GivenProvider.agrees_iff hmade).mp hagrees
  cases hpolicy with
  | same h => cases h
  | covered huser => cases huser
  | silent _ _ h => exact h _ gpt_remote

end Examples

end Lumogis
