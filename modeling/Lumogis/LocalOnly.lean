import Lumogis.LlmProviders
import Lumogis.Lib.Labelled

/-!
# LocalOnly

The local-only policy judges a model by `base_url`, and its adapter is made from `adapter`,
`proxy_url` and `base_url`. For a given models configuration, a call of `get_llm_provider` under the
policy refuses, or returns an adapter that sends to the URL that was judged, in every run, if and
only if each model of `models.yaml` that is judged local is direct (`local_only_confined`): an
`openai` model has no proxy but its `base_url`, and the `base_url` of an `anthropic` model is where
that adapter sends anyway.
-/

namespace Lumogis

open Labelled

section LocalOnly

variable {env : LlmEnv} {models : ModelsConfig} {defaultUrl : AdapterKind → String}

/-- The adapter sends to the URL that `is_local_model` judged. -/
def ProviderCall.Confined (call : ProviderCall) (models : ModelsConfig) (defaultUrl : AdapterKind → String)
    (adapter : LlmAdapter) : Prop :=
  ∃ cfg, models.getModelConfig call.judged call.modelName = some cfg ∧
    isOllamaUrl cfg.baseUrl = true ∧ cfg.baseUrl = some (adapter.endpoint defaultUrl)

/-- Under the local-only policy, the call refuses or its adapter is confined. -/
def ProviderCall.LocalOnly (call : ProviderCall) (env : LlmEnv) (models : ModelsConfig)
    (defaultUrl : AdapterKind → String) (instances : LlmInstances) : Prop :=
  (call.settings.effectivePrivacyMode env call.userId).effective = .localOnly →
    ∀ adapter instances', getLlmProvider env models call instances = .ok (adapter, instances') →
      call.Confined models defaultUrl adapter

/-- See the head of the file. -/
def ModelConfig.Direct (defaultUrl : AdapterKind → String) (cfg : ModelConfig) : Prop :=
  (cfg.adapter = some "openai" → ∀ proxy ∈ truthy cfg.proxyUrl, cfg.baseUrl = some proxy) ∧
    (cfg.adapter = some "anthropic" →
      cfg.baseUrl = some ((truthy cfg.proxyUrl).getD (defaultUrl .anthropic)))

def ModelsConfig.Direct (defaultUrl : AdapterKind → String) (models : ModelsConfig) : Prop :=
  ∀ name cfg, models.yaml.lookup name = some cfg → isOllamaUrl cfg.baseUrl = true →
    cfg.model.isSome = true → cfg.Direct defaultUrl

/-- Calls, and the removal of slots by others. -/
inductive ProviderLabel where
  | call (call : ProviderCall)
  | drop (slot : LlmSlot)

def providerStep (env : LlmEnv) (models : ModelsConfig) :
    ProviderLabel → LlmInstances → Option LlmInstances
  | .call call, instances =>
    match getLlmProvider env models call instances with
    | .ok (_, instances') => some instances'
    | .error _ => some instances
  | .drop slot, instances => some (instances.erase slot)

theorem lookup_insert_cases {α β : Type} [DecidableEq α] {m : AList fun _ : α => β} {k k' : α}
    {v w : β} (h : (m.insert k v).lookup k' = some w) : k' = k ∧ w = v ∨ m.lookup k' = some w := by
  by_cases he : k' = k
  · subst he
    rw [AList.lookup_insert] at h
    cases h
    exact .inl ⟨rfl, rfl⟩
  · rw [AList.lookup_insert_ne he] at h
    exact .inr h

/-! ## What a call returns -/

theorem except_bind_ok {ε α β : Type} {x : Except ε α} {f : α → Except ε β} {b : β}
    (h : x >>= f = .ok b) : ∃ a, x = .ok a ∧ f a = .ok b := by
  cases x with
  | error e => cases h
  | ok a => exact ⟨a, rfl, h⟩

theorem getLlmProvider_ok {call : ProviderCall} {instances instances' : LlmInstances} {adapter : LlmAdapter}
    (h : getLlmProvider env models call instances = .ok (adapter, instances')) :
    assertRemoteAllowed env models call.settings call.judged call.modelName call.userId = .ok () ∧
      ∃ cfg slot, models.getModelConfig call.installed call.modelName = some cfg ∧
        slotOf env cfg call.modelName call.userId = .ok slot ∧
          (instances.lookup slot = some adapter ∧ instances' = instances ∨
            createAdapter env call cfg = .ok adapter ∧ instances' = instances.insert slot adapter) := by
  obtain ⟨_, hallowed, h⟩ := except_bind_ok h
  refine ⟨hallowed, ?_⟩
  split at h
  · cases h
  · rename_i cfg hcfg
    obtain ⟨slot, hslot, h⟩ := except_bind_ok h
    refine ⟨cfg, slot, hcfg, hslot, ?_⟩
    split at h
    · rename_i adapter' hcached
      cases h
      exact .inl ⟨hcached, rfl⟩
    · obtain ⟨adapter', hcreated, h⟩ := except_bind_ok h
      cases h
      exact .inr ⟨hcreated, rfl⟩

theorem createAdapter_ok {call : ProviderCall} {cfg : ModelConfig} {adapter : LlmAdapter}
    (h : createAdapter env call cfg = .ok adapter) :
    ∃ kind key, cfg.adapter = some kind ∧ buildAdapter cfg call.modelName kind key = .ok adapter := by
  obtain ⟨kind, hkind, h⟩ := except_bind_ok h
  obtain ⟨key, -, h⟩ := except_bind_ok h
  refine ⟨kind, key, ?_, h⟩
  rw [adapterType] at hkind
  split at hkind
  · rename_i kind' hadapter
    cases hkind
    exact hadapter
  · cases hkind

theorem isOllamaUrl_truthy {baseUrl : Option String} (h : isOllamaUrl baseUrl = true) :
    ∃ url, baseUrl = some url ∧ truthy baseUrl = some url := by
  cases baseUrl with
  | none => revert h; decide
  | some url =>
    refine ⟨url, rfl, ?_⟩
    have hne : url ≠ "" := by
      rintro rfl
      revert h
      decide
    simp [truthy, hne]

theorem buildAdapter_direct {cfg : ModelConfig} {modelName kind key : String} {adapter : LlmAdapter}
    (h : buildAdapter cfg modelName kind key = .ok adapter) (hkind : cfg.adapter = some kind)
    (hlocal : isOllamaUrl cfg.baseUrl = true) (hdirect : cfg.model.isSome = true → cfg.Direct defaultUrl) :
    cfg.baseUrl = some (adapter.endpoint defaultUrl) := by
  obtain ⟨url, hurl, htruthy⟩ := isOllamaUrl_truthy hlocal
  rw [buildAdapter] at h
  split at h
  · rename_i he
    subst he
    split at h
    · rename_i model hmodel
      cases h
      exact (hdirect (by rw [hmodel]; rfl)).2 hkind
    · cases h
  · split at h
    · rename_i he
      subst he
      split at h
      · rename_i model hmodel
        cases h
        have hproxy := (hdirect (by rw [hmodel]; rfl)).1 hkind
        cases hp : truthy cfg.proxyUrl with
        | none =>
          rw [hurl] at htruthy
          simp [LlmAdapter.endpoint, hurl, htruthy]
        | some proxy =>
          have hsame := hproxy proxy hp
          simp [LlmAdapter.endpoint, hsame]
      · cases h
    · cases h

/-! ## The configuration of a model -/

theorem lookup_dynamicOllamaModels {installed : List String} {name : String} {cfg : ModelConfig}
    (h : (models.dynamicOllamaModels installed).lookup name = some cfg) :
    ∃ fullName, cfg = models.ollamaModel fullName := by
  have hall : ∀ (installed : List String) (dynamic : AList fun _ : String => ModelConfig),
      (∀ n c, dynamic.lookup n = some c → ∃ fullName, c = models.ollamaModel fullName) →
      ∀ n c, (installed.foldl models.addInstalled dynamic).lookup n = some c →
        ∃ fullName, c = models.ollamaModel fullName := by
    intro installed
    induction installed with
    | nil => exact fun _ hd => hd
    | cons full rest ih =>
      intro dynamic hd
      refine ih _ fun n c hc => ?_
      simp only [ModelsConfig.addInstalled] at hc
      split at hc
      · exact hd n c hc
      · split at hc
        · exact hd n c hc
        · rcases lookup_insert_cases hc with ⟨-, rfl⟩ | hc
          · exact ⟨full, rfl⟩
          · exact hd n c hc
  exact hall installed ∅ (fun n c hc => by rw [AList.lookup_empty] at hc; cases hc) name cfg h

theorem ollamaModel_direct (fullName : String) :
    (models.ollamaModel fullName).Direct defaultUrl := by
  refine ⟨fun _ proxy hproxy => ?_, fun h => ?_⟩
  · cases hproxy
  · simp [ModelsConfig.ollamaModel] at h

theorem getModelConfig_unique {installed installed' : List String} {name : String}
    {cfg cfg' : ModelConfig} (h : models.getModelConfig installed name = some cfg)
    (h' : models.getModelConfig installed' name = some cfg') : cfg'.baseUrl = cfg.baseUrl := by
  rw [ModelsConfig.getModelConfig] at h h'
  split at h
  · rename_i c hc
    cases h
    rw [hc] at h'
    cases h'
    rfl
  · rename_i hnone
    rw [hnone] at h'
    obtain ⟨full, rfl⟩ := lookup_dynamicOllamaModels h
    obtain ⟨full', rfl⟩ := lookup_dynamicOllamaModels h'
    rfl

theorem ModelsConfig.Direct.cfg {installed : List String} {name : String} {cfg : ModelConfig}
    (hd : models.Direct defaultUrl) (h : models.getModelConfig installed name = some cfg)
    (hlocal : isOllamaUrl cfg.baseUrl = true) (hmodel : cfg.model.isSome = true) :
    cfg.Direct defaultUrl := by
  rw [ModelsConfig.getModelConfig] at h
  split at h
  · rename_i c hc
    cases h
    exact hd name _ hc hlocal hmodel
  · obtain ⟨full, rfl⟩ := lookup_dynamicOllamaModels h
    exact ollamaModel_direct full

/-! ## Runs -/

def LlmSlot.modelName : LlmSlot → String
  | cloud _ modelName => modelName
  | shared modelName => modelName

/-- An adapter in the cache was made from a configuration of its slot's model. -/
def CacheMade (models : ModelsConfig) (instances : LlmInstances) : Prop :=
  ∀ slot adapter, instances.lookup slot = some adapter → ∃ installed cfg kind key modelName,
    models.getModelConfig installed slot.modelName = some cfg ∧ cfg.adapter = some kind ∧
      buildAdapter cfg modelName kind key = .ok adapter

theorem slotOf_modelName {cfg : ModelConfig} {modelName : String} {userId : Option UserId}
    {slot : LlmSlot} (h : slotOf env cfg modelName userId = .ok slot) : slot.modelName = modelName := by
  rw [slotOf] at h
  split at h
  · cases h
    rfl
  · split at h
    · cases h
    · cases h
      rfl

theorem CacheMade.adapter {call : ProviderCall} {instances instances' : LlmInstances} {adapter : LlmAdapter}
    (hmade : CacheMade models instances)
    (h : getLlmProvider env models call instances = .ok (adapter, instances')) :
    CacheMade models instances' ∧ ∃ installed cfg kind key modelName,
      models.getModelConfig installed call.modelName = some cfg ∧ cfg.adapter = some kind ∧
        buildAdapter cfg modelName kind key = .ok adapter := by
  obtain ⟨-, cfg, slot, hcfg, hslot, hcase⟩ := getLlmProvider_ok h
  have hname := slotOf_modelName hslot
  rcases hcase with ⟨hcached, rfl⟩ | ⟨hcreated, rfl⟩
  · exact ⟨hmade, hname ▸ hmade slot adapter hcached⟩
  · obtain ⟨kind, key, hkind, hbuilt⟩ := createAdapter_ok hcreated
    refine ⟨fun slot' adapter' hlookup => ?_, call.installed, cfg, kind, key, _, hcfg, hkind, hbuilt⟩
    rcases lookup_insert_cases hlookup with ⟨rfl, rfl⟩ | hlookup
    · exact ⟨call.installed, cfg, kind, key, _, by rw [hname]; exact hcfg, hkind, hbuilt⟩
    · exact hmade slot' adapter' hlookup

theorem CacheMade.next {l : ProviderLabel} {instances instances' : LlmInstances}
    (hmade : CacheMade models instances) (hs : providerStep env models l instances = some instances') :
    CacheMade models instances' := by
  cases l with
  | call call =>
    simp only [providerStep] at hs
    split at hs
    · rename_i adapter _ hcall
      cases hs
      exact (hmade.adapter hcall).1
    · cases hs
      exact hmade
  | drop slot =>
    cases hs
    intro slot' adapter hlookup
    by_cases he : slot' = slot
    · subst he
      rw [AList.lookup_erase] at hlookup
      cases hlookup
    · rw [AList.lookup_erase_ne he] at hlookup
      exact hmade slot' adapter hlookup

theorem ModelsConfig.Direct.localOnly {call : ProviderCall} {instances : LlmInstances}
    (hd : models.Direct defaultUrl) (hmade : CacheMade models instances) :
    call.LocalOnly env models defaultUrl instances := by
  intro hpolicy adapter instances' h
  obtain ⟨hallowed, -⟩ := getLlmProvider_ok h
  obtain ⟨-, installed, cfg, kind, key, modelName, hcfg, hkind, hbuilt⟩ := hmade.adapter h
  have hlocal : models.isLocalModel call.judged call.modelName = true := by
    rw [assertRemoteAllowed] at hallowed
    split at hallowed
    · assumption
    · rw [hpolicy] at hallowed
      cases hallowed
  rw [ModelsConfig.isLocalModel] at hlocal
  split at hlocal
  · rename_i judged hjudged
    have hurl := getModelConfig_unique hjudged hcfg
    refine ⟨judged, hjudged, hlocal, ?_⟩
    rw [← hurl] at hlocal ⊢
    exact buildAdapter_direct hbuilt hkind hlocal (hd.cfg hcfg hlocal)
  · cases hlocal

/-- A call without a user when authentication is off, under the policy of an instance that has set
none. -/
def plainCall (modelName : String) : ProviderCall :=
  { modelName := modelName, userId := none
    settings := { privacyMode := none, privacyModeLocked := none, restriction := fun _ => none }
    judged := [], installed := [], credentials := ∅ }

/-- Every variable of the environment is set. -/
def plainEnv : LlmEnv := { strip := id, getenv := fun _ => some "key", authEnabled := false }

theorem effectiveKey_plain (cfg : ModelConfig) :
    ∃ key, effectiveKey plainEnv ∅ cfg none = .ok key := by
  rw [effectiveKey]
  cases truthy cfg.apiKeyEnv with
  | none => exact ⟨"", rfl⟩
  | some apiKeyEnv =>
    refine ⟨"key", ?_⟩
    simp only [effectiveApiKey]
    cases connectorForApiKeyEnv apiKeyEnv with
    | none => rfl
    | some connector => rfl

theorem getModelConfig_yaml {modelName : String} {cfg : ModelConfig}
    (hcfg : models.yaml.lookup modelName = some cfg) (installed : List String) :
    models.getModelConfig installed modelName = some cfg := by
  rw [ModelsConfig.getModelConfig, hcfg]

theorem plainCall_ok {modelName kind key : String} {cfg : ModelConfig} {slot : LlmSlot}
    {a : LlmAdapter} (hcfg : models.yaml.lookup modelName = some cfg)
    (hlocal : isOllamaUrl cfg.baseUrl = true) (hkind : cfg.adapter = some kind)
    (hslot : slotOf plainEnv cfg modelName none = .ok slot)
    (hkey : effectiveKey plainEnv ∅ cfg none = .ok key)
    (ha : buildAdapter cfg modelName kind key = .ok a) :
    getLlmProvider plainEnv models (plainCall modelName) ∅ =
      .ok (a, (∅ : LlmInstances).insert slot a) := by
  have hget (installed : List String) : models.getModelConfig installed modelName = some cfg :=
    getModelConfig_yaml hcfg installed
  have hcreated : createAdapter plainEnv (plainCall modelName) cfg = .ok a := by
    rw [createAdapter, adapterType, hkind]
    show (do
      let key ← effectiveKey plainEnv ∅ cfg none
      buildAdapter cfg modelName kind key) = _
    rw [hkey]
    exact ha
  have hallowed : assertRemoteAllowed plainEnv models (plainCall modelName).settings
      (plainCall modelName).judged (plainCall modelName).modelName (plainCall modelName).userId =
        .ok () := by
    rw [assertRemoteAllowed, ModelsConfig.isLocalModel]
    simp only [plainCall, hget, hlocal, if_true]
  have hget' : models.getModelConfig (plainCall modelName).installed (plainCall modelName).modelName =
    some cfg := hget _
  have hslot' : slotOf plainEnv cfg (plainCall modelName).modelName (plainCall modelName).userId =
    .ok slot := hslot
  simp only [getLlmProvider, hallowed, hget', hslot', hcreated, AList.lookup_empty, bind, Except.bind]

theorem plainCall_url {modelName kind url : String} {cfg : ModelConfig}
    (hlaw : (plainCall modelName).LocalOnly plainEnv models defaultUrl ∅)
    (hcfg : models.yaml.lookup modelName = some cfg) (hlocal : isOllamaUrl cfg.baseUrl = true)
    (hkind : cfg.adapter = some kind)
    (hbuilt : ∀ key, ∃ a, buildAdapter cfg modelName kind key = .ok a ∧ a.endpoint defaultUrl = url) :
    cfg.baseUrl = some url := by
  have hslot : ∃ slot, slotOf plainEnv cfg modelName none = .ok slot := by
    rw [slotOf]
    cases truthy cfg.apiKeyEnv with
    | none => exact ⟨_, rfl⟩
    | some apiKeyEnv => exact ⟨_, rfl⟩
  obtain ⟨slot, hslot⟩ := hslot
  obtain ⟨key, hkey⟩ := effectiveKey_plain cfg
  obtain ⟨a, ha, hurl⟩ := hbuilt key
  obtain ⟨cfg', hcfg', -, hconfined⟩ :=
    hlaw rfl a _ (plainCall_ok hcfg hlocal hkind hslot hkey ha)
  cases (getModelConfig_yaml hcfg _).symm.trans hcfg'
  rw [← hurl]
  exact hconfined

/-- The local-only policy confines the adapters of a models configuration if and only if the
configuration is direct. -/
theorem local_only_confined (models : ModelsConfig) (defaultUrl : AdapterKind → String) :
    (∀ env instances, Reaches (providerStep env models) (fun _ _ => True) ∅ instances →
      ∀ call : ProviderCall, call.LocalOnly env models defaultUrl instances) ↔
    models.Direct defaultUrl := by
  constructor
  · intro hlaw name cfg hcfg hlocal hmodel
    obtain ⟨model, hmodel⟩ := Option.isSome_iff_exists.mp hmodel
    have hplain := hlaw plainEnv ∅ .start (plainCall name)
    refine ⟨fun hkind proxy hproxy => ?_, fun hkind => ?_⟩
    · refine plainCall_url hplain hcfg hlocal hkind fun key => ?_
      have htruthy : truthy cfg.proxyUrl = some proxy := hproxy
      simp [buildAdapter, hmodel, LlmAdapter.endpoint, htruthy]
    · refine plainCall_url hplain hcfg hlocal hkind fun key => ?_
      simp [buildAdapter, hmodel, LlmAdapter.endpoint]
  · intro hd env instances hrun call
    refine hd.localOnly (hrun.invariant (I := CacheMade models) ?_ fun l s t hs _ ht => hs.next ht)
    intro slot adapter hlookup
    rw [AList.lookup_empty] at hlookup
    cases hlookup

end LocalOnly

namespace ProxyExample

/-- The URLs of the two SDKs. -/
def sdkUrl : AdapterKind → String
  | .anthropic => "https://api.anthropic.com"
  | .openai => "https://api.openai.com/v1"

/-- A model of the local Ollama that is routed through a proxy. -/
def llama : ModelConfig :=
  { adapter := some "openai", model := some "llama3.2", baseUrl := some "http://ollama:11434/v1"
    proxyUrl := some "http://litellm:4000", apiKeyEnv := none, contextBudget := none }

def models : ModelsConfig :=
  { yaml := AList.singleton "llama" llama, ollamaBaseUrl := "http://ollama:11434/v1"
    embeddingModel := "nomic-embed-text" }

/-- What the call returns. -/
def adapter : LlmAdapter :=
  { kind := .openai, model := "llama3.2", apiKey := none, baseUrl := some "http://litellm:4000"
    contextBudget := none }

theorem lookup_llama : models.yaml.lookup "llama" = some llama := rfl

theorem llama_local : isOllamaUrl llama.baseUrl = true := by decide +kernel

theorem llama_adapter : buildAdapter llama "llama" "openai" "" = .ok adapter := by
  simp [buildAdapter, llama, adapter, truthy]

end ProxyExample

section Examples

open ProxyExample

/-- The policy is local-only, and the adapter of a model that is judged local by its `base_url` sends
to its proxy. -/
theorem proxied_model_leaves :
    ((plainCall "llama").settings.effectivePrivacyMode plainEnv none).effective = .localOnly ∧
      getLlmProvider plainEnv ProxyExample.models (plainCall "llama") ∅ =
        .ok (ProxyExample.adapter, (∅ : LlmInstances).insert (.shared "llama") ProxyExample.adapter) ∧
      ProxyExample.adapter.endpoint sdkUrl = "http://litellm:4000" ∧
      ¬ (plainCall "llama").LocalOnly plainEnv ProxyExample.models sdkUrl ∅ := by
  have hcall : getLlmProvider plainEnv ProxyExample.models (plainCall "llama") ∅ =
      .ok (ProxyExample.adapter, (∅ : LlmInstances).insert (.shared "llama") ProxyExample.adapter) :=
    plainCall_ok lookup_llama llama_local rfl rfl rfl llama_adapter
  refine ⟨rfl, hcall, rfl, fun hlaw => ?_⟩
  obtain ⟨cfg, hcfg, -, hurl⟩ := hlaw rfl _ _ hcall
  cases (getModelConfig_yaml lookup_llama _).symm.trans hcfg
  simp [llama, LlmAdapter.endpoint, ProxyExample.adapter] at hurl

end Examples

end Lumogis
