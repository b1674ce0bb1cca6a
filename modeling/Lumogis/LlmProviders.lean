import Mathlib.Data.List.Infix
import Mathlib.Data.List.AList

/-!
# LlmProviders

`get_llm_provider`: the configuration of a model, the privacy policy that may refuse it, the slot of
the cache that its adapter is kept in, the API key, and the adapter.

`models.yaml` is read once. The models that Ollama has installed are listed anew on each look at the
configuration.
-/

namespace Lumogis

/-- An entry of `models.yaml`, with the fields that `get_llm_provider` reads. -/
structure ModelConfig where
  adapter : Option String
  model : Option String
  baseUrl : Option String
  proxyUrl : Option String
  apiKeyEnv : Option String
  contextBudget : Option Nat
  deriving DecidableEq

structure ModelsConfig where
  yaml : AList fun _ : String => ModelConfig
  /-- `_OLLAMA_BASE_URL`. -/
  ollamaBaseUrl : String
  embeddingModel : String

/-- Absent, `None` and `""` are false. -/
def truthy (s : Option String) : Option String := s.filter fun s => s != ""

/-- `"ollama" in (base_url or "").lower()`. Only ASCII letters have an `o`, `l`, `a` or `m` as their
lower case. -/
def isOllamaUrl (baseUrl : Option String) : Bool :=
  decide ("ollama".toList <:+: ((baseUrl.getD "").toList.map Char.toLower))

namespace ModelsConfig

/-- `full_name.split(":")[0]`. -/
def baseName (fullName : String) : String := String.ofList (fullName.toList.takeWhile (· != ':'))

/-- `full_name.replace(":", "-")`. -/
def dashed (fullName : String) : String :=
  String.ofList (fullName.toList.map fun c => if c = ':' then '-' else c)

/-- The entry of an installed model. -/
def ollamaModel (models : ModelsConfig) (fullName : String) : ModelConfig :=
  { adapter := some "openai", model := some fullName, baseUrl := some models.ollamaBaseUrl
    proxyUrl := none, apiKeyEnv := none, contextBudget := none }

def yamlOllamaNames (models : ModelsConfig) : List String :=
  (models.yaml.entries.filter fun e => isOllamaUrl e.2.baseUrl).map fun e => e.2.model.getD ""

/-- Adds one installed model to the dynamic ones. -/
def addInstalled (models : ModelsConfig) (dynamic : AList fun _ : String => ModelConfig)
    (fullName : String) : AList fun _ : String => ModelConfig :=
  let base := baseName fullName
  let known := models.yamlOllamaNames
  if fullName ∈ known ∨ base ∈ known then dynamic
  else if base = models.embeddingModel ∨ fullName = models.embeddingModel then dynamic
  else
    let key := if base ∈ models.yaml ∨ base ∈ dynamic then dashed fullName else base
    dynamic.insert key (models.ollamaModel fullName)

/-- `_dynamic_ollama_models`. -/
def dynamicOllamaModels (models : ModelsConfig) (installed : List String) :
    AList fun _ : String => ModelConfig :=
  installed.foldl models.addInstalled ∅

/-- `none` for `ValueError`. -/
def getModelConfig (models : ModelsConfig) (installed : List String) (modelName : String) :
    Option ModelConfig :=
  match models.yaml.lookup modelName with
  | some cfg => some cfg
  | none => (models.dynamicOllamaModels installed).lookup modelName

def isLocalModel (models : ModelsConfig) (installed : List String) (modelName : String) : Bool :=
  match models.getModelConfig installed modelName with
  | some cfg => isOllamaUrl cfg.baseUrl
  | none => false

end ModelsConfig

/-- The id of a user: `uuid4`, or `default`. -/
structure UserId where
  text : String
  plain : ':' ∉ text.toList ∧ text ≠ "" ∧ text ≠ "_global" ∧ text ≠ "_local"
  deriving DecidableEq

/-! ## Privacy -/

inductive InstancePrivacyMode where
  | localOnly
  | allowCloud
  deriving DecidableEq

inductive PrivacyUserRestriction where
  | inherit
  | localOnly
  deriving DecidableEq

/-- The rows of `app_settings` and `privacy_user_settings` that the policy is read from. -/
structure PrivacySettings where
  privacyMode : Option String
  privacyModeLocked : Option String
  restriction : UserId → Option String

structure EffectivePrivacy where
  instanceMode : InstancePrivacyMode
  instanceLocked : Bool
  instanceEffective : InstancePrivacyMode
  userRestriction : PrivacyUserRestriction
  effective : InstancePrivacyMode

/-- The process: its environment and the text functions of the language. -/
structure LlmEnv where
  strip : String → String
  getenv : String → Option String
  authEnabled : Bool

namespace PrivacySettings

/-- `_load_instance_mode`: anything but `allow_cloud` is local-only. -/
def loadInstanceMode (env : LlmEnv) (settings : PrivacySettings) : InstancePrivacyMode :=
  match settings.privacyMode with
  | none => .localOnly
  | some raw => if env.strip raw = "allow_cloud" then .allowCloud else .localOnly

def loadInstanceLocked (env : LlmEnv) (settings : PrivacySettings) : Bool :=
  match truthy settings.privacyModeLocked with
  | none => false
  | some raw =>
    ["true", "1", "yes"].any fun s => (env.strip raw).toList.map Char.toLower == s.toList

def loadUserRestriction (settings : PrivacySettings) (userId : UserId) : PrivacyUserRestriction :=
  if settings.restriction userId = some "local_only" then .localOnly else .inherit

def effectivePrivacyMode (env : LlmEnv) (settings : PrivacySettings) (userId : Option UserId) :
    EffectivePrivacy :=
  let instanceMode := settings.loadInstanceMode env
  let userRestriction := match userId with
    | some userId => if env.authEnabled then settings.loadUserRestriction userId else .inherit
    | none => .inherit
  { instanceMode := instanceMode
    instanceLocked := settings.loadInstanceLocked env
    instanceEffective := instanceMode
    userRestriction := userRestriction
    effective := if userRestriction = .localOnly then .localOnly else instanceMode }

end PrivacySettings

inductive LlmError where
  | privacyModeBlocked (modelName : String)
  | unknownModel (modelName : String)
  /-- `TypeError`. -/
  | userIdRequired (modelName : String)
  | connectorNotConfigured
  | credentialUnavailable
  | keyError (field : String)
  | unknownAdapter (adapterType modelName : String)

def assertRemoteAllowed (env : LlmEnv) (models : ModelsConfig) (settings : PrivacySettings)
    (installed : List String) (modelName : String) (userId : Option UserId) : Except LlmError Unit :=
  if models.isLocalModel installed modelName then .ok ()
  else if (settings.effectivePrivacyMode env userId).effective = .allowCloud then .ok ()
  else .error (.privacyModeBlocked modelName)

/-! ## API keys -/

/-- `LLM_CONNECTOR_BY_ENV`. -/
def llmConnectorByEnv : List (String × String) :=
  [("ANTHROPIC_API_KEY", "llm_anthropic"), ("OPENAI_API_KEY", "llm_openai"),
    ("XAI_API_KEY", "llm_xai"), ("PERPLEXITY_API_KEY", "llm_perplexity"),
    ("GEMINI_API_KEY", "llm_gemini"), ("MISTRAL_API_KEY", "llm_mistral")]

def connectorForApiKeyEnv (apiKeyEnv : String) : Option String := llmConnectorByEnv.lookup apiKeyEnv

/-- The fields of a payload; `none` for a value that is not a string. -/
abbrev LlmPayload := List (String × Option String)

/-- `user_connector_credentials`, by user and connector; `none` for a ciphertext that cannot be
decrypted. Without a user id, the user is `""`. -/
abbrev LlmCredentials := AList fun _ : Option UserId × String => Option LlmPayload

/-- `connector_credentials.resolve`. -/
def resolveLlmPayload (env : LlmEnv) (credentials : LlmCredentials) (userId : Option UserId)
    (connector fallbackEnv : String) : Except LlmError LlmPayload :=
  match credentials.lookup (userId, connector) with
  | some (some payload) => .ok payload
  | some none => .error .credentialUnavailable
  | none =>
    if env.authEnabled then .error .connectorNotConfigured
    else
      match truthy (env.getenv fallbackEnv) with
      | some value => .ok [("value", some value)]
      | none => .error .connectorNotConfigured

def effectiveApiKey (env : LlmEnv) (credentials : LlmCredentials) (userId : Option UserId)
    (apiKeyEnv : String) : Except LlmError String :=
  match connectorForApiKeyEnv apiKeyEnv with
  | none =>
    let value := env.strip ((env.getenv apiKeyEnv).getD "")
    if env.authEnabled || value == "" then .error .connectorNotConfigured else .ok value
  | some connector => do
    let payload ← resolveLlmPayload env credentials userId connector apiKeyEnv
    let payloadKey := if (payload.lookup "value").isSome && !env.authEnabled then "value" else "api_key"
    match payload.lookup payloadKey with
    | some (some apiKey) =>
      if env.strip apiKey = "" then .error .connectorNotConfigured else .ok (env.strip apiKey)
    | _ => .error .credentialUnavailable

/-! ## The cache -/

/-- A slot of `_instances`. -/
inductive LlmSlot where
  /-- Without a user id, the slot is `_global`. -/
  | cloud (userId : Option UserId) (modelName : String)
  | shared (modelName : String)
  deriving DecidableEq

namespace LlmSlot

/-- `target`. -/
def owner : Option UserId → String
  | some userId => userId.text
  | none => "_global"

/-- The string that the slot is kept under. -/
def cacheKey : LlmSlot → List Char
  | cloud userId modelName => "llm:".toList ++ ((owner userId).toList ++ ':' :: modelName.toList)
  | shared modelName => "llm:".toList ++ ("_local".toList ++ ':' :: modelName.toList)

/-- `k.startswith(prefix)`. -/
def belongsTo (userId : Option UserId) (slot : LlmSlot) : Bool :=
  ("llm:".toList ++ ((owner userId).toList ++ [':'])).isPrefixOf slot.cacheKey

end LlmSlot

/-! ## Adapters -/

inductive AdapterKind where
  | anthropic
  | openai

structure LlmAdapter where
  kind : AdapterKind
  model : String
  apiKey : Option String
  /-- `none` leaves the endpoint to the SDK. -/
  baseUrl : Option String
  contextBudget : Option Nat

/-- Where the requests of the adapter go. `defaultUrl` is the endpoint of the SDK. -/
def LlmAdapter.endpoint (defaultUrl : AdapterKind → String) (a : LlmAdapter) : String :=
  a.baseUrl.getD (defaultUrl a.kind)

/-- The slot for a model, and the variable of its key when it has one. -/
def slotOf (env : LlmEnv) (cfg : ModelConfig) (modelName : String) (userId : Option UserId) :
    Except LlmError LlmSlot :=
  match truthy cfg.apiKeyEnv with
  | none => .ok (.shared modelName)
  | some _ =>
    if env.authEnabled && userId.isNone then .error (.userIdRequired modelName)
    else .ok (.cloud userId modelName)

/-- `cfg["adapter"]`. -/
def adapterType (cfg : ModelConfig) : Except LlmError String :=
  match cfg.adapter with
  | some adapterType => .ok adapterType
  | none => .error (.keyError "adapter")

/-- `effective_key`, which is empty for a model without a key. -/
def effectiveKey (env : LlmEnv) (credentials : LlmCredentials) (cfg : ModelConfig)
    (userId : Option UserId) : Except LlmError String :=
  match truthy cfg.apiKeyEnv with
  | some apiKeyEnv => effectiveApiKey env credentials userId apiKeyEnv
  | none => .ok ""

def buildAdapter (cfg : ModelConfig) (modelName adapterType key : String) :
    Except LlmError LlmAdapter :=
  if adapterType = "anthropic" then
    match cfg.model with
    | some model => .ok { kind := .anthropic, model := model, apiKey := some key
                          baseUrl := truthy cfg.proxyUrl, contextBudget := none }
    | none => .error (.keyError "model")
  else if adapterType = "openai" then
    match cfg.model with
    | some model => .ok { kind := .openai, model := model, apiKey := truthy (some key)
                          baseUrl := (truthy cfg.proxyUrl).or (truthy cfg.baseUrl)
                          contextBudget := cfg.contextBudget }
    | none => .error (.keyError "model")
  else .error (.unknownAdapter adapterType modelName)

abbrev LlmInstances := AList fun _ : LlmSlot => LlmAdapter

/-- A call of `get_llm_provider` with what it reads. -/
structure ProviderCall where
  modelName : String
  userId : Option UserId
  settings : PrivacySettings
  /-- What Ollama lists when the model is judged, and when its configuration is read. -/
  judged : List String
  installed : List String
  credentials : LlmCredentials

/-- The adapter of a slot that is empty. -/
def createAdapter (env : LlmEnv) (call : ProviderCall) (cfg : ModelConfig) : Except LlmError LlmAdapter := do
  let kind ← adapterType cfg
  let key ← effectiveKey env call.credentials cfg call.userId
  buildAdapter cfg call.modelName kind key

def getLlmProvider (env : LlmEnv) (models : ModelsConfig) (call : ProviderCall) (instances : LlmInstances) :
    Except LlmError (LlmAdapter × LlmInstances) := do
  assertRemoteAllowed env models call.settings call.judged call.modelName call.userId
  match models.getModelConfig call.installed call.modelName with
  | none => .error (.unknownModel call.modelName)
  | some cfg =>
    let slot ← slotOf env cfg call.modelName call.userId
    match instances.lookup slot with
    | some adapter => .ok (adapter, instances)
    | none =>
      let adapter ← createAdapter env call cfg
      .ok (adapter, instances.insert slot adapter)

/-! ## Slots and their keys -/

theorem isPrefix_colon {u v m : List Char} (hu : ':' ∉ u) (hv : ':' ∉ v) :
    u ++ [':'] <+: v ++ ':' :: m ↔ u = v := by
  induction u generalizing v with
  | nil =>
    cases v with
    | nil => simp
    | cons d v =>
      have hd : ':' ≠ d := fun he => hv (he ▸ List.mem_cons_self)
      simp [hd]
  | cons c u ih =>
    have hc : c ≠ ':' := fun he => hu (he ▸ List.mem_cons_self)
    cases v with
    | nil => simp [hc]
    | cons d v =>
      have htail := ih (v := v) (fun h => hu (List.mem_cons_of_mem _ h))
        fun h => hv (List.mem_cons_of_mem _ h)
      simp [htail]

namespace LlmSlot

theorem colon_owner (userId : Option UserId) : ':' ∉ (owner userId).toList := by
  cases userId with
  | none => decide
  | some u => exact u.plain.1

theorem owner_injective {u v : Option UserId} (h : owner u = owner v) : u = v := by
  cases u with
  | none =>
    cases v with
    | none => rfl
    | some v => exact absurd h.symm v.plain.2.2.1
  | some u =>
    cases v with
    | none => exact absurd h u.plain.2.2.1
    | some v =>
      obtain ⟨text, _⟩ := u
      obtain ⟨text', _⟩ := v
      cases (show text = text' from h)
      rfl

theorem owner_ne_local (userId : Option UserId) : owner userId ≠ "_local" := by
  cases userId with
  | none => decide
  | some u => exact u.plain.2.2.2

theorem belongsTo_iff {userId : Option UserId} {slot : LlmSlot} :
    slot.belongsTo userId = true ↔ ∃ modelName, slot = .cloud userId modelName := by
  have hstarts {v m : List Char} (hv : ':' ∉ v) :
      ("llm:".toList ++ ((owner userId).toList ++ [':'])).isPrefixOf
        ("llm:".toList ++ (v ++ ':' :: m)) = true ↔ (owner userId).toList = v := by
    rw [List.isPrefixOf_iff_prefix, List.prefix_append_right_inj, isPrefix_colon (colon_owner _) hv]
  cases slot with
  | cloud v modelName =>
    refine (hstarts (colon_owner v)).trans ⟨fun h => ?_, ?_⟩
    · exact ⟨modelName, by rw [owner_injective (String.toList_injective h)]⟩
    · rintro ⟨m, h⟩
      cases h
      rfl
  | shared modelName =>
    refine (hstarts (by decide)).trans ⟨fun h => ?_, ?_⟩
    · exact absurd (String.toList_injective h) (owner_ne_local userId)
    · rintro ⟨m, h⟩
      cases h

end LlmSlot

theorem connectorForApiKeyEnv_llm {apiKeyEnv connector : String}
    (h : connectorForApiKeyEnv apiKeyEnv = some connector) :
    "llm_".toList.isPrefixOf connector.toList = true := by
  have hall : ∀ e ∈ llmConnectorByEnv, "llm_".toList.isPrefixOf e.2.toList = true := by decide
  obtain ⟨before, after, heq, -⟩ := List.lookup_eq_some_iff.mp h
  exact hall (apiKeyEnv, connector) (by simp [heq])

end Lumogis
