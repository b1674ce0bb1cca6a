import Mathlib.Data.List.Nodup
import Lumogis.Lib.Dict
import Lumogis.LlmProviders

/-!
# ModelListing

The names a model can be asked for by: `_dynamic_ollama_models`, which gives a name to every installed
model that `models.yaml` does not name, and its two readers, the listing `get_all_models_config` and
the lookup `get_model_config`.

`LlmProviders` keeps of an entry what `get_llm_provider` reads; here an entry has all its keys, and
`configs` forgets the others (`getModelConfig_configs`).

A model is given its base name, or its full name with dashes when the base name is taken; that second
name is not looked at again, and may be one of `models.yaml` or that of another model
(`modelListing_exact_iff`).
-/

namespace Lumogis

structure ModelEntry where
  config : ModelConfig
  tools : Option Bool
  dynamicOllama : Option Bool
  others : List (String × String)
  deriving DecidableEq

structure ModelCatalog where
  /-- `_load_models_yaml()`. -/
  yaml : Dict String ModelEntry
  /-- `_OLLAMA_BASE_URL`. -/
  ollamaBaseUrl : String
  embeddingModel : String

namespace ModelCatalog

/-- What `get_llm_provider` reads of the catalog. -/
def configs (c : ModelCatalog) : ModelsConfig where
  yaml := ⟨c.yaml.items.map fun item => ⟨item.1, item.2.config⟩, by
    rw [List.NodupKeys, List.keys, List.map_map]
    exact c.yaml.nodup⟩
  ollamaBaseUrl := c.ollamaBaseUrl
  embeddingModel := c.embeddingModel

/-- The entry of an installed model. -/
def ollamaEntry (c : ModelCatalog) (fullName : String) : ModelEntry where
  config := c.configs.ollamaModel fullName
  tools := some false
  dynamicOllama := some true
  others := []

/-- `models.yaml` names the model, in full or without its tag. -/
def IsNamed (c : ModelCatalog) (fullName : String) : Prop :=
  fullName ∈ c.configs.yamlOllamaNames ∨ ModelsConfig.baseName fullName ∈ c.configs.yamlOllamaNames

def IsEmbedding (c : ModelCatalog) (fullName : String) : Prop :=
  ModelsConfig.baseName fullName = c.embeddingModel ∨ fullName = c.embeddingModel

instance (c : ModelCatalog) (fullName : String) : Decidable (c.IsNamed fullName) :=
  inferInstanceAs (Decidable (_ ∨ _))

instance (c : ModelCatalog) (fullName : String) : Decidable (c.IsEmbedding fullName) :=
  inferInstanceAs (Decidable (_ ∨ _))

/-- The name for a model when the names in `taken` have been given already. -/
def aliasOf (c : ModelCatalog) (taken : List String) (fullName : String) : String :=
  if ModelsConfig.baseName fullName ∈ c.yaml.keys ∨ ModelsConfig.baseName fullName ∈ taken then
    ModelsConfig.dashed fullName
  else ModelsConfig.baseName fullName

/-- Adds one installed model to the dynamic ones. -/
def addInstalled (c : ModelCatalog) (dynamic : Dict String ModelEntry) (fullName : String) :
    Dict String ModelEntry :=
  if c.IsNamed fullName then dynamic
  else if c.IsEmbedding fullName then dynamic
  else dynamic.set (c.aliasOf dynamic.keys fullName) (c.ollamaEntry fullName)

/-- `_dynamic_ollama_models`. -/
def dynamicOllamaModels (c : ModelCatalog) (installed : List String) : Dict String ModelEntry :=
  installed.foldl c.addInstalled .empty

def getAllModelsConfig (c : ModelCatalog) (installed : List String) : Dict String ModelEntry :=
  c.yaml.update (c.dynamicOllamaModels installed)

/-- `none` for `ValueError`. -/
def getModelConfig (c : ModelCatalog) (installed : List String) (modelName : String) :
    Option ModelEntry :=
  match c.yaml.get? modelName with
  | some entry => some entry
  | none => (c.dynamicOllamaModels installed).get? modelName

/-! ## The catalog and what `get_llm_provider` reads of it -/

theorem lookup_configs (c : ModelCatalog) (n : String) :
    c.configs.yaml.lookup n = (c.yaml.get? n).map ModelEntry.config := by
  show List.dlookup n (c.yaml.items.map fun item =>
    (⟨item.1, item.2.config⟩ : Sigma fun _ : String => ModelConfig)) = _
  rw [Dict.get?]
  induction c.yaml.items with
  | nil => rfl
  | cons item items ih =>
    by_cases hn : item.1 = n
    · subst hn
      simp
    · have hn' : n ≠ (⟨item.1, item.2.config⟩ : Sigma fun _ : String => ModelConfig).1 :=
        fun h => hn h.symm
      rw [List.map_cons, List.dlookup_cons_ne _ _ hn', ih, List.find?_cons_of_neg (by simpa using hn)]

theorem mem_configs (c : ModelCatalog) (n : String) : n ∈ c.configs.yaml ↔ n ∈ c.yaml.keys := by
  rw [← AList.lookup_isSome, lookup_configs, Dict.mem_keys_iff, Option.isSome_map]

/-- The two hold the same names, with entries that agree on what both keep. -/
def Agrees (d : Dict String ModelEntry) (models : AList fun _ : String => ModelConfig) : Prop :=
  ∀ n, models.lookup n = (d.get? n).map ModelEntry.config

theorem Agrees.mem {d : Dict String ModelEntry} {models : AList fun _ : String => ModelConfig}
    (h : Agrees d models) (n : String) : n ∈ models ↔ n ∈ d.keys := by
  rw [← AList.lookup_isSome, h n, Dict.mem_keys_iff, Option.isSome_map]

theorem addInstalled_configs (c : ModelCatalog) (models : AList fun _ : String => ModelConfig)
    (f : String) : c.configs.addInstalled models f =
      if c.IsNamed f then models
      else if c.IsEmbedding f then models
      else models.insert (if ModelsConfig.baseName f ∈ c.configs.yaml ∨ ModelsConfig.baseName f ∈ models
        then ModelsConfig.dashed f else ModelsConfig.baseName f) (c.configs.ollamaModel f) := rfl

theorem Agrees.addInstalled {c : ModelCatalog} {d : Dict String ModelEntry}
    {models : AList fun _ : String => ModelConfig} (h : Agrees d models) (f : String) :
    Agrees (c.addInstalled d f) (c.configs.addInstalled models f) := by
  rw [addInstalled_configs, ModelCatalog.addInstalled]
  by_cases hnamed : c.IsNamed f
  · rw [if_pos hnamed, if_pos hnamed]
    exact h
  rw [if_neg hnamed, if_neg hnamed]
  by_cases hemb : c.IsEmbedding f
  · rw [if_pos hemb, if_pos hemb]
    exact h
  rw [if_neg hemb, if_neg hemb]
  intro n
  have hkey : (if ModelsConfig.baseName f ∈ c.configs.yaml ∨ ModelsConfig.baseName f ∈ models then
      ModelsConfig.dashed f else ModelsConfig.baseName f) = c.aliasOf d.keys f := by
    simp only [aliasOf, c.mem_configs, h.mem]
  rw [hkey, Dict.get?_set]
  by_cases hn : n = c.aliasOf d.keys f
  · rw [if_pos hn, hn, AList.lookup_insert]
    rfl
  · rw [if_neg hn, AList.lookup_insert_ne hn, h n]

theorem dynamicOllamaModels_agrees (c : ModelCatalog) (installed : List String) :
    Agrees (c.dynamicOllamaModels installed) (c.configs.dynamicOllamaModels installed) := by
  unfold dynamicOllamaModels ModelsConfig.dynamicOllamaModels
  induction installed using List.reverseRecOn with
  | nil => intro n; rfl
  | append_singleton installed f ih =>
    rw [List.foldl_append, List.foldl_append]
    exact ih.addInstalled f

theorem getModelConfig_configs (c : ModelCatalog) (installed : List String) (n : String) :
    c.configs.getModelConfig installed n =
      (c.getModelConfig installed n).map ModelEntry.config := by
  rw [ModelsConfig.getModelConfig, getModelConfig, lookup_configs]
  cases c.yaml.get? n with
  | some entry => rfl
  | none => exact c.dynamicOllamaModels_agrees installed n

/-! ## The names that are given -/

/-- Adds the name and the full name of one installed model, if it gets an entry. -/
def give (c : ModelCatalog) (given : List (String × String)) (fullName : String) :
    List (String × String) :=
  if c.IsNamed fullName then given
  else if c.IsEmbedding fullName then given
  else given ++ [(c.aliasOf (given.map Prod.fst) fullName, fullName)]

/-- The installed models that get an entry, in order, each with the name it is given. -/
def aliases (c : ModelCatalog) (installed : List String) : List (String × String) :=
  installed.foldl c.give []

theorem aliases_append (c : ModelCatalog) (installed : List String) (f : String) :
    c.aliases (installed ++ [f]) = c.give (c.aliases installed) f := by
  rw [aliases, List.foldl_append]
  rfl

theorem aliasOf_congr (c : ModelCatalog) {taken taken' : List String} (f : String)
    (h : ∀ n, n ∈ taken ↔ n ∈ taken') : c.aliasOf taken f = c.aliasOf taken' f := by
  simp only [aliasOf, h]

theorem dynamicOllamaModels_eq (c : ModelCatalog) (installed : List String) :
    c.dynamicOllamaModels installed =
      Dict.accumulate Prod.fst (fun _ given => c.ollamaEntry given.2) (c.aliases installed) := by
  induction installed using List.reverseRecOn with
  | nil => rfl
  | append_singleton installed f ih =>
    have hstep : c.dynamicOllamaModels (installed ++ [f]) =
        c.addInstalled (c.dynamicOllamaModels installed) f := by
      rw [dynamicOllamaModels, List.foldl_append]
      rfl
    rw [hstep, aliases_append, addInstalled, give, ih]
    by_cases hnamed : c.IsNamed f
    · rw [if_pos hnamed, if_pos hnamed]
    by_cases hemb : c.IsEmbedding f
    · rw [if_neg hnamed, if_neg hnamed, if_pos hemb, if_pos hemb]
    rw [if_neg hnamed, if_neg hnamed, if_neg hemb, if_neg hemb]
    have htaken : ∀ n, n ∈ (Dict.accumulate Prod.fst
        (fun (_ : Option ModelEntry) (given : String × String) => c.ollamaEntry given.2)
        (c.aliases installed)).keys ↔ n ∈ (c.aliases installed).map Prod.fst := by
      intro n
      rw [Dict.mem_keys_accumulate, List.mem_map]
    rw [c.aliasOf_congr f htaken]
    simp [Dict.accumulate]

theorem mem_aliases_iff (c : ModelCatalog) (installed : List String) (f : String) :
    (∃ n, (n, f) ∈ c.aliases installed) ↔
      f ∈ installed ∧ ¬ c.IsNamed f ∧ ¬ c.IsEmbedding f := by
  induction installed using List.reverseRecOn with
  | nil => simp [aliases]
  | append_singleton installed g ih =>
    rw [aliases_append, give, List.mem_append, List.mem_singleton]
    by_cases hnamed : c.IsNamed g
    · rw [if_pos hnamed, ih]
      grind
    by_cases hemb : c.IsEmbedding g
    · rw [if_neg hnamed, if_pos hemb, ih]
      grind
    rw [if_neg hnamed, if_neg hemb]
    simp only [List.mem_append, List.mem_singleton, Prod.mk.injEq, exists_or, ih]
    grind

theorem aliases_sublist (c : ModelCatalog) (installed : List String) :
    ((c.aliases installed).map Prod.snd).Sublist installed := by
  induction installed using List.reverseRecOn with
  | nil => exact List.Sublist.slnil
  | append_singleton installed g ih =>
    rw [aliases_append, give]
    split
    · exact ih.trans (List.sublist_append_left _ _)
    · split
      · exact ih.trans (List.sublist_append_left _ _)
      · rw [List.map_append]
        exact ih.append (List.Sublist.refl _)

theorem alias_unique {c : ModelCatalog} {installed : List String} (hdistinct : installed.Nodup)
    {n m f : String} (hn : (n, f) ∈ c.aliases installed) (hm : (m, f) ∈ c.aliases installed) : n = m :=
  congrArg Prod.fst
    (List.inj_on_of_nodup_map (hdistinct.sublist (c.aliases_sublist installed)) hn hm rfl)

theorem ollamaEntry_inj {c : ModelCatalog} {f g : String} (h : c.ollamaEntry f = c.ollamaEntry g) :
    f = g :=
  Option.some.inj (congrArg (fun entry => entry.config.model) h)

/-- The model is given the name, and no later one is. -/
def Keeps (c : ModelCatalog) (installed : List String) (n f : String) : Prop :=
  ((c.aliases installed).filter (·.1 = n)).getLast? = some (n, f)

theorem Keeps.mem {c : ModelCatalog} {installed : List String} {n f : String}
    (h : c.Keeps installed n f) : (n, f) ∈ c.aliases installed :=
  List.mem_of_mem_filter (List.mem_of_getLast? h)

theorem dynamic_eq_some_iff {c : ModelCatalog} {installed : List String} {n : String}
    {entry : ModelEntry} : (c.dynamicOllamaModels installed).get? n = some entry ↔
      ∃ f, c.Keeps installed n f ∧ entry = c.ollamaEntry f := by
  rw [dynamicOllamaModels_eq, Dict.get?_accumulate_replace Prod.fst fun given : String × String =>
    c.ollamaEntry given.2]
  rw [Option.map_eq_some_iff]
  constructor
  · intro h
    obtain ⟨given, hlast, hentry⟩ := h
    have hname : given.1 = n := by simpa using List.of_mem_filter (List.mem_of_getLast? hlast)
    exact ⟨given.2, by rw [Keeps, hlast, ← hname], hentry.symm⟩
  · intro h
    obtain ⟨f, hkeeps, hentry⟩ := h
    exact ⟨(n, f), hkeeps, hentry.symm⟩

theorem dynamic_eq_ollamaEntry_iff {c : ModelCatalog} {installed : List String} {n f : String} :
    (c.dynamicOllamaModels installed).get? n = some (c.ollamaEntry f) ↔ c.Keeps installed n f := by
  rw [dynamic_eq_some_iff]
  constructor
  · intro h
    obtain ⟨g, hkeeps, hentry⟩ := h
    exact ollamaEntry_inj hentry ▸ hkeeps
  · intro h
    exact ⟨f, h, rfl⟩

/-! ## Listing and lookup -/

theorem getAllModelsConfig_get? (c : ModelCatalog) (installed : List String) (n : String) :
    (c.getAllModelsConfig installed).get? n =
      ((c.dynamicOllamaModels installed).get? n).or (c.yaml.get? n) :=
  Dict.get?_update _ _ n

theorem getModelConfig_eq (c : ModelCatalog) (installed : List String) (n : String) :
    c.getModelConfig installed n = (c.yaml.get? n).or ((c.dynamicOllamaModels installed).get? n) := by
  unfold getModelConfig
  cases c.yaml.get? n <;> rfl

theorem listed_iff (c : ModelCatalog) (installed : List String) (n : String) :
    n ∈ (c.getAllModelsConfig installed).keys ↔ (c.getModelConfig installed n).isSome := by
  rw [Dict.mem_keys_iff, getAllModelsConfig_get?, getModelConfig_eq]
  cases c.yaml.get? n <;> cases (c.dynamicOllamaModels installed).get? n <;> rfl

structure ListingExact (c : ModelCatalog) (installed : List String) : Prop where
  agree : ∀ n ∈ (c.getAllModelsConfig installed).keys,
    (c.getAllModelsConfig installed).get? n = c.getModelConfig installed n
  unlisted : ∀ n, n ∉ (c.getAllModelsConfig installed).keys → c.getModelConfig installed n = none
  reachable : ∀ f ∈ installed, ¬ c.IsEmbedding f → ¬ c.IsNamed f →
    ∃! n, n ∈ (c.getAllModelsConfig installed).keys ∧
      c.getModelConfig installed n = some (c.ollamaEntry f)

/-- `models.yaml` itself holds under `n` the entry that the model would get, `dynamic_ollama`
included. -/
def IsTwin (c : ModelCatalog) (n f : String) : Prop := c.yaml.get? n = some (c.ollamaEntry f)

/-- The name is the model's own: `models.yaml` does not have it, and no later model is given it. A
model with a twin in `models.yaml` must have one only, and under this name unless it loses it. -/
def OwnName (c : ModelCatalog) (installed : List String) (n f : String) : Prop :=
  (n ∉ c.yaml.keys ∧ c.Keeps installed n f ∧ ∀ m, ¬ c.IsTwin m f) ∨
    ((∃! m, c.IsTwin m f) ∧ (c.Keeps installed n f → c.IsTwin n f))

theorem getModelConfig_eq_ollamaEntry_iff {c : ModelCatalog} {installed : List String} {n f : String} :
    c.getModelConfig installed n = some (c.ollamaEntry f) ↔
      c.IsTwin n f ∨ (n ∉ c.yaml.keys ∧ c.Keeps installed n f) := by
  rw [getModelConfig_eq, Option.or_eq_some_iff, dynamic_eq_ollamaEntry_iff, Dict.mem_keys_iff,
    Bool.not_eq_true, Option.isSome_eq_false_iff, Option.isNone_iff_eq_none]
  rfl

theorem IsTwin.named {c : ModelCatalog} {n f : String} (h : c.IsTwin n f) : n ∈ c.yaml.keys := by
  rw [Dict.mem_keys_iff, h]
  rfl

theorem ListingExact.ownName {c : ModelCatalog} {installed : List String} {n f : String}
    (h : c.ListingExact installed) (hdistinct : installed.Nodup)
    (halias : (n, f) ∈ c.aliases installed) : c.OwnName installed n f := by
  obtain ⟨hf, hnamed, hemb⟩ := (c.mem_aliases_iff installed f).mp ⟨n, halias⟩
  obtain ⟨m, ⟨-, hm⟩, hunique⟩ := h.reachable f hf hemb hnamed
  have hreach : ∀ k, c.getModelConfig installed k = some (c.ollamaEntry f) → k = m := by
    intro k hk
    exact hunique k ⟨(c.listed_iff installed k).mpr (by rw [hk]; rfl), hk⟩
  by_cases htwin : ∃ k, c.IsTwin k f
  · right
    have hown : ∀ k, c.IsTwin k f → k = m :=
      fun k hk => hreach k (getModelConfig_eq_ollamaEntry_iff.mpr (.inl hk))
    obtain ⟨k, hk⟩ := htwin
    refine ⟨⟨k, hk, fun j hj => (hown j hj).trans (hown k hk).symm⟩, ?_⟩
    intro hkeeps
    by_cases hyaml : n ∈ c.yaml.keys
    · -- the listing shows the model there, so the lookup does
      have hlisted : n ∈ (c.getAllModelsConfig installed).keys := by
        rw [listed_iff, getModelConfig_eq]
        rw [Dict.mem_keys_iff] at hyaml
        simp [hyaml]
      have hagree := h.agree n hlisted
      rw [getAllModelsConfig_get?, dynamic_eq_ollamaEntry_iff.mpr hkeeps, Option.some_or] at hagree
      rcases getModelConfig_eq_ollamaEntry_iff.mp hagree.symm with hn | ⟨hn, -⟩
      · exact hn
      · exact absurd hyaml hn
    · have hn : n = k := (hreach n (getModelConfig_eq_ollamaEntry_iff.mpr (.inr ⟨hyaml, hkeeps⟩))).trans
        (hown k hk).symm
      exact hn ▸ hk
  · left
    rcases getModelConfig_eq_ollamaEntry_iff.mp hm with hm | ⟨hyaml, hkeeps⟩
    · exact absurd ⟨m, hm⟩ htwin
    · obtain rfl := alias_unique hdistinct hkeeps.mem halias
      exact ⟨hyaml, hkeeps, fun k hk => htwin ⟨k, hk⟩⟩

theorem listingExact_of_ownNames {c : ModelCatalog} {installed : List String}
    (hdistinct : installed.Nodup) (h : ∀ given ∈ c.aliases installed, c.OwnName installed given.1 given.2) :
    c.ListingExact installed where
  agree := by
    intro n _
    rw [getAllModelsConfig_get?, getModelConfig_eq]
    cases hdynamic : (c.dynamicOllamaModels installed).get? n with
    | none => cases c.yaml.get? n <;> rfl
    | some entry =>
      obtain ⟨f, hkeeps, rfl⟩ := dynamic_eq_some_iff.mp hdynamic
      rcases h _ hkeeps.mem with ⟨hyaml, -, -⟩ | ⟨-, htwin⟩
      · have hnone : c.yaml.get? n = none := by
          simpa [Dict.mem_keys_iff] using hyaml
        rw [hnone, Option.or_none, Option.none_or]
      · rw [htwin hkeeps]
  unlisted := by
    intro n hn
    rw [listed_iff] at hn
    simpa using hn
  reachable := by
    intro f hf hemb hnamed
    obtain ⟨n, halias⟩ := (c.mem_aliases_iff installed f).mpr ⟨hf, hnamed, hemb⟩
    have hlisted : ∀ k, c.getModelConfig installed k = some (c.ollamaEntry f) →
        k ∈ (c.getAllModelsConfig installed).keys := by
      intro k hk
      rw [listed_iff, hk]
      rfl
    rcases h _ halias with ⟨hyaml, hkeeps, hno⟩ | ⟨⟨m, hm, hunique⟩, htwin⟩
    · have hreach := getModelConfig_eq_ollamaEntry_iff.mpr (.inr ⟨hyaml, hkeeps⟩)
      refine ⟨n, ⟨hlisted n hreach, hreach⟩, fun k hk => ?_⟩
      rcases getModelConfig_eq_ollamaEntry_iff.mp hk.2 with hk | ⟨-, hk⟩
      · exact absurd hk (hno k)
      · exact alias_unique hdistinct hk.mem halias
    · have hreach : c.getModelConfig installed m = some (c.ollamaEntry f) :=
        getModelConfig_eq_ollamaEntry_iff.mpr (.inl hm)
      refine ⟨m, ⟨hlisted m hreach, hreach⟩, fun k hk => ?_⟩
      rcases getModelConfig_eq_ollamaEntry_iff.mp hk.2 with hk | ⟨hyaml, hk⟩
      · exact hunique k hk
      · -- it keeps its name, which is then that of the twin
        obtain rfl := alias_unique hdistinct hk.mem halias
        exact absurd (htwin hk).named hyaml

/-! ### Names that are not shared -/

/-- Where the URL of Ollama can be told from others, no entry of `models.yaml` is a model's twin. -/
theorem not_isTwin {c : ModelCatalog} {installed : List String} {n m f : String}
    (hurl : isOllamaUrl (some c.ollamaBaseUrl) = true) (halias : (n, f) ∈ c.aliases installed) :
    ¬ c.IsTwin m f := by
  intro htwin
  have hnamed := ((c.mem_aliases_iff installed f).mp ⟨n, halias⟩).2.1
  apply hnamed
  left
  rw [IsTwin, Dict.get?_eq_some_iff] at htwin
  refine List.mem_map.mpr ⟨⟨m, (c.ollamaEntry f).config⟩, List.mem_filter.mpr ⟨?_, hurl⟩, rfl⟩
  exact List.mem_map.mpr ⟨(m, c.ollamaEntry f), htwin, rfl⟩

theorem keeps_iff_nodup {c : ModelCatalog} {installed : List String} (hdistinct : installed.Nodup) :
    (∀ given ∈ c.aliases installed, c.Keeps installed given.1 given.2) ↔
      ((c.aliases installed).map Prod.fst).Nodup := by
  have hlist : (c.aliases installed).Nodup :=
    List.Nodup.of_map Prod.snd (hdistinct.sublist (c.aliases_sublist installed))
  rw [List.nodup_map_iff_inj_on hlist]
  constructor
  · intro h given hgiven given' hgiven' hname
    have hlast := h given hgiven
    rw [Keeps, hname, h given' hgiven'] at hlast
    exact Prod.ext hname (congrArg Prod.snd (Option.some.inj hlast)).symm
  · intro h given hgiven
    have hmem : given ∈ (c.aliases installed).filter (·.1 = given.1) :=
      List.mem_filter.mpr ⟨hgiven, decide_eq_true rfl⟩
    cases hlast : ((c.aliases installed).filter (·.1 = given.1)).getLast? with
    | none =>
      rw [List.getLast?_eq_none_iff.mp hlast] at hmem
      cases hmem
    | some last =>
      have hin := List.mem_filter.mp (List.mem_of_getLast? hlast)
      rw [Keeps, hlast, h last hin.1 given hgiven (of_decide_eq_true hin.2)]

theorem listingExact_iff_names {c : ModelCatalog} {installed : List String}
    (hurl : isOllamaUrl (some c.ollamaBaseUrl) = true) (hdistinct : installed.Nodup) :
    c.ListingExact installed ↔ (∀ n ∈ (c.aliases installed).map Prod.fst, n ∉ c.yaml.keys) ∧
      ((c.aliases installed).map Prod.fst).Nodup := by
  rw [← keeps_iff_nodup hdistinct]
  constructor
  · intro h
    have hown : ∀ given ∈ c.aliases installed,
        given.1 ∉ c.yaml.keys ∧ c.Keeps installed given.1 given.2 := by
      intro given hgiven
      rcases h.ownName hdistinct hgiven with hown | hown
      · exact ⟨hown.1, hown.2.1⟩
      · obtain ⟨m, hm, -⟩ := hown.1
        exact absurd hm (not_isTwin hurl hgiven)
    refine ⟨fun n hn => ?_, fun given hgiven => (hown given hgiven).2⟩
    obtain ⟨given, hgiven, rfl⟩ := List.mem_map.mp hn
    exact (hown given hgiven).1
  · intro h
    refine listingExact_of_ownNames hdistinct fun given hgiven => .inl ⟨?_, ?_, ?_⟩
    · exact h.1 given.1 (List.mem_map_of_mem hgiven)
    · exact h.2 given hgiven
    · exact fun m => not_isTwin hurl hgiven

namespace ListingExample

/-- `models.yaml` names a model of another provider `qwen-7b`. -/
def catalog : ModelCatalog where
  yaml := Dict.empty.set "qwen-7b"
    ⟨⟨some "openai", some "qwen-7b-chat", some "https://api.example/v1", none, none, none⟩,
      some true, none, []⟩
  ollamaBaseUrl := "http://ollama:11434/v1"
  embeddingModel := "nomic-embed-text"

/-- No model is named in `models.yaml`. -/
def bare : ModelCatalog := { catalog with yaml := .empty }

end ListingExample

theorem modelListing_exact_iff (c : ModelCatalog) (installed : List String)
    (hdistinct : installed.Nodup) :
    c.ListingExact installed ↔
      ∀ given ∈ c.aliases installed, c.OwnName installed given.1 given.2 := by
  constructor
  · intro h given hgiven
    exact h.ownName hdistinct hgiven
  · exact listingExact_of_ownNames hdistinct

open ListingExample in
theorem modelListing_exact_qwen : bare.ListingExact ["qwen:4b", "qwen:7b"] := by
  refine (modelListing_exact_iff _ _ (by decide)).mpr fun given hgiven => .inl ?_
  have hcases : given = ("qwen", "qwen:4b") ∨ given = ("qwen-7b", "qwen:7b") := by
    have haliases : bare.aliases ["qwen:4b", "qwen:7b"] =
        [("qwen", "qwen:4b"), ("qwen-7b", "qwen:7b")] := by decide
    simpa [haliases] using hgiven
  have hno : ∀ m f, ¬ bare.IsTwin m f := fun m f htwin => by cases htwin
  rcases hcases with rfl | rfl
  · exact ⟨by decide, by unfold Keeps; decide, fun m => hno m _⟩
  · exact ⟨by decide, by unfold Keeps; decide, fun m => hno m _⟩

open ListingExample in
/-- The second model of a base name is given a name that `models.yaml` has, or another model has. -/
theorem listing_shadows :
    (catalog.getAllModelsConfig ["qwen:4b", "qwen:7b"]).get? "qwen-7b" =
      some (catalog.ollamaEntry "qwen:7b") ∧
    catalog.getModelConfig ["qwen:4b", "qwen:7b"] "qwen-7b" = catalog.yaml.get? "qwen-7b" ∧
    ¬ catalog.ListingExact ["qwen:4b", "qwen:7b"] ∧
    ¬ bare.ListingExact ["qwen-7b:latest", "qwen:4b", "qwen:7b"] := by
  refine ⟨by decide, by decide, ?_, ?_⟩
  · rw [listingExact_iff_names (by decide) (by decide)]
    decide
  · rw [listingExact_iff_names (by decide) (by decide)]
    decide

end ModelCatalog

end Lumogis
