import Mathlib.Data.List.AList
import Lumogis.Lib.Labelled
import Lumogis.Lib.Url

/-!
# Capabilities

The registry of capability services: `_fetch_one`, `_upsert`, `_evict_by_base_url` and the allowlist
of first-party services. A service declares its `id` itself; its origin is the base URL that it was
discovered at.
-/

namespace Lumogis

structure CapabilityTool where
  name : String
  isWrite : Bool
  /-- `invoke.path`. -/
  path : Option String

structure CapabilityManifest where
  id : String
  version : String
  capabilitiesEndpoint : String
  contractVersion : String
  minCoreVersion : String
  permissionsRequired : List String
  externalEndpoints : List String
  tools : List CapabilityTool

structure RegisteredService where
  manifest : CapabilityManifest
  baseUrl : String
  registeredAt : Nat
  healthy : Bool
  isCommunity : Bool
  externalEndpoints : List String

abbrev CapabilityServices := AList fun _ : String => RegisteredService

structure CapabilityEnv where
  strip : String → String
  lower : String → String
  /-- `str.split()`. -/
  split : String → List String
  /-- `CapabilityManifest.model_validate_json`; `none` for content that is refused. -/
  parseManifest : String → Option CapabilityManifest
  /-- `int(raw.split(".", 1)[0])`, with the check against the contract that Core speaks. -/
  contractMajor : String → Option Int
  /-- Core's version is at least this one; `none` if one cannot be parsed. -/
  coreAtLeast : String → Option Bool

/-! ## The allowlist -/

def normaliseBaseUrl (env : CapabilityEnv) (baseUrl : String) : String :=
  env.lower (String.ofList (Url.rstripSlash (env.strip baseUrl).toList))

/-- `id -> expected base_url`, from the lines of the file. -/
def loadFirstPartyCapabilities (env : CapabilityEnv) (lines : List String) :
    AList fun _ : String => String :=
  lines.foldl (fun mapping raw =>
    let line := env.strip raw
    if line = "" ∨ line.toList.head? = some '#' then mapping
    else
      match env.split line with
      | [capId, baseUrl] => mapping.insert capId (normaliseBaseUrl env baseUrl)
      | _ => mapping) ∅

def isCommunityCapability (env : CapabilityEnv) (capabilityId baseUrl : String)
    (firstParty : AList fun _ : String => String) : Bool :=
  match firstParty.lookup capabilityId with
  | none => true
  | some pinned => normaliseBaseUrl env baseUrl != pinned

/-! ## Manifests -/

def isIdStart (c : Char) : Bool :=
  "abcdefghijklmnopqrstuvwxyz0123456789".toList.contains c

def isIdChar (c : Char) : Bool := isIdStart c || c == '.' || c == '_' || c == '-'

/-- `[a-z0-9][a-z0-9._-]{0,42}`. -/
def isGrantableCapabilityId (capabilityId : String) : Bool :=
  match capabilityId.toList with
  | [] => false
  | c :: rest => isIdStart c && decide (rest.length ≤ 42) && rest.all isIdChar

def isScopeChar (c : Char) : Bool := isIdStart c || c == '_'

/-- `[a-z0-9_]+:[a-z0-9_]+`. -/
def isScope (s : String) : Bool :=
  let resource := s.toList.takeWhile isScopeChar
  match s.toList.dropWhile isScopeChar with
  | ':' :: action => !resource.isEmpty && !action.isEmpty && action.all isScopeChar
  | _ => false

def malformedRequiredScopes (env : CapabilityEnv) (m : CapabilityManifest) : List String :=
  (m.permissionsRequired.map env.strip).filter fun s => !isScope s

def isCompatible (env : CapabilityEnv) (m : CapabilityManifest) : Bool :=
  env.contractMajor (env.strip m.contractVersion) == some 1 && env.coreAtLeast m.minCoreVersion == some true

/-- The checks of a manifest that has been parsed. -/
def manifestAccepted (env : CapabilityEnv) (m : CapabilityManifest) : Bool :=
  env.strip m.capabilitiesEndpoint == "/capabilities" && isGrantableCapabilityId m.id &&
    (malformedRequiredScopes env m).isEmpty && isCompatible env m

/-! ## The registry -/

namespace CapabilityServices

def upsert (env : CapabilityEnv) (m : CapabilityManifest) (baseUrl : String) (isCommunity : Bool)
    (now : Nat) (services : CapabilityServices) : CapabilityServices :=
  match services.lookup m.id with
  | none => services.insert m.id
      { manifest := m, baseUrl := baseUrl, registeredAt := now, healthy := false
        isCommunity := isCommunity, externalEndpoints := m.externalEndpoints }
  | some existing =>
    if normaliseBaseUrl env existing.baseUrl ≠ normaliseBaseUrl env baseUrl ∧ isCommunity = true then
      services
    else services.insert m.id { existing with
      manifest := m, baseUrl := baseUrl, isCommunity := isCommunity
      externalEndpoints := m.externalEndpoints }

/-- The ids that were discovered at the base URL. -/
def victims (env : CapabilityEnv) (baseUrl : String) (services : CapabilityServices) : List String :=
  (services.entries.filter fun e =>
    normaliseBaseUrl env e.2.baseUrl == normaliseBaseUrl env baseUrl).map Sigma.fst

def evictByBaseUrl (env : CapabilityEnv) (baseUrl : String) (services : CapabilityServices) :
    CapabilityServices :=
  (services.victims env baseUrl).foldl (fun services sid => services.erase sid) services

end CapabilityServices

/-- What `GET {base_url}/capabilities` comes to. -/
inductive CapabilityResponse where
  | unreachable
  | answered (status : Nat) (content : String)
  deriving DecidableEq

/-- `_fetch_one`. -/
def fetchOne (env : CapabilityEnv) (firstParty : AList fun _ : String => String) (baseUrl : String)
    (now : Nat) (response : CapabilityResponse) (services : CapabilityServices) : CapabilityServices :=
  match response with
  | .unreachable => services
  | .answered status content =>
    if status ≠ 200 then services
    else
      match env.parseManifest content with
      | none => services.evictByBaseUrl env baseUrl
      | some m =>
        if manifestAccepted env m then
          services.upsert env m baseUrl (isCommunityCapability env m.id baseUrl firstParty) now
        else services.evictByBaseUrl env baseUrl

inductive CapabilityLabel where
  /-- Of the discovery's requests, one is done. -/
  | fetched (baseUrl : String) (now : Nat) (response : CapabilityResponse)
  /-- `check_health` of a registered service. -/
  | probed (id : String) (healthy : Bool)

/-- Only an absolute URL is answered. -/
def capabilityStep (env : CapabilityEnv) (firstParty : AList fun _ : String => String) :
    CapabilityLabel → CapabilityServices → Option CapabilityServices
  | .fetched baseUrl now response, services =>
    if response ≠ .unreachable ∧ (Url.origin baseUrl.toList).isNone = true then none
    else some (fetchOne env firstParty baseUrl now response services)
  | .probed id healthy, services =>
    match services.lookup id with
    | some svc => some (services.insert id { svc with healthy := healthy })
    | none => some services

/-! ## Lookups -/

namespace CapabilityServices

variable {env : CapabilityEnv} {services : CapabilityServices} {m : CapabilityManifest}
  {baseUrl id : String} {isCommunity : Bool} {now : Nat} {svc : RegisteredService}

theorem mem_victims : id ∈ services.victims env baseUrl ↔ ∃ svc, services.lookup id = some svc ∧
    normaliseBaseUrl env svc.baseUrl = normaliseBaseUrl env baseUrl := by
  constructor
  · intro h
    obtain ⟨e, he, rfl⟩ := List.mem_map.mp h
    obtain ⟨hmem, hsame⟩ := List.mem_filter.mp he
    exact ⟨e.2, AList.mem_lookup_iff.mpr hmem, by simpa using hsame⟩
  · rintro ⟨svc, hsvc, hsame⟩
    refine List.mem_map.mpr ⟨⟨id, svc⟩, List.mem_filter.mpr ⟨AList.mem_lookup_iff.mp hsvc, ?_⟩, rfl⟩
    simpa using hsame

theorem lookup_eraseAll {ids : List String} : (ids.foldl (fun s sid => AList.erase sid s) services).lookup id =
    if id ∈ ids then none else services.lookup id := by
  induction ids generalizing services with
  | nil => simp
  | cons sid ids ih =>
    rw [List.foldl_cons, ih]
    by_cases hid : id = sid
    · subst hid
      simp [AList.lookup_erase]
    · simp [hid, AList.lookup_erase_ne hid]

theorem lookup_evict : (services.evictByBaseUrl env baseUrl).lookup id =
    (services.lookup id).filter fun svc =>
      normaliseBaseUrl env svc.baseUrl != normaliseBaseUrl env baseUrl := by
  rw [evictByBaseUrl, lookup_eraseAll]
  cases h : services.lookup id with
  | none => simp
  | some svc =>
    by_cases hsame : normaliseBaseUrl env svc.baseUrl = normaliseBaseUrl env baseUrl
    · rw [if_pos (mem_victims.mpr ⟨svc, h, hsame⟩)]
      simp [Option.filter, hsame]
    · rw [if_neg]
      · simp [Option.filter, hsame]
      · rintro hv
        obtain ⟨svc', hsvc', hsame'⟩ := mem_victims.mp hv
        cases h.symm.trans hsvc'
        exact hsame hsame'

theorem lookup_upsert_ne (hid : id ≠ m.id) :
    (services.upsert env m baseUrl isCommunity now).lookup id = services.lookup id := by
  rw [upsert]
  split
  · exact AList.lookup_insert_ne hid
  · split
    · rfl
    · exact AList.lookup_insert_ne hid

/-- What an `_upsert` leaves under the manifest's id: the registration of another origin when the
response is a community one, else the response. -/
theorem lookup_upsert (env : CapabilityEnv) (m : CapabilityManifest) (baseUrl : String)
    (isCommunity : Bool) (now : Nat) (services : CapabilityServices) :
    ∃ svc, (services.upsert env m baseUrl isCommunity now).lookup m.id = some svc ∧
      (services.lookup m.id = some svc ∧ isCommunity = true ∧
        normaliseBaseUrl env svc.baseUrl ≠ normaliseBaseUrl env baseUrl ∨
      svc.manifest = m ∧ svc.baseUrl = baseUrl ∧ svc.isCommunity = isCommunity ∧
        (isCommunity = true → ∀ old, services.lookup m.id = some old →
          normaliseBaseUrl env old.baseUrl = normaliseBaseUrl env baseUrl)) := by
  rw [upsert]
  cases h : services.lookup m.id with
  | none => exact ⟨_, AList.lookup_insert _, .inr ⟨rfl, rfl, rfl, fun _ _ ho => by cases ho⟩⟩
  | some existing =>
    simp only
    split
    · rename_i hrefused
      exact ⟨existing, h, .inl ⟨rfl, hrefused.2, hrefused.1⟩⟩
    · rename_i hrefused
      refine ⟨_, AList.lookup_insert _, .inr ⟨rfl, rfl, rfl, fun hc old ho => ?_⟩⟩
      cases ho
      by_cases hsame : normaliseBaseUrl env existing.baseUrl = normaliseBaseUrl env baseUrl
      · exact hsame
      · exact absurd ⟨hsame, hc⟩ hrefused

end CapabilityServices

end Lumogis
