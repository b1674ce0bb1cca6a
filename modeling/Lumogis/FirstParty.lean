import Lumogis.Capabilities

/-!
# FirstParty

Trust in a capability service follows the origin that it was discovered at, whatever the services
answer and in whatever order: `first_party_trust`. A service counts as first-party if and only if the
allowlist pins its id to its origin (`Trusted`); and what one more response may do to the registry is
bounded by the origin of that response (`AfterResponse`).
-/

namespace Lumogis

open Labelled

section FirstParty

variable {env : CapabilityEnv} {firstParty : AList fun _ : String => String}
  {services services' : CapabilityServices} {baseUrl : String} {now : Nat}
  {response : CapabilityResponse}

/-- The allowlist pins the id to the origin of the base URL. -/
def Pinned (env : CapabilityEnv) (firstParty : AList fun _ : String => String) (id baseUrl : String) :
    Prop :=
  firstParty.lookup id = some (normaliseBaseUrl env baseUrl)

def SameOrigin (env : CapabilityEnv) (baseUrl baseUrl' : String) : Prop :=
  normaliseBaseUrl env baseUrl = normaliseBaseUrl env baseUrl'

/-- The response is an acceptable manifest. -/
def CapabilityResponse.Valid (env : CapabilityEnv) (response : CapabilityResponse)
    (m : CapabilityManifest) : Prop :=
  ∃ content, response = .answered 200 content ∧ env.parseManifest content = some m ∧
    manifestAccepted env m = true

/-- First-party services are the pinned ones. -/
def Trusted (env : CapabilityEnv) (firstParty : AList fun _ : String => String)
    (services : CapabilityServices) : Prop :=
  ∀ id svc, services.lookup id = some svc →
    (svc.isCommunity = false ↔ Pinned env firstParty id svc.baseUrl)

/-- What a response from `baseUrl` may have done. -/
structure AfterResponse (env : CapabilityEnv) (firstParty : AList fun _ : String => String)
    (services : CapabilityServices) (baseUrl : String) (response : CapabilityResponse)
    (services' : CapabilityServices) : Prop where
  /-- First-party services of other origins stay as they were registered. -/
  kept : ∀ id svc, services.lookup id = some svc → svc.isCommunity = false →
    ¬ SameOrigin env svc.baseUrl baseUrl → services'.lookup id = some svc
  /-- The service at its pinned origin gets its id. -/
  valid : ∀ m, response.Valid env m → Pinned env firstParty m.id baseUrl →
    ∃ svc, services'.lookup m.id = some svc ∧ svc.manifest = m ∧ svc.baseUrl = baseUrl ∧
      svc.isCommunity = false
  /-- An invalid response takes away services of its own origin only. -/
  invalid : (∀ m, ¬ response.Valid env m) → ∀ id svc, services.lookup id = some svc →
    ¬ SameOrigin env svc.baseUrl baseUrl → services'.lookup id = some svc

/-! ## What a run keeps -/

structure ServiceOk (env : CapabilityEnv) (firstParty : AList fun _ : String => String) (id : String)
    (svc : RegisteredService) : Prop where
  named : svc.manifest.id = id
  grantable : isGrantableCapabilityId id = true
  absolute : (Url.origin svc.baseUrl.toList).isSome = true
  trust : svc.isCommunity = isCommunityCapability env id svc.baseUrl firstParty

def RegistryInv (env : CapabilityEnv) (firstParty : AList fun _ : String => String)
    (services : CapabilityServices) : Prop :=
  ∀ id svc, services.lookup id = some svc → ServiceOk env firstParty id svc

theorem isCommunityCapability_iff {id : String} :
    isCommunityCapability env id baseUrl firstParty = false ↔ Pinned env firstParty id baseUrl := by
  rw [isCommunityCapability, Pinned]
  split
  · rename_i hnone
    simp [hnone]
  · rename_i pinned hpinned
    rw [hpinned, Option.some.injEq, bne_eq_false_iff_eq]
    exact eq_comm

theorem RegistryInv.trusted (h : RegistryInv env firstParty services) :
    Trusted env firstParty services := by
  intro id svc hsvc
  rw [(h id svc hsvc).trust]
  exact isCommunityCapability_iff

theorem RegistryInv.evict (h : RegistryInv env firstParty services) :
    RegistryInv env firstParty (services.evictByBaseUrl env baseUrl) := by
  intro id svc hsvc
  rw [CapabilityServices.lookup_evict] at hsvc
  exact h id svc (Option.eq_some_of_filter_eq_some hsvc)

theorem RegistryInv.upsert {m : CapabilityManifest} (h : RegistryInv env firstParty services)
    (hm : manifestAccepted env m = true) (habsolute : (Url.origin baseUrl.toList).isSome = true) :
    RegistryInv env firstParty (services.upsert env m baseUrl
      (isCommunityCapability env m.id baseUrl firstParty) now) := by
  intro id svc hsvc
  by_cases hid : id = m.id
  · subst hid
    obtain ⟨svc', hsvc', hcase⟩ := CapabilityServices.lookup_upsert env m baseUrl
      (isCommunityCapability env m.id baseUrl firstParty) now services
    cases hsvc.symm.trans hsvc'
    rcases hcase with ⟨hold, -⟩ | ⟨hmanifest, hbase, htrust, -⟩
    · exact h _ svc hold
    · simp only [manifestAccepted, Bool.and_eq_true] at hm
      exact ⟨by rw [hmanifest], hm.1.1.2, by rw [hbase]; exact habsolute, by rw [htrust, hbase]⟩
  · rw [CapabilityServices.lookup_upsert_ne hid] at hsvc
    exact h id svc hsvc

theorem RegistryInv.next {l : CapabilityLabel} (h : RegistryInv env firstParty services)
    (hs : capabilityStep env firstParty l services = some services') :
    RegistryInv env firstParty services' := by
  cases l with
  | fetched baseUrl now response =>
    simp only [capabilityStep] at hs
    split at hs
    · cases hs
    · rename_i habsolute
      cases hs
      cases response with
      | unreachable => exact h
      | answered status content =>
        simp only [fetchOne]
        split
        · exact h
        · split
          · exact h.evict
          · rename_i m _
            split
            · rename_i hm
              refine h.upsert hm ?_
              simpa [Option.isSome_iff_ne_none] using habsolute
            · exact h.evict
  | probed id healthy =>
    simp only [capabilityStep] at hs
    split at hs
    · rename_i svc hsvc
      cases hs
      intro id' svc' hlookup
      by_cases hid : id' = id
      · subst hid
        rw [AList.lookup_insert] at hlookup
        cases hlookup
        obtain ⟨hnamed, hgrantable, habsolute, htrust⟩ := h _ svc hsvc
        exact ⟨hnamed, hgrantable, habsolute, htrust⟩
      · rw [AList.lookup_insert_ne hid] at hlookup
        exact h id' svc' hlookup
    · cases hs
      exact h

/-! ## One more response -/

theorem evict_keeps {id : String} {svc : RegisteredService} (hsvc : services.lookup id = some svc)
    (hother : ¬ SameOrigin env svc.baseUrl baseUrl) :
    (services.evictByBaseUrl env baseUrl).lookup id = some svc := by
  rw [CapabilityServices.lookup_evict, hsvc]
  exact Option.filter_eq_some_iff.mpr ⟨rfl, by simpa [SameOrigin] using hother⟩

/-- An `_upsert` of another origin does not take the id of a first-party service. -/
theorem RegistryInv.upsert_keeps {m : CapabilityManifest} {id : String} {svc : RegisteredService}
    (h : RegistryInv env firstParty services) (hsvc : services.lookup id = some svc)
    (htrusted : svc.isCommunity = false) (hother : ¬ SameOrigin env svc.baseUrl baseUrl) :
    (services.upsert env m baseUrl (isCommunityCapability env m.id baseUrl firstParty) now).lookup id =
      some svc := by
  by_cases hid : id = m.id
  · subst hid
    obtain ⟨svc', hsvc', hcase⟩ := CapabilityServices.lookup_upsert env m baseUrl
      (isCommunityCapability env m.id baseUrl firstParty) now services
    rcases hcase with ⟨hold, -⟩ | ⟨-, -, -, hsame⟩
    · cases hsvc.symm.trans hold
      exact hsvc'
    · cases hcommunity : isCommunityCapability env m.id baseUrl firstParty with
      | true => exact absurd (hsame hcommunity svc hsvc) hother
      | false =>
        -- one id has one pinned origin
        have hpinned : Pinned env firstParty m.id baseUrl := isCommunityCapability_iff.mp hcommunity
        have hpinned' := (h.trusted m.id svc hsvc).mp htrusted
        exact absurd (Option.some.inj (hpinned'.symm.trans hpinned)) hother
  · rw [CapabilityServices.lookup_upsert_ne hid]
    exact hsvc

theorem RegistryInv.afterResponse (h : RegistryInv env firstParty services) : AfterResponse env firstParty
    services baseUrl response (fetchOne env firstParty baseUrl now response services) where
  kept id svc hsvc htrusted hother := by
    cases response with
    | unreachable => exact hsvc
    | answered status content =>
      simp only [fetchOne]
      split
      · exact hsvc
      · split
        · exact evict_keeps hsvc hother
        · split
          · exact h.upsert_keeps hsvc htrusted hother
          · exact evict_keeps hsvc hother
  valid m hvalid hpinned := by
    obtain ⟨content, rfl, hparsed, hm⟩ := hvalid
    have hcommunity := isCommunityCapability_iff.mpr hpinned
    simp only [fetchOne, ne_eq, not_true, if_false, hparsed, hm, if_true]
    obtain ⟨svc, hsvc, hcase⟩ := CapabilityServices.lookup_upsert env m baseUrl
      (isCommunityCapability env m.id baseUrl firstParty) now services
    rcases hcase with ⟨-, htrue, -⟩ | ⟨hmanifest, hbase, htrust, -⟩
    · rw [hcommunity] at htrue
      cases htrue
    · exact ⟨svc, hsvc, hmanifest, hbase, htrust.trans hcommunity⟩
  invalid hinvalid id svc hsvc hother := by
    cases response with
    | unreachable => exact hsvc
    | answered status content =>
      simp only [fetchOne]
      split
      · exact hsvc
      · rename_i hstatus
        split
        · exact evict_keeps hsvc hother
        · rename_i m hparsed
          split
          · rename_i hm
            simp only [ne_eq, not_not] at hstatus
            subst hstatus
            exact absurd ⟨content, rfl, hparsed, hm⟩ (hinvalid m)
          · exact evict_keeps hsvc hother

theorem registryInv_reaches (h : Reaches (capabilityStep env firstParty) (fun _ _ => True) ∅ services) :
    RegistryInv env firstParty services := by
  refine h.invariant (fun id svc hsvc => ?_) fun l s t hi _ hs => hi.next hs
  rw [AList.lookup_empty] at hsvc
  cases hsvc

/-- In every run of discoveries and health probes, the services that count as first-party are the
pinned ones, and a further response keeps to its origin. -/
theorem first_party_trust {lines : List String}
    (h : Reaches (capabilityStep env (loadFirstPartyCapabilities env lines)) (fun _ _ => True) ∅
      services) :
    Trusted env (loadFirstPartyCapabilities env lines) services ∧
      ∀ baseUrl now response services',
        capabilityStep env (loadFirstPartyCapabilities env lines) (.fetched baseUrl now response) services =
          some services' →
        AfterResponse env (loadFirstPartyCapabilities env lines) services baseUrl response services' := by
  have hinv := registryInv_reaches h
  refine ⟨hinv.trusted, fun baseUrl now response services' hs => ?_⟩
  simp only [capabilityStep] at hs
  split at hs
  · cases hs
  · cases hs
    exact hinv.afterResponse

end FirstParty

namespace FirstPartyExample

/-- The manifest of the graph service, in JSON. -/
def content : String :=
  String.join ["\x7b\"name\": \"Graph\", \"id\": \"lumogis-graph\", \"version\": \"1.0.0\", ",
    "\"type\": \"service\", \"transport\": \"http\", \"license_mode\": \"community\", ",
    "\"maturity\": \"stable\", \"description\": \"\", \"tools\": [], ",
    "\"health_endpoint\": \"/health\", \"capabilities_endpoint\": \"/capabilities\", ",
    "\"permissions_required\": [], \"config_schema\": \x7b\x7d, ",
    "\"min_core_version\": \"0.1.0\", \"maintainer\": \"lumogis\"\x7d"]

def manifest : CapabilityManifest :=
  { id := "lumogis-graph", version := "1.0.0", capabilitiesEndpoint := "/capabilities"
    contractVersion := "1.0", minCoreVersion := "0.1.0", permissionsRequired := []
    externalEndpoints := [], tools := [] }

/-- The texts here have no blanks at their ends and no upper-case letters. -/
def env : CapabilityEnv :=
  { strip := id, lower := id, split := fun _ => ["lumogis-graph", "http://lumogis-graph:8001"]
    parseManifest := fun json => if json = "" then none else some manifest
    contractMajor := fun _ => some 1, coreAtLeast := fun _ => some true }

def lines : List String := ["lumogis-graph http://lumogis-graph:8001"]

def firstParty : AList fun _ : String => String := loadFirstPartyCapabilities env lines

/-- A shadow answers first, the genuine service next, and then the shadow again. -/
def shadowed : List CapabilityLabel :=
  [.fetched "http://shadow:9000" 0 (.answered 200 content),
    .fetched "http://lumogis-graph:8001/" 1 (.answered 200 content),
    .fetched "http://shadow:9000" 2 (.answered 200 content)]

end FirstPartyExample

section Examples

open FirstPartyExample

theorem first_party_trust_shadowed :
    Trusted FirstPartyExample.env FirstPartyExample.firstParty
      (runTo (capabilityStep FirstPartyExample.env FirstPartyExample.firstParty) shadowed ∅) ∧
    ((runTo (capabilityStep FirstPartyExample.env FirstPartyExample.firstParty) shadowed ∅).lookup
      "lumogis-graph").map (fun svc => (svc.baseUrl, svc.isCommunity)) =
        some ("http://lumogis-graph:8001/", false) :=
  ⟨(first_party_trust (reaches_runTo (by decide +kernel) (by decide +kernel))).1, by decide +kernel⟩

end Examples

end Lumogis
