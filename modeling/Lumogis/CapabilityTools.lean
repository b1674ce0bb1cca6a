import Mathlib.Data.List.Sort
import Lumogis.FirstParty

/-!
# CapabilityTools

The tools of capability services in a chat request: the routes that are collected when the request
begins (`_collect_oop_eligible`), the dispatch of a tool call (`try_run_oop_capability_tool`), the
bearer of a service and the HTTP request that carries it.

A request that is sent keeps its bearer to the capability and to its origin if and only if no other
registered id differs from the capability's only in `.`, `-` and `_`, and the capability is still
registered at the origin that its route was made from (`bearer_confined`).
-/

namespace Lumogis

open Labelled

structure OopCapabilityToolRoute where
  baseUrl : List Char
  capabilityId : String
  toolName : String
  connector : String
  isWrite : Bool
  invokePath : String
  requiredScopes : List String
  isCommunity : Bool
  deriving DecidableEq

structure ToolEnv where
  strip : String → String
  getenv : List Char → Option String
  /-- The tools of Core itself. -/
  baseNames : List String
  /-- `contained_capabilities.txt`. -/
  containedIds : List String
  legacyOptIn : Bool
  /-- The user's permission for the connector and its grants of the scopes. -/
  permitted : (userId connector toolName : String) → (isWrite : Bool) → (scopes : List String) → Bool

/-! ## Bearers -/

/-- `_` for what is not alphanumeric. -/
def sanitiseChar (c : Char) : Char := if c.isAlphanum then c else '_'

/-- The environment variable of a service's bearer. -/
def bearerVariable (serviceId : String) : List Char :=
  "LUMOGIS_CAPABILITY_BEARER_".toList ++
    (serviceId.toList.map fun c => (sanitiseChar c).toUpper).take 120

def getCapabilityBearerForService (env : ToolEnv) (serviceId : String) : Option String :=
  if env.strip serviceId = "" then none
  else
    let v := env.strip ((env.getenv (bearerVariable serviceId)).getD "")
    if v = "" then none else some v

/-! ## Routes -/

/-- The declared `invoke.path`, or `/tools/{name}`. -/
def CapabilityTool.invokePath (t : CapabilityTool) : String :=
  match t.path with
  | some path => if path = "" then "/tools/" ++ t.name else path
  | none => "/tools/" ++ t.name

/-- First-party services come first. -/
def serviceBefore (a b : RegisteredService) : Prop :=
  a.isCommunity = false ∧ b.isCommunity = true ∨
    a.isCommunity = b.isCommunity ∧ a.manifest.id ≤ b.manifest.id

instance : DecidableRel serviceBefore := fun _ _ => inferInstanceAs (Decidable (_ ∨ _))

def toolBefore (a b : CapabilityTool) : Prop := a.name ≤ b.name

instance : DecidableRel toolBefore := fun _ _ => inferInstanceAs (Decidable (_ ≤ _))

abbrev ToolRoutes := List (String × OopCapabilityToolRoute)

def toolRoute (svc : RegisteredService) (ct : CapabilityTool) : OopCapabilityToolRoute :=
  { baseUrl := Url.rstripSlash svc.baseUrl.toList, capabilityId := svc.manifest.id
    toolName := ct.name, connector := "capability." ++ svc.manifest.id, isWrite := ct.isWrite
    invokePath := ct.invokePath, requiredScopes := svc.manifest.permissionsRequired
    isCommunity := svc.isCommunity }

/-- A name goes to the first tool that has it. -/
def addTool (env : ToolEnv) (svc : RegisteredService) (routes : ToolRoutes) (ct : CapabilityTool) :
    ToolRoutes :=
  if ct.name ∈ env.baseNames ∨ (routes.lookup ct.name).isSome then routes
  else routes ++ [(ct.name, toolRoute svc ct)]

def addService (env : ToolEnv) (routes : ToolRoutes) (svc : RegisteredService) : ToolRoutes :=
  if svc.healthy = false ∨ Url.rstripSlash svc.baseUrl.toList = [] then routes
  else
    match getCapabilityBearerForService env svc.manifest.id with
    | none => routes
    | some _ => (svc.manifest.tools.insertionSort toolBefore).foldl (addTool env svc) routes

/-- `_collect_oop_eligible`. -/
def collectOopEligible (env : ToolEnv) (services : CapabilityServices) : ToolRoutes :=
  ((services.entries.map Sigma.snd).insertionSort serviceBefore).foldl (addService env) []

/-! ## Dispatch -/

structure CapabilityRequest where
  capabilityId : String
  url : List Char
  /-- The variable that the bearer was read from, and the bearer. -/
  bearerFrom : List Char
  bearer : String
  userId : String
  deriving DecidableEq

inductive ToolOutcome where
  /-- Not a tool of a capability. -/
  | unknown
  | refusedCommunity
  | unavailable
  | denied
  | missingServiceAuth
  | invalidArguments
  | sent (request : CapabilityRequest)
  deriving DecidableEq

def isDispatchAllowed (env : ToolEnv) (isCommunity : Bool) (capabilityId : String) : Bool :=
  !isCommunity || env.containedIds.contains capabilityId || env.legacyOptIn

/-- The URL of `post_capability_tool_invocation`. -/
def toolUrl (baseUrl : List Char) (toolName invokePath : String) : List Char :=
  let path := if invokePath = "" then "/tools/".toList ++ toolName.toList.dropWhile (· == '/')
    else invokePath.toList
  Url.rstripSlash baseUrl ++ if path.head? = some '/' then path else '/' :: path

def postCapabilityToolInvocation (route : OopCapabilityToolRoute) (userId bearer : String) :
    ToolOutcome :=
  if userId = "" ∨ route.baseUrl = [] ∨ route.toolName = "" then .invalidArguments
  else if Url.rstripSlash route.baseUrl = [] then .invalidArguments
  else .sent { capabilityId := route.capabilityId
               url := toolUrl route.baseUrl route.toolName route.invokePath
               bearerFrom := bearerVariable route.capabilityId, bearer := bearer, userId := userId }

/-- `try_run_oop_capability_tool`, up to the request. -/
def tryRunOopCapabilityTool (env : ToolEnv) (services : CapabilityServices) (routes : ToolRoutes)
    (name userId : String) : ToolOutcome :=
  match routes.lookup name with
  | none => .unknown
  | some route =>
    if isDispatchAllowed env route.isCommunity route.capabilityId then
      match services.lookup route.capabilityId with
      | none => .unavailable
      | some svc =>
        if svc.healthy = false then .unavailable
        else if env.permitted userId route.connector route.toolName route.isWrite
            route.requiredScopes then
          match getCapabilityBearerForService env route.capabilityId with
          | some bearer => postCapabilityToolInvocation route userId bearer
          | none => .missingServiceAuth
        else .denied
    else .refusedCommunity

/-! ## The law and its condition -/

/-- Only this capability reads the bearer, and it goes to where the capability is registered. -/
structure CapabilityRequest.Confined (services : CapabilityServices) (r : CapabilityRequest) : Prop where
  bearer : ∀ id ∈ services, id ≠ r.capabilityId → bearerVariable id ≠ r.bearerFrom
  origin : ∀ svc ∈ services.lookup r.capabilityId, Url.origin r.url = Url.origin svc.baseUrl.toList

def foldChar (c : Char) : Char := if c = '.' ∨ c = '-' then '_' else c

/-- The two ids differ only in `.`, `-` and `_`. -/
def AlikeIds (id id' : String) : Prop := id.toList.map foldChar = id'.toList.map foldChar

instance (id id' : String) : Decidable (AlikeIds id id') := inferInstanceAs (Decidable (_ = _))

/-- See the head of the file. -/
structure Unambiguous (services : CapabilityServices) (route : OopCapabilityToolRoute) : Prop where
  ids : ∀ id ∈ services, id ≠ route.capabilityId → ¬ AlikeIds id route.capabilityId
  settled : ∀ svc ∈ services.lookup route.capabilityId,
    Url.origin svc.baseUrl.toList = Url.origin route.baseUrl

/-! ## Bearers of different ids -/

theorem map_eq_map_iff {f g : Char → Char} {p : Char → Bool}
    (hfg : ∀ c d, p c = true → p d = true → (f c = f d ↔ g c = g d)) {l l' : List Char}
    (hl : l.all p = true) (hl' : l'.all p = true) : l.map f = l'.map f ↔ l.map g = l'.map g := by
  induction l generalizing l' with
  | nil => cases l' <;> simp
  | cons c l ih =>
    cases l' with
    | nil => simp
    | cons d l' =>
      rw [List.all_cons, Bool.and_eq_true] at hl hl'
      simp only [List.map_cons, List.cons.injEq, hfg c d hl.1 hl'.1, ih hl.2 hl'.2]

def idChars : List Char := "abcdefghijklmnopqrstuvwxyz0123456789._-".toList

theorem mem_idChars {c : Char} (h : isIdChar c = true) : c ∈ idChars := by
  have hsplit : idChars = "abcdefghijklmnopqrstuvwxyz0123456789".toList ++ ['.', '_', '-'] := by
    decide +kernel
  simp only [isIdChar, isIdStart, Bool.or_eq_true, List.contains_iff_mem, beq_iff_eq] at h
  rw [hsplit, List.mem_append]
  rcases h with ((h | h) | h) | h
  · exact .inl h
  · simp [h]
  · simp [h]
  · simp [h]

/-- In an id, the sanitiser confuses `.`, `-` and `_`, and nothing else. -/
theorem sanitise_eq_iff {c d : Char} (hc : isIdChar c = true) (hd : isIdChar d = true) :
    (sanitiseChar c).toUpper = (sanitiseChar d).toUpper ↔ foldChar c = foldChar d := by
  have hall : (idChars.all fun c => ((sanitiseChar c).toUpper).toLower == foldChar c &&
      (sanitiseChar c).toUpper == (foldChar c).toUpper) = true := by decide +kernel
  simp only [List.all_eq_true, Bool.and_eq_true, beq_iff_eq] at hall
  obtain ⟨hfold, hsame⟩ := hall c (mem_idChars hc)
  obtain ⟨hfold', hsame'⟩ := hall d (mem_idChars hd)
  constructor
  · intro h
    rw [← hfold, ← hfold', h]
  · intro h
    rw [hsame, hsame', h]

theorem isGrantable_chars {id : String} (h : isGrantableCapabilityId id = true) :
    id.toList.all isIdChar = true ∧ id.toList.length ≤ 43 := by
  rw [isGrantableCapabilityId] at h
  split at h
  · cases h
  · rename_i c rest hlist
    simp only [Bool.and_eq_true, decide_eq_true_eq] at h
    obtain ⟨⟨hstart, hlength⟩, hrest⟩ := h
    rw [hlist]
    have hc : isIdChar c = true := by simp [isIdChar, hstart]
    refine ⟨by rw [List.all_cons, hc, hrest, Bool.and_self], ?_⟩
    simp only [List.length_cons]
    omega

theorem bearerVariable_eq {id : String} (h : id.toList.length ≤ 43) :
    bearerVariable id = "LUMOGIS_CAPABILITY_BEARER_".toList ++
      id.toList.map fun c => (sanitiseChar c).toUpper := by
  have hlength : (id.toList.map fun c => (sanitiseChar c).toUpper).length ≤ 120 := by
    rw [List.length_map]
    omega
  unfold bearerVariable
  rw [List.take_of_length_le hlength]

theorem bearerVariable_eq_iff {id id' : String} (h : isGrantableCapabilityId id = true)
    (h' : isGrantableCapabilityId id' = true) :
    bearerVariable id = bearerVariable id' ↔ AlikeIds id id' := by
  obtain ⟨hall, hlength⟩ := isGrantable_chars h
  obtain ⟨hall', hlength'⟩ := isGrantable_chars h'
  rw [bearerVariable_eq hlength, bearerVariable_eq hlength', List.append_cancel_left_eq, AlikeIds]
  exact map_eq_map_iff (fun c d hc hd => sanitise_eq_iff hc hd) hall hall'

/-! ## Routes and requests -/

section Requests

variable {env : ToolEnv} {services : CapabilityServices} {routes : ToolRoutes}
  {route : OopCapabilityToolRoute} {name userId : String} {r : CapabilityRequest}

/-- A route is that of a tool of a registered service. -/
def RouteOf (services : CapabilityServices) (route : OopCapabilityToolRoute) : Prop :=
  ∃ id svc ct, services.lookup id = some svc ∧ route = toolRoute svc ct

theorem addTool_lookup {svc : RegisteredService} {ct : CapabilityTool}
    (h : (addTool env svc routes ct).lookup name = some route) :
    routes.lookup name = some route ∨ route = toolRoute svc ct := by
  rw [addTool] at h
  split at h
  · exact .inl h
  · rw [List.lookup_append, Option.or_eq_some_iff] at h
    rcases h with h | ⟨-, h⟩
    · exact .inl h
    · refine .inr ?_
      rw [List.lookup_cons] at h
      split at h
      · cases h
        rfl
      · cases h

theorem addService_lookup {svc : RegisteredService}
    (h : (addService env routes svc).lookup name = some route) :
    routes.lookup name = some route ∨ ∃ ct, route = toolRoute svc ct := by
  rw [addService] at h
  split at h
  · exact .inl h
  · split at h
    · exact .inl h
    · revert h
      generalize svc.manifest.tools.insertionSort toolBefore = tools
      induction tools generalizing routes with
      | nil => exact fun h => .inl h
      | cons ct tools ih =>
        intro h
        rcases ih h with h | h
        · rcases addTool_lookup h with h | h
          · exact .inl h
          · exact .inr ⟨ct, h⟩
        · exact .inr h

theorem collect_routeOf (h : (collectOopEligible env services).lookup name = some route) :
    RouteOf services route := by
  have hall : ∀ (svcs : List RegisteredService) (routes : ToolRoutes),
      (svcs.foldl (addService env) routes).lookup name = some route →
        routes.lookup name = some route ∨ ∃ svc ∈ svcs, ∃ ct, route = toolRoute svc ct := by
    intro svcs
    induction svcs with
    | nil => exact fun routes h => .inl h
    | cons svc svcs ih =>
      intro routes h
      rcases ih _ h with h | ⟨svc', hmem, ct, hroute⟩
      · rcases addService_lookup h with h | ⟨ct, hroute⟩
        · exact .inl h
        · exact .inr ⟨svc, by simp, ct, hroute⟩
      · exact .inr ⟨svc', by simp [hmem], ct, hroute⟩
  rcases hall _ _ h with h | ⟨svc, hmem, ct, hroute⟩
  · cases h
  · rw [List.mem_insertionSort] at hmem
    obtain ⟨e, he, rfl⟩ := List.mem_map.mp hmem
    exact ⟨e.1, e.2, ct, AList.mem_lookup_iff.mpr he, hroute⟩

theorem sent_eq (h : tryRunOopCapabilityTool env services routes name userId = .sent r) :
    ∃ route svc, routes.lookup name = some route ∧ services.lookup route.capabilityId = some svc ∧
      r.capabilityId = route.capabilityId ∧ r.bearerFrom = bearerVariable route.capabilityId ∧
        r.url = toolUrl route.baseUrl route.toolName route.invokePath := by
  rw [tryRunOopCapabilityTool] at h
  split at h
  · cases h
  · rename_i route hroute
    split at h
    · split at h
      · cases h
      · rename_i svc hsvc
        split at h
        · cases h
        · split at h
          · split at h
            · rw [postCapabilityToolInvocation] at h
              split at h
              · cases h
              · split at h
                · cases h
                · cases h
                  exact ⟨route, svc, hroute, hsvc, rfl, rfl, rfl⟩
            · cases h
          · cases h
    · cases h

theorem origin_toolUrl {baseUrl : List Char} {toolName invokePath : String}
    {o : List Char × List Char} (h : Url.origin baseUrl = some o) :
    Url.origin (toolUrl baseUrl toolName invokePath) = some o := by
  rw [toolUrl]
  refine Url.origin_rstripSlash_append h ?_
  generalize (if invokePath = "" then "/tools/".toList ++ toolName.toList.dropWhile (· == '/')
    else invokePath.toList) = path
  split
  · rename_i hslash
    cases path with
    | nil => cases hslash
    | cons c path =>
      cases hslash
      rfl
  · rfl

/-- A request that is sent is confined exactly when its route is unambiguous. -/
theorem bearer_confined {cenv : CapabilityEnv} {lines : List String} {env' : ToolEnv}
    {before : CapabilityServices}
    (hbefore : Reaches (capabilityStep cenv (loadFirstPartyCapabilities cenv lines)) (fun _ _ => True)
      ∅ before)
    (hafter : Reaches (capabilityStep cenv (loadFirstPartyCapabilities cenv lines)) (fun _ _ => True)
      before services)
    (hroute : (collectOopEligible env before).lookup name = some route)
    (hsent : tryRunOopCapabilityTool env' services (collectOopEligible env before) name userId =
      .sent r) :
    r.Confined services ↔ Unambiguous services route := by
  have hinv := registryInv_reaches hbefore
  have hinv' := registryInv_reaches (hbefore.trans hafter)
  obtain ⟨route', svc, hroute', hsvc, hid, hfrom, hurl⟩ := sent_eq hsent
  cases hroute.symm.trans hroute'
  obtain ⟨id, old, ct, hold, rfl⟩ := collect_routeOf hroute
  have hbase : ∃ o, Url.origin (toolRoute old ct).baseUrl = some o := by
    obtain ⟨o, ho⟩ := Option.isSome_iff_exists.mp (hinv id old hold).absolute
    exact ⟨o, Url.origin_rstripSlash ho⟩
  obtain ⟨o, ho⟩ := hbase
  have horigin : Url.origin r.url = Url.origin (toolRoute old ct).baseUrl := by
    rw [hurl, origin_toolUrl ho, ho]
  have hgrantable : isGrantableCapabilityId (toolRoute old ct).capabilityId = true :=
    (hinv' _ svc hsvc).grantable
  have halike {id' : String} (hid' : id' ∈ services) :
      bearerVariable id' = r.bearerFrom ↔ AlikeIds id' (toolRoute old ct).capabilityId := by
    obtain ⟨svc', hsvc'⟩ := Option.isSome_iff_exists.mp (AList.lookup_isSome.mpr hid')
    rw [hfrom]
    exact bearerVariable_eq_iff (hinv' _ svc' hsvc').grantable hgrantable
  constructor
  · intro h
    refine ⟨fun id' hid' hne => ?_, fun svc' hsvc' => ?_⟩
    · exact fun ha => h.bearer id' hid' (hid ▸ hne) ((halike hid').mpr ha)
    · rw [← horigin]
      exact (h.origin svc' (hid ▸ hsvc')).symm
  · intro h
    refine ⟨fun id' hid' hne => ?_, fun svc' hsvc' => ?_⟩
    · exact fun he => h.ids id' hid' (hid ▸ hne) ((halike hid').mp he)
    · rw [horigin]
      exact (h.settled svc' (hid ▸ hsvc')).symm

end Requests

namespace BearerExample

def tool (name : String) : CapabilityTool := { name := name, isWrite := false, path := none }

def manifest (id name : String) : CapabilityManifest :=
  { id := id, version := "1.0.0", capabilitiesEndpoint := "/capabilities", contractVersion := "1.0"
    minCoreVersion := "0.1.0", permissionsRequired := [], externalEndpoints := []
    tools := [tool name] }

/-- A response is written as the id that it declares. -/
def cenv : CapabilityEnv :=
  { strip := id, lower := id, split := fun _ => []
    parseManifest := fun content => some (manifest content (content ++ "-search"))
    contractMajor := fun _ => some 1, coreAtLeast := fun _ => some true }

/-- One bearer is configured. -/
def env : ToolEnv :=
  { strip := id
    getenv := fun v =>
      if v = "LUMOGIS_CAPABILITY_BEARER_ACME_MAIL".toList then some "mail-token" else none
    baseNames := ["search_files"], containedIds := ["acme.mail", "acme-mail"], legacyOptIn := false
    permitted := fun _ _ _ _ _ => true }

def discovered (id baseUrl : String) : List CapabilityLabel :=
  [.fetched baseUrl 0 (.answered 200 id), .probed id true]

abbrev step : CapabilityLabel → CapabilityServices → Option CapabilityServices :=
  capabilityStep cenv (loadFirstPartyCapabilities cenv [])

def alone : CapabilityServices := runTo step (discovered "acme.mail" "http://mail:9000") ∅

/-- Of the two, the bearer was meant for one. -/
def alike : CapabilityServices :=
  runTo step (discovered "acme.mail" "http://mail:9000" ++ discovered "acme-mail" "http://other:9001") ∅

/-- The route of the only tool that `alone` has. -/
def route : OopCapabilityToolRoute :=
  { baseUrl := "http://mail:9000".toList, capabilityId := "acme.mail", toolName := "acme.mail-search"
    connector := "capability.acme.mail", isWrite := false, invokePath := "/tools/acme.mail-search"
    requiredScopes := [], isCommunity := true }

def request (id baseUrl : String) : CapabilityRequest :=
  { capabilityId := id, url := (baseUrl ++ "/tools/" ++ id ++ "-search").toList
    bearerFrom := "LUMOGIS_CAPABILITY_BEARER_ACME_MAIL".toList, bearer := "mail-token"
    userId := "alice" }

end BearerExample

section Examples

open BearerExample

theorem bearer_confined_alone :
    tryRunOopCapabilityTool BearerExample.env alone (collectOopEligible BearerExample.env alone)
        "acme.mail-search" "alice" = .sent (request "acme.mail" "http://mail:9000") ∧
      (request "acme.mail" "http://mail:9000").Confined alone := by
  have hreach : Reaches BearerExample.step (fun _ _ => True) ∅
      (runTo BearerExample.step (discovered "acme.mail" "http://mail:9000") ∅) :=
    reaches_runTo (by decide +kernel) (by decide +kernel)
  have hroute : (collectOopEligible BearerExample.env alone).lookup "acme.mail-search" =
      some BearerExample.route := by decide +kernel
  have hsent : tryRunOopCapabilityTool BearerExample.env alone
      (collectOopEligible BearerExample.env alone) "acme.mail-search" "alice" =
        .sent (request "acme.mail" "http://mail:9000") := by decide +kernel
  have hids : ∀ id ∈ alone.keys, id ≠ BearerExample.route.capabilityId →
      ¬ AlikeIds id BearerExample.route.capabilityId := by decide +kernel
  have hsettled : ∀ svc ∈ alone.lookup BearerExample.route.capabilityId,
      Url.origin svc.baseUrl.toList = Url.origin BearerExample.route.baseUrl := by decide +kernel
  exact ⟨hsent, (bearer_confined hreach .start hroute hsent).mpr ⟨hids, hsettled⟩⟩

/-- Both services read the one bearer. -/
theorem alike_ids_share_bearer :
    Reaches BearerExample.step (fun _ _ => True) ∅ alike ∧
      tryRunOopCapabilityTool BearerExample.env alike (collectOopEligible BearerExample.env alike)
          "acme-mail-search" "alice" = .sent (request "acme-mail" "http://other:9001") ∧
        ¬ (request "acme-mail" "http://other:9001").Confined alike := by
  have hreach : Reaches BearerExample.step (fun _ _ => True) ∅
      (runTo BearerExample.step (discovered "acme.mail" "http://mail:9000" ++
        discovered "acme-mail" "http://other:9001") ∅) :=
    reaches_runTo (by decide +kernel) (by decide +kernel)
  have hmem : "acme.mail" ∈ alike.keys := by decide +kernel
  have hsame : bearerVariable "acme.mail" = (request "acme-mail" "http://other:9001").bearerFrom := by
    decide +kernel
  refine ⟨hreach, by decide +kernel, fun h => ?_⟩
  exact h.bearer "acme.mail" hmem (by decide) hsame

end Examples

end Lumogis
