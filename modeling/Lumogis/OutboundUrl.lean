import Lumogis.Permissions
import Lumogis.Lib.IpAddress

/-!
# Lumogis.OutboundUrl

`services/outbound_http_url.py`: the check of a connector's base URL. The host is tried as an IP literal;
what the policy says against the literal is raised as the same exception as a failed parse, and is lost:
the literal goes on to the resolver like a name. `validate_guards` says exactly when the check does what
the policy says.
-/

namespace Lumogis

open Ip

structure ParsedUrl where
  username : Option String
  password : Option String
  scheme : String
  hostname : Option String

/-- The process, and the parsers of the standard library. -/
structure OutboundEnv where
  getenv : String → Option String
  /-- `str.lower`. -/
  lower : String → String
  /-- `urlparse`, with the message if it raises. -/
  urlparse : String → Except String ParsedUrl
  /-- `ipaddress.ip_address`; `none` if it raises. -/
  ipAddress : String → Option Address
  /-- `host.encode("idna").decode("ascii")`; `none` if it raises. -/
  idna : String → Option String
  rule : MappedRule

inductive OutboundErr where
  | valueError (message : String)
  | attributeError
  deriving DecidableEq

/-! ## Settings -/

def truthyEnv (env : OutboundEnv) (name default : String) : Bool :=
  ["1", "true", "yes", "on"].contains (env.lower (Permissions.strip ((env.getenv name).getD default)))

/-- `_private_host_allowlist`. -/
def privateHostAllowlist (env : OutboundEnv) : List String :=
  let raw := Permissions.strip ((env.getenv "LUMOGIS_OUTBOUND_PRIVATE_HOST_ALLOWLIST").getD "")
  let parts := (raw.toList.splitOnP fun c => Permissions.isPySpace c || c == ',').map String.ofList
  (parts.filter fun p => p != "").map env.lower

def allowPrivate (env : OutboundEnv) : Bool := truthyEnv env "LUMOGIS_ALLOW_PRIVATE_OUTBOUND_URLS" "true"

/-! ## The policy -/

def privateHostMessage : String :=
  "host resolves to a private/loopback address but LUMOGIS_ALLOW_PRIVATE_OUTBOUND_URLS is false and hostname " ++
    "is not in LUMOGIS_OUTBOUND_PRIVATE_HOST_ALLOWLIST"

/-- The last part of `_ip_policy_violation`. -/
def privateViolation (env : OutboundEnv) (hostname : String) (isPrivate : Bool) : Option String :=
  if isPrivate then
    if allowPrivate env then none
    else if (privateHostAllowlist env).contains (env.lower hostname) then none
    else some privateHostMessage
  else none

/-- `ip.is_unique_local`: addresses of version 6 have no such attribute. -/
def isUniqueLocal (_ : V6) : Except OutboundErr Bool := .error .attributeError

/-- `_ip_policy_violation`. -/
def ipPolicyViolation (env : OutboundEnv) (hostname : String) : Address → Except OutboundErr (Option String)
  | .v4 a =>
    if isLinkLocal4 a then .ok (some "IPv4 link-local 169.254.0.0/16 is always blocked (metadata risk)")
    else .ok (privateViolation env hostname (isLoopback4 a || (isPrivate4 a || isReserved4 a)))
  | .v6 a =>
    if isLinkLocal6 env.rule a then .ok (some "IPv6 link-local addresses are always blocked")
    else do
      let isPriv ← if isPrivate6 a then .ok true else isUniqueLocal a
      return privateViolation env hostname (isLoopback6 env.rule a || isPriv)

/-! ## The check -/

def isTruthy (o : Option String) : Bool := o.any fun s => s != ""

/-- The host of a URL of the right shape. -/
def outboundHost (env : OutboundEnv) (url : String) : Except OutboundErr String :=
  if Permissions.strip url = "" then .error (.valueError "URL must be a non-empty string")
  else if Permissions.strip url ≠ url then .error (.valueError "URL must not have leading or trailing whitespace")
  else
    match env.urlparse url with
    | .error message => .error (.valueError message)
    | .ok parsed =>
      if isTruthy parsed.username || isTruthy parsed.password then
        .error (.valueError "URL must not embed credentials in the authority (use sealed credentials)")
      else if !(["http", "https"].contains (env.lower parsed.scheme)) then
        .error (.valueError "URL must use http or https scheme")
      else if Permissions.strip (parsed.hostname.getD "") = "" then
        .error (.valueError "URL must include a non-empty host")
      else .ok (Permissions.strip (parsed.hostname.getD ""))

/-- One address, as it is written. -/
def checkAddress (env : OutboundEnv) (host address : String) : Except OutboundErr Unit :=
  match env.ipAddress address with
  | none => .error (.valueError "does not appear to be an IPv4 or IPv6 address")
  | some addr => do
    match ← ipPolicyViolation env host addr with
    | some message => .error (.valueError message)
    | none => return ()

def checkAddresses (env : OutboundEnv) (host : String) : List String → Except OutboundErr Unit
  | [] => return ()
  | address :: rest => do
    checkAddress env host address
    checkAddresses env host rest

/-- The host as a name; the resolver answers `none` where it raises `OSError`. -/
def checkName (env : OutboundEnv) (resolver : String → Option (List String)) (host : String) : Except OutboundErr Unit :=
  match env.idna host with
  | none => .error (.valueError "URL hostname is not a valid IDNA hostname")
  | some idnaHost =>
    match resolver idnaHost with
    | none => return ()
    | some ips => checkAddresses env host ips

/-- `except ValueError: pass` is meant for a host that is no literal. -/
def checkHost (env : OutboundEnv) (resolver : String → Option (List String)) (host : String) : Except OutboundErr Unit :=
  match checkAddress env host host with
  | .error (.valueError _) => checkName env resolver host
  | other => other

def validateOutboundConnectorBaseUrl (env : OutboundEnv) (resolver : String → Option (List String)) (url : String) :
    Except OutboundErr Unit := do
  let host ← outboundHost env url
  checkHost env resolver host

section Guard

variable (env : OutboundEnv) (resolver : String → Option (List String))

/-- The policy gives a reason against the address. -/
def Violates (host : String) (addr : Address) : Prop := ∃ message, ipPolicyViolation env host addr = .ok (some message)

def Allows (host : String) (addr : Address) : Prop := ipPolicyViolation env host addr = .ok none

/-- The name has no IDNA form, or it is resolved to something that is no address which the policy allows. -/
def Refuses (host : String) : Prop :=
  env.idna host = none ∨ ∃ idnaHost ips, env.idna host = some idnaHost ∧ resolver idnaHost = some ips ∧
    ∃ s ∈ ips, ∀ addr, env.ipAddress s = some addr → ¬ Allows env host addr

/-- What the check guarantees of a URL that it accepts, and of one with a literal host. -/
structure Guards (url : String) : Prop where
  literal : ∀ host addr, outboundHost env url = .ok host → env.ipAddress host = some addr →
    validateOutboundConnectorBaseUrl env resolver url = .ok () → ¬ Violates env host addr ∧ ¬ LinkLocal addr
  resolved : ∀ host idnaHost ips, outboundHost env url = .ok host → env.ipAddress host = none →
    env.idna host = some idnaHost → resolver idnaHost = some ips →
    validateOutboundConnectorBaseUrl env resolver url = .ok () →
    ∀ s ∈ ips, ∀ addr, env.ipAddress s = some addr → ¬ Violates env host addr ∧ ¬ LinkLocal addr
  exact : ∀ host addr, outboundHost env url = .ok host → env.ipAddress host = some addr →
    (validateOutboundConnectorBaseUrl env resolver url = .ok () ↔ ¬ Violates env host addr)

/-- A literal that the policy allows, or against which the resolver stands in; and no address that hides
a link-local one. -/
structure Sheltered (host : String) : Prop where
  literal : ∀ addr, env.ipAddress host = some addr →
    (Allows env host addr ∧ ¬ Unseen env.rule addr) ∨ (Violates env host addr ∧ Refuses env resolver host)
  resolved : env.ipAddress host = none → Refuses env resolver host ∨
    ∀ idnaHost ips, env.idna host = some idnaHost → resolver idnaHost = some ips →
      ∀ s ∈ ips, ∀ addr, env.ipAddress s = some addr → ¬ Unseen env.rule addr

variable {env resolver}

theorem Allows.not_violates {host : String} {addr : Address} (h : Allows env host addr) : ¬ Violates env host addr := by
  rintro ⟨message, hmessage⟩
  rw [Allows, hmessage] at h
  cases h

theorem allows_or_violates (env : OutboundEnv) (host : String) (addr : Address) :
    Allows env host addr ∨ Violates env host addr ∨ ipPolicyViolation env host addr = .error .attributeError := by
  have hok : ∀ violation, ipPolicyViolation env host addr = .ok violation →
      Allows env host addr ∨ Violates env host addr := by
    intro violation h
    cases violation with
    | none => exact Or.inl h
    | some message => exact Or.inr ⟨message, h⟩
  cases addr with
  | v4 a =>
    have hpolicy : ∃ violation, ipPolicyViolation env host (.v4 a) = .ok violation := by
      rw [ipPolicyViolation]
      split
      · exact ⟨_, rfl⟩
      · exact ⟨_, rfl⟩
    obtain ⟨violation, hviolation⟩ := hpolicy
    exact (hok violation hviolation).imp id Or.inl
  | v6 a =>
    cases hpolicy : ipPolicyViolation env host (.v6 a) with
    | ok violation => exact (hok violation hpolicy).imp id Or.inl
    | error e =>
      cases e with
      | attributeError => exact Or.inr (Or.inr rfl)
      | valueError message =>
        rw [ipPolicyViolation] at hpolicy
        split at hpolicy
        · cases hpolicy
        · split at hpolicy
          · cases hpolicy
          · cases hpolicy

theorem Allows.linkLocal_iff {host : String} {addr : Address} (h : Allows env host addr) :
    LinkLocal addr ↔ Unseen env.rule addr := by
  cases addr with
  | v4 a =>
    have hseen : ¬ LinkLocal (.v4 a) := by
      intro hlink
      simp only [LinkLocal] at hlink
      rw [Allows, ipPolicyViolation, if_pos hlink] at h
      cases h
    have hunseen : ¬ Unseen env.rule (.v4 a) := by
      rintro ⟨-, b, m, hb, -⟩
      cases hb
    exact iff_of_false hseen hunseen
  | v6 a =>
    apply linkLocal_v6_iff
    cases hlink : isLinkLocal6 env.rule a with
    | false => rfl
    | true =>
      rw [Allows, ipPolicyViolation, if_pos hlink] at h
      cases h

theorem checkAddress_ok {host address : String} : checkAddress env host address = .ok () ↔
    ∃ addr, env.ipAddress address = some addr ∧ Allows env host addr := by
  rw [checkAddress]
  cases haddr : env.ipAddress address with
  | none => simp
  | some addr =>
    simp only [Option.some.injEq, exists_eq_left', Allows]
    cases hpolicy : ipPolicyViolation env host addr with
    | error e => simp [bind, Except.bind]
    | ok violation =>
      cases violation with
      | none => simp [bind, Except.bind, pure, Except.pure]
      | some message => simp [bind, Except.bind]

theorem checkAddresses_ok {host : String} {ips : List String} :
    checkAddresses env host ips = .ok () ↔ ∀ s ∈ ips, checkAddress env host s = .ok () := by
  induction ips with
  | nil => simp [checkAddresses, pure, Except.pure]
  | cons s ips ih =>
    rw [checkAddresses, List.forall_mem_cons, ← ih]
    cases checkAddress env host s with
    | error e => simp [bind, Except.bind]
    | ok u => simp [bind, Except.bind]

theorem checkName_ok {host : String} : checkName env resolver host = .ok () ↔ ¬ Refuses env resolver host := by
  rw [checkName]
  cases hidna : env.idna host with
  | none => simp [Refuses, hidna]
  | some idnaHost =>
    cases hresolver : resolver idnaHost with
    | none => simp [Refuses, hidna, hresolver, pure, Except.pure]
    | some ips =>
      simp only [Refuses, hidna, hresolver, checkAddresses_ok, checkAddress_ok]
      constructor
      · rintro hall (h | ⟨idnaHost', ips', hidna', hips, s, hs, hno⟩)
        · cases h
        · cases hidna'
          rw [hresolver] at hips
          cases hips
          obtain ⟨addr, haddr, hallows⟩ := hall s hs
          exact hno addr haddr hallows
      · intro hno s hs
        by_contra hnone
        refine hno (Or.inr ⟨idnaHost, ips, rfl, hresolver, s, hs, ?_⟩)
        intro addr haddr hallows
        exact hnone ⟨addr, haddr, hallows⟩

theorem validate_host {url host : String} (h : outboundHost env url = .ok host) :
    validateOutboundConnectorBaseUrl env resolver url = checkHost env resolver host := by
  rw [validateOutboundConnectorBaseUrl, h]
  rfl

theorem validate_literal (resolver : String → Option (List String)) {url host : String} {addr : Address} (h : outboundHost env url = .ok host)
    (haddr : env.ipAddress host = some addr) : validateOutboundConnectorBaseUrl env resolver url = .ok () ↔
      Allows env host addr ∨ (Violates env host addr ∧ ¬ Refuses env resolver host) := by
  rw [validate_host h, ← checkName_ok]
  rcases allows_or_violates env host addr with hallows | hviolates | herror
  · have hcheck : checkAddress env host host = .ok () := checkAddress_ok.mpr ⟨addr, haddr, hallows⟩
    simp [checkHost, hcheck, hallows]
  · have hnot : ¬ Allows env host addr := fun hallows => hallows.not_violates hviolates
    obtain ⟨message, hmessage⟩ := id hviolates
    have hcheck : checkAddress env host host = .error (.valueError message) := by
      simp [checkAddress, haddr, hmessage, bind, Except.bind]
    simp [checkHost, hcheck, hnot, hviolates]
  · have hcheck : checkAddress env host host = .error .attributeError := by
      simp [checkAddress, haddr, herror, bind, Except.bind]
    simp [checkHost, hcheck, Allows, Violates, herror]

theorem validate_name {url host : String} (h : outboundHost env url = .ok host) (haddr : env.ipAddress host = none) :
    validateOutboundConnectorBaseUrl env resolver url = .ok () ↔ ¬ Refuses env resolver host := by
  rw [validate_host h, ← checkName_ok]
  simp [checkHost, checkAddress, haddr]

theorem allows_of_not_refuses {host idnaHost s : String} {ips : List String} {addr : Address}
    (h : ¬ Refuses env resolver host) (hidna : env.idna host = some idnaHost) (hips : resolver idnaHost = some ips)
    (hs : s ∈ ips) (haddr : env.ipAddress s = some addr) : Allows env host addr := by
  by_contra hnot
  refine h (Or.inr ⟨idnaHost, ips, hidna, hips, s, hs, ?_⟩)
  intro addr' haddr'
  rw [haddr] at haddr'
  cases haddr'
  exact hnot

theorem guards_of_host {url host : String} (h : outboundHost env url = .ok host) :
    Guards env resolver url ↔ Sheltered env resolver host := by
  constructor
  · intro hguards
    constructor
    · intro addr haddr
      have haccepts := validate_literal resolver h haddr
      have hexact := hguards.exact host addr h haddr
      rcases allows_or_violates env host addr with hallows | hviolates | herror
      · left
        refine ⟨hallows, ?_⟩
        rw [← hallows.linkLocal_iff]
        exact (hguards.literal host addr h haddr (haccepts.mpr (Or.inl hallows))).2
      · right
        refine ⟨hviolates, ?_⟩
        by_contra hnot
        exact hexact.mp (haccepts.mpr (Or.inr ⟨hviolates, hnot⟩)) hviolates
      · have hnone : ¬ Violates env host addr := by
          rintro ⟨message, hmessage⟩
          rw [herror] at hmessage
          cases hmessage
        rcases haccepts.mp (hexact.mpr hnone) with hallows | ⟨hviolates, -⟩
        · rw [Allows, herror] at hallows
          cases hallows
        · exact absurd hviolates hnone
    · intro haddr
      by_cases hrefuses : Refuses env resolver host
      · exact Or.inl hrefuses
      · right
        intro idnaHost ips hidna hips s hs addr hs'
        have hallows := allows_of_not_refuses hrefuses hidna hips hs hs'
        rw [← hallows.linkLocal_iff]
        exact (hguards.resolved host idnaHost ips h haddr hidna hips ((validate_name h haddr).mpr hrefuses) s hs addr hs').2
  · intro hshelter
    have hsame : ∀ host', outboundHost env url = .ok host' → host' = host := fun host' h' =>
      Except.ok.inj (h'.symm.trans h)
    constructor
    · intro host' addr h' haddr haccepted
      obtain rfl := hsame host' h'
      rcases hshelter.literal addr haddr with ⟨hallows, hseen⟩ | ⟨hviolates, hrefuses⟩
      · exact ⟨hallows.not_violates, mt hallows.linkLocal_iff.mp hseen⟩
      · rcases (validate_literal resolver h haddr).mp haccepted with hallows | ⟨-, hnot⟩
        · exact absurd hviolates hallows.not_violates
        · exact absurd hrefuses hnot
    · intro host' idnaHost ips h' haddr hidna hips haccepted s hs addr hs'
      obtain rfl := hsame host' h'
      have hnot := (validate_name h haddr).mp haccepted
      have hallows := allows_of_not_refuses hnot hidna hips hs hs'
      have hseen := (hshelter.resolved haddr).resolve_left hnot idnaHost ips hidna hips s hs addr hs'
      exact ⟨hallows.not_violates, mt hallows.linkLocal_iff.mp hseen⟩
    · intro host' addr h' haddr
      obtain rfl := hsame host' h'
      rw [validate_literal resolver h haddr]
      rcases hshelter.literal addr haddr with ⟨hallows, -⟩ | ⟨hviolates, hrefuses⟩
      · exact iff_of_true (Or.inl hallows) hallows.not_violates
      · refine iff_of_false ?_ (not_not_intro hviolates)
        rintro (hallows | ⟨-, hnot⟩)
        · exact hallows.not_violates hviolates
        · exact hnot hrefuses

end Guard

theorem validate_guards (env : OutboundEnv) (resolver : String → Option (List String)) (url : String) :
    Guards env resolver url ↔ ∀ host, outboundHost env url = .ok host → Sheltered env resolver host := by
  cases h : outboundHost env url with
  | error e =>
    have hno : ∀ host, outboundHost env url ≠ .ok host := by
      intro host hhost
      rw [h] at hhost
      cases hhost
    have hguards : Guards env resolver url :=
      ⟨fun host _ hhost => absurd hhost (hno host), fun host _ _ hhost => absurd hhost (hno host),
        fun host _ hhost => absurd hhost (hno host)⟩
    exact iff_of_true hguards fun host hhost => by cases hhost
  | ok host =>
    rw [guards_of_host h]
    constructor
    · rintro hshelter host' hhost'
      cases hhost'
      exact hshelter
    · intro hall
      exact hall host rfl

/-! ## The metadata service -/

namespace Metadata

/-- The parsers, on the URL of the example. -/
def env : OutboundEnv where
  getenv := fun _ => none
  lower := id
  urlparse := fun url =>
    if url = "http://169.254.169.254/" then .ok ⟨none, none, "http", some "169.254.169.254"⟩ else .error "not parsed"
  ipAddress := fun s => if s = "169.254.169.254" then some (.v4 (v4 169 254 169 254)) else none
  idna := some
  rule := ⟨true, true⟩

theorem validate_accepts_metadata :
    validateOutboundConnectorBaseUrl env (fun _ => none) "http://169.254.169.254/" = .ok () ∧
      ¬ Guards env (fun _ => none) "http://169.254.169.254/" := by
  have hhost : outboundHost env "http://169.254.169.254/" = .ok "169.254.169.254" := by decide +kernel
  have haccepted : validateOutboundConnectorBaseUrl env (fun _ => none) "http://169.254.169.254/" = .ok () := by
    decide +kernel
  have hlinkLocal : LinkLocal (.v4 (v4 169 254 169 254)) := by
    simp only [LinkLocal]
    decide
  refine ⟨haccepted, fun hguards => ?_⟩
  exact (hguards.literal _ _ hhost rfl haccepted).2 hlinkLocal

end Metadata

end Lumogis
