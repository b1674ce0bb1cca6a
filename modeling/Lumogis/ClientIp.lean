import Lumogis.Permissions
import Lumogis.Lib.Entries
import Lumogis.Lib.IpAddress

/-!
# ClientIp

`_proxied_client_ip`: the address that logins are throttled by. A peer that is no trusted proxy is itself
the client. Behind a trusted one the forwarded addresses are read from the right, and the first one that
is not trusted is the client: what stands to the left of it has no influence (`client_ip_unforgeable`).
-/

namespace Lumogis

open Entries Permissions

/-- A network: its address and the length of the prefix. -/
inductive IpNetwork where
  | v4 (net : Ip.V4) (len : Nat)
  | v6 (net : Ip.V6) (len : Nat)

/-- `address in network`; the versions are never mixed. -/
def IpNetwork.contains : IpNetwork → Ip.Address → Bool
  | .v4 net len, .v4 a => Ip.inNetwork a net len
  | .v6 net len, .v6 a => Ip.inNetwork a net len
  | _, _ => false

/-- The parsers of `ipaddress`; `none` where they raise a `ValueError`. -/
structure IpParsers where
  ipAddress : List Char → Option Ip.Address
  /-- `ip_network` with `strict=False`. -/
  ipNetwork : List Char → Option IpNetwork

structure ProxyRequest where
  /-- The host of `request.client`. -/
  client : Option (List Char)
  /-- Names in lower case, in the order of the request. -/
  headers : List (String × List Char)

/-! ## The code -/

def csvEntries (s : List Char) : List (List Char) := entries ',' isPySpace s

/-- `_parse_trusted_proxies`: malformed entries are skipped. -/
def parseTrustedProxies (parsers : IpParsers) (raw : List Char) : List IpNetwork :=
  (csvEntries raw).filterMap parsers.ipNetwork

/-- `_trusted_proxy_networks`. -/
def trustedProxyNetworks (parsers : IpParsers) (trustedProxies : List Char) : List IpNetwork :=
  parseTrustedProxies parsers (Entries.strip isPySpace trustedProxies)

/-- `headers.get(name, "")`: the first one of that name. -/
def ProxyRequest.header (request : ProxyRequest) (name : String) : List Char :=
  ((request.headers.find? fun header => header.1 = name).map Prod.snd).getD []

def inAny (networks : List IpNetwork) (addr : Ip.Address) : Bool := networks.any fun net => net.contains addr

/-- The loop, on the candidates in reverse: nothing if every one is trusted. -/
def walkHops (parsers : IpParsers) (networks : List IpNetwork) (lastValid : List Char) :
    List (List Char) → Option (List Char)
  | [] => none
  | ip :: rest =>
    match parsers.ipAddress ip with
    | none => some lastValid
    | some addr => if inAny networks addr then walkHops parsers networks ip rest else some ip

def forwardedFor (request : ProxyRequest) : List Char :=
  let rawXff := Entries.strip isPySpace (request.header "x-forwarded-for")
  if rawXff = [] then Entries.strip isPySpace (request.header "x-real-ip") else rawXff

def unknownIp : List Char := "unknown".toList

/-- `request.client.host or "unknown"`. -/
def peerOf (host : List Char) : List Char := if host = [] then unknownIp else host

def proxiedClientIp (parsers : IpParsers) (trustedProxies : List Char) (request : ProxyRequest) : List Char :=
  match request.client with
  | none => unknownIp
  | some host =>
    let peer := peerOf host
    let networks := trustedProxyNetworks parsers trustedProxies
    match parsers.ipAddress peer with
    | none => peer
    | some peerAddr =>
      if !inAny networks peerAddr then peer
      else
        match csvEntries (forwardedFor request) with
        | [] => peer
        | first :: rest => (walkHops parsers networks peer (first :: rest).reverse).getD first

/-! ## Trusted and untrusted addresses -/

section
variable (parsers : IpParsers) (trustedProxies : List Char)

/-- The text is an address in a trusted network. -/
def TrustedHop (ip : List Char) : Prop :=
  ∃ addr, parsers.ipAddress ip = some addr ∧ inAny (trustedProxyNetworks parsers trustedProxies) addr = true

/-- The text is an address in no trusted network. -/
def UntrustedHop (ip : List Char) : Prop :=
  ∃ addr, parsers.ipAddress ip = some addr ∧ inAny (trustedProxyNetworks parsers trustedProxies) addr = false

/-- The suffix is an untrusted address with only trusted ones behind it. -/
def BeginsUntrusted (suffix ip : List Char) : Prop :=
  ∃ hops, csvEntries suffix = ip :: hops ∧ UntrustedHop parsers trustedProxies ip ∧
    ∀ hop ∈ hops, TrustedHop parsers trustedProxies hop

end

/-- The header is the suffix, or the suffix behind a comma and anything. -/
def EndsWithEntries (header suffix : List Char) : Prop :=
  header = suffix ∨ ∃ before, header = before ++ ',' :: suffix

/-! ## The walk -/

section
variable {parsers : IpParsers} {trustedProxies : List Char}

theorem comma_not_space : isPySpace ',' = false := by decide

theorem walkHops_untrusted {hops before : List (List Char)} {ip : List Char}
    (hhops : ∀ hop ∈ hops, TrustedHop parsers trustedProxies hop) (hip : UntrustedHop parsers trustedProxies ip)
    (lastValid : List Char) :
    walkHops parsers (trustedProxyNetworks parsers trustedProxies) lastValid (hops ++ ip :: before) = some ip := by
  induction hops generalizing lastValid with
  | nil =>
    obtain ⟨addr, haddr, hout⟩ := hip
    simp [walkHops, haddr, hout]
  | cons hop hops ih =>
    obtain ⟨addr, haddr, hin⟩ := hhops hop List.mem_cons_self
    rw [List.cons_append, walkHops, haddr]
    simp only [hin, if_true]
    exact ih (fun h hh => hhops h (List.mem_cons_of_mem hop hh)) hop

theorem csvEntries_ends {header suffix : List Char} (h : EndsWithEntries header suffix) :
    ∃ before, csvEntries header = before ++ csvEntries suffix := by
  rcases h with rfl | ⟨before, rfl⟩
  · exact ⟨[], rfl⟩
  · exact ⟨csvEntries before, entries_append_sep before suffix⟩

theorem csvEntries_forwardedFor {request : ProxyRequest}
    (h : csvEntries (request.header "x-forwarded-for") ≠ []) :
    csvEntries (forwardedFor request) = csvEntries (request.header "x-forwarded-for") := by
  simp only [forwardedFor]
  rw [if_neg (strip_ne_nil h comma_not_space)]
  exact entries_strip comma_not_space _

theorem proxiedClientIp_suffix {request : ProxyRequest} {host suffix ip : List Char}
    (hclient : request.client = some host) (hpeer : TrustedHop parsers trustedProxies (peerOf host))
    (hsuffix : BeginsUntrusted parsers trustedProxies suffix ip)
    (hends : EndsWithEntries (request.header "x-forwarded-for") suffix) :
    proxiedClientIp parsers trustedProxies request = ip := by
  obtain ⟨peerAddr, haddr, hin⟩ := hpeer
  obtain ⟨hops, hentries, hip, hhops⟩ := hsuffix
  obtain ⟨before, hbefore⟩ := csvEntries_ends hends
  rw [hentries] at hbefore
  have hne : csvEntries (request.header "x-forwarded-for") ≠ [] := by simp [hbefore]
  have hwalk : walkHops parsers (trustedProxyNetworks parsers trustedProxies) (peerOf host)
      (hops.reverse ++ ip :: before.reverse) = some ip :=
    walkHops_untrusted (fun hop hhop => hhops hop (List.mem_reverse.mp hhop)) hip (peerOf host)
  simp only [proxiedClientIp, hclient, haddr, hin, Bool.not_true, Bool.false_eq_true, if_false,
    csvEntries_forwardedFor hne]
  cases hlist : csvEntries (request.header "x-forwarded-for") with
  | nil => exact absurd hlist hne
  | cons first rest =>
    have hreverse : (first :: rest).reverse = hops.reverse ++ ip :: before.reverse := by
      rw [← hlist, hbefore]
      simp
    simp only [hreverse, hwalk, Option.getD_some]

theorem proxiedClientIp_direct {request : ProxyRequest} {host : List Char}
    (hclient : request.client = some host) (hpeer : ¬ TrustedHop parsers trustedProxies (peerOf host)) :
    proxiedClientIp parsers trustedProxies request = peerOf host := by
  simp only [proxiedClientIp, hclient]
  split
  · rfl
  · rename_i addr haddr
    have hout : inAny (trustedProxyNetworks parsers trustedProxies) addr = false := by
      rw [Bool.eq_false_iff]
      intro hin
      exact hpeer ⟨addr, haddr, hin⟩
    simp [hout]

end

/-- Two requests of one trusted peer with the same untrusted address and trusted hops at the end are from
that address, whatever stands before it, and a request of another peer is from that peer. -/
theorem client_ip_unforgeable (parsers : IpParsers) (trustedProxies : List Char) :
    (∀ host suffix ip, TrustedHop parsers trustedProxies (peerOf host) →
      BeginsUntrusted parsers trustedProxies suffix ip → ∀ request request' : ProxyRequest,
      request.client = some host → request'.client = some host →
      EndsWithEntries (request.header "x-forwarded-for") suffix →
      EndsWithEntries (request'.header "x-forwarded-for") suffix →
      proxiedClientIp parsers trustedProxies request = ip ∧ proxiedClientIp parsers trustedProxies request' = ip) ∧
    ∀ host, ¬ TrustedHop parsers trustedProxies (peerOf host) → ∀ request : ProxyRequest,
      request.client = some host → proxiedClientIp parsers trustedProxies request = peerOf host := by
  constructor
  · intro host suffix ip hpeer hsuffix request request' hclient hclient' hends hends'
    exact ⟨proxiedClientIp_suffix hclient hpeer hsuffix hends,
      proxiedClientIp_suffix hclient' hpeer hsuffix hends'⟩
  · intro host hpeer request hclient
    exact proxiedClientIp_direct hclient hpeer

/-! ### Behind one proxy -/

/-- The parsers on two addresses and one network. -/
def loopbackParsers : IpParsers where
  ipAddress := fun s =>
    if s = "127.0.0.1".toList then some (.v4 (Ip.v4 127 0 0 1))
    else if s = "203.0.113.7".toList then some (.v4 (Ip.v4 203 0 113 7)) else none
  ipNetwork := fun s => if s = "127.0.0.0/8".toList then some (.v4 (Ip.v4 127 0 0 0) 8) else none

/-- The client writes an address of its own before the proxy adds the real one. -/
def spoofedRequest : ProxyRequest where
  client := some "127.0.0.1".toList
  headers := [("x-forwarded-for", "127.0.0.1, 203.0.113.7".toList)]

def plainRequest : ProxyRequest where
  client := some "127.0.0.1".toList
  headers := [("x-forwarded-for", " 203.0.113.7".toList)]

theorem client_ip_unforgeable_spoofed :
    proxiedClientIp loopbackParsers "127.0.0.0/8".toList spoofedRequest = "203.0.113.7".toList ∧
      proxiedClientIp loopbackParsers "127.0.0.0/8".toList plainRequest = "203.0.113.7".toList := by
  have hpeer : TrustedHop loopbackParsers "127.0.0.0/8".toList (peerOf "127.0.0.1".toList) :=
    ⟨.v4 (Ip.v4 127 0 0 1), by decide, by decide⟩
  have hsuffix : BeginsUntrusted loopbackParsers "127.0.0.0/8".toList " 203.0.113.7".toList
      "203.0.113.7".toList :=
    ⟨[], by decide, ⟨.v4 (Ip.v4 203 0 113 7), by decide, by decide⟩, by simp⟩
  exact (client_ip_unforgeable loopbackParsers "127.0.0.0/8".toList).1 _ _ _ hpeer hsuffix spoofedRequest
    plainRequest rfl rfl (.inr ⟨"127.0.0.1".toList, by decide⟩) (.inl rfl)

end Lumogis
