/-!
# Lib.IpAddress

IP addresses as bit vectors, networks as their prefixes, and the special-purpose networks of IANA by which
an address is loopback, private, reserved or link-local. Whether a property of an IPv4-mapped IPv6 address
is that of the IPv4 address depends on the release of the implementation (`MappedRule`).
-/

namespace Ip

abbrev V4 := BitVec 32

abbrev V6 := BitVec 128

inductive Address where
  | v4 (a : V4)
  | v6 (a : V6)
  deriving DecidableEq

/-- The first `len` bits are those of the network. -/
def inNetwork {w : Nat} (a net : BitVec w) (len : Nat) : Bool := a >>> (w - len) == net >>> (w - len)

def v4 (a b c d : Nat) : V4 := BitVec.ofNat 32 (((a * 256 + b) * 256 + c) * 256 + d)

/-- Eight groups of sixteen bits. -/
def v6 (groups : List Nat) : V6 := BitVec.ofNat 128 (groups.foldl (fun a g => a * 65536 + g) 0)

/-- The address in the last 32 bits of `::ffff:0:0/96`. -/
def mapped (a : V6) : Option V4 := if a >>> 32 = 0xffff#128 then some (a.setWidth 32) else none

/-! ## Version 4 -/

def isLinkLocal4 (a : V4) : Bool := inNetwork a (v4 169 254 0 0) 16

def isLoopback4 (a : V4) : Bool := inNetwork a (v4 127 0 0 0) 8

def isReserved4 (a : V4) : Bool := inNetwork a (v4 240 0 0 0) 4

def privateNetworks4 : List (V4 × Nat) :=
  [(v4 0 0 0 0, 8), (v4 10 0 0 0, 8), (v4 127 0 0 0, 8), (v4 169 254 0 0, 16), (v4 172 16 0 0, 12),
    (v4 192 0 0 0, 24), (v4 192 0 0 170, 31), (v4 192 0 2 0, 24), (v4 192 168 0 0, 16), (v4 198 18 0 0, 15),
    (v4 198 51 100 0, 24), (v4 203 0 113 0, 24), (v4 240 0 0 0, 4), (v4 255 255 255 255, 32)]

def privateExceptions4 : List (V4 × Nat) := [(v4 192 0 0 9, 32), (v4 192 0 0 10, 32)]

def isPrivate4 (a : V4) : Bool :=
  privateNetworks4.any (fun n => inNetwork a n.1 n.2) && !privateExceptions4.any (fun n => inNetwork a n.1 n.2)

/-! ## Version 6 -/

/-- Which properties of a mapped address are those of the IPv4 address; privacy always is. -/
structure MappedRule where
  linkLocal : Bool
  loopback : Bool

def isLinkLocal6 (rule : MappedRule) (a : V6) : Bool :=
  match rule.linkLocal, mapped a with
  | true, some m => isLinkLocal4 m
  | _, _ => inNetwork a (v6 [0xfe80, 0, 0, 0, 0, 0, 0, 0]) 10

def isLoopback6 (rule : MappedRule) (a : V6) : Bool :=
  match rule.loopback, mapped a with
  | true, some m => isLoopback4 m
  | _, _ => a == 1

def privateNetworks6 : List (V6 × Nat) :=
  [(v6 [0, 0, 0, 0, 0, 0, 0, 1], 128), (v6 [0, 0, 0, 0, 0, 0, 0, 0], 128), (v6 [0, 0, 0, 0, 0, 0xffff, 0, 0], 96),
    (v6 [0x64, 0xff9b, 1, 0, 0, 0, 0, 0], 48), (v6 [0x100, 0, 0, 0, 0, 0, 0, 0], 64),
    (v6 [0x2001, 0, 0, 0, 0, 0, 0, 0], 23), (v6 [0x2001, 0xdb8, 0, 0, 0, 0, 0, 0], 32),
    (v6 [0x2002, 0, 0, 0, 0, 0, 0, 0], 16), (v6 [0xfc00, 0, 0, 0, 0, 0, 0, 0], 7),
    (v6 [0xfe80, 0, 0, 0, 0, 0, 0, 0], 10)]

def privateExceptions6 : List (V6 × Nat) :=
  [(v6 [0x2001, 1, 0, 0, 0, 0, 0, 1], 128), (v6 [0x2001, 1, 0, 0, 0, 0, 0, 2], 128),
    (v6 [0x2001, 3, 0, 0, 0, 0, 0, 0], 32), (v6 [0x2001, 4, 0x112, 0, 0, 0, 0, 0], 48),
    (v6 [0x2001, 0x20, 0, 0, 0, 0, 0, 0], 28), (v6 [0x2001, 0x30, 0, 0, 0, 0, 0, 0], 28)]

def isPrivate6 (a : V6) : Bool :=
  match mapped a with
  | some m => isPrivate4 m
  | none =>
    privateNetworks6.any (fun n => inNetwork a n.1 n.2) && !privateExceptions6.any (fun n => inNetwork a n.1 n.2)

/-! ## Link-local addresses, however they are written -/

/-- `169.254.0.0/16`, also as a mapped address, and `fe80::/10`. -/
def LinkLocal : Address → Prop
  | .v4 a => isLinkLocal4 a = true
  | .v6 a => inNetwork a (v6 [0xfe80, 0, 0, 0, 0, 0, 0, 0]) 10 = true ∨ ∃ m, mapped a = some m ∧ isLinkLocal4 m = true

/-- A mapped link-local address, which the implementation does not see as one. -/
def Unseen (rule : MappedRule) (addr : Address) : Prop :=
  rule.linkLocal = false ∧ ∃ a m, addr = .v6 a ∧ mapped a = some m ∧ isLinkLocal4 m = true

theorem shiftRight_of_mapped {a : V6} {m : V4} (h : mapped a = some m) : a >>> 32 = 0xffff#128 := by
  rw [mapped] at h
  split at h
  · rename_i hm
    exact hm
  · cases h

/-- A mapped address does not lie in `fe80::/10`. -/
theorem not_linkLocal_of_mapped {a : V6} {m : V4} (h : mapped a = some m) :
    inNetwork a (v6 [0xfe80, 0, 0, 0, 0, 0, 0, 0]) 10 = false := by
  have hhigh : a >>> 118 = (a >>> 32) >>> 86 := by rw [← BitVec.shiftRight_add]
  rw [inNetwork, hhigh, shiftRight_of_mapped h]
  decide

/-- What version 6 reports as no link-local address is none, or one that it does not see. -/
theorem linkLocal_v6_iff {rule : MappedRule} {a : V6} (h : isLinkLocal6 rule a = false) :
    LinkLocal (.v6 a) ↔ Unseen rule (.v6 a) := by
  simp only [isLinkLocal6] at h
  constructor
  · rintro (hnet | ⟨m, hm, hlink⟩)
    · split at h
      · rename_i m _ hm
        rw [not_linkLocal_of_mapped hm] at hnet
        cases hnet
      · rw [hnet] at h
        cases h
    · cases hrule : rule.linkLocal with
      | false => exact ⟨hrule, a, m, rfl, hm, hlink⟩
      | true =>
        rw [hrule, hm] at h
        exact absurd (hlink.symm.trans h) (by simp)
  · rintro ⟨-, b, m, hb, hm, hlink⟩
    cases hb
    exact Or.inr ⟨m, hm, hlink⟩

end Ip
