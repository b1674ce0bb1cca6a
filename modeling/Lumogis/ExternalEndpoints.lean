import Lumogis.Lib.Regex
import Lumogis.Permissions
import Mathlib.Data.List.SplitOn
import Mathlib.Data.List.Induction

/-!
# Lumogis.ExternalEndpoints

The declared-egress list of a capability manifest: `_HOST_LABEL_RE`, `_is_valid_bare_host` and
`normalise_external_endpoints`. The anchor at the end of the label expression also holds before a last
line break, so a label may be followed by one: the list is normalised as it says exactly when no list is
accepted for that reason alone (`normaliseExternalEndpoints_exact_iff`).
-/

namespace Lumogis

open Permissions

/-! ## Hosts -/

/-- `[a-z0-9]`. -/
def isHostAlnum (c : Char) : Bool := c.isLower || c.isDigit

/-- `[a-z0-9-]`. -/
def isHostChar (c : Char) : Bool := isHostAlnum c || c == '-'

/-- `_HOST_LABEL_RE`. -/
def hostLabelRe : Regex Char :=
  .seq (.cls isHostAlnum)
    (.seq (.opt (.seq (.upTo 61 isHostChar) (.cls isHostAlnum))) (.dollar '\n'))

def isValidBareHost (host : String) : Bool :=
  host ≠ "" && (host.toList.splitOn '.').all hostLabelRe.isMatch

def maxExternalEndpoints : Nat := 32

def maxHostLen : Nat := 253

inductive EndpointError where
  | tooMany (declared : Nat)
  | empty
  | nonAscii (entry : String)
  | colon (entry : String)
  | wildcard (entry : String)
  | tooLong
  | invalidHost (entry : String)
  deriving DecidableEq

/-- The text of the `ValueError`; `repr` is Python's. -/
def EndpointError.message (repr : String → String) : EndpointError → String
  | tooMany declared => "external_endpoints declares " ++ toString declared ++ " hosts; max is " ++
      toString maxExternalEndpoints
  | empty => "external_endpoints entry is empty"
  | nonAscii entry => "external_endpoints " ++ repr entry ++ " is non-ASCII/IDN (punycode-encode it)"
  | colon entry => "external_endpoints " ++ repr entry ++ " contains ':' (no ports/IPv6)"
  | wildcard entry => "external_endpoints " ++ repr entry ++ " uses a wildcard (exact hosts only)"
  | tooLong => "external_endpoints entry exceeds " ++ toString maxHostLen ++ " chars"
  | invalidHost entry => "external_endpoints entry " ++ repr entry ++
      " is not a valid bare host or IPv4 literal " ++
      "(no scheme/path/special chars; no empty, leading/trailing-dot, or " ++
      "leading/trailing-hyphen labels)"

/-- `str.isascii`. -/
def isAscii (s : String) : Bool := s.toList.all fun c => c.toNat < 128

section

/-! `lower` is `str.lower`. -/

variable (lower : String → String)

/-- The host of an entry, before any check. -/
def entryHost (entry : String) : String := lower (strip entry)

def checkEntry (entry : String) : Except EndpointError String :=
  let host := entryHost lower entry
  if host = "" then .error .empty
  else if !isAscii host then .error (.nonAscii entry)
  else if ':' ∈ host.toList then .error (.colon entry)
  else if '*' ∈ host.toList then .error (.wildcard entry)
  else if maxHostLen < host.length then .error .tooLong
  else if !isValidBareHost host then .error (.invalidHost entry)
  else .ok host

/-- `seen` and `out` have the same members. -/
def addHost (out : List String) (host : String) : List String :=
  if host ∈ out then out else out ++ [host]

def collectHosts : List String → List String → Except EndpointError (List String)
  | [], out => .ok out
  | entry :: raw, out =>
    match checkEntry lower entry with
    | .error e => .error e
    | .ok host => collectHosts raw (addHost out host)

def normaliseExternalEndpoints (raw : List String) : Except EndpointError (List String) :=
  if maxExternalEndpoints < raw.length then .error (.tooMany raw.length)
  else collectHosts lower raw []

end

/-! ## What a host is -/

/-- 1 to 63 letters, digits and inner hyphens. -/
structure HostLabel (label : List Char) : Prop where
  nonempty : label ≠ []
  length : label.length ≤ 63
  chars : ∀ c ∈ label, isHostChar c = true
  first : label.head? ≠ some '-'
  last : label.getLast? ≠ some '-'

/-- A label that may be followed by a line break. -/
def LaxLabel (label : List Char) : Prop :=
  HostLabel label ∨ ∃ label', HostLabel label' ∧ label = label' ++ ['\n']

/-- A dot-separated sequence of labels of one kind, of at most 253 characters. -/
def DotSeparated (IsLabel : List Char → Prop) (host : String) : Prop :=
  host.length ≤ maxHostLen ∧
    ∃ labels, labels ≠ [] ∧ (∀ label ∈ labels, IsLabel label) ∧
      host.toList = ['.'].intercalate labels

def BareHost : String → Prop := DotSeparated HostLabel

def LaxHost : String → Prop := DotSeparated LaxLabel

/-! ### The label expression -/

theorem isHostChar_of_alnum {c : Char} (h : isHostAlnum c = true) : isHostChar c = true := by
  simp [isHostChar, h]

theorem isHostAlnum_of_char {c : Char} (h : isHostChar c = true) (hc : c ≠ '-') :
    isHostAlnum c = true := by
  simpa [isHostChar, hc] using h

theorem not_isHostAlnum_hyphen : isHostAlnum '-' = false := by decide

theorem hostLabel_iff (label : List Char) :
    HostLabel label ↔ (∃ c, isHostAlnum c = true ∧ label = [c]) ∨
      ∃ c inner c', isHostAlnum c = true ∧ isHostAlnum c' = true ∧ inner.length ≤ 61 ∧
        (∀ x ∈ inner, isHostChar x = true) ∧ label = c :: (inner ++ [c']) := by
  constructor
  · intro h
    obtain ⟨c, rest, rfl⟩ := List.exists_cons_of_ne_nil h.nonempty
    have hc : isHostAlnum c = true :=
      isHostAlnum_of_char (h.chars c List.mem_cons_self) (by simpa using h.first)
    induction rest using List.reverseRecOn with
    | nil => exact .inl ⟨c, hc, rfl⟩
    | append_singleton inner c' _ =>
      have hlast : c' ≠ '-' := by
        have hlast := h.last
        rw [← List.cons_append, List.getLast?_concat] at hlast
        simpa using hlast
      have hlen : inner.length ≤ 61 := by
        have hlen := h.length
        simp at hlen
        omega
      refine .inr ⟨c, inner, c', hc, isHostAlnum_of_char (h.chars c' (by simp)) hlast, hlen, ?_, rfl⟩
      intro x hx
      exact h.chars x (by simp [hx])
  · rintro (⟨c, hc, rfl⟩ | ⟨c, inner, c', hc, hc', hlen, hinner, rfl⟩)
    · have hne : c ≠ '-' := by
        rintro rfl
        rw [not_isHostAlnum_hyphen] at hc
        cases hc
      exact ⟨by simp, by simp, by simpa using isHostChar_of_alnum hc, by simpa using hne,
        by simpa using hne⟩
    · have hne : c ≠ '-' := by
        rintro rfl
        rw [not_isHostAlnum_hyphen] at hc
        cases hc
      have hne' : c' ≠ '-' := by
        rintro rfl
        rw [not_isHostAlnum_hyphen] at hc'
        cases hc'
      constructor
      · simp
      · simp
        omega
      · intro x hx
        rcases List.mem_cons.mp hx with rfl | hx
        · exact isHostChar_of_alnum hc
        · rcases List.mem_append.mp hx with hx | hx
          · exact hinner x hx
          · rw [List.mem_singleton.mp hx]
            exact isHostChar_of_alnum hc'
      · simpa using hne
      · rw [← List.cons_append, List.getLast?_concat]
        simpa using hne'

theorem hostLabelRe_isMatch (label : List Char) : hostLabelRe.isMatch label = true ↔ LaxLabel label := by
  have hmatch : hostLabelRe.isMatch label = true
      ↔ ∃ body rest, HostLabel body ∧ (rest = [] ∨ rest = ['\n']) ∧ label = body ++ rest := by
    simp only [Regex.isMatch_iff, hostLabelRe, Regex.mem_rests_seq, Regex.mem_rests_cls,
      Regex.mem_rests_opt, Regex.mem_rests_upTo, Regex.mem_rests_dollar]
    constructor
    · rintro ⟨t, u, ⟨c, hc, rfl⟩, rest, hrest, rfl, hend⟩
      rcases hrest with ⟨w, ⟨inner, rfl, hlen, hinner⟩, c', hc', rfl⟩ | rfl
      · exact ⟨c :: (inner ++ [c']), _,
          (hostLabel_iff _).mpr (.inr ⟨c, inner, c', hc, hc', hlen, hinner, rfl⟩), hend, by simp⟩
      · exact ⟨[c], _, (hostLabel_iff _).mpr (.inl ⟨c, hc, rfl⟩), hend, by simp⟩
    · rintro ⟨body, rest, hbody, hend, rfl⟩
      rcases (hostLabel_iff _).mp hbody with ⟨c, hc, rfl⟩ | ⟨c, inner, c', hc, hc', hlen, hinner, rfl⟩
      · exact ⟨rest, rest, ⟨c, hc, rfl⟩, rest, .inr rfl, rfl, hend⟩
      · exact ⟨rest, inner ++ c' :: rest, ⟨c, hc, by simp⟩, rest,
          .inl ⟨c' :: rest, ⟨inner, rfl, hlen, hinner⟩, c', hc', rfl⟩, rfl, hend⟩
  rw [hmatch]
  constructor
  · rintro ⟨body, rest, hbody, rfl | rfl, rfl⟩
    · exact .inl (by simpa using hbody)
    · exact .inr ⟨body, hbody, rfl⟩
  · rintro (h | ⟨body, hbody, rfl⟩)
    · exact ⟨label, [], h, .inl rfl, by simp⟩
    · exact ⟨body, ['\n'], hbody, .inr rfl, rfl⟩

/-! ### Hosts and their labels -/

theorem HostLabel.lax {label : List Char} (h : HostLabel label) : LaxLabel label := .inl h

theorem LaxLabel.chars {label : List Char} (h : LaxLabel label) {c : Char} (hc : c ∈ label) :
    isHostChar c = true ∨ c = '\n' := by
  rcases h with h | ⟨label', h, rfl⟩
  · exact .inl (h.chars c hc)
  · rcases List.mem_append.mp hc with hc | hc
    · exact .inl (h.chars c hc)
    · exact .inr (List.mem_singleton.mp hc)

theorem LaxLabel.no_dot {label : List Char} (h : LaxLabel label) : '.' ∉ label := by
  intro hdot
  rcases h.chars hdot with h | h
  · exact absurd h (by decide)
  · exact absurd h (by decide)

theorem LaxLabel.nonempty {label : List Char} (h : LaxLabel label) : label ≠ [] := by
  rcases h with h | ⟨label', h, rfl⟩
  · exact h.nonempty
  · simp

theorem BareHost.lax {host : String} (h : BareHost host) : LaxHost host := by
  obtain ⟨hlen, labels, hne, hlabels, heq⟩ := h
  exact ⟨hlen, labels, hne, fun label hl => (hlabels label hl).lax, heq⟩

theorem dotSeparated_iff {IsLabel : List Char → Prop} (hdot : ∀ label, IsLabel label → '.' ∉ label)
    (host : String) : DotSeparated IsLabel host
      ↔ host.length ≤ maxHostLen ∧ ∀ label ∈ host.toList.splitOn '.', IsLabel label := by
  constructor
  · rintro ⟨hlen, labels, hne, hlabels, heq⟩
    refine ⟨hlen, ?_⟩
    rw [heq, List.splitOn_intercalate '.' (fun l hl => hdot l (hlabels l hl)) hne]
    exact hlabels
  · rintro ⟨hlen, hlabels⟩
    exact ⟨hlen, host.toList.splitOn '.', List.splitOn_ne_nil _ _, hlabels,
      (List.intercalate_splitOn '.').symm⟩

theorem mem_intercalate {sep : List Char} {c : Char} {labels : List (List Char)}
    (h : c ∈ sep.intercalate labels) : c ∈ sep ∨ ∃ label ∈ labels, c ∈ label := by
  induction labels with
  | nil => cases h
  | cons label labels ih =>
    cases labels with
    | nil =>
      rw [List.intercalate_singleton] at h
      exact .inr ⟨label, by simp, h⟩
    | cons label' labels =>
      rw [List.intercalate_cons_cons, List.mem_append, List.mem_append] at h
      rcases h with (h | h) | h
      · exact .inr ⟨label, by simp, h⟩
      · exact .inl h
      · rcases ih h with h | ⟨l, hl, hc⟩
        · exact .inl h
        · exact .inr ⟨l, List.mem_cons_of_mem _ hl, hc⟩

theorem LaxHost.chars {host : String} (h : LaxHost host) {c : Char} (hc : c ∈ host.toList) :
    isHostChar c = true ∨ c = '\n' ∨ c = '.' := by
  obtain ⟨-, labels, -, hlabels, heq⟩ := h
  rw [heq] at hc
  rcases mem_intercalate hc with hc | ⟨label, hl, hc⟩
  · exact .inr (.inr (List.mem_singleton.mp hc))
  · rcases (hlabels label hl).chars hc with hc | hc
    · exact .inl hc
    · exact .inr (.inl hc)

theorem isLower_range {c : Char} (h : c.isLower = true) : 97 ≤ c.toNat ∧ c.toNat ≤ 122 := by
  have hboth : decide (c.val ≥ 'a'.val) = true ∧ decide (c.val ≤ 'z'.val) = true := Bool.and_eq_true_iff.mp h
  exact ⟨UInt32.le_iff_toNat_le.mp (of_decide_eq_true hboth.1), UInt32.le_iff_toNat_le.mp (of_decide_eq_true hboth.2)⟩

theorem isUpper_eq_false_iff {c : Char} :
    c.isUpper = false ↔ ¬ (c.val ≥ 'A'.val ∧ c.val ≤ 'Z'.val) :=
  decide_eq_false_iff_not

theorem isHostChar_range {c : Char} (h : isHostChar c = true) :
    c.toNat = 45 ∨ 48 ≤ c.toNat ∧ c.toNat ≤ 57 ∨ 97 ≤ c.toNat ∧ c.toNat ≤ 122 := by
  have hle : ∀ {a b : Char}, a ≤ b → a.toNat ≤ b.toNat := fun h => h
  simp only [isHostChar, isHostAlnum, Char.isDigit, Bool.or_eq_true, Bool.and_eq_true,
    decide_eq_true_eq, beq_iff_eq] at h
  rcases h with (hlower | ⟨ha, hz⟩) | rfl
  · exact .inr (.inr (isLower_range hlower))
  · exact .inr (.inl ⟨hle ha, hle hz⟩)
  · exact .inl rfl

theorem LaxHost.ascii {host : String} (h : LaxHost host) : isAscii host = true := by
  rw [isAscii, List.all_eq_true]
  intro c hc
  rcases h.chars hc with h | rfl | rfl
  · have hrange := isHostChar_range h
    simp
    omega
  · decide
  · decide

theorem isValidBareHost_iff {host : String} :
    isValidBareHost host = true ↔ ∀ label ∈ host.toList.splitOn '.', LaxLabel label := by
  constructor
  · intro h label hl
    simp only [isValidBareHost, Bool.and_eq_true, List.all_eq_true] at h
    exact (hostLabelRe_isMatch label).mp (h.2 label hl)
  · intro h
    have hne : host ≠ "" := by
      rintro rfl
      exact (h [] (by simp)).nonempty rfl
    simp only [isValidBareHost, Bool.and_eq_true, List.all_eq_true]
    exact ⟨by simpa using hne, fun label hl => (hostLabelRe_isMatch label).mpr (h label hl)⟩

theorem laxHost_iff (host : String) :
    LaxHost host ↔ host.length ≤ maxHostLen ∧ isValidBareHost host = true := by
  rw [isValidBareHost_iff]
  exact dotSeparated_iff (fun label h => h.no_dot) host

/-! ## The list -/

theorem checkEntry_ok_iff (lower : String → String) (entry host : String) :
    checkEntry lower entry = .ok host ↔ host = entryHost lower entry ∧ LaxHost host := by
  constructor
  · intro h
    simp only [checkEntry] at h
    split_ifs at h with hempty hascii hcolon hstar hlen hvalid
    obtain rfl := Except.ok.inj h
    exact ⟨rfl, (laxHost_iff _).mpr ⟨by omega, by simpa using hvalid⟩⟩
  · rintro ⟨rfl, h⟩
    have hchar : ∀ c, isHostChar c = false → c ≠ '\n' → c ≠ '.' → c ∉ (entryHost lower entry).toList := by
      intro c hc hbreak hdot hmem
      rcases h.chars hmem with h | h | h
      · rw [hc] at h
        cases h
      · exact hbreak h
      · exact hdot h
    have hcolon := hchar ':' (by decide) (by decide) (by decide)
    have hstar := hchar '*' (by decide) (by decide) (by decide)
    have hlax := (laxHost_iff _).mp h
    have hempty : entryHost lower entry ≠ "" := by
      intro hempty
      have hvalid := hlax.2
      rw [hempty] at hvalid
      simp [isValidBareHost] at hvalid
    simp [checkEntry, hempty, h.ascii, hcolon, hstar, hlax.2, Nat.not_lt.mpr hlax.1]

/-- The hosts of the entries, one after the other, into a list that keeps the first of each. -/
def addHosts (out hosts : List String) : List String := hosts.foldl addHost out

theorem collectHosts_ok_iff (lower : String → String) (raw : List String) :
    ∀ out result, collectHosts lower raw out = .ok result
      ↔ (∀ entry ∈ raw, LaxHost (entryHost lower entry)) ∧
        result = addHosts out (raw.map (entryHost lower)) := by
  induction raw with
  | nil =>
    intro out result
    simp [collectHosts, addHosts, eq_comm]
  | cons entry raw ih =>
    intro out result
    rw [collectHosts, List.forall_mem_cons, List.map_cons, addHosts, List.foldl_cons]
    cases hcheck : checkEntry lower entry with
    | error e =>
      have hlax : ¬ LaxHost (entryHost lower entry) := by
        intro hlax
        rw [(checkEntry_ok_iff lower entry _).mpr ⟨rfl, hlax⟩] at hcheck
        cases hcheck
      simp [hlax]
    | ok host =>
      obtain ⟨rfl, hlax⟩ := (checkEntry_ok_iff lower entry host).mp hcheck
      simp only [ih, hlax, true_and, addHosts]

theorem normaliseExternalEndpoints_ok_iff (lower : String → String) (raw result : List String) :
    normaliseExternalEndpoints lower raw = .ok result
      ↔ (raw.length ≤ maxExternalEndpoints ∧ ∀ entry ∈ raw, LaxHost (entryHost lower entry)) ∧
        result = addHosts [] (raw.map (entryHost lower)) := by
  rw [normaliseExternalEndpoints]
  split
  · rename_i hlen
    simp [Nat.not_le.mpr hlen]
  · rename_i hlen
    rw [collectHosts_ok_iff, and_assoc]
    simp [Nat.not_lt.mp hlen]

theorem mem_addHosts {out hosts : List String} {host : String} :
    host ∈ addHosts out hosts ↔ host ∈ out ∨ host ∈ hosts := by
  induction hosts generalizing out with
  | nil => simp [addHosts]
  | cons h hosts ih =>
    rw [addHosts, List.foldl_cons, ← addHosts, ih, addHost]
    split <;> grind

theorem addHosts_append_singleton (out hosts : List String) (host : String) :
    addHosts out (hosts ++ [host]) = addHost (addHosts out hosts) host := by
  simp [addHosts]

theorem addHosts_ordered (hosts : List String) :
    (addHosts [] hosts).Pairwise fun a b => hosts.idxOf a < hosts.idxOf b := by
  induction hosts using List.reverseRecOn with
  | nil => exact List.Pairwise.nil
  | append_singleton hosts host ih =>
    have hold : ∀ a ∈ addHosts [] hosts, a ∈ hosts := by
      intro a ha
      simpa using mem_addHosts.mp ha
    have hkept : (addHosts [] hosts).Pairwise
        fun a b => (hosts ++ [host]).idxOf a < (hosts ++ [host]).idxOf b := by
      refine ih.imp_of_mem ?_
      intro a b ha hb hlt
      rwa [List.idxOf_append_of_mem (hold a ha), List.idxOf_append_of_mem (hold b hb)]
    rw [addHosts_append_singleton, addHost]
    split
    · exact hkept
    · rename_i hnew
      have hnot : host ∉ hosts := fun h => hnew (mem_addHosts.mpr (.inr h))
      refine List.pairwise_append.mpr ⟨hkept, List.pairwise_singleton _ _, ?_⟩
      intro a ha b hb
      rw [List.mem_singleton.mp hb, List.idxOf_append_of_mem (hold a ha),
        List.idxOf_append_of_notMem hnot]
      have hlt := List.idxOf_lt_length_of_mem (hold a ha)
      omega

theorem addHosts_nodup (hosts : List String) : (addHosts [] hosts).Nodup :=
  (addHosts_ordered hosts).imp fun h heq => by subst heq; omega

theorem addHosts_length (hosts : List String) : (addHosts [] hosts).length ≤ hosts.length := by
  induction hosts using List.reverseRecOn with
  | nil => simp [addHosts]
  | append_singleton hosts host ih =>
    rw [addHosts_append_singleton, addHost]
    split <;> simp <;> omega

theorem addHosts_of_nodup {hosts : List String} (h : hosts.Nodup) : addHosts [] hosts = hosts := by
  induction hosts using List.reverseRecOn with
  | nil => rfl
  | append_singleton hosts host ih =>
    have hparts := List.nodup_append.mp h
    have hnew : host ∉ hosts := fun hmem => hparts.2.2 host hmem host (by simp) rfl
    rw [addHosts_append_singleton, ih hparts.1, addHost, if_neg hnew]

theorem strip_of_no_space {s : String} (h : ∀ c ∈ s.toList, isPySpace c = false) : strip s = s := by
  have hleft : s.toList.dropWhile isPySpace = s.toList := by
    rw [List.dropWhile_eq_self_iff]
    intro hlen
    simpa using h _ (List.getElem_mem hlen)
  have hright : s.toList.rdropWhile isPySpace = s.toList := by
    rw [List.rdropWhile_eq_self_iff]
    intro hne
    simp [h _ (List.getLast_mem hne)]
  rw [strip, hleft, hright, String.ofList_toList]

theorem BareHost.range {host : String} (h : BareHost host) {c : Char} (hc : c ∈ host.toList) :
    45 ≤ c.toNat ∧ c.toNat ≤ 57 ∨ 97 ≤ c.toNat ∧ c.toNat ≤ 122 := by
  obtain ⟨-, labels, -, hlabels, heq⟩ := h
  rw [heq] at hc
  rcases mem_intercalate hc with hc | ⟨label, hl, hc⟩
  · rw [List.mem_singleton.mp hc]
    decide
  · have hrange := isHostChar_range ((hlabels label hl).chars c hc)
    omega

/-- What `str.lower` does to a text of ASCII characters without upper-case letters: nothing. -/
def KeepsLower (lower : String → String) : Prop :=
  ∀ s : String, (∀ c ∈ s.toList, c.toNat < 128 ∧ c.isUpper = false) → lower s = s

theorem BareHost.entryHost {lower : String → String} (hlower : KeepsLower lower) {host : String}
    (h : BareHost host) : entryHost lower host = host := by
  have hspace : ∀ c ∈ host.toList, isPySpace c = false := by
    intro c hc
    have hrange := h.range hc
    simp only [isPySpace, Bool.or_eq_false_iff, Bool.and_eq_false_iff, decide_eq_false_iff_not,
      List.contains_eq_mem, List.mem_cons, List.not_mem_nil, or_false]
    omega
  rw [Lumogis.entryHost, strip_of_no_space hspace]
  refine hlower host fun c hc => ?_
  have hrange := h.range hc
  refine ⟨by omega, ?_⟩
  rw [isUpper_eq_false_iff]
  rintro ⟨ha, hz⟩
  have hfrom : 65 ≤ c.toNat := UInt32.le_iff_toNat_le.mp ha
  have hto : c.toNat ≤ 90 := UInt32.le_iff_toNat_le.mp hz
  omega

/-! ## The grammar -/

/-- The function accepts the lists of at most 32 hosts; its result has the hosts of the list, each once
and in the order of their first occurrences, and is left as it is by the function. -/
structure NormalisesExactly (lower : String → String) (raw : List String) : Prop where
  accepts : (∃ out, normaliseExternalEndpoints lower raw = .ok out)
    ↔ raw.length ≤ maxExternalEndpoints ∧ ∀ entry ∈ raw, BareHost (entryHost lower entry)
  hosts : ∀ out, normaliseExternalEndpoints lower raw = .ok out → ∀ host ∈ out, BareHost host
  complete : ∀ out, normaliseExternalEndpoints lower raw = .ok out →
    ∀ host, host ∈ out ↔ ∃ entry ∈ raw, entryHost lower entry = host
  nodup : ∀ out, normaliseExternalEndpoints lower raw = .ok out → out.Nodup
  order : ∀ out, normaliseExternalEndpoints lower raw = .ok out →
    out.Pairwise fun a b =>
      (raw.map (entryHost lower)).idxOf a < (raw.map (entryHost lower)).idxOf b
  fixed : ∀ out, normaliseExternalEndpoints lower raw = .ok out →
    normaliseExternalEndpoints lower out = .ok out

/-- The list is one of hosts only where labels may be followed by a line break. -/
def LaxOnly (lower : String → String) (raw : List String) : Prop :=
  raw.length ≤ maxExternalEndpoints ∧ (∀ entry ∈ raw, LaxHost (entryHost lower entry)) ∧
    ∃ entry ∈ raw, ¬ BareHost (entryHost lower entry)

/-- The list is normalised as it should be exactly when it is not accepted for a line break's sake. -/
theorem normaliseExternalEndpoints_exact_iff (lower : String → String) (hlower : KeepsLower lower)
    (raw : List String) : NormalisesExactly lower raw ↔ ¬ LaxOnly lower raw := by
  have hok := normaliseExternalEndpoints_ok_iff lower raw
  constructor
  · rintro h ⟨hlen, hlax, entry, hentry, hbare⟩
    have haccepts := h.accepts.mp ⟨_, (hok _).mpr ⟨⟨hlen, hlax⟩, rfl⟩⟩
    exact hbare (haccepts.2 entry hentry)
  · intro h
    have hbare : raw.length ≤ maxExternalEndpoints →
        (∀ entry ∈ raw, LaxHost (entryHost lower entry)) →
        ∀ entry ∈ raw, BareHost (entryHost lower entry) := by
      intro hlen hlax entry hentry
      by_contra hnot
      exact h ⟨hlen, hlax, entry, hentry, hnot⟩
    have hout : ∀ out, normaliseExternalEndpoints lower raw = .ok out → ∀ host ∈ out, BareHost host := by
      intro out hres host hhost
      obtain ⟨⟨hlen, hlax⟩, rfl⟩ := (hok out).mp hres
      have hmem : host ∈ raw.map (entryHost lower) := by simpa using mem_addHosts.mp hhost
      obtain ⟨entry, hentry, rfl⟩ := List.mem_map.mp hmem
      exact hbare hlen hlax entry hentry
    constructor
    · constructor
      · rintro ⟨out, hres⟩
        obtain ⟨⟨hlen, hlax⟩, -⟩ := (hok out).mp hres
        exact ⟨hlen, hbare hlen hlax⟩
      · rintro ⟨hlen, hall⟩
        exact ⟨_, (hok _).mpr ⟨⟨hlen, fun entry hentry => (hall entry hentry).lax⟩, rfl⟩⟩
    · exact hout
    · intro out hres host
      obtain ⟨-, rfl⟩ := (hok out).mp hres
      simp [mem_addHosts]
    · intro out hres
      obtain ⟨-, rfl⟩ := (hok out).mp hres
      exact addHosts_nodup _
    · intro out hres
      obtain ⟨-, rfl⟩ := (hok out).mp hres
      exact addHosts_ordered _
    · intro out hres
      have hhosts := hout out hres
      obtain ⟨⟨hlen, -⟩, hout'⟩ := (hok out).mp hres
      have hsame : out.map (entryHost lower) = out := by
        conv_rhs => rw [← List.map_id out]
        exact List.map_congr_left fun host hhost => (hhosts host hhost).entryHost hlower
      have hshort : out.length ≤ maxExternalEndpoints := by
        rw [hout']
        exact (addHosts_length _).trans (by simpa using hlen)
      have hnodup : out.Nodup := by
        rw [hout']
        exact addHosts_nodup _
      refine (normaliseExternalEndpoints_ok_iff lower out out).mpr ⟨⟨hshort, ?_⟩, ?_⟩
      · intro host hhost
        rw [(hhosts host hhost).entryHost hlower]
        exact (hhosts host hhost).lax
      · rw [hsame, addHosts_of_nodup hnodup]

theorem keepsLower_toLower : KeepsLower fun s => s.map Char.toLower := by
  intro s hs
  have hchars : s.toList.map Char.toLower = s.toList := by
    conv_rhs => rw [← List.map_id s.toList]
    refine List.map_congr_left fun c hc => ?_
    have hupper := (hs c hc).2
    rw [isUpper_eq_false_iff] at hupper
    exact dif_neg hupper
  rw [← String.toList_inj, String.toList_map, hchars]

theorem normaliseExternalEndpoints_exact_api :
    NormalisesExactly (fun s => s.map Char.toLower) ["API.Foo.com", "api.foo.com"]
      ↔ ¬ LaxOnly (fun s => s.map Char.toLower) ["API.Foo.com", "api.foo.com"] :=
  normaliseExternalEndpoints_exact_iff _ keepsLower_toLower ["API.Foo.com", "api.foo.com"]

/-- A label may be followed by a line break. -/
theorem normaliseExternalEndpoints_line_break :
    ¬ NormalisesExactly (fun s => s.map Char.toLower) ["foo\n.com"] := by
  intro h
  have hhost : entryHost (fun s => s.map Char.toLower) "foo\n.com" = "foo\n.com" := by decide +kernel
  have hres : normaliseExternalEndpoints (fun s => s.map Char.toLower) ["foo\n.com"]
      = .ok ["foo\n.com"] := by decide +kernel
  have hbare := (h.accepts.mp ⟨_, hres⟩).2 "foo\n.com" (by simp)
  rw [hhost] at hbare
  have hrange := hbare.range (c := '\n') (by decide +kernel)
  revert hrange
  decide

end Lumogis
