import Lumogis.Lib.Labelled
import Lumogis.Lib.Table

/-!
# Lumogis.McpTokens

`services/mcp_tokens.py`: minting, verifying and revoking the bearer tokens of the MCP endpoint. A row is
looked up by the first sixteen characters of the body; then the presented string is hashed, which raises
for a string that is not ASCII. So `verify` answers as it should exactly when no unrevoked row has the
prefix of the string, or the string and the stored hash can be compared (`verify_exact`).

Strings are lists of code points, surrogates included. Times other than that of the revocation are left out.
-/

namespace Lumogis

open Labelled

namespace McpTokens

/-- The code points of a string. -/
abbrev PyStr := List Nat

def codes (s : String) : PyStr := s.toList.map Char.toNat

def isAscii (s : PyStr) : Bool := s.all fun c => decide (c < 128)

/-- A text that the database takes: no NUL and no surrogates. -/
def storable (s : PyStr) : Bool := s.all fun c => decide (c ≠ 0) && !(decide (0xd800 ≤ c) && decide (c ≤ 0xdfff))

/-- `hashlib.sha256(...).hexdigest()`, assumed injective. -/
structure Sha256 where
  hexdigest : List Nat → PyStr
  injective : Function.Injective hexdigest
  ascii : ∀ bytes, isAscii (hexdigest bytes) = true

structure McpTokenRow where
  id : String
  userId : String
  tokenPrefix : PyStr
  tokenHash : PyStr
  label : String
  scopes : Option (List String)
  revokedAt : Option Nat
  deriving DecidableEq

def McpTokenRow.isActive (r : McpTokenRow) : Bool := r.revokedAt.isNone

def McpTokenRow.revoked (now : Nat) (r : McpTokenRow) : McpTokenRow := { r with revokedAt := some now }

/-- The table, with its primary key and the partial unique index on the prefixes. -/
structure McpTokenTable where
  rows : List McpTokenRow
  ids_nodup : (rows.map McpTokenRow.id).Nodup
  active_nodup : ((rows.filter McpTokenRow.isActive).map McpTokenRow.tokenPrefix).Nodup
  prefix_storable : ∀ r ∈ rows, storable r.tokenPrefix = true

/-! ## Tokens -/

def tokenPrefixTag : PyStr := codes "lmcp_"

def lookupPrefixLen : Nat := 16

/-- The lower-case alphabet of RFC 4648. -/
def base32Char (bits : List Bool) : Nat :=
  let v := bits.foldl (fun v b => 2 * v + b.toNat) 0
  if v < 26 then 97 + v else 50 + (v - 26)

/-- Five bits a character, the last ones filled with zeros; no padding. -/
def base32Bits : List Bool → PyStr
  | a :: b :: c :: d :: e :: rest => base32Char [a, b, c, d, e] :: base32Bits rest
  | [a, b, c, d] => [base32Char [a, b, c, d, false]]
  | [a, b, c] => [base32Char [a, b, c, false, false]]
  | [a, b] => [base32Char [a, b, false, false, false]]
  | [a] => [base32Char [a, false, false, false, false]]
  | [] => []

def byteBits (b : UInt8) : List Bool := (List.range 8).map fun i => b.toNat.testBit (7 - i)

/-- `base64.b32encode(raw).rstrip("=").lower()`. -/
def b32encode (raw : List UInt8) : PyStr := base32Bits (raw.flatMap byteBits)

/-- What one attempt draws. -/
structure Draw where
  tokenId : String
  /-- `secrets.token_bytes(28)`. -/
  raw : List UInt8
  raw_length : raw.length = 28

def generatePlaintext (d : Draw) : PyStr × PyStr :=
  let body := b32encode d.raw
  (tokenPrefixTag ++ body, body.take lookupPrefixLen)

inductive TokenErr where
  | unicodeEncodeError
  | nonAsciiComparison
  | storage
  deriving DecidableEq

/-- `.encode("ascii")`. -/
def encodeAscii (s : PyStr) : Except TokenErr (List Nat) := if isAscii s then .ok s else .error .unicodeEncodeError

/-- `_hash_plaintext`. -/
def hashPlaintext (sha : Sha256) (plaintext : PyStr) : Except TokenErr PyStr :=
  (encodeAscii plaintext).map sha.hexdigest

/-- `hmac.compare_digest` of strings. -/
def compareDigest (a b : PyStr) : Except TokenErr Bool :=
  if isAscii a && isAscii b then .ok (decide (a = b)) else .error .nonAsciiComparison

/-! ## Rows -/

namespace McpTokenTable

/-- `SELECT * FROM mcp_tokens WHERE token_prefix = %s AND revoked_at IS NULL`. -/
def fetchActive (t : McpTokenTable) (tokenPrefix : PyStr) : Except TokenErr (Option McpTokenRow) :=
  if storable tokenPrefix then
    .ok (t.rows.find? fun r => r.isActive && decide (r.tokenPrefix = tokenPrefix))
  else .error .storage

inductive InsertErr where
  | uniqueViolation
  | refused

/-- The row is new and active, its label has 1 to 64 characters. -/
def insert (t : McpTokenTable) (row : McpTokenRow) : Except InsertErr McpTokenTable :=
  if hrow : 1 ≤ row.label.length ∧ row.label.length ≤ 64 ∧ storable row.tokenPrefix = true then
    if hnew : row.id ∉ t.rows.map McpTokenRow.id ∧
        row.tokenPrefix ∉ (t.rows.filter McpTokenRow.isActive).map McpTokenRow.tokenPrefix then
      .ok {
        rows := t.rows ++ [row]
        ids_nodup := by
          rw [List.map_append, List.map_singleton]
          exact List.nodup_append.mpr ⟨t.ids_nodup, List.nodup_singleton _, fun a ha b hb hab =>
            hnew.1 (List.mem_singleton.mp hb ▸ hab ▸ ha)⟩
        active_nodup := by
          have hone : ([row].filter McpTokenRow.isActive).Sublist [row] := List.filter_sublist
          have hsub := hone.map McpTokenRow.tokenPrefix
          rw [List.filter_append, List.map_append]
          refine List.nodup_append.mpr ⟨t.active_nodup, (List.nodup_singleton _).sublist hsub, ?_⟩
          intro a ha b hb hab
          have hb := hsub.subset hb
          rw [List.map_singleton, List.mem_singleton] at hb
          exact hnew.2 (hb ▸ hab ▸ ha)
        prefix_storable := by
          intro r hr
          rw [List.mem_append, List.mem_singleton] at hr
          rcases hr with hr | rfl
          · exact t.prefix_storable r hr
          · exact hrow.2.2 }
    else .error .uniqueViolation
  else .error .refused

/-- `UPDATE mcp_tokens SET revoked_at = NOW() WHERE ... AND revoked_at IS NULL`. -/
def revokedRows (p : McpTokenRow → Bool) (now : Nat) (rows : List McpTokenRow) : List McpTokenRow :=
  Table.updateWhere (fun r => p r && r.isActive) (McpTokenRow.revoked now) rows

theorem active_revokedRows (p : McpTokenRow → Bool) (now : Nat) (rows : List McpTokenRow) :
    ((revokedRows p now rows).filter McpTokenRow.isActive).Sublist (rows.filter McpTokenRow.isActive) := by
  simp only [revokedRows, Table.updateWhere]
  induction rows with
  | nil => exact List.Sublist.refl _
  | cons r rows ih =>
    cases hactive : r.isActive with
    | false => simpa [hactive] using ih
    | true =>
      cases hp : p r with
      | false => simpa [hactive, hp] using ih
      | true =>
        have hrevoked : (r.revoked now).isActive = false := rfl
        simpa [hactive, hp, hrevoked] using ih.cons r

def revokeWhere (p : McpTokenRow → Bool) (now : Nat) (t : McpTokenTable) : McpTokenTable where
  rows := revokedRows p now t.rows
  ids_nodup := by
    have hids : (revokedRows p now t.rows).map McpTokenRow.id = t.rows.map McpTokenRow.id :=
      Table.map_updateWhere fun _ => rfl
    rw [hids]
    exact t.ids_nodup
  active_nodup := t.active_nodup.sublist ((active_revokedRows p now t.rows).map _)
  prefix_storable := by
    intro r hr
    rcases Table.mem_updateWhere.mp hr with ⟨x, hx, -, rfl⟩ | ⟨hr, -⟩
    · exact t.prefix_storable x hx
    · exact t.prefix_storable r hr

end McpTokenTable

/-! ## The service -/

inductive MintErr where
  | raised (e : TokenErr)
  | insertRefused
  | budgetExhausted

def mintCollisionBudget : Nat := 5

def Draw.row (d : Draw) (userId label : String) (scopes : Option (List String)) (tokenHash : PyStr) : McpTokenRow where
  id := d.tokenId
  userId := userId
  tokenPrefix := (generatePlaintext d).2
  tokenHash := tokenHash
  label := label
  scopes := scopes
  revokedAt := none

/-- The attempts that are left. -/
def mintFrom (sha : Sha256) (t : McpTokenTable) (userId label : String) (scopes : Option (List String)) :
    List Draw → Except MintErr (McpTokenTable × McpTokenRow × PyStr)
  | [] => .error .budgetExhausted
  | d :: draws =>
    match hashPlaintext sha (generatePlaintext d).1 with
    | .error e => .error (.raised e)
    | .ok tokenHash =>
      match t.insert (d.row userId label scopes tokenHash) with
      | .ok t' => .ok (t', d.row userId label scopes tokenHash, (generatePlaintext d).1)
      | .error .uniqueViolation => mintFrom sha t userId label scopes draws
      | .error .refused => .error .insertRefused

def mint (sha : Sha256) (t : McpTokenTable) (userId label : String) (scopes : Option (List String))
    (draws : List Draw) : Except MintErr (McpTokenTable × McpTokenRow × PyStr) :=
  mintFrom sha t userId label scopes (draws.take mintCollisionBudget)

/-- The string is long enough to have a prefix. -/
def hasTokenFormat (presented : PyStr) : Bool :=
  tokenPrefixTag.isPrefixOf presented && decide (lookupPrefixLen ≤ (presented.drop tokenPrefixTag.length).length)

def prefixOf (presented : PyStr) : PyStr := (presented.drop tokenPrefixTag.length).take lookupPrefixLen

def verify (sha : Sha256) (t : McpTokenTable) (presented : PyStr) : Except TokenErr (Option McpTokenRow) :=
  if hasTokenFormat presented then
    match t.fetchActive (prefixOf presented) with
    | .error _ => .ok none
    | .ok none => .ok none
    | .ok (some row) => do
      let presentedHash ← hashPlaintext sha presented
      let same ← compareDigest presentedHash row.tokenHash
      return if same then some row else none
  else .ok none

def revoke (tokenId : String) (now : Nat) (t : McpTokenTable) : McpTokenTable :=
  t.revokeWhere (fun r => r.id == tokenId) now

def cascadeRevokeForUser (userId : String) (now : Nat) (t : McpTokenTable) : McpTokenTable :=
  t.revokeWhere (fun r => r.userId == userId) now

/-! ## Looking up -/

section Lookup

variable {sha : Sha256} {t : McpTokenTable} {presented : PyStr} {row : McpTokenRow}

/-- The unrevoked row that the prefix of the string finds. -/
structure Candidate (t : McpTokenTable) (presented : PyStr) (row : McpTokenRow) : Prop where
  format : hasTokenFormat presented = true
  mem : row ∈ t.rows
  active : row.isActive = true
  sameprefix : row.tokenPrefix = prefixOf presented

theorem Candidate.unique {row' : McpTokenRow} (h : Candidate t presented row) (h' : Candidate t presented row') :
    row = row' :=
  List.inj_on_of_nodup_map t.active_nodup (List.mem_filter.mpr ⟨h.mem, h.active⟩)
    (List.mem_filter.mpr ⟨h'.mem, h'.active⟩) (h.sameprefix.trans h'.sameprefix.symm)

theorem Candidate.fetch (h : Candidate t presented row) : t.fetchActive (prefixOf presented) = .ok (some row) := by
  have hstorable : storable (prefixOf presented) = true := h.sameprefix ▸ t.prefix_storable row h.mem
  rw [McpTokenTable.fetchActive, if_pos hstorable]
  cases hfind : t.rows.find? fun r => r.isActive && decide (r.tokenPrefix = prefixOf presented) with
  | none =>
    have hno := List.find?_eq_none.mp hfind row h.mem
    simp [h.active, h.sameprefix] at hno
  | some row' =>
    have hfound := List.find?_some hfind
    rw [Bool.and_eq_true, decide_eq_true_eq] at hfound
    rw [h.unique ⟨h.format, List.mem_of_find?_eq_some hfind, hfound.1, hfound.2⟩]

theorem verify_of_none (h : ∀ row, ¬ Candidate t presented row) : verify sha t presented = .ok none := by
  rw [verify]
  cases hformat : hasTokenFormat presented with
  | false => rfl
  | true =>
    rw [if_pos rfl, McpTokenTable.fetchActive]
    cases hstorable : storable (prefixOf presented) with
    | false => rfl
    | true =>
      cases hfind : t.rows.find? fun r => r.isActive && decide (r.tokenPrefix = prefixOf presented) with
      | none => rfl
      | some row =>
        have hfound := List.find?_some hfind
        rw [Bool.and_eq_true, decide_eq_true_eq] at hfound
        exact absurd ⟨hformat, List.mem_of_find?_eq_some hfind, hfound.1, hfound.2⟩ (h row)

theorem verify_of_candidate (h : Candidate t presented row) : verify sha t presented =
    (hashPlaintext sha presented).bind fun presentedHash =>
      (compareDigest presentedHash row.tokenHash).map fun same => if same then some row else none := by
  rw [verify, if_pos h.format, h.fetch]
  rfl

end Lookup

/-! ## One call -/

/-- The row is unrevoked, has the prefix of the string and carries its hash. -/
def Carries (sha : Sha256) (t : McpTokenTable) (presented : PyStr) (row : McpTokenRow) : Prop :=
  Candidate t presented row ∧ hashPlaintext sha presented = .ok row.tokenHash

/-- The call does not raise, and returns a row exactly if one carries the string, and then such a row. -/
def VerifiesExactly (sha : Sha256) (t : McpTokenTable) (presented : PyStr) : Prop :=
  ∃ result, verify sha t presented = .ok result ∧ (∀ row, result = some row → Carries sha t presented row) ∧
    ((∃ row, Carries sha t presented row) → result.isSome = true)

/-- Against an unrevoked row with its prefix, the string can be hashed and the hashes can be compared. -/
def Comparable (t : McpTokenTable) (presented : PyStr) : Prop :=
  ∀ row, Candidate t presented row → isAscii presented = true ∧ isAscii row.tokenHash = true

theorem verify_comparable {sha : Sha256} {t : McpTokenTable} {presented : PyStr} {row : McpTokenRow}
    (h : Candidate t presented row) (hascii : isAscii presented = true) (hhash : isAscii row.tokenHash = true) :
    verify sha t presented = .ok (if sha.hexdigest presented = row.tokenHash then some row else none) := by
  have hencoded : hashPlaintext sha presented = .ok (sha.hexdigest presented) := by
    rw [hashPlaintext, encodeAscii, if_pos hascii]
    rfl
  have hcompared : compareDigest (sha.hexdigest presented) row.tokenHash =
      .ok (decide (sha.hexdigest presented = row.tokenHash)) := by
    rw [compareDigest, sha.ascii, hhash]
    rfl
  rw [verify_of_candidate h, hencoded]
  simp [Except.bind, hcompared, Except.map]

theorem verifiesExactly_iff (sha : Sha256) (t : McpTokenTable) (presented : PyStr) :
    VerifiesExactly sha t presented ↔ Comparable t presented := by
  constructor
  · rintro ⟨result, hresult, -, -⟩ row hrow
    rw [verify_of_candidate hrow, hashPlaintext, encodeAscii] at hresult
    cases hascii : isAscii presented with
    | false =>
      rw [hascii] at hresult
      cases hresult
    | true =>
      refine ⟨rfl, ?_⟩
      rw [hascii] at hresult
      cases hhash : isAscii row.tokenHash with
      | true => rfl
      | false => simp [Except.map, Except.bind, compareDigest, hhash] at hresult
  · intro hcomparable
    by_cases hcandidate : ∃ row, Candidate t presented row
    · obtain ⟨row, hrow⟩ := hcandidate
      obtain ⟨hascii, hhash⟩ := hcomparable row hrow
      have hencoded : hashPlaintext sha presented = .ok (sha.hexdigest presented) := by
        rw [hashPlaintext, encodeAscii, if_pos hascii]
        rfl
      refine ⟨_, verify_comparable hrow hascii hhash, ?_, ?_⟩
      · intro row' hrow'
        split at hrow'
        · rename_i hsame
          cases hrow'
          exact ⟨hrow, hencoded.trans (congrArg Except.ok hsame)⟩
        · cases hrow'
      · rintro ⟨row', hrow', hcarries⟩
        have hsame : sha.hexdigest presented = row.tokenHash := by
          rw [hrow.unique hrow']
          exact Except.ok.inj (hencoded.symm.trans hcarries)
        rw [if_pos hsame]
        rfl
    · refine ⟨none, verify_of_none fun row hrow => hcandidate ⟨row, hrow⟩, ?_, ?_⟩
      · intro row hrow
        cases hrow
      · rintro ⟨row, hrow, -⟩
        exact absurd ⟨row, hrow⟩ hcandidate

/-! ## Histories -/

/-- What a mint handed out. -/
structure Minted where
  tokenId : String
  userId : String
  plaintext : PyStr

structure TokenRun where
  table : McpTokenTable
  minted : List Minted

inductive TokenOp where
  | mint (userId label : String) (scopes : Option (List String)) (draws : List Draw)
  | revoke (tokenId : String) (now : Nat)
  | cascadeRevoke (userId : String) (now : Nat)

def tokenStep (sha : Sha256) : TokenOp → TokenRun → Option TokenRun
  | .mint userId label scopes draws, c =>
    match mint sha c.table userId label scopes draws with
    | .ok (table, row, plaintext) => some ⟨table, c.minted ++ [⟨row.id, row.userId, plaintext⟩]⟩
    | .error _ => some c
  | .revoke tokenId now, c => some { c with table := revoke tokenId now c.table }
  | .cascadeRevoke userId now, c => some { c with table := cascadeRevokeForUser userId now c.table }

def noTokens : TokenRun where
  table := ⟨[], List.nodup_nil, List.nodup_nil, fun r hr => by cases hr⟩
  minted := []

theorem base32Char_ascii : ∀ a b c d e : Bool, base32Char [a, b, c, d, e] < 128 := by decide

theorem base32Bits_ascii (bits : List Bool) : ∀ c ∈ base32Bits bits, c < 128 := by
  fun_induction base32Bits bits with
  | case1 a b c d e rest ih =>
    rw [List.forall_mem_cons]
    exact ⟨base32Char_ascii a b c d e, ih⟩
  | case2 a b c d => simpa using base32Char_ascii a b c d false
  | case3 a b c => simpa using base32Char_ascii a b c false false
  | case4 a b => simpa using base32Char_ascii a b false false false
  | case5 a => simpa using base32Char_ascii a false false false false
  | case6 => simp

theorem base32Bits_length (bits : List Bool) : (base32Bits bits).length = (bits.length + 4) / 5 := by
  fun_induction base32Bits bits with
  | case1 a b c d e rest ih =>
    simp only [List.length_cons, ih]
    omega
  | case2 a b c d => simp
  | case3 a b c => simp
  | case4 a b => simp
  | case5 a => simp
  | case6 => rfl

theorem Draw.body_length (d : Draw) : (b32encode d.raw).length = 45 := by
  have hbits : (d.raw.flatMap byteBits).length = 224 := by
    rw [List.length_flatMap]
    have hbyte : d.raw.map (fun b => (byteBits b).length) = List.replicate d.raw.length 8 :=
      List.eq_replicate_iff.mpr ⟨List.length_map _, by simp [byteBits]⟩
    rw [hbyte, d.raw_length]
    rfl
  rw [b32encode, base32Bits_length, hbits]

theorem generatePlaintext_format (d : Draw) : hasTokenFormat (generatePlaintext d).1 = true := by
  have hbody : (generatePlaintext d).1.drop tokenPrefixTag.length = b32encode d.raw := List.drop_left
  rw [hasTokenFormat, Bool.and_eq_true, decide_eq_true_eq]
  constructor
  · exact List.isPrefixOf_iff_prefix.mpr (List.prefix_append _ _)
  · rw [hbody, d.body_length]
    decide

theorem generatePlaintext_prefix (d : Draw) : (generatePlaintext d).2 = prefixOf (generatePlaintext d).1 := by
  simp only [prefixOf, generatePlaintext, List.drop_left]

theorem generatePlaintext_ascii (d : Draw) : isAscii (generatePlaintext d).1 = true := by
  have htag : isAscii tokenPrefixTag = true := by decide
  have hbody : isAscii (b32encode d.raw) = true := by
    rw [isAscii, List.all_eq_true]
    intro c hc
    exact decide_eq_true (base32Bits_ascii _ c hc)
  simp only [isAscii] at htag hbody
  simp only [isAscii, generatePlaintext, List.all_append, htag, hbody, Bool.and_self]

/-- The row is the one that the token was minted with. -/
structure Minted.Matches (sha : Sha256) (m : Minted) (r : McpTokenRow) : Prop where
  id : r.id = m.tokenId
  user : r.userId = m.userId
  hash : r.tokenHash = sha.hexdigest m.plaintext
  sameprefix : r.tokenPrefix = prefixOf m.plaintext
  format : hasTokenFormat m.plaintext = true
  ascii : isAscii m.plaintext = true

theorem insert_rows {t t' : McpTokenTable} {row : McpTokenRow} (h : t.insert row = .ok t') :
    t'.rows = t.rows ++ [row] := by
  rw [McpTokenTable.insert] at h
  split at h
  · split at h
    · cases h
      rfl
    · cases h
  · cases h

theorem mint_rows {sha : Sha256} {t t' : McpTokenTable} {userId label : String} {scopes : Option (List String)}
    {draws : List Draw} {row : McpTokenRow} {plaintext : PyStr}
    (h : mint sha t userId label scopes draws = .ok (t', row, plaintext)) :
    t'.rows = t.rows ++ [row] ∧ Minted.Matches sha ⟨row.id, row.userId, plaintext⟩ row := by
  rw [mint] at h
  generalize draws.take mintCollisionBudget = left at h
  induction left with
  | nil => cases h
  | cons d draws ih =>
    have hascii := generatePlaintext_ascii d
    have hhash : hashPlaintext sha (generatePlaintext d).1 = .ok (sha.hexdigest (generatePlaintext d).1) := by
      rw [hashPlaintext, encodeAscii, if_pos hascii]
      rfl
    rw [mintFrom, hhash] at h
    simp only at h
    split at h
    · rename_i t₁ hinsert
      cases h
      exact ⟨insert_rows hinsert, rfl, rfl, rfl, generatePlaintext_prefix d, generatePlaintext_format d, hascii⟩
    · exact ih h
    · cases h

/-- The rows are those of the tokens that were minted. -/
structure RowsMinted (sha : Sha256) (c : TokenRun) : Prop where
  rows : ∀ r ∈ c.table.rows, ∃ m ∈ c.minted, m.Matches sha r
  minted : ∀ m ∈ c.minted, ∃ r ∈ c.table.rows, m.Matches sha r

theorem Minted.Matches.revoked {sha : Sha256} {m : Minted} {r : McpTokenRow} (h : m.Matches sha r) (now : Nat) :
    m.Matches sha (r.revoked now) := ⟨h.id, h.user, h.hash, h.sameprefix, h.format, h.ascii⟩

theorem RowsMinted.revokeWhere {sha : Sha256} {c : TokenRun} (h : RowsMinted sha c) (p : McpTokenRow → Bool) (now : Nat) :
    RowsMinted sha { c with table := c.table.revokeWhere p now } where
  rows := by
    intro r hr
    rcases Table.mem_updateWhere.mp hr with ⟨x, hx, -, rfl⟩ | ⟨hr, -⟩
    · obtain ⟨m, hm, hmatch⟩ := h.rows x hx
      exact ⟨m, hm, hmatch.revoked now⟩
    · exact h.rows r hr
  minted := by
    intro m hm
    obtain ⟨r, hr, hmatch⟩ := h.minted m hm
    cases hp : p r && r.isActive with
    | true => exact ⟨r.revoked now, Table.mem_updateWhere.mpr (Or.inl ⟨r, hr, hp, rfl⟩), hmatch.revoked now⟩
    | false => exact ⟨r, Table.mem_updateWhere.mpr (Or.inr ⟨hr, hp⟩), hmatch⟩

theorem tokenStep_minted {sha : Sha256} {op : TokenOp} {c c' : TokenRun} (h : RowsMinted sha c)
    (hstep : tokenStep sha op c = some c') : RowsMinted sha c' := by
  cases op with
  | mint userId label scopes draws =>
    simp only [tokenStep] at hstep
    split at hstep
    · rename_i t row plaintext hmint
      cases hstep
      obtain ⟨hrows, hmatch⟩ := mint_rows hmint
      constructor
      · intro r hr
        rw [hrows, List.mem_append, List.mem_singleton] at hr
        rcases hr with hr | rfl
        · obtain ⟨m, hm, hold⟩ := h.rows r hr
          exact ⟨m, List.mem_append_left _ hm, hold⟩
        · exact ⟨_, List.mem_append_right _ (List.mem_singleton_self _), hmatch⟩
      · intro m hm
        rw [List.mem_append, List.mem_singleton] at hm
        rw [hrows]
        rcases hm with hm | rfl
        · obtain ⟨r, hr, hold⟩ := h.minted m hm
          exact ⟨r, List.mem_append_left _ hr, hold⟩
        · exact ⟨row, List.mem_append_right _ (List.mem_singleton_self _), hmatch⟩
    · cases hstep
      exact h
  | revoke tokenId now =>
    cases hstep
    exact h.revokeWhere _ now
  | cascadeRevoke userId now =>
    cases hstep
    exact h.revokeWhere _ now

theorem reaches_minted {sha : Sha256} {c : TokenRun}
    (h : Reaches (tokenStep sha) (fun _ _ => True) noTokens c) : RowsMinted sha c := by
  have hstart : RowsMinted sha noTokens := ⟨List.forall_mem_nil _, List.forall_mem_nil _⟩
  exact h.invariant hstart fun _ _ _ hinv _ hstep => tokenStep_minted hinv hstep

/-- The call does not raise, and returns the row of an unrevoked token exactly if the string is that token. -/
def VerifiesMinted (sha : Sha256) (c : TokenRun) (presented : PyStr) : Prop :=
  ∃ result, verify sha c.table presented = .ok result ∧ ∀ row, result = some row ↔
    row ∈ c.table.rows ∧ row.isActive = true ∧
      ∃ m ∈ c.minted, m.tokenId = row.id ∧ m.userId = row.userId ∧ m.plaintext = presented

theorem RowsMinted.carries_iff {sha : Sha256} {c : TokenRun} (h : RowsMinted sha c) {presented : PyStr}
    {row : McpTokenRow} : Carries sha c.table presented row ↔ row ∈ c.table.rows ∧ row.isActive = true ∧
      ∃ m ∈ c.minted, m.tokenId = row.id ∧ m.userId = row.userId ∧ m.plaintext = presented := by
  constructor
  · rintro ⟨hrow, hhash⟩
    obtain ⟨m, hm, hmatch⟩ := h.rows row hrow.mem
    refine ⟨hrow.mem, hrow.active, m, hm, hmatch.id.symm, hmatch.user.symm, ?_⟩
    rw [hashPlaintext, encodeAscii] at hhash
    cases hascii : isAscii presented with
    | false =>
      rw [hascii] at hhash
      cases hhash
    | true =>
      rw [hascii] at hhash
      exact sha.injective (hmatch.hash.symm.trans (Except.ok.inj hhash).symm)
  · rintro ⟨hrow, hactive, m, hm, hid, -, rfl⟩
    obtain ⟨r, hr, hmatch⟩ := h.minted m hm
    have hsame : r = row := List.inj_on_of_nodup_map c.table.ids_nodup hr hrow (hmatch.id.trans hid)
    subst hsame
    refine ⟨⟨hmatch.format, hr, hactive, hmatch.sameprefix⟩, ?_⟩
    rw [hashPlaintext, encodeAscii, if_pos hmatch.ascii, hmatch.hash]
    rfl

theorem RowsMinted.verifies_iff {sha : Sha256} {c : TokenRun} (h : RowsMinted sha c) {presented : PyStr} :
    VerifiesMinted sha c presented ↔ VerifiesExactly sha c.table presented := by
  constructor
  · rintro ⟨result, hresult, hrows⟩
    refine ⟨result, hresult, ?_, ?_⟩
    · intro row hrow
      exact h.carries_iff.mpr ((hrows row).mp hrow)
    · rintro ⟨row, hrow⟩
      rw [(hrows row).mpr (h.carries_iff.mp hrow)]
      rfl
  · rintro ⟨result, hresult, hsound, hcomplete⟩
    refine ⟨result, hresult, ?_⟩
    intro row
    rw [← h.carries_iff]
    constructor
    · exact hsound row
    · intro hrow
      obtain ⟨row', hrow'⟩ := Option.isSome_iff_exists.mp (hcomplete ⟨row, hrow⟩)
      rw [hrow', (hsound row' hrow').1.unique hrow.1]

theorem verify_exact (sha : Sha256) :
    (∀ t presented, VerifiesExactly sha t presented ↔ Comparable t presented) ∧
    ∀ c, Reaches (tokenStep sha) (fun _ _ => True) noTokens c → ∀ presented,
      (VerifiesMinted sha c presented ↔ ∀ row, Candidate c.table presented row → isAscii presented = true) := by
  refine ⟨verifiesExactly_iff sha, ?_⟩
  intro c hc presented
  have hminted := reaches_minted hc
  rw [hminted.verifies_iff, verifiesExactly_iff]
  constructor
  · intro hcomparable row hrow
    exact (hcomparable row hrow).1
  · intro hascii row hrow
    obtain ⟨m, -, hmatch⟩ := hminted.rows row hrow.mem
    exact ⟨hascii row hrow, hmatch.hash ▸ sha.ascii _⟩

/-! ## A string that is not ASCII -/

/-- Each number in unary. -/
def unary (bytes : List Nat) : PyStr := bytes.flatMap fun n => List.replicate n 49 ++ [48]

theorem unary_cons_injective {n m : Nat} {a b : PyStr}
    (h : List.replicate n 49 ++ 48 :: a = List.replicate m 49 ++ 48 :: b) : n = m ∧ a = b := by
  induction n generalizing m with
  | zero =>
    cases m with
    | zero => simpa using h
    | succ m => simp [List.replicate_succ] at h
  | succ n ih =>
    cases m with
    | zero => simp [List.replicate_succ] at h
    | succ m =>
      simp only [List.replicate_succ, List.cons_append, List.cons.injEq, true_and] at h
      obtain ⟨rfl, hab⟩ := ih h
      exact ⟨rfl, hab⟩

theorem unary_injective : Function.Injective unary := by
  intro a
  induction a with
  | nil =>
    intro b h
    cases b with
    | nil => rfl
    | cons m b => simp [unary] at h
  | cons n a ih =>
    intro b h
    cases b with
    | nil => simp [unary] at h
    | cons m b =>
      simp only [unary, List.flatMap_cons, List.append_assoc, List.singleton_append] at h
      obtain ⟨rfl, hab⟩ := unary_cons_injective h
      rw [ih hab]

def unarySha : Sha256 where
  hexdigest := unary
  injective := unary_injective
  ascii := by
    intro bytes
    simp only [isAscii, unary, List.all_flatMap, List.all_append, List.all_replicate]
    simp

/-- The first of ann's tokens, all of its bytes zero. -/
def laptopDraw : Draw := ⟨"t0", List.replicate 28 0, rfl⟩

def laptop : Option TokenRun := tokenStep unarySha (.mint "ann" "laptop" none [laptopDraw]) noTokens

/-- The prefix of the token, and an accented letter. -/
def accented : PyStr := tokenPrefixTag ++ (generatePlaintext laptopDraw).2 ++ [233]

theorem verify_raises : ∃ c, Reaches (tokenStep unarySha) (fun _ _ => True) noTokens c ∧
    verify unarySha c.table accented = .error .unicodeEncodeError ∧ ¬ VerifiesExactly unarySha c.table accented := by
  have hsome : laptop.isSome = true := by decide +kernel
  obtain ⟨c, hc⟩ := Option.isSome_iff_exists.mp hsome
  have hraises : laptop.map (fun c => verify unarySha c.table accented) = some (.error .unicodeEncodeError) := by
    decide +kernel
  rw [hc, Option.map_some, Option.some_inj] at hraises
  refine ⟨c, .single trivial hc, hraises, ?_⟩
  rintro ⟨result, hresult, -⟩
  rw [hraises] at hresult
  cases hresult

end McpTokens

end Lumogis
