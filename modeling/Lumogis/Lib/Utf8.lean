import Mathlib.Data.List.Basic

/-!
# Lib.Utf8

The streaming UTF-8 decoder of the Encoding Standard: bytes in, characters out, and what is left of
a character that a chunk cuts kept for the next one. A byte that fits no character gives U+FFFD, and
a byte order mark at the start gives nothing. Text of ASCII is decoded byte by byte, however it is
cut (`decode_ascii`).
-/

namespace Utf8

structure Decoder where
  codePoint : Nat := 0
  /-- Bytes of the character still to come. -/
  needed : Nat := 0
  lower : Nat := 0x80
  upper : Nat := 0xbf
  /-- A character has been given. -/
  started : Bool := false

def Decoder.emit (d : Decoder) (c : Char) : Decoder × List Char :=
  ({ started := true }, if !d.started && c == '\uFEFF' then [] else [c])

/-- A byte where a character starts. -/
def Decoder.first (d : Decoder) (b : Nat) : Decoder × List Char :=
  if b ≤ 0x7f then d.emit (Char.ofNat b)
  else if 0xc2 ≤ b ∧ b ≤ 0xdf then ({ d with codePoint := b % 0x20, needed := 1 }, [])
  else if 0xe0 ≤ b ∧ b ≤ 0xef then
    ({ d with codePoint := b % 0x10, needed := 2, lower := if b = 0xe0 then 0xa0 else 0x80,
              upper := if b = 0xed then 0x9f else 0xbf }, [])
  else if 0xf0 ≤ b ∧ b ≤ 0xf4 then
    ({ d with codePoint := b % 0x08, needed := 3, lower := if b = 0xf0 then 0x90 else 0x80,
              upper := if b = 0xf4 then 0x8f else 0xbf }, [])
  else d.emit '\uFFFD'

def Decoder.push (d : Decoder) (byte : UInt8) : Decoder × List Char :=
  let b := byte.toNat
  if d.needed = 0 then d.first b
  else if b < d.lower ∨ d.upper < b then
    -- The byte is read again as the start of the next character.
    let bad := d.emit '\uFFFD'
    let next := bad.1.first b
    (next.1, bad.2 ++ next.2)
  else
    let codePoint := d.codePoint * 0x40 + b % 0x40
    if d.needed = 1 then d.emit (Char.ofNat codePoint)
    else ({ d with codePoint := codePoint, needed := d.needed - 1, lower := 0x80, upper := 0xbf }, [])

/-- `decoder.decode(value, { stream: true })`. -/
def Decoder.decode (d : Decoder) : List UInt8 → Decoder × List Char
  | [] => (d, [])
  | b :: bs =>
    let one := d.push b
    let more := one.1.decode bs
    (more.1, one.2 ++ more.2)

def encode (cs : List Char) : List UInt8 := cs.flatMap String.utf8EncodeChar

/-! ## ASCII -/

def Ascii (cs : List Char) : Prop := ∀ c ∈ cs, c.toNat ≤ 0x7f

theorem ascii_of_all {cs : List Char} (h : (cs.all fun c => decide (c.toNat ≤ 0x7f)) = true) : Ascii cs := by
  intro c hc
  exact of_decide_eq_true (List.all_eq_true.mp h c hc)

theorem encode_ascii {cs : List Char} (h : Ascii cs) : encode cs = cs.map fun c => UInt8.ofNat c.toNat := by
  induction cs with
  | nil => rfl
  | cons c cs ih =>
    have hc : c.toNat ≤ 0x7f := h c List.mem_cons_self
    have hone : String.utf8EncodeChar c = [UInt8.ofNat c.toNat] := by
      have hval : c.val.toNat ≤ 127 := hc
      simp only [String.utf8EncodeChar, hval, if_true]
      rfl
    rw [encode, List.flatMap_cons, hone]
    exact congrArg _ (ih fun c' hc' => h c' (List.mem_cons_of_mem c hc'))

theorem push_ascii {d : Decoder} (hd : d.needed = 0) {c : Char} (hc : c.toNat ≤ 0x7f) :
    d.push (UInt8.ofNat c.toNat) = ({ started := true }, [c]) := by
  have hnat : (UInt8.ofNat c.toNat).toNat = c.toNat := by
    rw [UInt8.toNat_ofNat']
    omega
  have hmark : (c == '\uFEFF') = false := by
    rw [beq_eq_false_iff_ne]
    rintro rfl
    exact absurd hc (by decide)
  simp [Decoder.push, hd, hnat, Decoder.first, hc, Decoder.emit, Char.ofNat_toNat, hmark]

/-- Text of ASCII is decoded as it is, and leaves nothing. -/
theorem decode_ascii {d : Decoder} (hd : d.needed = 0) {cs : List Char} (h : Ascii cs) :
    (d.decode (cs.map fun c => UInt8.ofNat c.toNat)).1.needed = 0 ∧
      (d.decode (cs.map fun c => UInt8.ofNat c.toNat)).2 = cs := by
  induction cs generalizing d with
  | nil => exact ⟨hd, rfl⟩
  | cons c cs ih =>
    have hpush := push_ascii hd (h c List.mem_cons_self)
    have hrest := ih (d := { started := true }) rfl fun c' hc' => h c' (List.mem_cons_of_mem c hc')
    simp only [List.map_cons, Decoder.decode, hpush]
    exact ⟨hrest.1, by rw [hrest.2]; rfl⟩

end Utf8
