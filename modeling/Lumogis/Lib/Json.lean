import Mathlib.Data.List.Basic

/-!
# Lib.Json

JSON texts: what Python's `json.dumps` writes (ASCII only, a code point outside the first plane as
two escapes) and what JavaScript's `JSON.parse` reads (strings of UTF-16 code units). A text that is
written reads back unless it has a number that JSON does not know (`parse_dumps`), and it has no
character outside the printable ones of ASCII (`dumps_printable`).
-/

namespace Json

inductive Value (N S : Type) where
  | null
  | bool (b : Bool)
  | num (n : N)
  | str (s : S)
  | arr (items : List (Value N S))
  | obj (members : List (S × Value N S))

/-! ## Strings -/

structure CodePoint where
  val : Nat
  lt : val < 0x110000
  deriving DecidableEq

/-- A string of Python's: code points, a surrogate among them too. -/
abbrev Str := List CodePoint

def CodePoint.ofChar (c : Char) : CodePoint :=
  ⟨c.toNat, by
    have h := c.valid
    simp only [UInt32.isValidChar, Nat.isValidChar] at h
    have : c.toNat = c.val.toNat := rfl
    omega⟩

def Str.ofString (s : String) : Str := s.toList.map CodePoint.ofChar

/-- The code units of one code point. -/
def CodePoint.units (c : CodePoint) : List Nat :=
  if c.val < 0x10000 then [c.val]
  else [0xd800 + (c.val - 0x10000) / 0x400, 0xdc00 + (c.val - 0x10000) % 0x400]

def utf16 (s : Str) : List Nat := s.flatMap CodePoint.units

def hexDigit (n : Nat) : Char := if n < 10 then Char.ofNat (48 + n) else Char.ofNat (87 + n)

def hexVal (c : Char) : Option Nat :=
  if '0' ≤ c ∧ c ≤ '9' then some (c.toNat - 48)
  else if 'a' ≤ c ∧ c ≤ 'f' then some (c.toNat - 87)
  else if 'A' ≤ c ∧ c ≤ 'F' then some (c.toNat - 55)
  else none

/-- `\uXXXX`. -/
def escapeUnit (u : Nat) : List Char :=
  ['\\', 'u', hexDigit (u / 0x1000 % 16), hexDigit (u / 0x100 % 16), hexDigit (u / 0x10 % 16), hexDigit (u % 16)]

def shortEscape (n : Nat) : Option Char :=
  if n = 0x22 then some '"' else if n = 0x5c then some '\\' else if n = 0x0a then some 'n'
  else if n = 0x0d then some 'r' else if n = 0x09 then some 't' else if n = 0x0c then some 'f'
  else if n = 0x08 then some 'b' else none

def escape (c : CodePoint) : List Char :=
  match shortEscape c.val with
  | some e => ['\\', e]
  | none => if 0x20 ≤ c.val ∧ c.val ≤ 0x7e then [Char.ofNat c.val] else c.units.flatMap escapeUnit

def quote (s : Str) : List Char := '"' :: (s.flatMap escape ++ ['"'])

/-- What a backslash and this character stand for. -/
def unescape (c : Char) : Option Nat :=
  if c = '"' then some 0x22 else if c = '\\' then some 0x5c else if c = '/' then some 0x2f
  else if c = 'n' then some 0x0a else if c = 'r' then some 0x0d else if c = 't' then some 0x09
  else if c = 'f' then some 0x0c else if c = 'b' then some 0x08 else none

def hex4 (a b c d : Char) : Option Nat := do
  let a ← hexVal a
  let b ← hexVal b
  let c ← hexVal c
  let d ← hexVal d
  return a * 0x1000 + b * 0x100 + c * 0x10 + d

/-- The rest of a string whose first quote is read. -/
def parseString : List Char → Option (List Nat × List Char)
  | [] => none
  | '"' :: cs => some ([], cs)
  | '\\' :: 'u' :: a :: b :: c :: d :: cs =>
    (hex4 a b c d).bind fun u => (parseString cs).map fun p => (u :: p.1, p.2)
  | '\\' :: c :: cs => (unescape c).bind fun u => (parseString cs).map fun p => (u :: p.1, p.2)
  | c :: cs =>
    if c.toNat < 0x20 ∨ c = '\\' then none
    else (parseString cs).map fun p => ((CodePoint.ofChar c).units ++ p.1, p.2)

/-! ## Numbers -/

inductive NumState
  | start | minus | zero | int | point | frac | e | sign | exp

def exponent (c : Char) : Option NumState := if c = 'e' ∨ c = 'E' then some .e else none

def fraction (c : Char) : Option NumState := if c = '.' then some .point else exponent c

def digits (s : NumState) (c : Char) : Option NumState := if c.isDigit then some s else none

def NumState.step : NumState → Char → Option NumState
  | .start, c => if c = '-' then some .minus else if c = '0' then some .zero else digits .int c
  | .minus, c => if c = '0' then some .zero else digits .int c
  | .zero, c => fraction c
  | .int, c => if c.isDigit then some .int else fraction c
  | .point, c => digits .frac c
  | .frac, c => if c.isDigit then some .frac else exponent c
  | .e, c => if c = '+' ∨ c = '-' then some .sign else digits .exp c
  | .sign, c => digits .exp c
  | .exp, c => digits .exp c

def NumState.accepts : NumState → Bool
  | .zero => true
  | .int => true
  | .frac => true
  | .exp => true
  | _ => false

/-- The text is a number of JSON's grammar. -/
def isNumber (t : List Char) : Bool := (t.foldlM NumState.step .start).any NumState.accepts

def numChar (c : Char) : Bool := c.isDigit || c == '-' || c == '+' || c == '.' || c == 'e' || c == 'E'

/-- A float of Python's: the `repr` of a finite one is a number of JSON's grammar. -/
inductive Float
  | finite (repr : List Char) (h : isNumber repr)
  | nan
  | inf
  | negInf

inductive Number
  | int (n : Int)
  | float (f : Float)

def Number.text : Number → List Char
  | .int (.ofNat n) => Nat.toDigits 10 n
  | .int (.negSucc n) => '-' :: Nat.toDigits 10 (n + 1)
  | .float (.finite repr _) => repr
  | .float .nan => "NaN".toList
  | .float .inf => "Infinity".toList
  | .float .negInf => "-Infinity".toList

/-! ## Texts -/

mutual

/-- `json.dumps`. -/
def dumps : Value Number Str → List Char
  | .null => "null".toList
  | .bool true => "true".toList
  | .bool false => "false".toList
  | .num n => n.text
  | .str s => quote s
  | .arr [] => "[]".toList
  | .arr (v :: vs) => '[' :: (dumps v ++ dumpsItems vs)
  | .obj [] => "\x7b\x7d".toList
  | .obj (m :: ms) => '{' :: (quote m.1 ++ ':' :: ' ' :: (dumps m.2 ++ dumpsMembers ms))

def dumpsItems : List (Value Number Str) → List Char
  | [] => [']']
  | v :: vs => ',' :: ' ' :: (dumps v ++ dumpsItems vs)

def dumpsMembers : List (Str × Value Number Str) → List Char
  | [] => ['}']
  | m :: ms => ',' :: ' ' :: (quote m.1 ++ ':' :: ' ' :: (dumps m.2 ++ dumpsMembers ms))

end

/-- A value of JavaScript's; a number is its text. -/
abbrev JsValue := Value (List Char) (List Nat)

def skip (cs : List Char) : List Char :=
  cs.dropWhile fun c => c == ' ' || c == '\t' || c == '\n' || c == '\r'

def parseNumber (cs : List Char) : Option (JsValue × List Char) :=
  let t := cs.takeWhile numChar
  if isNumber t then some (.num t, cs.dropWhile numChar) else none

/-- A key and the colon after it. -/
def parseKey (cs : List Char) : Option (List Nat × List Char) :=
  match skip cs with
  | '"' :: cs => (parseString cs).bind fun p =>
    match skip p.2 with
    | ':' :: cs => some (p.1, cs)
    | _ => none
  | _ => none

mutual

def parseValue : Nat → List Char → Option (JsValue × List Char)
  | 0, _ => none
  | n + 1, cs =>
    match skip cs with
    | 'n' :: 'u' :: 'l' :: 'l' :: cs => some (.null, cs)
    | 't' :: 'r' :: 'u' :: 'e' :: cs => some (.bool true, cs)
    | 'f' :: 'a' :: 'l' :: 's' :: 'e' :: cs => some (.bool false, cs)
    | '"' :: cs => (parseString cs).map fun p => (.str p.1, p.2)
    | '[' :: cs =>
      match skip cs with
      | ']' :: cs => some (.arr [], cs)
      | cs => (parseValue n cs).bind fun v => (parseItems n v.2).map fun vs => (.arr (v.1 :: vs.1), vs.2)
    | '{' :: cs =>
      match skip cs with
      | '}' :: cs => some (.obj [], cs)
      | cs => (parseKey cs).bind fun k => (parseValue n k.2).bind fun v =>
        (parseMembers n v.2).map fun ms => (.obj ((k.1, v.1) :: ms.1), ms.2)
    | cs => parseNumber cs

/-- The items after the first. -/
def parseItems : Nat → List Char → Option (List JsValue × List Char)
  | 0, _ => none
  | n + 1, cs =>
    match skip cs with
    | ']' :: cs => some ([], cs)
    | ',' :: cs => (parseValue n cs).bind fun v => (parseItems n v.2).map fun vs => (v.1 :: vs.1, vs.2)
    | _ => none

/-- The members after the first. -/
def parseMembers : Nat → List Char → Option (List (List Nat × JsValue) × List Char)
  | 0, _ => none
  | n + 1, cs =>
    match skip cs with
    | '}' :: cs => some ([], cs)
    | ',' :: cs => (parseKey cs).bind fun k => (parseValue n k.2).bind fun v =>
      (parseMembers n v.2).map fun ms => ((k.1, v.1) :: ms.1, ms.2)
    | _ => none

end

/-- `JSON.parse`: each value, item and member takes a character, so the length bounds the depth. -/
def parse (text : List Char) : Option JsValue :=
  (parseValue (text.length + 1) text).bind fun p => if skip p.2 = [] then some p.1 else none

mutual

/-- The value as it is read back; a number that JSON does not know is not. -/
def toJs : Value Number Str → Option JsValue
  | .null => some .null
  | .bool b => some (.bool b)
  | .num n => if isNumber n.text then some (.num n.text) else none
  | .str s => some (.str (utf16 s))
  | .arr items => (toJsItems items).map .arr
  | .obj members => (toJsMembers members).map .obj

def toJsItems : List (Value Number Str) → Option (List JsValue)
  | [] => some []
  | v :: vs => (toJs v).bind fun v => (toJsItems vs).map (v :: ·)

def toJsMembers : List (Str × Value Number Str) → Option (List (List Nat × JsValue))
  | [] => some []
  | m :: ms => (toJs m.2).bind fun v => (toJsMembers ms).map ((utf16 m.1, v) :: ·)

end

/-! ## Strings read back -/

theorem hexVal_hexDigit {n : Nat} (h : n < 16) : hexVal (hexDigit n) = some n := by
  have hall : ∀ n < 16, hexVal (hexDigit n) = some n := by decide
  exact hall n h

theorem parseString_escapeUnit {u : Nat} (h : u < 0x10000) (cs : List Char) :
    parseString (escapeUnit u ++ cs) = (parseString cs).map fun p => (u :: p.1, p.2) := by
  have hhex : hex4 (hexDigit (u / 0x1000 % 16)) (hexDigit (u / 0x100 % 16)) (hexDigit (u / 0x10 % 16))
      (hexDigit (u % 16)) = some u := by
    simp only [hex4, hexVal_hexDigit (Nat.mod_lt _ (by decide : 0 < 16)), Option.bind_eq_bind,
      Option.bind_some, Option.pure_def, Option.some.injEq]
    omega
  simp only [escapeUnit, List.cons_append, List.nil_append, parseString, hhex, Option.bind_some]

theorem units_lt (c : CodePoint) : ∀ u ∈ c.units, u < 0x10000 := by
  intro u hu
  have hc := c.lt
  simp only [CodePoint.units] at hu
  split at hu
  · simp only [List.mem_singleton] at hu
    omega
  · simp only [List.mem_cons, List.not_mem_nil, or_false] at hu
    omega

theorem parseString_escapeUnits {us : List Nat} (h : ∀ u ∈ us, u < 0x10000) (cs : List Char) :
    parseString (us.flatMap escapeUnit ++ cs) = (parseString cs).map fun p => (us ++ p.1, p.2) := by
  induction us with
  | nil => simp
  | cons u us ih =>
    rw [List.flatMap_cons, List.append_assoc, parseString_escapeUnit (h u (by simp)),
      ih fun u' hu' => h u' (by simp [hu']), Option.map_map]
    rfl

theorem shortEscape_spec {n : Nat} {e : Char} (h : shortEscape n = some e) :
    n < 0x80 ∧ e ≠ 'u' ∧ unescape e = some n := by
  have hlt : n < 0x80 := by
    by_contra hge
    have hnone : shortEscape n = none := by
      simp only [shortEscape]
      repeat rw [if_neg (by omega)]
    rw [hnone] at h
    cases h
  have hall : ∀ n < 0x80, (shortEscape n).all fun e => e != 'u' && unescape e == some n := by decide
  have hspec := hall n hlt
  rw [h] at hspec
  simpa [hlt] using hspec

/-- A printable character without a short escape stands for itself. -/
theorem plain_spec {n : Nat} (hlow : 0x20 ≤ n) (hhigh : n ≤ 0x7e) (h : shortEscape n = none) :
    Char.ofNat n ≠ '"' ∧ Char.ofNat n ≠ '\\' ∧ (Char.ofNat n).toNat = n := by
  have hall : ∀ n < 0x7f, 0x20 ≤ n → shortEscape n = none →
      Char.ofNat n ≠ '"' ∧ Char.ofNat n ≠ '\\' ∧ (Char.ofNat n).toNat = n := by decide
  exact hall n (by omega) hlow h

theorem parseString_escape (c : CodePoint) (cs : List Char) :
    parseString (escape c ++ cs) = (parseString cs).map fun p => (c.units ++ p.1, p.2) := by
  rw [escape]
  split
  · rename_i e he
    obtain ⟨hlt, hu, hunescape⟩ := shortEscape_spec he
    have hunits : c.units = [c.val] := by
      rw [CodePoint.units, if_pos (by omega)]
    rw [List.cons_append, List.cons_append, List.nil_append, parseString, hunescape, hunits]
    · rfl
    · intro a b c' d cs' h _
      exact hu h
  · rename_i he
    split
    · rename_i hprint
      obtain ⟨hquote, hslash, hnat⟩ := plain_spec hprint.1 hprint.2 he
      have hself : CodePoint.ofChar (Char.ofNat c.val) = c := by
        cases c
        exact CodePoint.mk.injEq _ _ _ _ |>.mpr hnat
      rw [List.singleton_append, parseString, hself, hnat, if_neg]
      · rintro (hlow | h)
        · omega
        · exact hslash h
      · exact hquote
      · intro a b c' d cs' h _
        exact hslash h
      · intro c' cs' h _
        exact hslash h
    · exact parseString_escapeUnits (units_lt c) cs

theorem parseString_quote (s : Str) (cs : List Char) :
    parseString (s.flatMap escape ++ '"' :: cs) = some (utf16 s, cs) := by
  induction s with
  | nil => rfl
  | cons c s ih =>
    rw [List.flatMap_cons, List.append_assoc, parseString_escape, ih]
    rfl

/-! ## Numbers read back -/

theorem NumState.step_numChar {s s' : NumState} {c : Char} (h : s.step c = some s') : numChar c = true := by
  by_contra hnot
  simp only [numChar, Bool.or_eq_true, beq_iff_eq, not_or] at hnot
  obtain ⟨⟨⟨⟨⟨hdigit, hminus⟩, hplus⟩, hpoint⟩, hlower⟩, hupper⟩ := hnot
  have hzero : c ≠ '0' := fun hc => hdigit (by rw [hc]; rfl)
  cases s <;> simp [NumState.step, digits, fraction, exponent, hdigit, hminus, hplus, hpoint, hlower, hupper,
    hzero] at h

theorem numChar_of_isNumber {t : List Char} (h : isNumber t = true) : ∀ c ∈ t, numChar c = true := by
  have hrun : ∀ (s : NumState) (t : List Char), (t.foldlM NumState.step s).any NumState.accepts = true →
      ∀ c ∈ t, numChar c = true := by
    intro s t
    induction t generalizing s with
    | nil => simp
    | cons c t ih =>
      intro h
      rw [List.foldlM_cons] at h
      cases hstep : s.step c with
      | none =>
        rw [hstep] at h
        cases h
      | some s' =>
        rw [hstep] at h
        exact List.forall_mem_cons.mpr ⟨NumState.step_numChar hstep, ih s' h⟩
  exact hrun .start t h

theorem digitChar_spec {n : Nat} (h : n < 10) :
    n.digitChar.isDigit = true ∧ n.digitChar ≠ '-' ∧ (n ≠ 0 → n.digitChar ≠ '0') := by
  have hall : ∀ n < 10, n.digitChar.isDigit = true ∧ n.digitChar ≠ '-' ∧ (n ≠ 0 → n.digitChar ≠ '0') := by
    decide
  exact hall n h

theorem foldlM_toDigits {n : Nat} (hn : 0 < n) {s : NumState} (hs : s = .start ∨ s = .minus) :
    (Nat.toDigits 10 n).foldlM NumState.step s = some .int := by
  induction n using Nat.strongRecOn with
  | ind n ih =>
    rw [Nat.toDigits_eq_if (by decide)]
    split
    · rename_i hlt
      obtain ⟨hdigit, hminus, hzero⟩ := digitChar_spec hlt
      rcases hs with rfl | rfl <;>
        simp [NumState.step, digits, hdigit, hminus, hzero (by omega)]
    · rename_i hge
      obtain ⟨hdigit, -, -⟩ := digitChar_spec (Nat.mod_lt n (by decide : 0 < 10))
      rw [List.foldlM_append, ih (n / 10) (by omega) (by omega)]
      simp [NumState.step, hdigit]

theorem isNumber_int (n : Int) : isNumber (Number.int n).text = true := by
  cases n with
  | ofNat n =>
    have htext : (Number.int (Int.ofNat n)).text = Nat.toDigits 10 n := rfl
    rw [htext]
    rcases Nat.eq_zero_or_pos n with rfl | hn
    · rw [Nat.toDigits_zero]
      decide
    · rw [isNumber, foldlM_toDigits hn (.inl rfl)]
      rfl
  | negSucc n =>
    have hrun : (Nat.toDigits 10 (n + 1)).foldlM NumState.step .minus = some .int :=
      foldlM_toDigits (Nat.succ_pos n) (.inr rfl)
    have hstep : NumState.step .start '-' = some .minus := rfl
    have htext : (Number.int (Int.negSucc n)).text = '-' :: Nat.toDigits 10 (n + 1) := rfl
    rw [htext, isNumber, List.foldlM_cons, hstep, Option.bind_eq_bind, Option.bind_some, hrun]
    rfl

/-- What follows a number. -/
def NumEnd (cs : List Char) : Prop := ∀ c ∈ cs.head?, numChar c = false

theorem span_numChar {t cs : List Char} (ht : ∀ c ∈ t, numChar c = true) (hcs : NumEnd cs) :
    (t ++ cs).takeWhile numChar = t ∧ (t ++ cs).dropWhile numChar = cs := by
  induction t with
  | nil =>
    cases cs with
    | nil => exact ⟨rfl, rfl⟩
    | cons c cs =>
      have hc : numChar c = false := hcs c rfl
      simp [hc]
  | cons c t ih =>
    have hc := ht c List.mem_cons_self
    have hrest := ih fun c' hc' => ht c' (List.mem_cons_of_mem c hc')
    simp [hc, hrest.1, hrest.2]

theorem parseNumber_text (n : Number) {cs : List Char} (hcs : NumEnd cs) : parseNumber (n.text ++ cs) =
    if isNumber n.text then some (.num n.text, cs) else none := by
  by_cases hnum : isNumber n.text = true
  · obtain ⟨htake, hdrop⟩ := span_numChar (numChar_of_isNumber hnum) hcs
    rw [parseNumber, htake, hdrop]
  · rw [if_neg hnum, parseNumber]
    cases n with
    | int n => exact absurd (isNumber_int n) hnum
    | float f =>
      cases f with
      | finite repr h => exact absurd h hnum
      | nan => rfl
      | inf => rfl
      | negInf => rfl

/-! ## Values read back -/

/-- A character that starts a number, or one of the three texts that are none. -/
def NumHead (c : Char) : Prop := numChar c = true ∨ c = 'N' ∨ c = 'I'

theorem NumHead.ne {c d : Char} (h : NumHead c) (hd : numChar d = false ∧ d ≠ 'N' ∧ d ≠ 'I') : c ≠ d := by
  rintro rfl
  rcases h with h | h | h
  · rw [hd.1] at h
    cases h
  · exact hd.2.1 h
  · exact hd.2.2 h

theorem text_head (n : Number) : ∃ c cs, n.text = c :: cs ∧ NumHead c := by
  have hof : ∀ t : List Char, isNumber t = true → ∃ c cs, t = c :: cs ∧ NumHead c := by
    intro t ht
    cases t with
    | nil => cases ht
    | cons c cs => exact ⟨c, cs, rfl, .inl (numChar_of_isNumber ht c List.mem_cons_self)⟩
  cases n with
  | int n => exact hof _ (isNumber_int n)
  | float f =>
    cases f with
    | finite repr h => exact hof repr h
    | nan => exact ⟨'N', _, rfl, .inr (.inl rfl)⟩
    | inf => exact ⟨'I', _, rfl, .inr (.inr rfl)⟩
    | negInf => exact ⟨'-', _, rfl, .inl rfl⟩

/-- A character that starts a value. -/
def ValueHead (c : Char) : Prop := c ≠ ' ' ∧ c ≠ '\t' ∧ c ≠ '\n' ∧ c ≠ '\r' ∧ c ≠ ']' ∧ c ≠ '}'

instance (c : Char) : Decidable (ValueHead c) :=
  inferInstanceAs (Decidable (c ≠ ' ' ∧ c ≠ '\t' ∧ c ≠ '\n' ∧ c ≠ '\r' ∧ c ≠ ']' ∧ c ≠ '}'))

theorem NumHead.valueHead {c : Char} (h : NumHead c) : ValueHead c :=
  ⟨h.ne (by decide), h.ne (by decide), h.ne (by decide), h.ne (by decide), h.ne (by decide), h.ne (by decide)⟩

theorem dumps_head (v : Value Number Str) : ∃ c cs, dumps v = c :: cs ∧ ValueHead c := by
  cases v with
  | null => exact ⟨'n', _, rfl, by decide⟩
  | bool b =>
    cases b with
    | false => exact ⟨'f', _, rfl, by decide⟩
    | true => exact ⟨'t', _, rfl, by decide⟩
  | num n =>
    obtain ⟨c, cs, h, hc⟩ := text_head n
    exact ⟨c, cs, h, hc.valueHead⟩
  | str s => exact ⟨'"', _, rfl, by decide⟩
  | arr items => cases items <;> exact ⟨'[', _, rfl, by decide⟩
  | obj members => cases members <;> exact ⟨'{', _, rfl, by decide⟩

theorem skip_cons {c : Char} (h : ValueHead c) (cs : List Char) : skip (c :: cs) = c :: cs := by
  obtain ⟨hspace, htab, hlf, hcr, -, -⟩ := h
  simp [skip, hspace, htab, hlf, hcr]

theorem skip_space (cs : List Char) : skip (' ' :: cs) = skip cs := rfl

theorem parseValue_space (n : Nat) (cs : List Char) : parseValue n (' ' :: cs) = parseValue n cs := by
  cases n with
  | zero => rfl
  | succ n => rw [parseValue, parseValue, skip_space]

theorem parseKey_space (cs : List Char) : parseKey (' ' :: cs) = parseKey cs := by
  rw [parseKey, parseKey, skip_space]

theorem parseKey_quote (k : Str) (cs : List Char) : parseKey (quote k ++ ':' :: cs) = some (utf16 k, cs) := by
  have hskip : skip (quote k ++ ':' :: cs) = '"' :: (k.flatMap escape ++ '"' :: ':' :: cs) := by
    simp [quote, skip]
  have hcolon : skip (':' :: cs) = ':' :: cs := skip_cons (by decide) cs
  rw [parseKey, hskip]
  simp only [parseString_quote, Option.bind_some, hcolon]

theorem parseValue_number {c : Char} (hc : NumHead c) (n : Nat) (cs : List Char) :
    parseValue (n + 1) (c :: cs) = parseNumber (c :: cs) := by
  have hn : c ≠ 'n' := hc.ne (by decide)
  have ht : c ≠ 't' := hc.ne (by decide)
  have hf : c ≠ 'f' := hc.ne (by decide)
  have hquote : c ≠ '"' := hc.ne (by decide)
  have harr : c ≠ '[' := hc.ne (by decide)
  have hobj : c ≠ '{' := hc.ne (by decide)
  rw [parseValue, skip_cons hc.valueHead]
  split
  all_goals simp_all

theorem numEnd_of {c : Char} (h : numChar c = false) (cs : List Char) : NumEnd (c :: cs) := by
  intro d hd
  rw [← Option.some.inj hd]
  exact h

theorem numEnd_items (vs : List (Value Number Str)) (cs : List Char) : NumEnd (dumpsItems vs ++ cs) := by
  cases vs <;> exact numEnd_of (by decide) _

theorem numEnd_members (ms : List (Str × Value Number Str)) (cs : List Char) :
    NumEnd (dumpsMembers ms ++ cs) := by
  cases ms <;> exact numEnd_of (by decide) _

theorem length_dumps_pos (v : Value Number Str) : 0 < (dumps v).length := by
  obtain ⟨c, cs, h, -⟩ := dumps_head v
  rw [h]
  exact Nat.succ_pos _

theorem length_dumpsItems_pos (vs : List (Value Number Str)) : 0 < (dumpsItems vs).length := by
  cases vs <;> exact Nat.succ_pos _

theorem length_dumpsMembers_pos (ms : List (Str × Value Number Str)) : 0 < (dumpsMembers ms).length := by
  cases ms <;> exact Nat.succ_pos _

theorem parseValue_arr (v : Value Number Str) (n : Nat) (cs : List Char) :
    parseValue (n + 1) ('[' :: (dumps v ++ cs)) =
      (parseValue n (dumps v ++ cs)).bind fun v => (parseItems n v.2).map fun vs => (.arr (v.1 :: vs.1), vs.2) := by
  obtain ⟨c, t, htext, hc⟩ := dumps_head v
  rw [parseValue, skip_cons (by decide)]
  simp only [htext, List.cons_append, skip_cons hc]
  split
  · rename_i heq
    exact absurd (List.cons.inj heq).1 hc.2.2.2.2.1
  · rfl

theorem parseValue_obj (k : Str) (n : Nat) (cs : List Char) :
    parseValue (n + 1) ('{' :: (quote k ++ cs)) = (parseKey (quote k ++ cs)).bind fun k =>
      (parseValue n k.2).bind fun v => (parseMembers n v.2).map fun ms => (.obj ((k.1, v.1) :: ms.1), ms.2) := by
  have hskip : skip (quote k ++ cs) = quote k ++ cs := skip_cons (by decide) _
  rw [parseValue, skip_cons (by decide)]
  simp only [hskip]
  rfl

mutual

theorem parseValue_dumps (v : Value Number Str) (n : Nat) (cs : List Char) (hn : (dumps v).length < n)
    (hcs : NumEnd cs) : parseValue n (dumps v ++ cs) = (toJs v).map fun js => (js, cs) := by
  obtain ⟨n, rfl⟩ : ∃ m, n = m + 1 := ⟨n - 1, by omega⟩
  match v with
  | .null => simp [dumps, parseValue, skip, toJs]
  | .bool true => simp [dumps, parseValue, skip, toJs]
  | .bool false => simp [dumps, parseValue, skip, toJs]
  | .num num =>
    obtain ⟨c, t, htext, hc⟩ := text_head num
    have hparse := parseNumber_text num hcs
    rw [dumps, toJs]
    rw [htext, List.cons_append] at hparse ⊢
    rw [parseValue_number hc, hparse]
    split <;> rfl
  | .str s =>
    have hskip : skip (quote s ++ cs) = '"' :: (s.flatMap escape ++ '"' :: cs) := by simp [quote, skip]
    rw [dumps, parseValue, hskip]
    simp only [parseString_quote, Option.map_some, toJs]
  | .arr [] => simp [dumps, parseValue, skip, toJs, toJsItems]
  | .arr (v :: vs) =>
    have hpos := length_dumps_pos v
    have hpos' := length_dumpsItems_pos vs
    have hlen : (dumps v).length + (dumpsItems vs).length < n := by
      simp only [dumps, List.length_cons, List.length_append] at hn
      omega
    have hv := parseValue_dumps v n (dumpsItems vs ++ cs) (by omega) (numEnd_items vs cs)
    have hvs := parseItems_dumps vs n cs (by omega)
    rw [dumps, List.cons_append, List.append_assoc, parseValue_arr, hv, toJs, toJsItems]
    cases toJs v with
    | none => rfl
    | some js =>
      simp only [Option.map_some, Option.bind_some, hvs]
      cases toJsItems vs <;> rfl
  | .obj [] => simp [dumps, parseValue, skip, toJs, toJsMembers]
  | .obj (m :: ms) =>
    have hpos := length_dumps_pos m.2
    have hpos' := length_dumpsMembers_pos ms
    have hlen : (dumps m.2).length + (dumpsMembers ms).length < n := by
      simp only [dumps, List.length_cons, List.length_append] at hn
      omega
    have hv := parseValue_dumps m.2 n (dumpsMembers ms ++ cs) (by omega) (numEnd_members ms cs)
    have hms := parseMembers_dumps ms n cs (by omega)
    have htext : dumps (.obj (m :: ms)) ++ cs =
        '{' :: (quote m.1 ++ ':' :: ' ' :: (dumps m.2 ++ (dumpsMembers ms ++ cs))) := by
      simp [dumps]
    rw [htext, parseValue_obj, parseKey_quote, Option.bind_some, parseValue_space, hv, toJs, toJsMembers]
    cases toJs m.2 with
    | none => rfl
    | some js =>
      simp only [Option.map_some, Option.bind_some, hms]
      cases toJsMembers ms <;> rfl

theorem parseItems_dumps (vs : List (Value Number Str)) (n : Nat) (cs : List Char)
    (hn : (dumpsItems vs).length < n) :
    parseItems n (dumpsItems vs ++ cs) = (toJsItems vs).map fun js => (js, cs) := by
  obtain ⟨n, rfl⟩ : ∃ m, n = m + 1 := ⟨n - 1, by omega⟩
  match vs with
  | [] => simp [dumpsItems, parseItems, skip, toJsItems]
  | v :: vs =>
    have hpos := length_dumpsItems_pos vs
    have hlen : (dumps v).length + (dumpsItems vs).length < n := by
      simp only [dumpsItems, List.length_cons, List.length_append] at hn
      omega
    have hv := parseValue_dumps v n (dumpsItems vs ++ cs) (by omega) (numEnd_items vs cs)
    have hvs := parseItems_dumps vs n cs (by omega)
    have htext : dumpsItems (v :: vs) ++ cs = ',' :: ' ' :: (dumps v ++ (dumpsItems vs ++ cs)) := by
      simp [dumpsItems]
    rw [htext, parseItems, skip_cons (by decide)]
    simp only [parseValue_space, hv, toJsItems]
    cases toJs v with
    | none => rfl
    | some js =>
      simp only [Option.map_some, Option.bind_some, hvs]
      cases toJsItems vs <;> rfl

theorem parseMembers_dumps (ms : List (Str × Value Number Str)) (n : Nat) (cs : List Char)
    (hn : (dumpsMembers ms).length < n) :
    parseMembers n (dumpsMembers ms ++ cs) = (toJsMembers ms).map fun js => (js, cs) := by
  obtain ⟨n, rfl⟩ : ∃ m, n = m + 1 := ⟨n - 1, by omega⟩
  match ms with
  | [] => simp [dumpsMembers, parseMembers, skip, toJsMembers]
  | m :: ms =>
    have hpos := length_dumpsMembers_pos ms
    have hlen : (dumps m.2).length + (dumpsMembers ms).length < n := by
      simp only [dumpsMembers, List.length_cons, List.length_append] at hn
      omega
    have hv := parseValue_dumps m.2 n (dumpsMembers ms ++ cs) (by omega) (numEnd_members ms cs)
    have hms := parseMembers_dumps ms n cs (by omega)
    have htext : dumpsMembers (m :: ms) ++ cs =
        ',' :: ' ' :: (quote m.1 ++ ':' :: ' ' :: (dumps m.2 ++ (dumpsMembers ms ++ cs))) := by
      simp [dumpsMembers]
    rw [htext, parseMembers, skip_cons (by decide)]
    simp only [parseKey_space, parseKey_quote, Option.bind_some, parseValue_space, hv, toJsMembers]
    cases toJs m.2 with
    | none => rfl
    | some js =>
      simp only [Option.map_some, Option.bind_some, hms]
      cases toJsMembers ms <;> rfl

end

/-- A text that is written reads back unless it has a number that JSON does not know. -/
theorem parse_dumps (v : Value Number Str) : parse (dumps v) = toJs v := by
  have h := parseValue_dumps v ((dumps v).length + 1) [] (Nat.lt_succ_self _) (by simp [NumEnd])
  rw [List.append_nil] at h
  rw [parse, h]
  cases toJs v <;> rfl

/-! ## Characters of a text -/

/-- A printable character of ASCII. -/
def Printable (c : Char) : Prop := 0x20 ≤ c.toNat ∧ c.toNat ≤ 0x7e

instance (c : Char) : Decidable (Printable c) := inferInstanceAs (Decidable (_ ∧ _))

theorem printable_of_all {cs : List Char} (h : (cs.all fun c => decide (Printable c)) = true) :
    ∀ c ∈ cs, Printable c := by
  intro c hc
  exact of_decide_eq_true (List.all_eq_true.mp h c hc)

theorem printable_hexDigit {n : Nat} (h : n < 16) : Printable (hexDigit n) := by
  have hall : ∀ n < 16, Printable (hexDigit n) := by decide
  exact hall n h

theorem printable_escapeUnit (u : Nat) : ∀ c ∈ escapeUnit u, Printable c := by
  intro c hc
  simp only [escapeUnit, List.mem_cons, List.not_mem_nil, or_false] at hc
  rcases hc with rfl | rfl | rfl | rfl | rfl | rfl
  · decide
  · decide
  all_goals exact printable_hexDigit (Nat.mod_lt _ (by decide))

theorem printable_shortEscape {n : Nat} {e : Char} (h : shortEscape n = some e) : Printable e := by
  have hall : ∀ n < 0x80, (shortEscape n).all fun e => decide (Printable e) := by decide
  have hspec := hall n (shortEscape_spec h).1
  rw [h] at hspec
  simpa using hspec

theorem printable_escape (cp : CodePoint) : ∀ c ∈ escape cp, Printable c := by
  intro c hc
  rw [escape] at hc
  split at hc
  · rename_i e he
    simp only [List.mem_cons, List.not_mem_nil, or_false] at hc
    rcases hc with rfl | rfl
    · decide
    · exact printable_shortEscape he
  · rename_i he
    split at hc
    · rename_i hprint
      obtain rfl := List.mem_singleton.mp hc
      have hnat := (plain_spec hprint.1 hprint.2 he).2.2
      rw [Printable, hnat]
      exact hprint
    · obtain ⟨u, -, hu⟩ := List.mem_flatMap.mp hc
      exact printable_escapeUnit u c hu

theorem printable_quote (s : Str) : ∀ c ∈ quote s, Printable c := by
  intro c hc
  simp only [quote, List.mem_cons, List.mem_append, List.not_mem_nil, or_false] at hc
  rcases hc with rfl | hc | rfl
  · decide
  · obtain ⟨cp, -, hcp⟩ := List.mem_flatMap.mp hc
    exact printable_escape cp c hcp
  · decide

theorem printable_numChar {c : Char} (h : numChar c = true) : Printable c := by
  simp only [numChar, Bool.or_eq_true, beq_iff_eq] at h
  rcases h with ((((hdigit | rfl) | rfl) | rfl) | rfl) | rfl
  · simp only [Char.isDigit, Bool.and_eq_true, decide_eq_true_eq] at hdigit
    have hlow : 48 ≤ c.toNat := hdigit.1
    have hhigh : c.toNat ≤ 57 := hdigit.2
    exact ⟨by omega, by omega⟩
  all_goals decide

theorem printable_text (n : Number) : ∀ c ∈ n.text, Printable c := by
  intro c hc
  cases n with
  | int n => exact printable_numChar (numChar_of_isNumber (isNumber_int n) c hc)
  | float f =>
    cases f with
    | finite repr h => exact printable_numChar (numChar_of_isNumber h c hc)
    | nan => exact printable_of_all (by decide) c hc
    | inf => exact printable_of_all (by decide) c hc
    | negInf => exact printable_of_all (by decide) c hc

mutual

theorem dumps_printable (v : Value Number Str) : ∀ c ∈ dumps v, Printable c := by
  intro c hc
  match v with
  | .null => exact printable_of_all (by decide) c hc
  | .bool true => exact printable_of_all (by decide) c hc
  | .bool false => exact printable_of_all (by decide) c hc
  | .num n => exact printable_text n c hc
  | .str s => exact printable_quote s c hc
  | .arr [] => exact printable_of_all (by decide) c hc
  | .arr (v :: vs) =>
    simp only [dumps, List.mem_cons, List.mem_append] at hc
    rcases hc with rfl | hc | hc
    · decide
    · exact dumps_printable v c hc
    · exact dumpsItems_printable vs c hc
  | .obj [] => exact printable_of_all (by decide) c hc
  | .obj (m :: ms) =>
    simp only [dumps, List.mem_cons, List.mem_append] at hc
    rcases hc with rfl | hc | rfl | rfl | hc | hc
    · decide
    · exact printable_quote m.1 c hc
    · decide
    · decide
    · exact dumps_printable m.2 c hc
    · exact dumpsMembers_printable ms c hc

theorem dumpsItems_printable (vs : List (Value Number Str)) : ∀ c ∈ dumpsItems vs, Printable c := by
  intro c hc
  match vs with
  | [] =>
    obtain rfl := List.mem_singleton.mp hc
    decide
  | v :: vs =>
    simp only [dumpsItems, List.mem_cons, List.mem_append] at hc
    rcases hc with rfl | rfl | hc | hc
    · decide
    · decide
    · exact dumps_printable v c hc
    · exact dumpsItems_printable vs c hc

theorem dumpsMembers_printable (ms : List (Str × Value Number Str)) :
    ∀ c ∈ dumpsMembers ms, Printable c := by
  intro c hc
  match ms with
  | [] =>
    obtain rfl := List.mem_singleton.mp hc
    decide
  | m :: ms =>
    simp only [dumpsMembers, List.mem_cons, List.mem_append] at hc
    rcases hc with rfl | rfl | hc | rfl | rfl | hc | hc
    · decide
    · decide
    · exact printable_quote m.1 c hc
    · decide
    · decide
    · exact dumps_printable m.2 c hc
    · exact dumpsMembers_printable ms c hc

end

end Json
