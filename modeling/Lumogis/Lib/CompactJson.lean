import Lumogis.Lib.Json
import Mathlib.Data.List.Lex

/-!
# Lib.CompactJson

JSON texts without blanks and with the members in the order of their keys, over any numbers and strings
whose texts can be told apart (`Tokens`). A text has one value, whatever follows it
(`compact_append_inj`), so two values have one canonical text only if they differ in the order of members
alone (`canonical_inj`).
-/

namespace Json

variable {N S : Type}

section
variable (num : N → List Char) (str : S → List Char)

mutual

/-- `json.dumps` with the separators `","` and `":"`. -/
def compact : Value N S → List Char
  | .null => "null".toList
  | .bool true => "true".toList
  | .bool false => "false".toList
  | .num n => num n
  | .str s => str s
  | .arr [] => ['[', ']']
  | .arr (v :: vs) => '[' :: (compact v ++ compactItems vs)
  | .obj [] => ['{', '}']
  | .obj (m :: ms) => '{' :: (str m.1 ++ ':' :: (compact m.2 ++ compactMembers ms))

/-- The items after the first. -/
def compactItems : List (Value N S) → List Char
  | [] => [']']
  | v :: vs => ',' :: (compact v ++ compactItems vs)

/-- The members after the first. -/
def compactMembers : List (S × Value N S) → List Char
  | [] => ['}']
  | m :: ms => ',' :: (str m.1 ++ ':' :: (compact m.2 ++ compactMembers ms))

end

/-- Nothing, or what stands behind a value in a text. -/
def Ends (cs : List Char) : Prop := ∀ c ∈ cs.head?, c = ',' ∨ c = ']' ∨ c = '}'

/-- Texts that numbers and strings can be told by: a number's has no character that ends a value. -/
structure Tokens : Prop where
  num_injective : ∀ m n, num m = num n → m = n
  num_head : ∀ n, ∃ c cs, num n = c :: cs ∧ NumHead c
  num_plain : ∀ n, ∀ c ∈ num n, c ≠ ',' ∧ c ≠ ']' ∧ c ≠ '}'
  str_head : ∀ s, ∃ cs, str s = '"' :: cs
  str_append_inj : ∀ s t cs ds, str s ++ cs = str t ++ ds → s = t ∧ cs = ds

end

/-! ## Reading a value off a text -/

/-- The kind of a value, and of a text by its first character. -/
def Value.kind : Value N S → Nat
  | .null => 0
  | .bool _ => 1
  | .num _ => 2
  | .str _ => 3
  | .arr _ => 4
  | .obj _ => 5

def kindOfHead (c : Char) : Nat :=
  if c = 'n' then 0 else if c = 't' ∨ c = 'f' then 1 else if c = '"' then 3
  else if c = '[' then 4 else if c = '{' then 5 else 2

theorem NumHead.kind {c : Char} (h : NumHead c) : kindOfHead c = 2 := by
  have hn : c ≠ 'n' := h.ne (by decide)
  have ht : c ≠ 't' := h.ne (by decide)
  have hf : c ≠ 'f' := h.ne (by decide)
  have hquote : c ≠ '"' := h.ne (by decide)
  have harr : c ≠ '[' := h.ne (by decide)
  have hobj : c ≠ '{' := h.ne (by decide)
  simp [kindOfHead, hn, ht, hf, hquote, harr, hobj]

section
variable {num : N → List Char} {str : S → List Char} (tokens : Tokens num str)
include tokens

theorem compact_head (v : Value N S) :
    ∃ c cs, compact num str v = c :: cs ∧ kindOfHead c = v.kind ∧ c ≠ ']' := by
  cases v with
  | null => exact ⟨'n', _, rfl, rfl, by decide⟩
  | bool b =>
    cases b with
    | false => exact ⟨'f', _, rfl, rfl, by decide⟩
    | true => exact ⟨'t', _, rfl, rfl, by decide⟩
  | num n =>
    obtain ⟨c, cs, h, hc⟩ := tokens.num_head n
    exact ⟨c, cs, h, hc.kind, hc.ne (by decide)⟩
  | str s =>
    obtain ⟨cs, h⟩ := tokens.str_head s
    exact ⟨'"', cs, h, rfl, by decide⟩
  | arr items => cases items <;> exact ⟨'[', _, rfl, rfl, by decide⟩
  | obj members => cases members <;> exact ⟨'{', _, rfl, rfl, by decide⟩

theorem kind_eq {v w : Value N S} {cs ds : List Char} (h : compact num str v ++ cs = compact num str w ++ ds) :
    v.kind = w.kind := by
  obtain ⟨c, cs', hv, hc, -⟩ := compact_head tokens v
  obtain ⟨d, ds', hw, hd, -⟩ := compact_head tokens w
  rw [hv, hw, List.cons_append, List.cons_append, List.cons.injEq] at h
  rw [← hc, ← hd, h.1]

/-- A number ends where a value can end. -/
theorem num_append_inj {m n : N} {cs ds : List Char} (hcs : Ends cs) (hds : Ends ds)
    (h : num m ++ cs = num n ++ ds) : m = n ∧ cs = ds := by
  let plain : Char → Bool := fun c => c ≠ ',' && c ≠ ']' && c ≠ '}'
  have htake : ∀ n es, Ends es → (num n ++ es).takeWhile plain = num n := by
    intro n es hes
    have hall : ∀ c ∈ num n, plain c = true := by
      intro c hc
      simpa [plain, and_assoc] using tokens.num_plain n c hc
    rw [List.takeWhile_append_of_pos hall]
    cases es with
    | nil => simp
    | cons c es =>
      have hc : plain c = false := by
        rcases hes c rfl with rfl | rfl | rfl <;> decide
      rw [List.takeWhile_cons_of_neg (by simp [hc]), List.append_nil]
  have hnum : num m = num n := by
    rw [← htake m cs hcs, ← htake n ds hds, h]
  refine ⟨tokens.num_injective m n hnum, ?_⟩
  rw [hnum] at h
  exact List.append_cancel_left h

theorem ends_items (vs : List (Value N S)) (cs : List Char) : Ends (compactItems num str vs ++ cs) := by
  cases vs with
  | nil =>
    rintro c ⟨⟩
    exact .inr (.inl rfl)
  | cons v vs =>
    rintro c ⟨⟩
    exact .inl rfl

theorem ends_members (ms : List (S × Value N S)) (cs : List Char) :
    Ends (compactMembers num str ms ++ cs) := by
  cases ms with
  | nil =>
    rintro c ⟨⟩
    exact .inr (.inr rfl)
  | cons m ms =>
    rintro c ⟨⟩
    exact .inl rfl

/-- No list of items is empty behind a first one. -/
theorem arr_nil_ne {w : Value N S} {ws : List (Value N S)} {cs ds : List Char} :
    compact num str (.arr []) ++ cs ≠ compact num str (.arr (w :: ws)) ++ ds := by
  intro h
  obtain ⟨c, t, hw, -, hc⟩ := compact_head tokens w
  rw [compact, compact, hw] at h
  exact hc (List.cons.inj (List.cons.inj h).2).1.symm

theorem obj_nil_ne {m : S × Value N S} {ms : List (S × Value N S)} {cs ds : List Char} :
    compact num str (.obj []) ++ cs ≠ compact num str (.obj (m :: ms)) ++ ds := by
  intro h
  obtain ⟨t, hm⟩ := tokens.str_head m.1
  rw [compact, compact, hm] at h
  exact absurd (List.cons.inj (List.cons.inj h).2).1 (by decide)

mutual

/-- What follows a value does not change what is read. -/
theorem compact_append_inj (v w : Value N S) {cs ds : List Char} (hcs : Ends cs) (hds : Ends ds)
    (h : compact num str v ++ cs = compact num str w ++ ds) : v = w ∧ cs = ds := by
  have hkind := kind_eq tokens h
  match v, w, hkind with
  | .null, .null, _ => exact ⟨rfl, List.append_cancel_left h⟩
  | .bool true, .bool true, _ => exact ⟨rfl, List.append_cancel_left h⟩
  | .bool false, .bool false, _ => exact ⟨rfl, List.append_cancel_left h⟩
  | .bool true, .bool false, _ => exact absurd (List.cons.inj h).1 (by decide)
  | .bool false, .bool true, _ => exact absurd (List.cons.inj h).1 (by decide)
  | .num m, .num n, _ =>
    obtain ⟨rfl, hrest⟩ := num_append_inj tokens hcs hds h
    exact ⟨rfl, hrest⟩
  | .str s, .str t, _ =>
    obtain ⟨rfl, hrest⟩ := tokens.str_append_inj s t cs ds h
    exact ⟨rfl, hrest⟩
  | .arr [], .arr [], _ => exact ⟨rfl, List.append_cancel_left h⟩
  | .arr [], .arr (w :: ws), _ => exact absurd h (arr_nil_ne tokens)
  | .arr (v :: vs), .arr [], _ => exact absurd h.symm (arr_nil_ne tokens)
  | .arr (v :: vs), .arr (w :: ws), _ =>
    rw [compact, compact, List.cons_append, List.cons_append, List.cons.injEq, List.append_assoc,
      List.append_assoc] at h
    obtain ⟨rfl, hitems⟩ := compact_append_inj v w (ends_items tokens vs cs) (ends_items tokens ws ds) h.2
    obtain ⟨rfl, hrest⟩ := compactItems_append_inj vs ws hitems
    exact ⟨rfl, hrest⟩
  | .obj [], .obj [], _ => exact ⟨rfl, List.append_cancel_left h⟩
  | .obj [], .obj (m :: ms), _ => exact absurd h (obj_nil_ne tokens)
  | .obj (m :: ms), .obj [], _ => exact absurd h.symm (obj_nil_ne tokens)
  | .obj ((k, v) :: ms), .obj ((k', v') :: ms'), _ =>
    rw [compact, compact, List.cons_append, List.cons_append, List.cons.injEq, List.append_assoc,
      List.append_assoc] at h
    obtain ⟨rfl, hvalue⟩ := tokens.str_append_inj _ _ _ _ h.2
    rw [List.cons_append, List.cons_append, List.cons.injEq, List.append_assoc, List.append_assoc] at hvalue
    obtain ⟨rfl, hmembers⟩ :=
      compact_append_inj v v' (ends_members tokens ms cs) (ends_members tokens ms' ds) hvalue.2
    obtain ⟨rfl, hrest⟩ := compactMembers_append_inj ms ms' hmembers
    exact ⟨rfl, hrest⟩

theorem compactItems_append_inj (vs ws : List (Value N S)) {cs ds : List Char}
    (h : compactItems num str vs ++ cs = compactItems num str ws ++ ds) : vs = ws ∧ cs = ds := by
  match vs, ws with
  | [], [] => exact ⟨rfl, List.append_cancel_left h⟩
  | [], w :: ws => exact absurd (List.cons.inj h).1 (by decide)
  | v :: vs, [] => exact absurd (List.cons.inj h).1 (by decide)
  | v :: vs, w :: ws =>
    rw [compactItems, compactItems, List.cons_append, List.cons_append, List.cons.injEq, List.append_assoc,
      List.append_assoc] at h
    obtain ⟨rfl, hitems⟩ := compact_append_inj v w (ends_items tokens vs cs) (ends_items tokens ws ds) h.2
    obtain ⟨rfl, hrest⟩ := compactItems_append_inj vs ws hitems
    exact ⟨rfl, hrest⟩

theorem compactMembers_append_inj (ms ms' : List (S × Value N S)) {cs ds : List Char}
    (h : compactMembers num str ms ++ cs = compactMembers num str ms' ++ ds) : ms = ms' ∧ cs = ds := by
  match ms, ms' with
  | [], [] => exact ⟨rfl, List.append_cancel_left h⟩
  | [], m :: ms => exact absurd (List.cons.inj h).1 (by decide)
  | m :: ms, [] => exact absurd (List.cons.inj h).1 (by decide)
  | (k, v) :: ms, (k', v') :: ms' =>
    rw [compactMembers, compactMembers, List.cons_append, List.cons_append, List.cons.injEq,
      List.append_assoc, List.append_assoc] at h
    obtain ⟨rfl, hvalue⟩ := tokens.str_append_inj _ _ _ _ h.2
    rw [List.cons_append, List.cons_append, List.cons.injEq, List.append_assoc, List.append_assoc] at hvalue
    obtain ⟨rfl, hmembers⟩ :=
      compact_append_inj v v' (ends_members tokens ms cs) (ends_members tokens ms' ds) hvalue.2
    obtain ⟨rfl, hrest⟩ := compactMembers_append_inj ms ms' hmembers
    exact ⟨rfl, hrest⟩

end

theorem compact_injective {v w : Value N S} (h : compact num str v = compact num str w) : v = w := by
  have hends : Ends [] := by rintro c ⟨⟩
  exact (compact_append_inj tokens v w hends hends (congrArg (· ++ []) h)).1

end

/-! ## The canonical text -/

section
variable (le : S → S → Bool)

mutual

/-- The members of each object in the order of their keys. -/
def Value.sortKeys : Value N S → Value N S
  | .arr items => .arr (sortItems items)
  | .obj members => .obj ((sortMembers members).mergeSort fun m m' => le m.1 m'.1)
  | v => v

def sortItems : List (Value N S) → List (Value N S)
  | [] => []
  | v :: vs => v.sortKeys :: sortItems vs

def sortMembers : List (S × Value N S) → List (S × Value N S)
  | [] => []
  | m :: ms => (m.1, m.2.sortKeys) :: sortMembers ms

end

/-- `json.dumps` with `sort_keys`. -/
def canonical (num : N → List Char) (str : S → List Char) (v : Value N S) : List Char :=
  compact num str (v.sortKeys le)

theorem canonical_inj {num : N → List Char} {str : S → List Char} (tokens : Tokens num str) {v w : Value N S}
    (h : canonical le num str v = canonical le num str w) : v.sortKeys le = w.sortKeys le :=
  compact_injective tokens h

end

/-! ## Values that a text decodes to -/

/-- No half of a pair is followed by the other half: what decodes a text joins the two. -/
def Str.Joined : Str → Prop
  | c :: d :: s => ¬ (0xd800 ≤ c.val ∧ c.val < 0xdc00 ∧ 0xdc00 ≤ d.val ∧ d.val < 0xe000) ∧ Joined (d :: s)
  | _ => True

theorem Str.Joined.tail {c : CodePoint} {s : Str} (h : Str.Joined (c :: s)) : Str.Joined s := by
  cases s with
  | nil => trivial
  | cons d s => exact h.2

theorem CodePoint.ext_val {c d : CodePoint} (h : c.val = d.val) : c = d := by
  cases c
  cases d
  cases h
  rfl

theorem utf16_cons (c : CodePoint) (s : Str) : utf16 (c :: s) = c.units ++ utf16 s := rfl

/-- A code unit is no pair, unless the string has the two halves apart. -/
theorem Str.Joined.unit_ne {c d : CodePoint} {s t : Str} (hs : Str.Joined (c :: s)) (hc : c.val < 0x10000)
    (hd : ¬ d.val < 0x10000) : utf16 (c :: s) ≠ utf16 (d :: t) := by
  intro h
  have hdlt := d.lt
  rw [utf16_cons, utf16_cons, CodePoint.units, CodePoint.units, if_pos hc, if_neg hd] at h
  simp only [List.cons_append, List.nil_append, List.cons.injEq] at h
  cases s with
  | nil => cases h.2
  | cons e s =>
    rw [utf16_cons, CodePoint.units] at h
    have helt := e.lt
    split at h
    · rw [List.singleton_append, List.cons.injEq] at h
      exact hs.1 (by omega)
    · rw [List.cons_append, List.cons.injEq] at h
      omega

theorem utf16_injective {s t : Str} (hs : Str.Joined s) (ht : Str.Joined t) (h : utf16 s = utf16 t) : s = t := by
  have hunits : ∀ c : CodePoint, c.units ≠ [] := by
    intro c
    rw [CodePoint.units]
    split <;> simp
  induction s generalizing t with
  | nil =>
    cases t with
    | nil => rfl
    | cons d t => exact absurd (List.append_eq_nil_iff.mp h.symm).1 (hunits d)
  | cons c s ih =>
    cases t with
    | nil => exact absurd (List.append_eq_nil_iff.mp h).1 (hunits c)
    | cons d t =>
      have hclt := c.lt
      have hdlt := d.lt
      by_cases hc : c.val < 0x10000
      · by_cases hd : d.val < 0x10000
        · rw [utf16_cons, utf16_cons, CodePoint.units, CodePoint.units, if_pos hc, if_pos hd] at h
          simp only [List.singleton_append, List.cons.injEq] at h
          rw [CodePoint.ext_val h.1, ih hs.tail ht.tail h.2]
        · exact absurd h (hs.unit_ne hc hd)
      · by_cases hd : d.val < 0x10000
        · exact absurd h.symm (ht.unit_ne hd hc)
        · rw [utf16_cons, utf16_cons, CodePoint.units, CodePoint.units, if_neg hc, if_neg hd] at h
          simp only [List.cons_append, List.nil_append, List.cons.injEq] at h
          rw [@CodePoint.ext_val c d (by omega), ih hs.tail ht.tail h.2.2]

/-- A string that a text decodes to. -/
structure DecodedStr where
  points : Str
  joined : points.Joined

/-- No character is half of a pair. -/
theorem joined_ofString (s : String) : (Str.ofString s).Joined := by
  rw [Str.ofString]
  induction s.toList with
  | nil => trivial
  | cons c cs ih =>
    cases cs with
    | nil => trivial
    | cons d cs =>
      refine ⟨?_, ih⟩
      have hvalid := c.valid
      simp only [UInt32.isValidChar, Nat.isValidChar] at hvalid
      have hval : (CodePoint.ofChar c).val = c.val.toNat := rfl
      omega

def DecodedStr.ofString (s : String) : DecodedStr := ⟨Str.ofString s, joined_ofString s⟩

def DecodedStr.quote (s : DecodedStr) : List Char := Json.quote s.points

/-- By code points, as strings are compared. -/
def DecodedStr.le (s t : DecodedStr) : Bool := (s.points.map CodePoint.val) ≤ (t.points.map CodePoint.val)

theorem DecodedStr.quote_append_inj {s t : DecodedStr} {cs ds : List Char}
    (h : s.quote ++ cs = t.quote ++ ds) : s = t ∧ cs = ds := by
  simp only [DecodedStr.quote, Json.quote, List.cons_append, List.append_assoc, List.nil_append,
    List.cons.injEq, true_and] at h
  have hparse := congrArg parseString h
  rw [parseString_quote, parseString_quote, Option.some.injEq, Prod.mk.injEq] at hparse
  refine ⟨?_, hparse.2⟩
  cases s
  cases t
  congr
  exact utf16_injective (by assumption) (by assumption) hparse.1

/-- A number that a text decodes to: the `repr` of a float has a point or an exponent. -/
structure DecodedNumber where
  number : Number
  marked : ∀ repr h, number = .float (.finite repr h) → '.' ∈ repr ∨ 'e' ∈ repr

def DecodedNumber.text (n : DecodedNumber) : List Char := n.number.text

theorem digit_of_int {n : Int} : ∀ c ∈ (Number.int n).text, c.isDigit = true ∨ c = '-' := by
  cases n with
  | ofNat n =>
    intro c hc
    exact .inl (Nat.isDigit_of_mem_toDigits (by decide) (by decide) hc)
  | negSucc n =>
    intro c hc
    rcases List.mem_cons.mp hc with rfl | hc
    · exact .inr rfl
    · exact .inl (Nat.isDigit_of_mem_toDigits (by decide) (by decide) hc)

theorem toDigits_inj {m n : Nat} (h : Nat.toDigits 10 m = Nat.toDigits 10 n) : m = n := by
  rw [← Nat.ofDigitChars_ten_toDigits (n := m), h, Nat.ofDigitChars_ten_toDigits]

theorem int_text_inj {m n : Int} (h : (Number.int m).text = (Number.int n).text) : m = n := by
  have hminus : ∀ m n : Nat, Nat.toDigits 10 m ≠ '-' :: Nat.toDigits 10 n := by
    intro m n h
    have hdigit := Nat.isDigit_of_mem_toDigits (c := '-') (by decide) (by decide) (h ▸ List.mem_cons_self)
    exact absurd hdigit (by decide)
  cases m with
  | ofNat m =>
    cases n with
    | ofNat n => exact congrArg Int.ofNat (toDigits_inj h)
    | negSucc n => exact absurd h (hminus m (n + 1))
  | negSucc m =>
    cases n with
    | ofNat n => exact absurd h.symm (hminus n (m + 1))
    | negSucc n =>
      have hsucc := toDigits_inj (List.cons.inj h).2
      exact congrArg Int.negSucc (by omega)

/-- The texts of the floats that are no numbers of JSON's grammar. -/
theorem not_isNumber_text {f : Float} (h : isNumber (Number.float f).text = false) :
    f = .nan ∨ f = .inf ∨ f = .negInf := by
  cases f with
  | finite repr hnum => exact absurd (hnum.symm.trans h) (by simp)
  | nan => exact .inl rfl
  | inf => exact .inr (.inl rfl)
  | negInf => exact .inr (.inr rfl)

theorem int_text_ne {n : Int} {f : Float} (hmarked : ∀ repr h, f = .finite repr h → '.' ∈ repr ∨ 'e' ∈ repr) :
    (Number.int n).text ≠ (Number.float f).text := by
  intro h
  have hnum := isNumber_int n
  rw [h] at hnum
  cases f with
  | finite repr hrepr =>
    have hchars : ∀ c ∈ repr, c.isDigit = true ∨ c = '-' := by
      intro c hc
      refine @digit_of_int n c ?_
      rw [h]
      exact hc
    rcases hmarked repr hrepr rfl with hmark | hmark
    · exact absurd (hchars _ hmark) (by decide)
    · exact absurd (hchars _ hmark) (by decide)
  | nan => exact absurd hnum (by decide)
  | inf => exact absurd hnum (by decide)
  | negInf => exact absurd hnum (by decide)

theorem float_text_inj {f g : Float} (h : (Number.float f).text = (Number.float g).text) : f = g := by
  by_cases hnum : isNumber (Number.float f).text = true
  · have hnum' := h ▸ hnum
    cases f with
    | finite repr hf =>
      cases g with
      | finite repr' hg =>
        have hrepr : repr = repr' := h
        subst hrepr
        rfl
      | nan => exact absurd hnum' (by decide)
      | inf => exact absurd hnum' (by decide)
      | negInf => exact absurd hnum' (by decide)
    | nan => exact absurd hnum (by decide)
    | inf => exact absurd hnum (by decide)
    | negInf => exact absurd hnum (by decide)
  · rw [Bool.not_eq_true] at hnum
    have hnum' := h ▸ hnum
    rcases not_isNumber_text hnum with rfl | rfl | rfl <;> rcases not_isNumber_text hnum' with rfl | rfl | rfl
    · rfl
    · exact absurd h (by decide)
    · exact absurd h (by decide)
    · exact absurd h (by decide)
    · rfl
    · exact absurd h (by decide)
    · exact absurd h (by decide)
    · exact absurd h (by decide)
    · rfl

theorem DecodedNumber.text_inj {m n : DecodedNumber} (h : m.text = n.text) : m = n := by
  obtain ⟨m, hm⟩ := m
  obtain ⟨n, hn⟩ := n
  suffices hnumber : m = n by
    subst hnumber
    rfl
  simp only [DecodedNumber.text] at h
  cases m with
  | int m =>
    cases n with
    | int n => rw [int_text_inj h]
    | float g => exact absurd h (int_text_ne fun repr hr hg => hn repr hr (by rw [hg]))
  | float f =>
    cases n with
    | int n => exact absurd h.symm (int_text_ne fun repr hr hf => hm repr hr (by rw [hf]))
    | float g => rw [float_text_inj h]

theorem DecodedNumber.text_plain (n : DecodedNumber) : ∀ c ∈ n.text, c ≠ ',' ∧ c ≠ ']' ∧ c ≠ '}' := by
  have hplain : ∀ t : List Char, isNumber t = true → ∀ c ∈ t, c ≠ ',' ∧ c ≠ ']' ∧ c ≠ '}' := by
    intro t ht c hc
    have hnum := numChar_of_isNumber ht c hc
    refine ⟨?_, ?_, ?_⟩
    · rintro rfl
      exact absurd hnum (by decide)
    · rintro rfl
      exact absurd hnum (by decide)
    · rintro rfl
      exact absurd hnum (by decide)
  have hfixed : ∀ {t : List Char}, (t.all fun c => c != ',' && c != ']' && c != '}') = true →
      ∀ c ∈ t, c ≠ ',' ∧ c ≠ ']' ∧ c ≠ '}' := by
    intro t ht c hc
    simpa [and_assoc] using List.all_eq_true.mp ht c hc
  by_cases hnum : isNumber n.text = true
  · exact hplain _ hnum
  · rw [Bool.not_eq_true] at hnum
    obtain ⟨n, hn⟩ := n
    cases n with
    | int n => exact absurd ((isNumber_int n).symm.trans hnum) (by simp)
    | float f =>
      rcases not_isNumber_text hnum with rfl | rfl | rfl
      · exact @hfixed "NaN".toList (by decide)
      · exact @hfixed "Infinity".toList (by decide)
      · exact @hfixed "-Infinity".toList (by decide)

/-- The texts of what a text decodes to can be told apart. -/
theorem decoded_tokens : Tokens DecodedNumber.text DecodedStr.quote where
  num_injective := fun _ _ h => DecodedNumber.text_inj h
  num_head := fun n => text_head n.number
  num_plain := DecodedNumber.text_plain
  str_head := fun _ => ⟨_, rfl⟩
  str_append_inj := fun _ _ _ _ h => DecodedStr.quote_append_inj h

end Json
