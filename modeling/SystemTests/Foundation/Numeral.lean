import SystemTests.Foundation.Json

/-!
# Integers as text

`intOfText` and `intOfHex` are the integers that a text is read as in base ten and
in base sixteen: white space around it, a sign, a prefix `0x` and single
underscores between the digits are passed over.  Digits are those of ASCII.

**Results.**
* `natOf_append`, `natOf_take`, `natOf_drop`: the number of a part of the digits.
* `lt_of_natOf_lt`: digits of one length are in the order of their numbers.
* `natOf_toDigits`: the digits of a number are read as that number.
* `intOfText_decimal`, `intOfHex_of_digits`, `intOfHex_prefixed`: plain digits.
-/

namespace Foundation
namespace Numeral

open Text

section Reading

/-- The number of some digits. -/
def natOf (base : Nat) (digit : Char → Option Nat) (s : Str) : Option Nat :=
  s.foldlM (fun n c => (digit c).map fun d => n * base + d) 0

/-- Digits with single underscores between them. -/
def readDigits (base : Nat) (digit : Char → Option Nat) (s : Str) : Option Nat :=
  let groups := split ['_'] s
  if [] ∈ groups then none else natOf base digit groups.flatten

def signed (read : Str → Option Nat) (s : Str) : Option Int :=
  match strip s with
  | '-' :: s => (read s).map fun n : Nat => -(n : Int)
  | '+' :: s => (read s).map fun n : Nat => (n : Int)
  | s => (read s).map fun n : Nat => (n : Int)

def decimalValue (c : Char) : Option Nat :=
  if c.isDigit then some (c.toNat - '0'.toNat) else none

/-- `int(s)` -/
def intOfText (s : Str) : Option Int := signed (readDigits 10 decimalValue) s

def withoutPrefix : Str → Str
  | '0' :: x :: s =>
      if x = 'x' ∨ x = 'X' then if s.head? = some '_' then s.tail else s else '0' :: x :: s
  | s => s

/-- `int(s, base=16)` -/
def intOfHex (s : Str) : Option Int :=
  signed (fun s => readDigits 16 Json.hexValue (withoutPrefix s)) s

/-- `hex(n)` of a natural number -/
def hex (n : Nat) : Str := '0' :: 'x' :: Nat.toDigits 16 n

end Reading

section Digits

variable {base : Nat} {digit : Char → Option Nat}

theorem natOf_nil : natOf base digit [] = some 0 := rfl

theorem natOf_concat (s : Str) (c : Char) :
    natOf base digit (s ++ [c]) =
      (natOf base digit s).bind fun n => (digit c).map fun d => n * base + d := by
  simp [natOf, List.foldlM_append]

/-- The number of digits that are written after one another. -/
theorem natOf_append {a b : Str} {v : Nat} :
    natOf base digit (a ++ b) = some v ↔
      ∃ x y, natOf base digit a = some x ∧ natOf base digit b = some y ∧
        v = x * base ^ b.length + y := by
  induction b using List.reverseRecOn generalizing v with
  | nil =>
      simp only [List.append_nil, natOf_nil, List.length_nil, pow_zero, Option.some.injEq]
      constructor
      · intro h
        exact ⟨v, 0, h, rfl, by omega⟩
      · rintro ⟨x, y, hx, rfl, rfl⟩
        rw [hx, mul_one, add_zero]
  | append_singleton b c ih =>
      rw [← List.append_assoc, natOf_concat, natOf_concat]
      simp only [Option.bind_eq_some_iff, Option.map_eq_some_iff, ih, List.length_append,
        List.length_singleton, pow_succ]
      constructor
      · rintro ⟨n, ⟨x, y, hx, hy, rfl⟩, d, hd, rfl⟩
        exact ⟨x, y * base + d, hx, ⟨y, hy, d, hd, rfl⟩, by ring⟩
      · rintro ⟨x, _, hx, ⟨y, hy, d, hd, rfl⟩, rfl⟩
        exact ⟨_, ⟨x, y, hx, hy, rfl⟩, d, hd, by ring⟩

theorem natOf_lt (hdigit : ∀ c d, digit c = some d → d < base) {s : Str} {v : Nat}
    (h : natOf base digit s = some v) : v < base ^ s.length := by
  induction s using List.reverseRecOn generalizing v with
  | nil =>
      rw [natOf_nil, Option.some.injEq] at h
      simp [← h]
  | append_singleton s c ih =>
      rw [natOf_concat] at h
      simp only [Option.bind_eq_some_iff, Option.map_eq_some_iff] at h
      obtain ⟨n, hn, d, hd, rfl⟩ := h
      have hlt := hdigit c d hd
      have hle : (n + 1) * base ≤ base ^ s.length * base :=
        Nat.mul_le_mul_right base (ih hn)
      rw [List.length_append, List.length_singleton, pow_succ]
      rw [Nat.add_mul, Nat.one_mul] at hle
      omega

/-- The number of the first digits. -/
theorem natOf_take (hdigit : ∀ c d, digit c = some d → d < base) {s : Str} {v : Nat}
    (h : natOf base digit s = some v) (k : Nat) :
    natOf base digit (s.take k) = some (v / base ^ (s.length - k)) := by
  rw [← List.take_append_drop k s] at h
  obtain ⟨x, y, hx, hy, rfl⟩ := natOf_append.mp h
  have hlt := natOf_lt hdigit hy
  rw [List.length_drop] at hlt
  rw [hx, List.length_drop, Nat.add_comm, Nat.add_mul_div_right _ _ (by omega),
    Nat.div_eq_of_lt hlt, Nat.zero_add]

/-- The number of the last digits. -/
theorem natOf_drop (hdigit : ∀ c d, digit c = some d → d < base) {s : Str} {v : Nat}
    (h : natOf base digit s = some v) (k : Nat) :
    natOf base digit (s.drop k) = some (v % base ^ (s.length - k)) := by
  rw [← List.take_append_drop k s] at h
  obtain ⟨x, y, hx, hy, rfl⟩ := natOf_append.mp h
  have hlt := natOf_lt hdigit hy
  rw [List.length_drop] at hlt
  rw [hy, List.length_drop, Nat.add_comm, Nat.add_mul_mod_self_right, Nat.mod_eq_of_lt hlt]

/-- Digits of one length are in the order of the numbers that are read from them. -/
theorem lt_of_natOf_lt (hdigit : ∀ c d, digit c = some d → d < base)
    (hmono : ∀ c c' d d', digit c = some d → digit c' = some d' → d < d' → c < c')
    (hinj : ∀ c c' d, digit c = some d → digit c' = some d → c = c') :
    ∀ {s t : Str} {m n : Nat}, s.length = t.length → natOf base digit s = some m →
      natOf base digit t = some n → m < n → s < t
  | [], [], m, n, _, hs, ht, hlt => by
      rw [natOf_nil, Option.some.injEq] at hs ht
      omega
  | c :: s, c' :: t, m, n, hlength, hs, ht, hlt => by
      rw [List.length_cons, List.length_cons, Nat.succ_inj] at hlength
      obtain ⟨x, m', hx, hm', rfl⟩ := natOf_append.mp (show natOf base digit ([c] ++ s) = _ from hs)
      obtain ⟨y, n', hy, hn', rfl⟩ := natOf_append.mp (show natOf base digit ([c'] ++ t) = _ from ht)
      have hdx : digit c = some x := by simpa [natOf] using hx
      have hdy : digit c' = some y := by simpa [natOf] using hy
      have hm := natOf_lt hdigit hm'
      have hn := natOf_lt hdigit hn'
      rw [← hlength] at hlt hn
      rw [List.cons_lt_cons_iff]
      rcases Nat.lt_trichotomy x y with hxy | rfl | hxy
      · exact Or.inl (hmono c c' x y hdx hdy hxy)
      · exact Or.inr ⟨hinj c c' x hdx hdy,
          lt_of_natOf_lt hdigit hmono hinj hlength hm' hn' (by omega)⟩
      · have hle : (y + 1) * base ^ s.length ≤ x * base ^ s.length :=
          Nat.mul_le_mul_right _ hxy
        rw [Nat.add_mul, Nat.one_mul] at hle
        omega

/-- The digits of a number are read as that number. -/
theorem natOf_toDigits (hbase : 1 < base) (hdigit : ∀ d < base, digit d.digitChar = some d)
    (n : Nat) : natOf base digit (Nat.toDigits base n) = some n := by
  induction n using Nat.strong_induction_on with
  | _ n ih =>
      rcases Nat.lt_or_ge n base with hlt | hge
      · rw [Nat.toDigits_of_lt_base hlt]
        simp [natOf, hdigit n hlt]
      · have hdiv : n / base < n := Nat.div_lt_self (by omega) hbase
        rw [Nat.toDigits_of_base_le hbase hge, natOf_concat, ih _ hdiv,
          hdigit _ (Nat.mod_lt n (by omega))]
        simp [Nat.div_add_mod']

theorem isSome_digit_of_natOf {s : Str} {v : Nat} (h : natOf base digit s = some v) :
    ∀ c ∈ s, (digit c).isSome = true := by
  induction s using List.reverseRecOn generalizing v with
  | nil => simp
  | append_singleton s c ih =>
      rw [natOf_concat] at h
      simp only [Option.bind_eq_some_iff, Option.map_eq_some_iff] at h
      obtain ⟨n, hn, d, hd, -⟩ := h
      rw [List.forall_mem_append, List.forall_mem_singleton, hd]
      exact ⟨ih hn, rfl⟩

/-- A digit is no sign, no underscore and no space. -/
structure PlainDigits (digit : Char → Option Nat) : Prop where
  minus : digit '-' = none
  plus : digit '+' = none
  underscore : digit '_' = none
  space : ∀ c, isSpace c = true → digit c = none

theorem not_mem_of_digits {s : Str} (h : ∀ c ∈ s, (digit c).isSome = true) {c : Char}
    (hc : digit c = none) : c ∉ s := by
  intro hmem
  have hsome := h c hmem
  rw [hc] at hsome
  cases hsome

theorem readDigits_of_digits (hplain : PlainDigits digit) {s : Str} (hne : s ≠ [])
    (h : ∀ c ∈ s, (digit c).isSome = true) : readDigits base digit s = natOf base digit s := by
  have hsplit : split ['_'] s = [s] := split_of_not_mem (not_mem_of_digits h hplain.underscore)
  simp only [readDigits, hsplit, List.flatten_singleton]
  refine if_neg ?_
  rw [List.mem_singleton]
  exact hne.symm

theorem signed_of_digits (hplain : PlainDigits digit) {read : Str → Option Nat} {s : Str}
    (h : ∀ c ∈ s, (digit c).isSome = true) : signed read s = (read s).map fun n : Nat => (n : Int) := by
  have hstrip : strip s = s := by
    refine stripOf_of_forall ?_
    intro c hc
    by_contra hspace
    exact not_mem_of_digits h (hplain.space c (by simpa using hspace)) hc
  unfold signed
  rw [hstrip]
  split
  · exact absurd List.mem_cons_self (not_mem_of_digits h hplain.minus)
  · exact absurd List.mem_cons_self (not_mem_of_digits h hplain.plus)
  · rfl

end Digits

section Bases

theorem toNat_of_isSpace {c : Char} (h : isSpace c = true) : c.toNat ≤ 0x20 ∨ 0x85 ≤ c.toNat := by
  simp only [isSpace, Bool.or_eq_true, Bool.and_eq_true, decide_eq_true_eq, beq_iff_eq] at h
  omega

theorem hexValue_eq_none {c : Char} (h : c.toNat < 0x30 ∨ 0x67 ≤ c.toNat) :
    Json.hexValue c = none := by
  have hle : ∀ a b : Char, 0x30 ≤ a.toNat → b.toNat < 0x67 → ¬ ((a ≤ c && c ≤ b) = true) := by
    intro a b ha hb hc
    rw [Bool.and_eq_true, decide_eq_true_eq, decide_eq_true_eq] at hc
    have hac : a.toNat ≤ c.toNat := hc.1
    have hcb : c.toNat ≤ b.toNat := hc.2
    omega
  unfold Json.hexValue
  rw [if_neg (hle '0' '9' (by decide) (by decide)), if_neg (hle 'a' 'f' (by decide) (by decide)),
    if_neg (hle 'A' 'F' (by decide) (by decide))]

theorem hexValue_lt {c : Char} {d : Nat} (h : Json.hexValue c = some d) : d < 16 := by
  unfold Json.hexValue at h
  split_ifs at h with hdigit hlower hupper
  all_goals
    rw [Option.some.injEq] at h
    subst h
  · rw [Bool.and_eq_true, decide_eq_true_eq, decide_eq_true_eq] at hdigit
    have hle : c.toNat ≤ '9'.toNat := hdigit.2
    have hnine : '9'.toNat = 57 := rfl
    have hzero : '0'.toNat = 48 := rfl
    omega
  · rw [Bool.and_eq_true, decide_eq_true_eq, decide_eq_true_eq] at hlower
    have hle : c.toNat ≤ 'f'.toNat := hlower.2
    have hf : 'f'.toNat = 102 := rfl
    have ha : 'a'.toNat = 97 := rfl
    omega
  · rw [Bool.and_eq_true, decide_eq_true_eq, decide_eq_true_eq] at hupper
    have hle : c.toNat ≤ 'F'.toNat := hupper.2
    have hf : 'F'.toNat = 70 := rfl
    have ha : 'A'.toNat = 65 := rfl
    omega

theorem hexValue_digitChar : ∀ d < 16, Json.hexValue d.digitChar = some d := by
  decide

theorem plainDigits_hexValue : PlainDigits Json.hexValue where
  minus := by decide
  plus := by decide
  underscore := by decide
  space := by
    intro c hc
    have hspace := toNat_of_isSpace hc
    exact hexValue_eq_none (by omega)

theorem plainDigits_decimalValue : PlainDigits decimalValue where
  minus := by decide
  plus := by decide
  underscore := by decide
  space := by
    intro c hc
    have hspace := toNat_of_isSpace hc
    refine if_neg ?_
    rw [isDigit_iff]
    omega

theorem decimalValue_eq_some {c : Char} {d : Nat} (h : decimalValue c = some d) :
    d < 10 ∧ c.toNat = d + 48 := by
  unfold decimalValue at h
  split_ifs at h with hc
  rw [Option.some.injEq] at h
  rw [isDigit_iff] at hc
  have hzero : '0'.toNat = 48 := rfl
  omega

theorem decimalValue_digitChar : ∀ d < 10, decimalValue d.digitChar = some d := by
  decide

/-- Digits in base ten, or in base sixteen. -/
def Decimal (n : Nat) (s : Str) : Prop := s ≠ [] ∧ natOf 10 decimalValue s = some n

def Hexadecimal (n : Nat) (s : Str) : Prop := s ≠ [] ∧ natOf 16 Json.hexValue s = some n

theorem Hexadecimal.take {n k : Nat} {s : Str} (h : Hexadecimal n s) (hk : 0 < k) :
    Hexadecimal (n / 16 ^ (s.length - k)) (s.take k) := by
  refine ⟨?_, natOf_take (fun _ _ => hexValue_lt) h.2 k⟩
  rw [ne_eq, List.take_eq_nil_iff, not_or]
  exact ⟨by omega, h.1⟩

theorem Hexadecimal.drop {n k : Nat} {s : Str} (h : Hexadecimal n s) (hk : k < s.length) :
    Hexadecimal (n % 16 ^ (s.length - k)) (s.drop k) := by
  refine ⟨?_, natOf_drop (fun _ _ => hexValue_lt) h.2 k⟩
  rw [ne_eq, List.drop_eq_nil_iff]
  omega

theorem hexadecimal_toDigits (n : Nat) : Hexadecimal n (Nat.toDigits 16 n) :=
  ⟨Nat.toDigits_ne_nil, natOf_toDigits (by decide) hexValue_digitChar n⟩

theorem intOfText_decimal {n : Nat} {s : Str} (h : Decimal n s) : intOfText s = some (n : Int) := by
  have hdigits := isSome_digit_of_natOf h.2
  rw [intOfText, signed_of_digits plainDigits_decimalValue hdigits,
    readDigits_of_digits plainDigits_decimalValue h.1 hdigits, h.2]
  rfl

theorem withoutPrefix_of_digits {s : Str} (h : ∀ c ∈ s, (Json.hexValue c).isSome = true) :
    withoutPrefix s = s := by
  unfold withoutPrefix
  split
  · rename_i x s
    refine if_neg ?_
    rintro (rfl | rfl)
    · exact not_mem_of_digits h (by decide) (List.mem_cons_of_mem _ List.mem_cons_self)
    · exact not_mem_of_digits h (by decide) (List.mem_cons_of_mem _ List.mem_cons_self)
  · rfl

theorem intOfHex_of_digits {n : Nat} {s : Str} (h : Hexadecimal n s) :
    intOfHex s = some (n : Int) := by
  have hdigits := isSome_digit_of_natOf h.2
  rw [intOfHex, signed_of_digits plainDigits_hexValue hdigits]
  simp only [withoutPrefix_of_digits hdigits]
  rw [readDigits_of_digits plainDigits_hexValue h.1 hdigits, h.2]
  rfl

/-- Hexadecimal digits with letters before them have no space around them. -/
theorem strip_letters_append (letters : Str) {s : Str} (hletters : ∀ c ∈ letters, isSpace c = false)
    (h : ∀ c ∈ s, (Json.hexValue c).isSome = true) : strip (letters ++ s) = letters ++ s := by
  refine stripOf_of_forall ?_
  rw [List.forall_mem_append]
  refine ⟨hletters, ?_⟩
  intro c hc
  by_contra hspace
  exact not_mem_of_digits h (plainDigits_hexValue.space c (by simpa using hspace)) hc

theorem intOfHex_prefixed {n : Nat} {s : Str} (h : Hexadecimal n s) :
    intOfHex ('0' :: 'x' :: s) = some (n : Int) := by
  have hdigits := isSome_digit_of_natOf h.2
  have hstrip := strip_letters_append ['0', 'x'] (by decide) hdigits
  have hwithout : withoutPrefix ('0' :: 'x' :: s) = s := by
    have hhead : s.head? ≠ some '_' := by
      intro hhead
      exact not_mem_of_digits hdigits plainDigits_hexValue.underscore (List.mem_of_head? hhead)
    simp [withoutPrefix, hhead]
  simp only [List.cons_append, List.nil_append] at hstrip
  unfold intOfHex signed
  rw [hstrip]
  change Option.map _ (readDigits 16 Json.hexValue (withoutPrefix ('0' :: 'x' :: s))) = _
  rw [hwithout, readDigits_of_digits plainDigits_hexValue h.1 hdigits, h.2]
  rfl

/-- The second character of a prefix is no digit. -/
theorem intOfHex_x {s : Str} (h : ∀ c ∈ s, (Json.hexValue c).isSome = true) :
    intOfHex ('x' :: s) = none := by
  have hstrip := strip_letters_append ['x'] (by decide) h
  simp only [List.cons_append, List.nil_append] at hstrip
  have hunderscore : '_' ∉ 'x' :: s := by
    rw [List.mem_cons, not_or]
    exact ⟨by decide, not_mem_of_digits h plainDigits_hexValue.underscore⟩
  have hread : readDigits 16 Json.hexValue ('x' :: s) = none := by
    rw [readDigits, split_of_not_mem hunderscore]
    cases hnumber : natOf 16 Json.hexValue ('x' :: s) with
    | none => simp [hnumber]
    | some n =>
        have hsome := isSome_digit_of_natOf hnumber 'x' List.mem_cons_self
        cases hsome
  unfold intOfHex signed
  rw [hstrip]
  change Option.map _ (readDigits 16 Json.hexValue ('x' :: s)) = _
  rw [hread]
  rfl

/-- A decimal number with zeros before it, up to a width. -/
def padded (width n : Nat) : Str := List.leftpad width '0' (Nat.toDigits 10 n)

theorem length_padded {width n : Nat} (h : n < 10 ^ width) (hwidth : 0 < width) :
    (padded width n).length = width := by
  have hlength := (Nat.length_toDigits_le_iff (by decide) hwidth).mpr h
  rw [padded, List.length_leftpad]
  omega

theorem natOf_padded (width n : Nat) : natOf 10 decimalValue (padded width n) = some n := by
  have hzeros : ∀ k, natOf 10 decimalValue (List.replicate k '0') = some 0 := by
    intro k
    induction k with
    | zero => rfl
    | succ k ih =>
        rw [List.replicate_succ', natOf_concat, ih]
        rfl
  rw [padded, List.leftpad]
  exact natOf_append.mpr ⟨0, n, hzeros _, natOf_toDigits (by decide) decimalValue_digitChar n,
    by omega⟩

/-- Decimal digits of one length are in the order of their numbers. -/
theorem lt_of_decimal_lt {s t : Str} {m n : Nat} (hlength : s.length = t.length)
    (hs : natOf 10 decimalValue s = some m) (ht : natOf 10 decimalValue t = some n)
    (hlt : m < n) : s < t := by
  refine lt_of_natOf_lt (fun c d h => (decimalValue_eq_some h).1) ?_ ?_ hlength hs ht hlt
  · intro c c' d d' hc hc' hd
    have hcd := (decimalValue_eq_some hc).2
    have hcd' := (decimalValue_eq_some hc').2
    have htoNat : c.toNat < c'.toNat := by omega
    exact htoNat
  · intro c c' d hc hc'
    have hcd := (decimalValue_eq_some hc).2
    have hcd' := (decimalValue_eq_some hc').2
    exact Char.toNat_inj.mp (hcd.trans hcd'.symm)

/-- Padded numbers that fit their width are in order. -/
theorem padded_lt_padded {width m n : Nat} (hlt : m < n) (hn : n < 10 ^ width)
    (hwidth : 0 < width) : padded width m < padded width n := by
  have hlength : (padded width m).length = (padded width n).length := by
    rw [length_padded (hlt.trans hn) hwidth, length_padded hn hwidth]
  exact lt_of_decimal_lt hlength (natOf_padded width m) (natOf_padded width n) hlt

end Bases

end Numeral
end Foundation
