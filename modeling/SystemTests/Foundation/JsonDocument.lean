import SystemTests.Foundation.JsonDump
import SystemTests.Foundation.SemverText

/-!
# Documents in JSON

A document is put together of texts, integers and named fields.  Such a document
is read back as it was written.

**Results.**
* `jsonLoad_of_plain`: what is loaded is the document.
* `plain_text`, `plain_int`, `plain_fields`, `plain_array`: documents are plain.
* `fields_of_append`: no object is written at the front of another one.
-/

namespace Foundation
namespace Json

open Text Semver

def codePoints (s : Str) : List Nat := s.map Char.toNat

def text (s : Str) : Json := .string (codePoints s)

/-- `int.__repr__` -/
def intText : Int → Str
  | .ofNat n => decimal n
  | .negSucc n => '-' :: decimal (n + 1)

def int (n : Int) : Json := .number (intText n)

/-- An object with named members. -/
def fields (members : List (Str × Json)) : Json :=
  .object (members.map fun member => (codePoints member.1, member.2))

/-- `dict.get` of what is loaded: the last of several members of one name counts. -/
def member? (key : Str) : Json → Option Json
  | .object members => (members.reverse.find? fun member => member.1 = codePoints key).map Prod.snd
  | _ => none

/-- The member that a path of names leads to. -/
def at? : List Str → Json → Option Json
  | [], v => some v
  | key :: path, v => (member? key v).bind (at? path)

/-- A document that is read back as it was written. -/
structure Plain (v : Json) : Prop where
  valid : Valid v
  normalize_eq : normalize v = v

theorem jsonLoad_of_plain {layout : Layout} {v : Json} (h : Plain v) :
    jsonLoad (jsonDump layout v) = some v := by
  rw [jsonLoad_jsonDump h.valid, h.normalize_eq]

section Plain

/-- No character is a surrogate. -/
theorem codePoints_lt (s : Str) :
    ∀ u ∈ codePoints s, u < 0x110000 ∧ ¬ (0xD800 ≤ u ∧ u < 0xDC00) := by
  intro u hu
  obtain ⟨c, -, rfl⟩ := List.mem_map.mp hu
  have hc : c.toNat < 0xD800 ∨ (0xDFFF < c.toNat ∧ c.toNat < 0x110000) := c.valid
  omega

theorem validString_codePoints (s : Str) : ValidString (codePoints s) :=
  fun u hu => (codePoints_lt s u hu).1

theorem joinSurrogates_codePoints (s : Str) : joinSurrogates (codePoints s) = codePoints s := by
  induction s with
  | nil => rfl
  | cons c s ih =>
      have hc := (codePoints_lt (c :: s) c.toNat List.mem_cons_self).2
      rw [codePoints, List.map_cons, ← codePoints, joinSurrogates_cons_of_not_high hc, ih]

theorem codePoints_injective : Function.Injective codePoints :=
  List.map_injective_iff.mpr fun _ _ h => Char.toNat_inj.mp h

@[simp] theorem codePoints_inj {s t : Str} : codePoints s = codePoints t ↔ s = t :=
  codePoints_injective.eq_iff

theorem plain_text (s : Str) : Plain (text s) where
  valid := validString_codePoints s
  normalize_eq := by rw [text, normalize, joinSurrogates_codePoints]

/-- A decimal number has no leading zero. -/
theorem head?_decimal {n : Nat} (hn : 0 < n) : (decimal n).head? ≠ some '0' := by
  induction n using Nat.strong_induction_on with
  | h n ih =>
      by_cases hsmall : n < 10
      · rw [decimal, Nat.toDigits_of_lt_base hsmall]
        interval_cases n <;> decide
      · have hne : Nat.toDigits 10 (n / 10) ≠ [] := Nat.toDigits_ne_nil
        rw [decimal, Nat.toDigits_of_base_le (by decide) (by omega),
          List.head?_append_of_ne_nil _ hne]
        exact ih (n / 10) (by omega) (by omega)

theorem isNumber_decimal (n : Nat) : isNumber (decimal n) = true := by
  have hdigits : ∀ c ∈ decimal n, c.isDigit = true := fun c hc => isDigit_of_mem_decimal hc
  have hsign : (decimal n).head? ≠ some '-' := by
    intro hhead
    exact absurd (hdigits '-' (List.mem_of_mem_head? hhead)) (by decide)
  have hhead : decimal n = ['0'] ∨ (decimal n).head? ≠ some '0' := by
    rcases Nat.eq_zero_or_pos n with rfl | hn
    · exact Or.inl (Nat.toDigits_zero 10)
    · exact Or.inr (head?_decimal hn)
  simp only [isNumber, if_neg hsign, List.takeWhile_eq_self_iff.mpr hdigits,
    List.dropWhile_eq_nil_iff.mpr hdigits]
  simp [decimal_ne_nil, isFraction, isExponent, hhead]

theorem isNumberChar_decimal (n : Nat) : ∀ c ∈ decimal n, isNumberChar c = true :=
  fun _ hc => isNumberChar_of_isDigit (isDigit_of_mem_decimal hc)

theorem validNumber_intText (n : Int) : ValidNumber (intText n) := by
  cases n with
  | ofNat n => exact Or.inl ⟨isNumber_decimal n, isNumberChar_decimal n⟩
  | negSucc n =>
      refine Or.inl ⟨?_, ?_⟩
      · have hnumber := isNumber_decimal (n + 1)
        have hsign : (decimal (n + 1)).head? ≠ some '-' := by
          intro hhead
          exact absurd (isDigit_of_mem_decimal (List.mem_of_mem_head? hhead)) (by decide)
        simp only [isNumber, if_neg hsign] at hnumber
        simpa only [isNumber, intText, List.head?_cons, if_true, List.tail_cons] using hnumber
      · rw [intText, List.forall_mem_cons]
        exact ⟨by decide, isNumberChar_decimal _⟩

theorem int_injective : Function.Injective int := by
  intro m n h
  have hsign : ∀ a b : Nat, decimal a ≠ '-' :: decimal b := by
    intro a b hab
    exact absurd (isDigit_of_mem_decimal (hab ▸ List.mem_cons_self : '-' ∈ decimal a)) (by decide)
  rw [int, int, Json.number.injEq] at h
  cases m with
  | ofNat m =>
      cases n with
      | ofNat n => exact congrArg Int.ofNat (decimal_injective h)
      | negSucc n => exact absurd h (hsign m (n + 1))
  | negSucc m =>
      cases n with
      | ofNat n => exact absurd h.symm (hsign n (m + 1))
      | negSucc n =>
          have hsucc := decimal_injective (List.cons.inj h).2
          rw [Nat.succ.inj hsucc]

theorem plain_int (n : Int) : Plain (int n) where
  valid := validNumber_intText n
  normalize_eq := rfl

theorem plain_array {elements : List Json} (h : ∀ v ∈ elements, Plain v) :
    Plain (.array elements) := by
  have hparts : ValidElements elements ∧ normalizeElements elements = elements := by
    induction elements with
    | nil => exact ⟨trivial, rfl⟩
    | cons v vs ih =>
        rw [List.forall_mem_cons] at h
        obtain ⟨hvalid, hnormalize⟩ := ih h.2
        exact ⟨⟨h.1.valid, hvalid⟩, by rw [normalizeElements, h.1.normalize_eq, hnormalize]⟩
  exact ⟨hparts.1, by rw [normalize, hparts.2]⟩

/-- A text that is read back as it was written: no two surrogates of it make a pair. -/
structure PlainText (us : List Nat) : Prop where
  valid : ValidString us
  joined : joinSurrogates us = us

theorem plainText_codePoints (s : Str) : PlainText (codePoints s) :=
  ⟨validString_codePoints s, joinSurrogates_codePoints s⟩

theorem PlainText.plain {us : List Nat} (h : PlainText us) : Plain (.string us) :=
  ⟨h.valid, congrArg Json.string h.joined⟩

theorem plain_object {members : List (List Nat × Json)}
    (h : ∀ member ∈ members, PlainText member.1 ∧ Plain member.2) : Plain (.object members) := by
  have hparts : ValidMembers members ∧ normalizeMembers members = members := by
    induction members with
    | nil => exact ⟨trivial, rfl⟩
    | cons m ms ih =>
        rw [List.forall_mem_cons] at h
        obtain ⟨hvalid, hnormalize⟩ := ih h.2
        obtain ⟨hkey, hvalue⟩ := h.1
        refine ⟨⟨hkey.valid, hvalue.valid, hvalid⟩, ?_⟩
        rw [normalizeMembers, hkey.joined, hvalue.normalize_eq, hnormalize]
  exact ⟨hparts.1, by rw [normalize, hparts.2]⟩

theorem plain_fields {members : List (Str × Json)} (h : ∀ member ∈ members, Plain member.2) :
    Plain (fields members) := by
  refine plain_object fun member hmember => ?_
  obtain ⟨m, hm, rfl⟩ := List.mem_map.mp hmember
  exact ⟨plainText_codePoints m.1, h m hm⟩

theorem plain_noFields : Plain (fields []) := plain_fields (by simp)

/-- A document with one more field. -/
theorem Plain.field {v : Json} (hv : Plain v) {members : List (Str × Json)}
    (h : Plain (fields members)) (key : Str) : Plain (fields ((key, v) :: members)) := by
  obtain ⟨hvalid, hnormalize⟩ := h
  simp only [fields, normalize, Json.object.injEq] at hnormalize
  constructor
  · exact ⟨validString_codePoints key, hv.valid, hvalid⟩
  · rw [fields, List.map_cons, normalize, normalizeMembers, joinSurrogates_codePoints,
      hv.normalize_eq, hnormalize]

theorem plain_singleton {v : Json} (hv : Plain v) : Plain (.array [v]) :=
  plain_array (List.forall_mem_singleton.mpr hv)

/-- An object begins and ends with its braces. -/
theorem exists_dump_fields (layout : Layout) (members : List (Str × Json)) :
    ∃ inner, jsonDump layout (fields members) = '{' :: (inner ++ ['}']) := by
  cases members with
  | nil => exact ⟨[], rfl⟩
  | cons m members => exact ⟨_, rfl⟩

/-- No object is written at the front of another one. -/
theorem fields_of_append {layout : Layout} {members members' : List (Str × Json)}
    (h : Plain (fields members)) (h' : Plain (fields members')) {more : Str}
    (htext : jsonDump layout (fields members') = jsonDump layout (fields members) ++ more) :
    more = [] ∧ fields members' = fields members := by
  have hmore : more = [] := by
    by_contra hne
    obtain ⟨inner, hinner⟩ := exists_dump_fields layout members'
    have hload : jsonLoad (jsonDump layout (fields members')) = _ := jsonLoad_of_plain h'
    rw [htext] at hload
    have hlast : '}' ∈ more := by
      have hlast := congrArg List.getLast? htext
      rw [hinner, ← List.cons_append, List.getLast?_concat, List.getLast?_append_of_ne_nil _ hne]
        at hlast
      exact List.mem_of_getLast? hlast.symm
    have hunfinished := jsonLoad_unfinished hload (by rw [← htext, hinner]; rfl)
      ⟨'}', hlast, rfl⟩
    rw [jsonLoad_of_plain h] at hunfinished
    cases hunfinished
  refine ⟨hmore, ?_⟩
  have hload : jsonLoad (jsonDump layout (fields members')) = _ := jsonLoad_of_plain h'
  rw [htext, hmore, List.append_nil, jsonLoad_of_plain h, Option.some.injEq] at hload
  exact hload.symm

theorem text_injective : Function.Injective text := by
  intro s t h
  rw [text, text, Json.string.injEq] at h
  exact codePoints_injective h

theorem fields_injective : Function.Injective fields := by
  intro ms ms' h
  rw [fields, fields, Json.object.injEq] at h
  refine List.map_injective_iff.mpr ?_ h
  intro m m' hmember
  rw [Prod.mk.injEq] at hmember
  exact Prod.ext (codePoints_injective hmember.1) hmember.2

end Plain

end Json
end Foundation
