import SystemTests.Foundation.Text

/-!
# UTF-8

**Results.**
* `decode_encode`, `encode_of_decode`: the encoding and the decoding are inverse.
* `length_encode_eq_iff`: a text has as many bytes as characters when it is ASCII.
* `zero_not_mem_encode`: a zero byte is a zero character.
* `encode_prefix`: an encoded ASCII text that begins another one is its beginning.
-/

namespace Foundation
namespace Utf8

open Text

/-- `str.encode` -/
def encode (s : Str) : List UInt8 := s.flatMap String.utf8EncodeChar

/-- `bytes.decode`, `none` for a `UnicodeDecodeError`. -/
def decode (bytes : List UInt8) : Option Str :=
  bytes.toByteArray.utf8Decode?.map Array.toList

section Replacing

def between (low high b : UInt8) : Bool := low ≤ b && b ≤ high

/-- What may follow the first byte of a character of several bytes. -/
def isSecond (first second : UInt8) : Bool :=
  if first = 0xE0 then between 0xA0 0xBF second
  else if first = 0xED then between 0x80 0x9F second
  else if first = 0xF0 then between 0x90 0xBF second
  else if first = 0xF4 then between 0x80 0x8F second
  else between 0x80 0xBF second

/-- The number of bytes that begin a character which they do not complete, at least one. -/
def brokenLength : List UInt8 → Nat
  | first :: second :: third :: _ =>
      if between 0xE0 0xF4 first && isSecond first second then
        if between 0xF0 0xF4 first && between 0x80 0xBF third then 3 else 2
      else 1
  | [first, second] => if between 0xE0 0xF4 first && isSecond first second then 2 else 1
  | _ => 1

/-- The character at the start of the bytes, with its length. -/
def firstChar (bytes : List UInt8) : Option (Char × Nat) :=
  [1, 2, 3, 4].findSome? fun k =>
    match decode (bytes.take k) with
    | some [c] => some (c, k)
    | _ => none

def decodeReplacingGo : Nat → List UInt8 → Str
  | 0, _ => []
  | _ + 1, [] => []
  | fuel + 1, bytes =>
      match firstChar bytes with
      | some (c, k) => c :: decodeReplacingGo fuel (bytes.drop k)
      | none => '\uFFFD' :: decodeReplacingGo fuel (bytes.drop (brokenLength bytes))

/-- `bytes.decode` with `errors="replace"`: one `U+FFFD` for every part that is broken off. -/
def decodeReplacing (bytes : List UInt8) : Str := decodeReplacingGo bytes.length bytes

end Replacing

def IsAscii (s : Str) : Prop := ∀ c ∈ s, c.toNat < 128

theorem toByteArray_encode (s : Str) : (encode s).toByteArray = s.utf8Encode := rfl

@[simp] theorem decode_encode (s : Str) : decode (encode s) = some s := by
  rw [decode, toByteArray_encode, List.utf8Decode?_utf8Encode, Option.map_some]

theorem encode_of_decode {bytes : List UInt8} {s : Str} (h : decode bytes = some s) :
    encode s = bytes := by
  rw [decode, Option.map_eq_some_iff] at h
  obtain ⟨a, ha, rfl⟩ := h
  have hget := ByteArray.utf8Encode_get_utf8Decode? (b := bytes.toByteArray)
    (h := by rw [ha]; rfl)
  simp only [ha, Option.get_some] at hget
  have htoList := congrArg (fun b => b.data.toList) hget
  simpa [List.utf8Encode, encode] using htoList

theorem encode_ne_nil {s : Str} (h : s ≠ []) : encode s ≠ [] := by
  obtain ⟨c, s, rfl⟩ := List.exists_cons_of_ne_nil h
  rw [encode, List.flatMap_cons]
  exact List.append_ne_nil_of_left_ne_nil String.utf8EncodeChar_ne_nil _

theorem utf8Size_eq_one_iff (c : Char) : c.utf8Size = 1 ↔ c.toNat < 128 := by
  rw [Char.utf8Size_eq_one_iff, UInt32.le_iff_toNat_le]
  exact Nat.lt_succ_iff.symm

theorem length_le_length_encode (s : Str) : s.length ≤ (encode s).length := by
  induction s with
  | nil => exact Nat.zero_le _
  | cons c s ih =>
      have hsize := c.utf8Size_pos
      rw [encode, List.flatMap_cons, List.length_append, String.length_utf8EncodeChar, ← encode,
        List.length_cons]
      omega

theorem length_encode_eq_iff (s : Str) : (encode s).length = s.length ↔ IsAscii s := by
  induction s with
  | nil => simp [encode, IsAscii]
  | cons c s ih =>
      have hsize := c.utf8Size_pos
      have hrest := length_le_length_encode s
      rw [encode, List.flatMap_cons, List.length_append, String.length_utf8EncodeChar, ← encode,
        List.length_cons, IsAscii, List.forall_mem_cons, ← IsAscii, ← ih, ← utf8Size_eq_one_iff]
      omega

theorem encode_injective : Function.Injective encode := by
  intro s t h
  have hdecode := congrArg decode h
  rwa [decode_encode, decode_encode, Option.some.injEq] at hdecode

/-- A zero byte stands for the character with the code 0. -/
theorem zero_mem_utf8EncodeChar {c : Char} (h : (0 : UInt8) ∈ String.utf8EncodeChar c) :
    c.toNat = 0 := by
  have hzero : ∀ n, 0 < n → n < 256 → (0 : UInt8) ≠ UInt8.ofNat n := by
    intro n hpos hlt heq
    have htoNat := congrArg UInt8.toNat heq
    rw [UInt8.toNat_ofNat', Nat.mod_eq_of_lt hlt] at htoNat
    have hleft : (0 : UInt8).toNat = 0 := rfl
    omega
  have hbyte : ∀ n, (0 : UInt8) = UInt8.ofNat n → n % 256 = 0 := by
    intro n heq
    by_contra hne
    refine hzero (n % 256) (Nat.pos_of_ne_zero hne) (Nat.mod_lt n (by decide)) ?_
    rw [heq]
    exact UInt8.toNat_inj.mp (by simp)
  have hval : c.val.toNat = c.toNat := rfl
  unfold String.utf8EncodeChar at h
  simp only [hval] at h
  split_ifs at h with h1 h2 h3
  all_goals
    simp only [List.mem_cons, List.not_mem_nil, or_false] at h
  · have hbyte := hbyte _ h
    omega
  · rcases h with h | h <;> have hbyte := hbyte _ h <;> omega
  · rcases h with h | h | h <;> have hbyte := hbyte _ h <;> omega
  · rcases h with h | h | h | h <;> have hbyte := hbyte _ h <;> omega

theorem zero_not_mem_encode {s : Str} (h : ∀ c ∈ s, c.toNat ≠ 0) : (0 : UInt8) ∉ encode s := by
  rw [encode, List.mem_flatMap]
  rintro ⟨c, hc, hzero⟩
  exact h c hc (zero_mem_utf8EncodeChar hzero)

/-- The encoding of an ASCII text at the front of another one is the encoding of its front. -/
theorem encode_prefix {s t : Str} (hs : IsAscii s) (ht : IsAscii t) {more : List UInt8}
    (h : encode t = encode s ++ more) : ∃ rest, t = s ++ rest := by
  have hslength := (length_encode_eq_iff s).mpr hs
  have htake : IsAscii (t.take s.length) := fun c hc => ht c (List.mem_of_mem_take hc)
  have htakelength := (length_encode_eq_iff _).mpr htake
  have hsplit : encode (t.take s.length) ++ encode (t.drop s.length) = encode s ++ more := by
    rw [← h, encode, encode, ← List.flatMap_append, List.take_append_drop, encode]
  have htlength := (length_encode_eq_iff t).mpr ht
  have hle : s.length ≤ t.length := by
    have hlength := congrArg List.length h
    rw [List.length_append] at hlength
    omega
  have hequal := (List.append_inj hsplit (by rw [htakelength, hslength, List.length_take]; omega)).1
  refine ⟨t.drop s.length, ?_⟩
  rw [← encode_injective hequal, List.length_take, Nat.min_eq_left hle, List.take_append_drop]

end Utf8
end Foundation
