import SystemTests.Foundation.Text

/-!
# Base64

The decoder is a lenient one: it passes over the characters that are not of the
alphabet, and stops at the padding that completes a quantum.

**Results.**
* `decode_encode`: what is encoded is decoded.
-/

namespace Foundation
namespace Base64

open Text

def alphabet : Str := "ABCDEFGHIJKLMNOPQRSTUVWXYZabcdefghijklmnopqrstuvwxyz0123456789+/"

def charOf (n : Nat) : Char := alphabet[n]?.getD 'A'

def valueOf (c : Char) : Option Nat :=
  if alphabet.idxOf c < 64 then some (alphabet.idxOf c) else none

/-- `base64.b64encode(..).decode()` -/
def encode : List UInt8 → Str
  | [] => []
  | [a] => [charOf (a.toNat / 4), charOf (a.toNat % 4 * 16), '=', '=']
  | [a, b] =>
      [charOf (a.toNat / 4), charOf (a.toNat % 4 * 16 + b.toNat / 16),
        charOf (b.toNat % 16 * 4), '=']
  | a :: b :: c :: rest =>
      charOf (a.toNat / 4) :: charOf (a.toNat % 4 * 16 + b.toNat / 16) ::
        charOf (b.toNat % 16 * 4 + c.toNat / 64) :: charOf (c.toNat % 64) :: encode rest

/-- The position in the quantum, its bits not yet written, and the padding met. -/
def decodeGo : Nat → Nat → Nat → Str → Option (List UInt8)
  | quadPos, _, _, [] => if quadPos = 0 then some [] else none
  | quadPos, leftchar, pads, c :: s =>
      if c = '=' then
        if 2 ≤ quadPos then
          if 4 ≤ quadPos + (pads + 1) then some [] else decodeGo quadPos leftchar (pads + 1) s
        else decodeGo quadPos leftchar pads s
      else
        match valueOf c with
        | none => decodeGo quadPos leftchar pads s
        | some v =>
            match quadPos with
            | 0 => decodeGo 1 v 0 s
            | 1 => (decodeGo 2 (v % 16) 0 s).map (UInt8.ofNat (leftchar * 4 + v / 16) :: ·)
            | 2 => (decodeGo 3 (v % 4) 0 s).map (UInt8.ofNat (leftchar * 16 + v / 4) :: ·)
            | _ => (decodeGo 0 0 0 s).map (UInt8.ofNat (leftchar * 64 + v) :: ·)

/-- `base64.b64decode` of a `str`, `none` for an exception. -/
def decode (s : Str) : Option (List UInt8) :=
  if s.all (fun c => c.toNat < 128) then decodeGo 0 0 0 s else none

theorem charOf_spec : ∀ n < 64,
    charOf n ≠ '=' ∧ (charOf n).toNat < 128 ∧ valueOf (charOf n) = some n := by
  decide +kernel

theorem decodeGo_charOf {quadPos leftchar pads n : Nat} (hn : n < 64) (s : Str) :
    decodeGo quadPos leftchar pads (charOf n :: s) =
      match quadPos with
      | 0 => decodeGo 1 n 0 s
      | 1 => (decodeGo 2 (n % 16) 0 s).map (UInt8.ofNat (leftchar * 4 + n / 16) :: ·)
      | 2 => (decodeGo 3 (n % 4) 0 s).map (UInt8.ofNat (leftchar * 16 + n / 4) :: ·)
      | _ => (decodeGo 0 0 0 s).map (UInt8.ofNat (leftchar * 64 + n) :: ·) := by
  obtain ⟨hpad, -, hvalue⟩ := charOf_spec n hn
  rw [decodeGo, if_neg hpad, hvalue]

theorem decodeGo_two_pads (leftchar : Nat) : decodeGo 2 leftchar 0 ['=', '='] = some [] := rfl

theorem decodeGo_one_pad (leftchar : Nat) : decodeGo 3 leftchar 0 ['='] = some [] := rfl

theorem ofNat_eq {a : UInt8} {n : Nat} (h : n = a.toNat) : UInt8.ofNat n = a := by
  rw [h, UInt8.ofNat_toNat]

theorem decodeGo_encode (bytes : List UInt8) : decodeGo 0 0 0 (encode bytes) = some bytes := by
  fun_induction encode bytes with
  | case1 => rfl
  | case2 a =>
      have ha := a.toNat_lt
      rw [decodeGo_charOf (by omega), decodeGo_charOf (by omega)]
      simp only [decodeGo_two_pads, Option.map_some,
        ofNat_eq (show a.toNat / 4 * 4 + a.toNat % 4 * 16 / 16 = a.toNat by omega)]
  | case3 a b =>
      have ha := a.toNat_lt
      have hb := b.toNat_lt
      rw [decodeGo_charOf (by omega), decodeGo_charOf (by omega)]
      simp only [decodeGo_charOf (show b.toNat % 16 * 4 < 64 by omega), decodeGo_one_pad,
        Option.map_some,
        ofNat_eq (show a.toNat / 4 * 4 + (a.toNat % 4 * 16 + b.toNat / 16) / 16 = a.toNat by
          omega),
        ofNat_eq (show (a.toNat % 4 * 16 + b.toNat / 16) % 16 * 16 + b.toNat % 16 * 4 / 4 =
          b.toNat by omega)]
  | case4 a b c rest ih =>
      have ha := a.toNat_lt
      have hb := b.toNat_lt
      have hc := c.toNat_lt
      rw [decodeGo_charOf (by omega), decodeGo_charOf (by omega)]
      simp only [decodeGo_charOf (show b.toNat % 16 * 4 + c.toNat / 64 < 64 by omega),
        decodeGo_charOf (show c.toNat % 64 < 64 by omega), ih, Option.map_some,
        ofNat_eq (show a.toNat / 4 * 4 + (a.toNat % 4 * 16 + b.toNat / 16) / 16 = a.toNat by
          omega),
        ofNat_eq (show (a.toNat % 4 * 16 + b.toNat / 16) % 16 * 16 +
          (b.toNat % 16 * 4 + c.toNat / 64) / 4 = b.toNat by omega),
        ofNat_eq (show (b.toNat % 16 * 4 + c.toNat / 64) % 4 * 64 + c.toNat % 64 = c.toNat by
          omega)]

theorem isAscii_encode (bytes : List UInt8) : ∀ c ∈ encode bytes, c.toNat < 128 := by
  fun_induction encode bytes with
  | case1 => simp
  | case2 a =>
      have ha := a.toNat_lt
      simp [(charOf_spec (a.toNat / 4) (by omega)).2.1,
        (charOf_spec (a.toNat % 4 * 16) (by omega)).2.1]
  | case3 a b =>
      have ha := a.toNat_lt
      have hb := b.toNat_lt
      simp [(charOf_spec (a.toNat / 4) (by omega)).2.1,
        (charOf_spec (a.toNat % 4 * 16 + b.toNat / 16) (by omega)).2.1,
        (charOf_spec (b.toNat % 16 * 4) (by omega)).2.1]
  | case4 a b c rest ih =>
      have ha := a.toNat_lt
      have hb := b.toNat_lt
      have hc := c.toNat_lt
      simp only [List.forall_mem_cons]
      exact ⟨(charOf_spec _ (by omega)).2.1, (charOf_spec _ (by omega)).2.1,
        (charOf_spec _ (by omega)).2.1, (charOf_spec _ (by omega)).2.1, ih⟩

theorem decode_encode (bytes : List UInt8) : decode (encode bytes) = some bytes := by
  have hascii : (encode bytes).all (fun c => c.toNat < 128) = true := by
    rw [List.all_eq_true]
    exact fun c hc => decide_eq_true (isAscii_encode bytes c hc)
  rw [decode, if_pos hascii, decodeGo_encode]

end Base64
end Foundation
