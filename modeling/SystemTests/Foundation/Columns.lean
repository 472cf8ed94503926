import Mathlib.Data.List.Basic
import Mathlib.Tactic

/-!
# Numbers in columns

A natural number is written in base 128, seven bits a byte and the lowest first; all
bytes but the last have the high bit.  A column of integers is written as the
differences from one to the next.  An entry of a dictionary is found by its number,
counted from one.

**Results.**
* `readUvarint_uvarint`: a number is read back, and what follows it is left.
* `accumulate_deltas`: a column is read back from its differences.
* `entryAt_succ`: the entry of a number.
-/

namespace Foundation
namespace Columns

section Varint

def uvarintGo : Nat → Nat → List UInt8
  | 0, n => [UInt8.ofNat n]
  | k + 1, n =>
      if n < 128 then [UInt8.ofNat n]
      else UInt8.ofNat (n % 128 + 128) :: uvarintGo k (n / 128)

def uvarint (n : Nat) : List UInt8 := uvarintGo n n

/-- The number at the start of the bytes, with the bits that were read before. -/
def readUvarintGo : Nat → Nat → List UInt8 → Option (Nat × List UInt8)
  | _, _, [] => none
  | shift, result, b :: rest =>
      let result := result ||| ((b &&& 0x7F).toNat <<< shift)
      if b &&& 0x80 = 0 then some (result, rest) else readUvarintGo (shift + 7) result rest

def readUvarint (bytes : List UInt8) : Option (Nat × List UInt8) := readUvarintGo 0 0 bytes

theorem and_0x7F_toNat (b : UInt8) : (b &&& 0x7F).toNat = b.toNat % 128 := by
  rw [UInt8.toNat_and, show (0x7F : UInt8).toNat = 2 ^ 7 - 1 from rfl,
    Nat.and_two_pow_sub_one_eq_mod]

theorem and_0x80_eq_zero_iff (b : UInt8) : b &&& 0x80 = 0 ↔ b.toNat < 128 := by
  have hall : ∀ n < 256, n &&& 128 = 0 ↔ n < 128 := by decide +kernel
  rw [← UInt8.toNat_inj, UInt8.toNat_and]
  exact hall b.toNat b.toNat_lt

theorem or_shiftLeft {result shift : Nat} (h : result < 2 ^ shift) (n : Nat) :
    result ||| n <<< shift = result + n * 2 ^ shift := by
  rw [Nat.shiftLeft_eq, Nat.or_comm, Nat.mul_comm n, ← Nat.two_pow_add_eq_or_of_lt h,
    Nat.add_comm]

theorem readUvarintGo_uvarintGo (rest : List UInt8) :
    ∀ (k n shift result : Nat), n ≤ k → result < 2 ^ shift →
      readUvarintGo shift result (uvarintGo k n ++ rest) = some (result + n * 2 ^ shift, rest)
  | k, n, shift, result, hk, hresult => by
      by_cases hn : n < 128
      · have hbytes : uvarintGo k n = [UInt8.ofNat n] := by
          cases k with
          | zero => rfl
          | succ k => rw [uvarintGo, if_pos hn]
        have hbyte : (UInt8.ofNat n).toNat = n := by
          rw [UInt8.toNat_ofNat']
          omega
        rw [hbytes, List.cons_append, List.nil_append, readUvarintGo, and_0x7F_toNat, hbyte,
          Nat.mod_eq_of_lt hn, or_shiftLeft hresult,
          if_pos ((and_0x80_eq_zero_iff _).mpr (by rw [hbyte]; exact hn))]
      · cases k with
        | zero => omega
        | succ k =>
            have hbyte : (UInt8.ofNat (n % 128 + 128)).toNat = n % 128 + 128 := by
              rw [UInt8.toNat_ofNat']
              omega
            have hmod : (n % 128 + 128) % 128 = n % 128 := by omega
            have hnext : result + n % 128 * 2 ^ shift < 2 ^ (shift + 7) := by
              have hle : n % 128 * 2 ^ shift ≤ 127 * 2 ^ shift :=
                Nat.mul_le_mul_right _ (by omega)
              rw [Nat.pow_add]
              omega
            have hsum : result + n % 128 * 2 ^ shift + n / 128 * 2 ^ (shift + 7) =
                result + n * 2 ^ shift := by
              conv_rhs => rw [← Nat.mod_add_div n 128]
              rw [Nat.pow_add]
              ring
            rw [uvarintGo, if_neg hn, List.cons_append, readUvarintGo, and_0x7F_toNat, hbyte, hmod,
              or_shiftLeft hresult, if_neg, readUvarintGo_uvarintGo rest k (n / 128) _ _
                (by omega) hnext, hsum]
            rw [and_0x80_eq_zero_iff, hbyte]
            omega

/-- **A number is read back**, and what follows it is left. -/
theorem readUvarint_uvarint (n : Nat) (rest : List UInt8) :
    readUvarint (uvarint n ++ rest) = some (n, rest) := by
  rw [readUvarint, uvarint, readUvarintGo_uvarintGo rest n n 0 0 le_rfl (by decide)]
  simp

theorem length_readUvarintGo_lt : ∀ {bytes : List UInt8} {shift result n : Nat} {rest : List UInt8},
    readUvarintGo shift result bytes = some (n, rest) → rest.length < bytes.length
  | [], _, _, _, _, h => by cases h
  | b :: bytes, shift, result, n, rest, h => by
      rw [readUvarintGo] at h
      split at h
      · obtain ⟨-, rfl⟩ := Prod.mk.inj (Option.some.inj h)
        exact Nat.lt_succ_self _
      · exact (length_readUvarintGo_lt h).trans (Nat.lt_succ_self _)

end Varint

section Deltas

def accumulateFrom : Int → List Int → List Int
  | _, [] => []
  | prev, delta :: rest => (prev + delta) :: accumulateFrom (prev + delta) rest

/-- The running sums. -/
def accumulate (values : List Int) : List Int := accumulateFrom 0 values

def deltasFrom : Int → List Int → List Int
  | _, [] => []
  | prev, x :: xs => (x - prev) :: deltasFrom x xs

/-- The differences from one number to the next. -/
def deltas (xs : List Int) : List Int := deltasFrom 0 xs

@[simp] theorem length_deltasFrom (prev : Int) (xs : List Int) :
    (deltasFrom prev xs).length = xs.length := by
  induction xs generalizing prev with
  | nil => rfl
  | cons x xs ih => rw [deltasFrom, List.length_cons, ih, List.length_cons]

@[simp] theorem length_deltas (xs : List Int) : (deltas xs).length = xs.length :=
  length_deltasFrom 0 xs

theorem accumulateFrom_deltasFrom (prev : Int) (xs : List Int) :
    accumulateFrom prev (deltasFrom prev xs) = xs := by
  induction xs generalizing prev with
  | nil => rfl
  | cons x xs ih => rw [deltasFrom, accumulateFrom, add_sub_cancel, ih]

/-- **A column is read back from its differences.** -/
theorem accumulate_deltas (xs : List Int) : accumulate (deltas xs) = xs :=
  accumulateFrom_deltasFrom 0 xs

end Deltas

section Entries

variable {α : Type}

/-- The entry with a number; the first one has the number 1. -/
def entryAt (dict : List α) (idx : Int) : Option α :=
  if 1 ≤ idx ∧ idx ≤ dict.length then dict[(idx - 1).toNat]? else none

theorem entryAt_zero (dict : List α) : entryAt dict 0 = none := if_neg (by omega)

theorem entryAt_succ (dict : List α) (k : Nat) : entryAt dict (k + 1 : Nat) = dict[k]? := by
  by_cases h : k < dict.length
  · rw [entryAt, if_pos (by omega)]
    congr 1
    omega
  · rw [entryAt, if_neg (by omega), List.getElem?_eq_none (by omega)]

theorem entryAt_map {β : Type} (f : α → β) (dict : List α) (idx : Int) :
    entryAt (dict.map f) idx = (entryAt dict idx).map f := by
  rw [entryAt, entryAt, List.length_map]
  split
  · rw [List.getElem?_map]
  · rfl

end Entries

end Columns
end Foundation
