import SystemTests.Foundation.Numeral

/-!
# Reading from a stream of bytes

A stream is the list of the bytes that are still to be read; it ends where the
other side closed it.

**Results.**
* `readline_line`, `read_append`: what is read of a stream that starts with it.
* `length_readline_lt`: a line that is read is not there any more.
* `intOfHexBytes_of_digits`: hexadecimal digits among white space.
-/

namespace Foundation
namespace ByteStream

open Text

section Reading

/-- A line with its line feed, or what is left of the stream. -/
def readline : List UInt8 → List UInt8 × List UInt8
  | [] => ([], [])
  | b :: stream =>
      if b = 10 then ([10], stream)
      else (b :: (readline stream).1, (readline stream).2)

/-- `read(size)`, where `-1` stands for everything. -/
def read (size : Int) (stream : List UInt8) : Option (List UInt8 × List UInt8) :=
  if 0 ≤ size then some (stream.take size.toNat, stream.drop size.toNat)
  else if size = -1 then some (stream, [])
  else none

theorem readline_line {line : List UInt8} (hline : 10 ∉ line) (stream : List UInt8) :
    readline (line ++ 10 :: stream) = (line ++ [10], stream) := by
  induction line with
  | nil => simp [readline]
  | cons b line ih =>
      rw [List.mem_cons, not_or] at hline
      rw [List.cons_append, readline, if_neg (Ne.symm hline.1), ih hline.2]
      rfl

theorem read_append (part stream : List UInt8) :
    read part.length (part ++ stream) = some (part, stream) := by
  simp [read]

theorem length_readline (stream : List UInt8) :
    (readline stream).1.length + (readline stream).2.length = stream.length := by
  induction stream with
  | nil => rfl
  | cons b stream ih =>
      rw [readline]
      split
      · simp [Nat.add_comm]
      · simp only [List.length_cons]
        omega

theorem length_readline_lt {stream : List UInt8} (h : (readline stream).1 ≠ []) :
    (readline stream).2.length < stream.length := by
  have hlength := length_readline stream
  have hpos := List.length_pos_of_ne_nil h
  omega

theorem length_readline_le (stream : List UInt8) :
    (readline stream).2.length ≤ stream.length := by
  have hlength := length_readline stream
  omega

theorem length_read_le {size : Int} {stream part rest : List UInt8}
    (h : read size stream = some (part, rest)) : rest.length ≤ stream.length := by
  rw [read] at h
  split at h
  · cases h
    simp
  · split at h
    · cases h
      simp
    · cases h

end Reading

section Numerals

/-- Bytes as the characters with these numbers. -/
def asText (bytes : List UInt8) : Str := bytes.map fun b => Char.ofNat b.toNat

/-- The white space of bytes. -/
def isAsciiSpace (c : Char) : Bool := c = ' ' || (0x09 ≤ c.toNat && c.toNat ≤ 0x0D)

def isNumeralChar (c : Char) : Bool :=
  (Json.hexValue c).isSome || c = '+' || c = '-' || c = '_' || c = 'x' || c = 'X'

/-- `int(bytes, 16)` -/
def intOfHexBytes (bytes : List UInt8) : Option Int :=
  let s := stripOf isAsciiSpace (asText bytes)
  if s.all isNumeralChar then Numeral.intOfHex s else none

theorem asText_append (a b : List UInt8) : asText (a ++ b) = asText a ++ asText b := by
  simp [asText]

theorem stripOf_append_of_forall {p : Char → Bool} {s w : Str} (hs : ∀ c ∈ s, p c = false)
    (hw : ∀ c ∈ w, p c = true) : stripOf p (s ++ w) = s := by
  induction w using List.reverseRecOn with
  | nil => rw [List.append_nil, stripOf_of_forall hs]
  | append_singleton w c ih =>
      rw [← List.append_assoc, stripOf_concat (hw c (by simp))]
      exact ih fun c hc => hw c (by simp [hc])

theorem isAsciiSpace_of_hexValue {c : Char} (h : (Json.hexValue c).isSome = true) :
    isAsciiSpace c = false := by
  by_contra hspace
  have hle : c.toNat < 0x30 := by
    rw [Bool.not_eq_false, isAsciiSpace, Bool.or_eq_true, decide_eq_true_eq, Bool.and_eq_true,
      decide_eq_true_eq, decide_eq_true_eq] at hspace
    rcases hspace with rfl | hspace
    · decide
    · omega
  rw [Numeral.hexValue_eq_none (.inl hle)] at h
  cases h

/-- White space after hexadecimal digits is passed over. -/
theorem intOfHexBytes_of_digits {n : Nat} {size blanks : List UInt8}
    (hsize : Numeral.Hexadecimal n (asText size))
    (hblanks : ∀ c ∈ asText blanks, isAsciiSpace c = true) :
    intOfHexBytes (size ++ blanks) = some (n : Int) := by
  have hdigits := Numeral.isSome_digit_of_natOf hsize.2
  have hstrip : stripOf isAsciiSpace (asText size ++ asText blanks) = asText size :=
    stripOf_append_of_forall (fun c hc => isAsciiSpace_of_hexValue (hdigits c hc)) hblanks
  have hall : (asText size).all isNumeralChar = true :=
    List.all_eq_true.mpr fun c hc => by simp [isNumeralChar, hdigits c hc]
  simp only [intOfHexBytes, asText_append, hstrip, hall, if_true]
  exact Numeral.intOfHex_of_digits hsize

end Numerals

end ByteStream
end Foundation
