import SystemTests.Foundation.Utf8

/-!
# MD5

The digest of a list of bytes.  The padded message is read as words of 32 bits,
sixteen of them to a block, and every block goes through 64 steps.

**Results.**  `length_digest`, `length_hexdigest`: sixteen bytes, 32 digits.
-/

namespace Foundation
namespace Md5

open Text

abbrev Word := BitVec 32

structure State where
  a : Word
  b : Word
  c : Word
  d : Word

def initial : State := ⟨0x67452301, 0xefcdab89, 0x98badcfe, 0x10325476⟩

/-- The integer parts of `2 ^ 32 * |sin (i + 1)|`. -/
def sines : List Word :=
  [0xd76aa478, 0xe8c7b756, 0x242070db, 0xc1bdceee, 0xf57c0faf, 0x4787c62a, 0xa8304613, 0xfd469501,
    0x698098d8, 0x8b44f7af, 0xffff5bb1, 0x895cd7be, 0x6b901122, 0xfd987193, 0xa679438e, 0x49b40821,
    0xf61e2562, 0xc040b340, 0x265e5a51, 0xe9b6c7aa, 0xd62f105d, 0x02441453, 0xd8a1e681, 0xe7d3fbc8,
    0x21e1cde6, 0xc33707d6, 0xf4d50d87, 0x455a14ed, 0xa9e3e905, 0xfcefa3f8, 0x676f02d9, 0x8d2a4c8a,
    0xfffa3942, 0x8771f681, 0x6d9d6122, 0xfde5380c, 0xa4beea44, 0x4bdecfa9, 0xf6bb4b60, 0xbebfbc70,
    0x289b7ec6, 0xeaa127fa, 0xd4ef3085, 0x04881d05, 0xd9d4d039, 0xe6db99e5, 0x1fa27cf8, 0xc4ac5665,
    0xf4292244, 0x432aff97, 0xab9423a7, 0xfc93a039, 0x655b59c3, 0x8f0ccc92, 0xffeff47d, 0x85845dd1,
    0x6fa87e4f, 0xfe2ce6e0, 0xa3014314, 0x4e0811a1, 0xf7537e82, 0xbd3af235, 0x2ad7d2bb, 0xeb86d391]

/-- By how much step `i` rotates. -/
def rotation (i : Nat) : Nat :=
  match i / 16 with
  | 0 => [7, 12, 17, 22].getD (i % 4) 0
  | 1 => [5, 9, 14, 20].getD (i % 4) 0
  | 2 => [4, 11, 16, 23].getD (i % 4) 0
  | _ => [6, 10, 15, 21].getD (i % 4) 0

/-- The mixing function of step `i`, and the word of the block that it takes. -/
def mix (i : Nat) (s : State) : Word × Nat :=
  match i / 16 with
  | 0 => ((s.b &&& s.c) ||| (~~~s.b &&& s.d), i)
  | 1 => ((s.d &&& s.b) ||| (~~~s.d &&& s.c), (5 * i + 1) % 16)
  | 2 => (s.b ^^^ s.c ^^^ s.d, (3 * i + 5) % 16)
  | _ => (s.c ^^^ (s.b ||| ~~~s.d), 7 * i % 16)

def step (block : List Word) (s : State) (i : Nat) : State :=
  let mixed := mix i s
  let f := mixed.1 + s.a + sines.getD i 0 + block.getD mixed.2 0
  ⟨s.d, s.b + f.rotateLeft (rotation i), s.b, s.c⟩

def absorb (s : State) (block : List Word) : State :=
  let t := (List.range 64).foldl (step block) s
  ⟨s.a + t.a, s.b + t.b, s.c + t.c, s.d + t.d⟩

/-- The lowest byte first. -/
def littleEndian (count n : Nat) : List UInt8 :=
  (List.range count).map fun i => UInt8.ofNat (n / 256 ^ i % 256)

def padded (message : List UInt8) : List UInt8 :=
  message ++ 0x80 :: List.replicate ((119 - message.length % 64) % 64) 0 ++
    littleEndian 8 (8 * message.length)

def words : List UInt8 → List Word
  | w :: x :: y :: z :: rest =>
      BitVec.ofNat 32 (w.toNat + 256 * (x.toNat + 256 * (y.toNat + 256 * z.toNat))) :: words rest
  | _ => []

def blocks (ws : List Word) : List (List Word) :=
  (List.range (ws.length / 16)).map fun i => (ws.drop (16 * i)).take 16

def digest (message : List UInt8) : List UInt8 :=
  let s := (blocks (words (padded message))).foldl absorb initial
  [s.a, s.b, s.c, s.d].flatMap fun w => littleEndian 4 w.toNat

def hex (bytes : List UInt8) : Str :=
  bytes.flatMap fun byte => [Nat.digitChar (byte.toNat / 16), Nat.digitChar (byte.toNat % 16)]

/-- `hashlib.md5(message).hexdigest()` -/
def hexdigest (message : List UInt8) : Str := hex (digest message)

theorem length_digest (message : List UInt8) : (digest message).length = 16 := by
  simp [digest, littleEndian]

theorem length_hexdigest (message : List UInt8) : (hexdigest message).length = 32 := by
  have hsum : ∀ bytes : List UInt8, (hex bytes).length = 2 * bytes.length := by
    intro bytes
    induction bytes with
    | nil => rfl
    | cons byte bytes ih =>
        rw [hex, List.flatMap_cons, List.length_append, ← hex, ih, List.length_cons]
        simp only [List.length_cons, List.length_nil]
        omega
  rw [hexdigest, hsum, length_digest]

example :
    hexdigest (Utf8.encode "message digest".toList) =
      "f96b697d7cb7938d525a2f31aaf161d0".toList := by
  decide +kernel

end Md5
end Foundation
