import SystemTests.Foundation.ByteStream
import SystemTests.Foundation.Exception

/-!
# Request bodies (`utils/mocked_backend/_request_handler.py`)

A request is read from the stream of its connection.  Its body has a length that is
known, or comes in chunks: each has a line with its size, and after an empty chunk
come lines of trailers.

**Results.**
* `readChunks_chunk`, `readChunks_last`: what one round of the loop reads.
* `readBody_spec`: a body that was divided into chunks is read back, and no byte
  after it is read; on every stream the loop comes to an end.
-/

namespace SystemTests
namespace MockedBackend

open Foundation Foundation.Text Foundation.ByteStream

/-- The values of two headers of a request. -/
structure Headers where
  transferEncoding : Option Str
  contentLength : Option Str
deriving DecidableEq

section Reading

def Headers.isChunked (headers : Headers) : Bool :=
  ("chunked" : Str) <:+: (headers.transferEncoding.getD []).map Char.toLower

/-- `while self.rfile.readline() not in (b"\r\n", b"\n", b"")`; `none` if it goes on. -/
def skipTrailers : Nat → List UInt8 → Option (List UInt8)
  | 0, _ => none
  | fuel + 1, stream =>
      let (line, rest) := readline stream
      if line = [13, 10] ∨ line = [10] ∨ line = [] then some rest
      else skipTrailers fuel rest

/-- The loop over the chunks; `none` if it goes on. -/
def readChunks : Nat → List (List UInt8) → List UInt8 →
    Option (Except Raised (List UInt8 × List UInt8))
  | 0, _, _ => none
  | fuel + 1, chunks, stream =>
      let (sizeLine, rest) := readline stream
      if sizeLine = [] then some (.ok (chunks.flatten, rest))
      else
        match intOfHexBytes (sizeLine.takeWhile (· ≠ 59)) with
        | none => some (.error (.valueError "invalid literal for int() with base 16"))
        | some size =>
            if size = 0 then
              (skipTrailers fuel rest).map fun rest => .ok (chunks.flatten, rest)
            else
              match read size rest with
              | none => some (.error (.valueError "read length must be non-negative or -1"))
              | some (chunk, rest) => readChunks fuel (chunks ++ [chunk]) (readline rest).2

/-- The body of a request and what is left of the stream. -/
def readBody (headers : Headers) (stream : List UInt8) :
    Option (Except Raised (List UInt8 × List UInt8)) :=
  if headers.isChunked then readChunks (stream.length + 1) [] stream
  else
    match Numeral.intOfText (headers.contentLength.getD ['0']) with
    | none => some (.error (.valueError "invalid literal for int() with base 10"))
    | some contentLength =>
        if contentLength = 0 then some (.ok ([], stream))
        else
          match read contentLength stream with
          | none => some (.error (.valueError "read length must be non-negative or -1"))
          | some body => some (.ok body)

end Reading

section Messages

/-- A line feed ends a line, a semicolon starts the extensions; before it come blanks. -/
structure IsExtension (extension : List UInt8) : Prop where
  line : 10 ∉ extension
  blanks : ∀ b ∈ extension.takeWhile (· ≠ 59), b = 32 ∨ b = 9

/-- The size of a chunk, with any extension. -/
structure SizeLine (n : Nat) where
  size : List UInt8
  extension : List UInt8
  hexadecimal : Numeral.Hexadecimal n (asText size)
  isExtension : IsExtension extension

structure Chunk where
  data : List UInt8
  nonempty : data ≠ []
  sizeLine : SizeLine data.length

structure Trailer where
  field : List UInt8
  nonempty : field ≠ []
  line : 10 ∉ field

/-- A body in chunks. -/
structure ChunkedMessage where
  chunks : List Chunk
  last : SizeLine 0
  trailers : List Trailer

def SizeLine.bytes {n : Nat} (l : SizeLine n) : List UInt8 := l.size ++ l.extension ++ [13]

def SizeLine.encode {n : Nat} (l : SizeLine n) : List UInt8 := l.bytes ++ [10]

def Chunk.encode (c : Chunk) : List UInt8 := c.sizeLine.encode ++ c.data ++ [13, 10]

def Trailer.encode (t : Trailer) : List UInt8 := t.field ++ [13, 10]

def ChunkedMessage.encode (m : ChunkedMessage) : List UInt8 :=
  m.chunks.flatMap Chunk.encode ++ m.last.encode ++ m.trailers.flatMap Trailer.encode ++ [13, 10]

def ChunkedMessage.body (m : ChunkedMessage) : List UInt8 := m.chunks.flatMap Chunk.data

variable {n : Nat}

/-- A character that is no hexadecimal digit is not in a size. -/
theorem SizeLine.not_mem_size (l : SizeLine n) {b : UInt8}
    (hb : Json.hexValue (Char.ofNat b.toNat) = none) : b ∉ l.size := by
  intro hmem
  have hdigits := Numeral.isSome_digit_of_natOf l.hexadecimal.2
  have hsome := hdigits _ (List.mem_map_of_mem hmem)
  rw [hb] at hsome
  cases hsome

theorem SizeLine.not_mem_bytes (l : SizeLine n) : 10 ∉ l.bytes := by
  have hsize := l.not_mem_size (b := 10) (by decide)
  simp [SizeLine.bytes, hsize, l.isExtension.line]

theorem SizeLine.takeWhile_encode (l : SizeLine n) :
    l.encode.takeWhile (· ≠ 59) = l.size ++ (l.extension ++ [13, 10]).takeWhile (· ≠ 59) := by
  have hsize : ∀ b ∈ l.size, decide (b ≠ 59) = true := by
    intro b hb
    rw [decide_eq_true_eq]
    rintro rfl
    exact l.not_mem_size (by decide) hb
  rw [SizeLine.encode, SizeLine.bytes, List.append_assoc, List.append_assoc,
    List.takeWhile_append_of_pos hsize]
  rfl

theorem mem_takeWhile_append {p : UInt8 → Bool} {s t : List UInt8} {b : UInt8}
    (h : b ∈ (s ++ t).takeWhile p) : b ∈ s.takeWhile p ∨ b ∈ t := by
  induction s with
  | nil => exact .inr ((List.takeWhile_sublist p).subset h)
  | cons a s ih =>
      rw [List.cons_append, List.takeWhile_cons] at h
      rw [List.takeWhile_cons]
      split
      next ha =>
        rw [if_pos ha] at h
        rcases List.mem_cons.mp h with rfl | h
        · exact .inl List.mem_cons_self
        · exact (ih h).imp_left (List.mem_cons_of_mem _)
      next ha =>
        rw [if_neg ha] at h
        cases h

/-- The size of a chunk is read from its line. -/
theorem SizeLine.intOfHexBytes_encode (l : SizeLine n) :
    intOfHexBytes (l.encode.takeWhile (· ≠ 59)) = some (n : Int) := by
  rw [l.takeWhile_encode]
  refine intOfHexBytes_of_digits l.hexadecimal fun c hc => ?_
  obtain ⟨b, hb, rfl⟩ := List.mem_map.mp hc
  rcases mem_takeWhile_append hb with hb | hb
  · rcases l.isExtension.blanks b hb with rfl | rfl
    · decide
    · decide
  · simp only [List.mem_cons, List.not_mem_nil, or_false] at hb
    rcases hb with rfl | rfl
    · decide
    · decide

theorem SizeLine.readline_encode (l : SizeLine n) (stream : List UInt8) :
    readline (l.encode ++ stream) = (l.encode, stream) := by
  rw [SizeLine.encode, List.append_assoc]
  exact readline_line l.not_mem_bytes stream

theorem SizeLine.encode_ne_nil (l : SizeLine n) : l.encode ≠ [] := by
  simp [SizeLine.encode]

/-- A round of the loop reads a chunk. -/
theorem readChunks_chunk (fuel : Nat) (chunks : List (List UInt8)) (c : Chunk)
    (stream : List UInt8) :
    readChunks (fuel + 1) chunks (c.encode ++ stream) =
      readChunks fuel (chunks ++ [c.data]) stream := by
  have hread : read c.data.length (c.data ++ ([13, 10] ++ stream)) =
      some (c.data, [13, 10] ++ stream) := read_append _ _
  have hsize : ((c.data.length : Nat) : Int) ≠ 0 := by
    have hpos := List.length_pos_of_ne_nil c.nonempty
    omega
  have hcrlf : readline ([13, 10] ++ stream) = ([13, 10], stream) :=
    readline_line (by decide : 10 ∉ ([13] : List UInt8)) stream
  rw [Chunk.encode, List.append_assoc, List.append_assoc, readChunks]
  simp only [SizeLine.readline_encode, SizeLine.encode_ne_nil, if_false,
    SizeLine.intOfHexBytes_encode, hsize, hread, hcrlf]

theorem skipTrailers_trailer (fuel : Nat) (t : Trailer) (stream : List UInt8) :
    skipTrailers (fuel + 1) (t.encode ++ stream) = skipTrailers fuel stream := by
  have hline : 10 ∉ t.field ++ [13] := by simp [t.line]
  have hread : readline (t.encode ++ stream) = (t.field ++ [13] ++ [10], stream) := by
    rw [← readline_line hline, Trailer.encode]
    simp
  have hlong : 3 ≤ (t.field ++ [13] ++ [10]).length := by
    have hpos := List.length_pos_of_ne_nil t.nonempty
    simp only [List.length_append, List.length_cons, List.length_nil]
    omega
  have hne : ¬ (t.field ++ [13] ++ [10] = [13, 10] ∨ t.field ++ [13] ++ [10] = [10] ∨
      t.field ++ [13] ++ [10] = []) := by
    rintro (h | h | h)
    · rw [h] at hlong
      simp at hlong
    · rw [h] at hlong
      simp at hlong
    · rw [h] at hlong
      simp at hlong
  simp only [skipTrailers, hread, if_neg hne]

theorem skipTrailers_trailers (trailers : List Trailer) (fuel : Nat) (stream : List UInt8) :
    skipTrailers (trailers.length + (fuel + 1))
      (trailers.flatMap Trailer.encode ++ ([13, 10] ++ stream)) = some stream := by
  induction trailers with
  | nil =>
      have hcrlf : readline ([13, 10] ++ stream) = ([13, 10], stream) :=
        readline_line (by decide : 10 ∉ ([13] : List UInt8)) stream
      simp only [List.length_nil, List.flatMap_nil, List.nil_append, skipTrailers,
        hcrlf, true_or, if_true]
  | cons t trailers ih =>
      rw [List.length_cons, Nat.add_right_comm, List.flatMap_cons, List.append_assoc,
        skipTrailers_trailer, ih]

/-- The last round reads the empty chunk and the trailers. -/
theorem readChunks_last (fuel : Nat) (chunks : List (List UInt8)) (l : SizeLine 0)
    (trailers : List Trailer) (stream : List UInt8) :
    readChunks (trailers.length + (fuel + 1) + 1) chunks
        (l.encode ++ (trailers.flatMap Trailer.encode ++ ([13, 10] ++ stream))) =
      some (.ok (chunks.flatten, stream)) := by
  have hsize := l.intOfHexBytes_encode
  rw [readChunks]
  simp only [SizeLine.readline_encode, SizeLine.encode_ne_nil, if_false, hsize, Nat.cast_zero,
    if_true, skipTrailers_trailers, Option.map_some]

theorem readChunks_message (m : ChunkedMessage) (fuel : Nat) (chunks : List (List UInt8))
    (stream : List UInt8) :
    readChunks (m.chunks.length + (m.trailers.length + (fuel + 1) + 1)) chunks
        (m.encode ++ stream) =
      some (.ok (chunks.flatten ++ m.body, stream)) := by
  obtain ⟨cs, last, trailers⟩ := m
  induction cs generalizing chunks with
  | nil =>
      have h := readChunks_last fuel chunks last trailers stream
      simpa [ChunkedMessage.encode, ChunkedMessage.body] using h
  | cons c cs ih =>
      have h := ih (chunks ++ [c.data])
      have hencode : ChunkedMessage.encode ⟨c :: cs, last, trailers⟩ ++ stream =
          c.encode ++ (ChunkedMessage.encode ⟨cs, last, trailers⟩ ++ stream) := by
        simp [ChunkedMessage.encode]
      rw [hencode, List.length_cons, Nat.add_right_comm, readChunks_chunk, h]
      simp [ChunkedMessage.body]

theorem length_le_length_flatMap {α : Type} {f : α → List UInt8} {l : List α}
    (h : ∀ a ∈ l, f a ≠ []) : l.length ≤ (l.flatMap f).length := by
  induction l with
  | nil => simp
  | cons a l ih =>
      rw [List.forall_mem_cons] at h
      have ha := List.length_pos_of_ne_nil h.1
      have hl := ih h.2
      rw [List.flatMap_cons, List.length_append, List.length_cons]
      omega

/-- The loop runs no longer than the message. -/
theorem ChunkedMessage.rounds_le (m : ChunkedMessage) :
    m.chunks.length + m.trailers.length + 2 ≤ m.encode.length := by
  have hchunks := length_le_length_flatMap (f := Chunk.encode) (l := m.chunks)
    (by simp [Chunk.encode])
  have htrailers := length_le_length_flatMap (f := Trailer.encode) (l := m.trailers)
    (by simp [Trailer.encode])
  simp only [ChunkedMessage.encode, List.length_append, List.length_cons, List.length_nil]
  omega

end Messages

section Ending

theorem skipTrailers_ends {fuel : Nat} {stream : List UInt8} (h : stream.length < fuel) :
    ∃ rest, skipTrailers fuel stream = some rest := by
  induction fuel generalizing stream with
  | zero => omega
  | succ fuel ih =>
      rcases hread : readline stream with ⟨line, rest⟩
      simp only [skipTrailers, hread]
      split
      · exact ⟨rest, rfl⟩
      next hline =>
        have hlt : (readline stream).2.length < stream.length :=
          length_readline_lt fun hnil => hline (.inr (.inr (by rw [hread] at hnil; exact hnil)))
        have hrest : rest.length < stream.length := by rwa [hread] at hlt
        exact ih (by omega)

/-- Every round reads at least the line of a size. -/
theorem readChunks_ends {fuel : Nat} {chunks : List (List UInt8)} {stream : List UInt8}
    (h : stream.length < fuel) : ∃ result, readChunks fuel chunks stream = some result := by
  induction fuel generalizing chunks stream with
  | zero => omega
  | succ fuel ih =>
      rcases hread : readline stream with ⟨sizeLine, rest⟩
      simp only [readChunks, hread]
      split
      · exact ⟨_, rfl⟩
      next hline =>
        have hlt : (readline stream).2.length < stream.length :=
          length_readline_lt fun hnil => hline (by rw [hread] at hnil; exact hnil)
        have hrest : rest.length < stream.length := by rwa [hread] at hlt
        split
        · exact ⟨_, rfl⟩
        · split
          · have hends : ∃ rest', skipTrailers fuel rest = some rest' :=
              skipTrailers_ends (by omega)
            obtain ⟨rest', hrest'⟩ := hends
            exact ⟨_, by rw [hrest', Option.map_some]⟩
          · split
            · exact ⟨_, rfl⟩
            next chunk rest' hchunk =>
              have hle := length_read_le hchunk
              have hle' := length_readline_le rest'
              exact ih (by omega)

theorem readBody_ends (headers : Headers) (stream : List UInt8) :
    ∃ result, readBody headers stream = some result := by
  rw [readBody]
  split
  · exact readChunks_ends (Nat.lt_succ_self _)
  · split
    · exact ⟨_, rfl⟩
    · split
      · exact ⟨_, rfl⟩
      · split
        · exact ⟨_, rfl⟩
        · exact ⟨_, rfl⟩

/-- A body that was divided into chunks is read back, and the stream is left where the
next request begins; a stream that ends early ends the reading. -/
theorem readBody_spec (headers : Headers) (hchunked : headers.isChunked = true) :
    (∀ (m : ChunkedMessage) (next : List UInt8),
      readBody headers (m.encode ++ next) = some (.ok (m.body, next))) ∧
    ∀ stream, ∃ result, readBody headers stream = some result := by
  refine ⟨fun m next => ?_, readBody_ends headers⟩
  have hrounds := m.rounds_le
  obtain ⟨fuel, hfuel⟩ : ∃ fuel, (m.encode ++ next).length + 1 =
      m.chunks.length + (m.trailers.length + (fuel + 1) + 1) := by
    refine ⟨m.encode.length + next.length - 1 - (m.chunks.length + m.trailers.length), ?_⟩
    rw [List.length_append]
    omega
  rw [readBody, if_pos hchunked, hfuel, readChunks_message]
  rfl

/-- `4;x
Wiki
` and an empty chunk, with a trailer -/
def wiki : ChunkedMessage where
  chunks := [⟨[87, 105, 107, 105], by decide,
    ⟨[48, 52], [59, 120], ⟨by decide, by decide⟩, ⟨by decide, by simp⟩⟩⟩]
  last := ⟨[48], [], ⟨by decide, by decide⟩, ⟨by decide, by simp⟩⟩
  trailers := [⟨[120, 58], by decide, by decide⟩]

theorem readBody_wiki :
    readBody ⟨some "Chunked".toList, none⟩ (wiki.encode ++ [71, 69, 84]) =
      some (.ok ([87, 105, 107, 105], [71, 69, 84])) :=
  (readBody_spec _ (by decide)).1 wiki [71, 69, 84]

end Ending

end MockedBackend
end SystemTests
