import SystemTests.Foundation.Dict
import SystemTests.Foundation.Exception
import SystemTests.Foundation.Numeral
import Mathlib.Data.Int.Bitwise

/-!
# Span links (`DataDogSpanLink` and `get_span_links`)

A span link names a trace by two halves of 64 bits and a span by its id.  Every
format of a payload writes the trace id in its own way: as two numbers, as one
number, as 32 hexadecimal digits with or without `0x`, as two decimal texts.  The
constructors recover the halves by shifts or by slices at fixed offsets.

**Results.**
* `build_native`, `build_legacyPrefixed_iff`, `build_legacyInteger_iff` and the like: what
  the constructors make of each format.
* `getSpanLinks_iff_readable`: the links of a span are the ones its payload holds if
  and only if every one of them is readable in its format.
-/

namespace SystemTests
namespace DdTypes

open Foundation Foundation.Text Foundation.Numeral

section Model

/-- What a field of a link holds: an integer, a text, or anything else. -/
inductive Value where
  | int (n : Int)
  | text (s : Str)
  | other (v : Json)

abbrev LinkData := Dict Str Value

def lenTraceIdParts : Nat := 16

/-- `1 << 31` -/
def tracecontextFlagsSet : Nat := 31

structure DataDogSpanLink where
  data : LinkData
  traceId : Value
  traceIdLow : Int
  traceIdHigh : Value
  attributes : Option Value
  traceState : Option Value
  flags : Int
  spanId : Int

/-- `data[key]` -/
def item (data : LinkData) (key : String) : Except Raised Value :=
  Raised.ofOption (.keyError key) (data.get? key)

/-- `int(value)` -/
def Value.toInt : Value → Except Raised Int
  | .int n => .ok n
  | .text s => Raised.ofOption (.valueError "invalid literal for int() with base 10") (intOfText s)
  | .other _ => .error (.typeError "int() argument must be a string or a real number")

/-- `int(value, base=16)` -/
def Value.toIntBase16 : Value → Except Raised Int
  | .text s => Raised.ofOption (.valueError "invalid literal for int() with base 16") (intOfHex s)
  | _ => .error (.typeError "int() can't convert non-string with explicit base")

/-- A slice of a text. -/
def Value.slice (part : Str → Str) : Value → Except Raised Value
  | .text s => .ok (.text (part s))
  | _ => .error (.typeError "object is not subscriptable")

def Value.len : Value → Except Raised Nat
  | .text s => .ok s.length
  | _ => .error (.typeError "object has no len()")

/-- `trace_id[:16]` -/
def firstPart (s : Str) : Str := s.take lenTraceIdParts

/-- `trace_id[-16:]` -/
def lastPart (s : Str) : Str := s.drop (s.length - lenTraceIdParts)

/-- `trace_id[2:18]` -/
def partAfterPrefix (s : Str) : Str := (s.take (lenTraceIdParts + 2)).drop 2

/-- `hex(n)` -/
def hexText : Int → Str
  | .ofNat n => hex n
  | .negSucc n => '-' :: hex (n + 1)

/-- `hex(value) if isinstance(value, int) else value` -/
def Value.hexOfInt : Value → Value
  | .int n => .text (hexText n)
  | v => v

/-- `n & 0xFFFFFFFFFFFFFFFF` -/
def low64 (n : Int) : Int := n % 2 ^ 64

def flagsOf (data : LinkData) : Except Raised Int :=
  match data.get? "flags" with
  | none => .ok 0
  | some (.int n) => .ok (Int.lor n (2 ^ tracecontextFlagsSet))
  | some _ => .error (.typeError "unsupported operand type(s) for |")

def spanIdOf (data : LinkData) : Except Raised Int :=
  match data.get? "span_id" with
  | some (.int n) => .ok n
  | some v => v.toIntBase16
  | none =>
      match data.get? "spanID" with
      | some v => v.toInt
      | none => .error (.valueError "No span id exists in span link")

/-- `DataDogSpanLink.__init__` -/
def DataDogSpanLink.init (data : LinkData) (traceId : Value) (traceIdLow : Int)
    (traceIdHigh : Value) : Except Raised DataDogSpanLink := do
  let flags ← flagsOf data
  let spanId ← spanIdOf data
  return {
    data := data
    traceId := traceId
    traceIdLow := traceIdLow
    traceIdHigh := traceIdHigh
    attributes := data.get? "attributes"
    traceState := (data.get? "tracestate").or (data.get? "trace_state")
    flags := flags
    spanId := spanId
  }

def fromAgentSpanLinks (data : LinkData) : Except Raised DataDogSpanLink := do
  let traceId ← item data "traceID"
  let high ← (← item data "traceIDHigh").toInt
  let low ← traceId.toInt
  DataDogSpanLink.init data traceId low (.int high)

def fromAgentEfficientTracePayloadFormat (data : LinkData) : Except Raised DataDogSpanLink := do
  let traceId ← item data "traceID"
  let n ← traceId.toIntBase16
  DataDogSpanLink.init data traceId (low64 n) (.int (low64 (n / 2 ^ 64)))

/-- The upper half as `from_library_v1_span_links` and `from_library_v1_attributes` take it. -/
def traceIdHighV1 (data : LinkData) (traceId : Value) : Except Raised Value :=
  match data.get? "trace_id_high" with
  | some high => .ok high
  | none =>
      match traceId with
      | .text s => do
          if ¬ ['0', 'x'] <+: s then throw (.assertionError [])
          if s.length ≤ lenTraceIdParts + 2 then throw (.assertionError [])
          let high ← Value.toIntBase16 (.text (partAfterPrefix s))
          return .int high
      | _ => .error (.attributeError "startswith")

def fromLibraryV1SpanLinks (data : LinkData) : Except Raised DataDogSpanLink := do
  let traceId := (← item data "trace_id").hexOfInt
  let high ← traceIdHighV1 data traceId
  let n ← traceId.toIntBase16
  DataDogSpanLink.init data traceId (low64 n) high

def fromLibraryV1Attributes (data : LinkData) : Except Raised DataDogSpanLink := do
  let traceId ← item data "trace_id"
  match traceId with
  | .text _ => pure ()
  | _ => throw (.assertionError [])
  let high ← traceIdHighV1 data traceId
  let n ← traceId.toIntBase16
  DataDogSpanLink.init data traceId (low64 n) high

def fromAgentLegacyFormat (data : LinkData) : Except Raised DataDogSpanLink := do
  let traceId ← item data "trace_id"
  let high ← (← traceId.slice firstPart).toIntBase16
  let low ← (← traceId.slice lastPart).toIntBase16
  DataDogSpanLink.init data traceId low (.int high)

def fromLibraryLegacyFormat (data : LinkData) : Except Raised DataDogSpanLink := do
  let traceId := (← item data "trace_id").hexOfInt
  let length ← traceId.len
  let high ←
    if lenTraceIdParts < length then do (← traceId.slice firstPart).toIntBase16 else .ok 0
  let low ← (← traceId.slice lastPart).toIntBase16
  DataDogSpanLink.init data traceId low (.int high)

/-- A field of a link as `json.loads` gives it; a boolean is an integer. -/
def Value.ofJson : Json → Value
  | .number literal =>
      match intOfText literal with
      | some n => .int n
      | none => .other (.number literal)
  | .bool b => .int (if b then 1 else 0)
  | .string codePoints => .text (codePoints.map Char.ofNat)
  | v => .other v

/-- An element of a list that `json.loads` gives, where a link is expected. -/
def linkOfJson : Json → Except Raised LinkData
  | .object members =>
      .ok (members.foldl (fun data member =>
        data.set (member.1.map Char.ofNat) (.ofJson member.2)) .empty)
  | _ => .error (.typeError "indices must be integers")

/-- What the tag `_dd.span_links` holds: a text that is JSON, or the links themselves. -/
inductive RawLinks where
  | json (s : Str)
  | list (links : List LinkData)

def elementsOf : Json → Except Raised (List Json)
  | .array elements => .ok elements
  | .object members => .ok (members.map fun member => .string member.1)
  | .string codePoints => .ok (codePoints.map fun u => .string [u])
  | _ => .error (.typeError "object is not iterable")

/-- The links of the tag, each built by a constructor. -/
def RawLinks.build (build : LinkData → Except Raised DataDogSpanLink) :
    RawLinks → Except Raised (List DataDogSpanLink)
  | .json s => do
      let v ← Raised.ofOption (.inPackage "json") (Json.jsonLoad s)
      (← elementsOf v).mapM fun element => do build (← linkOfJson element)
  | .list links => links.mapM build

/-- What `get_span_links` reads of a span: `meta` is absent, or holds the tag or not. -/
structure LibrarySpanLegacy where
  spanLinks : Option (List LinkData)
  metaLinks : Option (Option RawLinks)

structure LibrarySpanV1 where
  spanLinks : Option (List LinkData)
  attributesLinks : Option (List LinkData)

inductive AgentTraceFormat where
  | legacy
  | efficientTracePayloadFormat
deriving DecidableEq

/-- The key of a raw span that its `meta` is read from. -/
def AgentTraceFormat.metaKey : AgentTraceFormat → Str
  | .legacy => "meta".toList
  | .efficientTracePayloadFormat => "attributes".toList

structure AgentSpan where
  format : AgentTraceFormat
  spanLinks : Option (List LinkData)
  links : Option (List LinkData)
  metaLinks : Option (Option RawLinks)

def LibrarySpanLegacy.getSpanLinks (span : LibrarySpanLegacy) :
    Except Raised (List DataDogSpanLink) :=
  match span.spanLinks with
  | some links => links.mapM fromLibraryV1SpanLinks
  | none => do
      let tags ← Raised.ofOption (.assertionError []) span.metaLinks
      (tags.getD (.list [])).build fromLibraryLegacyFormat

def LibrarySpanV1.getSpanLinks (span : LibrarySpanV1) : Except Raised (List DataDogSpanLink) :=
  match span.spanLinks with
  | some links => links.mapM fromLibraryV1SpanLinks
  | none =>
      match span.attributesLinks with
      | some links => links.mapM fromLibraryV1Attributes
      | none => .ok []

def AgentSpan.getSpanLinks (span : AgentSpan) : Except Raised (List DataDogSpanLink) :=
  match span.spanLinks with
  | some links => links.mapM fromAgentSpanLinks
  | none =>
      match span.format, span.links with
      | .efficientTracePayloadFormat, some links =>
          links.mapM fromAgentEfficientTracePayloadFormat
      | _, _ => do
          let tags ← Raised.ofOption (.keyError span.format.metaKey) span.metaLinks
          (tags.getD (.list [])).build fromAgentLegacyFormat

inductive Span where
  | libraryLegacy (span : LibrarySpanLegacy)
  | libraryV1 (span : LibrarySpanV1)
  | agent (span : AgentSpan)

def Span.getSpanLinks : Span → Except Raised (List DataDogSpanLink)
  | .libraryLegacy span => span.getSpanLinks
  | .libraryV1 span => span.getSpanLinks
  | .agent span => span.getSpanLinks

end Model

section Formats

/-- A trace id and the id of a span in that trace. -/
structure LinkIds where
  high : Nat
  low : Nat
  spanId : Nat
  high_lt : high < 2 ^ 64
  low_lt : low < 2 ^ 64

def LinkIds.traceId (ids : LinkIds) : Nat := ids.high * 2 ^ 64 + ids.low

inductive Reader where
  | library
  | agent

/-- The formats of a link; the tag `_dd.span_links` is read by two wrappers. -/
inductive LinkFormat where
  | native
  | nativeWithoutHigh
  | v1
  | v1Attributes
  | legacyDigits (reader : Reader)
  | legacyPrefixed (reader : Reader)
  | legacyInteger (reader : Reader)
  | agentDecimal
  | agentEfficient

/-- The 32 hexadecimal digits of a trace id. -/
def Digits (ids : LinkIds) (s : Str) : Prop := s.length = 32 ∧ Hexadecimal ids.traceId s

def LinkFormat.EncodesTraceId (data : LinkData) (ids : LinkIds) : LinkFormat → Prop
  | .native => data.get? "trace_id" = some (.int ids.low) ∧
      data.get? "trace_id_high" = some (.int ids.high)
  | .nativeWithoutHigh => ids.high = 0 ∧ data.get? "trace_id" = some (.int ids.low) ∧
      data.get? "trace_id_high" = none
  | .v1 | .v1Attributes => (∃ s, Digits ids s ∧
      data.get? "trace_id" = some (.text ('0' :: 'x' :: s))) ∧ data.get? "trace_id_high" = none
  | .legacyDigits _ => ∃ s, Digits ids s ∧ data.get? "trace_id" = some (.text s)
  | .legacyPrefixed _ => ∃ s, Digits ids s ∧
      data.get? "trace_id" = some (.text ('0' :: 'x' :: s))
  | .legacyInteger _ => data.get? "trace_id" = some (.int ids.traceId)
  | .agentDecimal => (∃ s, Decimal ids.low s ∧ data.get? "traceID" = some (.text s)) ∧
      ∃ s, Decimal ids.high s ∧ data.get? "traceIDHigh" = some (.text s)
  | .agentEfficient => ∃ s, Digits ids s ∧
      (data.get? "traceID" = some (.text s) ∨ data.get? "traceID" = some (.text ('0' :: 'x' :: s)))

/-- The span id: an integer, a hexadecimal text, or a decimal text. -/
def EncodesSpanId (data : LinkData) (spanId : Nat) : Prop :=
  data.get? "span_id" = some (.int spanId) ∨
    (∃ s, Hexadecimal spanId s ∧ (data.get? "span_id" = some (.text s) ∨
      data.get? "span_id" = some (.text ('0' :: 'x' :: s)))) ∨
    data.get? "span_id" = none ∧ ∃ s, Decimal spanId s ∧ data.get? "spanID" = some (.text s)

/-- A link in a format; flags are an integer where there are any. -/
structure LinkFormat.Encodes (format : LinkFormat) (data : LinkData) (ids : LinkIds) : Prop where
  traceId : format.EncodesTraceId data ids
  spanId : EncodesSpanId data ids.spanId
  flags : ∀ v, data.get? "flags" = some v → ∃ n, v = .int n

/-- The ids of a link that was built. -/
structure HasIds (ids : LinkIds) (link : DataDogSpanLink) : Prop where
  high : link.traceIdHigh = .int ids.high
  low : link.traceIdLow = ids.low
  spanId : link.spanId = ids.spanId

/-- The ids that a format brings through. -/
def LinkFormat.Readable (ids : LinkIds) : LinkFormat → Prop
  | .native | .v1 | .v1Attributes | .legacyDigits _ | .agentDecimal | .agentEfficient => True
  | .nativeWithoutHigh | .legacyInteger .agent => False
  | .legacyPrefixed _ => ids.high = 0
  | .legacyInteger .library => ids.traceId < 16 ^ 14 ∨
      16 ^ 29 ≤ ids.traceId ∧ ids.traceId < 16 ^ 30

/-- The constructor of a format. -/
def LinkFormat.build : LinkFormat → LinkData → Except Raised DataDogSpanLink
  | .native | .nativeWithoutHigh | .v1 => fromLibraryV1SpanLinks
  | .v1Attributes => fromLibraryV1Attributes
  | .legacyDigits .library | .legacyPrefixed .library | .legacyInteger .library =>
      fromLibraryLegacyFormat
  | .legacyDigits .agent | .legacyPrefixed .agent | .legacyInteger .agent => fromAgentLegacyFormat
  | .agentDecimal => fromAgentSpanLinks
  | .agentEfficient => fromAgentEfficientTracePayloadFormat

/-- The entries of a tag or of a list are the links with the given ids. -/
def RawLinks.Holds (encodes : LinkData → LinkIds → Prop) : RawLinks → List LinkIds → Prop
  | .json s, ids => ∃ elements, Json.jsonLoad s = some (.array elements) ∧
      List.Forall₂ (fun element i => ∃ data, linkOfJson element = .ok data ∧ encodes data i)
        elements ids
  | .list links, ids => List.Forall₂ encodes links ids

/-- Where a span has its links, and in which format. -/
inductive Carries : Span → LinkFormat → RawLinks → Prop
  | librarySpanLinks {span : LibrarySpanLegacy} {format : LinkFormat} {links : List LinkData}
      (hformat : format = .native ∨ format = .nativeWithoutHigh ∨ format = .v1)
      (h : span.spanLinks = some links) : Carries (.libraryLegacy span) format (.list links)
  | v1SpanLinks {span : LibrarySpanV1} {format : LinkFormat} {links : List LinkData}
      (hformat : format = .native ∨ format = .nativeWithoutHigh ∨ format = .v1)
      (h : span.spanLinks = some links) : Carries (.libraryV1 span) format (.list links)
  | v1Attributes {span : LibrarySpanV1} {links : List LinkData} (hnone : span.spanLinks = none)
      (h : span.attributesLinks = some links) :
      Carries (.libraryV1 span) .v1Attributes (.list links)
  | libraryTag {span : LibrarySpanLegacy} {format : LinkFormat} {raw : RawLinks}
      (hformat : format = .legacyDigits .library ∨ format = .legacyPrefixed .library ∨
        format = .legacyInteger .library)
      (hnone : span.spanLinks = none) (h : span.metaLinks = some (some raw)) :
      Carries (.libraryLegacy span) format raw
  | agentTag {span : AgentSpan} {format : LinkFormat} {raw : RawLinks}
      (hformat : format = .legacyDigits .agent ∨ format = .legacyPrefixed .agent ∨
        format = .legacyInteger .agent)
      (hnone : span.spanLinks = none) (hlinks : span.format = .legacy ∨ span.links = none)
      (h : span.metaLinks = some (some raw)) : Carries (.agent span) format raw
  | agentSpanLinks {span : AgentSpan} {links : List LinkData} (h : span.spanLinks = some links) :
      Carries (.agent span) .agentDecimal (.list links)
  | agentLinks {span : AgentSpan} {links : List LinkData} (hnone : span.spanLinks = none)
      (hformat : span.format = .efficientTracePayloadFormat) (h : span.links = some links) :
      Carries (.agent span) .agentEfficient (.list links)

/-- The wrapper of a span builds its links by the constructor of their format. -/
theorem Carries.getSpanLinks_eq {span : Span} {format : LinkFormat} {raw : RawLinks}
    (h : Carries span format raw) : span.getSpanLinks = raw.build format.build := by
  cases h with
  | librarySpanLinks hformat h =>
      simp only [Span.getSpanLinks, LibrarySpanLegacy.getSpanLinks, h, RawLinks.build]
      rcases hformat with rfl | rfl | rfl <;> rfl
  | v1SpanLinks hformat h =>
      simp only [Span.getSpanLinks, LibrarySpanV1.getSpanLinks, h, RawLinks.build]
      rcases hformat with rfl | rfl | rfl <;> rfl
  | v1Attributes hnone h =>
      simp only [Span.getSpanLinks, LibrarySpanV1.getSpanLinks, hnone, h, RawLinks.build]
      rfl
  | libraryTag hformat hnone h =>
      simp only [Span.getSpanLinks, LibrarySpanLegacy.getSpanLinks, hnone, h,
        Raised.ofOption_some, Raised.ok_bind, Option.getD_some]
      rcases hformat with rfl | rfl | rfl <;> rfl
  | @agentTag span format raw hformat hnone hlinks h =>
      have htag : span.getSpanLinks = raw.build fromAgentLegacyFormat := by
        simp only [AgentSpan.getSpanLinks, hnone, h, Raised.ofOption_some, Raised.ok_bind,
          Option.getD_some]
        split
        · rename_i hformat' hsome
          rcases hlinks with hlegacy | hnolinks
          · rw [hlegacy] at hformat'
            cases hformat'
          · rw [hnolinks] at hsome
            cases hsome
        · rfl
      rw [Span.getSpanLinks, htag]
      rcases hformat with rfl | rfl | rfl <;> rfl
  | agentSpanLinks h =>
      simp only [Span.getSpanLinks, AgentSpan.getSpanLinks, h, RawLinks.build]
      rfl
  | agentLinks hnone hformat h =>
      simp only [Span.getSpanLinks, AgentSpan.getSpanLinks, hnone, hformat, h, RawLinks.build]
      rfl

end Formats

section Ids

variable {data : LinkData} {ids : LinkIds}

theorem LinkIds.traceId_div (ids : LinkIds) : ids.traceId / 16 ^ 16 = ids.high := by
  have hlow := ids.low_lt
  unfold LinkIds.traceId
  omega

theorem LinkIds.traceId_mod (ids : LinkIds) : ids.traceId % 16 ^ 16 = ids.low := by
  have hlow := ids.low_lt
  unfold LinkIds.traceId
  omega

theorem toIntBase16_of_hex {n : Nat} {s t : Str} (h : Hexadecimal n s)
    (ht : t = s ∨ t = '0' :: 'x' :: s) : Value.toIntBase16 (.text t) = .ok (n : Int) := by
  rw [Value.toIntBase16, Raised.ofOption_eq_ok_iff]
  rcases ht with rfl | rfl
  · exact intOfHex_of_digits h
  · exact intOfHex_prefixed h

theorem spanIdOf_of_encodes {spanId : Nat} (h : EncodesSpanId data spanId) :
    spanIdOf data = .ok (spanId : Int) := by
  unfold spanIdOf
  rcases h with h | ⟨s, hs, h⟩ | ⟨hnone, s, hs, h⟩
  · rw [h]
  · rcases h with h | h
    · rw [h]
      exact toIntBase16_of_hex hs (Or.inl rfl)
    · rw [h]
      exact toIntBase16_of_hex hs (Or.inr rfl)
  · rw [hnone, h]
    exact Raised.ofOption_eq_ok_iff.mpr (intOfText_decimal hs)

theorem exists_flagsOf (h : ∀ v, data.get? "flags" = some v → ∃ n, v = .int n) :
    ∃ flags, flagsOf data = .ok flags := by
  unfold flagsOf
  cases hflags : data.get? "flags" with
  | none => exact ⟨_, rfl⟩
  | some v =>
      obtain ⟨n, rfl⟩ := h v hflags
      exact ⟨_, rfl⟩

/-- A link that is built has the ids of its data when both halves were recovered. -/
theorem init_hasIds_iff {format : LinkFormat} (h : format.Encodes data ids)
    {traceId high : Value} {low : Int} :
    (∃ link, DataDogSpanLink.init data traceId low high = .ok link ∧ HasIds ids link) ↔
      high = .int ids.high ∧ low = ids.low := by
  obtain ⟨flags, hflags⟩ := exists_flagsOf h.flags
  rw [DataDogSpanLink.init, hflags, spanIdOf_of_encodes h.spanId]
  simp only [Raised.ok_bind, Raised.pure_eq_ok]
  constructor
  · rintro ⟨link, rfl, hids⟩
    exact ⟨hids.high, hids.low⟩
  · rintro ⟨rfl, rfl⟩
    exact ⟨_, rfl, rfl, rfl, rfl⟩

theorem build_error {e : Raised} {x : Except Raised DataDogSpanLink} (h : x = .error e) :
    ¬ ∃ link, x = .ok link ∧ HasIds ids link := by
  rintro ⟨link, hlink, -⟩
  rw [h] at hlink
  cases hlink

theorem low64_traceId (ids : LinkIds) : low64 (ids.traceId : Int) = ids.low := by
  have hmod := ids.traceId_mod
  unfold low64
  omega

theorem low64_traceId_div (ids : LinkIds) :
    low64 ((ids.traceId : Int) / 2 ^ 64) = ids.high := by
  have hdiv := ids.traceId_div
  have hlt := ids.high_lt
  unfold low64
  omega

theorem Digits.firstPart {s : Str} (h : Digits ids s) : Hexadecimal ids.high (firstPart s) := by
  have htake := h.2.take (k := lenTraceIdParts) (by decide)
  rw [h.1] at htake
  rwa [← ids.traceId_div]

theorem Digits.lastPart {s : Str} (h : Digits ids s) : Hexadecimal ids.low (lastPart s) := by
  have hdrop := h.2.drop (k := lenTraceIdParts) (by rw [h.1]; decide)
  rw [h.1] at hdrop
  unfold DdTypes.lastPart
  rw [h.1, ← ids.traceId_mod]
  exact hdrop

theorem item_eq {key : String} {v : Value} (h : data.get? key = some v) :
    item data key = .ok v := by
  rw [item, h]
  rfl

theorem toIntBase16_hexText (n : Nat) : Value.toIntBase16 (.text (hexText n)) = .ok (n : Int) :=
  toIntBase16_of_hex (hexadecimal_toDigits n) (Or.inr rfl)

theorem build_native (h : LinkFormat.native.Encodes data ids) :
    ∃ link, fromLibraryV1SpanLinks data = .ok link ∧ HasIds ids link := by
  have hlow : low64 (ids.low : Int) = ids.low := by
    have hlt := ids.low_lt
    unfold low64
    omega
  obtain ⟨hid, hhigh⟩ := h.traceId
  rw [fromLibraryV1SpanLinks, item_eq hid, Raised.ok_bind]
  simp only [Value.hexOfInt, traceIdHighV1, hhigh, toIntBase16_hexText, Raised.ok_bind, hlow]
  exact (init_hasIds_iff h).mpr ⟨rfl, rfl⟩

/-- A text of a number of 64 bits is too short for the assertion on its length. -/
theorem build_nativeWithoutHigh (h : LinkFormat.nativeWithoutHigh.Encodes data ids) :
    fromLibraryV1SpanLinks data = .error (.assertionError []) := by
  obtain ⟨-, hid, hnone⟩ := h.traceId
  have hlength : (hexText ids.low).length ≤ lenTraceIdParts + 2 := by
    have hdigits := (Nat.length_toDigits_le_iff (b := 16) (n := ids.low) (k := 16) (by decide)
      (by decide)).mpr ids.low_lt
    simp only [hexText, hex, List.length_cons, lenTraceIdParts]
    omega
  have hprefix : ['0', 'x'] <+: hexText ids.low := ⟨_, rfl⟩
  rw [fromLibraryV1SpanLinks, item_eq hid, Raised.ok_bind]
  simp only [Value.hexOfInt, traceIdHighV1, hnone, hprefix, hlength]
  rfl

theorem Digits.traceIdHighV1 {s : Str} (h : Digits ids s)
    (hnone : data.get? "trace_id_high" = none) :
    traceIdHighV1 data (.text ('0' :: 'x' :: s)) = .ok (.int ids.high) := by
  have hpart : partAfterPrefix ('0' :: 'x' :: s) = DdTypes.firstPart s := rfl
  have hprefix : ['0', 'x'] <+: '0' :: 'x' :: s := ⟨_, rfl⟩
  have hlength : ¬ ('0' :: 'x' :: s).length ≤ lenTraceIdParts + 2 := by
    simp only [List.length_cons, h.1, lenTraceIdParts]
    omega
  simp only [DdTypes.traceIdHighV1, hnone, hprefix, hlength, hpart,
    toIntBase16_of_hex h.firstPart (Or.inl rfl)]
  rfl

theorem Digits.toIntBase16 {s t : Str} (h : Digits ids s) (ht : t = s ∨ t = '0' :: 'x' :: s) :
    Value.toIntBase16 (.text t) = .ok (ids.traceId : Int) :=
  toIntBase16_of_hex h.2 ht

theorem build_v1 (h : LinkFormat.v1.Encodes data ids) :
    ∃ link, fromLibraryV1SpanLinks data = .ok link ∧ HasIds ids link := by
  obtain ⟨⟨s, hs, hid⟩, hnone⟩ := h.traceId
  rw [fromLibraryV1SpanLinks, item_eq hid, Raised.ok_bind]
  simp only [Value.hexOfInt, hs.traceIdHighV1 hnone, hs.toIntBase16 (Or.inr rfl), Raised.ok_bind,
    low64_traceId]
  exact (init_hasIds_iff h).mpr ⟨rfl, rfl⟩

theorem build_v1Attributes (h : LinkFormat.v1Attributes.Encodes data ids) :
    ∃ link, fromLibraryV1Attributes data = .ok link ∧ HasIds ids link := by
  obtain ⟨⟨s, hs, hid⟩, hnone⟩ := h.traceId
  rw [fromLibraryV1Attributes, item_eq hid, Raised.ok_bind]
  simp only [hs.traceIdHighV1 hnone, hs.toIntBase16 (Or.inr rfl), Raised.ok_bind, low64_traceId]
  exact (init_hasIds_iff h).mpr ⟨rfl, rfl⟩

theorem build_agentDecimal (h : LinkFormat.agentDecimal.Encodes data ids) :
    ∃ link, fromAgentSpanLinks data = .ok link ∧ HasIds ids link := by
  obtain ⟨⟨s, hs, hlow⟩, t, ht, hhigh⟩ := h.traceId
  rw [fromAgentSpanLinks, item_eq hlow, Raised.ok_bind, item_eq hhigh, Raised.ok_bind]
  simp only [Value.toInt, intOfText_decimal hs, intOfText_decimal ht, Raised.ofOption_some,
    Raised.ok_bind]
  exact (init_hasIds_iff h).mpr ⟨rfl, rfl⟩

theorem build_agentEfficient (h : LinkFormat.agentEfficient.Encodes data ids) :
    ∃ link, fromAgentEfficientTracePayloadFormat data = .ok link ∧ HasIds ids link := by
  obtain ⟨s, hs, hid⟩ := h.traceId
  obtain ⟨t, ht, hid⟩ : ∃ t, (t = s ∨ t = '0' :: 'x' :: s) ∧
      data.get? "traceID" = some (.text t) := by
    rcases hid with hid | hid
    · exact ⟨s, Or.inl rfl, hid⟩
    · exact ⟨_, Or.inr rfl, hid⟩
  rw [fromAgentEfficientTracePayloadFormat, item_eq hid, Raised.ok_bind, hs.toIntBase16 ht,
    Raised.ok_bind, low64_traceId, low64_traceId_div]
  exact (init_hasIds_iff h).mpr ⟨rfl, rfl⟩

/-- The halves of a text of more than 16 characters, as both legacy constructors take them. -/
def initOfParts (data : LinkData) (t : Str) : Except Raised DataDogSpanLink := do
  let high ← Value.toIntBase16 (.text (firstPart t))
  let low ← Value.toIntBase16 (.text (lastPart t))
  DataDogSpanLink.init data (.text t) low (.int high)

theorem fromAgentLegacyFormat_eq {t : Str} (h : data.get? "trace_id" = some (.text t)) :
    fromAgentLegacyFormat data = initOfParts data t := by
  rw [fromAgentLegacyFormat, item_eq h]
  rfl

theorem fromLibraryLegacyFormat_eq {v : Value} (h : data.get? "trace_id" = some v) {t : Str}
    (ht : v.hexOfInt = .text t) (hlength : lenTraceIdParts < t.length) :
    fromLibraryLegacyFormat data = initOfParts data t := by
  rw [fromLibraryLegacyFormat, item_eq h, Raised.ok_bind]
  simp only [ht, Value.len, Value.slice, Raised.ok_bind, hlength, if_true]
  rfl

theorem build_legacyDigits {reader : Reader}
    (h : (LinkFormat.legacyDigits reader).Encodes data ids) :
    ∃ link, (LinkFormat.legacyDigits reader).build data = .ok link ∧ HasIds ids link := by
  obtain ⟨s, hs, hid⟩ := h.traceId
  have hparts : (LinkFormat.legacyDigits reader).build data = initOfParts data s := by
    cases reader with
    | library =>
        refine fromLibraryLegacyFormat_eq hid rfl ?_
        rw [hs.1]
        decide
    | agent => exact fromAgentLegacyFormat_eq hid
  rw [hparts, initOfParts, toIntBase16_of_hex hs.firstPart (Or.inl rfl), Raised.ok_bind,
    toIntBase16_of_hex hs.lastPart (Or.inl rfl), Raised.ok_bind]
  exact (init_hasIds_iff h).mpr ⟨rfl, rfl⟩

/-- The slice of the upper half ends two digits early when `0x` is in it. -/
theorem build_legacyPrefixed_iff {reader : Reader}
    (h : (LinkFormat.legacyPrefixed reader).Encodes data ids) :
    (∃ link, (LinkFormat.legacyPrefixed reader).build data = .ok link ∧ HasIds ids link) ↔
      ids.high = 0 := by
  obtain ⟨s, hs, hid⟩ := h.traceId
  have hlength : ('0' :: 'x' :: s).length = 34 := by
    rw [List.length_cons, List.length_cons, hs.1]
  have hparts : (LinkFormat.legacyPrefixed reader).build data =
      initOfParts data ('0' :: 'x' :: s) := by
    cases reader with
    | library =>
        refine fromLibraryLegacyFormat_eq hid rfl ?_
        rw [hlength]
        decide
    | agent => exact fromAgentLegacyFormat_eq hid
  have hfirst : Hexadecimal (ids.traceId / 16 ^ 18) (s.take 14) := by
    have htake := hs.2.take (k := 14) (by decide)
    rwa [hs.1] at htake
  have hlast : lastPart ('0' :: 'x' :: s) = lastPart s := by
    unfold lastPart
    rw [hlength, hs.1]
    rfl
  rw [hparts, initOfParts, hlast, toIntBase16_of_hex hs.lastPart (Or.inl rfl),
    toIntBase16_of_hex hfirst (t := firstPart ('0' :: 'x' :: s)) (Or.inr rfl), Raised.ok_bind,
    Raised.ok_bind, init_hasIds_iff h]
  have hlow := ids.low_lt
  have hdiv : ids.traceId / 16 ^ 18 = ids.high / 2 ^ 8 := by
    unfold LinkIds.traceId
    omega
  rw [hdiv]
  constructor
  · rintro ⟨hhigh, -⟩
    rw [Value.int.injEq] at hhigh
    omega
  · intro hzero
    rw [hzero]
    exact ⟨rfl, rfl⟩

end Ids

section Integer

/-- The first 14 of `k` digits are the number above the last 16 if and only if `k` is 30. -/
theorem div_eq_div_iff {n k : Nat} (hk : 16 ≤ k) (hge : 16 ^ (k - 1) ≤ n) (hlt : n < 16 ^ k) :
    n / 16 ^ (k - 14) = n / 16 ^ 16 ↔ k = 30 := by
  have hlower : 16 ^ 13 ≤ n / 16 ^ (k - 14) := by
    rw [Nat.le_div_iff_mul_le (by positivity), ← pow_add]
    have hexp : 13 + (k - 14) = k - 1 := by omega
    rwa [hexp]
  have hupper : n / 16 ^ (k - 14) < 16 ^ 14 := by
    rw [Nat.div_lt_iff_lt_mul (by positivity), ← pow_add]
    have hexp : 14 + (k - 14) = k := by omega
    rwa [hexp]
  constructor
  · intro heq
    rcases Nat.lt_trichotomy k 30 with hshort | hk30 | hlong
    · have hsmall : n / 16 ^ 16 < 16 ^ (k - 16) := by
        rw [Nat.div_lt_iff_lt_mul (by positivity), ← pow_add]
        have hexp : k - 16 + 16 = k := by omega
        rwa [hexp]
      have hle : 16 ^ (k - 16) ≤ 16 ^ 13 := Nat.pow_le_pow_right (by decide) (by omega)
      omega
    · exact hk30
    · have hbig : 16 ^ (k - 17) ≤ n / 16 ^ 16 := by
        rw [Nat.le_div_iff_mul_le (by positivity), ← pow_add]
        have hexp : k - 17 + 16 = k - 1 := by omega
        rwa [hexp]
      have hle : 16 ^ 14 ≤ 16 ^ (k - 17) := Nat.pow_le_pow_right (by decide) (by omega)
      omega
  · rintro rfl
    rfl

variable {data : LinkData} {ids : LinkIds}

/-- The digits that the text of a number has. -/
structure DigitsOf (n : Nat) (digits : Str) : Prop where
  hexText_eq : hexText n = '0' :: 'x' :: digits
  hexadecimal : Hexadecimal n digits
  length_le_iff : ∀ k, 0 < k → (digits.length ≤ k ↔ n < 16 ^ k)

theorem exists_digitsOf (n : Nat) : ∃ digits, DigitsOf n digits :=
  ⟨Nat.toDigits 16 n, rfl, hexadecimal_toDigits n,
    fun _ hk => Nat.length_toDigits_le_iff (by decide) hk⟩

variable {digits : Str}

/-- A short number is all in the lower half. -/
theorem build_legacyInteger_of_short (h : (LinkFormat.legacyInteger .library).Encodes data ids)
    (hdigits : DigitsOf ids.traceId digits) (hshort : digits.length ≤ 14) :
    ∃ link, fromLibraryLegacyFormat data = .ok link ∧ HasIds ids link := by
  have hid : data.get? "trace_id" = some (.int ids.traceId) := h.traceId
  have hlength : ¬ lenTraceIdParts < ('0' :: 'x' :: digits).length := by
    simp only [List.length_cons, lenTraceIdParts]
    omega
  have hsmall := (hdigits.length_le_iff 14 (by decide)).mp hshort
  have hhigh : ids.high = 0 := by
    rw [← ids.traceId_div]
    exact Nat.div_eq_of_lt (hsmall.trans_le (Nat.pow_le_pow_right (by decide) (by decide)))
  have hlow : ids.traceId = ids.low := by
    rw [LinkIds.traceId, hhigh, Nat.zero_mul, Nat.zero_add]
  have hlast : lastPart ('0' :: 'x' :: digits) = '0' :: 'x' :: digits := by
    rw [lastPart, Nat.sub_eq_zero_of_le (not_lt.mp hlength), List.drop_zero]
  rw [fromLibraryLegacyFormat, item_eq hid, Raised.ok_bind]
  simp only [Value.hexOfInt, hdigits.hexText_eq, Value.len, Value.slice, Raised.ok_bind, hlength,
    if_false, hlast, toIntBase16_of_hex hdigits.hexadecimal (Or.inr rfl)]
  exact (init_hasIds_iff h).mpr ⟨by rw [hhigh]; rfl, by rw [hlow]⟩

theorem fromLibraryLegacyFormat_eq_of_long (hid : data.get? "trace_id" = some (.int ids.traceId))
    (hdigits : DigitsOf ids.traceId digits) (hlong : 14 < digits.length) :
    fromLibraryLegacyFormat data = initOfParts data ('0' :: 'x' :: digits) := by
  refine fromLibraryLegacyFormat_eq hid ?_ ?_
  · rw [← hdigits.hexText_eq]
    rfl
  · simp only [List.length_cons, lenTraceIdParts]
    omega

/-- With 15 digits the slice of the lower half starts at the `x`. -/
theorem initOfParts_of_fifteen {n : Nat} (hdigits : Hexadecimal n digits)
    (hlength : digits.length = 15) :
    initOfParts data ('0' :: 'x' :: digits) =
      .error (.valueError "invalid literal for int() with base 16") := by
  have hfirst := toIntBase16_of_hex (hdigits.take (k := 14) (by decide))
    (t := firstPart ('0' :: 'x' :: digits)) (Or.inr rfl)
  have hlast : lastPart ('0' :: 'x' :: digits) = 'x' :: digits := by
    rw [lastPart, List.length_cons, List.length_cons, hlength]
    rfl
  have hx : Value.toIntBase16 (.text ('x' :: digits)) =
      .error (.valueError "invalid literal for int() with base 16") := by
    rw [Value.toIntBase16, intOfHex_x (isSome_digit_of_natOf hdigits.2)]
    rfl
  rw [initOfParts, hfirst, Raised.ok_bind, hlast, hx]
  rfl

/-- With more digits the lower half is right and the upper half are the first 14 digits. -/
theorem initOfParts_of_long {n : Nat} (hdigits : Hexadecimal n digits)
    (hlong : 16 ≤ digits.length) :
    initOfParts data ('0' :: 'x' :: digits) =
      DataDogSpanLink.init data (.text ('0' :: 'x' :: digits)) ((n % 16 ^ 16 : Nat) : Int)
        (.int ((n / 16 ^ (digits.length - 14) : Nat) : Int)) := by
  have hfirst := toIntBase16_of_hex (hdigits.take (k := 14) (by decide))
    (t := firstPart ('0' :: 'x' :: digits)) (Or.inr rfl)
  have hdrop := hdigits.drop (k := digits.length - 16) (by omega)
  have hrest : digits.length - (digits.length - 16) = 16 := by omega
  have hlast : lastPart ('0' :: 'x' :: digits) = digits.drop (digits.length - 16) := by
    have hlength : ('0' :: 'x' :: digits).length - lenTraceIdParts = digits.length - 16 + 2 := by
      simp only [List.length_cons, lenTraceIdParts]
      omega
    rw [lastPart, hlength]
    rfl
  rw [hrest] at hdrop
  rw [initOfParts, hfirst, Raised.ok_bind, hlast, toIntBase16_of_hex hdrop (Or.inl rfl),
    Raised.ok_bind]

theorem build_legacyInteger_iff (h : (LinkFormat.legacyInteger .library).Encodes data ids) :
    (∃ link, fromLibraryLegacyFormat data = .ok link ∧ HasIds ids link) ↔
      ids.traceId < 16 ^ 14 ∨ 16 ^ 29 ≤ ids.traceId ∧ ids.traceId < 16 ^ 30 := by
  obtain ⟨digits, hdigits⟩ := exists_digitsOf ids.traceId
  have hmany : 16 ^ 29 ≤ ids.traceId ↔ 29 < digits.length := by
    rw [← not_lt, ← hdigits.length_le_iff 29 (by decide), not_le]
  rw [← hdigits.length_le_iff 14 (by decide), ← hdigits.length_le_iff 30 (by decide), hmany]
  rcases Nat.lt_or_ge 14 digits.length with hlong | hshort
  · rw [fromLibraryLegacyFormat_eq_of_long h.traceId hdigits hlong]
    rcases Nat.lt_or_ge 15 digits.length with hlonger | hfifteen
    · have hge : 16 ^ (digits.length - 1) ≤ ids.traceId := by
        rw [← not_lt, ← hdigits.length_le_iff _ (by omega)]
        omega
      have hlt := (hdigits.length_le_iff digits.length (by omega)).mp le_rfl
      rw [initOfParts_of_long hdigits.hexadecimal hlonger, init_hasIds_iff h, ids.traceId_mod,
        Value.int.injEq, Int.ofNat_inj, ← ids.traceId_div, div_eq_div_iff hlonger hge hlt]
      constructor
      · rintro ⟨hthirty, -⟩
        omega
      · intro hthirty
        exact ⟨by omega, rfl⟩
    · have hfifteen' : digits.length = 15 := by omega
      refine iff_of_false (build_error (initOfParts_of_fifteen hdigits.hexadecimal hfifteen')) ?_
      omega
  · exact iff_of_true (build_legacyInteger_of_short h hdigits hshort) (Or.inl hshort)

theorem build_legacyInteger_agent (h : (LinkFormat.legacyInteger .agent).Encodes data ids) :
    fromAgentLegacyFormat data = .error (.typeError "object is not subscriptable") := by
  have hid : data.get? "trace_id" = some (.int ids.traceId) := h.traceId
  rw [fromAgentLegacyFormat, item_eq hid]
  rfl

end Integer

section Spans

variable {data : LinkData} {ids : LinkIds}

/-- A link is built with its ids if and only if they are readable in its format. -/
theorem build_iff_readable {format : LinkFormat} (h : format.Encodes data ids) :
    (∃ link, format.build data = .ok link ∧ HasIds ids link) ↔ format.Readable ids := by
  cases format with
  | native => exact iff_of_true (build_native h) trivial
  | nativeWithoutHigh => exact iff_of_false (build_error (build_nativeWithoutHigh h)) not_false
  | v1 => exact iff_of_true (build_v1 h) trivial
  | v1Attributes => exact iff_of_true (build_v1Attributes h) trivial
  | legacyDigits reader => exact iff_of_true (build_legacyDigits h) trivial
  | legacyPrefixed reader => exact build_legacyPrefixed_iff h
  | legacyInteger reader =>
      cases reader with
      | library => exact build_legacyInteger_iff h
      | agent => exact iff_of_false (build_error (build_legacyInteger_agent h)) not_false
  | agentDecimal => exact iff_of_true (build_agentDecimal h) trivial
  | agentEfficient => exact iff_of_true (build_agentEfficient h) trivial

theorem RawLinks.build_iff {format : LinkFormat} {raw : RawLinks} {all : List LinkIds}
    (h : raw.Holds format.Encodes all) :
    (∃ links, raw.build format.build = .ok links ∧ List.Forall₂ HasIds all links) ↔
      ∀ ids ∈ all, format.Readable ids := by
  cases raw with
  | list links =>
      have hlinks : List.Forall₂ format.Encodes links all := h
      exact Raised.mapM_forall₂_iff (fun _ _ hencodes => build_iff_readable hencodes) hlinks
  | json s =>
      obtain ⟨elements, hload, h⟩ := h
      rw [RawLinks.build, hload, Raised.ofOption_some, Raised.ok_bind]
      refine Raised.mapM_forall₂_iff ?_ h
      rintro element ids ⟨data, hdata, hencodes⟩
      rw [hdata, Raised.ok_bind]
      exact build_iff_readable hencodes

/-- **Span links agree with their payload exactly where the format is readable.** -/
theorem getSpanLinks_iff_readable {span : Span} {format : LinkFormat} {raw : RawLinks}
    {all : List LinkIds} (hcarries : Carries span format raw) (h : raw.Holds format.Encodes all) :
    (∃ links, span.getSpanLinks = .ok links ∧ List.Forall₂ HasIds all links) ↔
      ∀ ids ∈ all, format.Readable ids := by
  rw [hcarries.getSpanLinks_eq]
  exact RawLinks.build_iff h

/-- The link of the id `0x…0001…0002`. -/
def prefixedLink : LinkData :=
  ⟨[("trace_id", .text "0x00000000000000010000000000000002"),
    ("span_id", .text "0000000000000003")], by decide⟩

/-- The upper half of the id is read as 0. -/
theorem not_getSpanLinks_prefixed :
    ¬ ∀ (span : Span) (format : LinkFormat) (raw : RawLinks) (all : List LinkIds),
      Carries span format raw → raw.Holds format.Encodes all →
        ∃ links, span.getSpanLinks = .ok links ∧ List.Forall₂ HasIds all links := by
  intro hall
  have hdigits : Digits ⟨1, 2, 3, by decide, by decide⟩ "00000000000000010000000000000002" := by
    refine ⟨rfl, by decide, ?_⟩
    decide
  have hspanId : Hexadecimal 3 "0000000000000003" := by
    refine ⟨by decide, ?_⟩
    decide
  have hencodes : (LinkFormat.legacyPrefixed .library).Encodes prefixedLink
      ⟨1, 2, 3, by decide, by decide⟩ := by
    refine ⟨⟨_, hdigits, rfl⟩, Or.inr (Or.inl ⟨_, hspanId, Or.inl rfl⟩), ?_⟩
    intro v hv
    cases hv
  have hholds : (RawLinks.list [prefixedLink]).Holds (LinkFormat.legacyPrefixed .library).Encodes
      [⟨1, 2, 3, by decide, by decide⟩] := List.Forall₂.cons hencodes List.Forall₂.nil
  have hcarries : Carries (.libraryLegacy ⟨none, some (some (.list [prefixedLink]))⟩)
      (.legacyPrefixed .library) (.list [prefixedLink]) :=
    .libraryTag (Or.inr (Or.inl rfl)) rfl rfl
  obtain ⟨links, hlinks, hids⟩ := hall _ _ _ _ hcarries hholds
  rw [hcarries.getSpanLinks_eq] at hlinks
  have hzero := (RawLinks.build_iff hholds).mp ⟨links, hlinks, hids⟩ _ List.mem_cons_self
  cases hzero

/-- An integer id of 14 hexadecimal digits. -/
def integerLink : LinkData :=
  ⟨[("trace_id", .int 72057594037927935), ("span_id", .text "0a"), ("flags", .int 1)], by decide⟩

theorem getSpanLinks_iff_readable_integer :
    ∃ links, (Span.libraryLegacy ⟨none, some (some (.list [integerLink]))⟩).getSpanLinks =
        .ok links ∧
      List.Forall₂ HasIds [⟨0, 72057594037927935, 10, by decide, by decide⟩] links := by
  have hspanId : Hexadecimal 10 "0a" := ⟨by decide, by decide⟩
  have hencodes : (LinkFormat.legacyInteger .library).Encodes integerLink
      ⟨0, 72057594037927935, 10, by decide, by decide⟩ := by
    refine ⟨rfl, Or.inr (Or.inl ⟨_, hspanId, Or.inl rfl⟩), ?_⟩
    intro v hv
    exact ⟨1, (Option.some.inj hv).symm⟩
  have hholds : (RawLinks.list [integerLink]).Holds (LinkFormat.legacyInteger .library).Encodes
      [⟨0, 72057594037927935, 10, by decide, by decide⟩] :=
    List.Forall₂.cons hencodes List.Forall₂.nil
  refine (getSpanLinks_iff_readable (.libraryTag (Or.inr (Or.inr rfl)) rfl rfl) hholds).mpr ?_
  rw [List.forall_mem_singleton]
  exact Or.inl (by decide)

end Spans

end DdTypes
end SystemTests
