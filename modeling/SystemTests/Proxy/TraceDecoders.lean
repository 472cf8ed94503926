import Mathlib.Data.Int.ModEq
import Mathlib.Data.List.Forall2
import SystemTests.Foundation.Dict
import SystemTests.Foundation.Exception

/-!
# Traces of the v0.4 and v0.5 endpoints (`utils/proxy/_deserializer.py`)

A span of v0.4 is a dictionary.  A span of v0.5 is a list of twelve values whose
strings are positions in a table that comes before the spans.  In both, the ids
may come as signed integers.

**Results.**
* `unsigned_spec`: what becomes of an id.
* `decodeSpan_spec`: what a span of v0.5 is decoded as.
* `decoders_agree`: a payload of v0.4 and an encoding of it in v0.5 are decoded
  as the same spans.
-/

namespace SystemTests
namespace Proxy
namespace TraceDecoders

open Foundation Foundation.Text

section Values

/-- A value of a span; `N` are the numbers of the metrics. -/
inductive Value (N : Type) where
  | none
  | int (n : Int)
  | text (s : Str)
  | texts (d : Dict Str Str)
  | numbers (d : Dict Str N)

abbrev Span (N : Type) := Dict Str (Value N)

variable {N : Type}

/-- `value if value >= 0 else (-value ^ (2**size_in_bits - 1)) + 1` -/
def unsigned (value : Int) (sizeInBits : Nat) : Int :=
  if 0 ≤ value then value else ((value.natAbs ^^^ (2 ^ sizeInBits - 1)) + 1 : Nat)

/-- `_parse_as_unsigned_int` -/
def parseAsUnsignedInt (value : Value N) (sizeInBits : Nat) : Except Raised (Value N) :=
  match value with
  | .int n =>
      if -(2 ^ sizeInBits - 1) ≤ n ∧ n ≤ 2 ^ sizeInBits - 1 then .ok (.int (unsigned n sizeInBits))
      else .error (.assertionError [])
  | value => .ok value

def idKeys : List Str := ["trace_id", "parent_id", "span_id"]

def decodeUnsignedInt (span : Span N) (subKey : Str) : Except Raised (Span N) :=
  match span.get? subKey with
  | none => .ok span
  | some value => do
      let value ← parseAsUnsignedInt value 64
      return span.set subKey value

def decodeUnsignedIntSpan (span : Span N) : Except Raised (Span N) :=
  idKeys.foldlM decodeUnsignedInt span

/-- `_decode_unsigned_int_traces` -/
def decodeUnsignedIntTraces (content : List (List (Span N))) :
    Except Raised (List (List (Span N))) :=
  content.mapM fun trace => trace.mapM decodeUnsignedIntSpan

end Values

section Version05

/-- The values of a span by their positions. -/
structure EncodedSpan (N : Type) where
  service : Int
  name : Int
  resource : Int
  traceId : Int
  spanId : Int
  parentId : Int
  start : Int
  duration : Int
  error : Int
  metaIndices : Dict Int Int
  metricIndices : Dict Int N
  typeIndex : Int

variable {N : Type}

/-- `strings[int(index)]` -/
def stringAt (strings : List Str) (index : Int) : Except Raised Str :=
  let position := if index < 0 then index + strings.length else index
  if 0 ≤ position then
    Raised.ofOption (.indexError "list index out of range") strings[position.toNat]?
  else .error (.indexError "list index out of range")

def zeroToNone (n : Int) : Value N := if n ≠ 0 then .int n else .none

def decodeItem {α β : Type} (strings : List Str) (read : α → Except Raised β) (item : Int × α) :
    Except Raised (Str × β) := do
  let key ← stringAt strings item.1
  let value ← read item.2
  return (key, value)

/-- A dictionary whose keys are positions; `read` reads its values. -/
def decodeDict {α β : Type} (strings : List Str) (read : α → Except Raised β) (d : Dict Int α) :
    Except Raised (Dict Str β) := do
  let items ← d.items.mapM (decodeItem strings read)
  return Dict.empty.setAll items

/-- The items of a decoded span. -/
def spanItems (span : EncodedSpan N) (service name resource type : Str) (texts : Dict Str Str)
    (numbers : Dict Str N) : List (Str × Value N) :=
  [("service".toList, .text service),
    ("name".toList, .text name),
    ("resource".toList, .text resource),
    ("trace_id".toList, .int span.traceId),
    ("span_id".toList, .int span.spanId),
    ("parent_id".toList, zeroToNone span.parentId),
    ("start".toList, .int span.start),
    ("duration".toList, zeroToNone span.duration),
    ("error".toList, .int span.error),
    ("meta".toList, .texts texts),
    ("metrics".toList, .numbers numbers),
    ("type".toList, .text type)]

def decodeSpan (strings : List Str) (span : EncodedSpan N) : Except Raised (Span N) := do
  let service ← stringAt strings span.service
  let name ← stringAt strings span.name
  let resource ← stringAt strings span.resource
  let texts ← decodeDict strings (stringAt strings) span.metaIndices
  let numbers ← decodeDict strings .ok span.metricIndices
  let type ← stringAt strings span.typeIndex
  return Dict.empty.setAll (spanItems span service name resource type texts numbers)

/-- `_decode_v_0_5_traces` -/
def decodeV05Traces (content : List Str × List (List (EncodedSpan N))) :
    Except Raised (List (List (Span N))) :=
  content.2.mapM fun spans => spans.mapM (decodeSpan content.1)

/-- What is done with a payload of `/v0.5/traces`. -/
def deserializeV05 (content : List Str × List (List (EncodedSpan N))) :
    Except Raised (List (List (Span N))) := do
  let result ← decodeV05Traces content
  decodeUnsignedIntTraces result

end Version05

section Ids

variable {N : Type}

theorem xor_mask {x w : Nat} (h : x < 2 ^ w) : x ^^^ (2 ^ w - 1) = 2 ^ w - 1 - x := by
  have hnot := congrArg BitVec.toNat (BitVec.xor_allOnes (x := BitVec.ofNat w x))
  rw [BitVec.toNat_xor, BitVec.toNat_allOnes, BitVec.toNat_not, BitVec.toNat_ofNat,
    Nat.mod_eq_of_lt h] at hnot
  exact hnot

/-- **An id** ends in the range of unsigned integers, and keeps its residue. -/
theorem unsigned_spec {n : Int} {w : Nat} (hlow : -(2 ^ w - 1) ≤ n) (hhigh : n ≤ 2 ^ w - 1) :
    0 ≤ unsigned n w ∧ unsigned n w < 2 ^ w ∧ unsigned n w ≡ n [ZMOD 2 ^ w] ∧
      (unsigned n w = 0 ↔ n = 0) := by
  unfold unsigned
  split_ifs with hn
  · exact ⟨hn, by omega, Int.ModEq.refl n, Iff.rfl⟩
  · have hpow : ((2 ^ w : Nat) : Int) = 2 ^ w := by push_cast; rfl
    have hlt : n.natAbs < 2 ^ w := by
      zify
      rw [abs_of_neg (by omega)]
      omega
    -- the complement plus one
    have hvalue : (((n.natAbs ^^^ (2 ^ w - 1)) + 1 : Nat) : Int) = n + 2 ^ w := by
      rw [xor_mask hlt]
      omega
    rw [hvalue]
    refine ⟨by omega, by omega, ?_, by omega⟩
    exact Int.modEq_iff_dvd.mpr ⟨-1, by ring⟩

end Ids

section Encoding

variable {N : Type}

/-- The positions of a dictionary denote another dictionary. -/
structure DictEncodes {α β : Type} (strings : List Str) (read : α → Except Raised β)
    (d : Dict Str β) (e : Dict Int α) : Prop where
  sound : ∀ i a, e.get? i = some a → ∃ k b, stringAt strings i = .ok k ∧ read a = .ok b ∧
    d.get? k = some b
  complete : ∀ k b, d.get? k = some b → ∃ i a, e.get? i = some a ∧ stringAt strings i = .ok k ∧
    read a = .ok b

/-- The value of a field, which has a default where it is absent. -/
def HasField {α : Type} (span : Span N) (key : String) (value : α → Value N) (default : α)
    (encodes : α → Prop) : Prop :=
  (∃ a, span.get? key.toList = some (value a) ∧ encodes a) ∨
    (span.get? key.toList = none ∧ encodes default)

def fieldKeys : List Str :=
  ["service", "name", "resource", "trace_id", "span_id", "parent_id", "start", "duration", "error",
    "meta", "metrics", "type"]

/-- A span of v0.5 for a span of v0.4: any positions in the table that hold its strings.  What is
absent in v0.4 has its zero value in v0.5. -/
structure Encodes (strings : List Str) (span : Span N) (encoded : EncodedSpan N) : Prop where
  service : HasField span "service" .text [] fun s => stringAt strings encoded.service = .ok s
  name : HasField span "name" .text [] fun s => stringAt strings encoded.name = .ok s
  resource : HasField span "resource" .text [] fun s => stringAt strings encoded.resource = .ok s
  traceId : HasField span "trace_id" .int 0 fun n => encoded.traceId = n
  spanId : HasField span "span_id" .int 0 fun n => encoded.spanId = n
  parentId : HasField span "parent_id" .int 0 fun n => encoded.parentId = n
  start : HasField span "start" .int 0 fun n => encoded.start = n
  duration : HasField span "duration" .int 0 fun n => encoded.duration = n
  error : HasField span "error" .int 0 fun n => encoded.error = n
  texts : HasField span "meta" .texts .empty fun d =>
    DictEncodes strings (stringAt strings) d encoded.metaIndices
  numbers : HasField span "metrics" .numbers .empty fun d =>
    DictEncodes strings .ok d encoded.metricIndices
  type : HasField span "type" .text [] fun s => stringAt strings encoded.typeIndex = .ok s
  known : ∀ key ∈ span.keys, key ∈ fieldKeys

/-- Equal values: dictionaries are equal when they have the same items. -/
def Same : Value N → Value N → Prop
  | .none, .none => True
  | .int m, .int n => m = n
  | .text s, .text t => s = t
  | .texts d, .texts e => ∀ k, d.get? k = e.get? k
  | .numbers d, .numbers e => ∀ k, d.get? k = e.get? k
  | _, _ => False

/-- The zero of a parent or a duration is `None` in v0.5. -/
def normalize (key : Str) (value : Value N) : Value N :=
  match value with
  | .int n => if key = "parent_id".toList ∨ key = "duration".toList then zeroToNone n else .int n
  | value => value

/-- What v0.5 has for a field that v0.4 leaves out. -/
def absentValue (key : Str) : Option (Value N) :=
  if key ∈ ["service", "name", "resource", "type"].map String.toList then some (.text [])
  else if key ∈ ["trace_id", "span_id", "start", "error"].map String.toList then some (.int 0)
  else if key ∈ ["parent_id", "duration"].map String.toList then some .none
  else if key = "meta".toList then some (.texts .empty)
  else if key = "metrics".toList then some (.numbers .empty)
  else none

/-- What v0.4 and v0.5 have under a key. -/
def FieldAgrees (key : Str) (value value' : Option (Value N)) : Prop :=
  match value with
  | some value => ∃ w, value' = some w ∧ Same (normalize key value) w
  | none =>
      match absentValue (N := N) key with
      | some zero => ∃ w, value' = some w ∧ Same zero w
      | none => value' = none

/-- A span decoded from v0.4 and one from v0.5 agree. -/
def Agrees (span span' : Span N) : Prop :=
  ∀ key, FieldAgrees key (span.get? key) (span'.get? key)

/-- The ids of a span have an absolute value that fits into 64 bits. -/
def BoundedIds (span : Span N) : Prop :=
  ∀ key ∈ idKeys, ∀ n, span.get? key = some (.int n) → |n| ≤ 2 ^ 64 - 1

/-- An id ends as an unsigned integer of 64 bits with the residue it came with. -/
def EndsUnsigned (decoded : Span N) (key : Str) (n : Int) : Prop :=
  ∃ m, decoded.get? key = some (.int m) ∧ 0 ≤ m ∧ m < 2 ^ 64 ∧ m ≡ n [ZMOD 2 ^ 64]

def IdsEndUnsigned (received decoded : Span N) : Prop :=
  ∀ key ∈ idKeys, ∀ n, received.get? key = some (.int n) → EndsUnsigned decoded key n

/-- In v0.5 a parent that is zero is `None`. -/
def IdsEndUnsignedOrNone (received decoded : Span N) : Prop :=
  ∀ key ∈ idKeys, ∀ n, received.get? key = some (.int n) →
    (key = "parent_id".toList ∧ n = 0 ∧ decoded.get? key = some .none) ∨ EndsUnsigned decoded key n

end Encoding

section Conversion

variable {N : Type}

def toUnsigned : Value N → Value N
  | .int n => .int (unsigned n 64)
  | value => value

theorem parseAsUnsignedInt_eq_ok {value : Value N}
    (h : ∀ n, value = .int n → |n| ≤ 2 ^ 64 - 1) :
    parseAsUnsignedInt value 64 = .ok (toUnsigned value) := by
  cases value with
  | int n =>
      have hn := abs_le.mp (h n rfl)
      rw [parseAsUnsignedInt, if_pos hn, toUnsigned]
  | none => rfl
  | text s => rfl
  | texts d => rfl
  | numbers d => rfl

/-- One key is converted, and the others are kept. -/
theorem decodeUnsignedInt_spec {span : Span N} {subKey : Str}
    (h : ∀ n, span.get? subKey = some (.int n) → |n| ≤ 2 ^ 64 - 1) :
    ∃ span', decodeUnsignedInt span subKey = .ok span' ∧ ∀ key, span'.get? key =
      if key = subKey then (span.get? key).map toUnsigned else span.get? key := by
  unfold decodeUnsignedInt
  cases hget : span.get? subKey with
  | none =>
      refine ⟨span, rfl, fun key => ?_⟩
      split_ifs with hkey
      · rw [hkey, hget, Option.map_none]
      · rfl
  | some value =>
      have hvalue : parseAsUnsignedInt value 64 = .ok (toUnsigned value) :=
        parseAsUnsignedInt_eq_ok fun n hn => h n (by rw [hget, hn])
      refine ⟨span.set subKey (toUnsigned value), by simp only [hvalue]; rfl, fun key => ?_⟩
      rw [Dict.get?_set]
      split_ifs with hkey
      · rw [hkey, hget, Option.map_some]
      · rfl

theorem foldlM_decodeUnsignedInt_spec {keys : List Str} (hnodup : keys.Nodup) {span : Span N}
    (h : ∀ subKey ∈ keys, ∀ n, span.get? subKey = some (.int n) → |n| ≤ 2 ^ 64 - 1) :
    ∃ span', keys.foldlM decodeUnsignedInt span = .ok span' ∧ ∀ key, span'.get? key =
      if key ∈ keys then (span.get? key).map toUnsigned else span.get? key := by
  induction keys generalizing span with
  | nil => exact ⟨span, rfl, fun key => (if_neg List.not_mem_nil).symm⟩
  | cons subKey keys ih =>
      rw [List.nodup_cons] at hnodup
      rw [List.forall_mem_cons] at h
      obtain ⟨first, hfirst, hget⟩ := decodeUnsignedInt_spec h.1
      have hne : ∀ key ∈ keys, key ≠ subKey := fun key hkey heq => hnodup.1 (heq ▸ hkey)
      have hrest : ∀ key ∈ keys, ∀ n, first.get? key = some (.int n) → |n| ≤ 2 ^ 64 - 1 := by
        intro key hkey n hn
        rw [hget, if_neg (hne key hkey)] at hn
        exact h.2 key hkey n hn
      obtain ⟨span', hspan', hget'⟩ := ih hnodup.2 hrest
      refine ⟨span', by rw [List.foldlM_cons, hfirst]; exact hspan', fun key => ?_⟩
      rw [hget', hget]
      by_cases hkey : key = subKey
      · subst hkey
        rw [if_neg hnodup.1, if_pos rfl, if_pos List.mem_cons_self]
      · rw [if_neg hkey]
        simp only [List.mem_cons, hkey, false_or]

/-- **The ids of a span** are converted, and nothing else. -/
theorem decodeUnsignedIntSpan_spec {span : Span N} (h : BoundedIds span) :
    ∃ span', decodeUnsignedIntSpan span = .ok span' ∧ ∀ key, span'.get? key =
      if key ∈ idKeys then (span.get? key).map toUnsigned else span.get? key :=
  foldlM_decodeUnsignedInt_spec (by decide) h

end Conversion

section Decoding

variable {N : Type} {strings : List Str}

theorem decodeItem_eq_ok_iff {α β : Type} {read : α → Except Raised β} {item : Int × α}
    {kb : Str × β} :
    decodeItem strings read item = .ok kb ↔
      stringAt strings item.1 = .ok kb.1 ∧ read item.2 = .ok kb.2 := by
  unfold decodeItem
  constructor
  · intro h
    obtain ⟨k, hk, h⟩ := Raised.bind_eq_ok.mp h
    obtain ⟨b, hb, h⟩ := Raised.bind_eq_ok.mp h
    rw [Raised.pure_eq_ok] at h
    rw [← h]
    exact ⟨hk, hb⟩
  · rintro ⟨hk, hb⟩
    rw [hk, Raised.ok_bind, hb]
    rfl

theorem decodeDict_spec {α β : Type} {read : α → Except Raised β} {d : Dict Str β} {e : Dict Int α}
    (h : DictEncodes strings read d e) :
    ∃ d', decodeDict strings read e = .ok d' ∧ ∀ k, d'.get? k = d.get? k := by
  have hfound : ∀ item ∈ e.items, ∃ kb, decodeItem strings read item = .ok kb := by
    intro item hitem
    obtain ⟨k, b, hk, hb, -⟩ := h.sound item.1 item.2 ((Dict.mem_items_iff _ _ _).mp hitem)
    exact ⟨(k, b), decodeItem_eq_ok_iff.mpr ⟨hk, hb⟩⟩
  obtain ⟨items, hitems⟩ := Raised.exists_mapM_eq_ok hfound
  have hsound : ∀ k b, (k, b) ∈ items → d.get? k = some b := by
    intro k b hkb
    obtain ⟨item, hitem, hok⟩ := Raised.exists_of_mem_mapM hitems hkb
    obtain ⟨hk, hb⟩ := decodeItem_eq_ok_iff.mp hok
    obtain ⟨k', b', hk', hb', hget⟩ := h.sound item.1 item.2 ((Dict.mem_items_iff _ _ _).mp hitem)
    rw [hk, Except.ok.injEq] at hk'
    rw [hb, Except.ok.injEq] at hb'
    rw [← hk', ← hb'] at hget
    exact hget
  refine ⟨Dict.empty.setAll items, by rw [decodeDict, hitems]; rfl, fun k => ?_⟩
  cases hget : d.get? k with
  | none =>
      refine Dict.get?_setAll_of_not_mem _ fun hmem => ?_
      obtain ⟨⟨k', b⟩, hkb, rfl⟩ := List.mem_map.mp hmem
      rw [hsound k' b hkb] at hget
      cases hget
  | some b =>
      obtain ⟨i, a, hia, hk, hb⟩ := h.complete k b hget
      obtain ⟨kb, hmem, hok⟩ := Raised.mem_mapM_of_mem hitems ((Dict.mem_items_iff _ _ _).mpr hia)
      obtain ⟨hk', hb'⟩ := decodeItem_eq_ok_iff.mp hok
      rw [hk, Except.ok.injEq] at hk'
      have hkey : k ∈ items.map Prod.fst := List.mem_map.mpr ⟨kb, hmem, hk'.symm⟩
      obtain ⟨b', hb', hmem'⟩ := Dict.exists_get?_setAll Dict.empty hkey
      rw [hb', ← hget, hsound k b' hmem']

/-- What a span of v0.5 is decoded as, once its strings were found. -/
structure Decoded (strings : List Str) (encoded : EncodedSpan N) (span : Span N) : Prop where
  service : ∃ s, span.get? "service".toList = some (.text s) ∧ stringAt strings encoded.service = .ok s
  name : ∃ s, span.get? "name".toList = some (.text s) ∧ stringAt strings encoded.name = .ok s
  resource : ∃ s, span.get? "resource".toList = some (.text s) ∧
    stringAt strings encoded.resource = .ok s
  traceId : span.get? "trace_id".toList = some (.int encoded.traceId)
  spanId : span.get? "span_id".toList = some (.int encoded.spanId)
  parentId : span.get? "parent_id".toList = some (zeroToNone encoded.parentId)
  start : span.get? "start".toList = some (.int encoded.start)
  duration : span.get? "duration".toList = some (zeroToNone encoded.duration)
  error : span.get? "error".toList = some (.int encoded.error)
  texts : ∃ d, span.get? "meta".toList = some (.texts d) ∧
    decodeDict strings (stringAt strings) encoded.metaIndices = .ok d
  numbers : ∃ d, span.get? "metrics".toList = some (.numbers d) ∧
    decodeDict strings .ok encoded.metricIndices = .ok d
  type : ∃ s, span.get? "type".toList = some (.text s) ∧ stringAt strings encoded.typeIndex = .ok s
  known : ∀ key, key ∉ fieldKeys → span.get? key = none

theorem get?_spanItems (span : EncodedSpan N) (service name resource type : Str)
    (texts : Dict Str Str) (numbers : Dict Str N) (key : Str) :
    (Dict.empty.setAll (spanItems span service name resource type texts numbers)).get? key =
      Dict.find key (spanItems span service name resource type texts numbers) := by
  have hkeys : (spanItems span service name resource type texts numbers).map Prod.fst =
      fieldKeys := rfl
  exact Dict.get?_setAll_empty (hkeys ▸ by decide) key

theorem decodeSpan_spec {encoded : EncodedSpan N} {span : Span N}
    (h : decodeSpan strings encoded = .ok span) : Decoded strings encoded span := by
  unfold decodeSpan at h
  obtain ⟨service, hservice, h⟩ := Raised.bind_eq_ok.mp h
  obtain ⟨name, hname, h⟩ := Raised.bind_eq_ok.mp h
  obtain ⟨resource, hresource, h⟩ := Raised.bind_eq_ok.mp h
  obtain ⟨texts, htexts, h⟩ := Raised.bind_eq_ok.mp h
  obtain ⟨numbers, hnumbers, h⟩ := Raised.bind_eq_ok.mp h
  obtain ⟨type, htype, h⟩ := Raised.bind_eq_ok.mp h
  rw [Raised.pure_eq_ok] at h
  have hget := get?_spanItems encoded service name resource type texts numbers
  rw [h] at hget
  exact {
    service := ⟨service, hget _, hservice⟩
    name := ⟨name, hget _, hname⟩
    resource := ⟨resource, hget _, hresource⟩
    traceId := hget _
    spanId := hget _
    parentId := hget _
    start := hget _
    duration := hget _
    error := hget _
    texts := ⟨texts, hget _, htexts⟩
    numbers := ⟨numbers, hget _, hnumbers⟩
    type := ⟨type, hget _, htype⟩
    known := fun key hkey => (hget key).trans ((Dict.find_eq_none_iff key _).mpr hkey) }

end Decoding

section Agreement

variable {N : Type} {strings : List Str} {span : Span N} {encoded : EncodedSpan N}

theorem DictEncodes.empty {α β : Type} {read : α → Except Raised β} :
    DictEncodes strings read .empty .empty where
  sound := fun _ _ h => nomatch h
  complete := fun _ _ h => nomatch h

/-- An encoding grows by an item whose key is new. -/
theorem DictEncodes.set {α β : Type} {read : α → Except Raised β} {d : Dict Str β} {e : Dict Int α}
    (h : DictEncodes strings read d e) {i : Int} {a : α} {k : Str} {b : β}
    (hk : stringAt strings i = .ok k) (hb : read a = .ok b) (hnew : d.get? k = none) :
    DictEncodes strings read (d.set k b) (e.set i a) where
  sound := by
    intro i' a' hget
    rw [Dict.get?_set] at hget
    split_ifs at hget with hi
    · rw [Option.some.injEq] at hget
      exact ⟨k, b, hi ▸ hk, hget ▸ hb, Dict.get?_set_self d k b⟩
    · obtain ⟨k', b', hk', hb', hd⟩ := h.sound i' a' hget
      have hne : k' ≠ k := by
        rintro rfl
        rw [hnew] at hd
        cases hd
      exact ⟨k', b', hk', hb', by rw [Dict.get?_set_ne d b hne, hd]⟩
  complete := by
    intro k' b' hget
    rw [Dict.get?_set] at hget
    split_ifs at hget with hkey
    · rw [Option.some.injEq] at hget
      exact ⟨i, a, Dict.get?_set_self e i a, hkey ▸ hk, hget ▸ hb⟩
    · obtain ⟨i', a', hi', hk', hb'⟩ := h.complete k' b' hget
      have hne : i' ≠ i := by
        rintro rfl
        exact hkey (Except.ok.inj (hk'.symm.trans hk))
      exact ⟨i', a', by rw [Dict.get?_set_ne e a hne, hi'], hk', hb'⟩

theorem get?_eq_of_decodeDict {α β : Type} {read : α → Except Raised β} {d d' : Dict Str β}
    {e : Dict Int α} (h : DictEncodes strings read d e) (hd' : decodeDict strings read e = .ok d')
    (k : Str) : d.get? k = d'.get? k := by
  obtain ⟨d'', hd'', hsame⟩ := decodeDict_spec h
  rw [hd', Except.ok.injEq] at hd''
  rw [hd'', hsame]

theorem idKeys_subset : ∀ key ∈ idKeys, key ∈ fieldKeys := by
  decide

theorem absentValue_eq_none {key : Str} (h : key ∉ fieldKeys) :
    absentValue (N := N) key = none := by
  have htexts : ∀ k ∈ ["service", "name", "resource", "type"].map String.toList, k ∈ fieldKeys := by
    decide
  have hints : ∀ k ∈ ["trace_id", "span_id", "start", "error"].map String.toList,
      k ∈ fieldKeys := by
    decide
  have hzeros : ∀ k ∈ ["parent_id", "duration"].map String.toList, k ∈ fieldKeys := by
    decide
  have hmeta : "meta".toList ∈ fieldKeys := by decide
  have hmetrics : "metrics".toList ∈ fieldKeys := by decide
  rw [absentValue, if_neg (fun hk => h (htexts key hk)), if_neg (fun hk => h (hints key hk)),
    if_neg (fun hk => h (hzeros key hk)), if_neg (fun hk : key = "meta".toList => h (hk ▸ hmeta)),
    if_neg (fun hk : key = "metrics".toList => h (hk ▸ hmetrics))]

theorem exists_decodeSpan (h : Encodes strings span encoded) :
    ∃ decoded, decodeSpan strings encoded = .ok decoded := by
  have htext : ∀ {key : String} {index : Int},
      HasField span key .text [] (fun s => stringAt strings index = .ok s) →
        ∃ s, stringAt strings index = .ok s := by
    rintro key index (⟨s, -, hs⟩ | ⟨-, hs⟩)
    · exact ⟨s, hs⟩
    · exact ⟨[], hs⟩
  obtain ⟨service, hservice⟩ := htext h.service
  obtain ⟨name, hname⟩ := htext h.name
  obtain ⟨resource, hresource⟩ := htext h.resource
  obtain ⟨type, htype⟩ := htext h.type
  obtain ⟨texts, htexts⟩ : ∃ d, decodeDict strings (stringAt strings) encoded.metaIndices = .ok d := by
    rcases h.texts with ⟨d, -, hd⟩ | ⟨-, hd⟩
    · exact (decodeDict_spec hd).imp fun _ hok => hok.1
    · exact (decodeDict_spec hd).imp fun _ hok => hok.1
  obtain ⟨numbers, hnumbers⟩ : ∃ d, decodeDict strings .ok encoded.metricIndices = .ok d := by
    rcases h.numbers with ⟨d, -, hd⟩ | ⟨-, hd⟩
    · exact (decodeDict_spec hd).imp fun _ hok => hok.1
    · exact (decodeDict_spec hd).imp fun _ hok => hok.1
  exact ⟨_, by rw [decodeSpan, hservice, Raised.ok_bind, hname, Raised.ok_bind, hresource,
    Raised.ok_bind, htexts, Raised.ok_bind, hnumbers, Raised.ok_bind, htype, Raised.ok_bind]; rfl⟩

theorem int_of_hasField {key : String} {m n : Int}
    (h : HasField span key .int 0 fun n => m = n) (hn : span.get? key.toList = some (.int n)) :
    m = n := by
  rcases h with ⟨k, hk, rfl⟩ | ⟨hnone, -⟩
  · rw [hn, Option.some.injEq, Value.int.injEq] at hk
    exact hk.symm
  · rw [hn] at hnone
    cases hnone

theorem abs_le_of_hasField (hids : BoundedIds span) {key : String} (hkey : key.toList ∈ idKeys)
    {m : Int} (h : HasField span key .int 0 fun n => m = n) : |m| ≤ 2 ^ 64 - 1 := by
  rcases h with ⟨n, hn, rfl⟩ | ⟨-, rfl⟩
  · exact hids _ hkey m hn
  · decide

theorem zeroToNone_eq_int {m n : Int} (h : (zeroToNone m : Value N) = .int n) : m = n := by
  unfold zeroToNone at h
  split_ifs at h
  exact Value.int.inj h

theorem Decoded.boundedIds {decoded : Span N} (h : Encodes strings span encoded)
    (hids : BoundedIds span) (hdecoded : Decoded strings encoded decoded) : BoundedIds decoded := by
  intro key hkey n hn
  have hkeys : key = "trace_id".toList ∨ key = "parent_id".toList ∨ key = "span_id".toList := by
    simpa [idKeys] using hkey
  rcases hkeys with rfl | rfl | rfl
  · rw [hdecoded.traceId, Option.some.injEq, Value.int.injEq] at hn
    exact hn ▸ abs_le_of_hasField hids hkey h.traceId
  · rw [hdecoded.parentId, Option.some.injEq] at hn
    exact zeroToNone_eq_int hn ▸ abs_le_of_hasField hids hkey h.parentId
  · rw [hdecoded.spanId, Option.some.injEq, Value.int.injEq] at hn
    exact hn ▸ abs_le_of_hasField hids hkey h.spanId

theorem fieldAgrees_of_hasField {α : Type} {key : String} {value : α → Value N} {default : α}
    {encodes : α → Prop} (h : HasField span key value default encodes) {convert : Value N → Value N}
    {zero w : Value N} (hzero : absentValue key.toList = some zero)
    (hpresent : ∀ x, encodes x → Same (normalize key.toList (convert (value x))) w)
    (habsent : encodes default → Same zero w) :
    FieldAgrees key.toList ((span.get? key.toList).map convert) (some w) := by
  rcases h with ⟨x, hx, hencodes⟩ | ⟨hnone, hencodes⟩
  · rw [hx]
    exact ⟨w, rfl, hpresent x hencodes⟩
  · rw [hnone, Option.map_none, FieldAgrees, hzero]
    exact ⟨w, rfl, habsent hencodes⟩

theorem unsigned_eq_zero_iff (n : Int) : unsigned n 64 = 0 ↔ n = 0 := by
  unfold unsigned
  split_ifs with hn
  · rfl
  · omega

theorem same_zeroToNone_unsigned (n : Int) :
    Same (zeroToNone (unsigned n 64) : Value N) (toUnsigned (zeroToNone n)) := by
  by_cases hn : n = 0
  · subst hn
    trivial
  · rw [zeroToNone, zeroToNone, if_pos hn, if_pos (fun h => hn ((unsigned_eq_zero_iff n).mp h))]
    rfl

/-- The keys of a span whose ids were converted. -/
def Converted (span span' : Span N) : Prop :=
  ∀ key, span'.get? key =
    if key ∈ idKeys then (span.get? key).map toUnsigned else span.get? key

theorem Converted.fieldAgrees_id {a b decoded : Span N} (ha : Converted span a)
    (hb : Converted decoded b) {key : String} (hkey : key.toList ∈ idKeys) {w : Value N}
    (hw : decoded.get? key.toList = some w)
    (h : FieldAgrees key.toList ((span.get? key.toList).map toUnsigned) (some (toUnsigned w))) :
    FieldAgrees key.toList (a.get? key.toList) (b.get? key.toList) := by
  rw [ha, if_pos hkey, hb, if_pos hkey, hw]
  exact h

theorem Converted.fieldAgrees_other {a b decoded : Span N} (ha : Converted span a)
    (hb : Converted decoded b) {key : String} (hkey : key.toList ∉ idKeys) {w : Value N}
    (hw : decoded.get? key.toList = some w)
    (h : FieldAgrees key.toList ((span.get? key.toList).map id) (some w)) :
    FieldAgrees key.toList (a.get? key.toList) (b.get? key.toList) := by
  rw [ha, if_neg hkey, hb, if_neg hkey, hw]
  rwa [Option.map_id] at h

theorem Converted.fieldAgrees_text {a b decoded : Span N} (ha : Converted span a)
    (hb : Converted decoded b) {key : String} {index : Int} (hkey : key.toList ∉ idKeys)
    (hzero : absentValue (N := N) key.toList = some (.text []))
    (h : HasField span key .text [] fun s => stringAt strings index = .ok s)
    (hdecoded : ∃ s, decoded.get? key.toList = some (.text s) ∧ stringAt strings index = .ok s) :
    FieldAgrees key.toList (a.get? key.toList) (b.get? key.toList) := by
  obtain ⟨s, hget, hs⟩ := hdecoded
  refine ha.fieldAgrees_other hb hkey hget (fieldAgrees_of_hasField h hzero ?_ ?_)
  · intro x hx
    exact Except.ok.inj (hx.symm.trans hs)
  · intro hx
    exact Except.ok.inj (hx.symm.trans hs)

/-- **The spans agree**, key by key. -/
theorem Converted.agrees {a b decoded : Span N} (h : Encodes strings span encoded)
    (hdecoded : Decoded strings encoded decoded) (ha : Converted span a)
    (hb : Converted decoded b) : Agrees a b := by
  intro key
  by_cases hkey : key ∈ fieldKeys
  · simp only [fieldKeys, List.mem_cons, List.not_mem_nil, or_false] at hkey
    rcases hkey with rfl | rfl | rfl | rfl | rfl | rfl | rfl | rfl | rfl | rfl | rfl | rfl
    · exact ha.fieldAgrees_text hb (by decide) rfl h.service hdecoded.service
    · exact ha.fieldAgrees_text hb (by decide) rfl h.name hdecoded.name
    · exact ha.fieldAgrees_text hb (by decide) rfl h.resource hdecoded.resource
    · refine ha.fieldAgrees_id hb (by decide) hdecoded.traceId
        (fieldAgrees_of_hasField h.traceId rfl ?_ ?_)
      · rintro n rfl
        rfl
      · rintro hn
        rw [hn]
        rfl
    · refine ha.fieldAgrees_id hb (by decide) hdecoded.spanId
        (fieldAgrees_of_hasField h.spanId rfl ?_ ?_)
      · rintro n rfl
        rfl
      · rintro hn
        rw [hn]
        rfl
    · refine ha.fieldAgrees_id hb (by decide) hdecoded.parentId
        (fieldAgrees_of_hasField h.parentId rfl ?_ ?_)
      · rintro n rfl
        exact same_zeroToNone_unsigned _
      · rintro hn
        rw [hn]
        trivial
    · refine ha.fieldAgrees_other hb (by decide) hdecoded.start
        (fieldAgrees_of_hasField h.start rfl ?_ ?_)
      · rintro n rfl
        rfl
      · exact Eq.symm
    · refine ha.fieldAgrees_other hb (by decide) hdecoded.duration
        (fieldAgrees_of_hasField h.duration rfl ?_ ?_)
      · rintro n rfl
        show Same (zeroToNone encoded.duration) (zeroToNone encoded.duration)
        unfold zeroToNone
        split_ifs
        · rfl
        · trivial
      · rintro hn
        rw [hn]
        trivial
    · refine ha.fieldAgrees_other hb (by decide) hdecoded.error
        (fieldAgrees_of_hasField h.error rfl ?_ ?_)
      · rintro n rfl
        rfl
      · exact Eq.symm
    · obtain ⟨d, hget, hd⟩ := hdecoded.texts
      refine ha.fieldAgrees_other hb (by decide) hget (fieldAgrees_of_hasField h.texts rfl ?_ ?_)
      · intro e he
        exact get?_eq_of_decodeDict he hd
      · intro he
        exact get?_eq_of_decodeDict he hd
    · obtain ⟨d, hget, hd⟩ := hdecoded.numbers
      refine ha.fieldAgrees_other hb (by decide) hget (fieldAgrees_of_hasField h.numbers rfl ?_ ?_)
      · intro e he
        exact get?_eq_of_decodeDict he hd
      · intro he
        exact get?_eq_of_decodeDict he hd
    · exact ha.fieldAgrees_text hb (by decide) rfl h.type hdecoded.type
  · have hids : key ∉ idKeys := fun hid => hkey (idKeys_subset key hid)
    have hspan : span.get? key = none :=
      (Dict.get?_eq_none_iff _ _).mpr fun hmem => hkey (h.known key hmem)
    rw [ha, if_neg hids, hb, if_neg hids, hspan, hdecoded.known key hkey, FieldAgrees,
      absentValue_eq_none hkey]

theorem Converted.endsUnsigned {span' : Span N} (h : Converted span span') {key : Str}
    (hkey : key ∈ idKeys) {n : Int} (hn : span.get? key = some (.int n)) (habs : |n| ≤ 2 ^ 64 - 1) :
    EndsUnsigned span' key n := by
  have hbounds := abs_le.mp habs
  obtain ⟨hlow, hhigh, hmod, -⟩ := unsigned_spec (w := 64) hbounds.1 hbounds.2
  refine ⟨unsigned n 64, ?_, hlow, hhigh, hmod⟩
  rw [h, if_pos hkey, hn]
  rfl

theorem Converted.idsEndUnsigned {a : Span N} (hids : BoundedIds span) (ha : Converted span a) :
    IdsEndUnsigned span a := by
  intro key hkey n hn
  exact ha.endsUnsigned hkey hn (hids key hkey n hn)

theorem Converted.idsEndUnsignedOrNone {b decoded : Span N} (h : Encodes strings span encoded)
    (hids : BoundedIds span) (hdecoded : Decoded strings encoded decoded)
    (hb : Converted decoded b) : IdsEndUnsignedOrNone span b := by
  intro key hkey n hn
  have habs := hids key hkey n hn
  have hkeys : key = "trace_id".toList ∨ key = "parent_id".toList ∨ key = "span_id".toList := by
    simpa [idKeys] using hkey
  rcases hkeys with rfl | rfl | rfl
  · rw [← int_of_hasField h.traceId hn] at habs ⊢
    exact Or.inr (hb.endsUnsigned hkey hdecoded.traceId habs)
  · have hparent := hdecoded.parentId
    rw [int_of_hasField h.parentId hn] at hparent
    by_cases hzero : n = 0
    · subst hzero
      refine Or.inl ⟨rfl, rfl, ?_⟩
      rw [hb, if_pos hkey, hparent]
      rfl
    · rw [zeroToNone, if_pos hzero] at hparent
      exact Or.inr (hb.endsUnsigned hkey hparent habs)
  · rw [← int_of_hasField h.spanId hn] at habs ⊢
    exact Or.inr (hb.endsUnsigned hkey hdecoded.spanId habs)

end Agreement

section Payloads

variable {α β γ δ ε : Type} {f : α → Except Raised γ} {g : β → Except Raised δ}
  {k : δ → Except Raised ε} {P : γ → ε → Prop} {Q : α → γ → Prop} {Q' : α → ε → Prop}

/-- `x` is decoded by `f`, and `y` by `g` and then `k`; `P` holds of what they are decoded as. -/
def BothDecode (f : α → Except Raised γ) (g : β → Except Raised δ) (k : δ → Except Raised ε)
    (P : γ → ε → Prop) (Q : α → γ → Prop) (Q' : α → ε → Prop) (x : α) (y : β) : Prop :=
  ∃ a c b, f x = .ok a ∧ g y = .ok c ∧ k c = .ok b ∧ P a b ∧ Q x a ∧ Q' x b

theorem BothDecode.mapM {xs : List α} {ys : List β}
    (h : List.Forall₂ (BothDecode f g k P Q Q') xs ys) :
    BothDecode (fun xs => xs.mapM f) (fun ys => ys.mapM g) (fun cs => cs.mapM k)
      (List.Forall₂ P) (List.Forall₂ Q) (List.Forall₂ Q') xs ys := by
  induction h with
  | nil => exact ⟨[], [], [], rfl, rfl, rfl, .nil, .nil, .nil⟩
  | cons hxy _ ih =>
      obtain ⟨a, c, b, ha, hc, hb, hP, hQ, hQ'⟩ := hxy
      obtain ⟨as, cs, bs, has, hcs, hbs, hPs, hQs, hQs'⟩ := ih
      refine ⟨a :: as, c :: cs, b :: bs, ?_, ?_, ?_, .cons hP hPs, .cons hQ hQs, .cons hQ' hQs'⟩
      · exact Raised.mapM_eq_ok_iff.mpr (.cons ha (Raised.mapM_eq_ok_iff.mp has))
      · exact Raised.mapM_eq_ok_iff.mpr (.cons hc (Raised.mapM_eq_ok_iff.mp hcs))
      · exact Raised.mapM_eq_ok_iff.mpr (.cons hb (Raised.mapM_eq_ok_iff.mp hbs))

variable {N : Type} {strings : List Str}

theorem Encodes.bothDecode {span : Span N} {encoded : EncodedSpan N}
    (h : Encodes strings span encoded) (hids : BoundedIds span) :
    BothDecode decodeUnsignedIntSpan (decodeSpan strings) decodeUnsignedIntSpan Agrees
      IdsEndUnsigned IdsEndUnsignedOrNone span encoded := by
  obtain ⟨a, ha, hspan⟩ := decodeUnsignedIntSpan_spec hids
  obtain ⟨decoded, hok⟩ := exists_decodeSpan h
  have hdecoded := decodeSpan_spec hok
  obtain ⟨b, hb, hget⟩ := decodeUnsignedIntSpan_spec (hdecoded.boundedIds h hids)
  exact ⟨a, decoded, b, ha, hok, hb, Converted.agrees h hdecoded hspan hget,
    Converted.idsEndUnsigned hids hspan, Converted.idsEndUnsignedOrNone h hids hdecoded hget⟩

/-- **The decoders agree.**  Traces of v0.4 and an encoding of them in v0.5 are decoded as the same
spans, up to the zeros that are `None`, and the ids of both end in the range of unsigned integers
with the residues they came with. -/
theorem decoders_agree {traces : List (List (Span N))} {payload : List (List (EncodedSpan N))}
    (hencodes : List.Forall₂ (List.Forall₂ (Encodes strings)) traces payload)
    (hids : ∀ trace ∈ traces, ∀ span ∈ trace, BoundedIds span) :
    ∃ a b, decodeUnsignedIntTraces traces = .ok a ∧ deserializeV05 (strings, payload) = .ok b ∧
      List.Forall₂ (List.Forall₂ Agrees) a b ∧
      List.Forall₂ (List.Forall₂ IdsEndUnsigned) traces a ∧
      List.Forall₂ (List.Forall₂ IdsEndUnsignedOrNone) traces b := by
  have hspans := (List.forall₂_and_left _ _).mpr ⟨hids, hencodes⟩
  have hboth := BothDecode.mapM (hspans.imp fun trace encoded h =>
    BothDecode.mapM (((List.forall₂_and_left _ _).mpr h).imp fun _ _ hspan =>
      hspan.2.bothDecode hspan.1))
  obtain ⟨a, c, b, ha, hc, hb, hagree, hsigned, hsigned'⟩ := hboth
  refine ⟨a, b, ha, ?_, hagree, hsigned, hsigned'⟩
  rw [deserializeV05, show decodeV05Traces (strings, payload) = .ok c from hc, Raised.ok_bind]
  exact hb

/-- A span with a negative id, no parent, and no metrics. -/
def webSpan : Span Nat :=
  Dict.empty.setAll
    [("service".toList, .text "web".toList),
      ("trace_id".toList, .int (-1)),
      ("span_id".toList, .int 7),
      ("start".toList, .int 5),
      ("meta".toList, .texts (Dict.empty.set "http.method".toList "GET".toList))]

def webStrings : List Str := ["GET".toList, [], "http.method".toList, "web".toList]

def webEncoded : EncodedSpan Nat where
  service := 3
  name := 1
  resource := 1
  traceId := -1
  spanId := 7
  parentId := 0
  start := 5
  duration := 0
  error := 0
  metaIndices := Dict.empty.set 2 0
  metricIndices := .empty
  typeIndex := 1

theorem webSpan_encodes : Encodes webStrings webSpan webEncoded where
  service := Or.inl ⟨_, rfl, rfl⟩
  name := Or.inr ⟨rfl, rfl⟩
  resource := Or.inr ⟨rfl, rfl⟩
  traceId := Or.inl ⟨_, rfl, rfl⟩
  spanId := Or.inl ⟨_, rfl, rfl⟩
  parentId := Or.inr ⟨rfl, rfl⟩
  start := Or.inl ⟨_, rfl, rfl⟩
  duration := Or.inr ⟨rfl, rfl⟩
  error := Or.inr ⟨rfl, rfl⟩
  texts := Or.inl ⟨_, rfl, DictEncodes.empty.set rfl rfl rfl⟩
  numbers := Or.inr ⟨rfl, DictEncodes.empty⟩
  type := Or.inr ⟨rfl, rfl⟩
  known := by decide

theorem webSpan_boundedIds : BoundedIds webSpan := by
  intro key hkey n hn
  have hkeys : key = "trace_id".toList ∨ key = "parent_id".toList ∨ key = "span_id".toList := by
    simpa [idKeys] using hkey
  rcases hkeys with rfl | rfl | rfl
  · cases hn
    decide
  · cases hn
  · cases hn
    decide

theorem decoders_agree_webSpan :
    ∃ a b, decodeUnsignedIntTraces [[webSpan]] = .ok a ∧
      deserializeV05 (webStrings, [[webEncoded]]) = .ok b ∧
      List.Forall₂ (List.Forall₂ Agrees) a b ∧
      List.Forall₂ (List.Forall₂ IdsEndUnsigned) [[webSpan]] a ∧
      List.Forall₂ (List.Forall₂ IdsEndUnsignedOrNone) [[webSpan]] b := by
  refine decoders_agree (.cons (.cons webSpan_encodes .nil) .nil) ?_
  intro trace htrace span hspan
  rw [List.mem_singleton] at htrace
  rw [htrace, List.mem_singleton] at hspan
  exact hspan ▸ webSpan_boundedIds

end Payloads

end TraceDecoders
end Proxy
end SystemTests
