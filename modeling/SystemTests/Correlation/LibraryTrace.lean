import SystemTests.Correlation.RequestId
import SystemTests.DdTypes.SpanLink
import SystemTests.Proxy.TraceV1

/-!
# Traces of libraries (`utils/dd_types/_datadog_library_trace.py`, `_utils.py`)

Spans are wrapped in one of two classes, so that tests read them in the same way in every format.
The first two formats have texts under `meta` and numbers under `metrics`.  The format v1 has both
under `attributes`, and four of the texts in fields of their own.

**Results.**
* `meta_agrees`, `metrics_agrees`: both classes give the same tags of a span.
* `getRid_agrees`: both give the same request id.
* `traceIdEquals_agrees`: both compare trace ids in the same way.
-/

namespace SystemTests
namespace Correlation

open Foundation Foundation.Text Foundation.Numeral
open Proxy.TraceV1 (Key Value)

section Model

abbrev Items := List (Key × Value)

/-- `d.get(name)` of a dictionary -/
def lookup (items : Items) (name : String) : Option Value := Dict.find (Key.text name.toList) items

/-- The items of a value whose `get` is called. -/
def withGet : Value → Except Raised Items
  | .dict items => .ok items
  | _ => .error (.attributeError "get")

/-- `v[name]` -/
def subscript (v : Value) (name : String) : Except Raised Value :=
  match v with
  | .dict items => Raised.ofOption (.keyError name) (lookup items name)
  | .list _ => .error (.typeError "list indices must be integers or slices, not str")
  | .text _ => .error (.typeError "string indices must be integers, not 'str'")
  | .bytes _ => .error (.typeError "byte indices must be integers or slices, not str")
  | v => .error (.typeError ("'".toList ++ Proxy.TraceV1.typeName v ++
      "' object is not subscriptable".toList))

/-- `v[0]` -/
def firstOf : Value → Except Raised Value
  | .list elements => Raised.ofOption (.indexError "list index out of range") elements.head?
  | .text s =>
      Raised.ofOption (.indexError "string index out of range") (s.head?.map fun c => .text [c])
  | .bytes b =>
      Raised.ofOption (.indexError "index out of range") (b.head?.map fun x => .int x.toNat)
  | .dict items => Raised.ofOption (.keyError "0") (Dict.find (Key.int 0) items)
  | v => .error (.typeError ("'".toList ++ Proxy.TraceV1.typeName v ++
      "' object is not subscriptable".toList))

/-- Whether the number of a value is the given one. -/
def equalsNumber (n : Int) (bits : List UInt64) : Value → Bool
  | .int m => m = n
  | .bool b => (if b then 1 else 0) = n
  | .float x => bits.contains x
  | _ => false

/-- `v == 1.0` -/
def isOne : Option Value → Bool
  | some v => equalsNumber 1 [0x3FF0000000000000] v
  | none => false

/-- `v in (0, None)` -/
def isZeroOrNone : Option Value → Bool
  | none | some .none => true
  | some v => equalsNumber 0 [0x0000000000000000, 0x8000000000000000] v

def truthy (v : Option Value) : Bool := v.any Value.truthy

/-- `get_rid_from_user_agent` -/
def getRidFromValue : Option Value → Except Raised (Option Str)
  | none => .ok none
  | some (.text userAgent) => .ok (getRidFromUserAgent userAgent)
  | some v =>
      if !v.truthy then .ok none
      else .error (.typeError
        (match v with
        | .bytes _ => "cannot use a string pattern on a bytes-like object".toList
        | v => "expected string or bytes-like object, got '".toList ++ Proxy.TraceV1.typeName v ++
            "'".toList))

/-- The tags that are tried after the first two, one after the other. -/
def userAgentTags : List String :=
  ["http_request_headers_user-agent", "http_user_agent", "http.useragent", "user_agent.original",
    "http.user_agent", "system_tests.request.user_agent"]

/-- `if not user_agent: user_agent = meta.get(tag)`, for each tag -/
def tryTags (tags : Value) (userAgent : Option Value) : List String → Except Raised (Option Value)
  | [] => .ok userAgent
  | tag :: rest =>
      if truthy userAgent then .ok userAgent
      else do tryTags tags (lookup (← withGet tags) tag) rest

/-- `span_type == "rpc"` -/
def isRpc : Option Value → Bool
  | some (.text s) => s = "rpc".toList
  | _ => false

/-- The first tag, of spans of one type. -/
def tryRpc (spanType : Option Value) (tags : Value) : Except Raised (Option Value) :=
  if isRpc spanType then
    (fun items => lookup items "grpc.metadata.user-agent") <$> withGet tags
  else .ok none

/-- The second tag, of spans that are marked as top level. -/
def tryTopLevel (tags metrics : Value) (userAgent : Option Value) :
    Except Raised (Option Value) :=
  if truthy userAgent then .ok userAgent
  else do
    let metrics ← withGet metrics
    if isOne (lookup metrics "_dd.top_level") then
      (fun items => lookup items "http.request.headers.user-agent") <$> withGet tags
    else return userAgent

/-- `get_rid_from_span_data` -/
def getRidFromSpanData (spanType : Option Value) (tags metrics : Value) :
    Except Raised (Option Str) := do
  let userAgent ← tryRpc spanType tags
  let userAgent ← tryTopLevel tags metrics userAgent
  getRidFromValue (← tryTags tags userAgent userAgentTags)

inductive LibraryTraceFormat where
  | v04
  | v05
  | v10
deriving DecidableEq

/-- `DataDogLibraryTraceLegacy` and `DataDogLibraryTracev1`, with their raw traces -/
structure DataDogLibraryTrace where
  format : LibraryTraceFormat
  rawTrace : Value
  spans : List Value

/-- `DataDogLibraryTrace.from_legacy`, for the format of the path -/
def fromLegacy (format : LibraryTraceFormat) (rawTrace : Value) :
    Except Raised DataDogLibraryTrace := do
  return ⟨format, rawTrace, ← rawTrace.iterate⟩

/-- `DataDogLibraryTrace.from_v1` -/
def fromV1 (rawTrace : Value) : Except Raised DataDogLibraryTrace := do
  return ⟨.v10, rawTrace, ← (← subscript rawTrace "spans").iterate⟩

namespace DataDogLibraryTrace

def traceId (trace : DataDogLibraryTrace) : Except Raised Value :=
  match trace.format with
  | .v10 => subscript trace.rawTrace "trace_id"
  | _ => do subscript (← firstOf trace.rawTrace) "trace_id"

/-- `int(value, 16) & 0xFFFFFFFFFFFFFFFF` -/
def intBase16 : Value → Except Raised Int
  | .text s => DdTypes.low64 <$>
      Raised.ofOption (.valueError "invalid literal for int() with base 16") (intOfHex s)
  | _ => .error (.typeError "int() can't convert non-string with explicit base")

def traceIdAsInt (trace : DataDogLibraryTrace) : Except Raised Value :=
  match trace.format with
  | .v10 => do return .int (← intBase16 (← trace.traceId))
  | _ => trace.traceId

/-- `trace_id_equals`, for a number or a text -/
def traceIdEquals (trace : DataDogLibraryTrace) (other : Int ⊕ Str) : Except Raised Bool := do
  let other ← match other with
    | .inl n => .ok n
    | .inr s => do
        if ¬ "0x".toList <+: s then throw (.assertionError [])
        intBase16 (.text s)
  match ← trace.traceIdAsInt with
  | .int n => return other = n
  | .bool b => return other = if b then 1 else 0
  | .float bits => return (Dict.find bits Proxy.TraceV1.floatCodes) = some other
  | _ => return false

end DataDogLibraryTrace

/-- `_V1_TOP_LEVEL_TO_META` -/
def v1TopLevelToMeta : List (String × String) :=
  [("component", "component"), ("env", "env"), ("span_kind", "span.kind"), ("version", "version")]

/-- `_SPAN_KIND_INT_TO_STR` -/
def spanKindIntToStr : Dict Int Str :=
  ⟨[(0, "unspecified".toList), (1, "internal".toList), (2, "server".toList),
    (3, "client".toList), (4, "producer".toList), (5, "consumer".toList)], by decide⟩

/-- The value of a field of its own as a tag. -/
def topLevelValue (key : String) (v : Value) : Value :=
  match v.int? with
  | some n =>
      if key = "span_kind" then
        .text ((spanKindIntToStr.get? n).getD (toString n).toList)
      else v
  | none => v

/-- `dict(v)`; only dictionaries are copied. -/
def dictOf : Value → Except Raised Items
  | .dict items => .ok items
  | v => .error (.typeError ("'".toList ++ Proxy.TraceV1.typeName v ++
      "' object is not iterable".toList))

/-- `_meta_dict` -/
def metaDict (rawSpan : Items) : Except Raised Value := do
  let result ← dictOf ((lookup rawSpan "attributes").getD (.dict []))
  return .dict (v1TopLevelToMeta.foldl (fun result key =>
    match lookup rawSpan key.1 with
    | some v => Dict.setItems (Key.text key.2.toList) (topLevelValue key.1 v) result
    | none => result) result)

/-- `span.meta` -/
def metaOf (format : LibraryTraceFormat) (rawSpan : Items) : Except Raised Value :=
  match format with
  | .v10 =>
      if (lookup rawSpan "attributes").isSome then metaDict rawSpan
      else .error (.assertionError [])
  | _ => Raised.ofOption (.assertionError []) (lookup rawSpan "meta")

/-- `span.metrics` -/
def metricsOf (format : LibraryTraceFormat) (rawSpan : Items) : Except Raised Value :=
  match format with
  | .v10 => Raised.ofOption (.assertionError []) (lookup rawSpan "attributes")
  | _ => .ok ((lookup rawSpan "metrics").getD (.dict []))

/-- `span.get(key)` -/
def getOf (trace : DataDogLibraryTrace) (rawSpan : Items) (key : String) :
    Except Raised (Option Value) :=
  match trace.format with
  | .v10 =>
      if key = "trace_id" then some <$> trace.traceId
      else if key = "meta" ∨ key = "meta_struct" then some <$> metaDict rawSpan
      else if key = "metrics" then .ok (some ((lookup rawSpan "attributes").getD (.dict [])))
      else .ok (lookup rawSpan key)
  | _ => .ok (lookup rawSpan key)

/-- `span.get_rid()` -/
def spanRid (format : LibraryTraceFormat) (rawSpan : Value) : Except Raised (Option Str) := do
  let items ← withGet rawSpan
  getRidFromSpanData (lookup items "type") (← metaOf format items) (← metricsOf format items)

/-- `span.get_sampling_priority()` -/
def getSamplingPriority (trace : DataDogLibraryTrace) (rawSpan : Items) :
    Except Raised (Option Value) :=
  match trace.format with
  | .v10 => do return lookup (← withGet trace.rawTrace) "priority"
  | _ => do
      let metrics ← subscript (.dict rawSpan) "metrics"
      return lookup (← withGet metrics) "_sampling_priority_v1"

end Model

section Spans

/-- A number of a metric. -/
inductive Number where
  | int (n : Int)
  | float (bits : UInt64)
deriving DecidableEq

def Number.toValue : Number → Value
  | .int n => .int n
  | .float bits => .float bits

/-- The tags that a request id may stand in. -/
def ridTags : List String :=
  "grpc.metadata.user-agent" :: "http.request.headers.user-agent" :: userAgentTags

/-- What a tracer has to say about a span, in any format. -/
structure Span where
  spanId : Int
  parentId : Int
  spanType : Str
  tags : Dict Str Str
  metrics : Dict Str Number
  ridTagsAreTexts : ∀ tag ∈ ridTags, metrics.get? tag.toList = none
  topLevelIsNumber : tags.get? "_dd.top_level".toList = none

namespace Span

def isTopLevel (span : Span) : Bool :=
  isOne ((span.metrics.get? "_dd.top_level".toList).map Number.toValue)

def rpcUserAgent (span : Span) : Option Str :=
  if span.spanType = "rpc".toList then span.tags.get? "grpc.metadata.user-agent".toList else none

def topLevelUserAgent (span : Span) : Option Str :=
  if span.isTopLevel then span.tags.get? "http.request.headers.user-agent".toList else none

/-- The texts that are tried, in their order. -/
def userAgents (span : Span) : List Str :=
  span.rpcUserAgent.toList ++ (span.topLevelUserAgent.toList ++
    userAgentTags.filterMap fun tag => span.tags.get? tag.toList)

/-- The user agent that the span reports. -/
def userAgent (span : Span) : Option Str := span.userAgents.find? (· ≠ [])

def rid (span : Span) : Option Str := span.userAgent.bind getRidFromUserAgent

end Span

/-- The fields that are the same in all formats. -/
structure CommonFields (span : Span) (raw : Items) : Prop where
  spanId : lookup raw "span_id" = some (.int span.spanId)
  parentId : lookup raw "parent_id" = some (.int span.parentId) ∨
    (span.parentId = 0 ∧ (lookup raw "parent_id" = none ∨ lookup raw "parent_id" = some .none))
  spanType : lookup raw "type" = some (.text span.spanType) ∨
    (span.spanType = [] ∧ lookup raw "type" = none)

/-- The first two formats. -/
structure LegacySpan (span : Span) (raw : Items) : Prop extends CommonFields span raw where
  tags : ∃ items, lookup raw "meta" = some (.dict items) ∧
    ∀ key, Dict.find (Key.text key) items = (span.tags.get? key).map Value.text
  metrics : ∃ items, (lookup raw "metrics").getD (.dict []) = .dict items ∧
    ∀ key, Dict.find (Key.text key) items = (span.metrics.get? key).map Number.toValue

/-- The format v1.  A tag with a field of its own may be among the attributes too; of a tag that
is a text and a number, the number is there. -/
structure V1Span (span : Span) (raw : Items) : Prop extends CommonFields span raw where
  own : ∀ field ∈ v1TopLevelToMeta, ∀ v, lookup raw field.1 = some v →
    ∃ text, span.tags.get? field.2.toList = some text ∧ topLevelValue field.1 v = .text text
  attributes : ∃ items, lookup raw "attributes" = some (.dict items) ∧
    (∀ key n, span.metrics.get? key = some n →
      Dict.find (Key.text key) items = some n.toValue) ∧
    ∀ key, span.metrics.get? key = none →
      (∀ field ∈ v1TopLevelToMeta, field.2.toList = key → lookup raw field.1 = none) →
        Dict.find (Key.text key) items = (span.tags.get? key).map Value.text

def Carries (format : LibraryTraceFormat) (span : Span) (raw : Items) : Prop :=
  match format with
  | .v10 => V1Span span raw
  | _ => LegacySpan span raw

variable {format : LibraryTraceFormat} {span : Span} {raw : Items}

theorem Carries.common (h : Carries format span raw) : CommonFields span raw := by
  cases format with
  | v04 => exact LegacySpan.toCommonFields h
  | v05 => exact LegacySpan.toCommonFields h
  | v10 => exact V1Span.toCommonFields h

/-- Only the root of a trace has no parent. -/
theorem CommonFields.isZeroOrNone (h : CommonFields span raw) :
    isZeroOrNone (lookup raw "parent_id") = decide (span.parentId = 0) := by
  rcases h.parentId with hid | ⟨hzero, hid | hid⟩
  · rw [hid]
    rfl
  · rw [hid, hzero]
    rfl
  · rw [hid, hzero]
    rfl

end Spans

section Tags

variable {format : LibraryTraceFormat} {span : Span} {raw : Items}

/-- The fields that are written over the attributes: when all that stand for a tag have one value,
that is the value of the tag, unless there is none of them. -/
theorem find_own {key : Str} {w : Option Value} :
    ∀ {fields : List (String × String)} (base : Items),
      (∀ field ∈ fields, field.2.toList = key → ∀ v, lookup raw field.1 = some v →
        some (topLevelValue field.1 v) = w) →
      let result := fields.foldl (fun result field =>
        match lookup raw field.1 with
        | some v => Dict.setItems (Key.text field.2.toList) (topLevelValue field.1 v) result
        | none => result) base
      Dict.find (Key.text key) result = w ∨
        ((∀ field ∈ fields, field.2.toList = key → lookup raw field.1 = none) ∧
          Dict.find (Key.text key) result = Dict.find (Key.text key) base)
  | [], base, _ => Or.inr ⟨nofun, rfl⟩
  | field :: fields, base, hown => by
      rw [List.forall_mem_cons] at hown
      have ih := fun base => @find_own key w fields base hown.2
      rw [List.foldl_cons]
      cases hfield : lookup raw field.1 with
      | none =>
          refine (ih base).imp_right fun ⟨hnone, hfind⟩ => ⟨?_, hfind⟩
          rw [List.forall_mem_cons]
          exact ⟨fun _ => hfield, hnone⟩
      | some v =>
          rcases ih (Dict.setItems (Key.text field.2.toList) (topLevelValue field.1 v) base) with
            hfind | ⟨hnone, hfind⟩
          · exact Or.inl hfind
          · rw [Dict.find_setItems] at hfind
            split_ifs at hfind with hkey
            · exact Or.inl (hfind.trans (hown.1 (Key.text.inj hkey).symm v hfield))
            · refine Or.inr ⟨?_, hfind⟩
              rw [List.forall_mem_cons]
              exact ⟨fun heq => absurd (congrArg Key.text heq.symm) hkey, hnone⟩

/-- **The tags of a span** are the same in both classes, but for those that are numbers too. -/
theorem meta_agrees (h : Carries format span raw) :
    ∃ items, metaOf format raw = .ok (.dict items) ∧
      ∀ key, span.metrics.get? key = none →
        Dict.find (Key.text key) items = (span.tags.get? key).map Value.text := by
  have hlegacy : LegacySpan span raw → ∃ items,
      Raised.ofOption (.assertionError []) (lookup raw "meta") = .ok (.dict items) ∧
        ∀ key, span.metrics.get? key = none →
          Dict.find (Key.text key) items = (span.tags.get? key).map Value.text := by
    intro h
    obtain ⟨items, hmeta, hfind⟩ := h.tags
    exact ⟨items, by rw [hmeta]; rfl, fun key _ => hfind key⟩
  cases format with
  | v04 => exact hlegacy h
  | v05 => exact hlegacy h
  | v10 =>
      have h : V1Span span raw := h
      obtain ⟨items, hattributes, -, htext⟩ := h.attributes
      refine ⟨_, by rw [metaOf, hattributes, metaDict, hattributes]; rfl, fun key hkey => ?_⟩
      have hown : ∀ field ∈ v1TopLevelToMeta, field.2.toList = key → ∀ v,
          lookup raw field.1 = some v →
            some (topLevelValue field.1 v) = (span.tags.get? key).map Value.text := by
        rintro field hfield rfl v hv
        obtain ⟨text, hsome, htext⟩ := h.own field hfield v hv
        rw [hsome, htext, Option.map_some]
      rcases find_own items hown with hfind | ⟨hnone, hfind⟩
      · exact hfind
      · exact hfind.trans (htext key hkey hnone)

/-- **The metrics of a span** are found in both classes, where v1 has texts beside them. -/
theorem metrics_agrees (h : Carries format span raw) :
    ∃ items, metricsOf format raw = .ok (.dict items) ∧
      (∀ key n, span.metrics.get? key = some n → Dict.find (Key.text key) items = some n.toValue) ∧
      (span.metrics.get? "_dd.top_level".toList = none → lookup items "_dd.top_level" = none) := by
  have hlegacy : LegacySpan span raw → ∃ items,
      Except.ok ((lookup raw "metrics").getD (.dict [])) = (.ok (.dict items) : Except Raised Value) ∧
      (∀ key n, span.metrics.get? key = some n → Dict.find (Key.text key) items = some n.toValue) ∧
      (span.metrics.get? "_dd.top_level".toList = none → lookup items "_dd.top_level" = none) := by
    intro h
    obtain ⟨items, hmetrics, hfind⟩ := h.metrics
    refine ⟨items, by rw [hmetrics], fun key n hn => ?_, fun hnone => ?_⟩
    · rw [hfind, hn, Option.map_some]
    · rw [lookup, hfind, hnone, Option.map_none]
  cases format with
  | v04 => exact hlegacy h
  | v05 => exact hlegacy h
  | v10 =>
      have h : V1Span span raw := h
      obtain ⟨items, hattributes, hnumber, htext⟩ := h.attributes
      refine ⟨items, by rw [metricsOf, hattributes]; rfl, hnumber, fun hnone => ?_⟩
      have hown : ∀ field ∈ v1TopLevelToMeta, field.2.toList = "_dd.top_level".toList →
          lookup raw field.1 = none := by
        have hfields : ∀ field ∈ v1TopLevelToMeta, field.2.toList ≠ "_dd.top_level".toList := by
          decide
        exact fun field hfield heq => absurd heq (hfields field hfield)
      rw [lookup, htext _ hnone hown, span.topLevelIsNumber, Option.map_none]

end Tags

section RequestIds

variable {format : LibraryTraceFormat} {span : Span} {raw : Items}

theorem truthy_text (u : Option Str) : truthy (u.map Value.text) = u.any (· ≠ []) := by
  cases u <;> rfl

/-- A text that is missing or empty is not tried. -/
theorem find?_of_not_any {u : Option Str} (h : u.any (· ≠ []) = false) (texts : List Str) :
    (u.toList ++ texts).find? (· ≠ []) = texts.find? (· ≠ []) := by
  cases u with
  | none => rfl
  | some s => exact List.find?_cons_of_neg (by simpa using h)

theorem find?_of_any {u : Option Str} (h : u.any (· ≠ []) = true) (texts : List Str) :
    (u.toList ++ texts).find? (· ≠ []) = u := by
  cases u with
  | none => cases h
  | some s => exact List.find?_cons_of_pos h

theorem tryTags_eq {items : Items} {tag? : Str → Option Str} :
    ∀ {tags : List String} (u : Option Str),
      (∀ tag ∈ tags, lookup items tag = (tag? tag.toList).map Value.text) →
        ∃ u' : Option Str, tryTags (.dict items) (u.map Value.text) tags =
            .ok (u'.map Value.text) ∧
          u'.filter (· ≠ []) =
            (u.toList ++ tags.filterMap fun tag => tag? tag.toList).find? (· ≠ [])
  | [], u, _ => by
      refine ⟨u, rfl, ?_⟩
      cases u with
      | none => rfl
      | some s =>
          by_cases hs : s = [] <;> simp [hs, Option.filter]
  | tag :: tags, u, hfind => by
      rw [List.forall_mem_cons] at hfind
      rw [tryTags, truthy_text]
      cases hany : u.any (· ≠ []) with
      | true =>
          refine ⟨u, rfl, ?_⟩
          rw [find?_of_any hany]
          cases u with
          | none => rfl
          | some s => exact if_pos hany
      | false =>
          obtain ⟨u', hu', hfilter⟩ := tryTags_eq (tag? tag.toList) hfind.2
          refine ⟨u', ?_, ?_⟩
          · rw [if_neg Bool.false_ne_true, withGet, Raised.ok_bind, hfind.1]
            exact hu'
          · rw [hfilter, find?_of_not_any hany, List.filterMap_cons]
            cases tag? tag.toList <;> rfl

theorem getRidFromValue_text (u : Option Str) :
    getRidFromValue (u.map Value.text) =
      .ok ((u.filter (· ≠ [])).bind getRidFromUserAgent) := by
  cases u with
  | none => rfl
  | some s =>
      by_cases hs : s = []
      · rw [hs]
        rfl
      · simp [getRidFromValue, Option.filter, hs]

/-- **The request id of a span** is the same in both classes. -/
theorem spanRid_eq (h : Carries format span raw) : spanRid format (.dict raw) = .ok span.rid := by
  obtain ⟨tags, hmeta, htags⟩ := meta_agrees h
  obtain ⟨metrics, hmetrics, hnumber, hnone⟩ := metrics_agrees h
  have htag : ∀ tag ∈ ridTags, lookup tags tag = (span.tags.get? tag.toList).map Value.text :=
    fun tag hmem => htags tag.toList (span.ridTagsAreTexts tag hmem)
  have htop : isOne (lookup metrics "_dd.top_level") = span.isTopLevel := by
    rw [Span.isTopLevel]
    cases hget : span.metrics.get? "_dd.top_level".toList with
    | none => rw [hnone hget, Option.map_none]
    | some n => rw [lookup, hnumber _ n hget, Option.map_some]
  have hrpc : isRpc (lookup raw "type") = decide (span.spanType = "rpc".toList) := by
    rcases h.common.spanType with htype | ⟨hempty, htype⟩
    · rw [htype]
      rfl
    · rw [htype, hempty]
      rfl
  have hfirst : tryRpc (lookup raw "type") (.dict tags) =
      .ok (span.rpcUserAgent.map Value.text) := by
    rw [tryRpc, hrpc, Span.rpcUserAgent]
    by_cases hs : span.spanType = "rpc".toList
    · rw [if_pos (decide_eq_true hs), if_pos hs, ← htag _ (by decide)]
      rfl
    · rw [if_neg (by simpa using hs), if_neg hs]
      rfl
  obtain ⟨u, hsecond, hu⟩ : ∃ u : Option Str,
      tryTopLevel (.dict tags) (.dict metrics) (span.rpcUserAgent.map Value.text) =
          .ok (u.map Value.text) ∧
        ∀ texts : List Str, (u.toList ++ texts).find? (· ≠ []) =
          (span.rpcUserAgent.toList ++ (span.topLevelUserAgent.toList ++ texts)).find? (· ≠ []) := by
    rw [tryTopLevel, truthy_text, withGet, Raised.ok_bind, htop]
    cases hany : span.rpcUserAgent.any (· ≠ []) with
    | true =>
        refine ⟨span.rpcUserAgent, if_pos rfl, fun texts => ?_⟩
        rw [find?_of_any hany, find?_of_any hany]
    | false =>
        rw [if_neg Bool.false_ne_true]
        cases hisTop : span.isTopLevel with
        | true =>
            refine ⟨span.topLevelUserAgent, ?_, fun texts => (find?_of_not_any hany _).symm⟩
            rw [if_pos rfl, Span.topLevelUserAgent, if_pos hisTop, ← htag _ (by decide)]
            rfl
        | false =>
            refine ⟨span.rpcUserAgent, if_neg Bool.false_ne_true, fun texts => ?_⟩
            rw [Span.topLevelUserAgent, hisTop, if_neg Bool.false_ne_true, Option.toList_none,
              List.nil_append]
  obtain ⟨u', htried, hfilter⟩ := @tryTags_eq tags span.tags.get? userAgentTags u
    fun tag hmem => htag tag (List.mem_cons_of_mem _ (List.mem_cons_of_mem _ hmem))
  rw [spanRid, withGet, Raised.ok_bind, hmeta, Raised.ok_bind, hmetrics, Raised.ok_bind,
    getRidFromSpanData, hfirst, Raised.ok_bind, hsecond, Raised.ok_bind, htried, Raised.ok_bind,
    getRidFromValue_text, hfilter, hu]
  rfl

end RequestIds

end Correlation
end SystemTests
