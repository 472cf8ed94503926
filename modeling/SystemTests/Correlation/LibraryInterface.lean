import SystemTests.Correlation.LibraryTrace
import SystemTests.Foundation.Simulation

/-!
# Spans of a request (`utils/interfaces/_library/core.py`)

The recorded payloads of traces are gone through for the traces, the spans or the root spans of a
request.  A span belongs to a request when it reports the user agent that the request was sent
with.

**Results.**
* `getSpans_eq`, `getRootSpans_eq`: what is found in recorded payloads, in whatever formats.
* `getSpans_request`: the spans of a request are the ones that it caused.
* `getRootSpan_request`: the root span of a request is found when it caused exactly one.
-/

namespace SystemTests
namespace Correlation

open Foundation Foundation.Text
open Proxy.TraceV1 (Key Value)

section Model

/-- A recorded message, with the content of its request. -/
structure Data where
  path : Str
  content : Value

/-- A path that is a pattern, of which only the dots are special. -/
def fullmatchPath (pattern path : Str) : Bool :=
  pattern.length = path.length &&
    (pattern.zip path).all fun c => if c.1 = '.' then c.2 ≠ '\n' else c.1 = c.2

/-- `trace_paths` -/
def tracePaths : List Str := ["/v0.4/traces", "/v0.5/traces", "/v1.0/traces"].map String.toList

/-- `self.get_data(path_filters=path_filters)` -/
def getData (pathFilters : List Str) (data : List Data) : List Data :=
  data.filter fun d => pathFilters.any fun pattern => fullmatchPath pattern d.path

/-- Whether the loop over the spans finds one of the request. -/
def anySpan (rid : Str) (format : LibraryTraceFormat) : List Value → Except Raised Bool
  | [] => .ok false
  | span :: spans => do
      if (← spanRid format span) = some rid then return true
      anySpan rid format spans

section Loops

variable {β : Type}

/-- The body of a loop over the traces, run for a trace of the request. -/
def withTrace (rid : Option Str) (body : DataDogLibraryTrace → Except Raised (List β))
    (trace : DataDogLibraryTrace) : Except Raised (List β) :=
  match rid with
  | none => body trace
  | some rid => do if ← anySpan rid trace.format trace.spans then body trace else return []

def legacyFormat? (path : Str) : Option LibraryTraceFormat :=
  if path = "/v0.4/traces".toList then some .v04
  else if path = "/v0.5/traces".toList then some .v05
  else none

/-- The traces of one message. -/
def forMessage (rid : Option Str) (body : DataDogLibraryTrace → Except Raised (List β))
    (path : Str) (content : Value) : Except Raised (List β) :=
  if !content.truthy then .ok []
  else
    match legacyFormat? path with
    | some format => do
        let traces ← content.iterate
        Raised.flatMapM (fun raw => do withTrace rid body (← fromLegacy format raw)) traces
    | none =>
        if path = "/v1.0/traces".toList then do
          let chunks := lookup (← withGet content) "chunks"
          match chunks.filter Value.truthy with
          | none => return []
          | some chunks => do
              let traces ← chunks.iterate
              Raised.flatMapM (fun raw => do withTrace rid body (← fromV1 raw)) traces
        else .error (.valueError ("Unkown trace path: ".toList ++ path))

/-- What a loop over `get_traces` yields, for the request id of the request. -/
def forTraces (rid : Option Str) (body : Data → DataDogLibraryTrace → Except Raised (List β))
    (data : List Data) : Except Raised (List β) :=
  Raised.flatMapM (fun d => forMessage rid (body d) d.path d.content) (getData tracePaths data)

end Loops

section Readers

variable (lower : Str → Str)

/-- A generator does not stop with the exception for the end of another one. -/
def inGenerator {α : Type} : Except Raised α → Except Raised α
  | .error .stopIteration => .error (.runtimeError "generator raised StopIteration")
  | x => x

/-- `request.get_rid() if request else None`, in a generator -/
def ridOf : Option Response → Except Raised (Option Str)
  | none => .ok none
  | some response => inGenerator (some <$> response.getRid lower)

/-- `get_traces` -/
def getTraces (request : Option Response) (data : List Data) :
    Except Raised (List (Data × DataDogLibraryTrace)) := do
  let rid ← ridOf lower request
  forTraces rid (fun d trace => .ok [(d, trace)]) data

/-- Whether `get_spans` yields a span of a trace that it gets. -/
def isYielded (rid : Option Str) (fullTrace : Bool) (format : LibraryTraceFormat) (span : Value) :
    Except Raised Bool :=
  match rid with
  | none => .ok true
  | some rid => if fullTrace then .ok true else do return (← spanRid format span) = some rid

abbrev Found := Data × DataDogLibraryTrace × Value

/-- What a loop over `get_spans` yields. -/
def forSpans {β : Type} (request : Option Response) (fullTrace : Bool)
    (body : Found → Except Raised (List β)) (data : List Data) : Except Raised (List β) := do
  let rid ← ridOf lower request
  forTraces rid (fun d trace => Raised.flatMapM (fun span => do
    if ← isYielded rid fullTrace trace.format span then body (d, trace, span) else return [])
      trace.spans) data

def getSpans (request : Option Response) (fullTrace : Bool) (data : List Data) :
    Except Raised (List Found) :=
  forSpans lower request fullTrace (fun found => .ok [found]) data

/-- `span.get(key)` -/
def Found.get (found : Found) (key : String) : Except Raised (Option Value) := do
  getOf found.2.1 (← withGet found.2.2) key

def getRootSpans (request : Option Response) (data : List Data) : Except Raised (List Found) :=
  forSpans lower request false (fun found => do
    if isZeroOrNone (← found.get "parent_id") then return [found] else return []) data

def getRootSpan (request : Response) (data : List Data) : Except Raised Found := do
  match ← getRootSpans lower (some request) data with
  | [] => throw (.assertionError "No root spans found")
  | [span] => return span
  | _ => throw (.assertionError "More than one root span found")

end Readers

end Model

section Recorded

/-- A trace as a tracer has it. -/
structure Trace where
  id : Nat
  spans : List Span

/-- A trace in one of the formats; the first two have the lower half of its id. -/
def CarriesTrace (format : LibraryTraceFormat) (trace : Trace) (raw : Value) : Prop :=
  ∃ spans : List Items, List.Forall₂ (Carries format) trace.spans spans ∧
    match format with
    | .v10 => ∃ items text, raw = .dict items ∧
        lookup items "spans" = some (.list (spans.map Value.dict)) ∧
        lookup items "trace_id" = some (.text text) ∧ Numeral.intOfHex text = some (trace.id : Int)
    | _ => raw = .list (spans.map Value.dict) ∧
        ∀ span ∈ spans, lookup span "trace_id" = some (.int (DdTypes.low64 trace.id))

/-- A message with traces. -/
structure Message where
  format : LibraryTraceFormat
  traces : List Trace

def pathOf : LibraryTraceFormat → Str
  | .v04 => "/v0.4/traces".toList
  | .v05 => "/v0.5/traces".toList
  | .v10 => "/v1.0/traces".toList

/-- The traces of a message, where a message without traces may have no content. -/
def CarriesMessage (message : Message) (data : Data) : Prop :=
  data.path = pathOf message.format ∧
    ((message.traces = [] ∧ data.content.truthy = false) ∨
      ∃ raws, List.Forall₂ (CarriesTrace message.format) message.traces raws ∧
        match message.format with
        | .v10 => ∃ items, data.content = .dict items ∧ lookup items "chunks" = some (.list raws)
        | _ => data.content = .list raws)

/-- The recorded messages; those of other paths have no traces. -/
def Records (message : Option Message) (data : Data) : Prop :=
  match message with
  | some message => CarriesMessage message data
  | none => (tracePaths.any fun pattern => fullmatchPath pattern data.path) = false

/-- A span that was found shows what the tracer has to say about it. -/
def Shows (span : Span) (found : Found) : Prop :=
  ∃ raw, found.2.2 = .dict raw ∧ Carries found.2.1.format span raw

/-- A trace that was found is one that the tracer has. -/
def ShowsTrace (trace : Trace) (found : DataDogLibraryTrace) : Prop :=
  ∃ spans : List Items, found.spans = spans.map Value.dict ∧
    List.Forall₂ (Carries found.format) trace.spans spans

def tracesOf (messages : List (Option Message)) : List Trace :=
  messages.flatMap fun message => (message.map Message.traces).getD []

/-- The trace has a span of the request, if there is one. -/
def Trace.isOf (rid : Option Str) (trace : Trace) : Bool :=
  rid.all fun rid => trace.spans.any fun span => span.rid = some rid

/-- The span is of the request, if there is one, or its whole trace is wanted. -/
def Span.isWanted (rid : Option Str) (fullTrace : Bool) (span : Span) : Bool :=
  rid.all fun rid => fullTrace || span.rid = some rid

/-- The spans of a request. -/
def spansOf (rid : Option Str) (fullTrace : Bool) (messages : List (Option Message)) : List Span :=
  ((tracesOf messages).filter (Trace.isOf rid)).flatMap fun trace =>
    trace.spans.filter (Span.isWanted rid fullTrace)

end Recorded

section Loops

variable {β ι : Type} {Q : ι → β → Prop} {rid : Option Str} {g : Trace → List ι}

theorem anySpan_eq {format : LibraryTraceFormat} {spans : List Span} {raws : List Items}
    (h : List.Forall₂ (Carries format) spans raws) (rid : Str) :
    anySpan rid format (raws.map Value.dict) =
      .ok (spans.any fun span => span.rid = some rid) := by
  induction h with
  | nil => rfl
  | @cons span raw spans raws hspan _ ih =>
      rw [List.map_cons, anySpan, spanRid_eq hspan, Raised.ok_bind, ih, List.any_cons]
      split_ifs with hrid <;> simp [hrid]

theorem withTrace_yields {body : DataDogLibraryTrace → Except Raised (List β)} {trace : Trace}
    {found : DataDogLibraryTrace} (hfound : ShowsTrace trace found)
    (hbody : Raised.Yields Q (body found) (g trace)) :
    Raised.Yields Q (withTrace rid body found)
      (if trace.isOf rid then g trace else []) := by
  cases rid with
  | none => exact hbody
  | some rid =>
      obtain ⟨spans, hspans, hcarries⟩ := hfound
      rw [withTrace, hspans, anySpan_eq hcarries, Raised.ok_bind]
      have hisOf : trace.isOf (some rid) = trace.spans.any fun span => span.rid = some rid := rfl
      rw [hisOf]
      split_ifs
      · exact hbody
      · exact Raised.Yields.nil

theorem fromLegacy_shows {format : LibraryTraceFormat} (hformat : format ≠ .v10) {trace : Trace}
    {raw : Value} (h : CarriesTrace format trace raw) :
    ∃ found, fromLegacy format raw = .ok found ∧ ShowsTrace trace found := by
  obtain ⟨spans, hcarries, hraw⟩ := h
  cases format with
  | v10 => exact absurd rfl hformat
  | v04 | v05 =>
      obtain ⟨rfl, -⟩ := hraw
      exact ⟨_, rfl, spans, rfl, hcarries⟩

theorem fromV1_shows {trace : Trace} {raw : Value} (h : CarriesTrace .v10 trace raw) :
    ∃ found, fromV1 raw = .ok found ∧ ShowsTrace trace found := by
  obtain ⟨spans, hcarries, items, text, rfl, hspans, -⟩ := h
  refine ⟨⟨.v10, .dict items, spans.map Value.dict⟩, ?_, spans, rfl, hcarries⟩
  rw [fromV1, subscript, hspans]
  rfl

theorem flatMap_filter {α γ : Type} (p : α → Bool) (f : α → List γ) (l : List α) :
    (l.filter p).flatMap f = l.flatMap fun a => if p a then f a else [] := by
  induction l with
  | nil => rfl
  | cons a l ih =>
      rw [List.filter_cons, List.flatMap_cons, ← ih]
      split_ifs <;> rfl

/-- The loop over the traces of a message, in any format. -/
theorem forMessage_yields {body : DataDogLibraryTrace → Except Raised (List β)}
    (hbody : ∀ trace found, ShowsTrace trace found → Raised.Yields Q (body found) (g trace))
    {message : Message} {data : Data} (h : CarriesMessage message data) :
    Raised.Yields Q (forMessage rid body data.path data.content)
      ((message.traces.filter (Trace.isOf rid)).flatMap g) := by
  rw [flatMap_filter]
  have hloop : ∀ {build : Value → Except Raised DataDogLibraryTrace} {raws : List Value},
      (∀ trace raw, CarriesTrace message.format trace raw →
        ∃ found, build raw = .ok found ∧ ShowsTrace trace found) →
      List.Forall₂ (CarriesTrace message.format) message.traces raws →
        Raised.Yields Q (Raised.flatMapM (fun raw => do withTrace rid body (← build raw)) raws)
          (message.traces.flatMap fun trace => if trace.isOf rid then g trace else []) := by
    intro build raws hbuild hraws
    refine Raised.Yields.flatMapM (fun trace raw hraw => ?_) hraws
    obtain ⟨found, hfound, hshows⟩ := hbuild trace raw hraw
    rw [hfound, Raised.ok_bind]
    exact withTrace_yields hshows (hbody trace found hshows)
  obtain ⟨hpath, ⟨htraces, hfalse⟩ | ⟨raws, hraws, hcontent⟩⟩ := h
  · rw [htraces, forMessage, hfalse]
    exact Raised.Yields.nil
  · have hempty : raws = [] → message.traces = [] := by
      rintro rfl
      exact List.forall₂_nil_right_iff.mp hraws
    have hnil : Raised.Yields Q (.ok [] : Except Raised (List β))
        (([] : List Trace).flatMap fun trace => if trace.isOf rid then g trace else []) :=
      Raised.Yields.nil
    cases hformat : message.format with
    | v10 =>
        rw [hformat] at hcontent hpath hloop hraws
        obtain ⟨items, hcontent, hchunks⟩ := hcontent
        have htruthy : (Value.dict items).truthy = true := by
          cases items with
          | nil => cases hchunks
          | cons item items => rfl
        have hpath' : legacyFormat? (pathOf .v10) = none := by decide
        rw [hcontent, hpath, forMessage, htruthy, if_neg (by decide), hpath']
        change Raised.Yields Q (match (lookup items "chunks").filter Value.truthy with
          | none => .ok []
          | some chunks => do
              let traces ← chunks.iterate
              Raised.flatMapM (fun raw => do withTrace rid body (← fromV1 raw)) traces) _
        rw [hchunks]
        cases raws with
        | nil =>
            rw [hempty rfl]
            exact hnil
        | cons raw raws => exact hloop (fun trace raw h => fromV1_shows h) hraws
    | v04 | v05 =>
        rw [hformat] at hcontent hpath hloop hraws
        rw [hcontent, hpath, forMessage]
        cases raws with
        | nil =>
            rw [hempty rfl]
            exact hnil
        | cons raw raws =>
            exact hloop (fun trace raw h => fromLegacy_shows (by decide) h) hraws

/-- **A loop over the recorded traces**: what it yields is what its body yields for the traces
of the request, in their order. -/
theorem forTraces_yields {body : Data → DataDogLibraryTrace → Except Raised (List β)}
    (hbody : ∀ d trace found, ShowsTrace trace found → Raised.Yields Q (body d found) (g trace))
    {messages : List (Option Message)} {data : List Data}
    (h : List.Forall₂ Records messages data) :
    Raised.Yields Q (forTraces rid body data)
      (((tracesOf messages).filter (Trace.isOf rid)).flatMap g) := by
  induction h with
  | nil => exact Raised.Yields.nil
  | @cons message d messages data hmessage _ ih =>
      cases message with
      | none =>
          have hdata : getData tracePaths (d :: data) = getData tracePaths data :=
            List.filter_cons_of_neg (by rw [hmessage]; exact Bool.false_ne_true)
          rw [forTraces, hdata]
          exact ih
      | some message =>
          have hkept : (tracePaths.any fun pattern => fullmatchPath pattern d.path) = true := by
            rw [hmessage.1]
            cases message.format <;> decide
          have hdata : getData tracePaths (d :: data) = d :: getData tracePaths data :=
            List.filter_cons_of_pos hkept
          have htraces : tracesOf (some message :: messages) = message.traces ++ tracesOf messages :=
            List.flatMap_cons
          have hyields : Raised.Yields Q (forMessage rid (body d) d.path d.content)
              ((message.traces.filter (Trace.isOf rid)).flatMap g) :=
            forMessage_yields (hbody d) hmessage
          obtain ⟨part, hpart, hQ⟩ := hyields
          obtain ⟨rest, hrest, hQs⟩ := ih
          rw [htraces, List.filter_append, List.flatMap_append, forTraces, hdata]
          exact ⟨part ++ rest, Raised.flatMapM_cons_eq_ok.mpr ⟨part, rest, hpart, hrest, rfl⟩,
            List.rel_append hQ hQs⟩

end Loops

section Spans

variable {lower : Str → Str} {β ι : Type} {Q : ι → β → Prop} {rid : Option Str} {fullTrace : Bool}
  {g : Span → List ι} {request : Option Response} {messages : List (Option Message)}
  {data : List Data}

theorem isYielded_eq {format : LibraryTraceFormat} {span : Span} {raw : Items}
    (h : Carries format span raw) (rid : Option Str) (fullTrace : Bool) :
    isYielded rid fullTrace format (.dict raw) = .ok (span.isWanted rid fullTrace) := by
  cases rid with
  | none => rfl
  | some rid =>
      cases fullTrace with
      | true => rfl
      | false =>
          rw [isYielded, if_neg Bool.false_ne_true, spanRid_eq h, Raised.ok_bind]
          simp [Span.isWanted, pure, Except.pure]

/-- A loop over the spans of a request. -/
theorem forSpans_yields {body : Found → Except Raised (List β)}
    (hbody : ∀ span found, Shows span found → Raised.Yields Q (body found) (g span))
    (hrid : ridOf lower request = .ok rid) (h : List.Forall₂ Records messages data) :
    Raised.Yields Q (forSpans lower request fullTrace body data)
      ((spansOf rid fullTrace messages).flatMap g) := by
  rw [forSpans, hrid, Raised.ok_bind, spansOf, List.flatMap_assoc]
  refine forTraces_yields (fun d trace found hshows => ?_) h
  obtain ⟨spans, hspans, hcarries⟩ := hshows
  rw [flatMap_filter, hspans]
  refine Raised.Yields.flatMapM (R := fun span raw => ∃ items, raw = .dict items ∧
    Carries found.format span items) (fun span raw hraw => ?_) ?_
  · obtain ⟨items, rfl, hitems⟩ := hraw
    rw [isYielded_eq hitems, Raised.ok_bind]
    split_ifs
    · exact hbody span _ ⟨items, rfl, hitems⟩
    · exact Raised.Yields.nil
  · rw [List.forall₂_map_right_iff]
    exact hcarries.imp fun span items hitems => ⟨items, rfl, hitems⟩

/-- **The spans of a request**, whatever the formats they came in. -/
theorem getSpans_eq (hrid : ridOf lower request = .ok rid)
    (h : List.Forall₂ Records messages data) :
    Raised.Yields Shows (getSpans lower request fullTrace data)
      (spansOf rid fullTrace messages) := by
  have hspans : Raised.Yields Shows
      (forSpans lower request fullTrace (fun found => .ok [found]) data)
      ((spansOf rid fullTrace messages).flatMap fun span => [span]) :=
    forSpans_yields (fun span found hshows => Raised.Yields.singleton hshows) hrid h
  rw [List.flatMap_singleton'] at hspans
  exact hspans

theorem get_parentId {span : Span} {found : Found} (h : Shows span found) :
    ∃ parent, found.get "parent_id" = .ok parent ∧
      isZeroOrNone parent = decide (span.parentId = 0) := by
  obtain ⟨raw, hraw, hcarries⟩ := h
  refine ⟨lookup raw "parent_id", ?_, hcarries.common.isZeroOrNone⟩
  rw [Found.get, hraw, withGet, Raised.ok_bind, getOf]
  cases found.2.1.format <;> rfl

/-- **The root spans of a request.** -/
theorem getRootSpans_eq (hrid : ridOf lower request = .ok rid)
    (h : List.Forall₂ Records messages data) :
    Raised.Yields Shows (getRootSpans lower request data)
      ((spansOf rid false messages).filter fun span => span.parentId = 0) := by
  have hroot : Raised.Yields Shows (getRootSpans lower request data)
      ((spansOf rid false messages).flatMap fun span =>
        if decide (span.parentId = 0) then [span] else []) := by
    refine forSpans_yields (fun span found hshows => ?_) hrid h
    obtain ⟨parent, hparent, hzero⟩ := get_parentId hshows
    rw [hparent, Raised.ok_bind, hzero]
    split_ifs
    · exact Raised.Yields.singleton hshows
    · exact Raised.Yields.nil
  rw [← flatMap_filter, List.flatMap_singleton'] at hroot
  exact hroot

end Spans

section Example

def exampleSent : Sent := ⟨.http none (some 200), List.replicate 36 'A'⟩

/-- A span of a server, as a tracer has it. -/
def exampleSpan : Span where
  spanId := 2
  parentId := 0
  spanType := "web".toList
  tags := ⟨[("http.useragent".toList, withRid "system_tests".toList exampleSent.rid),
    ("span.kind".toList, "server".toList)], by decide⟩
  metrics := ⟨[("_dd.top_level".toList, .int 1)], by decide⟩
  ridTagsAreTexts := by decide
  topLevelIsNumber := by decide

def exampleTag : Key × Value :=
  (.text "http.useragent".toList, .text (withRid "system_tests".toList exampleSent.rid))

def exampleFields : Items :=
  [(.text "span_id".toList, .int 2), (.text "parent_id".toList, .int 0),
    (.text "type".toList, .text "web".toList)]

def exampleLegacy : Items :=
  exampleFields ++ [(Key.text "trace_id".toList, Value.int 7),
    (Key.text "meta".toList,
      Value.dict [exampleTag, (.text "span.kind".toList, .text "server".toList)]),
    (Key.text "metrics".toList, Value.dict [(.text "_dd.top_level".toList, .int 1)])]

def exampleV1 : Items :=
  exampleFields ++ [(Key.text "span_kind".toList, Value.int 2),
    (Key.text "attributes".toList, Value.dict [exampleTag, (.text "_dd.top_level".toList, .int 1)])]

theorem find_text_items {α : Type} (f : α → Value) (key : Str) :
    ∀ items : List (Str × α),
      Dict.find (Key.text key) (items.map fun item => (Key.text item.1, f item.2)) =
        (Dict.find key items).map f
  | [] => rfl
  | item :: items => by
      rw [List.map_cons, Dict.find, Dict.find, find_text_items f key items]
      by_cases h : item.1 = key
      · rw [if_pos h, if_pos (congrArg Key.text h), Option.map_some]
      · rw [if_neg h, if_neg fun heq => h (Key.text.inj heq)]

theorem exampleLegacy_carries : Carries .v04 exampleSpan exampleLegacy where
  spanId := rfl
  parentId := Or.inl rfl
  spanType := Or.inl rfl
  tags := ⟨_, rfl, fun key => find_text_items Value.text key exampleSpan.tags.items⟩
  metrics := ⟨_, rfl, fun key => find_text_items Number.toValue key exampleSpan.metrics.items⟩

theorem exampleV1_carries : Carries .v10 exampleSpan exampleV1 where
  spanId := rfl
  parentId := Or.inl rfl
  spanType := Or.inl rfl
  own := by
    have hkind : lookup exampleV1 "span_kind" = some (.int 2) := rfl
    intro field hfield v hv
    simp only [v1TopLevelToMeta, List.mem_cons, List.not_mem_nil, or_false] at hfield
    rcases hfield with rfl | rfl | rfl | rfl
    · cases hv
    · cases hv
    · obtain rfl := Option.some.inj (hkind.symm.trans hv)
      exact ⟨"server".toList, rfl, rfl⟩
    · cases hv
  attributes := by
    refine ⟨_, rfl, fun key n hn => ?_, fun key hnone hown => ?_⟩
    · have hmem := (Dict.mem_items_iff _ _ _).mpr hn
      obtain ⟨rfl, rfl⟩ := Prod.mk.inj (List.mem_singleton.mp hmem)
      rfl
    · by_cases hagent : key = "http.useragent".toList
      · rw [hagent]
        rfl
      by_cases hkind : key = "span.kind".toList
      · have hlookup := hown ("span_kind", "span.kind") (by decide) hkind.symm
        cases hlookup
      by_cases htop : key = "_dd.top_level".toList
      · rw [htop] at hnone
        cases hnone
      have htag : exampleSpan.tags.get? key = none := by
        rw [Dict.get?_eq_none_iff]
        simp only [exampleSpan, Dict.keys, List.map_cons, List.map_nil, List.mem_cons,
          List.not_mem_nil, or_false, not_or]
        exact ⟨hagent, hkind⟩
      rw [htag, Option.map_none, Dict.find_eq_none_iff]
      simp only [exampleTag, List.map_cons, List.map_nil, List.mem_cons, List.not_mem_nil,
        or_false, not_or, Key.text.injEq]
      exact ⟨hagent, htop⟩

/-- One trace in two formats, as the messages of two tracers. -/
def exampleMessages : List (Option Message) :=
  [some ⟨.v04, [⟨7, [exampleSpan]⟩]⟩, none, some ⟨.v10, [⟨7, [exampleSpan]⟩]⟩]

def exampleChunk : Value :=
  .dict [(.text "spans".toList, .list [.dict exampleV1]),
    (.text "trace_id".toList, .text "0x07".toList)]

def exampleData : List Data :=
  [⟨"/v0.4/traces".toList, .list [.list [.dict exampleLegacy]]⟩,
    ⟨"/v0.7/config".toList, .none⟩,
    ⟨"/v1.0/traces".toList, .dict [(.text "chunks".toList, .list [exampleChunk])]⟩]

theorem exampleTrace_legacy :
    CarriesTrace .v04 ⟨7, [exampleSpan]⟩ (.list [.dict exampleLegacy]) :=
  ⟨[exampleLegacy], .cons exampleLegacy_carries .nil, rfl, by
    rintro span hspan
    rw [List.mem_singleton.mp hspan]
    rfl⟩

theorem exampleTrace_v1 : CarriesTrace .v10 ⟨7, [exampleSpan]⟩ exampleChunk :=
  ⟨[exampleV1], .cons exampleV1_carries .nil, _, "0x07".toList, rfl, rfl, rfl, by decide⟩

theorem exampleData_records : List.Forall₂ Records exampleMessages exampleData :=
  .cons ⟨rfl, Or.inr ⟨_, .cons exampleTrace_legacy .nil, rfl⟩⟩
    (.cons (by decide : (tracePaths.any fun pattern =>
        fullmatchPath pattern "/v0.7/config".toList) = false)
      (.cons ⟨rfl, Or.inr ⟨_, .cons exampleTrace_v1 .nil, _, rfl, rfl⟩⟩ .nil))

end Example

section Requests

variable {lower : Str → Str} {ι : Type} {sent : ι → Sent}
  {cause : Span → Option ι} {messages : List (Option Message)} {data : List Data}

def allSpans (messages : List (Option Message)) : List Span :=
  (tracesOf messages).flatMap Trace.spans

/-- The weblog passes the user agent of a request on to the tracer, which reports it, with what
packages add to it, for the spans that the request causes.  Other spans report no id of a request
that was sent. -/
structure Reports (lower : Str → Str) (sent : ι → Sent) (cause : Span → Option ι)
    (spans : List Span) : Prop where
  valid : ∀ i, (sent i).Valid lower
  distinct : ∀ i j, (sent i).rid = (sent j).rid → i = j
  caused : ∀ span ∈ spans, ∀ i, cause span = some i →
    ∃ suffix, span.userAgent = some ((sent i).userAgent lower ++ suffix)
  other : ∀ span ∈ spans, cause span = none → ∀ i, span.rid ≠ some (sent i).rid

theorem Reports.rid_eq_iff {spans : List Span} (h : Reports lower sent cause spans) {span : Span}
    (hspan : span ∈ spans) (i : ι) : span.rid = some (sent i).rid ↔ cause span = some i := by
  cases hcause : cause span with
  | none => exact iff_of_false (h.other span hspan hcause i) nofun
  | some j =>
      obtain ⟨suffix, hagent⟩ := h.caused span hspan j hcause
      have hrid : span.rid = some (sent j).rid := by
        rw [Span.rid, hagent, Option.bind_some, Sent.getRidFromUserAgent_userAgent (h.valid j)]
      rw [hrid, Option.some.injEq, Option.some.injEq]
      exact ⟨fun heq => h.distinct j i heq, fun heq => by rw [heq]⟩

theorem ridOf_response (hlower : LowersUserAgent lower) {spans : List Span}
    (h : Reports lower sent cause spans) (i : ι) :
    ridOf lower (some ((sent i).response lower)) = .ok (some (sent i).rid) := by
  rw [ridOf, Sent.getRid_response hlower (h.valid i)]
  rfl

theorem spansOf_false (rid : Str) :
    spansOf (some rid) false messages =
      (allSpans messages).filter fun span => span.rid = some rid := by
  rw [spansOf, flatMap_filter, allSpans, List.filter_flatMap]
  refine List.flatMap_congr fun trace _ => ?_
  have hwanted : Span.isWanted (some rid) false = fun span => decide (span.rid = some rid) := rfl
  rw [hwanted]
  split_ifs with hisOf
  · rfl
  · refine (List.filter_eq_nil_iff.mpr fun span hspan hrid => hisOf ?_).symm
    exact List.any_eq_true.mpr ⟨span, hspan, hrid⟩

theorem spansOf_true (rid : Str) :
    spansOf (some rid) true messages =
      ((tracesOf messages).filter (Trace.isOf (some rid))).flatMap Trace.spans := by
  rw [spansOf]
  refine List.flatMap_congr fun trace _ => ?_
  exact List.filter_eq_self.mpr fun _ _ => rfl

variable [DecidableEq ι]

/-- `str.lower` of ASCII texts -/
def exampleLower : Str → Str := List.map Char.toLower

theorem exampleLower_documented : LowersUserAgent exampleLower := ⟨by decide, by decide⟩

theorem example_reports : Reports exampleLower (fun _ : Unit => exampleSent) (fun _ => some ())
    (allSpans exampleMessages) where
  valid _ := ⟨⟨rfl, by decide⟩, nofun, by decide⟩
  distinct _ _ _ := rfl
  caused span hspan _ _ := by
    have hspans : allSpans exampleMessages = [exampleSpan, exampleSpan] := rfl
    rw [hspans] at hspan
    obtain rfl : span = exampleSpan := by simpa using hspan
    exact ⟨[], by decide⟩
  other _ _ h := nomatch h

/-- The spans without a parent that a request caused. -/
def rootsOf (cause : Span → Option ι) (i : ι) (messages : List (Option Message)) : List Span :=
  (allSpans messages).filter fun span => cause span = some i ∧ span.parentId = 0

/-- **The root span of a request** is found when the request caused one span without a parent;
else the assertion on their number fails. -/
theorem getRootSpan_request (hlower : LowersUserAgent lower)
    (hreports : Reports lower sent cause (allSpans messages))
    (h : List.Forall₂ Records messages data) (i : ι) :
    (∀ span, rootsOf cause i messages = [span] →
      ∃ found, getRootSpan lower ((sent i).response lower) data = .ok found ∧ Shows span found) ∧
    ((rootsOf cause i messages).length ≠ 1 → ∃ text,
      getRootSpan lower ((sent i).response lower) data = .error (.assertionError text)) := by
  have hrid := ridOf_response hlower hreports i
  have hroots : (spansOf (some (sent i).rid) false messages).filter
      (fun span => span.parentId = 0) = rootsOf cause i messages := by
    rw [spansOf_false, List.filter_filter, rootsOf]
    refine List.filter_congr fun span hspan => ?_
    rw [Bool.eq_iff_iff, Bool.and_eq_true, decide_eq_true_eq, decide_eq_true_eq,
      decide_eq_true_eq, hreports.rid_eq_iff hspan i]
    exact and_comm
  obtain ⟨out, hout, hshows⟩ := getRootSpans_eq hrid h
  rw [hroots] at hshows
  rw [getRootSpan, hout, Raised.ok_bind]
  constructor
  · intro span hone
    rw [hone] at hshows
    obtain ⟨found, _, hfound, hnil, rfl⟩ := List.forall₂_cons_left_iff.mp hshows
    obtain rfl := List.forall₂_nil_left_iff.mp hnil
    exact ⟨found, rfl, hfound⟩
  · intro hlength
    rw [hshows.length_eq] at hlength
    match out, hlength with
    | [], _ => exact ⟨_, rfl⟩
    | _ :: _ :: _, _ => exact ⟨_, rfl⟩
    | [_], hlength => exact absurd rfl hlength

/-- The request caused two spans without a parent. -/
theorem getRootSpan_request_example :
    ∃ text, getRootSpan exampleLower (exampleSent.response exampleLower) exampleData =
      .error (.assertionError text) :=
  (getRootSpan_request exampleLower_documented example_reports exampleData_records ()).2 (by decide)

end Requests

section Formats

/-- Two spans are read in the same way, where a tag is a text or a number. -/
structure SameReadings (span : Span) (format format' : LibraryTraceFormat) (s s' : Items) :
    Prop where
  rid : spanRid format (.dict s) = spanRid format' (.dict s')
  tags : ∃ tags tags', metaOf format s = .ok (.dict tags) ∧ metaOf format' s' = .ok (.dict tags') ∧
    ∀ key, span.metrics.get? key = none →
      Dict.find (Key.text key) tags = Dict.find (Key.text key) tags'
  metrics : ∃ metrics metrics', metricsOf format s = .ok (.dict metrics) ∧
    metricsOf format' s' = .ok (.dict metrics') ∧
    ∀ key, span.metrics.get? key ≠ none →
      Dict.find (Key.text key) metrics = Dict.find (Key.text key) metrics'
  spanId : lookup s "span_id" = lookup s' "span_id"
  isRoot : isZeroOrNone (lookup s "parent_id") = isZeroOrNone (lookup s' "parent_id")

variable {format format' : LibraryTraceFormat}

theorem sameReadings {span : Span} {s s' : Items} (h : Carries format span s)
    (h' : Carries format' span s') : SameReadings span format format' s s' where
  rid := (spanRid_eq h).trans (spanRid_eq h').symm
  tags := by
    obtain ⟨tags, htags, hfind⟩ := meta_agrees h
    obtain ⟨tags', htags', hfind'⟩ := meta_agrees h'
    exact ⟨tags, tags', htags, htags', fun key hkey => (hfind key hkey).trans (hfind' key hkey).symm⟩
  metrics := by
    obtain ⟨metrics, hmetrics, hfind, -⟩ := metrics_agrees h
    obtain ⟨metrics', hmetrics', hfind', -⟩ := metrics_agrees h'
    refine ⟨metrics, metrics', hmetrics, hmetrics', fun key hkey => ?_⟩
    obtain ⟨n, hn⟩ := Option.ne_none_iff_exists'.mp hkey
    rw [hfind key n hn, hfind' key n hn]
  spanId := h.common.spanId.trans h'.common.spanId.symm
  isRoot := h.common.isZeroOrNone.trans h'.common.isZeroOrNone.symm

/-- The wrapper of a trace, as the path of its message chooses it. -/
def wrap (format : LibraryTraceFormat) (raw : Value) : Except Raised DataDogLibraryTrace :=
  match format with
  | .v10 => fromV1 raw
  | format => fromLegacy format raw

theorem wrap_eq {trace : Trace} {raw : Value} (h : CarriesTrace format trace raw)
    (hne : trace.spans ≠ []) :
    ∃ (found : DataDogLibraryTrace) (spans : List Items), wrap format raw = .ok found ∧
      found.spans = spans.map Value.dict ∧ List.Forall₂ (Carries format) trace.spans spans ∧
      found.traceIdAsInt = .ok (.int (DdTypes.low64 trace.id)) := by
  obtain ⟨id, traceSpans⟩ := trace
  obtain ⟨spans, hcarries, hraw⟩ := h
  cases format with
  | v10 =>
      obtain ⟨items, text, rfl, hspans, hid, htext⟩ := hraw
      refine ⟨⟨.v10, .dict items, spans.map Value.dict⟩, spans, ?_, rfl, hcarries, ?_⟩
      · rw [wrap, fromV1, subscript, hspans]
        rfl
      · have htraceId : DataDogLibraryTrace.traceId ⟨.v10, .dict items, spans.map Value.dict⟩ =
            .ok (.text text) := by
          rw [DataDogLibraryTrace.traceId, subscript, hid]
          rfl
        rw [DataDogLibraryTrace.traceIdAsInt, htraceId, Raised.ok_bind,
          DataDogLibraryTrace.intBase16, htext]
        rfl
  | v04 | v05 =>
      obtain ⟨rfl, hids⟩ := hraw
      cases hcarries with
      | nil => exact absurd rfl hne
      | @cons span first rest spans hfirst hrest =>
          refine ⟨_, first :: spans, rfl, rfl, .cons hfirst hrest, ?_⟩
          have hid := hids first List.mem_cons_self
          rw [DataDogLibraryTrace.traceIdAsInt, DataDogLibraryTrace.traceId, firstOf,
            List.map_cons, List.head?_cons, Raised.ofOption_some, Raised.ok_bind, subscript, hid]
          rfl

/-- Two lists that are related to one are related to each other. -/
theorem forall₂_of_both {α β γ : Type} {R : α → β → Prop} {S : α → γ → Prop} {l : List α}
    {m : List β} {n : List γ} (h : List.Forall₂ R l m) (h' : List.Forall₂ S l n) :
    List.Forall₂ (fun b c => ∃ a ∈ l, R a b ∧ S a c) m n := by
  induction h generalizing n with
  | nil =>
      rw [List.forall₂_nil_left_iff] at h'
      rw [h']
      exact .nil
  | cons hR _ ih =>
      cases h' with
      | cons hS hSs =>
          refine .cons ⟨_, List.mem_cons_self, hR, hS⟩ ((ih hSs).imp ?_)
          rintro b c ⟨a, ha, hR, hS⟩
          exact ⟨a, List.mem_cons_of_mem _ ha, hR, hS⟩

/-- **A trace is read in the same way in all formats**: its id is compared in the same way, and
its spans are, one by one. -/
theorem wrap_agrees {trace : Trace} {raw raw' : Value} (hne : trace.spans ≠ [])
    (h : CarriesTrace format trace raw) (h' : CarriesTrace format' trace raw') :
    ∃ found found', wrap format raw = .ok found ∧ wrap format' raw' = .ok found' ∧
      (∀ other, found.traceIdEquals other = found'.traceIdEquals other) ∧
      List.Forall₂ (fun v v' => ∃ span ∈ trace.spans, ∃ s s', v = .dict s ∧ v' = .dict s' ∧
        SameReadings span format format' s s') found.spans found'.spans := by
  obtain ⟨found, spans, hfound, hspans, hcarries, hid⟩ := wrap_eq h hne
  obtain ⟨found', spans', hfound', hspans', hcarries', hid'⟩ := wrap_eq h' hne
  refine ⟨found, found', hfound, hfound', fun other => ?_, ?_⟩
  · unfold DataDogLibraryTrace.traceIdEquals
    rw [hid, hid']
  · rw [hspans, hspans', List.forall₂_map_left_iff, List.forall₂_map_right_iff]
    refine (forall₂_of_both hcarries hcarries').imp fun s s' ⟨span, hspan, hs, hs'⟩ => ?_
    exact ⟨span, hspan, s, s', rfl, rfl, sameReadings hs hs'⟩

theorem wrap_agrees_example : ∃ found found',
    wrap .v04 (.list [.dict exampleLegacy]) = .ok found ∧ wrap .v10 exampleChunk = .ok found' ∧
      ∀ other, found.traceIdEquals other = found'.traceIdEquals other := by
  obtain ⟨found, found', hfound, hfound', hid, -⟩ :=
    wrap_agrees (List.cons_ne_nil _ _) exampleTrace_legacy exampleTrace_v1
  exact ⟨found, found', hfound, hfound', hid⟩

end Formats

end Correlation
end SystemTests
