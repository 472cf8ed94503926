import SystemTests.Foundation.Descendants
import SystemTests.Foundation.Dict
import SystemTests.Foundation.Exception

/-!
# Correlation of OTLP spans with a request (`get_otel_spans`)

A span matches a request by a user agent among its attributes.  The spans of a request
are the ones that match it and all their descendants; children may be exported before
their parents, and in other payloads.  The spans are marked by passes over the records
of all payloads, until a pass marks nothing.

**Results.**
* `getOtelSpans_eq`: the records that are yielded, for every bound on the passes that is
  above the number of records.
* `getOtelSpans_spec`: they are the members of the least set, each once and in record
  order, and other payloads with the same spans give the same spans.
-/

namespace SystemTests
namespace Interfaces

open Foundation Foundation.Text Foundation.Descendants

section Model

/-- A value of an attribute: a text, or another value, of which its truth counts. -/
inductive Attribute where
  | text (s : Str)
  | other (truthy : Bool)
deriving DecidableEq

def Attribute.truthy : Attribute → Bool
  | .text s => s ≠ []
  | .other truthy => truthy

/-- The attributes of a span; a list of attributes is left as it is by the proxy. -/
inductive Attributes where
  | dict (d : Dict Str Attribute)
  | other
deriving DecidableEq

structure OtelSpan where
  attributes : Attributes
  spanId : Option Str
  parentSpanId : Option Str
deriving DecidableEq

structure ScopeSpan where
  spans : Option (List OtelSpan)
deriving DecidableEq

structure ResourceSpan where
  scopeSpans : Option (List ScopeSpan)
deriving DecidableEq

structure Payload where
  path : Str
  resourceSpans : Option (List ResourceSpan)
deriving DecidableEq

def userAgentKeys : List Str :=
  ["http.request.headers.user-agent", "http.useragent", "user_agent.original"].map String.toList

def isOtelSpanForRequest (span : OtelSpan) (requestId : Str) : Bool :=
  match span.attributes with
  | .other => false
  | .dict attributes =>
      let standard := userAgentKeys.filterMap fun key =>
        (attributes.get? key).filter Attribute.truthy
      let userAgents :=
        if standard = [] then (attributes.get? "system_tests.request.user_agent").toList
        else standard
      requestId ≠ [] && userAgents.any fun value =>
        match value with
        | .text s => decide (requestId <:+: s)
        | .other _ => false

/-- The path is matched by `/api/v0.2/traces` or by `/v1/traces`; a dot matches any character. -/
def isTracesPath (path : Str) : Bool :=
  path = "/v1/traces".toList ||
    (path.take 7 = "/api/v0".toList && path.drop 8 = "2/traces".toList &&
      path[7]?.any (· ≠ '\n'))

/-- `get_data(path_filters=paths)` -/
def getTraces (payloads : List Payload) : List Payload :=
  payloads.filter fun payload => isTracesPath payload.path

/-- `for x in xs`, where `xs` may be missing. -/
def iterate {α : Type} (xs : Option (List α)) : Except Raised (List α) :=
  Raised.ofOption (.typeError "'NoneType' object is not iterable") xs

def ResourceSpan.spans (resourceSpan : ResourceSpan) : Except Raised (List OtelSpan) := do
  let scopeSpans ← iterate resourceSpan.scopeSpans
  Raised.flatMapM (fun scopeSpan => iterate scopeSpan.spans) scopeSpans

abbrev Record := Payload × OtelSpan

def Payload.records (payload : Payload) : Except Raised (List Record) := do
  let spans ← Raised.flatMapM ResourceSpan.spans (payload.resourceSpans.getD [])
  return spans.map fun span => (payload, span)

/-- `if span_id := span.get("spanId")` -/
def OtelSpan.correlatedId (span : OtelSpan) : Option Str := span.spanId.filter (· ≠ [])

/-- The records of the request; `none` is for more passes than the bound. -/
def getOtelSpans (passes : Nat) (payloads : List Payload) (rid : Str) :
    Except Raised (Option (List Record)) := do
  let spanRecords ← Raised.flatMapM Payload.records (getTraces payloads)
  let correlated := markSeeds (fun record : Record => isOtelSpanForRequest record.2 rid)
    (fun record => record.2.correlatedId) spanRecords
  let closed := close (fun record : Record => record.2.correlatedId)
    (fun record => record.2.parentSpanId) spanRecords passes correlated
  return closed.map fun marks => (marks.indexes.sort (· ≤ ·)).filterMap (spanRecords[·]?)

end Model

section Spans

/-- Every entry has its `scopeSpans` and `spans`. -/
def Payload.WellFormed (payload : Payload) : Prop :=
  ∀ resourceSpan ∈ payload.resourceSpans.getD [], ∃ scopeSpans,
    resourceSpan.scopeSpans = some scopeSpans ∧ ∀ scopeSpan ∈ scopeSpans, scopeSpan.spans.isSome

def ResourceSpan.allSpans (resourceSpan : ResourceSpan) : List OtelSpan :=
  (resourceSpan.scopeSpans.getD []).flatMap fun scopeSpan => scopeSpan.spans.getD []

def Payload.allSpans (payload : Payload) : List OtelSpan :=
  (payload.resourceSpans.getD []).flatMap ResourceSpan.allSpans

/-- The spans of some payloads, in record order. -/
def spansOf (payloads : List Payload) : List OtelSpan :=
  (getTraces payloads).flatMap Payload.allSpans

def recordsOf (payloads : List Payload) : List Record :=
  (getTraces payloads).flatMap fun payload => payload.allSpans.map fun span => (payload, span)

/-- The least set with the spans that match and the children of its members, for one
notion of the id by which a child names its parent. -/
def Correlated (idOf : OtelSpan → Option Str) (rid : Str) (spans : List OtelSpan) :
    OtelSpan → Prop :=
  Member (fun span => isOtelSpanForRequest span rid) idOf OtelSpan.parentSpanId spans

theorem map_recordsOf (payloads : List Payload) :
    (recordsOf payloads).map Prod.snd = spansOf payloads := by
  simp [recordsOf, spansOf, List.map_flatMap]

theorem spans_eq {resourceSpan : ResourceSpan} {scopeSpans : List ScopeSpan}
    (h : resourceSpan.scopeSpans = some scopeSpans)
    (hspans : ∀ scopeSpan ∈ scopeSpans, scopeSpan.spans.isSome) :
    resourceSpan.spans = .ok resourceSpan.allSpans := by
  rw [ResourceSpan.spans, ResourceSpan.allSpans, h, iterate, Raised.ofOption_some, Raised.ok_bind]
  refine Raised.flatMapM_eq_ok ?_
  intro scopeSpan hmem
  obtain ⟨spans, hsome⟩ := Option.isSome_iff_exists.mp (hspans scopeSpan hmem)
  rw [hsome]
  rfl

theorem flatMapM_records {payloads : List Payload}
    (h : ∀ payload ∈ payloads, payload.WellFormed) :
    Raised.flatMapM Payload.records (getTraces payloads) = .ok (recordsOf payloads) := by
  refine Raised.flatMapM_eq_ok ?_
  intro payload hmem
  have hspans : Raised.flatMapM ResourceSpan.spans (payload.resourceSpans.getD []) =
      .ok payload.allSpans := by
    refine Raised.flatMapM_eq_ok ?_
    intro resourceSpan hresource
    obtain ⟨scopeSpans, hscopes, hall⟩ :=
      h payload (List.mem_of_mem_filter hmem) resourceSpan hresource
    exact spans_eq hscopes hall
  rw [Payload.records, hspans]
  rfl

open Classical in
/-- What is yielded, whatever bound above the number of records the passes have. -/
theorem getOtelSpans_eq {payloads : List Payload} (h : ∀ payload ∈ payloads, payload.WellFormed)
    (rid : Str) {passes : Nat} (hpasses : (spansOf payloads).length < passes) :
    getOtelSpans passes payloads rid = .ok (some ((recordsOf payloads).filter fun record =>
      decide (Correlated OtelSpan.correlatedId rid (spansOf payloads) record.2))) := by
  have hlength : (recordsOf payloads).length = (spansOf payloads).length := by
    rw [← map_recordsOf, List.length_map]
  obtain ⟨hsound, hseeds⟩ := Sound.markSeeds
    (fun record : Record => isOtelSpanForRequest record.2 rid)
    (fun record => record.2.correlatedId) (fun record => record.2.parentSpanId)
    (recordsOf payloads)
  obtain ⟨marks, hclose, hsound', hsub, hclosed⟩ := close_eq_some passes hsound (by omega)
  rw [getOtelSpans, flatMapM_records h, Raised.ok_bind]
  dsimp only
  rw [hclose]
  have hrecords : (marks.indexes.sort (· ≤ ·)).filterMap ((recordsOf payloads)[·]?) =
      (recordsOf payloads).filter fun record =>
        decide (Correlated OtelSpan.correlatedId rid (spansOf payloads) record.2) := by
    refine filterMap_sort ?_ ?_
    · intro i hi
      obtain ⟨record, hrecord, -⟩ := hsound'.index i hi
      exact (List.getElem?_eq_some_iff.mp hrecord).1
    · intro i record hrecord
      rw [hsound'.mem_indexes_iff (fun i a ha hseed => hsub (hseeds i a ha hseed)) hclosed hrecord,
        decide_eq_true_eq, Correlated, ← map_recordsOf]
      exact Member.map_iff (fun span => isOtelSpanForRequest span rid) OtelSpan.correlatedId
        OtelSpan.parentSpanId Prod.snd (List.mem_of_getElem? hrecord)
  rw [← hrecords]
  rfl

open Classical in
/-- **Correlation with a request is the descendant closure.** -/
theorem getOtelSpans_spec (payloads payloads' : List Payload)
    (h : ∀ payload ∈ payloads, payload.WellFormed)
    (h' : ∀ payload ∈ payloads', payload.WellFormed)
    (hperm : (spansOf payloads).Perm (spansOf payloads')) (rid : Str) :
    ∃ yielded yielded',
      (∀ passes, (spansOf payloads).length < passes →
        getOtelSpans passes payloads rid = .ok (some yielded)) ∧
      (∀ passes, (spansOf payloads').length < passes →
        getOtelSpans passes payloads' rid = .ok (some yielded')) ∧
      yielded = (recordsOf payloads).filter (fun record =>
        decide (Correlated OtelSpan.correlatedId rid (spansOf payloads) record.2)) ∧
      (yielded.map Prod.snd).Perm (yielded'.map Prod.snd) := by
  refine ⟨_, _, fun passes hpasses => getOtelSpans_eq h rid hpasses,
    fun passes hpasses => getOtelSpans_eq h' rid hpasses, rfl, ?_⟩
  have hfilter : ∀ payloads : List Payload, ((recordsOf payloads).filter fun record =>
      decide (Correlated OtelSpan.correlatedId rid (spansOf payloads) record.2)).map Prod.snd =
        (spansOf payloads).filter fun span =>
          decide (Correlated OtelSpan.correlatedId rid (spansOf payloads) span) := by
    intro payloads
    rw [← map_recordsOf, List.filter_map]
    rfl
  rw [hfilter, hfilter]
  have hsame : ∀ span, Correlated OtelSpan.correlatedId rid (spansOf payloads) span ↔
      Correlated OtelSpan.correlatedId rid (spansOf payloads') span :=
    fun span => Member.congr fun _ => hperm.mem_iff
  rw [List.filter_congr fun span _ => decide_eq_decide.mpr (hsame span)]
  exact hperm.filter _

/-- A span with an empty id that matches, and a span with an empty parent id. -/
def rootSpan : OtelSpan :=
  ⟨.dict ⟨[("http.useragent".toList, .text "rid/A")], by decide⟩, some [], none⟩

def orphanSpan : OtelSpan := ⟨.other, some "2", some []⟩

def emptyIdPayload : Payload := ⟨"/v1/traces", some [⟨some [⟨some [rootSpan, orphanSpan]⟩]⟩]⟩

theorem wellFormed_emptyIdPayload : ∀ payload ∈ [emptyIdPayload], payload.WellFormed := by
  rw [List.forall_mem_singleton]
  intro resourceSpan hresource
  obtain rfl := List.mem_singleton.mp hresource
  refine ⟨_, rfl, ?_⟩
  rw [List.forall_mem_singleton]
  rfl

theorem not_correlated_orphanSpan {spans : List OtelSpan} :
    ¬ Correlated OtelSpan.correlatedId "A" spans orphanSpan := by
  intro h
  cases h with
  | seed _ hseed => cases hseed
  | child _ _ hkey hparent =>
      rw [orphanSpan] at hparent
      cases hparent
      simp [OtelSpan.correlatedId] at hkey

open Classical in
/-- The span with the empty parent id is a child of a member, and is not yielded. -/
theorem not_getOtelSpans_emptyId :
    ¬ ∀ (payloads : List Payload) (rid : Str), (∀ payload ∈ payloads, payload.WellFormed) →
      ∃ yielded, (∀ passes, (spansOf payloads).length < passes →
          getOtelSpans passes payloads rid = .ok (some yielded)) ∧
        yielded = (recordsOf payloads).filter fun record =>
          decide (Correlated OtelSpan.spanId rid (spansOf payloads) record.2) := by
  intro hall
  obtain ⟨yielded, hyielded, heq⟩ := hall [emptyIdPayload] "A" wellFormed_emptyIdPayload
  have hspec := (hyielded 3 (by decide)).symm.trans
    (getOtelSpans_eq wellFormed_emptyIdPayload "A" (by decide))
  rw [Except.ok.injEq, Option.some.injEq] at hspec
  have horphan : (emptyIdPayload, orphanSpan) ∈ recordsOf [emptyIdPayload] := by decide
  have hspans : spansOf [emptyIdPayload] = [rootSpan, orphanSpan] := by decide
  have hroot : Correlated OtelSpan.spanId "A" [rootSpan, orphanSpan] rootSpan :=
    Member.seed (by decide) (by decide)
  have hchild : Correlated OtelSpan.spanId "A" [rootSpan, orphanSpan] orphanSpan :=
    Member.child hroot (by decide) rfl rfl
  have hmem : (emptyIdPayload, orphanSpan) ∈ yielded := by
    rw [heq, List.mem_filter, decide_eq_true_eq, hspans]
    exact ⟨horphan, hchild⟩
  rw [hspec, List.mem_filter, decide_eq_true_eq] at hmem
  exact not_correlated_orphanSpan hmem.2

/-- The two spans in one payload, and the other way round in two lists. -/
theorem getOtelSpans_spec_split :
    ∃ yielded yielded',
      (∀ passes, 2 < passes →
        getOtelSpans passes [emptyIdPayload] "A" = .ok (some yielded)) ∧
      (∀ passes, 2 < passes → getOtelSpans passes
        [⟨"/v1/traces", some [⟨some [⟨some [orphanSpan]⟩, ⟨some [rootSpan]⟩]⟩]⟩] "A" =
          .ok (some yielded')) ∧
      (yielded.map Prod.snd).Perm (yielded'.map Prod.snd) := by
  obtain ⟨yielded, yielded', hpasses, hpasses', -, hperm⟩ :=
    getOtelSpans_spec [emptyIdPayload]
      [⟨"/v1/traces", some [⟨some [⟨some [orphanSpan]⟩, ⟨some [rootSpan]⟩]⟩]⟩]
      wellFormed_emptyIdPayload (by
        rw [List.forall_mem_singleton]
        intro resourceSpan hresource
        obtain rfl := List.mem_singleton.mp hresource
        exact ⟨_, rfl, by decide⟩) (by decide) "A"
  exact ⟨yielded, yielded', hpasses, hpasses', hperm⟩

end Spans

end Interfaces
end SystemTests
