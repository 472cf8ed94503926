import SystemTests.SetupProperties.Serialization

/-!
# Setup properties in replay mode

`Recorded` are the values that the setup of a test leaves, `Same` says how a value comes back:
`CaseInsensitiveDict` as a dictionary, the member of an enumeration as its number, a response
as one with the same attributes, everything else as it was.

**Results.**
* `newHttpResponse_same`, `newGrpcResponse_same`: a response is built again.
* `exists_restores`: each value is written, read and decoded to the same one.
* `replayed_same`: what is loaded is what was stored.
-/

namespace SystemTests
namespace SetupProperties

open Foundation Foundation.Text Foundation.Json

variable (py : Builtins)

section Recorded

/-- A value of JSON that is no container; `NaN` is no number of JSON, and equals nothing. -/
def IsScalar : Value → Prop
  | .none => True
  | .bool _ => True
  | .number literal => ValidNumber literal ∧ literal ≠ "NaN"
  | .str us => PlainText us
  | _ => False

/-- The keys of a dictionary that is not marked with a class. -/
structure IsMapping (items : Items) : Prop where
  nodup : (items.map Prod.fst).Nodup
  unmarked : classKey ∉ items.map Prod.fst
  plain : ∀ key ∈ items.map Prod.fst, PlainText key

def IsHeaderMap (v : Value) : Prop :=
  v = .none ∨ ∃ headers, v = .dict headers ∨ v = .caseInsensitiveDict headers

/-- The headers, if there are any, are a header map. -/
def HeadersAreMap (items : Items) : Prop :=
  ∀ v, Dict.find (codePoints "headers") items = some v → IsHeaderMap v

structure IsHttpData (data : Items) : Prop where
  built : ∃ response, newHttpResponse py (.dict data) = .ok response
  request : ∃ request, Dict.find (codePoints "request") data = some (.dict request) ∧
    HeadersAreMap request
  headers : HeadersAreMap data

structure IsGrpcData (data : Items) : Prop where
  built : ∃ response, newGrpcResponse py (.dict data) = .ok response
  request : ∃ request, Dict.find (codePoints "request") data = some (.dict request) ∧
    ∀ rid, Dict.find (codePoints "rid") request = some rid → IsScalar rid

mutual

/-- What may be stored. -/
def Recorded : Value → Prop
  | .none => True
  | .bool _ => True
  | .number literal => IsScalar (.number literal)
  | .str us => PlainText us
  | .list elements => RecordedElements elements
  | .dict items => IsMapping items ∧ RecordedItems items
  | .caseInsensitiveDict items =>
      (items.map fun item => py.lower item.1).Nodup ∧ IsMapping items ∧ RecordedItems items
  | .set elements =>
      (∀ v ∈ elements, IsScalar v) ∧ elements.Pairwise fun v w => py.eq v w = false
  | .httpResponse data => IsMapping data ∧ IsHttpData py data ∧ RecordedItems data
  | .grpcResponse data => IsMapping data ∧ IsGrpcData py data ∧ RecordedItems data
  | .remoteConfigStateResults version state configs =>
      Recorded version ∧ Recorded state ∧ Recorded configs ∧ configs ≠ .none
  | .applyState _ => True
  | .other _ => False

def RecordedElements : List Value → Prop
  | [] => True
  | v :: vs => Recorded v ∧ RecordedElements vs

def RecordedItems : List (List Nat × Value) → Prop
  | [] => True
  | (_, v) :: items => Recorded v ∧ RecordedItems items

end

mutual

/-- The second value stands for the first one in a later run. -/
inductive Same : Value → Value → Prop
  | none : Same .none .none
  | bool (b : Bool) : Same (.bool b) (.bool b)
  | number (literal : Str) : Same (.number literal) (.number literal)
  | str (us : List Nat) : Same (.str us) (.str us)
  | list {vs ws : List Value} (elements : SameElements vs ws) : Same (.list vs) (.list ws)
  | dict {items items' : Items} (same : SameItems items items') : Same (.dict items) (.dict items')
  | caseInsensitiveDict {items items' : Items} (same : SameItems items items') :
      Same (.caseInsensitiveDict items) (.dict items')
  | set {vs ws : List Value} (perm : vs.Perm ws) : Same (.set vs) (.set ws)
  | httpResponse {data data' : Items} {r r' : HttpResponse}
      (built : newHttpResponse py (.dict data) = .ok r)
      (built' : newHttpResponse py (.dict data') = .ok r')
      (statusCode : Same r.statusCode r'.statusCode)
      (text : Same r.text r'.text)
      (cookies : Same r.cookies r'.cookies)
      (headers : SameItems (lowerItems r.headers) (lowerItems r'.headers))
      (method : Same r.request.method r'.request.method)
      (url : Same r.request.url r'.request.url)
      (params : Same r.request.params r'.request.params)
      (requestHeaders :
        SameItems (lowerItems r.request.headers) (lowerItems r'.request.headers)) :
      Same (.httpResponse data) (.httpResponse data')
  | grpcResponse {data data' : Items} {r r' : GrpcResponse}
      (built : newGrpcResponse py (.dict data) = .ok r)
      (built' : newGrpcResponse py (.dict data') = .ok r')
      (userAgent : r.request.userAgent = r'.request.userAgent)
      (response : Same r.response r'.response) :
      Same (.grpcResponse data) (.grpcResponse data')
  | remoteConfigStateResults {version version' state state' configs configs' : Value}
      (sameVersion : Same version version') (sameState : Same state state')
      (sameConfigs : Same configs configs') :
      Same (.remoteConfigStateResults version state configs)
        (.remoteConfigStateResults version' state' configs')
  | applyState (state : RemoteConfig.ApplyState) :
      Same (.applyState state) (.number (intText state.value))

inductive SameElements : List Value → List Value → Prop
  | nil : SameElements [] []
  | cons {v w : Value} {vs ws : List Value} (head : Same v w) (tail : SameElements vs ws) :
      SameElements (v :: vs) (w :: ws)

/-- The keys are the same and stand in one order. -/
inductive SameItems : Items → Items → Prop
  | nil : SameItems [] []
  | cons {key : List Nat} {v w : Value} {items items' : Items} (head : Same v w)
      (tail : SameItems items items') : SameItems ((key, v) :: items) ((key, w) :: items')

end

/-- The fields of an object are found alike, whether or not its class stands beside them. -/
def SameFields (items items' : Items) : Prop :=
  ∀ key : Str, key ≠ "__class__" →
    Option.Rel (Same py) (Dict.find (codePoints key) items) (Dict.find (codePoints key) items')

/-- The attributes of two requests are the same. -/
structure SameRequest (r r' : HttpRequest) : Prop where
  method : Same py r.method r'.method
  url : Same py r.url r'.url
  params : Same py r.params r'.params
  headers : SameItems py (lowerItems r.headers) (lowerItems r'.headers)

end Recorded

section Lookups

variable {py} {v w : Value} {items items' : Items}

theorem eq_of_isScalar (hv : IsScalar v) (h : Same py v w) : w = v := by
  cases h <;> first | rfl | exact absurd hv id

theorem eq_of_forall_isScalar {vs ws : List Value} (hvs : ∀ v ∈ vs, IsScalar v)
    (h : SameElements py vs ws) : ws = vs := by
  induction vs generalizing ws with
  | nil =>
      cases h
      rfl
  | cons v vs ih =>
      rw [List.forall_mem_cons] at hvs
      cases h with
      | cons head tail => rw [eq_of_isScalar hvs.1 head, ih hvs.2 tail]

theorem SameItems.keys_eq (h : SameItems py items items') :
    items'.map Prod.fst = items.map Prod.fst := by
  induction items generalizing items' with
  | nil =>
      cases h
      rfl
  | cons item items ih =>
      cases h with
      | cons _ tail => rw [List.map_cons, List.map_cons, ih tail]

theorem SameItems.find (h : SameItems py items items') (key : List Nat) :
    Option.Rel (Same py) (Dict.find key items) (Dict.find key items') := by
  induction items generalizing items' with
  | nil =>
      cases h
      exact .none
  | cons item items ih =>
      cases h with
      | @cons k v w _ _ head tail =>
          rw [Dict.find, Dict.find]
          split_ifs with hkey
          · exact .some head
          · exact ih tail

theorem SameItems.setItems (h : SameItems py items items') (key : List Nat) (hv : Same py v w) :
    SameItems py (Dict.setItems key v items) (Dict.setItems key w items') := by
  induction items generalizing items' with
  | nil =>
      cases h
      exact .cons hv .nil
  | cons item items ih =>
      cases h with
      | @cons k a b _ _ head tail =>
          rw [Dict.setItems, Dict.setItems]
          split_ifs with hkey
          · exact .cons hv tail
          · exact .cons head (ih tail)

theorem SameItems.fields (h : SameItems py items items') : SameFields py items items' :=
  fun key _ => h.find (codePoints key)

theorem find_mark {key : Str} (hkey : key ≠ "__class__") (name : Value) (items : Items) :
    Dict.find (codePoints key) (items ++ [(classKey, name)]) =
      Dict.find (codePoints key) items := by
  have hne : classKey ≠ codePoints key := fun h => hkey (codePoints_injective h).symm
  rw [Dict.find_append, Dict.find, if_neg hne, Dict.find, Option.or_none]

theorem SameItems.fields_mark (h : SameItems py items items') (name : Value) :
    SameFields py items (items' ++ [(classKey, name)]) := by
  intro key hkey
  rw [find_mark hkey]
  exact h.find (codePoints key)

theorem SameFields.getItem (h : SameFields py items items') {key : Str}
    (hkey : key ≠ "__class__") (hv : getItem py (.dict items) key = .ok v) :
    ∃ w, getItem py (.dict items') key = .ok w ∧ Same py v w := by
  have hrel := h key hkey
  rw [SetupProperties.getItem, Raised.ofOption_eq_ok_iff] at hv
  rw [hv] at hrel
  cases hfind : Dict.find (codePoints key) items' with
  | none =>
      rw [hfind] at hrel
      cases hrel
  | some w =>
      rw [hfind] at hrel
      cases hrel with
      | some hsame => exact ⟨w, Raised.ofOption_eq_ok_iff.mpr hfind, hsame⟩

end Lookups

section Responses

variable {py} {v w : Value} {items items' : Items}

theorem lowerItems_set (headers : Headers) (key : List Nat) (item : List Nat × Value) :
    lowerItems (headers.set key item) = Dict.setItems key item.2 (lowerItems headers) := by
  have hitems : ∀ items : List (List Nat × List Nat × Value),
      (Dict.setItems key item items).map (fun item => (item.1, item.2.2)) =
        Dict.setItems key item.2 (items.map fun item => (item.1, item.2.2)) := by
    intro items
    induction items with
    | nil => rfl
    | cons first items ih =>
        rw [Dict.setItems, List.map_cons, Dict.setItems]
        split_ifs with hkey
        · rfl
        · rw [List.map_cons, ih]
  exact hitems headers.items

/-- Headers of the same items are the same, whatever `lower` makes of their keys. -/
theorem lowerItems_headersOf (h : SameItems py items items') :
    SameItems py (lowerItems (headersOf py items)) (lowerItems (headersOf py items')) := by
  suffices hset : ∀ headers headers' : Headers,
      SameItems py (lowerItems headers) (lowerItems headers') →
      SameItems py (lowerItems (headers.setAll (items.map fun item => (py.lower item.1, item))))
        (lowerItems (headers'.setAll (items'.map fun item => (py.lower item.1, item)))) from
    hset Dict.empty Dict.empty .nil
  induction items generalizing items' with
  | nil =>
      cases h
      exact fun _ _ hheaders => hheaders
  | cons item items ih =>
      cases h with
      | @cons key v w _ _ head tail =>
          intro headers headers' hheaders
          rw [List.map_cons, List.map_cons, Dict.setAll_cons, Dict.setAll_cons]
          refine ih tail _ _ ?_
          rw [lowerItems_set, lowerItems_set]
          exact hheaders.setItems _ head

theorem newHeaders_same (hmap : IsHeaderMap v) (h : Same py v w) :
    ∃ headers headers', newHeaders py v = .ok headers ∧ newHeaders py w = .ok headers' ∧
      SameItems py (lowerItems headers) (lowerItems headers') := by
  obtain rfl | ⟨headers, rfl | rfl⟩ := hmap
  · cases h
    exact ⟨_, _, rfl, rfl, .nil⟩
  · cases h with
    | dict same => exact ⟨_, _, rfl, rfl, lowerItems_headersOf same⟩
  · cases h with
    | caseInsensitiveDict same => exact ⟨_, _, rfl, rfl, lowerItems_headersOf same⟩

theorem SameFields.headers (h : SameFields py items items') (hmap : HeadersAreMap items) :
    ∃ v w, getDict py (.dict items) "headers" = .ok v ∧
      getDict py (.dict items') "headers" = .ok w ∧
      ∃ headers headers', newHeaders py v = .ok headers ∧ newHeaders py w = .ok headers' ∧
        SameItems py (lowerItems headers) (lowerItems headers') := by
  have hrel := h "headers" (by decide)
  refine ⟨_, _, rfl, rfl, ?_⟩
  cases hv : Dict.find (codePoints "headers") items with
  | none =>
      rw [hv] at hrel
      cases hw : Dict.find (codePoints "headers") items' with
      | none => exact newHeaders_same (Or.inr ⟨[], Or.inl rfl⟩) (.dict .nil)
      | some w =>
          rw [hw] at hrel
          cases hrel
  | some v =>
      rw [hv] at hrel
      cases hw : Dict.find (codePoints "headers") items' with
      | none =>
          rw [hw] at hrel
          cases hrel
      | some w =>
          rw [hw] at hrel
          cases hrel with
          | some hsame => exact newHeaders_same (hmap v hv) hsame

theorem newHttpRequest_same {r : HttpRequest} (h : SameFields py items items')
    (hmap : HeadersAreMap items) (hr : newHttpRequest py (.dict items) = .ok r) :
    ∃ r', newHttpRequest py (.dict items') = .ok r' ∧ SameRequest py r r' := by
  simp only [newHttpRequest, Raised.bind_eq_ok, Raised.pure_eq_ok] at hr
  obtain ⟨v, hget, headers, hheaders, method, hmethod, url, hurl, params, hparams, rfl⟩ := hr
  obtain ⟨v', w, hget', hw, headers', headersW, hheaders', hheadersW, hsame⟩ := h.headers hmap
  obtain rfl : v' = v := Except.ok.inj (hget'.symm.trans hget)
  obtain rfl : headers' = headers := Except.ok.inj (hheaders'.symm.trans hheaders)
  obtain ⟨method', hmethod', hsameMethod⟩ := h.getItem (by decide) hmethod
  obtain ⟨url', hurl', hsameUrl⟩ := h.getItem (by decide) hurl
  obtain ⟨params', hparams', hsameParams⟩ := h.getItem (by decide) hparams
  refine ⟨⟨headersW, method', url', params'⟩, ?_, hsameMethod, hsameUrl, hsameParams, hsame⟩
  simp only [newHttpRequest, Raised.bind_eq_ok, Raised.pure_eq_ok]
  exact ⟨w, hw, headersW, hheadersW, method', hmethod', url', hurl', params', hparams', rfl⟩

theorem newHttpResponse_same (h : SameFields py items items') (hdata : IsHttpData py items) :
    ∃ r', newHttpResponse py (.dict items') = .ok r' ∧
      Same py (.httpResponse items) (.httpResponse items') := by
  obtain ⟨r, hr⟩ := hdata.built
  obtain ⟨fields, hfields, hmap⟩ := hdata.request
  have hbuilt := hr
  simp only [newHttpResponse, Raised.bind_eq_ok, Raised.pure_eq_ok] at hr
  obtain ⟨v, hv, request, hrequest, statusCode, hstatus, u, hget, headers, hheaders, text, htext,
    cookies, hcookies, rfl⟩ := hr
  obtain rfl : .dict fields = v := by
    rw [getItem, hfields] at hv
    exact Except.ok.inj hv
  obtain ⟨w, hw, hsame⟩ := h.getItem (by decide) hv
  obtain ⟨fields', rfl, hsameFields⟩ : ∃ fields', w = .dict fields' ∧
      SameItems py fields fields' := by
    cases hsame with
    | dict same => exact ⟨_, rfl, same⟩
  obtain ⟨request', hrequest', hsameRequest⟩ :=
    newHttpRequest_same hsameFields.fields hmap hrequest
  obtain ⟨status', hstatus', hsameStatus⟩ := h.getItem (by decide) hstatus
  obtain ⟨u', x, hget', hx, headers', headersX, hheaders', hheadersX, hsameHeaders⟩ :=
    h.headers hdata.headers
  obtain rfl : u' = u := Except.ok.inj (hget'.symm.trans hget)
  obtain rfl : headers' = headers := Except.ok.inj (hheaders'.symm.trans hheaders)
  obtain ⟨text', htext', hsameText⟩ := h.getItem (by decide) htext
  obtain ⟨cookies', hcookies', hsameCookies⟩ := h.getItem (by decide) hcookies
  have hbuilt' : newHttpResponse py (.dict items') =
      .ok ⟨request', status', headersX, text', cookies'⟩ := by
    simp only [newHttpResponse, Raised.bind_eq_ok, Raised.pure_eq_ok]
    exact ⟨_, hw, request', hrequest', status', hstatus', x, hx, headersX, hheadersX, text',
      htext', cookies', hcookies', rfl⟩
  exact ⟨_, hbuilt', .httpResponse hbuilt hbuilt' hsameStatus hsameText hsameCookies hsameHeaders
    hsameRequest.method hsameRequest.url hsameRequest.params hsameRequest.headers⟩

theorem newGrpcResponse_same (h : SameFields py items items') (hdata : IsGrpcData py items) :
    ∃ r', newGrpcResponse py (.dict items') = .ok r' ∧
      Same py (.grpcResponse items) (.grpcResponse items') := by
  obtain ⟨r, hr⟩ := hdata.built
  obtain ⟨fields, hfields, hrid⟩ := hdata.request
  have hbuilt := hr
  simp only [newGrpcResponse, newGrpcRequest, Raised.bind_eq_ok, Raised.pure_eq_ok] at hr
  obtain ⟨v, hv, request, ⟨rid, hget, rfl⟩, response, hresponse, rfl⟩ := hr
  obtain rfl : .dict fields = v := by
    rw [getItem, hfields] at hv
    exact Except.ok.inj hv
  obtain ⟨w, hw, hsame⟩ := h.getItem (by decide) hv
  obtain ⟨fields', rfl, hsameFields⟩ : ∃ fields', w = .dict fields' ∧
      SameItems py fields fields' := by
    cases hsame with
    | dict same => exact ⟨_, rfl, same⟩
  obtain ⟨rid', hget', hsameRid⟩ := hsameFields.fields.getItem (by decide) hget
  have hscalar : IsScalar rid := by
    rw [getItem, Raised.ofOption_eq_ok_iff] at hget
    exact hrid rid hget
  obtain rfl : rid' = rid := eq_of_isScalar hscalar hsameRid
  obtain ⟨response', hresponse', hsameResponse⟩ := h.getItem (by decide) hresponse
  have hbuilt' : newGrpcResponse py (.dict items') =
      .ok ⟨⟨codePoints "rid/" ++ py.str rid'⟩, response'⟩ := by
    simp only [newGrpcResponse, newGrpcRequest, Raised.bind_eq_ok, Raised.pure_eq_ok]
    exact ⟨_, hw, _, ⟨rid', hget', rfl⟩, response', hresponse', rfl⟩
  exact ⟨_, hbuilt', .grpcResponse hbuilt hbuilt' rfl hsameResponse⟩

end Responses

section Restores

/-- A value is written as a document, and the document is decoded to the same value. -/
structure Restores (v : Value) (j : Json) (w : Value) : Prop where
  encoded : encode v = .ok j
  plain : Plain j
  decoded : decode py j = .ok w
  same : Same py v w

structure RestoresElements (vs : List Value) (js : List Json) (ws : List Value) : Prop where
  encoded : encodeElements vs = .ok js
  plain : ∀ j ∈ js, Plain j
  decoded : decodeElements py js = .ok ws
  same : SameElements py vs ws

structure RestoresItems (items : Items) (members : List (List Nat × Json)) (items' : Items) :
    Prop where
  encoded : encodeItems items = .ok members
  plain : ∀ member ∈ members, PlainText member.1 ∧ Plain member.2
  decoded : decodeMembers py members = .ok items'
  same : SameItems py items items'

variable {py} {v w : Value} {j : Json} {vs ws : List Value} {js : List Json}
  {items items' : Items} {members members' : List (List Nat × Json)}

theorem restores_cons (hv : Restores py v j w) (hvs : RestoresElements py vs js ws) :
    RestoresElements py (v :: vs) (j :: js) (w :: ws) where
  encoded := by
    rw [encodeElements, hv.encoded, hvs.encoded]
    rfl
  plain := List.forall_mem_cons.mpr ⟨hv.plain, hvs.plain⟩
  decoded := by
    rw [decodeElements, hv.decoded, hvs.decoded]
    rfl
  same := .cons hv.same hvs.same

theorem restores_consItem {key : List Nat} (hkey : PlainText key) (hv : Restores py v j w)
    (hitems : RestoresItems py items members items') :
    RestoresItems py ((key, v) :: items) ((key, j) :: members) ((key, w) :: items') where
  encoded := by
    rw [encodeItems, hv.encoded, hitems.encoded]
    rfl
  plain := List.forall_mem_cons.mpr ⟨⟨hkey, hv.plain⟩, hitems.plain⟩
  decoded := by
    rw [decodeMembers, hv.decoded, hitems.decoded]
    rfl
  same := .cons hv.same hitems.same

theorem decode_object (decoded : decodeMembers py members = .ok items)
    (hnodup : (items.map Prod.fst).Nodup) : decode py (.object members) = fromDict py items := by
  rw [decode, decoded, Raised.ok_bind, Dict.items_setAll_empty hnodup]

/-- A dictionary without a mark stays one. -/
theorem decode_unmarked (hitems : RestoresItems py items members items')
    (hkeys : IsMapping items) : decode py (.object members) = .ok (.dict items') := by
  have hnodup := hkeys.nodup
  have hunmarked := hkeys.unmarked
  rw [← hitems.same.keys_eq] at hnodup hunmarked
  rw [decode_object hitems.decoded hnodup, fromDict,
    (Dict.find_eq_none_iff classKey items').mpr hunmarked]

theorem decodeMembers_append (decoded : decodeMembers py members = .ok items)
    (decoded' : decodeMembers py members' = .ok items') :
    decodeMembers py (members ++ members') = .ok (items ++ items') := by
  induction members generalizing items with
  | nil =>
      obtain rfl : [] = items := Except.ok.inj decoded
      exact decoded'
  | cons member members ih =>
      simp only [decodeMembers, Raised.bind_eq_ok, Raised.pure_eq_ok] at decoded
      obtain ⟨w, hw, rest, hrest, rfl⟩ := decoded
      rw [List.cons_append, decodeMembers, hw, ih hrest]
      rfl

theorem plainText_classKey : PlainText classKey := plainText_codePoints _

theorem plain_marked (className : Str)
    (h : ∀ member ∈ members, PlainText member.1 ∧ Plain member.2) :
    Plain (marked className members) := by
  refine plain_object fun member hmember => ?_
  rcases List.mem_append.mp hmember with hmember | hmember
  · exact h member hmember
  · rw [List.mem_singleton.mp hmember]
    exact ⟨plainText_classKey, plain_text className⟩

/-- A marked dictionary is read with its mark behind the fields. -/
theorem decode_marked (className : Str) (hitems : RestoresItems py items members items')
    (hkeys : IsMapping items) :
    decode py (marked className members) =
      fromMarked py (items' ++ [(classKey, Value.str (codePoints className))])
        (codePoints className) := by
  have hnodup := hkeys.nodup
  have hunmarked := hkeys.unmarked
  rw [← hitems.same.keys_eq] at hnodup hunmarked
  have hmark : decodeMembers py [(classKey, text className)] =
      .ok [(classKey, .str (codePoints className))] := rfl
  have hdecoded := decodeMembers_append hitems.decoded hmark
  have hfind : Dict.find classKey (items' ++ [(classKey, Value.str (codePoints className))]) =
      some (Value.str (codePoints className)) := by
    rw [Dict.find_append, (Dict.find_eq_none_iff classKey items').mpr hunmarked, Dict.find,
      if_pos rfl, Option.none_or]
  have hkeys' : ((items' ++ [(classKey, Value.str (codePoints className))]).map
      Prod.fst).Nodup := by
    rw [List.map_append, List.map_singleton, List.nodup_append]
    refine ⟨hnodup, List.nodup_singleton _, fun key hkey key' hkey' heq => hunmarked ?_⟩
    rw [heq, List.mem_singleton.mp hkey'] at hkey
    exact hkey
  rw [marked, decode_object hdecoded hkeys', fromDict, hfind]

/-- The elements of a set are added one by one, none of them for the second time. -/
theorem foldlM_addElement :
    ∀ {vs acc : List Value}, (∀ v ∈ vs, IsScalar v) →
      ((acc ++ vs).Pairwise fun v w => py.eq v w = false) →
      vs.foldlM (addElement py) acc = .ok (acc ++ vs)
  | [], acc, _, _ => by
      rw [List.append_nil]
      rfl
  | v :: vs, acc, hscalar, hdistinct => by
      rw [List.forall_mem_cons] at hscalar
      have hhash : assertHashable v = .ok () := by
        cases v <;> first | rfl | exact absurd hscalar.1 id
      have hnew : (acc.any fun w => py.eq w v) = false := by
        rw [List.any_eq_false]
        intro w hw
        rw [(List.pairwise_append.mp hdistinct).2.2 w hw v List.mem_cons_self]
        exact Bool.false_ne_true
      have hadd : addElement py acc v = .ok (acc ++ [v]) := by
        rw [addElement, hhash, hnew]
        rfl
      have hacc : acc ++ v :: vs = acc ++ [v] ++ vs := List.append_cons acc v vs
      rw [hacc] at hdistinct ⊢
      rw [List.foldlM_cons, hadd, Raised.ok_bind]
      exact foldlM_addElement hscalar.2 hdistinct

theorem restores_set (hscalar : ∀ v ∈ vs, IsScalar v)
    (hdistinct : vs.Pairwise fun v w => py.eq v w = false)
    (hvs : RestoresElements py vs js ws) :
    Restores py (.set vs)
      (.object [(classKey, text "set"), (codePoints "values", .array js)]) (.set vs) := by
  obtain rfl : ws = vs := eq_of_forall_isScalar hscalar hvs.same
  refine ⟨?_, ?_, ?_, .set (List.Perm.refl _)⟩
  · rw [encode, hvs.encoded]
    rfl
  · refine plain_object fun member hmember => ?_
    rcases List.mem_pair.mp hmember with rfl | rfl
    · exact ⟨plainText_classKey, plain_text _⟩
    · exact ⟨plainText_codePoints _, plain_array hvs.plain⟩
  · have hmembers : decodeMembers py [(classKey, text "set"), (codePoints "values", .array js)] =
        .ok [(classKey, .str (codePoints "set")), (codePoints "values", .list ws)] := by
      simp only [decodeMembers, decode, text, hvs.decoded, Raised.ok_bind]
      rfl
    have hne : classKey ≠ codePoints "values" := codePoints_injective.ne (by decide)
    have hnodup : [classKey, codePoints "values"].Nodup := by simpa using hne
    have hvalues : getItem py (.dict [(classKey, .str (codePoints "set")),
        (codePoints "values", .list ws)]) "values" = .ok (.list ws) := by
      rw [getItem, Dict.find, if_neg hne, Dict.find, if_pos rfl, Raised.ofOption_some]
    have hset : setOf py (.list ws) = .ok (.set ws) := by
      have hfold : ws.foldlM (addElement py) [] = .ok ([] ++ ws) :=
        foldlM_addElement hscalar hdistinct
      rw [setOf, iterate, Raised.ok_bind, hfold]
      rfl
    have hmarked : fromMarked py [(classKey, .str (codePoints "set")),
        (codePoints "values", .list ws)] (codePoints "set") = .ok (.set ws) := by
      rw [fromMarked, if_pos rfl, hvalues, Raised.ok_bind, hset]
    rw [decode_object hmembers hnodup, fromDict, Dict.find, if_pos rfl]
    exact hmarked

theorem encode_marked_eq {className : Str} (hitems : RestoresItems py items members items')
    (hkeys : IsMapping items) :
    (do
      assertUnmarked items
      return marked className (← encodeItems items) : Except Raised Json) =
      .ok (marked className members) := by
  rw [assertUnmarked, if_neg hkeys.unmarked, hitems.encoded]
  rfl

theorem restores_httpResponse (hitems : RestoresItems py items members items')
    (hkeys : IsMapping items) (hdata : IsHttpData py items) :
    Restores py (.httpResponse items) (marked "HttpResponse" members)
      (.httpResponse (items' ++ [(classKey, Value.str (codePoints "HttpResponse"))])) := by
  obtain ⟨r, hbuilt, hsame⟩ := newHttpResponse_same (hitems.same.fields_mark _) hdata
  refine ⟨encode_marked_eq hitems hkeys, plain_marked _ hitems.plain, ?_, hsame⟩
  rw [decode_marked _ hitems hkeys, fromMarked, if_neg (codePoints_injective.ne (by decide)),
    if_neg (codePoints_injective.ne (by decide)), if_pos rfl, hbuilt]
  rfl

theorem restores_grpcResponse (hitems : RestoresItems py items members items')
    (hkeys : IsMapping items) (hdata : IsGrpcData py items) :
    Restores py (.grpcResponse items) (marked "GrpcResponse" members)
      (.grpcResponse (items' ++ [(classKey, Value.str (codePoints "GrpcResponse"))])) := by
  obtain ⟨r, hbuilt, hsame⟩ := newGrpcResponse_same (hitems.same.fields_mark _) hdata
  refine ⟨encode_marked_eq hitems hkeys, plain_marked _ hitems.plain, ?_, hsame⟩
  rw [decode_marked _ hitems hkeys, fromMarked, if_neg (codePoints_injective.ne (by decide)),
    if_pos rfl, hbuilt]
  rfl

theorem newRemoteConfigStateResults_of_ne {version state configs : Value}
    (h : configs ≠ .none) : newRemoteConfigStateResults version state configs =
      .remoteConfigStateResults version state configs := by
  cases configs <;> first | rfl | exact absurd rfl h

theorem isMapping_of_names (names : List Str) (hkeys : items.map Prod.fst = names.map codePoints)
    (hnodup : names.Nodup) (hclass : "__class__".toList ∉ names) : IsMapping items where
  nodup := hkeys ▸ hnodup.map codePoints_injective
  unmarked := by
    rw [hkeys]
    intro hmem
    obtain ⟨name, hname, heq⟩ := List.mem_map.mp hmem
    exact hclass (codePoints_injective heq ▸ hname)
  plain := by
    rw [hkeys]
    intro key hkey
    obtain ⟨name, _, rfl⟩ := List.mem_map.mp hkey
    exact plainText_codePoints name

theorem restores_remoteConfigStateResults {version state configs version' state' configs' : Value}
    {j k l : Json} (hversion : Restores py version j version') (hstate : Restores py state k state')
    (hconfigs : Restores py configs l configs') (hne : configs ≠ .none) :
    Restores py (.remoteConfigStateResults version state configs)
      (marked "RemoteConfigStateResults" [(codePoints "version", j), (codePoints "state", k),
        (codePoints "configs", l)])
      (.remoteConfigStateResults version' state' configs') := by
  have hitems := restores_consItem (plainText_codePoints "version") hversion
    (restores_consItem (plainText_codePoints "state") hstate
      (restores_consItem (plainText_codePoints "configs") hconfigs ⟨rfl, by simp, rfl, .nil⟩))
  have hkeys : IsMapping [(codePoints "version", version), (codePoints "state", state),
      (codePoints "configs", configs)] :=
    isMapping_of_names ["version", "state", "configs"] rfl (by decide) (by decide)
  have hne' : configs' ≠ .none := by
    rintro rfl
    have hsame := hconfigs.same
    cases hsame
    exact hne rfl
  refine ⟨?_, plain_marked _ hitems.plain, ?_,
    .remoteConfigStateResults hversion.same hstate.same hconfigs.same⟩
  · rw [encode, hversion.encoded, hstate.encoded, hconfigs.encoded]
    rfl
  · have hversion' : codePoints "version" ≠ codePoints "state" :=
      codePoints_injective.ne (by decide)
    have hconfigs' : codePoints "version" ≠ codePoints "configs" ∧
        codePoints "state" ≠ codePoints "configs" :=
      ⟨codePoints_injective.ne (by decide), codePoints_injective.ne (by decide)⟩
    rw [decode_marked _ hitems hkeys, fromMarked, if_neg (codePoints_injective.ne (by decide)),
      if_neg (codePoints_injective.ne (by decide)), if_neg (codePoints_injective.ne (by decide)),
      if_pos rfl]
    simp only [getItem, List.cons_append, Dict.find, if_pos, if_neg hversion',
      if_neg hconfigs'.1, if_neg hconfigs'.2, Raised.ofOption_some, Raised.ok_bind]
    rw [newRemoteConfigStateResults_of_ne hne']
    rfl

theorem isScalar_recorded (h : IsScalar v) : Recorded py v := by
  cases v <;> first | exact h | exact absurd h id

theorem recordedElements_of_isScalar (h : ∀ v ∈ vs, IsScalar v) : RecordedElements py vs := by
  induction vs with
  | nil => trivial
  | cons v vs ih =>
      rw [List.forall_mem_cons] at h
      exact ⟨isScalar_recorded h.1, ih h.2⟩

mutual

/-- By induction on the value: a container is marked, or not, after its elements are written. -/
theorem exists_restores : ∀ v, Recorded py v → ∃ j w, Restores py v j w
  | .none, _ => ⟨.null, _, rfl, ⟨trivial, rfl⟩, rfl, .none⟩
  | .bool b, _ => ⟨.bool b, _, rfl, ⟨trivial, rfl⟩, rfl, .bool b⟩
  | .number literal, h => ⟨.number literal, _, rfl, ⟨h.1, rfl⟩, rfl, .number literal⟩
  | .str us, h => ⟨.string us, _, rfl, PlainText.plain h, rfl, .str us⟩
  | .list elements, h => by
      obtain ⟨js, ws, hrestores⟩ := exists_restoresElements elements h
      refine ⟨.array js, .list ws, ?_, plain_array hrestores.plain, ?_, .list hrestores.same⟩
      · rw [encode, hrestores.encoded]
        rfl
      · rw [decode, hrestores.decoded]
        rfl
  | .dict items, ⟨hkeys, h⟩ => by
      obtain ⟨members, items', hrestores⟩ := exists_restoresItems items hkeys.plain h
      refine ⟨.object members, .dict items', ?_, plain_object hrestores.plain,
        decode_unmarked hrestores hkeys, .dict hrestores.same⟩
      rw [encode, hrestores.encoded]
      rfl
  | .caseInsensitiveDict items, ⟨_, hkeys, h⟩ => by
      obtain ⟨members, items', hrestores⟩ := exists_restoresItems items hkeys.plain h
      refine ⟨.object members, .dict items', ?_, plain_object hrestores.plain,
        decode_unmarked hrestores hkeys, .caseInsensitiveDict hrestores.same⟩
      rw [encode, hrestores.encoded]
      rfl
  | .set elements, ⟨hscalar, hdistinct⟩ => by
      obtain ⟨js, ws, hrestores⟩ :=
        exists_restoresElements elements (recordedElements_of_isScalar hscalar)
      exact ⟨_, _, restores_set hscalar hdistinct hrestores⟩
  | .httpResponse data, ⟨hkeys, hdata, h⟩ => by
      obtain ⟨members, items', hrestores⟩ := exists_restoresItems data hkeys.plain h
      exact ⟨_, _, restores_httpResponse hrestores hkeys hdata⟩
  | .grpcResponse data, ⟨hkeys, hdata, h⟩ => by
      obtain ⟨members, items', hrestores⟩ := exists_restoresItems data hkeys.plain h
      exact ⟨_, _, restores_grpcResponse hrestores hkeys hdata⟩
  | .remoteConfigStateResults version state configs, ⟨hversion, hstate, hconfigs, hne⟩ => by
      obtain ⟨j, version', hversion'⟩ := exists_restores version hversion
      obtain ⟨k, state', hstate'⟩ := exists_restores state hstate
      obtain ⟨l, configs', hconfigs'⟩ := exists_restores configs hconfigs
      exact ⟨_, _, restores_remoteConfigStateResults hversion' hstate' hconfigs' hne⟩
  | .applyState state, _ => ⟨int state.value, _, rfl, plain_int _, rfl, .applyState state⟩

theorem exists_restoresElements :
    ∀ vs, RecordedElements py vs → ∃ js ws, RestoresElements py vs js ws
  | [], _ => ⟨[], [], rfl, by simp, rfl, .nil⟩
  | v :: vs, ⟨hv, hvs⟩ => by
      obtain ⟨j, w, hrestores⟩ := exists_restores v hv
      obtain ⟨js, ws, hrestoresAll⟩ := exists_restoresElements vs hvs
      exact ⟨j :: js, w :: ws, restores_cons hrestores hrestoresAll⟩

theorem exists_restoresItems :
    ∀ items : Items, (∀ key ∈ items.map Prod.fst, PlainText key) → RecordedItems py items →
      ∃ members items', RestoresItems py items members items'
  | [], _, _ => ⟨[], [], rfl, by simp, rfl, .nil⟩
  | (key, v) :: items, hplain, ⟨hv, h⟩ => by
      rw [List.map_cons, List.forall_mem_cons] at hplain
      obtain ⟨j, w, hrestores⟩ := exists_restores v hv
      obtain ⟨members, items', hrestoresAll⟩ := exists_restoresItems items hplain.2 h
      exact ⟨_, _, restores_consItem hplain.1 hrestores hrestoresAll⟩

end

/-- Latin texts, scalars and strings are all that the example below has. -/
def asciiBuiltins : Builtins where
  lower us := us.map fun u => if 65 ≤ u ∧ u ≤ 90 then u + 32 else u
  eq
    | .number a, .number b => decide (a = b)
    | .str us, .str us' => decide (us = us')
    | _, _ => false
  str
    | .str us => us
    | _ => []

def exampleData : Items :=
  [(codePoints "request", .dict [(codePoints "method", .str (codePoints "GET")),
      (codePoints "url", .str (codePoints "/")), (codePoints "params", .none)]),
    (codePoints "status_code", .number "200"),
    (codePoints "headers", .caseInsensitiveDict [(codePoints "Age", .str (codePoints "1"))]),
    (codePoints "text", .none),
    (codePoints "cookies", .set [.number "1", .str (codePoints "1")])]

end Restores

end SetupProperties
end SystemTests
