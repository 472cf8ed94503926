import SystemTests.Foundation.Base64
import SystemTests.Foundation.Dict
import SystemTests.Foundation.Exception
import SystemTests.Foundation.JsonDocument

/-!
# Mocked responses (`utils/proxy/mocked_response.py`)

A test describes the responses that it wants as objects in JSON: the name of a class and
the arguments of its constructor.  The proxy and the mocked backend build the mocks again
from such a list.  An argument that came from JSON can be any value.

**Results.**
* `bindArguments_eq_ok`: a call with named arguments returns.
* `fromDict_toJson`: a mock is built again from its description.
* `mocks_sent`: what is described is what is stored, from a request or from a file.
* `store_rejected`: a list with one element that is no description changes nothing.
-/

namespace SystemTests
namespace Proxy
namespace Mocks

open Foundation Foundation.Text Foundation.Json

/-- A dictionary that was loaded. -/
abbrev Source := Dict (List Nat) Json

def Source.ofMembers (members : List (List Nat × Json)) : Source := Dict.empty.setAll members

def Source.item (source : Source) (key : Str) : Option Json := source.get? (codePoints key)

structure Parameter where
  name : Str
  default : Option Json := none

section Calls

variable (klass : Str) (parameters : List Parameter)

/-- `klass(**source)`: the value of each parameter. -/
def bindArguments (source : Source) : Except Raised (Str → Json) :=
  if source.keys.any fun key => parameters.all fun p => decide (codePoints p.name ≠ key) then
    throw (.typeError (klass ++ ".__init__() got an unexpected keyword argument".toList))
  else if parameters.any fun p => p.default.isNone && (source.item p.name).isNone then
    throw (.typeError (klass ++ ".__init__() missing a required argument".toList))
  else
    return fun name => ((source.item name).or
      ((parameters.find? fun p => decide (p.name = name)).bind Parameter.default)).getD .null

/-- The arguments of a call: parameters only, and all that have no default. -/
structure Fits (arguments : List (Str × Json)) : Prop where
  known : ∀ argument ∈ arguments, argument.1 ∈ parameters.map Parameter.name
  complete : ∀ p ∈ parameters, p.default = none → p.name ∈ arguments.map Prod.fst

end Calls

/-- `value == text` -/
def isText (s : Str) : Json → Bool
  | .string us => us = codePoints s
  | _ => false

/-- `[... for item in value]` -/
def iterate : Json → Except Raised (List Json)
  | .array elements => return elements
  | .object members => return (Source.ofMembers members).keys.map Json.string
  | .string us => return us.map fun u => Json.string [u]
  | _ => throw (.typeError "object is not iterable")

/-- An object with a method `pop` that takes a name. -/
def asDict : Json → Except Raised Source
  | .object members => return Source.ofMembers members
  | .array _ => throw (.typeError "'str' object cannot be interpreted as an integer")
  | _ => throw (.attributeError "pop")

def typeKey : Str := "type"

def typeOf (source : Source) : Except Raised Json :=
  Raised.ofOption (.keyError typeKey) (source.item typeKey)

/-- What `source.pop("type")` leaves. -/
def withoutType (source : Source) : Source := source.erase (codePoints typeKey)

def jsonHeaders : Json := fields [("Content-Type", text "application/json")]

/-- `MockedTracerResponse` and its subclasses, with the arguments of their constructors. -/
inductive MockedTracerResponse where
  | mockedTracerResponse (path mockedHeaders : Json)
  | staticJson (path mockedJson statusCode : Json)
  | sequentialRemoteConfigJson (mockedJsonSequence : Json)
  | sequentialJson (path mockedJsonSequence : Json)
  | internalMockedTracerResponse (path mockedHeaders : Json)
  | addRemoteConfigEndpoint
  | removeMetaStructsSupport
  | setSpanEventFlags (spanEvents : Json)
  | setClientDropP0s (clientDropP0s : Json)
  | setObfuscationVersion (obfuscationVersion : Json)

/-- The class itself and `_all_subclasses`, in its order. -/
inductive TracerClass where
  | mockedTracerResponse | staticJson | sequentialRemoteConfigJson | sequentialJson
  | internalMockedTracerResponse | addRemoteConfigEndpoint | removeMetaStructsSupport
  | setSpanEventFlags | setClientDropP0s | setObfuscationVersion
deriving DecidableEq

namespace TracerClass

def all : List TracerClass :=
  [mockedTracerResponse, staticJson, sequentialRemoteConfigJson, sequentialJson,
    internalMockedTracerResponse, addRemoteConfigEndpoint, removeMetaStructsSupport,
    setSpanEventFlags, setClientDropP0s, setObfuscationVersion]

def name : TracerClass → Str
  | mockedTracerResponse => "MockedTracerResponse"
  | staticJson => "StaticJsonMockedTracerResponse"
  | sequentialRemoteConfigJson => "SequentialRemoteConfigJsonMockedTracerResponse"
  | sequentialJson => "SequentialJsonMockedTracerResponse"
  | internalMockedTracerResponse => "_InternalMockedTracerResponse"
  | addRemoteConfigEndpoint => "AddRemoteConfigEndpoint"
  | removeMetaStructsSupport => "RemoveMetaStructsSupport"
  | setSpanEventFlags => "SetSpanEventFlags"
  | setClientDropP0s => "SetClientDropP0s"
  | setObfuscationVersion => "SetObfuscationVersion"

def parameters : TracerClass → List Parameter
  | mockedTracerResponse => [⟨"path", none⟩, ⟨"mocked_headers", some .null⟩]
  | staticJson => [⟨"path", none⟩, ⟨"mocked_json", none⟩, ⟨"status_code", some (int 200)⟩]
  | sequentialRemoteConfigJson => [⟨"mocked_json_sequence", none⟩]
  | sequentialJson => [⟨"path", none⟩, ⟨"mocked_json_sequence", none⟩]
  | internalMockedTracerResponse => [⟨"path", none⟩, ⟨"mocked_headers", some .null⟩]
  | addRemoteConfigEndpoint => []
  | removeMetaStructsSupport => []
  | setSpanEventFlags => [⟨"span_events", none⟩]
  | setClientDropP0s => [⟨"client_drop_p0s", none⟩]
  | setObfuscationVersion => [⟨"obfuscation_version", none⟩]

def build (argument : Str → Json) : TracerClass → MockedTracerResponse
  | mockedTracerResponse => .mockedTracerResponse (argument "path") (argument "mocked_headers")
  | staticJson => .staticJson (argument "path") (argument "mocked_json") (argument "status_code")
  | sequentialRemoteConfigJson => .sequentialRemoteConfigJson (argument "mocked_json_sequence")
  | sequentialJson => .sequentialJson (argument "path") (argument "mocked_json_sequence")
  | internalMockedTracerResponse =>
      .internalMockedTracerResponse (argument "path") (argument "mocked_headers")
  | addRemoteConfigEndpoint => .addRemoteConfigEndpoint
  | removeMetaStructsSupport => .removeMetaStructsSupport
  | setSpanEventFlags => .setSpanEventFlags (argument "span_events")
  | setClientDropP0s => .setClientDropP0s (argument "client_drop_p0s")
  | setObfuscationVersion => .setObfuscationVersion (argument "obfuscation_version")

end TracerClass

namespace MockedTracerResponse

def klass : MockedTracerResponse → TracerClass
  | mockedTracerResponse _ _ => .mockedTracerResponse
  | staticJson _ _ _ => .staticJson
  | sequentialRemoteConfigJson _ => .sequentialRemoteConfigJson
  | sequentialJson _ _ => .sequentialJson
  | internalMockedTracerResponse _ _ => .internalMockedTracerResponse
  | addRemoteConfigEndpoint => .addRemoteConfigEndpoint
  | removeMetaStructsSupport => .removeMetaStructsSupport
  | setSpanEventFlags _ => .setSpanEventFlags
  | setClientDropP0s _ => .setClientDropP0s
  | setObfuscationVersion _ => .setObfuscationVersion

/-- `self.path` -/
def path : MockedTracerResponse → Json
  | mockedTracerResponse path _ => path
  | staticJson path _ _ => path
  | sequentialRemoteConfigJson _ => text "/v0.7/config"
  | sequentialJson path _ => path
  | internalMockedTracerResponse path _ => path
  | addRemoteConfigEndpoint => text "/info"
  | removeMetaStructsSupport => text "/info"
  | setSpanEventFlags _ => text "/info"
  | setClientDropP0s _ => text "/info"
  | setObfuscationVersion _ => text "/info"

/-- What `to_json` writes besides the class; the base class of the internal ones writes nothing. -/
def arguments : MockedTracerResponse → List (Str × Json)
  | mockedTracerResponse path mockedHeaders => [("path", path), ("mocked_headers", mockedHeaders)]
  | staticJson path mockedJson statusCode =>
      [("path", path), ("mocked_json", mockedJson), ("status_code", statusCode)]
  | sequentialRemoteConfigJson mockedJsonSequence => [("mocked_json_sequence", mockedJsonSequence)]
  | sequentialJson path mockedJsonSequence =>
      [("path", path), ("mocked_json_sequence", mockedJsonSequence)]
  | internalMockedTracerResponse _ _ => []
  | addRemoteConfigEndpoint => []
  | removeMetaStructsSupport => []
  | setSpanEventFlags spanEvents => [("span_events", spanEvents)]
  | setClientDropP0s clientDropP0s => [("client_drop_p0s", clientDropP0s)]
  | setObfuscationVersion obfuscationVersion => [("obfuscation_version", obfuscationVersion)]

def toJson (mock : MockedTracerResponse) : Json :=
  fields ((typeKey, text mock.klass.name) :: mock.arguments)

def fromDict (source : Source) : Except Raised MockedTracerResponse := do
  let type ← typeOf source
  match TracerClass.all.find? fun klass => isText klass.name type with
  | none => throw (.valueError "Unknown MockedTracerResponse type")
  | some klass => do
      let argument ← bindArguments klass.name klass.parameters (withoutType source)
      return klass.build argument

end MockedTracerResponse

/-- A response that is made of bytes. -/
structure MockedBackendResponse where
  path : Json
  content : List UInt8
  contentType : Json
  statusCode : Json

namespace MockedBackendResponse

def className : Str := "MockedBackendResponse"

def parameters : List Parameter :=
  [⟨"path", none⟩, ⟨"content", none⟩, ⟨"content_type", some (text "application/x-protobuf")⟩,
    ⟨"status_code", some (int 200)⟩]

def toJson (mock : MockedBackendResponse) : Json :=
  fields [(typeKey, text className), ("path", mock.path),
    ("content", text (Base64.encode mock.content)), ("content_type", mock.contentType),
    ("status_code", mock.statusCode)]

/-- `base64.b64decode(source["content"])` -/
def decodeContent : Json → Except Raised (List UInt8)
  | .string us =>
      if us.all fun u => decide (u < 128) then
        Raised.ofOption (.valueError "Incorrect padding") (Base64.decode (us.map Char.ofNat))
      else throw (.valueError "string argument should contain only ASCII characters")
  | _ => throw (.typeError "argument should be a bytes-like object or ASCII string")

def fromJson (source : Source) : Except Raised MockedBackendResponse := do
  let encoded ← Raised.ofOption (.keyError "content") (source.item "content")
  let content ← decodeContent encoded
  let argument ← bindArguments className parameters source
  return ⟨argument "path", content, argument "content_type", argument "status_code"⟩

def fromDict (source : Source) : Except Raised MockedBackendResponse := do
  let type ← typeOf source
  if isText className type then fromJson (withoutType source)
  else throw (.valueError "Unknown MockedBackendResponse type")

end MockedBackendResponse

/-- `cls.from_dicts(source)` -/
def fromDicts {α : Type} (fromDict : Source → Except Raised α) (source : Json) :
    Except Raised (List α) := do
  let items ← iterate source
  items.mapM fun item => asDict item >>= fromDict

/-- `many_from_file`, or the content of a request, `none` if it cannot be decoded. -/
def manyFromText {α : Type} (fromDict : Source → Except Raised α) (content : Option Str) :
    Except Raised (List α) := do
  let source ← Raised.ofOption (.valueError "Expecting value") (content.bind jsonLoad)
  fromDicts fromDict source

/-- `_store_mocked_tracer_reponses`: the status of the answer, and the mocks from then on. -/
def storeMockedTracerResponses (mocks : List MockedTracerResponse) (content : Option Str) :
    Nat × List MockedTracerResponse :=
  match manyFromText MockedTracerResponse.fromDict content with
  | .ok result => (200, result)
  | .error _ => (400, mocks)

section Sent

/-- The dictionary of named members. -/
def sourceOf (arguments : List (Str × Json)) : Source :=
  .ofMembers (arguments.map fun argument => (codePoints argument.1, argument.2))

variable {arguments : List (Str × Json)}

theorem nodup_codePoints (h : (arguments.map Prod.fst).Nodup) :
    ((arguments.map fun argument => (codePoints argument.1, argument.2)).map Prod.fst).Nodup := by
  rw [List.map_map]
  change (arguments.map (codePoints ∘ Prod.fst)).Nodup
  rw [← List.map_map]
  exact h.map codePoints_injective

theorem items_sourceOf (h : (arguments.map Prod.fst).Nodup) :
    (sourceOf arguments).items =
      arguments.map fun argument => (codePoints argument.1, argument.2) :=
  Dict.items_setAll_empty (nodup_codePoints h)

theorem item_sourceOf (h : (arguments.map Prod.fst).Nodup) {name : Str} {value : Json} :
    (sourceOf arguments).item name = some value ↔ (name, value) ∈ arguments := by
  rw [Source.item, ← Dict.mem_items_iff, items_sourceOf h, List.mem_map]
  constructor
  · rintro ⟨⟨n, v⟩, hmem, heq⟩
    rw [Prod.mk.injEq] at heq
    obtain ⟨hname, rfl⟩ := heq
    rwa [← codePoints_inj.mp hname]
  · intro hmem
    exact ⟨(name, value), hmem, rfl⟩

theorem item_sourceOf_eq_none (h : (arguments.map Prod.fst).Nodup) {name : Str} :
    (sourceOf arguments).item name = none ↔ name ∉ arguments.map Prod.fst := by
  rw [Option.eq_none_iff_forall_ne_some]
  simp only [ne_eq, item_sourceOf h]
  constructor
  · intro hnone hmem
    obtain ⟨⟨n, value⟩, hargument, rfl⟩ := List.mem_map.mp hmem
    exact hnone value hargument
  · exact fun hmem value hargument => hmem (List.mem_map.mpr ⟨(name, value), hargument, rfl⟩)

theorem withoutType_sourceOf {type : Json} (h : ((typeKey, type) :: arguments |>.map Prod.fst).Nodup) :
    withoutType (sourceOf ((typeKey, type) :: arguments)) = sourceOf arguments := by
  have hrest := List.nodup_cons.mp h
  apply Dict.ext_items
  change (sourceOf _).items.filter (fun item => item.1 ≠ codePoints typeKey) = _
  rw [items_sourceOf h, items_sourceOf hrest.2, List.map_cons,
    List.filter_cons_of_neg (by simp), List.filter_eq_self]
  intro item hitem
  obtain ⟨argument, hargument, rfl⟩ := List.mem_map.mp hitem
  exact decide_eq_true fun heq =>
    hrest.1 (List.mem_map.mpr ⟨argument, hargument, codePoints_inj.mp heq⟩)

/-- A call with named arguments returns when they fit, and its parameters have these values. -/
theorem bindArguments_eq_ok {klass : Str} {parameters : List Parameter}
    (h : (arguments.map Prod.fst).Nodup) (hfits : Fits parameters arguments) :
    ∃ argument, bindArguments klass parameters (sourceOf arguments) = .ok argument ∧
      ∀ name value, (name, value) ∈ arguments → argument name = value := by
  have hknown : ¬ ((sourceOf arguments).keys.any fun key =>
      parameters.all fun p => decide (codePoints p.name ≠ key)) = true := by
    rw [List.any_eq_true]
    rintro ⟨key, hkey, hall⟩
    rw [Dict.keys, items_sourceOf h, List.map_map] at hkey
    obtain ⟨argument, hargument, rfl⟩ := List.mem_map.mp hkey
    obtain ⟨p, hp, hname⟩ := List.mem_map.mp (hfits.known argument hargument)
    exact of_decide_eq_true (List.all_eq_true.mp hall p hp) (congrArg codePoints hname)
  have hcomplete : ¬ (parameters.any fun p =>
      p.default.isNone && ((sourceOf arguments).item p.name).isNone) = true := by
    rw [List.any_eq_true]
    rintro ⟨p, hp, hnone⟩
    rw [Bool.and_eq_true, Option.isNone_iff_eq_none, Option.isNone_iff_eq_none,
      item_sourceOf_eq_none h] at hnone
    exact hnone.2 (hfits.complete p hp hnone.1)
  refine ⟨_, by rw [bindArguments, if_neg hknown, if_neg hcomplete]; rfl, ?_⟩
  intro name value hargument
  rw [(item_sourceOf h).mpr hargument]
  rfl

theorem typeOf_sourceOf {type : Json}
    (h : ((typeKey, type) :: arguments |>.map Prod.fst).Nodup) :
    typeOf (sourceOf ((typeKey, type) :: arguments)) = .ok type := by
  rw [typeOf, (item_sourceOf h).mpr (List.mem_cons_self ..)]
  rfl

@[simp] theorem isText_text (s t : Str) : isText s (text t) = decide (t = s) := by
  change decide (codePoints t = codePoints s) = decide (t = s)
  exact decide_eq_decide.mpr codePoints_inj

end Sent

namespace MockedTracerResponse

/-- The base class of the internal responses describes itself without its path. -/
def Described (mock : MockedTracerResponse) : Prop := mock.klass ≠ .internalMockedTracerResponse

theorem find?_name (klass : TracerClass) :
    (TracerClass.all.find? fun k => isText k.name (text klass.name)) = some klass := by
  simp only [isText_text]
  cases klass <;> decide

/-- The names of the arguments that a class describes: its parameters, but for the base class. -/
def argumentNames (klass : TracerClass) : List Str :=
  if klass = .internalMockedTracerResponse then [] else klass.parameters.map Parameter.name

theorem map_fst_arguments (mock : MockedTracerResponse) :
    mock.arguments.map Prod.fst = argumentNames mock.klass := by
  cases mock <;> rfl

theorem nodup_argumentNames (klass : TracerClass) : (typeKey :: argumentNames klass).Nodup := by
  cases klass <;> decide

theorem nodup_arguments (mock : MockedTracerResponse) :
    (((typeKey, text mock.klass.name) :: mock.arguments).map Prod.fst).Nodup := by
  rw [List.map_cons, map_fst_arguments]
  exact nodup_argumentNames mock.klass

theorem fits_arguments {mock : MockedTracerResponse} (h : mock.Described) :
    Fits mock.klass.parameters mock.arguments := by
  have hnames : mock.arguments.map Prod.fst = mock.klass.parameters.map Parameter.name := by
    rw [map_fst_arguments, argumentNames, if_neg h]
  refine ⟨fun argument hargument => ?_, fun p hp _ => ?_⟩
  · rw [← hnames]
    exact List.mem_map_of_mem hargument
  · rw [hnames]
    exact List.mem_map_of_mem hp

theorem build_arguments {mock : MockedTracerResponse} (h : mock.Described) {argument : Str → Json}
    (hargument : ∀ name value, (name, value) ∈ mock.arguments → argument name = value) :
    mock.klass.build argument = mock := by
  cases mock with
  | internalMockedTracerResponse => exact absurd rfl h
  | _ => simp_all [klass, TracerClass.build, arguments]

/-- **A mock is built again from its description.** -/
theorem fromDict_toJson {mock : MockedTracerResponse} (h : mock.Described) :
    (asDict mock.toJson >>= fromDict) = .ok mock := by
  have hnodup := mock.nodup_arguments
  obtain ⟨argument, hbind, hargument⟩ :=
    @bindArguments_eq_ok mock.arguments mock.klass.name _ (List.nodup_cons.mp hnodup).2
      (fits_arguments h)
  change fromDict (sourceOf ((typeKey, text mock.klass.name) :: mock.arguments)) = .ok mock
  rw [fromDict, typeOf_sourceOf hnodup, withoutType_sourceOf hnodup]
  simp only [Raised.ok_bind, find?_name, hbind, build_arguments h hargument]
  rfl

end MockedTracerResponse

namespace MockedBackendResponse

def arguments (mock : MockedBackendResponse) : List (Str × Json) :=
  [("path", mock.path), ("content", text (Base64.encode mock.content)),
    ("content_type", mock.contentType), ("status_code", mock.statusCode)]

theorem fits_arguments (mock : MockedBackendResponse) : Fits parameters mock.arguments := by
  constructor <;> simp [parameters, arguments]

theorem decodeContent_encode (bytes : List UInt8) :
    decodeContent (text (Base64.encode bytes)) = .ok bytes := by
  have hascii : ((codePoints (Base64.encode bytes)).all fun u => decide (u < 128)) = true := by
    rw [List.all_eq_true]
    intro u hu
    obtain ⟨c, hc, rfl⟩ := List.mem_map.mp hu
    exact decide_eq_true (Base64.isAscii_encode bytes c hc)
  have hchars : (codePoints (Base64.encode bytes)).map Char.ofNat = Base64.encode bytes := by
    rw [codePoints, List.map_map]
    exact (List.map_congr_left fun c _ => Char.ofNat_toNat c).trans (List.map_id _)
  rw [text, decodeContent, if_pos hascii, hchars, Base64.decode_encode]
  rfl

/-- **A mock is built again from its description.** -/
theorem fromDict_toJson (mock : MockedBackendResponse) :
    (asDict mock.toJson >>= fromDict) = .ok mock := by
  have hnodup : (((typeKey, text className) :: mock.arguments).map Prod.fst).Nodup :=
    (by decide : [typeKey, "path", "content", "content_type", "status_code"].Nodup)
  have hrest := (List.nodup_cons.mp hnodup).2
  obtain ⟨argument, hbind, hargument⟩ :=
    @bindArguments_eq_ok mock.arguments className _ hrest mock.fits_arguments
  have hcontent : (sourceOf mock.arguments).item "content" = some (text (Base64.encode mock.content)) :=
    (item_sourceOf hrest).mpr (List.mem_cons_of_mem _ (List.mem_cons_self ..))
  change fromDict (sourceOf ((typeKey, text className) :: mock.arguments)) = .ok mock
  rw [fromDict, typeOf_sourceOf hnodup, withoutType_sourceOf hnodup, Raised.ok_bind, isText_text,
    if_pos (decide_eq_true rfl), fromJson, hcontent, Raised.ofOption_some, Raised.ok_bind,
    decodeContent_encode, Raised.ok_bind, hbind, Raised.ok_bind,
    hargument "path" mock.path (by simp [arguments]),
    hargument "content_type" mock.contentType (by simp [arguments]),
    hargument "status_code" mock.statusCode (by simp [arguments])]
  rfl

end MockedBackendResponse

section Store

variable {α : Type} {fromDict : Source → Except Raised α} {toJson : α → Json}

theorem mapM_toJson {mocks : List α}
    (h : ∀ mock ∈ mocks, (asDict (toJson mock) >>= fromDict) = .ok mock) :
    (mocks.map toJson).mapM (fun item => asDict item >>= fromDict) = .ok mocks := by
  rw [Raised.mapM_eq_ok_iff, List.forall₂_map_left_iff, List.forall₂_same]
  exact h

theorem manyFromText_sent {mocks : List α} {content : Str}
    (h : ∀ mock ∈ mocks, (asDict (toJson mock) >>= fromDict) = .ok mock)
    (hcontent : jsonLoad content = some (.array (mocks.map toJson))) :
    manyFromText fromDict (some content) = .ok mocks := by
  rw [manyFromText, Option.bind_some, hcontent, Raised.ofOption_some, Raised.ok_bind, fromDicts,
    iterate, pure_bind, mapM_toJson h]

/-- A list with an element that describes nothing is no list of mocks. -/
theorem manyFromText_rejected {content : Str} {elements : List Json} {item : Json} {e : Raised}
    (hcontent : jsonLoad content = some (.array elements)) (hitem : item ∈ elements)
    (h : (asDict item >>= fromDict) = .error e) :
    ∃ e', manyFromText fromDict (some content) = .error e' := by
  rw [manyFromText, Option.bind_some, hcontent, Raised.ofOption_some, Raised.ok_bind, fromDicts,
    iterate, pure_bind]
  cases hmocks : elements.mapM fun item => asDict item >>= fromDict with
  | error e' => exact ⟨e', rfl⟩
  | ok mocks =>
      obtain ⟨mock, -, hmock⟩ := Raised.mem_mapM_of_mem hmocks hitem
      rw [h] at hmock
      cases hmock

end Store

theorem MockedTracerResponse.plain_toJson {mock : MockedTracerResponse}
    (h : ∀ argument ∈ mock.arguments, Plain argument.2) : Plain mock.toJson :=
  plain_fields (List.forall_mem_cons.mpr ⟨plain_text _, h⟩)

theorem MockedBackendResponse.plain_toJson {mock : MockedBackendResponse}
    (h : Plain mock.path ∧ Plain mock.contentType ∧ Plain mock.statusCode) : Plain mock.toJson := by
  refine plain_fields ?_
  simp only [List.forall_mem_cons]
  exact ⟨plain_text _, h.1, plain_text _, h.2.1, h.2.2, by simp⟩

theorem load_sent {α : Type} {toJson : α → Json} {mocks : List α} (layout : Layout)
    (h : ∀ mock ∈ mocks, Plain (toJson mock)) :
    jsonLoad (jsonDump layout (.array (mocks.map toJson))) = some (.array (mocks.map toJson)) := by
  refine jsonLoad_of_plain (plain_array fun v hv => ?_)
  obtain ⟨mock, hmock, rfl⟩ := List.mem_map.mp hv
  exact h mock hmock

/-- **Mocks are what was described.**  A text that JSON reads as a list of descriptions, in a
request or in a file, gives the mocks that they were made from, in their order; in a request they
replace the mocks before them. -/
theorem mocks_sent {mocks : List MockedTracerResponse} {backendMocks : List MockedBackendResponse}
    {content backendContent : Str} (before : List MockedTracerResponse)
    (hdescribed : ∀ mock ∈ mocks, mock.Described)
    (hcontent : jsonLoad content = some (.array (mocks.map MockedTracerResponse.toJson)))
    (hbackend : jsonLoad backendContent =
      some (.array (backendMocks.map MockedBackendResponse.toJson))) :
    storeMockedTracerResponses before (some content) = (200, mocks) ∧
      manyFromText MockedTracerResponse.fromDict (some content) = .ok mocks ∧
      manyFromText MockedBackendResponse.fromDict (some backendContent) = .ok backendMocks := by
  have htracer : manyFromText MockedTracerResponse.fromDict (some content) = .ok mocks :=
    manyFromText_sent
      (fun mock hmock => MockedTracerResponse.fromDict_toJson (hdescribed mock hmock)) hcontent
  refine ⟨?_, htracer,
    manyFromText_sent (fun mock _ => MockedBackendResponse.fromDict_toJson mock) hbackend⟩
  rw [storeMockedTracerResponses, htracer]

def exampleMocks : List MockedTracerResponse :=
  [.setSpanEventFlags (.bool true), .sequentialJson (text "/info") (.array [fields []])]

def exampleBackendMocks : List MockedBackendResponse :=
  [⟨text "/a", [0xFF], text "text/plain", int 200⟩]

/-- The files that the runner writes, with `indent=2`. -/
theorem mocks_sent_example :
    storeMockedTracerResponses [.addRemoteConfigEndpoint]
        (some (jsonDump .indented (.array (exampleMocks.map MockedTracerResponse.toJson)))) =
          (200, exampleMocks) ∧
      manyFromText MockedTracerResponse.fromDict
        (some (jsonDump .indented (.array (exampleMocks.map MockedTracerResponse.toJson)))) =
          .ok exampleMocks ∧
      manyFromText MockedBackendResponse.fromDict
        (some (jsonDump .indented (.array (exampleBackendMocks.map
          MockedBackendResponse.toJson)))) = .ok exampleBackendMocks := by
  refine mocks_sent [.addRemoteConfigEndpoint] ?_ (load_sent .indented ?_)
    (load_sent .indented ?_)
  · rintro mock (_ | ⟨_, _ | ⟨_, ⟨⟩⟩⟩) <;> exact nofun
  · have hbool : Plain (.bool true) := ⟨trivial, rfl⟩
    rw [exampleMocks, List.forall_mem_cons, List.forall_mem_singleton]
    constructor
    · refine MockedTracerResponse.plain_toJson ?_
      rw [MockedTracerResponse.arguments, List.forall_mem_singleton]
      exact hbool
    · refine MockedTracerResponse.plain_toJson ?_
      rw [MockedTracerResponse.arguments, List.forall_mem_cons, List.forall_mem_singleton]
      exact ⟨plain_text _, plain_singleton plain_noFields⟩
  · rw [exampleBackendMocks, List.forall_mem_singleton]
    exact MockedBackendResponse.plain_toJson ⟨plain_text _, plain_text _, plain_int _⟩

/-- What is refused changes nothing. -/
theorem store_rejected {before : List MockedTracerResponse} {content : Str} {elements : List Json}
    {item : Json} {e : Raised} (hcontent : jsonLoad content = some (.array elements))
    (hitem : item ∈ elements) (h : (asDict item >>= MockedTracerResponse.fromDict) = .error e) :
    storeMockedTracerResponses before (some content) = (400, before) := by
  obtain ⟨e', he'⟩ := manyFromText_rejected hcontent hitem h
  rw [storeMockedTracerResponses, he']

end Mocks
end Proxy
end SystemTests
