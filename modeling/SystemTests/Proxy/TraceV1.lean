import SystemTests.Foundation.Base64
import SystemTests.Foundation.Dict
import SystemTests.Foundation.Exception
import SystemTests.Foundation.JsonDocument
import SystemTests.Foundation.Md5
import SystemTests.Foundation.Utf8
import SystemTests.Proxy.TraceDecoders

/-!
# Traces of the v1 endpoint (`utils/proxy/traces/trace_v1.py`)

A payload is a map of MessagePack with numbers for keys.  A text comes as it is or as
a position in the table of the texts that came before; `_unstream_strings` collects
that table first, then the positions are replaced, each where the code knows of it.

MessagePack, JSON, gzip and what Python says in its own messages are a parameter.
-/

namespace SystemTests
namespace Proxy
namespace TraceV1

open Foundation Foundation.Text

section Values

/-- A key of a map; `True` is the key `1`. -/
inductive Key where
  | none
  | int (n : Int)
  | float (bits : UInt64)
  | bytes (b : List UInt8)
  | text (s : Str)
deriving DecidableEq

inductive Value where
  | none
  | bool (b : Bool)
  | int (n : Int)
  | float (bits : UInt64)
  | bytes (b : List UInt8)
  | text (s : Str)
  | list (elements : List Value)
  | dict (items : List (Key × Value))

/-- The number of a value for which `isinstance(v, int)`. -/
def Value.int? : Value → Option Int
  | .bool b => some (if b then 1 else 0)
  | .int n => some n
  | _ => Option.none

def Key.toValue : Key → Value
  | .none => .none
  | .int n => .int n
  | .float bits => .float bits
  | .bytes b => .bytes b
  | .text s => .text s

/-- The value as a key, if it can be hashed. -/
def Value.toKey : Value → Except Raised Key
  | .none => .ok .none
  | .bool b => .ok (.int (if b then 1 else 0))
  | .int n => .ok (.int n)
  | .float bits => .ok (.float bits)
  | .bytes b => .ok (.bytes b)
  | .text s => .ok (.text s)
  | .list _ => .error (.typeError "unhashable type: 'list'".toList)
  | .dict _ => .error (.typeError "unhashable type: 'dict'".toList)

def Value.truthy : Value → Bool
  | .none => false
  | .bool b => b
  | .int n => n ≠ 0
  | .float bits => bits &&& 0x7FFFFFFFFFFFFFFF ≠ 0
  | .bytes b => b ≠ []
  | .text s => s ≠ []
  | .list elements => !elements.isEmpty
  | .dict items => !items.isEmpty

def typeName : Value → Str
  | .none => "NoneType".toList
  | .bool _ => "bool".toList
  | .int _ => "int".toList
  | .float _ => "float".toList
  | .bytes _ => "bytes".toList
  | .text _ => "str".toList
  | .list _ => "list".toList
  | .dict _ => "dict".toList

/-- What a loop over the value goes through. -/
def Value.iterate : Value → Except Raised (List Value)
  | .bytes b => .ok (b.map fun byte => .int byte.toNat)
  | .text s => .ok (s.map fun c => .text [c])
  | .list elements => .ok elements
  | .dict items => .ok (items.map fun item => item.1.toValue)
  | v => .error (.typeError ("'".toList ++ typeName v ++ "' object is not iterable".toList))

/-- `v.items()` -/
def Value.items : Value → Except Raised (List (Key × Value))
  | .dict items => .ok items
  | _ => .error (.attributeError "items".toList)

/-- The elements of a value by their positions, for `len(v)` and `v[i]`. -/
def Value.positions : Value → Except Raised (List Value)
  | .bytes b => .ok (b.map fun byte => .int byte.toNat)
  | .text s => .ok (s.map fun c => .text [c])
  | .list elements => .ok elements
  | .dict [] => .ok []
  | .dict _ => .error (.keyError "0".toList)
  | v => .error (.typeError ("object of type '".toList ++ typeName v ++ "' has no len()".toList))

def assign (items pairs : List (Key × Value)) : List (Key × Value) :=
  pairs.foldl (fun items pair => Dict.setItems pair.1 pair.2 items) items

/-- What the code uses of other packages. -/
structure Library where
  /-- `msgpack.unpackb` -/
  unpackb : List UInt8 → Except Raised Value
  /-- `json.loads`, or the message of the error -/
  loads : Str → Except Str Value
  loadsBytes : List UInt8 → Except Str Value
  /-- `base64.b64decode(s, validate=True)` -/
  b64decodeValid : Str → Except Str (List UInt8)
  /-- `gzip.decompress` -/
  decompress : List UInt8 → Except Str (List UInt8)
  /-- The message of a `UnicodeDecodeError`. -/
  utf8Message : List UInt8 → Str
  /-- `int(k)` -/
  toInt : Key → Except Raised Int
  /-- `str(v)` -/
  toStr : Value → Str

/-- An exception of JSON as one of Python. -/
def raisingValueError {α : Type} (text : Str) : Except Str α → Except Raised α
  | .ok a => .ok a
  | .error message => .error (.valueError (text ++ message))

/-- What is raised in place of a `ValueError`. -/
def insteadOfValueError {α : Type} (text : Str) : Except Raised α → Except Raised α
  | .error e => .error (if e.isValueError then .valueError text else e)
  | .ok a => .ok a

end Values

section Strings

mutual

/-- `_unstream_strings` without the empty string at its front -/
def unstreamStrings : Value → List Str
  | .text s => [s]
  | .list elements => unstreamElements elements
  | .dict items => unstreamItems items
  | _ => []

def unstreamElements : List Value → List Str
  | [] => []
  | v :: elements => unstreamStrings v ++ unstreamElements elements

/-- The keys are not looked at. -/
def unstreamItems : List (Key × Value) → List Str
  | [] => []
  | (_, v) :: items => unstreamStrings v ++ unstreamItems items

end

/-- `strings[v] if isinstance(v, int) else v` -/
def resolve (strings : List Str) (v : Value) : Except Raised Value :=
  match v.int? with
  | some n => Value.text <$> TraceDecoders.stringAt strings n
  | none => .ok v

def resolveKey (strings : List Str) : Key → Except Raised Key
  | .int n => Key.text <$> TraceDecoders.stringAt strings n
  | k => .ok k

end Strings

section AttributeValues

inductive V1AnyValueKeys where
  | string
  | boolValue
  | double
  | intValue
  | bytesValue
  | array
  | keyValueList
deriving DecidableEq

def V1AnyValueKeys.ofCode? : Int → Option V1AnyValueKeys
  | 1 => some .string
  | 2 => some .boolValue
  | 3 => some .double
  | 4 => some .intValue
  | 5 => some .bytesValue
  | 6 => some .array
  | 7 => some .keyValueList
  | _ => none

/-- The floats that are equal to a code or a key. -/
def floatCodes : List (UInt64 × Int) :=
  [(0x3FF0000000000000, 1), (0x4000000000000000, 2), (0x4008000000000000, 3),
    (0x4010000000000000, 4), (0x4014000000000000, 5), (0x4018000000000000, 6),
    (0x401C000000000000, 7), (0x4020000000000000, 8), (0x4022000000000000, 9),
    (0x4024000000000000, 10), (0x4026000000000000, 11), (0x4028000000000000, 12),
    (0x402A000000000000, 13), (0x402C000000000000, 14), (0x402E000000000000, 15),
    (0x4030000000000000, 16)]

/-- `V1AnyValueKeys(v)`, none for a `ValueError` -/
def V1AnyValueKeys.ofValue? : Value → Option V1AnyValueKeys
  | .bool b => ofCode? (if b then 1 else 0)
  | .int n => ofCode? n
  | .float bits => (Dict.find bits floatCodes).bind ofCode?
  | _ => none

variable (lib : Library) (strings : List Str)

/-- `decode_v1_bytes_value_attribute` -/
def decodeV1BytesValueAttribute (payload : List UInt8) : Except Raised Value :=
  match lib.unpackb payload with
  | .ok v => .ok v
  | .error _ =>
      if payload.all fun b => b < 0x80 then .ok (.text (payload.map fun b => Char.ofNat b.toNat))
      else .error (.valueError "Error decoding v1 bytes attribute".toList)

def oddArray (array : Value) : Raised :=
  .valueError ("Array must have an even number of elements (type, value pairs): ".toList ++
    lib.toStr array)

def unknownInArray (vType : Value) : Raised :=
  .valueError ("Unknown V1AnyValueKeys in array: ".toList ++ lib.toStr vType)

/-- `_uncompress_array` of the bytes or the characters of a value that is no list. -/
def uncompressFlatArray : List Value → Except Raised (List Value)
  | vType :: v :: elements => do
      let v ←
        match V1AnyValueKeys.ofValue? vType with
        | none => .error (unknownInArray lib vType)
        | some .string => resolve strings v
        | some .array => (fun _ => v) <$> v.positions
        | some _ => .ok v
      let rest ← uncompressFlatArray elements
      return v :: rest
  | _ => .ok []

/-- A value that is taken as it is, or is no list and no map where one is expected. -/
def uncompressScalar (key : Option V1AnyValueKeys) (v : Value) : Except Raised Value :=
  match key, v with
  | some .string, v => resolve strings v
  | some .bytesValue, .bytes b => decodeV1BytesValueAttribute lib b
  | some .array, v => do
      let elements ← v.positions
      if elements.length % 2 ≠ 0 then throw (oddArray lib v)
      Value.list <$> uncompressFlatArray lib strings elements
  | some .keyValueList, v => do
      let _ ← v.items
      return v
  | _, v => .ok v

/-- `a, b = v` of a value that is no list -/
def unpackTwo : Value → Option (Value × Value)
  | .bytes [a, b] => some (.int a.toNat, .int b.toNat)
  | .text [a, b] => some (.text [a], .text [b])
  | .dict [(a, _), (b, _)] => some (a.toValue, b.toValue)
  | _ => none

mutual

/-- What the three functions below do with a value, by its type. -/
def uncompressAnyValue : Option V1AnyValueKeys → Value → Except Raised Value
  | some .array, .list elements =>
      if elements.length % 2 ≠ 0 then .error (oddArray lib (.list elements))
      else Value.list <$> uncompressArray elements
  | some .keyValueList, .dict items =>
      (fun pairs => .dict (assign [] pairs)) <$> uncompressKeyValueList items
  | key, .list elements => uncompressScalar lib strings key (.list elements)
  | key, .dict items => uncompressScalar lib strings key (.dict items)
  | key, v => uncompressScalar lib strings key v

/-- `_uncompress_array` -/
def uncompressArray : List Value → Except Raised (List Value)
  | vType :: v :: elements => do
      let v ←
        match V1AnyValueKeys.ofValue? vType with
        | none => .error (unknownInArray lib vType)
        -- left as it is, with a warning
        | some .keyValueList => .ok v
        | some key => uncompressAnyValue (some key) v
      let rest ← uncompressArray elements
      return v :: rest
  | _ => .ok []

/-- `_uncompress_key_value_list`, as the assignments to its result -/
def uncompressKeyValueList : List (Key × Value) → Except Raised (List (Key × Value))
  | [] => .ok []
  | (rawKey, .list [vType, v]) :: items => do
      let key ← resolveKey strings rawKey
      let v ← uncompressAnyValue (V1AnyValueKeys.ofValue? vType) v
      let rest ← uncompressKeyValueList items
      return (key, v) :: rest
  | (rawKey, pair) :: items => do
      let key ← resolveKey strings rawKey
      let v ←
        match unpackTwo pair with
        | none => .ok pair
        | some (vType, v) => uncompressScalar lib strings (V1AnyValueKeys.ofValue? vType) v
      let rest ← uncompressKeyValueList items
      return (key, v) :: rest

end

end AttributeValues

section Attributes

variable (lib : Library) (strings : List Str)

def decodeAppsecSText (value : Str) : Except Raised Value :=
  if value = [] then .error (.valueError "_dd.appsec.s.* value cannot be empty".toList)
  else if (strip value).head? = some '[' then
    raisingValueError "Invalid JSON for _dd.appsec.s.* value: ".toList (lib.loads value)
  else do
    let decoded ← raisingValueError "Invalid base64 for _dd.appsec.s.* value: ".toList
      (lib.b64decodeValid value)
    let decompressed ← raisingValueError "Invalid gzip for _dd.appsec.s.* value: ".toList
      (lib.decompress decoded)
    match Utf8.decode decompressed with
    | none => throw (.valueError
        ("Invalid UTF-8 in gzip payload for _dd.appsec.s.*: ".toList ++ lib.utf8Message decompressed))
    | some text =>
        raisingValueError "Invalid JSON in gzip payload for _dd.appsec.s.*: ".toList (lib.loads text)

/-- `decode_appsec_s_value` -/
def decodeAppsecSValue : Value → Except Raised Value
  | .bytes b =>
      match Utf8.decode b with
      | none => .error (.valueError
          ("Invalid UTF-8 for _dd.appsec.s.* value: ".toList ++ lib.utf8Message b))
      | some value => decodeAppsecSText lib value
  | .text value => decodeAppsecSText lib value
  | v =>
      if v.truthy then .error (.attributeError "strip".toList)
      else .error (.valueError "_dd.appsec.s.* value cannot be empty".toList)

def jsonMetaValues : List Str :=
  ["_dd.appsec.json".toList, "_dd.iast.json".toList, "_dd.span_links".toList]

def postprocessValue : Key → Value → Except Raised Value
  | .text key, v =>
      if "_dd.appsec.s.".toList.isPrefixOf key then decodeAppsecSValue lib v
      else if key ∈ ["appsec".toList, "_dd.stack".toList] then
        match v with
        | .bytes b => lib.unpackb b
        | v => .ok v
      else if key ∈ jsonMetaValues then
        match v with
        | .text s => raisingValueError [] (lib.loads s)
        | .bytes b => raisingValueError [] (lib.loadsBytes b)
        | v => .ok v
      else .ok v
  | .bytes _, _ => .error (.typeError
      "startswith first arg must be bytes or a tuple of bytes, not str".toList)
  | _, _ => .error (.attributeError "startswith".toList)

/-- `_postprocess_attribute_values` -/
def postprocessAttributeValues (items : List (Key × Value)) : Except Raised (List (Key × Value)) :=
  items.mapM fun item => do
    let v ← postprocessValue lib item.1 item.2
    return (item.1, v)

/-- The assignments that a list of keys, types and values stands for. -/
def attributeItems : List Value → Except Raised (List (Key × Value))
  | k :: vType :: v :: attrs => do
      let k ← resolve strings k
      let v ← uncompressAnyValue lib strings (V1AnyValueKeys.ofValue? vType) v
      let key ← k.toKey
      let rest ← attributeItems attrs
      return (key, v) :: rest
  | _ => .ok []

/-- `_attributes_to_dict` -/
def attributesToDict (attrs : Value) : Except Raised Value := do
  let elements ← attrs.positions
  if elements.length % 3 ≠ 0 then
    throw (.valueError ("Attributes list must be a multiple of 3: ".toList ++ lib.toStr attrs))
  let items ← attributeItems lib strings elements
  Value.dict <$> postprocessAttributeValues lib (assign [] items)

/-- The value of an attribute in the format of the agent. -/
def agentAttributeValue (fields : List (Key × Value)) : Except Raised Value :=
  let field (name : String) := Dict.find (Key.text name.toList) fields
  match field "stringValueRef", field "boolValue", field "doubleValue", field "intValue",
    field "bytesValue", field "arrayValue", field "keyValueList" with
  | some ref, _, _, _, _, _, _ =>
      match ref.int? with
      | some n => Value.text <$> TraceDecoders.stringAt strings n
      | none => .error (.typeError
          ("list indices must be integers or slices, not ".toList ++ typeName ref))
  | none, some v, _, _, _, _, _ => .ok v
  | none, none, some v, _, _, _, _ => .ok v
  | none, none, none, some v, _, _, _ => .ok v
  | none, none, none, none, some v, _, _ =>
      match v with
      | .text s => do
          let raw ← Raised.ofOption (.valueError "base64".toList) (Base64.decode s)
          decodeV1BytesValueAttribute lib raw
      | .bytes raw => decodeV1BytesValueAttribute lib raw
      | v => .ok v
  | none, none, none, none, none, some v, _ => .ok v
  | none, none, none, none, none, none, some v => .ok v
  | none, none, none, none, none, none, none =>
      .error (.valueError ("Unknown attribute value: ".toList ++ lib.toStr (.dict fields)))

/-- `_uncompress_attributes`; every value but a map ends in an exception. -/
def uncompressAttributes (attrs : Value) : Except Raised Value := do
  let items ← attrs.items
  let pairs ← items.mapM fun item => do
    let n ← lib.toInt item.1
    let key ← TraceDecoders.stringAt strings n
    let fields ← item.2.items
    let v ← agentAttributeValue lib strings fields
    return (Key.text key, v)
  Value.dict <$> postprocessAttributeValues lib (assign [] pairs)

end Attributes

section Spans

variable (lib : Library) (strings : List Str)

/-- `"0x" + b.hex().upper()` -/
def hexId (b : List UInt8) : Value := .text ("0x".toList ++ (Md5.hex b).map Char.toUpper)

def find (name : String) (items : List (Key × Value)) : Option Value :=
  Dict.find (Key.text name.toList) items

def put (name : String) (v : Value) (items : List (Key × Value)) : List (Key × Value) :=
  Dict.setItems (Key.text name.toList) v items

def V1SpanLinkKeys : List (Int × Str) :=
  [(1, "trace_id".toList), (2, "span_id".toList), (3, "attributes".toList),
    (4, "trace_state".toList), (5, "flags".toList)]

def keyNumber? : Key → Option Int
  | .int n => some n
  | .float bits => Dict.find bits floatCodes
  | _ => none

/-- The name of a key that is a number. -/
def nameOf? (names : List (Int × Str)) (k : Key) : Option Str :=
  (keyNumber? k).bind fun n => Dict.find n names

/-- The name of a key, or the key. -/
def keyName (names : List (Int × Str)) (k : Key) : Key := ((nameOf? names k).map Key.text).getD k

/-- The attributes of a link or of an event. -/
def processAttributes (items : List (Key × Value)) : Except Raised (List (Key × Value)) :=
  match find "attributes" items with
  | none => .ok items
  | some (.list attrs) => do
      let attrs ← attributesToDict lib strings (.list attrs)
      return put "attributes" attrs items
  -- `contextlib.suppress(Exception)`
  | some attrs =>
      match uncompressAttributes lib strings attrs with
      | .ok attrs => .ok (put "attributes" attrs items)
      | .error _ => .ok items

def linkTraceId (items : List (Key × Value)) : List (Key × Value) :=
  match find "trace_id" items with
  | some (.bytes b) => put "trace_id" (hexId b) items
  | some (.text s) =>
      match Base64.decode s with
      | some b => put "trace_id" (hexId b) items
      | none => items
  | _ => items

/-- A position in the strings that is not past their end. -/
def reference? (v : Value) : Option Int := v.int?.filter fun n => n < strings.length

def linkTraceState (items : List (Key × Value)) : Except Raised (List (Key × Value)) :=
  match (find "trace_state" items).bind (reference? strings) with
  | some n => do
      let tracestate ← TraceDecoders.stringAt strings n
      return put "tracestate" (.text tracestate) items
  | none => .ok items

/-- A link, in the loop of `_uncompress_span_links_list` -/
def uncompressSpanLink : Value → Except Raised Value
  | .dict link => do
      let items := assign [] (link.map fun item => (keyName V1SpanLinkKeys item.1, item.2))
      let items ← processAttributes lib strings (linkTraceId items)
      Value.dict <$> linkTraceState strings items
  | link => .ok link

def V1SpanEventKeys : List (Int × Str) :=
  [(1, "time_unix_nano".toList), (2, "name".toList), (3, "attributes".toList)]

def uncompressEventItem (item : Key × Value) : Except Raised (Key × Value) :=
  if keyNumber? item.1 = some 2 then
    match reference? strings item.2 with
    | some n => do
        let name ← TraceDecoders.stringAt strings n
        return (keyName V1SpanEventKeys item.1, .text name)
    | none => .ok (keyName V1SpanEventKeys item.1, item.2)
  else .ok (keyName V1SpanEventKeys item.1, item.2)

/-- An event, in the loop of `_uncompress_span_events_list` -/
def uncompressSpanEvent : Value → Except Raised Value
  | .dict event => do
      let pairs ← event.mapM (uncompressEventItem strings)
      Value.dict <$> processAttributes lib strings (assign [] pairs)
  | event => .ok event

/-- `_uncompress_span_links_list`, `_uncompress_span_events_list` -/
def uncompressList (uncompress : Value → Except Raised Value) : Value → Except Raised Value
  | .list elements => Value.list <$> elements.mapM uncompress
  | v => .ok v

def V1SpanKeys : List (Int × Str) :=
  [(1, "service".toList), (2, "name".toList), (3, "resource".toList), (4, "span_id".toList),
    (5, "parent_id".toList), (6, "start".toList), (7, "duration".toList), (8, "error".toList),
    (9, "attributes".toList), (10, "type".toList), (11, "span_links".toList),
    (12, "span_events".toList), (13, "env".toList), (14, "version".toList),
    (15, "component".toList), (16, "span_kind".toList)]

def spanKeyStrings : List Str :=
  ["service".toList, "name".toList, "resource".toList, "type".toList, "env".toList,
    "version".toList, "component".toList, "serviceRef".toList, "typeRef".toList,
    "nameRef".toList, "resourceRef".toList, "envRef".toList, "versionRef".toList,
    "componentRef".toList]

def showKey : Key → Str
  | .text s => s
  | k => lib.toStr k.toValue

def uncompressSpanItem (item : Key × Value) : Except Raised (Key × Value) :=
  insteadOfValueError ("Unknown V1SpanKey: ".toList ++ showKey lib item.1) do
    let name ← Raised.ofOption (.keyError (showKey lib item.1)) (nameOf? V1SpanKeys item.1)
    let v ← if name ∈ spanKeyStrings then resolve strings item.2 else .ok item.2
    let v ←
      if name = "span_links".toList then uncompressList (uncompressSpanLink lib strings) v
      else if name = "span_events".toList then uncompressList (uncompressSpanEvent lib strings) v
      else .ok v
    return (Key.text name, v)

def uncompressSpan (span : Value) : Except Raised Value := do
  let items ← span.items
  let pairs ← items.mapM (uncompressSpanItem lib strings)
  return .dict (assign [] pairs)

/-- `_uncompress_spans` -/
def uncompressSpans (spans : Value) : Except Raised Value := do
  let spans ← spans.iterate
  Value.list <$> spans.mapM (uncompressSpan lib strings)

end Spans

section Chunks

variable (lib : Library) (strings : List Str)

def V1ChunkKeys : List (Int × Str) :=
  [(1, "priority".toList), (2, "origin".toList), (3, "attributes".toList), (4, "spans".toList),
    (5, "dropped_trace".toList), (6, "trace_id".toList), (7, "sampling_mechanism".toList)]

def chunkKeyStrings : List Str := ["origin".toList]

def uncompressChunkItem (item : Key × Value) : Except Raised (Key × Value) :=
  insteadOfValueError ("Unknown V1ChunkKey: ".toList ++ showKey lib item.1) do
    let name ← Raised.ofOption (.valueError []) (nameOf? V1ChunkKeys item.1)
    if name = "spans".toList then
      let v ← if name ∈ chunkKeyStrings then resolve strings item.2 else .ok item.2
      let spans ← uncompressSpans lib strings v
      return (Key.text name, spans)
    else return (Key.text name, item.2)

def uncompressChunk (chunk : Value) : Except Raised Value := do
  let items ← chunk.items
  let pairs ← items.mapM (uncompressChunkItem lib strings)
  return .dict (assign [] pairs)

/-- `_uncompress_chunks` -/
def uncompressChunks (chunks : Value) : Except Raised Value := do
  let chunks ← chunks.iterate
  Value.list <$> chunks.mapM (uncompressChunk lib strings)

def V1TracePayloadKeys : List (Int × Str) :=
  [(1, "strings".toList), (2, "container_id".toList), (3, "language_name".toList),
    (4, "language_version".toList), (5, "tracer_version".toList), (6, "runtime_id".toList),
    (7, "env".toList), (8, "hostname".toList), (9, "app_version".toList),
    (10, "attributes".toList), (11, "chunks".toList)]

def uncompressPayloadItem (item : Key × Value) : Except Raised (Key × Value) :=
  insteadOfValueError ("Unknown V1TracePayloadKey: ".toList ++ showKey lib item.1) do
    let name ← Raised.ofOption (.valueError []) (nameOf? V1TracePayloadKeys item.1)
    if name = "chunks".toList then
      let chunks ← uncompressChunks lib strings item.2
      return (Key.text name, chunks)
    else return (Key.text name, item.2)

/-- `_uncompress_keys` -/
def uncompressKeys (payload : List (Key × Value)) : Except Raised (List (Key × Value)) :=
  assign [] <$> payload.mapM (uncompressPayloadItem lib strings)

/-- The value under a name, if it is there, as the function makes it. -/
def update (name : String) (f : Value → Except Raised Value) (items : List (Key × Value)) :
    Except Raised (List (Key × Value)) :=
  match find name items with
  | none => .ok items
  | some v => do
      let v ← f v
      return put name v items

/-- The elements of a list, as the function makes them. -/
def updateEach (f : List (Key × Value) → Except Raised (List (Key × Value))) (v : Value) :
    Except Raised Value := do
  let elements ← v.iterate
  Value.list <$> elements.mapM fun v => do
    let items ← v.items
    Value.dict <$> f items

def processChunkAttributes (chunk : List (Key × Value)) : Except Raised (List (Key × Value)) := do
  let chunk ← update "attributes" (attributesToDict lib strings) chunk
  update "spans" (updateEach (update "attributes" (attributesToDict lib strings))) chunk

def processRootAttributes (payload : List (Key × Value)) : Except Raised (List (Key × Value)) :=
  match find "attributes" payload with
  | some (.list attrs) => do
      let attrs ← attributesToDict lib strings (.list attrs)
      return put "attributes" attrs payload
  | _ => .ok payload

/-- `_process_trace_attributes` -/
def processTraceAttributes (payload : List (Key × Value)) : Except Raised (List (Key × Value)) := do
  let payload ← processRootAttributes lib strings payload
  update "chunks" (updateEach (processChunkAttributes lib strings)) payload

/-- `_deserialize_trace_id` -/
def deserializeTraceId (chunk : List (Key × Value)) : Except Raised (List (Key × Value)) :=
  match find "trace_id" chunk with
  | some (.bytes b) => .ok (put "trace_id" (hexId b) chunk)
  | traceId => .error (.typeError
      ("Trace ID is not a bytes: ".toList ++ lib.toStr (traceId.getD .none)))

/-- `deserialize_v1_trace` -/
def deserializeV1Trace (content : List UInt8) : Except Raised Value := do
  match ← lib.unpackb content with
  | .dict data =>
      let strings := [] :: unstreamStrings (.dict data)
      if data = [] then return .dict []
      let data ← uncompressKeys lib strings data
      let data ← processTraceAttributes lib strings data
      Value.dict <$> update "chunks" (updateEach (deserializeTraceId lib)) data
  | _ => return .dict []

end Chunks

end TraceV1
end Proxy
end SystemTests
