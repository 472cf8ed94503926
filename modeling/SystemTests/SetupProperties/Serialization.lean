import SystemTests.Foundation.Dict
import SystemTests.Foundation.JsonDocument
import SystemTests.RemoteConfig.SendState

/-!
# Setup properties in a file (`utils/properties_serialization.py`)

What the setup of a test keeps is dumped as JSON, and loaded again in replay mode.  An object
becomes a dictionary with the name of its class under `"__class__"`; every dictionary that is
loaded is given to a hook, the inner ones first.

Texts and keys are lists of code points; a number is the text `repr` gives for it.
-/

namespace SystemTests
namespace SetupProperties

open Foundation Foundation.Text Foundation.Json

/-- A property; `caseInsensitiveDict` has the cased keys, `set` the order of its iteration. -/
inductive Value where
  | none
  | bool (b : Bool)
  | number (literal : Str)
  | str (codePoints : List Nat)
  | list (elements : List Value)
  | dict (items : List (List Nat × Value))
  | caseInsensitiveDict (items : List (List Nat × Value))
  | set (elements : List Value)
  | httpResponse (data : List (List Nat × Value))
  | grpcResponse (data : List (List Nat × Value))
  | remoteConfigStateResults (version state configs : Value)
  | applyState (state : RemoteConfig.ApplyState)
  | other (className : Str)

abbrev Items := List (List Nat × Value)

/-- What the language computes with texts and values. -/
structure Builtins where
  /-- `str.lower` -/
  lower : List Nat → List Nat
  /-- `==` -/
  eq : Value → Value → Bool
  /-- `str` -/
  str : Value → List Nat

def classKey : List Nat := codePoints "__class__"

/-- `type(value).__name__` -/
def Value.className : Value → Str
  | .none => "NoneType"
  | .bool _ => "bool"
  | .number literal => if literal.any (· ∈ ['.', 'e', 'n', 'N', 'I']) then "float" else "int"
  | .str _ => "str"
  | .list _ => "list"
  | .dict _ => "dict"
  | .caseInsensitiveDict _ => "CaseInsensitiveDict"
  | .set _ => "set"
  | .httpResponse _ => "HttpResponse"
  | .grpcResponse _ => "GrpcResponse"
  | .remoteConfigStateResults .. => "RemoteConfigStateResults"
  | .applyState _ => "RemoteConfigApplyState"
  | .other className => className

section Encoder

/-- The dictionary of an object, marked with its class. -/
def marked (className : Str) (members : List (List Nat × Json)) : Json :=
  .object (members ++ [(classKey, text className)])

/-- `assert "__class__" not in serialized` -/
def assertUnmarked (data : Items) : Except Raised Unit :=
  if classKey ∈ data.map Prod.fst then .error (.assertionError []) else .ok ()

mutual

/-- The document of a value; `_PropertiesEncoder.default` says it of what is no JSON. -/
def encode : Value → Except Raised Json
  | .none => .ok .null
  | .bool b => .ok (.bool b)
  | .number literal => .ok (.number literal)
  | .str us => .ok (.string us)
  | .list elements => do return .array (← encodeElements elements)
  | .dict items => do return .object (← encodeItems items)
  | .caseInsensitiveDict items => do return .object (← encodeItems items)
  | .set elements => do
      return .object [(classKey, text "set"),
        (codePoints "values", .array (← encodeElements elements))]
  | .httpResponse data => do
      assertUnmarked data
      return marked "HttpResponse" (← encodeItems data)
  | .grpcResponse data => do
      assertUnmarked data
      return marked "GrpcResponse" (← encodeItems data)
  | .remoteConfigStateResults version state configs => do
      return marked "RemoteConfigStateResults" [(codePoints "version", ← encode version),
        (codePoints "state", ← encode state), (codePoints "configs", ← encode configs)]
  -- a member of an `IntEnum` is written as its number
  | .applyState state => .ok (int state.value)
  | .other className =>
      .error (.typeError ("Object of type ".toList ++ className ++
        " is not JSON serializable".toList))

def encodeElements : List Value → Except Raised (List Json)
  | [] => .ok []
  | v :: vs => do return (← encode v) :: (← encodeElements vs)

def encodeItems : List (List Nat × Value) → Except Raised (List (List Nat × Json))
  | [] => .ok []
  | (key, v) :: items => do return (key, ← encode v) :: (← encodeItems items)

end

/-- `json.dump(value, f, indent=2, cls=_PropertiesEncoder)` -/
def dumped (v : Value) : Except Raised Str := do return jsonDump .indented (← encode v)

end Encoder

section Values

/-- `data[key]` -/
def getItem (py : Builtins) (data : Value) (key : Str) : Except Raised Value :=
  match data with
  | .dict items => Raised.ofOption (.keyError key) (Dict.find (codePoints key) items)
  | .caseInsensitiveDict items =>
      Raised.ofOption (.keyError key)
        (Dict.find (py.lower (codePoints key)) (items.map fun item => (py.lower item.1, item.2)))
  | .list _ => .error (.typeError "list indices must be integers or slices, not str")
  | .str _ => .error (.typeError "string indices must be integers, not 'str'")
  | v => .error (.typeError ("'".toList ++ v.className ++ "' object is not subscriptable".toList))

/-- `data.get(key, {})` -/
def getDict (py : Builtins) (data : Value) (key : Str) : Except Raised Value :=
  match data with
  | .dict items => .ok ((Dict.find (codePoints key) items).getD (.dict []))
  | .caseInsensitiveDict items =>
      .ok ((Dict.find (py.lower (codePoints key))
        (items.map fun item => (py.lower item.1, item.2))).getD (.dict []))
  | _ => .error (.attributeError "get")

def iterate : Value → Except Raised (List Value)
  | .list elements | .set elements => .ok elements
  | .str us => .ok (us.map fun u => .str [u])
  | .dict items | .caseInsensitiveDict items => .ok (items.map fun item => .str item.1)
  | v => .error (.typeError ("'".toList ++ v.className ++ "' object is not iterable".toList))

def assertHashable : Value → Except Raised Unit
  | .list _ => .error (.typeError "unhashable type: 'list'")
  | .dict _ => .error (.typeError "unhashable type: 'dict'")
  | .set _ => .error (.typeError "unhashable type: 'set'")
  | .caseInsensitiveDict _ => .error (.typeError "unhashable type: 'CaseInsensitiveDict'")
  | _ => .ok ()

/-- An element is added unless the set has an equal one. -/
def addElement (py : Builtins) (elements : List Value) (v : Value) : Except Raised (List Value) :=
  do
    assertHashable v
    return if elements.any (py.eq · v) then elements else elements ++ [v]

/-- `set(values)` -/
def setOf (py : Builtins) (values : Value) : Except Raised Value := do
  return .set (← (← iterate values).foldlM (addElement py) [])

/-- A `CaseInsensitiveDict`: under each lowered key, the cased key and the value. -/
abbrev Headers := Dict (List Nat) (List Nat × Value)

def headersOf (py : Builtins) (items : Items) : Headers :=
  Dict.empty.setAll (items.map fun item => (py.lower item.1, item))

/-- `lower_items`, which is what two `CaseInsensitiveDict` are compared by. -/
def lowerItems (headers : Headers) : Items :=
  headers.items.map fun item => (item.1, item.2.2)

/-- `key, value = v`, of which the key is lowered. -/
def unpackItem (v : Value) : Except Raised (List Nat × Value) := do
  match ← iterate v with
  | [.str key, value] => .ok (key, value)
  | [_, _] => .error (.attributeError "lower")
  | [] => .error (.valueError "not enough values to unpack (expected 2, got 0)")
  | [_] => .error (.valueError "not enough values to unpack (expected 2, got 1)")
  | _ => .error (.valueError "too many values to unpack (expected 2)")

/-- `CaseInsensitiveDict(data)` -/
def newHeaders (py : Builtins) : Value → Except Raised Headers
  | .none => .ok Dict.empty
  | .dict items | .caseInsensitiveDict items => .ok (headersOf py items)
  | v => do return headersOf py (← (← iterate v).mapM unpackItem)

end Values

section Responses

variable (py : Builtins)

/-- `self.headers` is `{"user-agent": userAgent}`. -/
structure GrpcRequest where
  userAgent : List Nat

structure GrpcResponse where
  request : GrpcRequest
  response : Value

structure HttpRequest where
  headers : Headers
  method : Value
  url : Value
  params : Value

structure HttpResponse where
  request : HttpRequest
  statusCode : Value
  headers : Headers
  text : Value
  cookies : Value

/-- `GrpcRequest.__init__` -/
def newGrpcRequest (data : Value) : Except Raised GrpcRequest := do
  return { userAgent := codePoints "rid/" ++ py.str (← getItem py data "rid") }

/-- `GrpcResponse.__init__` -/
def newGrpcResponse (data : Value) : Except Raised GrpcResponse := do
  let request ← newGrpcRequest py (← getItem py data "request")
  let response ← getItem py data "response"
  return { request, response }

/-- `HttpRequest.__init__` -/
def newHttpRequest (data : Value) : Except Raised HttpRequest := do
  let headers ← newHeaders py (← getDict py data "headers")
  let method ← getItem py data "method"
  let url ← getItem py data "url"
  let params ← getItem py data "params"
  return { headers, method, url, params }

/-- `HttpResponse.__init__` -/
def newHttpResponse (data : Value) : Except Raised HttpResponse := do
  let request ← newHttpRequest py (← getItem py data "request")
  let statusCode ← getItem py data "status_code"
  let headers ← newHeaders py (← getDict py data "headers")
  let text ← getItem py data "text"
  let cookies ← getItem py data "cookies"
  return { request, statusCode, headers, text, cookies }

/-- `RemoteConfigStateResults.__init__` -/
def newRemoteConfigStateResults (version state configs : Value) : Value :=
  match configs with
  | .none => .remoteConfigStateResults version state (.dict [])
  | configs => .remoteConfigStateResults version state configs

end Responses

section Decoder

variable (py : Builtins)

/-- `_PropertiesDecoder.from_dict`, by the class that the dictionary is marked with. -/
def fromMarked (d : Items) (klass : List Nat) : Except Raised Value :=
  if klass = codePoints "set" then do
    setOf py (← getItem py (.dict d) "values")
  else if klass = codePoints "GrpcResponse" then do
    let _ ← newGrpcResponse py (.dict d)
    return .grpcResponse d
  else if klass = codePoints "HttpResponse" then do
    let _ ← newHttpResponse py (.dict d)
    return .httpResponse d
  else if klass = codePoints "RemoteConfigStateResults" then do
    let version ← getItem py (.dict d) "version"
    let state ← getItem py (.dict d) "state"
    let configs ← getItem py (.dict d) "configs"
    return newRemoteConfigStateResults version state configs
  else .ok (.dict d)

def fromDict (d : Items) : Except Raised Value :=
  match Dict.find classKey d with
  | some (.str klass) => fromMarked py d klass
  -- no other value equals the name of a class
  | _ => .ok (.dict d)

mutual

def decode : Json → Except Raised Value
  | .null => .ok .none
  | .bool b => .ok (.bool b)
  | .number literal => .ok (.number literal)
  | .string us => .ok (.str us)
  | .array elements => do return .list (← decodeElements elements)
  | .object members => do
      let pairs ← decodeMembers members
      fromDict py (Dict.empty.setAll pairs).items

def decodeElements : List Json → Except Raised (List Value)
  | [] => .ok []
  | v :: vs => do return (← decode v) :: (← decodeElements vs)

def decodeMembers : List (List Nat × Json) → Except Raised (List (List Nat × Value))
  | [] => .ok []
  | (key, v) :: members => do return (key, ← decode v) :: (← decodeMembers members)

end

/-- `json.load(f, cls=_PropertiesDecoder)` -/
def loaded (s : Str) : Except Raised Value := do
  decode py (← Raised.ofOption (.valueError "json") (jsonLoad s))

/-- What a later run finds in the file. -/
def replayed (v : Value) : Except Raised Value := do loaded py (← dumped v)

end Decoder

end SetupProperties
end SystemTests
