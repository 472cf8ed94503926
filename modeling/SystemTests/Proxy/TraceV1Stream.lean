import SystemTests.Foundation.StringTable
import SystemTests.Proxy.TraceV1

/-!
# Payloads of the v1 endpoint, and what is sent for them

A payload is a tree whose texts are references: the text, or its position among the
texts that were sent before.  `encode` is the map of MessagePack that is sent.
`positions` are the references in the order in which they are read, with what the
code does at each: whether it enters a text into its table, and whether it replaces
a position.  `uncompressed` is the payload with every text sent as it is.
-/

namespace SystemTests
namespace Proxy
namespace TraceV1

open Foundation Foundation.Text Foundation.StringTable

abbrev TextRef := Ref Str

def encodeRef : TextRef → Value
  | .lit s => .text s
  | .idx n => .int n

def refKey : TextRef → Key
  | .lit s => .text s
  | .idx n => .int n

/-- A reference where it is read. -/
structure Position where
  ref : TextRef
  /-- Keys of maps are not entered into the table. -/
  inTable : Bool
  /-- A position is replaced by its text. -/
  resolved : Bool

section Attributes

inductive AnyValue where
  | string (t : TextRef)
  | bool (b : Bool)
  | double (bits : UInt64)
  | int (n : Int)
  | bytes (b : List UInt8)
  | array (elements : List AnyValue)
  | keyValueList (items : List (TextRef × AnyValue))

def AnyValue.key : AnyValue → V1AnyValueKeys
  | .string _ => .string
  | .bool _ => .boolValue
  | .double _ => .double
  | .int _ => .intValue
  | .bytes _ => .bytesValue
  | .array _ => .array
  | .keyValueList _ => .keyValueList

def V1AnyValueKeys.code : V1AnyValueKeys → Int
  | .string => 1
  | .boolValue => 2
  | .double => 3
  | .intValue => 4
  | .bytesValue => 5
  | .array => 6
  | .keyValueList => 7

mutual

def AnyValue.encode : AnyValue → Value
  | .string t => encodeRef t
  | .bool b => .bool b
  | .double bits => .float bits
  | .int n => .int n
  | .bytes b => .bytes b
  | .array elements => .list (encodeElements elements)
  | .keyValueList items => .dict (encodeItems items)

def encodeElements : List AnyValue → List Value
  | [] => []
  | v :: elements => .int v.key.code :: v.encode :: encodeElements elements

def encodeItems : List (TextRef × AnyValue) → List (Key × Value)
  | [] => []
  | (k, v) :: items => (refKey k, .list [.int v.key.code, v.encode]) :: encodeItems items

end

mutual

def AnyValue.map (f : TextRef → TextRef) : AnyValue → AnyValue
  | .string t => .string (f t)
  | .bool b => .bool b
  | .double bits => .double bits
  | .int n => .int n
  | .bytes b => .bytes b
  | .array elements => .array (mapElements f elements)
  | .keyValueList items => .keyValueList (mapItems f items)

def mapElements (f : TextRef → TextRef) : List AnyValue → List AnyValue
  | [] => []
  | v :: elements => v.map f :: mapElements f elements

def mapItems (f : TextRef → TextRef) : List (TextRef × AnyValue) → List (TextRef × AnyValue)
  | [] => []
  | (k, v) :: items => (f k, v.map f) :: mapItems f items

end

mutual

def AnyValue.positions (resolved : Bool) : AnyValue → List Position
  | .string t => [⟨t, true, resolved⟩]
  | .array elements => elementPositions resolved elements
  | .keyValueList items => itemPositions resolved items
  | _ => []

/-- A key-value list in an array is left as it is. -/
def elementPositions (resolved : Bool) : List AnyValue → List Position
  | [] => []
  | v :: elements =>
      v.positions (resolved && v.key ≠ .keyValueList) ++ elementPositions resolved elements

def itemPositions (resolved : Bool) : List (TextRef × AnyValue) → List Position
  | [] => []
  | (k, v) :: items => ⟨k, false, resolved⟩ :: (v.positions resolved ++ itemPositions resolved items)

end

abbrev Attributes := List (TextRef × AnyValue)

def encodeAttributes (attrs : Attributes) : Value :=
  .list (attrs.flatMap fun attr => [encodeRef attr.1, .int attr.2.key.code, attr.2.encode])

def mapAttributes (f : TextRef → TextRef) (attrs : Attributes) : Attributes :=
  attrs.map fun attr => (f attr.1, attr.2.map f)

def attributePositions (attrs : Attributes) : List Position :=
  attrs.flatMap fun attr => ⟨attr.1, true, true⟩ :: attr.2.positions true

end Attributes

section Payloads

/-- A value that is not a text and has no values inside. -/
inductive Scalar where
  | none
  | bool (b : Bool)
  | int (n : Int)
  | float (bits : UInt64)
  | bytes (b : List UInt8)

def Scalar.encode : Scalar → Value
  | .none => .none
  | .bool b => .bool b
  | .int n => .int n
  | .float bits => .float bits
  | .bytes b => .bytes b

inductive LinkField where
  | scalar (key : { n : Int // n ∈ [1, 2, 5] }) (v : Scalar)
  | attributes (attrs : Attributes)
  | traceState (t : TextRef)

inductive EventField where
  | time (v : Scalar)
  | nameValue (t : TextRef)
  | attributes (attrs : Attributes)

inductive SpanField where
  | text (key : { n : Int // n ∈ [1, 2, 3, 10, 13, 14, 15] }) (t : TextRef)
  | scalar (key : { n : Int // n ∈ [4, 5, 6, 7, 8, 11, 12, 16] }) (v : Scalar)
  | attributes (attrs : Attributes)
  | spanLinks (links : List (List LinkField))
  | spanEvents (events : List (List EventField))

inductive ChunkField where
  | scalar (key : { n : Int // n ∈ [1, 5, 6, 7] }) (v : Scalar)
  | origin (t : TextRef)
  | attributes (attrs : Attributes)
  | spans (l : List (List SpanField))

inductive PayloadField where
  | text (key : { n : Int // n ∈ [2, 3, 4, 5, 6, 7, 8, 9] }) (t : TextRef)
  | strings (ts : List TextRef)
  | attributes (attrs : Attributes)
  | chunks (l : List (List ChunkField))

abbrev Payload := List PayloadField

def LinkField.encode : LinkField → Key × Value
  | .scalar key v => (.int key, v.encode)
  | .attributes attrs => (.int 3, encodeAttributes attrs)
  | .traceState t => (.int 4, encodeRef t)

def EventField.encode : EventField → Key × Value
  | .time v => (.int 1, v.encode)
  | .nameValue t => (.int 2, encodeRef t)
  | .attributes attrs => (.int 3, encodeAttributes attrs)

/-- A list of maps. -/
def encodeMaps {F : Type} (encode : F → Key × Value) (maps : List (List F)) : Value :=
  .list (maps.map fun fields => .dict (fields.map encode))

def SpanField.encode : SpanField → Key × Value
  | .text key t => (.int key, encodeRef t)
  | .scalar key v => (.int key, v.encode)
  | .attributes attrs => (.int 9, encodeAttributes attrs)
  | .spanLinks links => (.int 11, encodeMaps LinkField.encode links)
  | .spanEvents events => (.int 12, encodeMaps EventField.encode events)

def ChunkField.encode : ChunkField → Key × Value
  | .scalar key v => (.int key, v.encode)
  | .origin t => (.int 2, encodeRef t)
  | .attributes attrs => (.int 3, encodeAttributes attrs)
  | .spans l => (.int 4, encodeMaps SpanField.encode l)

def PayloadField.encode : PayloadField → Key × Value
  | .text key t => (.int key, encodeRef t)
  | .strings ts => (.int 1, .list (ts.map encodeRef))
  | .attributes attrs => (.int 10, encodeAttributes attrs)
  | .chunks l => (.int 11, encodeMaps ChunkField.encode l)

/-- What is sent for a payload. -/
def encode (payload : Payload) : Value := .dict (payload.map PayloadField.encode)

def LinkField.map (f : TextRef → TextRef) : LinkField → LinkField
  | .scalar key v => .scalar key v
  | .attributes attrs => .attributes (mapAttributes f attrs)
  | .traceState t => .traceState (f t)

def EventField.map (f : TextRef → TextRef) : EventField → EventField
  | .time v => .time v
  | .nameValue t => .nameValue (f t)
  | .attributes attrs => .attributes (mapAttributes f attrs)

def SpanField.map (f : TextRef → TextRef) : SpanField → SpanField
  | .text key t => .text key (f t)
  | .scalar key v => .scalar key v
  | .attributes attrs => .attributes (mapAttributes f attrs)
  | .spanLinks links => .spanLinks (links.map (List.map (LinkField.map f)))
  | .spanEvents events => .spanEvents (events.map (List.map (EventField.map f)))

def ChunkField.map (f : TextRef → TextRef) : ChunkField → ChunkField
  | .scalar key v => .scalar key v
  | .origin t => .origin (f t)
  | .attributes attrs => .attributes (mapAttributes f attrs)
  | .spans l => .spans (l.map (List.map (SpanField.map f)))

def PayloadField.map (f : TextRef → TextRef) : PayloadField → PayloadField
  | .text key t => .text key (f t)
  | .strings ts => .strings (ts.map f)
  | .attributes attrs => .attributes (mapAttributes f attrs)
  | .chunks l => .chunks (l.map (List.map (ChunkField.map f)))

def mapPayload (f : TextRef → TextRef) (payload : Payload) : Payload :=
  payload.map (PayloadField.map f)

/-- The state of a trace is not replaced. -/
def LinkField.positions : LinkField → List Position
  | .attributes attrs => attributePositions attrs
  | .traceState t => [⟨t, true, false⟩]
  | .scalar _ _ => []

def EventField.positions : EventField → List Position
  | .nameValue t => [⟨t, true, true⟩]
  | .attributes attrs => attributePositions attrs
  | .time _ => []

def mapsPositions {F : Type} (positions : F → List Position) (maps : List (List F)) :
    List Position :=
  maps.flatMap fun fields => fields.flatMap positions

def SpanField.positions : SpanField → List Position
  | .text _ t => [⟨t, true, true⟩]
  | .attributes attrs => attributePositions attrs
  | .spanLinks links => mapsPositions LinkField.positions links
  | .spanEvents events => mapsPositions EventField.positions events
  | .scalar _ _ => []

/-- The origin of a chunk is not replaced. -/
def ChunkField.positions : ChunkField → List Position
  | .origin t => [⟨t, true, false⟩]
  | .attributes attrs => attributePositions attrs
  | .spans l => mapsPositions SpanField.positions l
  | .scalar _ _ => []

/-- The texts of the payload itself are not replaced. -/
def PayloadField.positions : PayloadField → List Position
  | .text _ t => [⟨t, true, false⟩]
  | .strings ts => ts.map fun t => ⟨t, true, false⟩
  | .attributes attrs => attributePositions attrs
  | .chunks l => mapsPositions ChunkField.positions l

def positions (payload : Payload) : List Position := payload.flatMap PayloadField.positions

end Payloads

section Streams

/-- The references of a payload, in the order in which they are read. -/
def refs (payload : Payload) : List TextRef := (positions payload).map Position.ref

/-- Every position that is sent is one of a text before it; position 0 is the empty text. -/
def IsStreamed (payload : Payload) : Prop := Streamed 1 (refs payload)

/-- The payload with its texts in place of their positions. -/
def uncompressed (payload : Payload) : Payload :=
  mapPayload (Ref.resolve (table [] (refs payload))) payload

/-- The positions that are sent are replaced by the code, and come before the first key of a
key-value list that is sent as a text. -/
def IsSupported (payload : Payload) : Prop :=
  ∀ p ∈ positions payload, ∀ n, p.ref = .idx n → p.resolved = true ∧
    n < agreed ((positions payload).map fun p => (p.inTable, p.ref))

end Streams

end TraceV1
end Proxy
end SystemTests
