import SystemTests.Foundation.Columns
import SystemTests.Foundation.Dict
import SystemTests.Foundation.Exception
import SystemTests.Foundation.JsonDocument
import SystemTests.Foundation.Utf8

/-!
# The v3 metrics payloads (`utils/proxy/_decoders/metrics_v3.py`)

A `MetricData` message holds its series in columns.  `FromString` parses the envelope
and the scalar columns; it is a parameter.  What the decoder undoes by hand is modelled
in full: the dictionaries, the differences, the framing of the tagsets, and the cursors
on the columns of the points.

Floats are a parameter: of them the code uses `float` of an integer, `int`, the
quotient and whether a number is zero.
-/

namespace SystemTests
namespace Proxy
namespace MetricsV3

open Foundation Foundation.Text Foundation.Columns

/-- The floats, as far as the code uses them. -/
structure Floats (F : Type) where
  zero : F
  /-- `float(v)` -/
  ofInt : Int → F
  /-- `int(x)` of a finite number -/
  toInt : F → Int
  isNonzero : F → Bool
  divide : F → F → F

/-- The columns that the decoder does not read. -/
structure UnreadColumns where
  dictResourceStr : List UInt8 := []
  dictResourceLen : List Int := []
  dictResourceType : List Int := []
  dictResourceName : List Int := []
  dictSourceTypeName : List UInt8 := []
  dictOriginInfo : List Int := []
  resourcesRefs : List Int := []
  sourceTypeNameRefs : List Int := []
  originInfoRefs : List Int := []

structure MetricData (F : Type) where
  dictNameStr : List UInt8 := []
  dictTagStr : List UInt8 := []
  dictTagsets : List Int := []
  types : List Nat := []
  nameRefs : List Int := []
  tagsetRefs : List Int := []
  intervals : List Nat := []
  numPoints : List Nat := []
  timestamps : List Int := []
  valsSint64 : List Int := []
  valsFloat32 : List F := []
  valsFloat64 : List F := []
  sketchNumBins : List Nat := []
  sketchBinKeys : List Int := []
  sketchBinCnts : List Nat := []
  unread : UnreadColumns := {}

section Dictionaries

/-- `value.decode("utf-8", errors="replace")` -/
def decodeText (value : List UInt8) : Str :=
  (Utf8.decode value).getD (Utf8.decodeReplacing value)

def decodeStringDictGo : Nat → List UInt8 → Except Raised (List Str)
  | 0, _ => .ok []
  | _ + 1, [] => .ok []
  | k + 1, b :: blob => do
      let (length, rest) ← Raised.ofOption (.valueError "truncated varint") (readUvarint (b :: blob))
      let strings ← decodeStringDictGo k (rest.drop length)
      return decodeText (rest.take length) :: strings

/-- `_decode_string_dict` -/
def decodeStringDict (blob : List UInt8) : Except Raised (List Str) :=
  decodeStringDictGo blob.length blob

/-- The next indexes of a tagset, and the values behind them. -/
def readIndexes : Nat → Int → List Int → Except Raised (List Int × List Int)
  | 0, _, values => .ok ([], values)
  | _ + 1, _, [] => .error (.indexError "list index out of range")
  | n + 1, prev, value :: values => do
      let (raw, rest) ← readIndexes n (prev + value) values
      return ((prev + value) :: raw, rest)

/-- A negative index refers to a tagset that was built before. -/
def resolveIndex (tagsets : List (List Int)) (idx : Int) : List Int :=
  if idx < 0 then (entryAt tagsets (-idx)).getD []
  else if 0 < idx then [idx] else []

def decodeTagsetsGo : Nat → List (List Int) → List Int → Except Raised (List (List Int))
  | 0, tagsets, _ => .ok tagsets
  | _ + 1, tagsets, [] => .ok tagsets
  | k + 1, tagsets, count :: values => do
      -- `range` of a negative number is empty
      let (raw, rest) ← readIndexes count.toNat 0 values
      decodeTagsetsGo k (tagsets ++ [raw.flatMap (resolveIndex tagsets)]) rest

/-- `_decode_tagsets` -/
def decodeTagsets (values : List Int) : Except Raised (List (List Int)) :=
  decodeTagsetsGo values.length [] values

end Dictionaries

section Points

def metricTypeMask : Nat := 0x0F
def metricTypeSketch : Nat := 0x04
def metricTypesUnsupportedPoints : List Nat := [0x06, 0x07]
def valueTypeMask : Nat := 0x30
def valueTypeZero : Nat := 0x00
def valueTypeSint64 : Nat := 0x10
def valueTypeFloat32 : Nat := 0x20
def valueTypeFloat64 : Nat := 0x30

/-- `_PointColumns` -/
structure PointColumns (F : Type) where
  timestamps : List Int
  valsSint64 : List Int
  valsFloat32 : List F
  valsFloat64 : List F
  sketchNumBins : List Nat
  sketchBinKeys : List Int
  sketchBinCounts : List Nat
  timestampCursor : Nat := 0
  sint64Cursor : Nat := 0
  float32Cursor : Nat := 0
  float64Cursor : Nat := 0
  sketchPointCursor : Nat := 0
  sketchBinCursor : Nat := 0
  decodable : Bool := true

namespace PointColumns

variable {F : Type}

def ofMetricData (metricData : MetricData F) : PointColumns F where
  timestamps := accumulate metricData.timestamps
  valsSint64 := metricData.valsSint64
  valsFloat32 := metricData.valsFloat32
  valsFloat64 := metricData.valsFloat64
  sketchNumBins := metricData.sketchNumBins
  sketchBinKeys := metricData.sketchBinKeys
  sketchBinCounts := metricData.sketchBinCnts

/-- `l[start : start + count]` -/
def slice {α : Type} (l : List α) (start count : Nat) : List α := (l.drop start).take count

def takeTimestamps (columns : PointColumns F) (count : Nat) : List Int × PointColumns F :=
  (slice columns.timestamps columns.timestampCursor count,
    { columns with timestampCursor := columns.timestampCursor + count })

/-- `take_values`; of the dictionary of the columns only three keys exist. -/
def takeValues (floats : Floats F) (columns : PointColumns F) (valueType count : Nat) :
    Except Raised (List F × PointColumns F) :=
  if valueType = valueTypeZero then .ok (List.replicate count floats.zero, columns)
  else if valueType = valueTypeSint64 then
    .ok ((slice columns.valsSint64 columns.sint64Cursor count).map floats.ofInt,
      { columns with sint64Cursor := columns.sint64Cursor + count })
  else if valueType = valueTypeFloat32 then
    .ok (slice columns.valsFloat32 columns.float32Cursor count,
      { columns with float32Cursor := columns.float32Cursor + count })
  else if valueType = valueTypeFloat64 then
    .ok (slice columns.valsFloat64 columns.float64Cursor count,
      { columns with float64Cursor := columns.float64Cursor + count })
  else .error (.keyError (Json.intText valueType))

def takeSketchBins (columns : PointColumns F) :
    Except Raised ((List Int × List Nat) × PointColumns F) := do
  let numBins ← Raised.ofOption (.indexError "list index out of range")
    columns.sketchNumBins[columns.sketchPointCursor]?
  return ((accumulate (slice columns.sketchBinKeys columns.sketchBinCursor numBins),
      slice columns.sketchBinCounts columns.sketchBinCursor numBins),
    { columns with
      sketchPointCursor := columns.sketchPointCursor + 1
      sketchBinCursor := columns.sketchBinCursor + numBins })

/-- The bins of several points. -/
def takeAllBins : Nat → PointColumns F →
    Except Raised (List (List Int × List Nat) × PointColumns F)
  | 0, columns => .ok ([], columns)
  | n + 1, columns => do
      let (bins, columns) ← columns.takeSketchBins
      let (rest, columns) ← takeAllBins n columns
      return (bins :: rest, columns)

end PointColumns

structure DogSketch (F : Type) where
  ts : Str
  cnt : Str
  min : F
  max : F
  avg : F
  sum : F
  k : List Int
  n : List Nat

variable {F : Type} (floats : Floats F)

/-- What unpacking raises for too few values. -/
def tooFew (expected got : Nat) : Raised :=
  .valueError ("not enough values to unpack (expected ".toList ++ Json.intText expected ++
    ", got ".toList ++ Json.intText got ++ ")".toList)

def readSketches (valueType : Nat) : List (Int × List Int × List Nat) → PointColumns F →
    Except Raised (List (DogSketch F) × PointColumns F)
  | [], columns => .ok ([], columns)
  | (ts, keys, counts) :: rest, columns => do
      let (values, columns) ← columns.takeValues floats valueType 3
      match values with
      | [sum, min, max] =>
          let (cnts, columns) ← columns.takeValues floats valueTypeSint64 1
          match cnts with
          | [cnt] =>
              let point := {
                ts := Json.intText ts
                cnt := Json.intText (floats.toInt cnt)
                min, max
                avg := if floats.isNonzero cnt then floats.divide sum cnt else floats.zero
                sum
                k := keys
                n := counts }
              let (points, columns) ← readSketches valueType rest columns
              return (point :: points, columns)
          | _ => throw (tooFew 1 cnts.length)
      | _ => throw (tooFew 3 values.length)

/-- `_decode_sketch_points` -/
def decodeSketchPoints (columns : PointColumns F) (pointCount valueType : Nat) :
    Except Raised (List (DogSketch F) × PointColumns F) := do
  let (timestamps, columns) := columns.takeTimestamps pointCount
  let (bins, columns) ← columns.takeAllBins pointCount
  readSketches floats valueType (timestamps.zip bins) columns

end Points

section Series

variable {F : Type} (floats : Floats F)

structure Point (F : Type) where
  value : F
  timestamp : Str

/-- A decoded series; `none` is a key that the entry does not have. -/
structure Entry (F : Type) where
  metric : Str
  tags : List Str
  type : Option Nat
  interval : Option Nat
  numPoints : Option Nat
  dogsketches : Option (List (DogSketch F)) := none
  points : Option (List (Point F)) := none

/-- What `_decode_metric_data` computes before it goes through the series. -/
structure Header where
  nameDict : List Str
  tagDict : List Str
  tagsets : List (List Int)
  nameRefs : List Int
  tagsRefs : List Int
  types : List Nat
  intervals : List Nat
  numPoints : List Nat

def Header.ofMetricData (metricData : MetricData F) : Except Raised Header := do
  let nameDict ← decodeStringDict metricData.dictNameStr
  let tagDict ← decodeStringDict metricData.dictTagStr
  let tagsets ← decodeTagsets metricData.dictTagsets
  return {
    nameDict, tagDict, tagsets
    nameRefs := accumulate metricData.nameRefs
    tagsRefs := accumulate metricData.tagsetRefs
    types := metricData.types
    intervals := metricData.intervals
    numPoints := metricData.numPoints }

/-- The type column defines the number of series, unless it is empty. -/
def Header.seriesCount (header : Header) : Nat :=
  if header.types.length = 0 then header.nameRefs.length else header.types.length

def Header.name (header : Header) (i : Nat) : Str :=
  (entryAt header.nameDict (header.nameRefs[i]?.getD 0)).getD []

def Header.tags (header : Header) (i : Nat) : List Str :=
  ((entryAt header.tagsets (header.tagsRefs[i]?.getD 0)).getD []).filterMap (entryAt header.tagDict)

/-- The entry of a series without its points. -/
def Header.entry (header : Header) (i : Nat) : Entry F where
  metric := header.name i
  tags := header.tags i
  type := header.types[i]?
  interval := header.intervals[i]?
  numPoints := header.numPoints[i]?

/-- The points of a series, for as long as the cursors can be trusted. -/
def decodePoints (entry : Entry F) (columns : PointColumns F) :
    Except Raised (Entry F × PointColumns F) :=
  let pointCount := entry.numPoints.getD 0
  if pointCount ≠ 0 ∧ columns.decodable = true then
    let metricType := entry.type.getD 0 &&& metricTypeMask
    let valueType := entry.type.getD 0 &&& valueTypeMask
    if metricType = metricTypeSketch then do
      let (points, columns) ← decodeSketchPoints floats columns pointCount valueType
      return ({ entry with dogsketches := some points }, columns)
    else if metricType ∈ metricTypesUnsupportedPoints then
      return (entry, { columns with decodable := false })
    else do
      let (timestamps, columns) := columns.takeTimestamps pointCount
      let (values, columns) ← columns.takeValues floats valueType pointCount
      let points := (timestamps.zip values).map fun p => ⟨p.2, Json.intText p.1⟩
      return ({ entry with points := if points = [] then none else some points }, columns)
  else return (entry, columns)

/-- The series from an index on. -/
def decodeSeries (header : Header) : Nat → Nat → PointColumns F →
    Except Raised (List (Entry F) × PointColumns F)
  | 0, _, columns => .ok ([], columns)
  | n + 1, i, columns => do
      let (entry, columns) ← decodePoints floats (header.entry i) columns
      let (rest, columns) ← decodeSeries header n (i + 1) columns
      return (entry :: rest, columns)

/-- The series of a message, and the columns with the cursors at the end. -/
def decodeColumns (metricData : MetricData F) :
    Except Raised (List (Entry F) × PointColumns F) := do
  let header ← Header.ofMetricData metricData
  decodeSeries floats header header.seriesCount 0 (.ofMetricData metricData)

/-- `_decode_metric_data` -/
def decodeMetricData (metricData : MetricData F) : Except Raised (List (Entry F)) :=
  Prod.fst <$> decodeColumns floats metricData

variable (fromString : List UInt8 → Except Raised (List (MetricData F)))

/-- `_decode_payload` -/
def decodePayload (content : List UInt8) : Except Raised (List (Entry F)) := do
  let payload ← fromString content
  Raised.flatMapM (decodeMetricData floats) payload

/-- A dictionary with the entries under a key, unless there are none. -/
def under (key : Str) (entries : List (Entry F)) : Dict Str (List (Entry F)) :=
  if entries = [] then .empty else Dict.empty.set key entries

def decodeMetricsV3 (content : List UInt8) : Except Raised (Dict Str (List (Entry F))) :=
  under "series" <$> decodePayload floats fromString content

def decodeSketchesV3 (content : List UInt8) : Except Raised (Dict Str (List (Entry F))) :=
  under "sketches" <$> decodePayload floats fromString content

end Series

end MetricsV3
end Proxy
end SystemTests
