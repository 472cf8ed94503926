import SystemTests.Proxy.MetricsV3

/-!
# Blocks of series, and their columns

A block is what one `MetricData` stands for: dictionaries, and series that refer to them.
`Block.columns` writes it as the wire layout has it.  `Block.entries` is what the decoder
returns of it.

The points are written series by series, each to the columns of its type.

**Results.**
* `ValueType.code_ofType`: the value types are all that the bits of a type can say.
* `Written.Balanced.append`, `Written.Balanced.flat`: the columns of the bins keep step.
-/

namespace SystemTests
namespace Proxy
namespace MetricsV3

open Foundation Foundation.Text Foundation.Columns

/-- What is written to the columns of the points, the timestamps before their deltas. -/
structure Written (F : Type) where
  timestamps : List Int := []
  valsSint64 : List Int := []
  valsFloat32 : List F := []
  valsFloat64 : List F := []
  sketchNumBins : List Nat := []
  sketchBinKeys : List Int := []
  sketchBinCnts : List Nat := []

namespace Written

variable {F : Type}

def nil : Written F := {}

def append (w w' : Written F) : Written F where
  timestamps := w.timestamps ++ w'.timestamps
  valsSint64 := w.valsSint64 ++ w'.valsSint64
  valsFloat32 := w.valsFloat32 ++ w'.valsFloat32
  valsFloat64 := w.valsFloat64 ++ w'.valsFloat64
  sketchNumBins := w.sketchNumBins ++ w'.sketchNumBins
  sketchBinKeys := w.sketchBinKeys ++ w'.sketchBinKeys
  sketchBinCnts := w.sketchBinCnts ++ w'.sketchBinCnts

instance instAppend : Append (Written F) := ⟨append⟩

theorem append_eq (w w' : Written F) : w ++ w' = w.append w' := rfl

@[simp] theorem nil_append (w : Written F) : nil ++ w = w := rfl

@[simp] theorem append_nil (w : Written F) : w ++ nil = w := by
  simp [append_eq, append, nil]

@[simp] theorem append_assoc (w w' w'' : Written F) : w ++ w' ++ w'' = w ++ (w' ++ w'') := by
  simp [append_eq, append]

def flat (ws : List (Written F)) : Written F := ws.foldr (· ++ ·) nil

@[simp] theorem flat_nil : flat ([] : List (Written F)) = nil := rfl

@[simp] theorem flat_cons (w : Written F) (ws : List (Written F)) :
    flat (w :: ws) = w ++ flat ws := rfl

/-- Every bin has a key and a count. -/
def Balanced (w : Written F) : Prop := w.sketchBinCnts.length = w.sketchBinKeys.length

theorem Balanced.append {w w' : Written F} (h : w.Balanced) (h' : w'.Balanced) :
    (w ++ w').Balanced := by
  show (w.sketchBinCnts ++ w'.sketchBinCnts).length = (w.sketchBinKeys ++ w'.sketchBinKeys).length
  rw [List.length_append, List.length_append, h, h']

theorem Balanced.flat {ws : List (Written F)} (h : ∀ w ∈ ws, w.Balanced) : (flat ws).Balanced := by
  induction ws with
  | nil => rfl
  | cons w ws ih =>
      exact (h w List.mem_cons_self).append (ih fun w' hw' => h w' (List.mem_cons_of_mem w hw'))

end Written

section Series

/-- Where the values of a series are stored. -/
inductive ValueType where
  | zero
  | sint64
  | float32
  | float64
deriving DecidableEq

def ValueType.code : ValueType → Nat
  | .zero => valueTypeZero
  | .sint64 => valueTypeSint64
  | .float32 => valueTypeFloat32
  | .float64 => valueTypeFloat64

def ValueType.ofType (type : Nat) : ValueType :=
  if type &&& valueTypeMask = valueTypeZero then .zero
  else if type &&& valueTypeMask = valueTypeSint64 then .sint64
  else if type &&& valueTypeMask = valueTypeFloat32 then .float32
  else .float64

theorem and_valueTypeMask_mem (type : Nat) :
    type &&& valueTypeMask ∈ [valueTypeZero, valueTypeSint64, valueTypeFloat32, valueTypeFloat64] := by
  have hsmall : ∀ n < 64, n &&& valueTypeMask ∈
      [valueTypeZero, valueTypeSint64, valueTypeFloat32, valueTypeFloat64] := by decide
  have hmod : type &&& valueTypeMask = type % 2 ^ 6 &&& valueTypeMask := by
    rw [← Nat.and_two_pow_sub_one_eq_mod, Nat.and_assoc]
    rfl
  rw [hmod]
  exact hsmall _ (Nat.mod_lt type (by decide))

theorem ValueType.code_ofType (type : Nat) :
    (ValueType.ofType type).code = type &&& valueTypeMask := by
  have hmem := and_valueTypeMask_mem type
  simp only [List.mem_cons, List.not_mem_nil, or_false] at hmem
  rcases hmem with h | h | h | h <;> rw [ValueType.ofType, h] <;> rfl

/-- What is stored of a value. -/
def Stored (F : Type) : ValueType → Type
  | .zero => Unit
  | .sint64 => Int
  | .float32 => F
  | .float64 => F

structure SketchPoint (F : Type) (vt : ValueType) where
  ts : Int
  bins : List (Int × Nat)
  sum : Stored F vt
  min : Stored F vt
  max : Stored F vt
  cnt : Nat
  cnt_lt : cnt < 2 ^ 53

/-- Points in a layout that the decoder does not know. -/
structure OtherPoints (F : Type) where
  count : Nat
  written : Written F
  written_eq : count = 0 → written = .nil

inductive Content (F : Type) (vt : ValueType) where
  | points (points : List (Int × Stored F vt))
  | sketches (points : List (SketchPoint F vt))
  | other (points : OtherPoints F)

inductive Kind where
  | points
  | sketches
  | other
deriving DecidableEq

def Kind.ofType (type : Nat) : Kind :=
  if type &&& metricTypeMask = metricTypeSketch then .sketches
  else if type &&& metricTypeMask ∈ metricTypesUnsupportedPoints then .other
  else .points

namespace Content

variable {F : Type} {vt : ValueType}

def kind : Content F vt → Kind
  | points _ => .points
  | sketches _ => .sketches
  | other _ => .other

def count : Content F vt → Nat
  | points ps => ps.length
  | sketches ps => ps.length
  | other o => o.count

end Content

/-- A series; its type says where its points are. -/
structure Series (F : Type) where
  nameRef : Nat
  tagsRef : Nat
  type : Nat
  interval : Nat
  content : Content F (ValueType.ofType type)
  kind_eq : content.kind = Kind.ofType type

/-- An element of a tagset: a tag, or all of an earlier tagset. -/
inductive TagRef where
  | tag (k : Nat)
  | inherit (k : Nat)

structure Block (F : Type) where
  names : List Str
  tagStrings : List Str
  tagsets : List (List TagRef)
  series : List (Series F)
  unread : UnreadColumns := {}

end Series

section Columns

variable {F : Type}

def stringDict (strings : List Str) : List UInt8 :=
  strings.flatMap fun s => uvarint (Utf8.encode s).length ++ Utf8.encode s

def TagRef.index : TagRef → Int
  | .tag k => (k + 1 : Nat)
  | .inherit k => -(k + 1 : Nat)

def tagsetColumn (tagsets : List (List TagRef)) : List Int :=
  tagsets.flatMap fun refs => (refs.length : Int) :: deltas (refs.map TagRef.index)

def stamps (ts : List Int) : Written F := { timestamps := ts }

def values : (vt : ValueType) → List (Stored F vt) → Written F
  | .zero, _ => {}
  | .sint64, vs => { valsSint64 := vs }
  | .float32, vs => { valsFloat32 := vs }
  | .float64, vs => { valsFloat64 := vs }

def binColumns (bins : List (Int × Nat)) : Written F where
  sketchNumBins := [bins.length]
  sketchBinKeys := deltas (bins.map Prod.fst)
  sketchBinCnts := bins.map Prod.snd

def SketchPoint.storedCnt {vt : ValueType} (p : SketchPoint F vt) : Stored F .sint64 := Int.ofNat p.cnt

/-- `sum`, `min` and `max` in their column, then `cnt`. -/
def SketchPoint.values {vt : ValueType} (p : SketchPoint F vt) : Written F :=
  MetricsV3.values vt [p.sum, p.min, p.max] ++ MetricsV3.values .sint64 [p.storedCnt]

def Content.written {vt : ValueType} : Content F vt → Written F
  | .points ps => stamps (ps.map Prod.fst) ++ values vt (ps.map Prod.snd)
  | .sketches ps =>
      stamps (ps.map SketchPoint.ts) ++ (.flat ((ps.map SketchPoint.bins).map binColumns) ++
        .flat (ps.map SketchPoint.values))
  | .other o => o.written

def Block.written (b : Block F) : Written F := .flat (b.series.map fun s => s.content.written)

/-- The columns of a block. -/
def Block.columns (b : Block F) : MetricData F where
  dictNameStr := stringDict b.names
  dictTagStr := stringDict b.tagStrings
  dictTagsets := tagsetColumn b.tagsets
  types := b.series.map Series.type
  nameRefs := deltas (b.series.map fun s => (s.nameRef : Int))
  tagsetRefs := deltas (b.series.map fun s => (s.tagsRef : Int))
  intervals := b.series.map Series.interval
  numPoints := b.series.map fun s => s.content.count
  timestamps := deltas b.written.timestamps
  valsSint64 := b.written.valsSint64
  valsFloat32 := b.written.valsFloat32
  valsFloat64 := b.written.valsFloat64
  sketchNumBins := b.written.sketchNumBins
  sketchBinKeys := b.written.sketchBinKeys
  sketchBinCnts := b.written.sketchBinCnts
  unread := b.unread

end Columns

section Meaning

variable {F : Type} (floats : Floats F)

/-- Integers below `2 ^ 53` are represented exactly. -/
structure Floats.Documented : Prop where
  toInt_ofInt : ∀ n : Nat, n < 2 ^ 53 → floats.toInt (floats.ofInt n) = n
  isNonzero_ofInt : ∀ n : Nat, n < 2 ^ 53 → (floats.isNonzero (floats.ofInt n) = true ↔ n ≠ 0)

/-- The entry that a reference stands for. -/
def referred {α : Type} (dict : List α) : Nat → Option α
  | 0 => none
  | k + 1 => dict[k]?

def TagRef.texts (tagStrings : List Str) (earlier : List (List Str)) : TagRef → List Str
  | .tag k => tagStrings[k]?.toList
  | .inherit k => earlier[k]?.getD []

/-- The tags of the tagsets, one after the other. -/
def Block.tagsetTexts (b : Block F) : List (List Str) :=
  b.tagsets.foldl (fun earlier refs => earlier ++ [refs.flatMap (TagRef.texts b.tagStrings earlier)]) []

def loadValue : (vt : ValueType) → Stored F vt → F
  | .zero, _ => floats.zero
  | .sint64, v => floats.ofInt v
  | .float32, v => v
  | .float64, v => v

def SketchPoint.dogSketch {vt : ValueType} (p : SketchPoint F vt) : DogSketch F where
  ts := Json.intText p.ts
  cnt := Json.intText p.cnt
  min := loadValue floats vt p.min
  max := loadValue floats vt p.max
  avg :=
    if p.cnt = 0 then floats.zero
    else floats.divide (loadValue floats vt p.sum) (floats.ofInt p.cnt)
  sum := loadValue floats vt p.sum
  k := p.bins.map Prod.fst
  n := p.bins.map Prod.snd

/-- A key is left out when there is nothing under it. -/
def nonempty {α : Type} : List α → Option (List α)
  | [] => none
  | a :: l => some (a :: l)

def Content.dogSketches {vt : ValueType} : Content F vt → Option (List (DogSketch F))
  | .sketches ps => nonempty (ps.map (SketchPoint.dogSketch floats))
  | _ => none

def Content.readPoints {vt : ValueType} : Content F vt → Option (List (Point F))
  | .points ps => nonempty (ps.map fun p => ⟨loadValue floats vt p.2, Json.intText p.1⟩)
  | _ => none

/-- The entry of a series without its points. -/
def Block.bareEntry (b : Block F) (s : Series F) : Entry F where
  metric := (referred b.names s.nameRef).getD []
  tags := (referred b.tagsetTexts s.tagsRef).getD []
  type := some s.type
  interval := some s.interval
  numPoints := some s.content.count

def Block.entry (b : Block F) (s : Series F) : Entry F :=
  { b.bareEntry s with
    dogsketches := s.content.dogSketches floats
    points := s.content.readPoints floats }

/-- The points of a series can be decoded, or it has none. -/
def Series.isDecodable (s : Series F) : Bool := s.content.kind ≠ .other || s.content.count = 0

/-- The entries of series: no points from the first series on whose points cannot be decoded. -/
def Block.entriesOf (b : Block F) (series : List (Series F)) : List (Entry F) :=
  (series.takeWhile Series.isDecodable).map (b.entry floats) ++
    (series.dropWhile Series.isDecodable).map b.bareEntry

/-- What the decoder returns of a block. -/
def Block.entries (b : Block F) : List (Entry F) := b.entriesOf floats b.series

end Meaning

end MetricsV3
end Proxy
end SystemTests
