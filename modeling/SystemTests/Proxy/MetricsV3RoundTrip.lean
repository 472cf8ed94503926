import Mathlib.Data.Rat.Defs
import SystemTests.Proxy.MetricsV3Blocks

/-!
# What the decoder makes of the columns of blocks

A reader of the columns of the points stands between what was written before and what
is still to be read; every take moves it over what it returns.  So the points of a series
are read where they were written, for as long as the decoder knows what to take.

**Results.**
* `decodeStringDict_stringDict`, `map_resolvedTagsets`: the dictionaries are read back.
* `takeTimestamps_place`, `takeValues_place`, `takeSketchBins_place`: what the takes return.
* `decodePoints_place`: a series is read back, and the reader stands after it.
* `decodeSeries_place`: the series of a block, up to the end of the columns.
* `decode_blocks`: the blocks of a payload are read back, each from its own columns.
* `not_entry_after_undecodable`: no points after a series whose points cannot be decoded.
-/

namespace SystemTests
namespace Proxy
namespace MetricsV3

open Foundation Foundation.Text Foundation.Columns

section Dictionaries

theorem decodeStringDictGo_stringDict :
    ∀ (strings : List Str) (k : Nat), (stringDict strings).length ≤ k →
      decodeStringDictGo k (stringDict strings) = .ok strings
  | [], 0, _ => rfl
  | [], _ + 1, _ => rfl
  | s :: strings, k, hk => by
      have hread := readUvarint_uvarint (Utf8.encode s).length (Utf8.encode s ++ stringDict strings)
      have hsplit : stringDict (s :: strings) =
          uvarint (Utf8.encode s).length ++ (Utf8.encode s ++ stringDict strings) := by
        rw [stringDict, List.flatMap_cons, List.append_assoc, stringDict]
      rw [← hsplit] at hread
      have hshort := length_readUvarintGo_lt hread
      rw [List.length_append] at hshort
      obtain ⟨k, rfl⟩ : ∃ m, k = m + 1 := ⟨k - 1, by omega⟩
      cases hblob : stringDict (s :: strings) with
      | nil =>
          rw [hblob] at hshort
          exact absurd hshort (Nat.not_lt_zero _)
      | cons b blob =>
          rw [hblob] at hread
          have hrest := decodeStringDictGo_stringDict strings k (by omega)
          have htext : decodeText (Utf8.encode s) = s := by
            rw [decodeText, Utf8.decode_encode, Option.getD_some]
          rw [decodeStringDictGo, hread, Raised.ofOption_some, Raised.ok_bind]
          simp only [List.drop_left, List.take_left, hrest, Raised.ok_bind, htext]
          rfl

theorem decodeStringDict_stringDict (strings : List Str) :
    decodeStringDict (stringDict strings) = .ok strings :=
  decodeStringDictGo_stringDict strings _ le_rfl

theorem readIndexes_deltasFrom (rest : List Int) (prev : Int) (indexes : List Int) :
    readIndexes indexes.length prev (deltasFrom prev indexes ++ rest) = .ok (indexes, rest) := by
  induction indexes generalizing prev with
  | nil => rfl
  | cons i indexes ih =>
      rw [List.length_cons, deltasFrom, List.cons_append, readIndexes, add_sub_cancel, ih i]
      rfl

/-- The indexes of the tags of the tagsets. -/
def resolvedTagsets (earlier : List (List Int)) (tagsets : List (List TagRef)) : List (List Int) :=
  tagsets.foldl
    (fun earlier refs => earlier ++ [(refs.map TagRef.index).flatMap (resolveIndex earlier)]) earlier

theorem decodeTagsetsGo_tagsetColumn :
    ∀ (tagsets : List (List TagRef)) (earlier : List (List Int)) (k : Nat),
      (tagsetColumn tagsets).length ≤ k →
        decodeTagsetsGo k earlier (tagsetColumn tagsets) = .ok (resolvedTagsets earlier tagsets)
  | [], _, 0, _ => rfl
  | [], _, _ + 1, _ => rfl
  | refs :: tagsets, earlier, k, hk => by
      have hsplit : tagsetColumn (refs :: tagsets) =
          (refs.length : Int) :: (deltas (refs.map TagRef.index) ++ tagsetColumn tagsets) := by
        rw [tagsetColumn, List.flatMap_cons, List.cons_append, tagsetColumn]
      have hread := readIndexes_deltasFrom (tagsetColumn tagsets) 0 (refs.map TagRef.index)
      rw [List.length_map] at hread
      rw [hsplit, List.length_cons, List.length_append] at hk
      obtain ⟨k, rfl⟩ : ∃ m, k = m + 1 := ⟨k - 1, by omega⟩
      rw [hsplit, decodeTagsetsGo, Int.toNat_natCast, deltas, hread, Raised.ok_bind]
      exact decodeTagsetsGo_tagsetColumn tagsets _ k (by omega)

theorem decodeTagsets_tagsetColumn (tagsets : List (List TagRef)) :
    decodeTagsets (tagsetColumn tagsets) = .ok (resolvedTagsets [] tagsets) :=
  decodeTagsetsGo_tagsetColumn tagsets [] _ le_rfl

theorem filterMap_resolveIndex (tagStrings : List Str) (earlier : List (List Int)) (ref : TagRef) :
    (resolveIndex earlier ref.index).filterMap (entryAt tagStrings) =
      ref.texts tagStrings (earlier.map (List.filterMap (entryAt tagStrings))) := by
  cases ref with
  | tag k =>
      have hpos : ¬ TagRef.index (.tag k) < 0 := by
        rw [TagRef.index]
        omega
      have hpos' : 0 < TagRef.index (.tag k) := by
        rw [TagRef.index]
        omega
      rw [resolveIndex, if_neg hpos, if_pos hpos', TagRef.index, List.filterMap_cons,
        entryAt_succ, TagRef.texts]
      cases tagStrings[k]? <;> rfl
  | inherit k =>
      have hneg : TagRef.index (.inherit k) < 0 := by
        rw [TagRef.index]
        omega
      rw [resolveIndex, if_pos hneg, TagRef.index, neg_neg, entryAt_succ, TagRef.texts,
        List.getElem?_map]
      cases earlier[k]? <;> rfl

/-- The tags behind the resolved indexes are the tags that the references stand for. -/
theorem map_resolvedTagsets (tagStrings : List Str) (tagsets : List (List TagRef))
    (earlier : List (List Int)) :
    (resolvedTagsets earlier tagsets).map (List.filterMap (entryAt tagStrings)) =
      tagsets.foldl (fun earlier refs => earlier ++ [refs.flatMap (TagRef.texts tagStrings earlier)])
        (earlier.map (List.filterMap (entryAt tagStrings))) := by
  induction tagsets generalizing earlier with
  | nil => rfl
  | cons refs tagsets ih =>
      have hrefs : ((refs.map TagRef.index).flatMap (resolveIndex earlier)).filterMap
          (entryAt tagStrings) = refs.flatMap
            (TagRef.texts tagStrings (earlier.map (List.filterMap (entryAt tagStrings)))) := by
        rw [List.flatMap_map, List.filterMap_flatMap]
        simp only [filterMap_resolveIndex]
      rw [List.foldl_cons, resolvedTagsets, List.foldl_cons, ← resolvedTagsets, ih,
        List.map_append, List.map_cons, hrefs, List.map_nil]

theorem entryAt_eq_referred {α : Type} (dict : List α) (ref : Nat) :
    entryAt dict ref = referred dict ref := by
  cases ref with
  | zero => exact entryAt_zero dict
  | succ k => exact entryAt_succ dict k

end Dictionaries

section Reader

variable {F : Type} (floats : Floats F)

/-- The columns of a reader that stands between what was written before and after. -/
def place (before after : Written F) : PointColumns F where
  timestamps := before.timestamps ++ after.timestamps
  valsSint64 := before.valsSint64 ++ after.valsSint64
  valsFloat32 := before.valsFloat32 ++ after.valsFloat32
  valsFloat64 := before.valsFloat64 ++ after.valsFloat64
  sketchNumBins := before.sketchNumBins ++ after.sketchNumBins
  sketchBinKeys := before.sketchBinKeys ++ after.sketchBinKeys
  sketchBinCounts := before.sketchBinCnts ++ after.sketchBinCnts
  timestampCursor := before.timestamps.length
  sint64Cursor := before.valsSint64.length
  float32Cursor := before.valsFloat32.length
  float64Cursor := before.valsFloat64.length
  sketchPointCursor := before.sketchNumBins.length
  sketchBinCursor := before.sketchBinKeys.length

theorem slice_append {α : Type} (l m r : List α) :
    PointColumns.slice (l ++ (m ++ r)) l.length m.length = m := by
  rw [PointColumns.slice, List.drop_left, List.take_left]

theorem takeTimestamps_place (before after : Written F) (ts : List Int) :
    (place before (stamps ts ++ after)).takeTimestamps ts.length =
      (ts, place (before ++ stamps ts) after) := by
  simp [PointColumns.takeTimestamps, place, stamps, Written.append_eq, Written.append, slice_append]

theorem takeValues_place (before after : Written F) (vt : ValueType) (vs : List (Stored F vt)) :
    (place before (values vt vs ++ after)).takeValues floats vt.code vs.length =
      .ok (vs.map (loadValue floats vt), place (before ++ values vt vs) after) := by
  cases vt with
  | zero =>
      have hload : vs.map (loadValue floats .zero) = List.replicate vs.length floats.zero :=
        List.map_const'
      simp [PointColumns.takeValues, ValueType.code, valueTypeZero, values, place,
        Written.append_eq, Written.append, hload]
  | sint64 =>
      have htake : ∀ vs : List Int,
          (place before (({ valsSint64 := vs } : Written F) ++ after)).takeValues floats
              valueTypeSint64 vs.length =
            .ok (vs.map floats.ofInt, place (before ++ { valsSint64 := vs }) after) := by
        intro vs
        simp [PointColumns.takeValues, valueTypeZero, valueTypeSint64, place, Written.append_eq,
          Written.append, slice_append]
      exact htake vs
  | float32 =>
      have htake : ∀ vs : List F,
          (place before (({ valsFloat32 := vs } : Written F) ++ after)).takeValues floats
              valueTypeFloat32 vs.length =
            .ok (vs.map id, place (before ++ { valsFloat32 := vs }) after) := by
        intro vs
        simp [PointColumns.takeValues, valueTypeZero, valueTypeSint64, valueTypeFloat32, place,
          Written.append_eq, Written.append, slice_append]
      exact htake vs
  | float64 =>
      have htake : ∀ vs : List F,
          (place before (({ valsFloat64 := vs } : Written F) ++ after)).takeValues floats
              valueTypeFloat64 vs.length =
            .ok (vs.map id, place (before ++ { valsFloat64 := vs }) after) := by
        intro vs
        simp [PointColumns.takeValues, valueTypeZero, valueTypeSint64, valueTypeFloat32,
          valueTypeFloat64, place, Written.append_eq, Written.append, slice_append]
      exact htake vs

theorem takeSketchBins_place {before : Written F} (hbefore : before.Balanced) (after : Written F)
    (bins : List (Int × Nat)) :
    (place before (binColumns bins ++ after)).takeSketchBins =
      .ok ((bins.map Prod.fst, bins.map Prod.snd), place (before ++ binColumns bins) after) := by
  have hkeys := slice_append before.sketchBinKeys (deltas (bins.map Prod.fst)) after.sketchBinKeys
  have hcounts := slice_append before.sketchBinCnts (bins.map Prod.snd) after.sketchBinCnts
  rw [length_deltas, List.length_map] at hkeys
  rw [hbefore, List.length_map] at hcounts
  simp [PointColumns.takeSketchBins, place, binColumns, Written.append_eq, Written.append, hkeys,
    hcounts, accumulate_deltas]

theorem balanced_binColumns (bins : List (Int × Nat)) : (binColumns bins : Written F).Balanced := by
  simp [Written.Balanced, binColumns]

theorem balanced_values (vt : ValueType) (vs : List (Stored F vt)) : (values vt vs).Balanced := by
  cases vt <;> rfl

theorem SketchPoint.balanced_values {vt : ValueType} (p : SketchPoint F vt) : p.values.Balanced :=
  (MetricsV3.balanced_values _ _).append (MetricsV3.balanced_values _ _)

theorem takeAllBins_place :
    ∀ {before : Written F}, before.Balanced → ∀ (after : Written F) (bins : List (List (Int × Nat))),
      (place before (.flat (bins.map binColumns) ++ after)).takeAllBins bins.length =
        .ok (bins.map fun b => (b.map Prod.fst, b.map Prod.snd),
          place (before ++ .flat (bins.map binColumns)) after)
  | before, _, after, [] => by
      rw [List.map_nil, Written.flat_nil, Written.nil_append, Written.append_nil]
      rfl
  | before, hbefore, after, b :: bins => by
      have hnext := takeAllBins_place (hbefore.append (balanced_binColumns b)) after bins
      rw [List.map_cons, Written.flat_cons, Written.append_assoc, List.length_cons,
        PointColumns.takeAllBins, takeSketchBins_place hbefore, Raised.ok_bind]
      simp only [hnext, Raised.ok_bind, Written.append_assoc]
      rfl

variable {floats} in
theorem readSketches_place (hfloats : floats.Documented) {vt : ValueType} :
    ∀ (before after : Written F) (ps : List (SketchPoint F vt)),
      readSketches floats vt.code (ps.map fun p => (p.ts, p.bins.map Prod.fst, p.bins.map Prod.snd))
          (place before (.flat (ps.map SketchPoint.values) ++ after)) =
        .ok (ps.map (SketchPoint.dogSketch floats),
          place (before ++ .flat (ps.map SketchPoint.values)) after)
  | before, after, [] => by
      rw [List.map_nil, List.map_nil, Written.flat_nil, Written.nil_append, Written.append_nil]
      rfl
  | before, after, p :: ps => by
      -- three values from the column of the series, then the count
      have hthree : (place before (p.values ++ (.flat (ps.map SketchPoint.values) ++ after))).takeValues
            floats vt.code 3 =
          .ok ([loadValue floats vt p.sum, loadValue floats vt p.min, loadValue floats vt p.max],
            place (before ++ values vt [p.sum, p.min, p.max])
              (values .sint64 [p.storedCnt] ++ (.flat (ps.map SketchPoint.values) ++ after))) := by
        rw [SketchPoint.values, Written.append_assoc]
        exact takeValues_place floats before _ vt [p.sum, p.min, p.max]
      have hone : (place (before ++ values vt [p.sum, p.min, p.max])
            (values .sint64 [p.storedCnt] ++ (.flat (ps.map SketchPoint.values) ++ after))).takeValues
              floats valueTypeSint64 1 =
          .ok ([floats.ofInt p.cnt],
            place (before ++ p.values) (.flat (ps.map SketchPoint.values) ++ after)) := by
        rw [SketchPoint.values, ← Written.append_assoc before]
        exact takeValues_place floats _ _ .sint64 [p.storedCnt]
      have hrest := readSketches_place hfloats (before ++ p.values) after ps
      rw [List.map_cons, List.map_cons, Written.flat_cons, Written.append_assoc, readSketches,
        hthree, Raised.ok_bind]
      simp only [hone, Raised.ok_bind, hrest, Written.append_assoc]
      have hpoint : p.dogSketch floats = {
          ts := Json.intText p.ts
          cnt := Json.intText (floats.toInt (floats.ofInt p.cnt))
          min := loadValue floats vt p.min
          max := loadValue floats vt p.max
          avg :=
            if floats.isNonzero (floats.ofInt p.cnt) then
              floats.divide (loadValue floats vt p.sum) (floats.ofInt p.cnt)
            else floats.zero
          sum := loadValue floats vt p.sum
          k := p.bins.map Prod.fst
          n := p.bins.map Prod.snd } := by
        rw [SketchPoint.dogSketch, hfloats.toInt_ofInt p.cnt p.cnt_lt]
        simp only [hfloats.isNonzero_ofInt p.cnt p.cnt_lt, ite_not]
      rw [List.map_cons, hpoint]
      rfl

theorem balanced_stamps (ts : List Int) : (stamps ts : Written F).Balanced := rfl

variable {floats} in
theorem decodeSketchPoints_place (hfloats : floats.Documented) {before : Written F}
    (hbefore : before.Balanced) (after : Written F) {vt : ValueType} (ps : List (SketchPoint F vt)) :
    decodeSketchPoints floats (place before ((Content.sketches ps).written ++ after)) ps.length vt.code =
      .ok (ps.map (SketchPoint.dogSketch floats),
        place (before ++ (Content.sketches ps).written) after) := by
  have hstamps := takeTimestamps_place before
    (.flat ((ps.map SketchPoint.bins).map binColumns) ++ (.flat (ps.map SketchPoint.values) ++ after))
    (ps.map SketchPoint.ts)
  have hbins := takeAllBins_place (hbefore.append (balanced_stamps (ps.map SketchPoint.ts)))
    (.flat (ps.map SketchPoint.values) ++ after) (ps.map SketchPoint.bins)
  have hsketches := readSketches_place hfloats
    (before ++ stamps (ps.map SketchPoint.ts) ++
      Written.flat ((ps.map SketchPoint.bins).map binColumns))
    after ps
  rw [List.length_map] at hstamps hbins
  have hzip : (ps.map SketchPoint.ts).zip
      ((ps.map SketchPoint.bins).map fun b => (b.map Prod.fst, b.map Prod.snd)) =
        ps.map fun p => (p.ts, p.bins.map Prod.fst, p.bins.map Prod.snd) := by
    rw [List.map_map, List.zip_map']
    rfl
  rw [Content.written, Written.append_assoc, Written.append_assoc, decodeSketchPoints, hstamps]
  simp only [hbins, Raised.ok_bind, hzip]
  rw [hsketches]
  simp only [Written.append_assoc]

theorem Kind.ofType_eq_sketches_iff (type : Nat) :
    Kind.ofType type = .sketches ↔ type &&& metricTypeMask = metricTypeSketch := by
  rw [Kind.ofType]
  split_ifs with h h' <;> simp [h]

theorem Kind.ofType_eq_other_iff (type : Nat) :
    Kind.ofType type = .other ↔ type &&& metricTypeMask ∈ metricTypesUnsupportedPoints := by
  rw [Kind.ofType]
  split_ifs with h h'
  · rw [h]
    decide
  · simp [h']
  · simp [h']

theorem Content.written_of_count_eq_zero {vt : ValueType} {c : Content F vt} (h : c.count = 0) :
    c.written = .nil := by
  cases c with
  | points ps =>
      obtain rfl := List.eq_nil_of_length_eq_zero h
      cases vt <;> rfl
  | sketches ps =>
      obtain rfl := List.eq_nil_of_length_eq_zero h
      rfl
  | other o => exact o.written_eq h

theorem Content.readPoints_of_count_eq_zero {vt : ValueType} {c : Content F vt} (h : c.count = 0) :
    c.readPoints floats = none := by
  cases c with
  | points ps =>
      obtain rfl := List.eq_nil_of_length_eq_zero h
      rfl
  | sketches ps => rfl
  | other o => rfl

theorem Content.dogSketches_of_count_eq_zero {vt : ValueType} {c : Content F vt}
    (h : c.count = 0) : c.dogSketches floats = none := by
  cases c with
  | points ps => rfl
  | sketches ps =>
      obtain rfl := List.eq_nil_of_length_eq_zero h
      rfl
  | other o => rfl

theorem nonempty_of_ne_nil {α : Type} {l : List α} (h : l ≠ []) : nonempty l = some l := by
  cases l with
  | nil => exact absurd rfl h
  | cons a l => rfl

variable {floats} in
/-- **A series is read back**, and the reader stands after it. -/
theorem decodePoints_place (hfloats : floats.Documented) {before : Written F}
    (hbefore : before.Balanced) (after : Written F) (b : Block F) {s : Series F}
    (hs : s.isDecodable = true) :
    decodePoints floats (b.bareEntry s) (place before (s.content.written ++ after)) =
      .ok (b.entry floats s, place (before ++ s.content.written) after) := by
  have hkind := s.kind_eq
  by_cases hcount : s.content.count = 0
  · rw [decodePoints, Block.entry, Content.written_of_count_eq_zero hcount,
      Content.readPoints_of_count_eq_zero floats hcount,
      Content.dogSketches_of_count_eq_zero floats hcount]
    simp [Block.bareEntry, hcount]
  · have hon : (b.bareEntry s).numPoints.getD 0 ≠ 0 ∧
        (place before (s.content.written ++ after)).decodable = true := ⟨hcount, rfl⟩
    have hmetric : (b.bareEntry s).type.getD 0 &&& metricTypeMask = s.type &&& metricTypeMask := rfl
    have hvalue : (b.bareEntry s).type.getD 0 &&& valueTypeMask = (ValueType.ofType s.type).code :=
      (ValueType.code_ofType s.type).symm
    have hnumPoints : (b.bareEntry s).numPoints.getD 0 = s.content.count := rfl
    rw [decodePoints, if_pos hon]
    simp only [hmetric, hvalue, hnumPoints]
    rw [Block.entry]
    cases hcontent : s.content with
    | points ps =>
        rw [hcontent, Content.kind] at hkind
        rw [hcontent] at hcount
        have hsketch : ¬ s.type &&& metricTypeMask = metricTypeSketch := by
          rw [← Kind.ofType_eq_sketches_iff, ← hkind]
          decide
        have hother : s.type &&& metricTypeMask ∉ metricTypesUnsupportedPoints := by
          rw [← Kind.ofType_eq_other_iff, ← hkind]
          decide
        have hne : ps ≠ [] := fun h => hcount (congrArg List.length h)
        have hstamps := takeTimestamps_place before
          (values (ValueType.ofType s.type) (ps.map Prod.snd) ++ after) (ps.map Prod.fst)
        have hvalues := takeValues_place floats (before ++ stamps (ps.map Prod.fst)) after
          (ValueType.ofType s.type) (ps.map Prod.snd)
        rw [List.length_map] at hstamps hvalues
        have hzip : (ps.map Prod.fst).zip
            ((ps.map Prod.snd).map (loadValue floats (ValueType.ofType s.type))) =
              ps.map fun p => (p.1, loadValue floats (ValueType.ofType s.type) p.2) := by
          rw [List.map_map, List.zip_map']
          rfl
        rw [if_neg hsketch, if_neg hother, Content.written, Written.append_assoc, Content.count,
          hstamps]
        simp only [hvalues, Raised.ok_bind, hzip]
        simp only [List.map_map, List.map_eq_nil_iff, if_neg hne]
        rw [Content.readPoints, nonempty_of_ne_nil (by rwa [Ne, List.map_eq_nil_iff]),
          Written.append_assoc]
        rfl
    | sketches ps =>
        rw [hcontent, Content.kind] at hkind
        rw [hcontent] at hcount
        have hsketch := (Kind.ofType_eq_sketches_iff s.type).mp hkind.symm
        have hne : ps ≠ [] := fun h => hcount (congrArg List.length h)
        rw [if_pos hsketch, Content.count, decodeSketchPoints_place hfloats hbefore,
          Content.dogSketches, nonempty_of_ne_nil (by rwa [Ne, List.map_eq_nil_iff])]
        rfl
    | other o =>
        rw [Series.isDecodable, hcontent] at hs
        rw [hcontent] at hcount
        simp [Content.kind, hcount] at hs

end Reader

section Runs

variable {F : Type} (floats : Floats F)

theorem Content.balanced_written {vt : ValueType} {c : Content F vt}
    (h : c.kind ≠ .other ∨ c.count = 0) : c.written.Balanced := by
  cases c with
  | points ps => exact (balanced_stamps _).append (balanced_values vt _)
  | sketches ps =>
      have hbins : ∀ w ∈ (ps.map SketchPoint.bins).map (binColumns (F := F)), w.Balanced :=
        List.forall_mem_map.mpr fun bins _ => balanced_binColumns bins
      have hvalues : ∀ w ∈ ps.map SketchPoint.values, w.Balanced :=
        List.forall_mem_map.mpr fun p _ => p.balanced_values
      exact (balanced_stamps _).append ((Written.Balanced.flat hbins).append (.flat hvalues))
  | other o =>
      have hcount : o.count = 0 := h.resolve_left fun hne => hne rfl
      rw [Content.written, o.written_eq hcount]
      rfl

theorem Series.balanced_written {s : Series F} (h : s.isDecodable = true) :
    s.content.written.Balanced := by
  rw [Series.isDecodable, Bool.or_eq_true, decide_eq_true_iff, decide_eq_true_iff] at h
  exact Content.balanced_written h

theorem decodePoints_of_not_decodable (entry : Entry F) {columns : PointColumns F}
    (h : columns.decodable = false) : decodePoints floats entry columns = .ok (entry, columns) := by
  have hoff : ¬ (entry.numPoints.getD 0 ≠ 0 ∧ columns.decodable = true) := by
    rw [h]
    exact fun hand => absurd hand.2 (by decide)
  rw [decodePoints, if_neg hoff]
  rfl

/-- From points that cannot be decoded on, no points are. -/
theorem decodePoints_not_isDecodable (b : Block F) {s : Series F} (hs : s.isDecodable = false)
    {columns : PointColumns F} (h : columns.decodable = true) :
    ∃ off : PointColumns F, decodePoints floats (b.bareEntry s) columns = .ok (b.bareEntry s, off) ∧
      off.decodable = false := by
  rw [Series.isDecodable, Bool.or_eq_false_iff, decide_eq_false_iff_not, not_ne_iff,
    decide_eq_false_iff_not] at hs
  obtain ⟨hkind, hcount⟩ := hs
  have hother := (Kind.ofType_eq_other_iff s.type).mp (s.kind_eq ▸ hkind)
  have hsketch : ¬ s.type &&& metricTypeMask = metricTypeSketch := by
    rw [← Kind.ofType_eq_sketches_iff, ← s.kind_eq, hkind]
    decide
  have hmetric : (b.bareEntry s).type.getD 0 &&& metricTypeMask = s.type &&& metricTypeMask := rfl
  have hon : (b.bareEntry s).numPoints.getD 0 ≠ 0 ∧ columns.decodable = true := ⟨hcount, h⟩
  refine ⟨{ columns with decodable := false }, ?_, rfl⟩
  rw [decodePoints, if_pos hon]
  simp only [hmetric]
  rw [if_neg hsketch, if_pos hother]
  rfl

/-- What is computed of a block before its series are gone through. -/
def Block.header (b : Block F) : Header where
  nameDict := b.names
  tagDict := b.tagStrings
  tagsets := resolvedTagsets [] b.tagsets
  nameRefs := b.series.map fun s => (s.nameRef : Int)
  tagsRefs := b.series.map fun s => (s.tagsRef : Int)
  types := b.series.map Series.type
  intervals := b.series.map Series.interval
  numPoints := b.series.map fun s => s.content.count

theorem ofMetricData_columns (b : Block F) : Header.ofMetricData b.columns = .ok b.header := by
  rw [Header.ofMetricData, Block.columns]
  simp only [decodeStringDict_stringDict, decodeTagsets_tagsetColumn, Raised.ok_bind,
    accumulate_deltas]
  rfl

theorem seriesCount_header (b : Block F) : b.header.seriesCount = b.series.length := by
  rw [Header.seriesCount, Block.header, List.length_map, List.length_map, ite_self]

theorem tagsetTexts_eq (b : Block F) :
    b.tagsetTexts = (resolvedTagsets [] b.tagsets).map (List.filterMap (entryAt b.tagStrings)) :=
  (map_resolvedTagsets b.tagStrings b.tagsets []).symm

theorem entry_header {b : Block F} {i : Nat} {s : Series F} (h : b.series[i]? = some s) :
    b.header.entry i = b.bareEntry s := by
  have htags : b.header.tags i = (referred b.tagsetTexts s.tagsRef).getD [] := by
    rw [Header.tags, Block.header, List.getElem?_map, h, Option.map_some, Option.getD_some,
      ← entryAt_eq_referred, tagsetTexts_eq, entryAt_map]
    cases entryAt (resolvedTagsets [] b.tagsets) s.tagsRef <;> rfl
  have hname : b.header.name i = (referred b.names s.nameRef).getD [] := by
    rw [Header.name, Block.header, List.getElem?_map, h, Option.map_some, Option.getD_some,
      entryAt_eq_referred]
  rw [Header.entry, htags, hname, Block.bareEntry, Block.header]
  simp only [List.getElem?_map, h, Option.map_some]

theorem decodeSeries_of_not_decodable {b : Block F} {columns : PointColumns F}
    (h : columns.decodable = false) :
    ∀ (rest before : List (Series F)), b.series = before ++ rest →
      decodeSeries floats b.header rest.length before.length columns =
        .ok (rest.map b.bareEntry, columns)
  | [], _, _ => rfl
  | s :: rest, before, hseries => by
      have hget : b.series[before.length]? = some s := by
        rw [hseries, List.getElem?_append_right le_rfl, Nat.sub_self]
        rfl
      have hrest := decodeSeries_of_not_decodable h rest (before ++ [s]) (by
        rw [hseries, List.append_assoc, List.singleton_append])
      rw [List.length_append, List.length_singleton] at hrest
      rw [List.length_cons, decodeSeries, entry_header hget,
        decodePoints_of_not_decodable floats _ h, Raised.ok_bind]
      simp only [hrest, Raised.ok_bind]
      rfl

theorem entriesOf_cons_of_decodable (b : Block F) {s : Series F} (hs : s.isDecodable = true)
    (rest : List (Series F)) :
    b.entriesOf floats (s :: rest) = b.entry floats s :: b.entriesOf floats rest := by
  rw [Block.entriesOf, List.takeWhile_cons_of_pos hs, List.dropWhile_cons_of_pos hs, List.map_cons,
    List.cons_append, ← Block.entriesOf]

theorem entriesOf_cons_of_not_decodable (b : Block F) {s : Series F}
    (hs : ¬ s.isDecodable = true) (rest : List (Series F)) :
    b.entriesOf floats (s :: rest) = b.bareEntry s :: rest.map b.bareEntry := by
  rw [Block.entriesOf, List.takeWhile_cons_of_neg hs, List.dropWhile_cons_of_neg hs, List.map_nil,
    List.nil_append, List.map_cons]

variable {floats} in
/-- **The series of a block are read back**, up to the end of the columns if every one can be. -/
theorem decodeSeries_place (hfloats : floats.Documented) {b : Block F} :
    ∀ (rest before : List (Series F)) (w : Written F), b.series = before ++ rest → w.Balanced →
      ∃ columns,
        decodeSeries floats b.header rest.length before.length
            (place w (.flat (rest.map fun s => s.content.written))) =
          .ok (b.entriesOf floats rest, columns) ∧
        ((∀ s ∈ rest, s.isDecodable = true) →
          columns = place (w ++ Written.flat (rest.map fun s => s.content.written)) .nil)
  | [], _, w, _, _ => ⟨_, rfl, fun _ => by
      rw [List.map_nil, Written.flat_nil, Written.append_nil]⟩
  | s :: rest, before, w, hseries, hw => by
      have hget : b.series[before.length]? = some s := by
        rw [hseries, List.getElem?_append_right le_rfl, Nat.sub_self]
        rfl
      have hnext : b.series = (before ++ [s]) ++ rest := by
        rw [hseries, List.append_assoc, List.singleton_append]
      have hlength : (before ++ [s]).length = before.length + 1 := by
        rw [List.length_append, List.length_singleton]
      rw [List.length_cons, decodeSeries, entry_header hget, List.map_cons, Written.flat_cons]
      by_cases hs : s.isDecodable = true
      · obtain ⟨columns, hrest, hend⟩ := decodeSeries_place hfloats rest (before ++ [s])
          (w ++ s.content.written) hnext (hw.append (s.balanced_written hs))
        rw [hlength] at hrest
        refine ⟨columns, ?_, fun hall => ?_⟩
        · rw [decodePoints_place hfloats hw _ b hs, Raised.ok_bind,
            entriesOf_cons_of_decodable floats b hs]
          simp only [hrest, Raised.ok_bind]
          rfl
        · rw [hend fun s' hs' => hall s' (List.mem_cons_of_mem s hs'), Written.append_assoc]
      · -- the cursors are not moved any more
        have hs' := Bool.eq_false_iff.mpr hs
        have hplace : (place w (s.content.written ++
            .flat (rest.map fun s => s.content.written))).decodable = true := rfl
        obtain ⟨off, hpoints, hoff⟩ := decodePoints_not_isDecodable floats b hs' hplace
        have hrest := decodeSeries_of_not_decodable floats hoff rest (before ++ [s]) hnext
        rw [hlength] at hrest
        refine ⟨off, ?_, fun hall => absurd (hall s List.mem_cons_self) hs⟩
        rw [hpoints, Raised.ok_bind, entriesOf_cons_of_not_decodable floats b hs]
        simp only [hrest, Raised.ok_bind]
        rfl

/-- The columns with every cursor at the end. -/
def PointColumns.atEnd (metricData : MetricData F) : PointColumns F :=
  { PointColumns.ofMetricData metricData with
    timestampCursor := metricData.timestamps.length
    sint64Cursor := metricData.valsSint64.length
    float32Cursor := metricData.valsFloat32.length
    float64Cursor := metricData.valsFloat64.length
    sketchPointCursor := metricData.sketchNumBins.length
    sketchBinCursor := metricData.sketchBinKeys.length }

theorem ofMetricData_eq_place (b : Block F) :
    PointColumns.ofMetricData b.columns = place .nil b.written := by
  rw [PointColumns.ofMetricData, Block.columns, accumulate_deltas]
  rfl

theorem place_nil_eq_atEnd (b : Block F) : place b.written .nil = .atEnd b.columns := by
  rw [PointColumns.atEnd, ofMetricData_eq_place]
  simp [place, Written.nil, Block.columns]

variable {floats} in
theorem decodeColumns_columns (hfloats : floats.Documented) (b : Block F) :
    ∃ columns, decodeColumns floats b.columns = .ok (b.entries floats, columns) ∧
      ((∀ s ∈ b.series, s.isDecodable = true) → columns = .atEnd b.columns) := by
  obtain ⟨columns, hseries, hend⟩ := decodeSeries_place hfloats b.series [] .nil rfl rfl
  refine ⟨columns, ?_, fun hall => ?_⟩
  · rw [decodeColumns, ofMetricData_columns, Raised.ok_bind, seriesCount_header,
      ofMetricData_eq_place]
    exact hseries
  · rw [hend hall, Written.nil_append]
    exact place_nil_eq_atEnd b

theorem entries_of_decodable {b : Block F} (hall : ∀ s ∈ b.series, s.isDecodable = true) :
    b.entries floats = b.series.map (b.entry floats) := by
  rw [Block.entries, Block.entriesOf, List.takeWhile_eq_self_iff.mpr hall,
    List.dropWhile_eq_nil_iff.mpr hall, List.map_nil, List.append_nil]

end Runs

section Payloads

variable {F : Type} {floats : Floats F}
  {fromString : List UInt8 → Except Raised (List (MetricData F))}

theorem decodeMetricData_columns (hfloats : floats.Documented) (b : Block F) :
    decodeMetricData floats b.columns = .ok (b.entries floats) := by
  obtain ⟨columns, hcolumns, -⟩ := decodeColumns_columns hfloats b
  rw [decodeMetricData, hcolumns]
  rfl

theorem decodePayload_columns (hfloats : floats.Documented) {content : List UInt8}
    {blocks : List (Block F)} (h : fromString content = .ok (blocks.map Block.columns)) :
    decodePayload floats fromString content = .ok (blocks.flatMap (Block.entries floats)) := by
  rw [decodePayload, h, Raised.ok_bind, Raised.flatMapM, List.mapM_map]
  exact Raised.flatMapM_eq_ok fun b _ => decodeMetricData_columns hfloats b

theorem decodeMetricsV3_columns (hfloats : floats.Documented) {content : List UInt8}
    {blocks : List (Block F)} (h : fromString content = .ok (blocks.map Block.columns)) :
    decodeMetricsV3 floats fromString content =
      .ok (under "series".toList (blocks.flatMap (Block.entries floats))) := by
  rw [decodeMetricsV3, decodePayload_columns hfloats h]
  rfl

theorem getD_get?_under (key : Str) (entries : List (Entry F)) :
    ((under key entries).get? key).getD [] = entries := by
  rw [under]
  split_ifs with h
  · rw [h]
    rfl
  · rw [Dict.get?_set_self, Option.getD_some]

/-- **The blocks of a payload are read back**, in order and each from its own columns.  A block
all of whose series can be decoded has every cursor at the end of its column. -/
theorem decode_blocks (hfloats : floats.Documented) {content : List UInt8}
    {blocks : List (Block F)} (h : fromString content = .ok (blocks.map Block.columns)) :
    decodeMetricsV3 floats fromString content =
        .ok (under "series".toList (blocks.flatMap (Block.entries floats))) ∧
      decodeSketchesV3 floats fromString content =
        .ok (under "sketches".toList (blocks.flatMap (Block.entries floats))) ∧
      ∀ b ∈ blocks, (∀ s ∈ b.series, s.isDecodable = true) →
        decodeColumns floats b.columns = .ok (b.series.map (b.entry floats), .atEnd b.columns) := by
  refine ⟨decodeMetricsV3_columns hfloats h, ?_, fun b _ hall => ?_⟩
  · rw [decodeSketchesV3, decodePayload_columns hfloats h]
    rfl
  · obtain ⟨columns, hcolumns, hend⟩ := decodeColumns_columns hfloats b
    rw [hcolumns, hend hall, entries_of_decodable floats hall]

/-- Rational numbers; they are what floats are where these are exact. -/
def exactFloats : Floats ℚ where
  zero := 0
  ofInt n := n
  toInt x := x.num.tdiv x.den
  isNonzero x := decide (x ≠ 0)
  divide x y := x / y

theorem documented_exactFloats : exactFloats.Documented where
  toInt_ofInt n _ := by
    show ((n : Int) : ℚ).num.tdiv ((n : Int) : ℚ).den = n
    rw [Rat.num_intCast, Rat.den_intCast, Nat.cast_one, Int.tdiv_one]
  isNonzero_ofInt n _ := by
    show decide (((n : Int) : ℚ) ≠ 0) = true ↔ n ≠ 0
    rw [decide_eq_true_iff, ne_eq, Int.cast_natCast, Nat.cast_eq_zero]

/-- A parser that knows the bytes of one payload. -/
def parserOf (content : List UInt8) (blocks : List (Block F)) (bytes : List UInt8) :
    Except Raised (List (MetricData F)) :=
  if bytes = content then .ok (blocks.map Block.columns) else .error (.inPackage "protobuf".toList)

theorem parserOf_self (content : List UInt8) (blocks : List (Block F)) :
    parserOf content blocks content = .ok (blocks.map Block.columns) := if_pos rfl

/-- One sketch with a tag, of a point with two bins. -/
def sketchBlock : Block ℚ where
  names := ["m".toList]
  tagStrings := ["a".toList]
  tagsets := [[.tag 0]]
  series := [{
    nameRef := 1
    tagsRef := 1
    type := 0x14
    interval := 10
    content := .sketches [{
      ts := 1000
      bins := [(1, 1), (5, 2)]
      sum := (40 : Int)
      min := (10 : Int)
      max := (10 : Int)
      cnt := 4
      cnt_lt := by decide }]
    kind_eq := rfl }]

def sketchContent : List UInt8 :=
  [0x1A, 53, 0x0A, 2, 1, 0x6D, 0x12, 2, 1, 0x61, 0x1A, 2, 2, 2, 0x52, 1, 0x14, 0x5A, 1, 2, 0x62, 1, 2,
    0x72, 1, 10, 0x7A, 1, 1, 0x82, 1, 2, 0xD0, 0x0F, 0x8A, 1, 4, 80, 20, 20, 8, 0xA2, 1, 1, 2,
    0xAA, 1, 2, 2, 8, 0xB2, 1, 2, 1, 2]

theorem decode_blocks_sketch :
    decodeSketchesV3 exactFloats (parserOf sketchContent [sketchBlock]) sketchContent =
      .ok (under "sketches".toList (sketchBlock.entries exactFloats)) := by
  have hdecode := decode_blocks documented_exactFloats (parserOf_self sketchContent [sketchBlock])
  rw [hdecode.2.1, List.flatMap_singleton]

/-- A histogram with a point, then a gauge with a point. -/
def histogramBlock : Block ℚ where
  names := []
  tagStrings := []
  tagsets := []
  series := [{
      nameRef := 0
      tagsRef := 0
      type := 0x06
      interval := 10
      content := .other { count := 1, written := stamps [1000], written_eq := nofun }
      kind_eq := rfl },
    { nameRef := 0
      tagsRef := 0
      type := 0x03
      interval := 10
      content := .points [(2000, ())]
      kind_eq := rfl }]

def histogramContent : List UInt8 :=
  [0x1A, 27, 0x52, 2, 6, 3, 0x5A, 2, 0, 0, 0x62, 2, 0, 0, 0x72, 2, 10, 10, 0x7A, 2, 1, 1,
    0x82, 1, 4, 0xD0, 0x0F, 0xD0, 0x0F]

/-- A series after one whose points cannot be decoded does not get its own points. -/
theorem not_entry_after_undecodable :
    ¬ ∀ (F : Type) (floats : Floats F) (fromString : List UInt8 → Except Raised (List (MetricData F)))
      (content : List UInt8) (blocks : List (Block F)), floats.Documented →
        fromString content = .ok (blocks.map Block.columns) →
          decodeMetricsV3 floats fromString content =
            .ok (under "series".toList
              (blocks.flatMap fun b => b.series.map (b.entry floats))) := by
  intro hall
  have hparser := parserOf_self histogramContent [histogramBlock]
  have hclaim := hall ℚ exactFloats _ histogramContent [histogramBlock] documented_exactFloats hparser
  rw [decodeMetricsV3_columns documented_exactFloats hparser] at hclaim
  have hentries := congrArg (fun d => (d.get? "series".toList).getD []) (Except.ok.inj hclaim)
  simp only [getD_get?_under, List.flatMap_singleton] at hentries
  -- the points of the gauge
  have hnone : (histogramBlock.entries exactFloats)[1]?.bind Entry.points = none := rfl
  have hsome : (histogramBlock.series.map (histogramBlock.entry exactFloats))[1]?.bind Entry.points =
      some [⟨0, Json.intText 2000⟩] := rfl
  rw [← hentries, hnone] at hsome
  cases hsome

end Payloads

end MetricsV3
end Proxy
end SystemTests
