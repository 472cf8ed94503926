import SystemTests.Foundation.Simulation
import SystemTests.Proxy.TraceV1Stream

/-!
# The deserialiser replaces the positions of a stream

`deserialize_v1_trace` collects its table before it replaces anything, and enters less
into it than a streaming writer: not the keys of key-value lists.  Where the positions
that are sent come before the first of those, its table has the texts of the writer's;
where the code replaces them, a payload comes out as if no position had been sent.

**Results.**
* `unstreamStrings_payload`: the code's table of a payload.
* `uncompressAnyValue_map`: a value of an attribute comes out the same.
* `uncompressSpanLink_map`, `uncompressSpanEvent_map`: so do links and events.
* `uncompressKeys_agree`, `processTraceAttributes_agree`: the two passes over a payload.
* `deserializeV1Trace_eq`: a payload comes out as if no position had been sent.
-/

namespace SystemTests
namespace Proxy
namespace TraceV1

open Foundation Foundation.Text Foundation.StringTable

section Table

/-- The texts that are entered into the table. -/
def inTable (ps : List Position) : List Str :=
  ps.filterMap fun p => if p.inTable then p.ref.lit? else none

@[simp] theorem inTable_nil : inTable [] = [] := rfl

@[simp] theorem inTable_append (ps qs : List Position) :
    inTable (ps ++ qs) = inTable ps ++ inTable qs := List.filterMap_append

theorem inTable_cons (p : Position) (ps : List Position) :
    inTable (p :: ps) = inTable [p] ++ inTable ps := inTable_append [p] ps

theorem inTable_flatMap {α : Type} (f : α → List Position) (l : List α) :
    inTable (l.flatMap f) = l.flatMap fun a => inTable (f a) := by
  induction l with
  | nil => rfl
  | cons a l ih => rw [List.flatMap_cons, List.flatMap_cons, inTable_append, ih]

theorem seen_eq_inTable (ps : List Position) :
    seen [] (ps.map fun p => (p.inTable, p.ref)) = [] :: inTable ps := by
  rw [seen, lits, List.filterMap_map, List.filter_filterMap, List.map_filterMap, inTable]
  congr 1
  refine List.filterMap_congr fun p _ => ?_
  obtain ⟨ref, known, resolved⟩ := p
  cases ref <;> cases known <;> rfl

theorem unstreamStrings_encodeRef (t : TextRef) (resolved : Bool) :
    unstreamStrings (encodeRef t) = inTable [⟨t, true, resolved⟩] := by
  cases t <;> rfl

mutual

theorem unstreamStrings_encode : ∀ (v : AnyValue) (resolved : Bool),
    unstreamStrings v.encode = inTable (v.positions resolved)
  | .string t, resolved => unstreamStrings_encodeRef t resolved
  | .bool _, _ => rfl
  | .double _, _ => rfl
  | .int _, _ => rfl
  | .bytes _, _ => rfl
  | .array elements, resolved => unstreamElements_encode elements resolved
  | .keyValueList items, resolved => unstreamItems_encode items resolved

theorem unstreamElements_encode : ∀ (elements : List AnyValue) (resolved : Bool),
    unstreamElements (encodeElements elements) = inTable (elementPositions resolved elements)
  | [], _ => rfl
  | v :: elements, resolved => by
      rw [encodeElements, unstreamElements, unstreamElements, elementPositions, inTable_append,
        ← unstreamStrings_encode v, ← unstreamElements_encode elements]
      rfl

theorem unstreamItems_encode : ∀ (items : List (TextRef × AnyValue)) (resolved : Bool),
    unstreamItems (encodeItems items) = inTable (itemPositions resolved items)
  | [], _ => rfl
  | (k, v) :: items, resolved => by
      rw [encodeItems, unstreamItems, itemPositions, inTable_cons, inTable_append,
        ← unstreamStrings_encode v, ← unstreamItems_encode items]
      simp [unstreamStrings, unstreamElements, inTable]

end

theorem unstreamElements_append (l m : List Value) :
    unstreamElements (l ++ m) = unstreamElements l ++ unstreamElements m := by
  induction l with
  | nil => rfl
  | cons v l ih => rw [List.cons_append, unstreamElements, unstreamElements, ih, List.append_assoc]

theorem unstreamElements_map {α : Type} (f : α → Value) (l : List α) :
    unstreamElements (l.map f) = l.flatMap fun a => unstreamStrings (f a) := by
  induction l with
  | nil => rfl
  | cons a l ih => rw [List.map_cons, unstreamElements, ih, List.flatMap_cons]

theorem unstreamItems_map {α : Type} (f : α → Key × Value) (l : List α) :
    unstreamItems (l.map f) = l.flatMap fun a => unstreamStrings (f a).2 := by
  induction l with
  | nil => rfl
  | cons a l ih => rw [List.map_cons, unstreamItems, ih, List.flatMap_cons]

theorem unstreamStrings_encodeAttributes (attrs : Attributes) :
    unstreamStrings (encodeAttributes attrs) = inTable (attributePositions attrs) := by
  rw [encodeAttributes, unstreamStrings]
  induction attrs with
  | nil => rfl
  | cons attr attrs ih =>
      have hcons : attributePositions (attr :: attrs) =
          ⟨attr.1, true, true⟩ :: (attr.2.positions true ++ attributePositions attrs) := rfl
      rw [List.flatMap_cons, unstreamElements_append, ih, hcons, inTable_cons, inTable_append,
        ← unstreamStrings_encodeRef attr.1 true, ← unstreamStrings_encode attr.2]
      simp [unstreamElements, unstreamStrings]

theorem unstreamStrings_scalar (v : Scalar) : unstreamStrings v.encode = [] := by
  cases v <;> rfl

theorem unstreamStrings_encodeMaps {F : Type} {encode : F → Key × Value}
    {positions : F → List Position}
    (h : ∀ field, unstreamStrings (encode field).2 = inTable (positions field))
    (maps : List (List F)) :
    unstreamStrings (encodeMaps encode maps) = inTable (mapsPositions positions maps) := by
  rw [encodeMaps, unstreamStrings, unstreamElements_map, mapsPositions, inTable_flatMap]
  simp only [unstreamStrings, unstreamItems_map, h, inTable_flatMap]

theorem unstreamStrings_linkField (field : LinkField) :
    unstreamStrings field.encode.2 = inTable field.positions := by
  cases field with
  | scalar key v => exact unstreamStrings_scalar v
  | attributes attrs => exact unstreamStrings_encodeAttributes attrs
  | traceState t => exact unstreamStrings_encodeRef t false

theorem unstreamStrings_eventField (field : EventField) :
    unstreamStrings field.encode.2 = inTable field.positions := by
  cases field with
  | time v => exact unstreamStrings_scalar v
  | nameValue t => exact unstreamStrings_encodeRef t true
  | attributes attrs => exact unstreamStrings_encodeAttributes attrs

theorem unstreamStrings_spanField (field : SpanField) :
    unstreamStrings field.encode.2 = inTable field.positions := by
  cases field with
  | text key t => exact unstreamStrings_encodeRef t true
  | scalar key v => exact unstreamStrings_scalar v
  | attributes attrs => exact unstreamStrings_encodeAttributes attrs
  | spanLinks links => exact unstreamStrings_encodeMaps unstreamStrings_linkField links
  | spanEvents events => exact unstreamStrings_encodeMaps unstreamStrings_eventField events

theorem unstreamStrings_chunkField (field : ChunkField) :
    unstreamStrings field.encode.2 = inTable field.positions := by
  cases field with
  | scalar key v => exact unstreamStrings_scalar v
  | origin t => exact unstreamStrings_encodeRef t false
  | attributes attrs => exact unstreamStrings_encodeAttributes attrs
  | spans l => exact unstreamStrings_encodeMaps unstreamStrings_spanField l

theorem unstreamStrings_payloadField (field : PayloadField) :
    unstreamStrings field.encode.2 = inTable field.positions := by
  cases field with
  | text key t => exact unstreamStrings_encodeRef t false
  | strings ts =>
      rw [PayloadField.encode, unstreamStrings, unstreamElements_map, PayloadField.positions]
      simp only [unstreamStrings_encodeRef _ false]
      rw [← inTable_flatMap, ← List.map_eq_flatMap]
  | attributes attrs => exact unstreamStrings_encodeAttributes attrs
  | chunks l => exact unstreamStrings_encodeMaps unstreamStrings_chunkField l

/-- The code's table of a payload. -/
theorem unstreamStrings_payload (payload : Payload) :
    unstreamStrings (encode payload) = inTable (positions payload) := by
  rw [encode, unstreamStrings, unstreamItems_map, positions, inTable_flatMap]
  simp only [unstreamStrings_payloadField]

end Table

section Values

variable {lib : Library} {strings strings' : List Str} {f : TextRef → TextRef}

/-- A position that is sent is replaced by the code, and by what it stands for. -/
def Readable (strings : List Str) (f : TextRef → TextRef) (p : Position) : Prop :=
  ∀ n, p.ref = .idx n → p.resolved = true ∧ ∃ s, strings[n]? = some s ∧ f (.idx n) = .lit s

/-- Texts that are sent as they are stay. -/
def KeepsTexts (f : TextRef → TextRef) : Prop := ∀ s, f (.lit s) = .lit s

theorem stringAt_natCast {n : Nat} {s : Str} (h : strings[n]? = some s) :
    TraceDecoders.stringAt strings n = .ok s := by
  have hpos : ¬ (n : Int) < 0 := by omega
  simp [TraceDecoders.stringAt, hpos, h]

theorem resolve_encodeRef (hf : KeepsTexts f) {p : Position} (h : Readable strings f p) :
    ∃ s, f p.ref = .lit s ∧ resolve strings (encodeRef p.ref) = .ok (.text s) ∧
      resolveKey strings (refKey p.ref) = .ok (.text s) := by
  cases href : p.ref with
  | lit s => exact ⟨s, hf s, rfl, rfl⟩
  | idx n =>
      obtain ⟨-, s, hs, hfs⟩ := h n href
      refine ⟨s, hfs, ?_, ?_⟩
      · rw [encodeRef, resolve, Value.int?]
        simp only [stringAt_natCast hs]
        rfl
      · rw [refKey, resolveKey, stringAt_natCast hs]
        rfl

theorem ref_eq_self (hf : KeepsTexts f) {p : Position} (h : Readable strings f p)
    (hresolved : p.resolved = false) : f p.ref = p.ref := by
  cases href : p.ref with
  | lit s => exact hf s
  | idx n =>
      have htrue := (h n href).1
      rw [hresolved] at htrue
      cases htrue

mutual

/-- Where no position is replaced, none is sent. -/
theorem map_eq_self (hf : KeepsTexts f) : ∀ v : AnyValue,
    (∀ p ∈ v.positions false, Readable strings f p) → v.map f = v
  | .string t, h => by
      rw [AnyValue.map, ref_eq_self (p := ⟨t, true, false⟩) hf (h _ List.mem_cons_self) rfl]
  | .bool _, _ => rfl
  | .double _, _ => rfl
  | .int _, _ => rfl
  | .bytes _, _ => rfl
  | .array elements, h => by rw [AnyValue.map, mapElements_eq_self hf elements h]
  | .keyValueList items, h => by rw [AnyValue.map, mapItems_eq_self hf items h]

theorem mapElements_eq_self (hf : KeepsTexts f) : ∀ elements : List AnyValue,
    (∀ p ∈ elementPositions false elements, Readable strings f p) →
      mapElements f elements = elements
  | [], _ => rfl
  | v :: elements, h => by
      rw [elementPositions, List.forall_mem_append, Bool.false_and] at h
      rw [mapElements, map_eq_self hf v h.1, mapElements_eq_self hf elements h.2]

theorem mapItems_eq_self (hf : KeepsTexts f) : ∀ items : List (TextRef × AnyValue),
    (∀ p ∈ itemPositions false items, Readable strings f p) → mapItems f items = items
  | [], _ => rfl
  | (k, v) :: items, h => by
      rw [itemPositions, List.forall_mem_cons, List.forall_mem_append] at h
      rw [mapItems, map_eq_self hf v h.2.1, mapItems_eq_self hf items h.2.2,
        ref_eq_self hf h.1 rfl]

end

theorem ofValue?_code (key : V1AnyValueKeys) : V1AnyValueKeys.ofValue? (.int key.code) = some key := by
  cases key <;> rfl

theorem key_map (v : AnyValue) : (v.map f).key = v.key := by
  cases v <;> rfl

theorem length_encodeElements (elements : List AnyValue) :
    (encodeElements elements).length = 2 * elements.length := by
  induction elements with
  | nil => rfl
  | cons v elements ih =>
      rw [encodeElements, List.length_cons, List.length_cons, ih, List.length_cons]
      omega

theorem length_mapElements (elements : List AnyValue) :
    (mapElements f elements).length = elements.length := by
  induction elements with
  | nil => rfl
  | cons v elements ih => rw [mapElements, List.length_cons, ih, List.length_cons]

/-- An array is gone through when its length is even, as it is when it was encoded. -/
theorem uncompressAnyValue_array (elements : List AnyValue) :
    uncompressAnyValue lib strings (some .array) (.list (encodeElements elements)) =
      Value.list <$> uncompressArray lib strings (encodeElements elements) := by
  have heven : ¬ (encodeElements elements).length % 2 ≠ 0 := by
    rw [length_encodeElements]
    omega
  rw [uncompressAnyValue, if_neg heven]

theorem uncompressAnyValue_string (t : TextRef) :
    uncompressAnyValue lib strings (some .string) (encodeRef t) = resolve strings (encodeRef t) := by
  cases t <;> rfl

mutual

theorem uncompressAnyValue_map (hf : KeepsTexts f) : ∀ v : AnyValue,
    (∀ p ∈ v.positions true, Readable strings f p) →
      uncompressAnyValue lib strings (some v.key) v.encode =
        uncompressAnyValue lib strings' (some v.key) (v.map f).encode
  | .string t, h => by
      obtain ⟨s, hfs, hs, -⟩ := resolve_encodeRef (p := ⟨t, true, true⟩) hf (h _ List.mem_cons_self)
      rw [AnyValue.map, hfs, AnyValue.key, AnyValue.encode, AnyValue.encode,
        uncompressAnyValue_string, uncompressAnyValue_string, hs]
      rfl
  | .bool _, _ => rfl
  | .double _, _ => rfl
  | .int _, _ => rfl
  | .bytes _, _ => rfl
  | .array elements, h => by
      rw [AnyValue.key, AnyValue.map, AnyValue.encode, AnyValue.encode, uncompressAnyValue_array,
        uncompressAnyValue_array, uncompressArray_map hf elements h]
  | .keyValueList items, h => by
      rw [AnyValue.key, AnyValue.map, AnyValue.encode, AnyValue.encode, uncompressAnyValue,
        uncompressAnyValue, uncompressKeyValueList_map hf items h]

theorem uncompressArray_map (hf : KeepsTexts f) : ∀ elements : List AnyValue,
    (∀ p ∈ elementPositions true elements, Readable strings f p) →
      uncompressArray lib strings (encodeElements elements) =
        uncompressArray lib strings' (encodeElements (mapElements f elements))
  | [], _ => rfl
  | v :: elements, h => by
      rw [elementPositions, List.forall_mem_append, Bool.true_and] at h
      rw [encodeElements, mapElements, encodeElements, uncompressArray, uncompressArray,
        uncompressArray_map hf elements h.2, key_map, ofValue?_code]
      by_cases hkey : v.key = .keyValueList
      · -- it is left as it is
        rw [hkey] at h ⊢
        rw [map_eq_self hf v h.1]
      · rw [decide_eq_true hkey] at h
        have hv := uncompressAnyValue_map hf v h.1
        cases hk : v.key with
        | keyValueList => exact absurd hk hkey
        | string | boolValue | double | intValue | bytesValue | array =>
            rw [hk] at hv
            simp only [hv]

theorem uncompressKeyValueList_map (hf : KeepsTexts f) : ∀ items : List (TextRef × AnyValue),
    (∀ p ∈ itemPositions true items, Readable strings f p) →
      uncompressKeyValueList lib strings (encodeItems items) =
        uncompressKeyValueList lib strings' (encodeItems (mapItems f items))
  | [], _ => rfl
  | (k, v) :: items, h => by
      rw [itemPositions, List.forall_mem_cons, List.forall_mem_append] at h
      obtain ⟨s, hfs, -, hs⟩ := resolve_encodeRef hf h.1
      rw [encodeItems, mapItems, encodeItems, uncompressKeyValueList, uncompressKeyValueList,
        uncompressKeyValueList_map hf items h.2.2, key_map, ofValue?_code,
        uncompressAnyValue_map hf v h.2.1, hs, hfs]
      rfl

end

end Values

section Maps

open Raised

/-- Maps with the same keys, each once, and related values. -/
structure SameItems (P : Key → Value → Value → Prop) (l m : List (Key × Value)) : Prop where
  related : List.Forall₂ (Dict.Related P) l m
  nodup : (l.map Prod.fst).Nodup

variable {P Q : Key → Value → Value → Prop} {l m : List (Key × Value)}

theorem SameItems.setItems (h : SameItems P l m) {k : Key} {a b : Value} (hab : P k a b) :
    SameItems P (Dict.setItems k a l) (Dict.setItems k b m) :=
  ⟨Dict.forall₂_setItems h.related hab, Dict.nodup_setItems k a h.nodup⟩

theorem SameItems.assign {pairs pairs' : List (Key × Value)}
    (hpairs : List.Forall₂ (Dict.Related P) pairs pairs') :
    ∀ {l m}, SameItems P l m → SameItems P (assign l pairs) (assign m pairs') := by
  induction hpairs with
  | nil => exact fun h => h
  | @cons p q pairs pairs' hpq _ ih =>
      intro l m h
      rw [TraceV1.assign, TraceV1.assign, List.foldl_cons, List.foldl_cons, ← TraceV1.assign,
        ← TraceV1.assign, ← hpq.1]
      exact ih (h.setItems hpq.2)

theorem SameItems.nil : SameItems P [] [] := ⟨.nil, List.nodup_nil⟩

theorem SameItems.put (h : SameItems P l m) {name : String} {a b : Value}
    (hPQ : ∀ k ≠ .text name.toList, ∀ a b, P k a b → Q k a b) (hab : Q (.text name.toList) a b) :
    SameItems Q (put name a l) (put name b m) :=
  ⟨Dict.forall₂_setItems_of_nodup h.related h.nodup hPQ hab, Dict.nodup_setItems _ a h.nodup⟩

theorem SameItems.find (h : SameItems P l m) (name : String) :
    (find name l = none ∧ find name m = none) ∨
      ∃ a b, find name l = some a ∧ find name m = some b ∧ P (.text name.toList) a b := by
  have hfind := Dict.related_find (k := .text name.toList) h.related
  generalize hl : Dict.find (Key.text name.toList) l = x at hfind
  generalize hm : Dict.find (Key.text name.toList) m = y at hfind
  cases hfind with
  | none => exact .inl ⟨hl, hm⟩
  | some hab => exact .inr ⟨_, _, hl, hm, hab⟩

theorem SameItems.of_find_eq_none (h : SameItems P l m) {name : String} (hnone : TraceV1.find name l = none)
    (hPQ : ∀ k ≠ .text name.toList, ∀ a b, P k a b → Q k a b) : SameItems Q l m :=
  ⟨Dict.forall₂_of_find_eq_none h.related hnone hPQ, h.nodup⟩

theorem SameItems.eq (h : SameItems (fun _ a b => a = b) l m) : l = m :=
  Dict.eq_of_forall₂_related h.related

theorem SameItems.mono (h : SameItems P l m) (hPQ : ∀ k a b, P k a b → Q k a b) : SameItems Q l m :=
  ⟨h.related.imp fun _ _ hab => ⟨hab.1, hPQ _ _ _ hab.2⟩, h.nodup⟩

/-- A value that is computed of the one under a name. -/
theorem SameItems.update (h : SameItems P l m) (name : String) {f g : Value → Except Raised Value}
    (hPQ : ∀ k ≠ .text name.toList, ∀ a b, P k a b → Q k a b)
    (hfg : ∀ a b, P (.text name.toList) a b → Agree (Q (.text name.toList)) (f a) (g b)) :
    Agree (SameItems Q) (update name f l) (update name g m) := by
  rw [TraceV1.update, TraceV1.update]
  rcases h.find name with ⟨hl, hm⟩ | ⟨a, b, hl, hm, hab⟩
  · rw [hl, hm]
    exact .ok (h.of_find_eq_none hl hPQ)
  · rw [hl, hm]
    exact (hfg a b hab).bind fun a b hab => .ok (h.put hPQ hab)

/-- Lists of maps with related items. -/
def SameMaps (P : Key → Value → Value → Prop) (a b : Value) : Prop :=
  ∃ l m : List (List (Key × Value)), a = .list (l.map .dict) ∧ b = .list (m.map .dict) ∧
    List.Forall₂ (SameItems P) l m

theorem SameMaps.updateEach {a b : Value} (h : SameMaps P a b)
    {f g : List (Key × Value) → Except Raised (List (Key × Value))}
    (hfg : ∀ l m, SameItems P l m → Agree Eq (f l) (g m)) :
    Agree Eq (updateEach f a) (updateEach g b) := by
  obtain ⟨l, m, rfl, rfl, hlm⟩ := h
  have heach : List.Forall₂
      (fun a b : Value => Agree Eq (do let items ← a.items; Value.dict <$> f items)
        (do let items ← b.items; Value.dict <$> g items)) (l.map .dict) (m.map .dict) := by
    rw [List.forall₂_map_left_iff, List.forall₂_map_right_iff]
    exact hlm.imp fun l m hsame => (hfg l m hsame).map fun _ _ h => congrArg Value.dict h
  have hmap := Agree.mapM heach
  rw [List.forall₂_eq_eq_eq] at hmap
  exact hmap.map fun _ _ h => congrArg Value.list h

end Maps

section Fields

open Raised

variable (lib : Library) (strings strings' : List Str) {f : TextRef → TextRef}

/-- Lists that are the same attributes, each with its own table. -/
def SameAttributes (a b : Value) : Prop :=
  (∃ l, a = .list l) ∧ (∃ l, b = .list l) ∧
    attributesToDict lib strings a = attributesToDict lib strings' b

variable {lib strings strings'}

theorem attributeItems_map (hf : KeepsTexts f) {attrs : Attributes}
    (h : ∀ p ∈ attributePositions attrs, Readable strings f p) :
    attributeItems lib strings
        (attrs.flatMap fun attr => [encodeRef attr.1, .int attr.2.key.code, attr.2.encode]) =
      attributeItems lib strings' ((mapAttributes f attrs).flatMap fun attr =>
        [encodeRef attr.1, .int attr.2.key.code, attr.2.encode]) := by
  induction attrs with
  | nil => rfl
  | cons attr attrs ih =>
      have hcons : attributePositions (attr :: attrs) =
          ⟨attr.1, true, true⟩ :: (attr.2.positions true ++ attributePositions attrs) := rfl
      rw [hcons, List.forall_mem_cons, List.forall_mem_append] at h
      obtain ⟨s, hfs, hs, -⟩ := resolve_encodeRef hf h.1
      have hmap : mapAttributes f (attr :: attrs) =
          (f attr.1, attr.2.map f) :: mapAttributes f attrs := rfl
      rw [hmap, List.flatMap_cons, List.flatMap_cons, List.cons_append, List.cons_append,
        List.cons_append, List.nil_append, List.cons_append, List.cons_append, List.cons_append,
        List.nil_append, attributeItems, attributeItems, ih h.2.2, hs, hfs, key_map, ofValue?_code,
        uncompressAnyValue_map hf attr.2 h.2.1]
      rfl

theorem length_encodeAttributes (attrs : Attributes) :
    (attrs.flatMap fun attr => [encodeRef attr.1, .int attr.2.key.code, attr.2.encode]).length =
      3 * attrs.length := by
  induction attrs with
  | nil => rfl
  | cons attr attrs ih =>
      rw [List.flatMap_cons, List.length_append, ih, List.length_cons, List.length_cons,
        List.length_cons, List.length_nil, List.length_cons]
      omega

theorem attributesToDict_encodeAttributes (attrs : Attributes) :
    attributesToDict lib strings (encodeAttributes attrs) = (do
      let items ← attributeItems lib strings
        (attrs.flatMap fun attr => [encodeRef attr.1, .int attr.2.key.code, attr.2.encode])
      Value.dict <$> postprocessAttributeValues lib (assign [] items)) := by
  have hlength : ¬ (attrs.flatMap fun attr =>
      [encodeRef attr.1, .int attr.2.key.code, attr.2.encode]).length % 3 ≠ 0 := by
    rw [length_encodeAttributes]
    omega
  rw [attributesToDict, encodeAttributes, Value.positions, Raised.ok_bind, if_neg hlength]

theorem sameAttributes_map (hf : KeepsTexts f) {attrs : Attributes}
    (h : ∀ p ∈ attributePositions attrs, Readable strings f p) :
    SameAttributes lib strings strings' (encodeAttributes attrs)
      (encodeAttributes (mapAttributes f attrs)) := by
  refine ⟨⟨_, rfl⟩, ⟨_, rfl⟩, ?_⟩
  rw [attributesToDict_encodeAttributes, attributesToDict_encodeAttributes,
    attributeItems_map hf h]

variable (lib strings strings')

/-- The same values but for the attributes. -/
def UpToAttributes (k : Key) (a b : Value) : Prop :=
  if k = .text "attributes".toList then SameAttributes lib strings strings' a b
  else if k = .text "trace_state".toList then a = b ∧ a.int? = none
  else a = b

variable {lib strings strings'}

theorem upToAttributes_of_ne {k : Key} (hattributes : k ≠ .text "attributes".toList)
    (hstate : k ≠ .text "trace_state".toList) (a : Value) :
    UpToAttributes lib strings strings' k a a := by
  rw [UpToAttributes, if_neg hattributes, if_neg hstate]

theorem upToAttributes_attributes {a b : Value} (h : SameAttributes lib strings strings' a b) :
    UpToAttributes lib strings strings' (.text "attributes".toList) a b := by
  rwa [UpToAttributes, if_pos rfl]

theorem eq_of_upToAttributes {k : Key} (hattributes : k ≠ .text "attributes".toList) {a b : Value}
    (h : UpToAttributes lib strings strings' k a b) :
    a = b ∧ (k = .text "trace_state".toList → a.int? = none) := by
  rw [UpToAttributes, if_neg hattributes] at h
  split_ifs at h with hstate
  · exact ⟨h.1, fun _ => h.2⟩
  · exact ⟨h, fun hk => absurd hk hstate⟩

/-- The attributes become the same; the state of the trace is no position. -/
theorem processAttributes_agree {l m : List (Key × Value)}
    (h : SameItems (UpToAttributes lib strings strings') l m) :
    Agree (SameItems fun k a b => a = b ∧ (k = .text "trace_state".toList → a.int? = none))
      (processAttributes lib strings l) (processAttributes lib strings' m) := by
  have hother : ∀ k ≠ .text "attributes".toList, ∀ a b, UpToAttributes lib strings strings' k a b →
      a = b ∧ (k = .text "trace_state".toList → a.int? = none) :=
    fun k hk a b hab => eq_of_upToAttributes hk hab
  rw [processAttributes, processAttributes]
  rcases h.find "attributes" with ⟨hl, hm⟩ | ⟨a, b, hl, hm, hab⟩
  · rw [hl, hm]
    exact .ok (h.of_find_eq_none hl hother)
  · rw [UpToAttributes, if_pos rfl] at hab
    obtain ⟨⟨as, rfl⟩, ⟨bs, rfl⟩, heq⟩ := hab
    rw [hl, hm]
    refine (Agree.of_eq heq).bind ?_
    rintro a _ rfl
    exact .ok (h.put hother ⟨rfl, fun hk => absurd hk (by decide)⟩)

theorem linkTraceId_same {l m : List (Key × Value)}
    (h : SameItems (UpToAttributes lib strings strings') l m) :
    SameItems (UpToAttributes lib strings strings') (linkTraceId l) (linkTraceId m) := by
  have hput : ∀ v : Value, SameItems (UpToAttributes lib strings strings')
      (put "trace_id" v l) (put "trace_id" v m) := fun v =>
    h.put (fun _ _ _ _ hab => hab) (upToAttributes_of_ne (by decide) (by decide) v)
  rw [linkTraceId, linkTraceId]
  rcases h.find "trace_id" with ⟨hl, hm⟩ | ⟨a, b, hl, hm, hab⟩
  · rw [hl, hm]
    exact h
  · obtain rfl := (eq_of_upToAttributes (by decide) hab).1
    rw [hl, hm]
    cases a with
    | bytes b => exact hput _
    | text s =>
        cases hs : Base64.decode s with
        | none =>
            simp only [hs]
            exact h
        | some b =>
            simp only [hs]
            exact hput _
    | none | bool | int | float | list | dict => exact h

/-- A text that the code keeps as it is sent is sent as a text. -/
theorem keptRef (hf : KeepsTexts f) {p : Position} (h : Readable strings f p)
    (hresolved : p.resolved = false) : f p.ref = p.ref ∧ (encodeRef p.ref).int? = none := by
  refine ⟨ref_eq_self hf h hresolved, ?_⟩
  cases href : p.ref with
  | lit s => rfl
  | idx n =>
      have htrue := (h n href).1
      rw [hresolved] at htrue
      cases htrue

theorem linkField_related (hf : KeepsTexts f) {field : LinkField}
    (h : ∀ p ∈ field.positions, Readable strings f p) :
    Dict.Related (UpToAttributes lib strings strings')
      (keyName V1SpanLinkKeys field.encode.1, field.encode.2)
      (keyName V1SpanLinkKeys (field.map f).encode.1, (field.map f).encode.2) := by
  cases field with
  | scalar key v =>
      have hnames : ∀ n ∈ ([1, 2, 5] : List Int),
          keyName V1SpanLinkKeys (.int n) ≠ .text "attributes".toList ∧
            keyName V1SpanLinkKeys (.int n) ≠ .text "trace_state".toList := by decide
      obtain ⟨hattributes, hstate⟩ := hnames key key.2
      exact ⟨rfl, upToAttributes_of_ne hattributes hstate _⟩
  | attributes attrs => exact ⟨rfl, upToAttributes_attributes (sameAttributes_map hf h)⟩
  | traceState t =>
      obtain ⟨hft, hint⟩ := keptRef (p := ⟨t, true, false⟩) hf (h _ List.mem_cons_self) rfl
      refine ⟨rfl, ?_⟩
      rw [LinkField.map, hft, UpToAttributes]
      exact ⟨rfl, hint⟩

/-- **A link comes out the same.** -/
theorem uncompressSpanLink_map (hf : KeepsTexts f) {link : List LinkField}
    (h : ∀ p ∈ link.flatMap LinkField.positions, Readable strings f p) :
    uncompressSpanLink lib strings (.dict (link.map LinkField.encode)) =
      uncompressSpanLink lib strings' (.dict ((link.map (LinkField.map f)).map LinkField.encode)) := by
  have hrelated : List.Forall₂ (Dict.Related (UpToAttributes lib strings strings'))
      ((link.map LinkField.encode).map fun item => (keyName V1SpanLinkKeys item.1, item.2))
      (((link.map (LinkField.map f)).map LinkField.encode).map
        fun item => (keyName V1SpanLinkKeys item.1, item.2)) := by
    simp only [List.map_map, List.forall₂_map_left_iff, List.forall₂_map_right_iff]
    refine List.forall₂_same.mpr fun field hfield => linkField_related hf fun p hp => h p ?_
    exact List.mem_flatMap.mpr ⟨field, hfield, hp⟩
  rw [uncompressSpanLink, uncompressSpanLink]
  refine Agree.eq ((processAttributes_agree (linkTraceId_same
    (SameItems.assign hrelated .nil))).bind fun l m hlm => ?_)
  obtain rfl := (hlm.mono fun _ _ _ hab => hab.1).eq
  -- the state of the trace is a text, so that neither table is read
  have hstate : (find "trace_state" l).bind (reference? strings) = none ∧
      (find "trace_state" l).bind (reference? strings') = none := by
    rcases hlm.find "trace_state" with ⟨hl, -⟩ | ⟨a, b, hl, -, hab⟩
    · rw [hl]
      exact ⟨rfl, rfl⟩
    · rw [hl]
      simp [reference?, hab.2 rfl]
  rw [linkTraceState, linkTraceState, hstate.1, hstate.2]
  exact .of_eq rfl

theorem reference?_encodeRef (hf : KeepsTexts f) {p : Position} (h : Readable strings f p) :
    ∃ s, f p.ref = .lit s ∧ ∀ k, uncompressEventItem strings (k, encodeRef p.ref) =
      if keyNumber? k = some 2 then .ok (keyName V1SpanEventKeys k, .text s)
      else .ok (keyName V1SpanEventKeys k, encodeRef p.ref) := by
  cases href : p.ref with
  | lit s =>
      refine ⟨s, hf s, fun k => ?_⟩
      rw [uncompressEventItem]
      rfl
  | idx n =>
      obtain ⟨-, s, hs, hfs⟩ := h n href
      refine ⟨s, hfs, fun k => ?_⟩
      have hlt : n < strings.length := (List.getElem?_eq_some_iff.mp hs).1
      have hreference : reference? strings (encodeRef (.idx n)) = some (n : Int) := by
        simp [reference?, encodeRef, Value.int?, hlt]
      rw [uncompressEventItem]
      simp only [hreference, stringAt_natCast hs]
      rfl

theorem eventField_agree (hf : KeepsTexts f) {field : EventField}
    (h : ∀ p ∈ field.positions, Readable strings f p) :
    Agree (Dict.Related (UpToAttributes lib strings strings'))
      (uncompressEventItem strings field.encode)
      (uncompressEventItem strings' (field.map f).encode) := by
  cases field with
  | time v =>
      have hattributes : keyName V1SpanEventKeys (.int 1) ≠ .text "attributes".toList := by decide
      have hstate : keyName V1SpanEventKeys (.int 1) ≠ .text "trace_state".toList := by decide
      exact .ok ⟨rfl, upToAttributes_of_ne hattributes hstate _⟩
  | nameValue t =>
      obtain ⟨s, hfs, hitem⟩ := reference?_encodeRef (p := ⟨t, true, true⟩) hf
        (h _ List.mem_cons_self)
      have hattributes : keyName V1SpanEventKeys (.int 2) ≠ .text "attributes".toList := by decide
      have hstate : keyName V1SpanEventKeys (.int 2) ≠ .text "trace_state".toList := by decide
      have hkey : keyNumber? (.int 2) = some 2 := rfl
      rw [EventField.map, hfs, EventField.encode, EventField.encode, hitem, if_pos hkey]
      exact .ok ⟨rfl, upToAttributes_of_ne hattributes hstate _⟩
  | attributes attrs =>
      have hkey : ¬ keyNumber? (.int 3) = some 2 := by decide
      rw [EventField.map, EventField.encode, EventField.encode, uncompressEventItem,
        uncompressEventItem, if_neg hkey, if_neg hkey]
      exact .ok ⟨rfl, upToAttributes_attributes (sameAttributes_map hf h)⟩

/-- **An event comes out the same.** -/
theorem uncompressSpanEvent_map (hf : KeepsTexts f) {event : List EventField}
    (h : ∀ p ∈ event.flatMap EventField.positions, Readable strings f p) :
    uncompressSpanEvent lib strings (.dict (event.map EventField.encode)) =
      uncompressSpanEvent lib strings'
        (.dict ((event.map (EventField.map f)).map EventField.encode)) := by
  have hitems : List.Forall₂ (fun a b => Agree (Dict.Related (UpToAttributes lib strings strings'))
      (uncompressEventItem strings a) (uncompressEventItem strings' b))
      (event.map EventField.encode) ((event.map (EventField.map f)).map EventField.encode) := by
    simp only [List.map_map, List.forall₂_map_left_iff, List.forall₂_map_right_iff]
    refine List.forall₂_same.mpr fun field hfield => eventField_agree hf fun p hp => h p ?_
    exact List.mem_flatMap.mpr ⟨field, hfield, hp⟩
  rw [uncompressSpanEvent, uncompressSpanEvent]
  refine Agree.eq ((Agree.mapM hitems).bind fun l m hlm => ?_)
  refine (processAttributes_agree (SameItems.assign hlm .nil)).map fun a b hab => ?_
  rw [(hab.mono fun _ _ _ h => h.1).eq]

theorem uncompressList_encodeMaps {F : Type} {enc : F → Key × Value} {g : F → F}
    {u u' : Value → Except Raised Value} {maps : List (List F)}
    (h : ∀ fields ∈ maps, u (.dict (fields.map enc)) = u' (.dict ((fields.map g).map enc))) :
    uncompressList u (encodeMaps enc maps) =
      uncompressList u' (encodeMaps enc (maps.map (List.map g))) := by
  have heach : List.Forall₂ (fun a b => Agree Eq (u a) (u' b))
      (maps.map fun fields => .dict (fields.map enc))
      ((maps.map (List.map g)).map fun fields => .dict (fields.map enc)) := by
    simp only [List.map_map, List.forall₂_map_left_iff, List.forall₂_map_right_iff]
    exact List.forall₂_same.mpr fun fields hfields => .of_eq (h fields hfields)
  have hmap := Agree.mapM heach
  rw [List.forall₂_eq_eq_eq] at hmap
  exact (hmap.map fun _ _ h => congrArg Value.list h).eq

theorem agree_insteadOfValueError {α β : Type} {R : α → β → Prop} (text : Str)
    {x : Except Raised α} {y : Except Raised β} (h : Agree R x y) :
    Agree R (insteadOfValueError text x) (insteadOfValueError text y) := by
  cases h with
  | ok hab => exact .ok hab
  | error e => exact .error _

/-- The name of a key of spans. -/
def spanName (n : Int) : Str := (nameOf? V1SpanKeys (.int n)).getD []

theorem uncompressSpanItem_eq {n : Int} (h : nameOf? V1SpanKeys (.int n) = some (spanName n))
    (v : Value) : uncompressSpanItem lib strings (.int n, v) =
      insteadOfValueError ("Unknown V1SpanKey: ".toList ++ showKey lib (.int n)) (do
        let v ← if spanName n ∈ spanKeyStrings then resolve strings v else .ok v
        let v ←
          if spanName n = "span_links".toList then uncompressList (uncompressSpanLink lib strings) v
          else if spanName n = "span_events".toList then
            uncompressList (uncompressSpanEvent lib strings) v
          else .ok v
        return (Key.text (spanName n), v)) := by
  rw [uncompressSpanItem, h]
  rfl

theorem uncompressList_scalar (u : Value → Except Raised Value) (v : Scalar) :
    uncompressList u v.encode = .ok v.encode := by
  cases v <;> rfl

theorem spanField_agree (hf : KeepsTexts f) {field : SpanField}
    (h : ∀ p ∈ field.positions, Readable strings f p) :
    Agree (Dict.Related (UpToAttributes lib strings strings'))
      (uncompressSpanItem lib strings field.encode)
      (uncompressSpanItem lib strings' (field.map f).encode) := by
  cases field with
  | text key t =>
      have hnames : ∀ n ∈ ([1, 2, 3, 10, 13, 14, 15] : List Int),
          nameOf? V1SpanKeys (.int n) = some (spanName n) ∧ spanName n ∈ spanKeyStrings ∧
            spanName n ≠ "span_links".toList ∧ spanName n ≠ "span_events".toList ∧
            Key.text (spanName n) ≠ .text "attributes".toList ∧
            Key.text (spanName n) ≠ .text "trace_state".toList := by decide
      obtain ⟨hname, hstrings, hlinks, hevents, hattributes, hstate⟩ := hnames key key.2
      obtain ⟨s, hfs, hs, -⟩ := resolve_encodeRef (p := ⟨t, true, true⟩) hf (h _ List.mem_cons_self)
      rw [SpanField.map, hfs, SpanField.encode, SpanField.encode, uncompressSpanItem_eq hname,
        uncompressSpanItem_eq hname, if_pos hstrings, if_pos hstrings, hs]
      simp only [Raised.ok_bind, if_neg hlinks, if_neg hevents]
      exact agree_insteadOfValueError _ (.ok ⟨rfl, upToAttributes_of_ne hattributes hstate _⟩)
  | scalar key v =>
      have hnames : ∀ n ∈ ([4, 5, 6, 7, 8, 11, 12, 16] : List Int),
          nameOf? V1SpanKeys (.int n) = some (spanName n) ∧ spanName n ∉ spanKeyStrings ∧
            Key.text (spanName n) ≠ .text "attributes".toList ∧
            Key.text (spanName n) ≠ .text "trace_state".toList := by decide
      obtain ⟨hname, hstrings, hattributes, hstate⟩ := hnames key key.2
      rw [SpanField.map, SpanField.encode, uncompressSpanItem_eq hname,
        uncompressSpanItem_eq hname, if_neg hstrings, if_neg hstrings]
      simp only [Raised.ok_bind, uncompressList_scalar, ite_self]
      exact agree_insteadOfValueError _ (.ok ⟨rfl, upToAttributes_of_ne hattributes hstate _⟩)
  | attributes attrs =>
      exact .ok ⟨rfl, upToAttributes_attributes (sameAttributes_map hf h)⟩
  | spanLinks links =>
      have heach : ∀ link ∈ links, uncompressSpanLink lib strings (.dict (link.map LinkField.encode)) =
          uncompressSpanLink lib strings'
            (.dict ((link.map (LinkField.map f)).map LinkField.encode)) := fun link hlink =>
        uncompressSpanLink_map hf fun p hp => h p (List.mem_flatMap.mpr ⟨link, hlink, hp⟩)
      have hname : nameOf? V1SpanKeys (.int 11) = some (spanName 11) := rfl
      have hattributes : Key.text (spanName 11) ≠ .text "attributes".toList := by decide
      have hstate : Key.text (spanName 11) ≠ .text "trace_state".toList := by decide
      rw [SpanField.map, SpanField.encode, SpanField.encode, uncompressSpanItem_eq hname,
        uncompressSpanItem_eq hname]
      refine agree_insteadOfValueError _ ((Agree.of_eq (uncompressList_encodeMaps heach)).bind ?_)
      rintro v _ rfl
      exact .ok ⟨rfl, upToAttributes_of_ne hattributes hstate v⟩
  | spanEvents events =>
      have heach : ∀ event ∈ events,
          uncompressSpanEvent lib strings (.dict (event.map EventField.encode)) =
            uncompressSpanEvent lib strings'
              (.dict ((event.map (EventField.map f)).map EventField.encode)) := fun event hevent =>
        uncompressSpanEvent_map hf fun p hp => h p (List.mem_flatMap.mpr ⟨event, hevent, hp⟩)
      have hname : nameOf? V1SpanKeys (.int 12) = some (spanName 12) := rfl
      have hattributes : Key.text (spanName 12) ≠ .text "attributes".toList := by decide
      have hstate : Key.text (spanName 12) ≠ .text "trace_state".toList := by decide
      rw [SpanField.map, SpanField.encode, SpanField.encode, uncompressSpanItem_eq hname,
        uncompressSpanItem_eq hname]
      refine agree_insteadOfValueError _ ((Agree.of_eq (uncompressList_encodeMaps heach)).bind ?_)
      rintro v _ rfl
      exact .ok ⟨rfl, upToAttributes_of_ne hattributes hstate v⟩

/-- The loop over maps of `_uncompress_spans` and `_uncompress_chunks`. -/
theorem uncompressMaps_agree {F : Type} {enc : F → Key × Value} {g : F → F}
    {u u' : Key × Value → Except Raised (Key × Value)} {P : Key → Value → Value → Prop}
    {maps : List (List F)}
    (h : ∀ fields ∈ maps, ∀ field ∈ fields, Agree (Dict.Related P) (u (enc field)) (u' (enc (g field)))) :
    Agree (SameMaps P)
      (do
        let maps ← (encodeMaps enc maps).iterate
        Value.list <$> maps.mapM fun v => do
          let items ← v.items
          let pairs ← items.mapM u
          return .dict (assign [] pairs))
      (do
        let maps ← (encodeMaps enc (maps.map (List.map g))).iterate
        Value.list <$> maps.mapM fun v => do
          let items ← v.items
          let pairs ← items.mapM u'
          return .dict (assign [] pairs)) := by
  have heach : List.Forall₂
      (fun a b : Value => Agree (fun a b => ∃ l m, a = Value.dict l ∧ b = Value.dict m ∧ SameItems P l m)
        (do
          let items ← a.items
          let pairs ← items.mapM u
          return Value.dict (assign [] pairs))
        (do
          let items ← b.items
          let pairs ← items.mapM u'
          return Value.dict (assign [] pairs)))
      (maps.map fun fields => Value.dict (fields.map enc))
      ((maps.map (List.map g)).map fun fields => Value.dict (fields.map enc)) := by
    simp only [List.map_map, List.forall₂_map_left_iff, List.forall₂_map_right_iff]
    refine List.forall₂_same.mpr fun fields hfields => ?_
    have hitems : List.Forall₂ (fun a b => Agree (Dict.Related P) (u a) (u' b))
        (fields.map enc) ((fields.map g).map enc) := by
      simp only [List.map_map, List.forall₂_map_left_iff, List.forall₂_map_right_iff]
      exact List.forall₂_same.mpr (h fields hfields)
    exact (Agree.mapM hitems).bind fun l m hlm =>
      .ok ⟨_, _, rfl, rfl, SameItems.assign hlm .nil⟩
  have hdicts : ∀ {as bs : List Value},
      List.Forall₂ (fun a b => ∃ l m, a = Value.dict l ∧ b = Value.dict m ∧ SameItems P l m) as bs →
        SameMaps P (.list as) (.list bs) := by
    intro as bs hab
    induction hab with
    | nil => exact ⟨[], [], rfl, rfl, .nil⟩
    | cons hab _ ih =>
        obtain ⟨l, m, rfl, rfl, hlm⟩ := hab
        obtain ⟨ls, ms, hls, hms, hsame⟩ := ih
        refine ⟨l :: ls, m :: ms, ?_, ?_, .cons hlm hsame⟩
        · rw [List.map_cons, Value.list.inj hls]
        · rw [List.map_cons, Value.list.inj hms]
  exact (Agree.mapM heach).map fun _ _ hab => hdicts hab

theorem uncompressSpans_agree (hf : KeepsTexts f) {spans : List (List SpanField)}
    (h : ∀ p ∈ mapsPositions SpanField.positions spans, Readable strings f p) :
    Agree (SameMaps (UpToAttributes lib strings strings'))
      (uncompressSpans lib strings (encodeMaps SpanField.encode spans))
      (uncompressSpans lib strings'
        (encodeMaps SpanField.encode (spans.map (List.map (SpanField.map f))))) := by
  refine uncompressMaps_agree fun span hspan field hfield => spanField_agree hf fun p hp => h p ?_
  exact List.mem_flatMap.mpr ⟨span, hspan, List.mem_flatMap.mpr ⟨field, hfield, hp⟩⟩

variable (lib strings strings')

/-- The same chunks but for the attributes and the spans. -/
def UpToSpans (k : Key) (a b : Value) : Prop :=
  if k = .text "attributes".toList then SameAttributes lib strings strings' a b
  else if k = .text "spans".toList then SameMaps (UpToAttributes lib strings strings') a b
  else a = b

/-- The same payloads but for the attributes and the chunks. -/
def UpToChunks (k : Key) (a b : Value) : Prop :=
  if k = .text "attributes".toList then SameAttributes lib strings strings' a b
  else if k = .text "chunks".toList then SameMaps (UpToSpans lib strings strings') a b
  else a = b

variable {lib strings strings'}

def chunkName (n : Int) : Str := (nameOf? V1ChunkKeys (.int n)).getD []

/-- A field of a chunk that is not looked into. -/
theorem uncompressChunkItem_of_ne {n : Int} (h : nameOf? V1ChunkKeys (.int n) = some (chunkName n))
    (hspans : chunkName n ≠ "spans".toList) (v : Value) :
    uncompressChunkItem lib strings (.int n, v) = .ok (Key.text (chunkName n), v) := by
  rw [uncompressChunkItem, h, Raised.ofOption_some, Raised.ok_bind, if_neg hspans]
  rfl

theorem chunkField_agree (hf : KeepsTexts f) {field : ChunkField}
    (h : ∀ p ∈ field.positions, Readable strings f p) :
    Agree (Dict.Related (UpToSpans lib strings strings'))
      (uncompressChunkItem lib strings field.encode)
      (uncompressChunkItem lib strings' (field.map f).encode) := by
  have hkept : ∀ {n : Int} (v : Value), nameOf? V1ChunkKeys (.int n) = some (chunkName n) →
      chunkName n ≠ "spans".toList → chunkName n ≠ "attributes".toList →
        Agree (Dict.Related (UpToSpans lib strings strings'))
          (uncompressChunkItem lib strings (.int n, v))
          (uncompressChunkItem lib strings' (.int n, v)) := by
    intro n v hname hspans hattributes
    rw [uncompressChunkItem_of_ne hname hspans, uncompressChunkItem_of_ne hname hspans]
    refine .ok ⟨rfl, ?_⟩
    rw [UpToSpans, if_neg fun hk => hattributes (Key.text.inj hk),
      if_neg fun hk => hspans (Key.text.inj hk)]
  cases field with
  | scalar key v =>
      have hnames : ∀ n ∈ ([1, 5, 6, 7] : List Int),
          nameOf? V1ChunkKeys (.int n) = some (chunkName n) ∧ chunkName n ≠ "spans".toList ∧
            chunkName n ≠ "attributes".toList := by decide
      obtain ⟨hname, hspans, hattributes⟩ := hnames key key.2
      exact hkept v.encode hname hspans hattributes
  | origin t =>
      have hft := (keptRef (p := ⟨t, true, false⟩) hf (h _ List.mem_cons_self) rfl).1
      rw [ChunkField.map, hft]
      exact hkept _ rfl (by decide) (by decide)
  | attributes attrs =>
      have hname : nameOf? V1ChunkKeys (.int 3) = some (chunkName 3) := rfl
      have hspans : chunkName 3 ≠ "spans".toList := by decide
      rw [ChunkField.map, ChunkField.encode, ChunkField.encode,
        uncompressChunkItem_of_ne hname hspans, uncompressChunkItem_of_ne hname hspans]
      refine .ok ⟨rfl, ?_⟩
      show UpToSpans lib strings strings' (.text "attributes".toList) _ _
      rw [UpToSpans, if_pos rfl]
      exact sameAttributes_map hf h
  | spans l =>
      refine agree_insteadOfValueError _ ((uncompressSpans_agree hf h).bind fun a b hab => ?_)
      refine .ok ⟨rfl, ?_⟩
      show UpToSpans lib strings strings' (.text "spans".toList) _ _
      rw [UpToSpans, if_neg (by decide), if_pos rfl]
      exact hab

theorem uncompressChunks_agree (hf : KeepsTexts f) {chunks : List (List ChunkField)}
    (h : ∀ p ∈ mapsPositions ChunkField.positions chunks, Readable strings f p) :
    Agree (SameMaps (UpToSpans lib strings strings'))
      (uncompressChunks lib strings (encodeMaps ChunkField.encode chunks))
      (uncompressChunks lib strings'
        (encodeMaps ChunkField.encode (chunks.map (List.map (ChunkField.map f))))) := by
  refine uncompressMaps_agree fun chunk hchunk field hfield => chunkField_agree hf fun p hp => h p ?_
  exact List.mem_flatMap.mpr ⟨chunk, hchunk, List.mem_flatMap.mpr ⟨field, hfield, hp⟩⟩

def payloadName (n : Int) : Str := (nameOf? V1TracePayloadKeys (.int n)).getD []

theorem uncompressPayloadItem_of_ne {n : Int}
    (h : nameOf? V1TracePayloadKeys (.int n) = some (payloadName n))
    (hchunks : payloadName n ≠ "chunks".toList) (v : Value) :
    uncompressPayloadItem lib strings (.int n, v) = .ok (Key.text (payloadName n), v) := by
  rw [uncompressPayloadItem, h, Raised.ofOption_some, Raised.ok_bind, if_neg hchunks]
  rfl

theorem payloadField_agree (hf : KeepsTexts f) {field : PayloadField}
    (h : ∀ p ∈ field.positions, Readable strings f p) :
    Agree (Dict.Related (UpToChunks lib strings strings'))
      (uncompressPayloadItem lib strings field.encode)
      (uncompressPayloadItem lib strings' (field.map f).encode) := by
  have hkept : ∀ {n : Int} (v : Value), nameOf? V1TracePayloadKeys (.int n) = some (payloadName n) →
      payloadName n ≠ "chunks".toList → payloadName n ≠ "attributes".toList →
        Agree (Dict.Related (UpToChunks lib strings strings'))
          (uncompressPayloadItem lib strings (.int n, v))
          (uncompressPayloadItem lib strings' (.int n, v)) := by
    intro n v hname hchunks hattributes
    rw [uncompressPayloadItem_of_ne hname hchunks, uncompressPayloadItem_of_ne hname hchunks]
    refine .ok ⟨rfl, ?_⟩
    rw [UpToChunks, if_neg fun hk => hattributes (Key.text.inj hk),
      if_neg fun hk => hchunks (Key.text.inj hk)]
  cases field with
  | text key t =>
      have hnames : ∀ n ∈ ([2, 3, 4, 5, 6, 7, 8, 9] : List Int),
          nameOf? V1TracePayloadKeys (.int n) = some (payloadName n) ∧
            payloadName n ≠ "chunks".toList ∧ payloadName n ≠ "attributes".toList := by decide
      obtain ⟨hname, hchunks, hattributes⟩ := hnames key key.2
      have hft := (keptRef (p := ⟨t, true, false⟩) hf (h _ List.mem_cons_self) rfl).1
      rw [PayloadField.map, hft]
      exact hkept _ hname hchunks hattributes
  | strings ts =>
      have hts : ts.map f = ts.map id := List.map_congr_left fun t ht =>
        (keptRef (p := ⟨t, true, false⟩) hf (h _ (List.mem_map_of_mem ht)) rfl).1
      rw [List.map_id] at hts
      rw [PayloadField.map, hts]
      exact hkept _ rfl (by decide) (by decide)
  | attributes attrs =>
      have hname : nameOf? V1TracePayloadKeys (.int 10) = some (payloadName 10) := rfl
      have hchunks : payloadName 10 ≠ "chunks".toList := by decide
      rw [PayloadField.map, PayloadField.encode, PayloadField.encode,
        uncompressPayloadItem_of_ne hname hchunks, uncompressPayloadItem_of_ne hname hchunks]
      refine .ok ⟨rfl, ?_⟩
      show UpToChunks lib strings strings' (.text "attributes".toList) _ _
      rw [UpToChunks, if_pos rfl]
      exact sameAttributes_map hf h
  | chunks l =>
      refine agree_insteadOfValueError _ ((uncompressChunks_agree hf h).bind fun a b hab => ?_)
      refine .ok ⟨rfl, ?_⟩
      show UpToChunks lib strings strings' (.text "chunks".toList) _ _
      rw [UpToChunks, if_neg (by decide), if_pos rfl]
      exact hab

theorem uncompressKeys_agree (hf : KeepsTexts f) {payload : Payload}
    (h : ∀ p ∈ positions payload, Readable strings f p) :
    Agree (SameItems (UpToChunks lib strings strings'))
      (uncompressKeys lib strings (payload.map PayloadField.encode))
      (uncompressKeys lib strings' ((mapPayload f payload).map PayloadField.encode)) := by
  have hitems : List.Forall₂ (fun a b => Agree (Dict.Related (UpToChunks lib strings strings'))
      (uncompressPayloadItem lib strings a) (uncompressPayloadItem lib strings' b))
      (payload.map PayloadField.encode) ((mapPayload f payload).map PayloadField.encode) := by
    rw [mapPayload, List.map_map, List.forall₂_map_left_iff, List.forall₂_map_right_iff]
    refine List.forall₂_same.mpr fun field hfield => payloadField_agree hf fun p hp => h p ?_
    exact List.mem_flatMap.mpr ⟨field, hfield, hp⟩
  exact (Agree.mapM hitems).map fun _ _ hlm => SameItems.assign hlm .nil

/-- The attributes of spans become the same. -/
theorem spanAttributes_agree {l m : List (Key × Value)}
    (h : SameItems (UpToAttributes lib strings strings') l m) :
    Agree Eq (update "attributes" (attributesToDict lib strings) l)
      (update "attributes" (attributesToDict lib strings') m) := by
  have hother : ∀ k ≠ .text "attributes".toList, ∀ a b, UpToAttributes lib strings strings' k a b →
      a = b := fun k hk a b hab => (eq_of_upToAttributes hk hab).1
  have hupdate := h.update (Q := fun _ a b => a = b) "attributes" hother fun a b hab => by
    rw [UpToAttributes, if_pos rfl] at hab
    exact Agree.of_eq hab.2.2
  exact hupdate.mono fun _ _ hlm => hlm.eq

/-- The attributes and the spans of chunks become the same. -/
theorem processChunkAttributes_agree {l m : List (Key × Value)}
    (h : SameItems (UpToSpans lib strings strings') l m) :
    Agree Eq (processChunkAttributes lib strings l) (processChunkAttributes lib strings' m) := by
  have hattributes := h.update
    (Q := fun k a b => if k = .text "spans".toList then SameMaps (UpToAttributes lib strings strings') a b
      else a = b) "attributes"
    (fun k hk a b hab => by rwa [UpToSpans, if_neg hk] at hab)
    fun a b hab => by
      rw [UpToSpans, if_pos rfl] at hab
      refine (Agree.of_eq hab.2.2).mono fun a b hab => ?_
      rwa [if_neg (by decide)]
  refine hattributes.bind fun l m hlm => ?_
  have hspans := hlm.update (Q := fun _ a b => a = b) "spans"
    (fun k hk a b hab => by rwa [if_neg hk] at hab)
    fun a b hab => by
      rw [if_pos rfl] at hab
      exact hab.updateEach fun l m hlm => spanAttributes_agree hlm
  exact hspans.mono fun _ _ hlm => hlm.eq

theorem processTraceAttributes_agree {l m : List (Key × Value)}
    (h : SameItems (UpToChunks lib strings strings') l m) :
    Agree Eq (processTraceAttributes lib strings l) (processTraceAttributes lib strings' m) := by
  have hchunks : ∀ {l m}, SameItems (fun k a b =>
      if k = .text "chunks".toList then SameMaps (UpToSpans lib strings strings') a b else a = b) l m →
        Agree Eq (update "chunks" (updateEach (processChunkAttributes lib strings)) l)
          (update "chunks" (updateEach (processChunkAttributes lib strings')) m) := by
    intro l m hlm
    have hupdate := hlm.update (Q := fun _ a b => a = b) "chunks"
      (fun k hk a b hab => by rwa [if_neg hk] at hab)
      fun a b hab => by
        rw [if_pos rfl] at hab
        exact hab.updateEach fun l m hlm => processChunkAttributes_agree hlm
    exact hupdate.mono fun _ _ hlm => hlm.eq
  have hother : ∀ k ≠ .text "attributes".toList, ∀ a b, UpToChunks lib strings strings' k a b →
      if k = .text "chunks".toList then SameMaps (UpToSpans lib strings strings') a b else a = b :=
    fun k hk a b hab => by rwa [UpToChunks, if_neg hk] at hab
  rw [processTraceAttributes, processTraceAttributes, processRootAttributes, processRootAttributes]
  rcases h.find "attributes" with ⟨hl, hm⟩ | ⟨a, b, hl, hm, hab⟩
  · rw [hl, hm]
    exact hchunks (h.of_find_eq_none hl hother)
  · rw [UpToChunks, if_pos rfl] at hab
    obtain ⟨⟨as, rfl⟩, ⟨bs, rfl⟩, heq⟩ := hab
    rw [hl, hm]
    have hput := (Agree.of_eq heq).bind fun a b hab =>
      Agree.ok (h.put hother (show ite _ _ (a = b) by rwa [if_neg (by decide)]))
    exact hput.bind fun l m hlm => hchunks hlm

end Fields

section Payloads

open Raised

variable (lib : Library)

theorem keepsTexts_resolve (entries : List Str) : KeepsTexts (Ref.resolve entries) := fun _ => rfl

/-- The code's table has what the positions stand for. -/
theorem readable_of_supported {payload : Payload} (hstreamed : IsStreamed payload)
    (hsupported : IsSupported payload) {p : Position} (hp : p ∈ positions payload) :
    Readable ([] :: unstreamStrings (encode payload)) (Ref.resolve (table [] (refs payload))) p := by
  intro n hn
  obtain ⟨hresolved, hagreed⟩ := hsupported p hp n hn
  have hmem : .idx n ∈ refs payload := hn ▸ List.mem_map_of_mem hp
  have hseen := getElem?_seen ([] : Str) hagreed
  have hrefs : ((positions payload).map fun p => (p.inTable, p.ref)).map Prod.snd = refs payload := by
    rw [List.map_map]
    rfl
  rw [seen_eq_inTable, ← unstreamStrings_payload, hrefs] at hseen
  have hlt : n < (table ([] : Str) (refs payload)).length := lt_length_table hstreamed hmem
  have hget := List.getElem?_eq_getElem hlt
  exact ⟨hresolved, _, hseen.trans hget, Ref.resolve_idx hget⟩

theorem deserializeV1Trace_encode {payload : Payload} {content : List UInt8}
    (h : lib.unpackb content = .ok (encode payload)) :
    deserializeV1Trace lib content =
      if payload = [] then .ok (.dict []) else (do
        let strings := [] :: unstreamStrings (encode payload)
        let data ← uncompressKeys lib strings (payload.map PayloadField.encode)
        let data ← processTraceAttributes lib strings data
        Value.dict <$> update "chunks" (updateEach (deserializeTraceId lib)) data) := by
  rw [deserializeV1Trace, h, Raised.ok_bind, encode]
  cases payload with
  | nil => rfl
  | cons field payload => rfl

/-- **A payload comes out as if no position had been sent.** -/
theorem deserializeV1Trace_eq {payload : Payload} (hstreamed : IsStreamed payload)
    (hsupported : IsSupported payload) {content content' : List UInt8}
    (h : lib.unpackb content = .ok (encode payload))
    (h' : lib.unpackb content' = .ok (encode (uncompressed payload))) :
    deserializeV1Trace lib content = deserializeV1Trace lib content' := by
  have hf := keepsTexts_resolve (table [] (refs payload))
  have hempty : uncompressed payload = [] ↔ payload = [] := by
    rw [uncompressed, mapPayload, List.map_eq_nil_iff]
  rw [deserializeV1Trace_encode lib h, deserializeV1Trace_encode lib h']
  by_cases hpayload : payload = []
  · rw [if_pos hpayload, if_pos (hempty.mpr hpayload)]
  · rw [if_neg hpayload, if_neg fun hnil => hpayload (hempty.mp hnil)]
    refine Agree.eq ((uncompressKeys_agree hf fun p hp =>
      readable_of_supported hstreamed hsupported hp).bind fun l m hlm => ?_)
    refine (processTraceAttributes_agree hlm).bind ?_
    rintro data _ rfl
    exact .of_eq rfl

/-- A chunk with a span whose name is sent as the position of its service. -/
def samplePayload : Payload :=
  [.chunks [[.scalar ⟨6, by decide⟩ (.bytes [0x2A]),
    .spans [[.text ⟨1, by decide⟩ (.lit "web".toList), .text ⟨2, by decide⟩ (.idx 1)]]]]]

def sampleContent : List UInt8 :=
  [0x81, 0x0B, 0x91, 0x82, 0x06, 0xC4, 0x01, 0x2A, 0x04, 0x91, 0x82, 0x01, 0xA3, 0x77, 0x65, 0x62,
    0x02, 0x01]

def sampleUncompressed : List UInt8 :=
  [0x81, 0x0B, 0x91, 0x82, 0x06, 0xC4, 0x01, 0x2A, 0x04, 0x91, 0x82, 0x01, 0xA3, 0x77, 0x65, 0x62,
    0x02, 0xA3, 0x77, 0x65, 0x62]

/-- MessagePack on the bytes of the sample. -/
def sampleLibrary : Library where
  unpackb bytes :=
    if bytes = sampleContent then .ok (encode samplePayload)
    else if bytes = sampleUncompressed then .ok (encode (uncompressed samplePayload))
    else .error (.inPackage "msgpack".toList)
  loads _ := .error []
  loadsBytes _ := .error []
  b64decodeValid _ := .error []
  decompress _ := .error []
  utf8Message _ := []
  toInt _ := .error (.valueError [])
  toStr _ := []

theorem deserializeV1Trace_eq_sample :
    deserializeV1Trace sampleLibrary sampleContent =
      deserializeV1Trace sampleLibrary sampleUncompressed := by
  have hstreamed : IsStreamed samplePayload := ⟨by decide, trivial⟩
  have hsupported : IsSupported samplePayload := by
    intro p hp n hn
    rcases List.mem_cons.mp hp with rfl | hp
    · cases hn
    · obtain rfl := List.mem_singleton.mp hp
      cases hn
      exact ⟨rfl, by decide⟩
  exact deserializeV1Trace_eq sampleLibrary hstreamed hsupported rfl rfl

end Payloads

end TraceV1
end Proxy
end SystemTests
