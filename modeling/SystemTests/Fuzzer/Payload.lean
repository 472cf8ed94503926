import SystemTests.Foundation.Dict
import SystemTests.Foundation.Draw

/-!
# Mutated payloads (`tests/fuzzer/request_mutator.py`)

The functions that change a payload in place give back what it is after the call.  The
texts of a payload are lists of code points, since a document may hold lone surrogates.
A float is the text of its `repr`.

`_enlarge_dict` and `_enlarge_list` choose a member, by its place here, and go into it
when it is a container.

**Results.**
* `always_mutateItem`, `always_enlargeItem`: changing a value never raises, and keeps
  values that can be reduced so.
* `always_reduceItem`: a value of a kind that can be reduced is.
-/

namespace SystemTests
namespace Fuzzer

open Foundation Foundation.Text Foundation.Draw

abbrev CodePoints := List Nat

def codePointsOf (s : Str) : CodePoints := s.map Char.toNat

inductive Value where
  | none
  | bool (b : Bool)
  | int (n : Int)
  | float (repr : Str)
  | str (s : CodePoints)
  | bytes (b : List UInt8)
  | list (items : List Value)
  | dict (items : List (CodePoints × Value))

section Strings

/-- `string_lists.unicode`: every character, in order. -/
def unicode : List Char :=
  (List.range 0x110000).filterMap fun n => if n.isValidChar then some (Char.ofNat n) else none

/-- `string_lists.latin1` -/
def latin1 : List Char :=
  (List.range' 0x20 0x5F).map Char.ofNat ++ (List.range' 0xA0 0x60).map Char.ofNat

/-- `get_random_string(population, min_length, max_length)` -/
def getRandomString {α : Type} (population : List α) (minLength maxLength : Nat) :
    Draw (List α) := do
  let length ← randrange minLength (maxLength + 1)
  choices population length

/-- `string_lists.get_random_unicode`, imported as `gru` -/
def gru (minLength maxLength : Nat) : Draw Str := getRandomString unicode minLength maxLength

def mutateString {α : Type} (item alphabet : List α) : Draw (List α) :=
  if item.length = 0 then getRandomString alphabet 0 255
  else do
    let start ← randrange 0 item.length
    let stop ← randrange start item.length
    let c ← choice alphabet
    return item.take start ++ [c] ++ item.drop stop

end Strings

section Items

def randomNumber : Draw Value :=
  choice [.int (-(2 ^ 64) - 1), .int (-1025), .int (-100000), .int 1025, .int 0, .int 1,
    .int (-1), .int 100000, .int (2 ^ 64 + 1), .float "0.0", .float "0.1", .float "3.14"]

mutual

def mutateItem : Value → Draw Value
  -- a boolean is a number
  | .bool _ | .int _ | .float _ => randomNumber
  | .str s => do
      let s ← mutateString s (codePointsOf unicode)
      return .str s
  | .list items =>
      if items.length = 0 then pure (.list items)
      else do
        let i ← randrange 0 items.length
        let items ← mutateAt i items
        return .list items
  | .dict items =>
      if items.length = 0 then pure (.dict items)
      else do
        let key ← choice (items.map Prod.fst)
        let items ← mutateKey key items
        return .dict items
  | v => pure v

/-- `item[i] = _mutate_item(item[i])` of a list -/
def mutateAt : Nat → List Value → Draw (List Value)
  | _, [] => throw (.indexError "list index out of range")
  | 0, v :: vs => do
      let v ← mutateItem v
      return v :: vs
  | i + 1, v :: vs => do
      let vs ← mutateAt i vs
      return v :: vs

/-- `item[key] = _mutate_item(item[key])` of a dict -/
def mutateKey : CodePoints → List (CodePoints × Value) → Draw (List (CodePoints × Value))
  | _, [] => throw (.keyError [])
  | key, (k, v) :: items =>
      if k = key then do
        let v ← mutateItem v
        return (k, v) :: items
      else do
        let items ← mutateKey key items
        return (k, v) :: items

end

def reduceItem : Value → Draw Value
  | .none => throw (.typeError "object of type 'NoneType' has no len()")
  | .bytes b =>
      if b.length = 0 then pure (.bytes b)
      else throw (.valueError "Can't enlarge <class 'bytes'>")
  | .list items =>
      if items.length = 0 then pure (.list items)
      else do
        let i ← randrange 0 items.length
        return .list (items.eraseIdx i)
  | .dict items =>
      if items.length = 0 then pure (.dict items)
      else do
        let key ← choice (items.map Prod.fst)
        return .dict (items.filter fun item => item.1 ≠ key)
  | v => pure v

variable (key : CodePoints) (value : Value)

mutual

/-- A container with something put into it, nothing for other values. -/
def enlargeContainer : Value → Option (Draw Value)
  | .dict items =>
      some (if items.length = 0 then pure (.dict [(key, value)])
        else do
          let i ← randrange 0 items.length
          match enlargeMember i items with
          | some enlarged => do
              let items ← enlarged
              return .dict items
          | none => return .dict (Dict.setItems key value items))
  | .list items =>
      some (if items.length = 0 then pure (.list [value])
        else do
          let i ← randrange 0 items.length
          match enlargeElement i items with
          | some enlarged => do
              let items ← enlarged
              return .list items
          | none => do
              let j ← randrange 0 items.length
              return .list (items.insertIdx j value))
  | _ => none

/-- The members of a dict when one of them is a container that is enlarged. -/
def enlargeMember : Nat → List (CodePoints × Value) → Option (Draw (List (CodePoints × Value)))
  | _, [] => none
  | 0, (k, v) :: items =>
      (enlargeContainer v).map fun enlarged => do
        let v ← enlarged
        return (k, v) :: items
  | i + 1, item :: items =>
      (enlargeMember i items).map fun enlarged => do
        let items ← enlarged
        return item :: items

/-- The elements of a list when one of them is a container that is enlarged. -/
def enlargeElement : Nat → List Value → Option (Draw (List Value))
  | _, [] => none
  | 0, v :: items =>
      (enlargeContainer v).map fun enlarged => do
        let v ← enlarged
        return v :: items
  | i + 1, item :: items =>
      (enlargeElement i items).map fun enlarged => do
        let items ← enlarged
        return item :: items

end

def enlargeItem (item : Value) : Draw Value := (enlargeContainer key value item).getD (pure item)

end Items

section Returns

theorem nul_mem_unicode : Char.ofNat 0 ∈ unicode :=
  List.mem_filterMap.mpr ⟨0, List.mem_range.mpr (by decide), if_pos (by decide)⟩

theorem unicode_ne_nil : unicode ≠ [] := List.ne_nil_of_mem nul_mem_unicode

theorem always_getRandomString {α : Type} {population : List α} (h : population ≠ [])
    {minLength maxLength : Nat} (hle : minLength ≤ maxLength) :
    Always (getRandomString population minLength maxLength) fun s => minLength ≤ s.length := by
  refine (always_randrange (Nat.lt_succ_of_le hle)).bind fun length hlength => ?_
  exact (always_choices h length).imp fun s hs => hs.1 ▸ hlength.1

/-- A text that is not empty is not emptied. -/
theorem always_mutateString {α : Type} {item alphabet : List α} (h : alphabet ≠ []) :
    Always (mutateString item alphabet) fun s => item ≠ [] → s ≠ [] := by
  unfold mutateString
  refine Always.ite (fun hlength => ?_) fun hlength => ?_
  · refine (always_getRandomString h (Nat.zero_le _)).imp fun s _ hne => ?_
    exact absurd (List.eq_nil_of_length_eq_zero hlength) hne
  · refine (always_randrange (Nat.pos_of_ne_zero hlength)).bind fun start hstart => ?_
    refine (always_randrange hstart.2).bind fun stop _ => ?_
    exact (always_choice h).bind fun c _ => always_pure fun _ => by simp

theorem always_gru {minLength maxLength : Nat} (hle : minLength ≤ maxLength) :
    Always (gru minLength maxLength) fun s => minLength ≤ s.length :=
  always_getRandomString unicode_ne_nil hle

/-- A value of a kind that can be reduced. -/
def Reducible : Value → Prop
  | .none => False
  | .bytes b => b.length = 0
  | _ => True

theorem always_randomNumber : Always randomNumber Reducible := by
  refine (always_choice (by simp)).imp fun v hv => ?_
  simp only [List.mem_cons, List.not_mem_nil, or_false] at hv
  rcases hv with rfl | rfl | rfl | rfl | rfl | rfl | rfl | rfl | rfl | rfl | rfl | rfl <;> trivial

mutual

/-- **Mutating a value never raises.** -/
theorem always_mutateItem : ∀ v, Always (mutateItem v) fun v' => Reducible v → Reducible v'
  | .none => always_pure id
  | .bytes _ => always_pure id
  | .bool _ => always_randomNumber.imp fun _ h _ => h
  | .int _ => always_randomNumber.imp fun _ h _ => h
  | .float _ => always_randomNumber.imp fun _ h _ => h
  | .str s => by
      rw [mutateItem]
      have halphabet : codePointsOf unicode ≠ [] := by simpa [codePointsOf] using unicode_ne_nil
      exact (always_mutateString halphabet).bind fun _ _ => always_pure fun _ => trivial
  | .list items => by
      rw [mutateItem]
      refine Always.ite (fun _ => always_pure id) fun hlength => ?_
      refine (always_randrange (Nat.pos_of_ne_zero hlength)).bind fun i hi => ?_
      exact (always_mutateAt i items hi.2).bind fun _ _ => always_pure fun _ => trivial
  | .dict items => by
      rw [mutateItem]
      refine Always.ite (fun _ => always_pure id) fun hlength => ?_
      have hkeys : items.map Prod.fst ≠ [] := by
        simpa using List.ne_nil_of_length_pos (Nat.pos_of_ne_zero hlength)
      refine (always_choice hkeys).bind fun key hkey => ?_
      exact (always_mutateKey key items hkey).bind fun _ _ => always_pure fun _ => trivial

theorem always_mutateAt : ∀ (i : Nat) (items : List Value), i < items.length →
    Always (mutateAt i items) fun _ => True
  | _, [], h => absurd h (Nat.not_lt_zero _)
  | 0, v :: _, _ => by
      rw [mutateAt]
      exact (always_mutateItem v).bind fun _ _ => always_pure trivial
  | i + 1, _ :: items, h => by
      rw [mutateAt]
      exact (always_mutateAt i items (Nat.lt_of_succ_lt_succ h)).bind fun _ _ =>
        always_pure trivial

theorem always_mutateKey : ∀ (key : CodePoints) (items : List (CodePoints × Value)),
    key ∈ items.map Prod.fst → Always (mutateKey key items) fun _ => True
  | _, [], h => absurd h List.not_mem_nil
  | key, (k, v) :: items, h => by
      rw [mutateKey]
      refine Always.ite (fun _ => ?_) fun hk => ?_
      · exact (always_mutateItem v).bind fun _ _ => always_pure trivial
      · have hkey : key ∈ items.map Prod.fst :=
          (List.mem_cons.mp h).resolve_left fun heq => hk heq.symm
        exact (always_mutateKey key items hkey).bind fun _ _ => always_pure trivial

end

/-- **A value of a kind that can be reduced is.** -/
theorem always_reduceItem {v : Value} (h : Reducible v) : Always (reduceItem v) Reducible := by
  cases v with
  | none => exact h.elim
  | bytes b =>
      have hlength : b.length = 0 := h
      rw [reduceItem, if_pos hlength]
      exact always_pure h
  | list items =>
      rw [reduceItem]
      refine Always.ite (fun _ => always_pure trivial) fun hlength => ?_
      exact (always_randrange (Nat.pos_of_ne_zero hlength)).bind fun _ _ => always_pure trivial
  | dict items =>
      rw [reduceItem]
      refine Always.ite (fun _ => always_pure trivial) fun hlength => ?_
      have hkeys : items.map Prod.fst ≠ [] := by
        simpa using List.ne_nil_of_length_pos (Nat.pos_of_ne_zero hlength)
      exact (always_choice hkeys).bind fun _ _ => always_pure trivial
  | _ => exact always_pure trivial

variable (key : CodePoints) (value : Value)

/-- An enlargement returns, if there is one. -/
def Enlarges {α : Type} (enlarged : Option (Draw α)) (post : α → Prop) : Prop :=
  ∀ m ∈ enlarged, Always m post

theorem enlarges_none {α : Type} {post : α → Prop} : Enlarges none post := by
  simp [Enlarges]

theorem enlarges_some {α : Type} {m : Draw α} {post : α → Prop} (h : Always m post) :
    Enlarges (some m) post :=
  fun _ hm => Option.some.inj hm ▸ h

theorem Enlarges.map {α β : Type} {enlarged : Option (Draw α)} {post : α → Prop}
    (h : Enlarges enlarged post) {f : α → β} :
    Enlarges (enlarged.map fun m => (do let a ← m; return f a)) fun _ => True := by
  intro m hm
  obtain ⟨m', hm', rfl⟩ := Option.mem_map.mp hm
  exact (h m' hm').bind fun _ _ => always_pure trivial

mutual

theorem enlarges_container : ∀ v, Enlarges (enlargeContainer key value v) Reducible
  | .dict items => by
      rw [enlargeContainer]
      refine enlarges_some (Always.ite (fun _ => always_pure trivial) fun hlength => ?_)
      refine (always_randrange (Nat.pos_of_ne_zero hlength)).bind fun i _ => ?_
      cases henlarged : enlargeMember key value i items with
      | none => exact always_pure trivial
      | some enlarged =>
          exact (enlarges_member i items enlarged henlarged).bind fun _ _ => always_pure trivial
  | .list items => by
      rw [enlargeContainer]
      refine enlarges_some (Always.ite (fun _ => always_pure trivial) fun hlength => ?_)
      refine (always_randrange (Nat.pos_of_ne_zero hlength)).bind fun i _ => ?_
      cases henlarged : enlargeElement key value i items with
      | none =>
          exact (always_randrange (Nat.pos_of_ne_zero hlength)).bind fun _ _ =>
            always_pure trivial
      | some enlarged =>
          exact (enlarges_element i items enlarged henlarged).bind fun _ _ => always_pure trivial
  | .none | .bool _ | .int _ | .float _ | .str _ | .bytes _ => enlarges_none

theorem enlarges_member : ∀ (i : Nat) (items : List (CodePoints × Value)),
    Enlarges (enlargeMember key value i items) fun _ => True
  | _, [] => by
      rw [enlargeMember]
      exact enlarges_none
  | 0, (_, v) :: _ => by
      rw [enlargeMember]
      exact (enlarges_container v).map
  | i + 1, _ :: items => by
      rw [enlargeMember]
      exact (enlarges_member i items).map

theorem enlarges_element : ∀ (i : Nat) (items : List Value),
    Enlarges (enlargeElement key value i items) fun _ => True
  | _, [] => by
      rw [enlargeElement]
      exact enlarges_none
  | 0, v :: _ => by
      rw [enlargeElement]
      exact (enlarges_container v).map
  | i + 1, _ :: items => by
      rw [enlargeElement]
      exact (enlarges_element i items).map

end

/-- **Enlarging a value never raises.** -/
theorem always_enlargeItem (v : Value) :
    Always (enlargeItem key value v) fun v' => Reducible v → Reducible v' := by
  unfold enlargeItem
  cases henlarged : enlargeContainer key value v with
  | none => exact always_pure id
  | some enlarged =>
      exact (enlarges_container key value v enlarged henlarged).imp fun _ h _ => h

end Returns

end Fuzzer
end SystemTests
