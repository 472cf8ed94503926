import Mathlib.Data.Char
import Mathlib.Data.List.Lex
import SystemTests.Foundation.Numeral

/-!
# The order of recorded messages

A producer counts its messages and writes each into a file whose name starts with the
counter, padded with zeros; an interface keeps its messages sorted by file name.  The
order of the names is the order of the counters as long as the counters fit the
padding: the name of the first counter that is longer sorts into the names before it.

**Results.**
* `recorded_run`: the counters of a run, and the file names made from them.
* `logFilename_lt`, `logFilename_overflow`: the order of file names, below and at the
  first counter that is longer than the padding.
* `getData_inOrder_iff`: the messages come in the order of their counters if and only if
  there are not more of them than the padding has numbers.
-/

namespace SystemTests
namespace Interfaces
namespace ArrivalOrder

open Foundation Foundation.Text Foundation.Numeral

section Model

/-- The producers of recorded messages. -/
inductive Producer where
  | mockedBackend (logFolder : Str)
  | proxy (logFolder interface : Str)

namespace Producer

def folder : Producer → Str
  | .mockedBackend logFolder => logFolder
  | .proxy logFolder interface => logFolder ++ "/interfaces/".toList ++ interface

/-- The padding: `{message_count:03d}` and `{message_count:05d}`. -/
def width : Producer → Nat
  | .mockedBackend _ => 3
  | .proxy _ _ => 5

/-- Requests that control the mocked backend are not recorded. -/
def records (producer : Producer) (path : Str) : Bool :=
  match producer with
  | .mockedBackend _ => ¬ "/system-tests".toList <+: path
  | .proxy _ _ => true

def logFilename (producer : Producer) (messageCount : Nat) (path : Str) : Str :=
  producer.folder ++ '/' :: (padded producer.width messageCount ++
    '_' :: (replace ['/'] ['_'] path ++ ".json".toList))

end Producer

structure Message where
  messageCount : Nat
  path : Str
  logFilename : Str

/-- The counter of a producer, and the messages it has recorded. -/
structure Recorder where
  messageCount : Nat
  messages : List Message

def Producer.handle (producer : Producer) (recorder : Recorder) (path : Str) : Recorder :=
  if producer.records path then
    ⟨recorder.messageCount + 1, recorder.messages ++ [⟨recorder.messageCount, path,
      producer.logFilename recorder.messageCount path⟩]⟩
  else recorder

def Producer.run (producer : Producer) (requests : List Str) : Recorder :=
  requests.foldl producer.handle ⟨0, []⟩

/-- `_append_data`, and `_data_list.sort(key=lambda data: data["log_filename"])` -/
def onMessage (dataList : List Message) (data : Message) : List Message :=
  (dataList ++ [data]).mergeSort fun a b => decide (a.logFilename ≤ b.logFilename)

/-- What `get_data` yields after messages have arrived. -/
def getData (arrived : List Message) : List Message := arrived.foldl onMessage []

end Model

section Recording

variable {producer : Producer}

/-- The counters so far, and the names made from them. -/
structure Recorded (producer : Producer) (recorder : Recorder) : Prop where
  counts : recorder.messages.map Message.messageCount = List.range recorder.messageCount
  names : ∀ m ∈ recorder.messages, m.logFilename = producer.logFilename m.messageCount m.path

theorem Recorded.handle {recorder : Recorder} (h : Recorded producer recorder) (path : Str) :
    Recorded producer (producer.handle recorder path) := by
  unfold Producer.handle
  split_ifs
  · refine ⟨?_, ?_⟩
    · rw [List.map_append, h.counts, List.map_singleton, List.range_succ]
    · rw [List.forall_mem_append]
      refine ⟨h.names, ?_⟩
      rw [List.forall_mem_singleton]
  · exact h

theorem recorded_run (producer : Producer) (requests : List Str) :
    Recorded producer (producer.run requests) := by
  have hrun : ∀ (requests : List Str) (recorder : Recorder), Recorded producer recorder →
      Recorded producer (requests.foldl producer.handle recorder) := by
    intro requests
    induction requests with
    | nil => exact fun _ h => h
    | cons path requests ih => exact fun recorder h => ih _ (h.handle path)
  exact hrun requests ⟨0, []⟩ ⟨rfl, by simp⟩

end Recording

section Names

theorem append_lt_append {s t : Str} (x y : Str) (hlength : s.length = t.length) (h : s < t) :
    s ++ x < t ++ y := by
  induction s generalizing t with
  | nil =>
      obtain rfl : t = [] := List.length_eq_zero_iff.mp hlength.symm
      exact absurd h (lt_irrefl _)
  | cons c s ih =>
      cases t with
      | nil => cases hlength
      | cons d t =>
          rw [List.cons_lt_cons_iff] at h
          rw [List.cons_append, List.cons_append, List.cons_lt_cons_iff]
          rcases h with h | ⟨rfl, h⟩
          · exact Or.inl h
          · exact Or.inr ⟨rfl, ih (Nat.succ.inj hlength) h⟩

theorem append_lt_append_left_iff (p : Str) {x y : Str} : p ++ x < p ++ y ↔ x < y := by
  induction p with
  | nil => rfl
  | cons c p ih =>
      rw [List.cons_append, List.cons_append, List.cons_lt_cons_iff, ih]
      constructor
      · rintro (h | ⟨-, h⟩)
        · exact absurd h (lt_irrefl _)
        · exact h
      · exact fun h => Or.inr ⟨rfl, h⟩

theorem width_pos (producer : Producer) : 0 < producer.width := by
  cases producer with
  | mockedBackend => exact Nat.succ_pos 2
  | proxy => exact Nat.succ_pos 4

/-- Names of counters that fit the padding are in order. -/
theorem logFilename_lt (producer : Producer) {i j : Nat} (hlt : i < j)
    (hj : j < 10 ^ producer.width) (path path' : Str) :
    producer.logFilename i path < producer.logFilename j path' := by
  have hwidth := width_pos producer
  have hlength : (padded producer.width i).length = (padded producer.width j).length := by
    rw [length_padded (hlt.trans hj) hwidth, length_padded hj hwidth]
  unfold Producer.logFilename
  rw [append_lt_append_left_iff, List.cons_lt_cons_iff]
  exact Or.inr ⟨rfl, append_lt_append _ _ hlength (padded_lt_padded hlt hj hwidth)⟩

/-- The first counter that is too long sorts before the counter with one zero less. -/
theorem logFilename_overflow (producer : Producer) (path path' : Str) :
    producer.logFilename (10 ^ producer.width) path <
      producer.logFilename (10 ^ (producer.width - 1)) path' := by
  have hzero : ∀ x y : Str, '0' :: x < '_' :: y := by
    intro x y
    rw [List.cons_lt_cons_iff]
    exact Or.inl (by decide)
  unfold Producer.logFilename
  rw [append_lt_append_left_iff, List.cons_lt_cons_iff]
  refine Or.inr ⟨rfl, ?_⟩
  cases producer with
  | mockedBackend =>
      have hlong : padded 3 (10 ^ 3) = "100".toList ++ ['0'] := by decide
      have hshort : padded 3 (10 ^ (3 - 1)) = "100".toList := by decide
      change padded 3 (10 ^ 3) ++ _ < padded 3 (10 ^ (3 - 1)) ++ _
      rw [hlong, hshort, List.append_assoc, append_lt_append_left_iff]
      exact hzero _ _
  | proxy =>
      have hlong : padded 5 (10 ^ 5) = "10000".toList ++ ['0'] := by decide
      have hshort : padded 5 (10 ^ (5 - 1)) = "10000".toList := by decide
      change padded 5 (10 ^ 5) ++ _ < padded 5 (10 ^ (5 - 1)) ++ _
      rw [hlong, hshort, List.append_assoc, append_lt_append_left_iff]
      exact hzero _ _

end Names

section Order

theorem getData_perm_pairwise (arrived : List Message) : (getData arrived).Perm arrived ∧
    (getData arrived).Pairwise fun a b => a.logFilename ≤ b.logFilename := by
  induction arrived using List.reverseRecOn with
  | nil => exact ⟨List.Perm.refl _, List.Pairwise.nil⟩
  | append_singleton arrived m ih =>
      rw [getData, List.foldl_append]
      change (onMessage (getData arrived) m).Perm _ ∧ (onMessage (getData arrived) m).Pairwise _
      refine ⟨(List.mergeSort_perm _ _).trans (ih.1.append_right [m]), ?_⟩
      refine (List.pairwise_mergeSort ?_ ?_ _).imp fun h => by simpa using h
      · intro a b c hab hbc
        rw [decide_eq_true_eq] at hab hbc ⊢
        exact le_trans hab hbc
      · intro a b
        rw [Bool.or_eq_true, decide_eq_true_eq, decide_eq_true_eq]
        exact le_total _ _

variable {producer : Producer} {recorder : Recorder} {arrived : List Message}

theorem logFilename_of_mem (h : Recorded producer recorder)
    (harrived : arrived.Perm recorder.messages) {m : Message} (hm : m ∈ getData arrived) :
    m.logFilename = producer.logFilename m.messageCount m.path ∧
      m.messageCount < recorder.messageCount := by
  have hmem := (harrived.mem_iff).mp ((getData_perm_pairwise arrived).1.mem_iff.mp hm)
  refine ⟨h.names m hmem, ?_⟩
  rw [← List.mem_range, ← h.counts]
  exact List.mem_map_of_mem hmem

theorem getData_of_le (h : Recorded producer recorder) (harrived : arrived.Perm recorder.messages)
    (hle : recorder.messageCount ≤ 10 ^ producer.width) :
    (getData arrived).map Message.messageCount = List.range recorder.messageCount := by
  obtain ⟨hperm, hsorted⟩ := getData_perm_pairwise arrived
  refine List.Perm.eq_of_pairwise ?_ ?_ List.pairwise_le_range ?_
  · intro i j _ _ hij hji
    exact le_antisymm hij hji
  · rw [List.pairwise_map]
    refine hsorted.imp_of_mem ?_
    intro a b ha hb hab
    by_contra hlt
    obtain ⟨hnameA, hcountA⟩ := logFilename_of_mem h harrived ha
    obtain ⟨hnameB, -⟩ := logFilename_of_mem h harrived hb
    rw [hnameA, hnameB] at hab
    exact absurd hab (not_le.mpr
      (logFilename_lt producer (not_le.mp hlt) (hcountA.trans_le hle) _ _))
  · rw [← h.counts]
    exact (hperm.trans harrived).map _

/-- In the order of the counters the names would be sorted, and two of them are not. -/
theorem le_of_getData (h : Recorded producer recorder) (harrived : arrived.Perm recorder.messages)
    (hcounts : (getData arrived).map Message.messageCount = List.range recorder.messageCount) :
    recorder.messageCount ≤ 10 ^ producer.width := by
  by_contra hlt
  rw [not_le] at hlt
  have hlength : (getData arrived).length = recorder.messageCount := by
    rw [← List.length_map Message.messageCount, hcounts, List.length_range]
  have hsmaller : 10 ^ (producer.width - 1) < 10 ^ producer.width :=
    Nat.pow_lt_pow_right (by decide) (Nat.sub_lt (width_pos producer) Nat.one_pos)
  have hcount : ∀ i (hi : i < (getData arrived).length),
      ((getData arrived)[i]).messageCount = i := by
    intro i hi
    have hget : ((getData arrived).map Message.messageCount)[i]? = some i := by
      rw [hcounts, List.getElem?_range (by omega)]
    rw [List.getElem?_map, List.getElem?_eq_getElem hi] at hget
    exact Option.some.inj hget
  have hj : 10 ^ producer.width < (getData arrived).length := by omega
  have hi : 10 ^ (producer.width - 1) < (getData arrived).length := by omega
  have hle := List.pairwise_iff_getElem.mp (getData_perm_pairwise arrived).2 _ _ hi hj hsmaller
  rw [(logFilename_of_mem h harrived (List.getElem_mem hi)).1,
    (logFilename_of_mem h harrived (List.getElem_mem hj)).1, hcount _ hi, hcount _ hj] at hle
  exact absurd (logFilename_overflow producer _ _) (not_lt.mpr hle)

/-- **The messages come in the order of their counters if and only if the counters fit
the padding of the file names.** -/
theorem getData_inOrder_iff (producer : Producer) (requests : List Str)
    (harrived : arrived.Perm (producer.run requests).messages) :
    (getData arrived).map Message.messageCount =
        List.range (producer.run requests).messages.length ↔
      (producer.run requests).messages.length ≤ 10 ^ producer.width := by
  have hrecorded := recorded_run producer requests
  have hlength : (producer.run requests).messages.length = (producer.run requests).messageCount := by
    rw [← List.length_map Message.messageCount, hrecorded.counts, List.length_range]
  rw [hlength]
  exact ⟨le_of_getData hrecorded harrived, getData_of_le hrecorded harrived⟩

theorem messageCount_run (producer : Producer) (requests : List Str)
    (h : ∀ path ∈ requests, producer.records path = true) :
    (producer.run requests).messageCount = requests.length := by
  have hrun : ∀ (requests : List Str) (recorder : Recorder),
      (∀ path ∈ requests, producer.records path = true) →
        (requests.foldl producer.handle recorder).messageCount =
          recorder.messageCount + requests.length := by
    intro requests
    induction requests with
    | nil => exact fun _ _ => rfl
    | cons path requests ih =>
        intro recorder h
        rw [List.forall_mem_cons] at h
        rw [List.foldl_cons, ih _ h.2, Producer.handle, if_pos h.1, List.length_cons]
        change recorder.messageCount + 1 + _ = _
        omega
  rw [Producer.run, hrun requests ⟨0, []⟩ h]
  exact Nat.zero_add _

/-- 1001 requests to the mocked backend. -/
theorem not_getData_inOrder :
    ¬ ∀ (producer : Producer) (requests : List Str) (arrived : List Message),
      arrived.Perm (producer.run requests).messages →
        (getData arrived).map Message.messageCount =
          List.range (producer.run requests).messages.length := by
  intro hall
  have hrecords : ∀ path ∈ List.replicate 1001 "/api".toList,
      (Producer.mockedBackend "logs").records path = true := by
    intro path hpath
    rw [List.eq_of_mem_replicate hpath]
    decide
  have hcount := messageCount_run (.mockedBackend "logs") _ hrecords
  have hrecorded := recorded_run (.mockedBackend "logs") (List.replicate 1001 "/api")
  have hlength : ((Producer.mockedBackend "logs").run
      (List.replicate 1001 "/api")).messages.length =
        ((Producer.mockedBackend "logs").run (List.replicate 1001 "/api")).messageCount := by
    rw [← List.length_map Message.messageCount, hrecorded.counts, List.length_range]
  have hcounts := hall (.mockedBackend "logs") (List.replicate 1001 "/api") _ (List.Perm.refl _)
  rw [hlength] at hcounts
  have hle := le_of_getData hrecorded (List.Perm.refl _) hcounts
  rw [hcount, List.length_replicate] at hle
  exact absurd hle (by decide)

/-- Two messages that arrive the other way round. -/
theorem getData_inOrder_iff_two :
    (getData ((Producer.proxy "logs" "library").run
      ["/v0.4/traces", "/info"]).messages.reverse).map Message.messageCount = [0, 1] :=
  (getData_inOrder_iff (.proxy "logs" "library") ["/v0.4/traces", "/info"]
    (List.reverse_perm _)).mpr (by decide)

end Order

end ArrivalOrder
end Interfaces
end SystemTests
