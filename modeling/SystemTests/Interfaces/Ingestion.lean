import SystemTests.Foundation.Dict
import SystemTests.Foundation.Exception
import SystemTests.Foundation.Json
import Mathlib.Data.List.Lex
import Mathlib.Data.List.Perm.Basic

/-!
# Ingestion of log files (`ProxyBasedInterfaceValidator`, `utils/interfaces/_core.py`)

An interface gets the messages of its log files in two ways: live, from the
events of a watchdog on its folder, and in replay mode, by one pass over the
folder.

A file may be unfinished when an event for it is handled: what is read then is a
prefix of its text (the writer escapes what is not ASCII, so that no character
can be cut).  Strings are compared by their code points.

**Results.**
* `ingestFile_keeps`: one event keeps the data sorted and free of duplicates.
* `loadDataFromLogs_eq`: what the pass over the folder yields.
* `ingestion_eq_replay`: after enough events both ways give the same data.
-/

namespace SystemTests
namespace Interfaces

open Foundation Foundation.Text Foundation.Json

def codePoints (s : Str) : List Nat := s.map Char.toNat

/-- An entry of a folder: a file with its text, or a folder. -/
inductive FileEntry where
  | file (text : Str)
  | directory
deriving DecidableEq

structure Interface where
  dataList : List Json
  ingestedFiles : List Str

def Interface.new : Interface := ⟨[], []⟩

/-- `data["log_filename"]`; the last member of a name counts. -/
def logFilename : Json → Except Raised (List Nat)
  | .object members =>
      match (members.filter fun member => member.1 = codePoints "log_filename").getLast? with
      | some (_, .string name) => return name
      | some _ => throw (.typeError "'<' not supported")
      | none => throw (.keyError "log_filename")
  | _ => throw (.typeError "indices must be integers")

/-- `data_list.sort(key=lambda data: data["log_filename"])` -/
def sortData (dataList : List Json) : Except Raised (List Json) := do
  let keyed ← dataList.mapM fun data => do
    let key ← logFilename data
    return (key, data)
  return (keyed.mergeSort fun a b => decide (a.1 ≤ b.1)).map Prod.snd

/-- `ingest_file`, up to the wait function; `text` is what the file holds by then. -/
def ingestFile (srcPath text : Str) (interface : Interface) : Except Raised Interface :=
  if srcPath ∈ interface.ingestedFiles then return interface
  else
    match jsonLoad text with
    | none => return interface
    | some data => do
        let dataList ← sortData (interface.dataList ++ [data])
        return ⟨dataList, interface.ingestedFiles ++ [srcPath]⟩

/-- An event of the watchdog for a file of the folder. -/
structure Event where
  name : Str
  text : Str
deriving DecidableEq

/-- The path that the watchdog gives to a file of the folder. -/
def srcPath (logFolder name : Str) : Str := logFolder ++ "/" ++ name

def ingestAll (logFolder : Str) (events : List Event) (interface : Interface) :
    Except Raised Interface :=
  events.foldlM (fun interface event =>
    ingestFile (srcPath logFolder event.name) event.text interface) interface

/-- `load_data_from_logs` -/
def loadDataFromLogs (folder : Dict Str FileEntry) (interface : Interface) :
    Except Raised Interface :=
  (folder.items.mergeSort fun a b => decide (codePoints a.1 ≤ codePoints b.1)).foldlM
    (fun interface entry =>
      match entry.2 with
      | .directory => return interface
      | .file text => do
          let data ← Raised.ofOption (.valueError "JSONDecodeError") (jsonLoad text)
          return { interface with dataList := interface.dataList ++ [data] })
    interface

/-- A log file as its writer leaves it: the text of an object that holds the
file's own name, in the folder as the writer sees it. -/
structure IsLog (writtenIn name text : Str) (data : Json) : Prop where
  loads : jsonLoad text = some data
  named : logFilename data = .ok (codePoints (writtenIn ++ "/" ++ name))
  head : text.head? = some '{'
  getLast : text.getLast? = some '}'

/-- A log is recognised by reading its text. -/
theorem exists_isLog {n : Nat} {writtenIn name text : Str} (hn : n ≤ 2 * text.length + 2)
    (hhead : text.head? = some '{') (hlast : text.getLast? = some '}')
    (h : ((parseValue n text).bind fun p => if p.2 = [] then (logFilename p.1).toOption else none) =
      some (codePoints (writtenIn ++ "/" ++ name))) : ∃ data, IsLog writtenIn name text data := by
  obtain ⟨⟨data, rest⟩, hparse, hname⟩ := Option.bind_eq_some_iff.mp h
  split_ifs at hname with hrest
  simp only at hrest hname
  subst hrest
  obtain ⟨t, rfl⟩ : ∃ t, text = '{' :: t := by
    cases text with
    | nil => cases hhead
    | cons c t => exact ⟨t, by rw [Option.some.inj hhead]⟩
  obtain ⟨members, rfl⟩ := exists_object_of_parseValue hparse
  refine ⟨_, jsonLoad_of_parseValue hn (List.dropWhile_cons_of_neg (by decide)) hparse, ?_, hhead, hlast⟩
  cases hlog : logFilename (.object members) with
  | error e =>
      rw [hlog] at hname
      cases hname
  | ok key =>
      rw [hlog] at hname
      rw [Option.some.inj hname]

section CodePoints

theorem codePoints_injective : Function.Injective codePoints :=
  List.map_injective_iff.mpr fun _ _ h => Char.ext (UInt32.toNat_inj.mp h)

theorem srcPath_injective (logFolder : Str) : Function.Injective (srcPath logFolder) :=
  List.append_right_injective _

theorem codePoints_append_lt {s t u : Str} :
    codePoints (s ++ t) < codePoints (s ++ u) ↔ codePoints t < codePoints u := by
  simp only [codePoints, List.map_append]
  constructor
  · intro h
    by_contra hle
    rcases lt_or_eq_of_le (not_lt.mp hle) with hlt | heq
    · exact lt_asymm h (List.append_left_lt hlt)
    · rw [heq] at h
      exact lt_irrefl _ h
  · exact List.append_left_lt

theorem nodup_of_ascending {names : List Str}
    (h : names.Pairwise fun a b => codePoints a < codePoints b) : names.Nodup := by
  refine List.Pairwise.imp ?_ h
  rintro a b hlt rfl
  exact lt_irrefl _ hlt

/-- Two ascending lists of the same names are one list. -/
theorem eq_of_ascending {names names' : List Str}
    (h : names.Pairwise fun a b => codePoints a < codePoints b)
    (h' : names'.Pairwise fun a b => codePoints a < codePoints b)
    (hmem : ∀ name, name ∈ names ↔ name ∈ names') : names = names' := by
  refine List.Perm.eq_of_pairwise ?_ h h'
    ((List.perm_ext_iff_of_nodup (nodup_of_ascending h) (nodup_of_ascending h')).mpr hmem)
  intro a b _ _ hab hba
  exact absurd hba (lt_asymm hab)

end CodePoints

/-- The message of a file of the folder. -/
def messageOf (folder : Dict Str FileEntry) (name : Str) : Option Json :=
  match folder.get? name with
  | some (.file text) => jsonLoad text
  | _ => none

/-- The files of the folder are logs. -/
def IsLogFolder (writtenIn : Str) (folder : Dict Str FileEntry) : Prop :=
  ∀ name text, folder.get? name = some (.file text) → ∃ data, IsLog writtenIn name text data

/-- The data are the messages of the names, one by one. -/
abbrev Messages (folder : Dict Str FileEntry) : List Str → List Json → Prop :=
  List.Forall₂ fun name data => messageOf folder name = some data

section Sorting

variable {folder : Dict Str FileEntry} {writtenIn : Str}

theorem messageOf_file {name text : Str} (h : folder.get? name = some (.file text)) :
    messageOf folder name = jsonLoad text := by
  rw [messageOf, h]

theorem logFilename_of_messageOf (hfolder : IsLogFolder writtenIn folder) {name : Str} {data : Json}
    (h : messageOf folder name = some data) :
    logFilename data = .ok (codePoints (writtenIn ++ "/" ++ name)) := by
  unfold messageOf at h
  split at h
  · rename_i text htext
    obtain ⟨data', hlog⟩ := hfolder name text htext
    rw [hlog.loads, Option.some.injEq] at h
    exact h ▸ hlog.named
  · cases h

theorem exists_keyed (hfolder : IsLogFolder writtenIn folder) {names : List Str}
    {dataList : List Json} (h : Messages folder names dataList) :
    ∃ keyed, (dataList.mapM fun data => do
        let key ← logFilename data
        return (key, data)) = .ok keyed ∧
      List.Forall₂ (fun name p => p.1 = codePoints (writtenIn ++ "/" ++ name) ∧
        messageOf folder name = some p.2) names keyed := by
  induction h with
  | nil => exact ⟨[], rfl, List.Forall₂.nil⟩
  | @cons name data names dataList hdata _ ih =>
      obtain ⟨keyed, hkeyed, hnames⟩ := ih
      refine ⟨(codePoints (writtenIn ++ "/" ++ name), data) :: keyed, ?_,
        List.Forall₂.cons ⟨rfl, hdata⟩ hnames⟩
      rw [List.mapM_cons, logFilename_of_messageOf hfolder hdata, Raised.ok_bind, hkeyed]
      rfl

theorem pairwise_mergeSort_key (keyed : List (List Nat × Json)) :
    (keyed.mergeSort fun a b => decide (a.1 ≤ b.1)).Pairwise fun a b => a.1 ≤ b.1 := by
  refine (List.pairwise_mergeSort ?_ ?_ keyed).imp fun {a b} h => by simpa using h
  · intro a b c hab hbc
    simp only [decide_eq_true_eq] at hab hbc ⊢
    exact le_trans hab hbc
  · intro a b
    simp only [Bool.or_eq_true, decide_eq_true_eq]
    exact le_total _ _

/-- The sorting of messages sorts their files. -/
theorem sortData_eq_ok (hfolder : IsLogFolder writtenIn folder) {names : List Str}
    {dataList : List Json} (h : Messages folder names dataList) (hnodup : names.Nodup) :
    ∃ sorted names', sortData dataList = .ok sorted ∧ names'.Perm names ∧
      Messages folder names' sorted ∧
      names'.Pairwise fun a b => codePoints a < codePoints b := by
  obtain ⟨keyed, hkeyed, hnames⟩ := exists_keyed hfolder h
  obtain ⟨names', hnames', hperm⟩ := List.perm_comp_forall₂
    (List.mergeSort_perm keyed fun a b => decide (a.1 ≤ b.1)) hnames.flip
  refine ⟨(keyed.mergeSort fun a b => decide (a.1 ≤ b.1)).map Prod.snd, names', ?_, hperm, ?_, ?_⟩
  · rw [sortData, hkeyed]
    rfl
  · rw [Messages, List.forall₂_map_right_iff]
    exact hnames'.flip.imp fun _ _ h => h.2
  · have hkeys : (keyed.mergeSort fun a b => decide (a.1 ≤ b.1)).map Prod.fst =
        names'.map fun name => codePoints (writtenIn ++ "/" ++ name) := by
      rw [← List.forall₂_eq_eq_eq, List.forall₂_map_left_iff, List.forall₂_map_right_iff]
      exact hnames'.imp fun _ _ h => h.1
    have hsorted : (names'.map fun name => codePoints (writtenIn ++ "/" ++ name)).Pairwise
        (· ≤ ·) := by
      rw [← hkeys, List.pairwise_map]
      exact pairwise_mergeSort_key keyed
    rw [List.pairwise_map] at hsorted
    refine (hsorted.and (hperm.nodup_iff.mpr hnodup)).imp fun {a b} hab => ?_
    rw [← codePoints_append_lt]
    refine lt_of_le_of_ne hab.1 fun heq => hab.2 ?_
    exact List.append_cancel_left (codePoints_injective heq)

end Sorting

section Live

variable {folder : Dict Str FileEntry} {writtenIn logFolder : Str}

/-- What holds of an interface: its data are the messages of the ingested files, sorted. -/
structure Holds (folder : Dict Str FileEntry) (logFolder : Str) (names : List Str)
    (interface : Interface) : Prop where
  messages : Messages folder names interface.dataList
  sorted : names.Pairwise fun a b => codePoints a < codePoints b
  mem_ingestedFiles : ∀ name, srcPath logFolder name ∈ interface.ingestedFiles ↔ name ∈ names

theorem holds_new : Holds folder logFolder [] Interface.new :=
  ⟨List.Forall₂.nil, List.Pairwise.nil, by simp [Interface.new]⟩

/-- An event for a file, finished or not. -/
def Event.Observes (folder : Dict Str FileEntry) (event : Event) : Prop :=
  ∃ text, folder.get? event.name = some (.file text) ∧ event.text <+: text

/-- An unfinished file cannot be loaded. -/
theorem jsonLoad_of_unfinished {name text observed : Str} {data : Json}
    (hlog : IsLog writtenIn name text data) (hobserved : observed <+: text) (hne : observed ≠ text) :
    jsonLoad observed = none := by
  obtain ⟨more, rfl⟩ := hobserved
  have hmore : more ≠ [] := by
    rintro rfl
    simp at hne
  refine jsonLoad_unfinished hlog.loads hlog.head ⟨'}', ?_, by decide⟩
  have hlast := hlog.getLast
  rw [List.getLast?_append_of_ne_nil _ hmore] at hlast
  exact List.mem_of_getLast? hlast

/-- One event: what it adds is the message of its file, if that is finished. -/
theorem ingestFile_keeps (hfolder : IsLogFolder writtenIn folder) {names : List Str}
    {interface : Interface} (h : Holds folder logFolder names interface) {event : Event}
    (hevent : event.Observes folder) :
    ∃ interface' names',
      ingestFile (srcPath logFolder event.name) event.text interface = .ok interface' ∧
      Holds folder logFolder names' interface' ∧ names ⊆ names' ∧
      (∀ name ∈ names', name ∈ names ∨ name = event.name) ∧
      (folder.get? event.name = some (.file event.text) → event.name ∈ names') := by
  obtain ⟨text, htext, hobserved⟩ := hevent
  obtain ⟨data, hlog⟩ := hfolder event.name text htext
  unfold ingestFile
  by_cases hseen : srcPath logFolder event.name ∈ interface.ingestedFiles
  · rw [if_pos hseen]
    exact ⟨interface, names, rfl, h, List.Subset.refl _, fun _ => Or.inl,
      fun _ => (h.mem_ingestedFiles _).mp hseen⟩
  · rw [if_neg hseen]
    by_cases hfinished : event.text = text
    · have hnew : event.name ∉ names := fun hmem => hseen ((h.mem_ingestedFiles _).mpr hmem)
      have hmessages : Messages folder (names ++ [event.name]) (interface.dataList ++ [data]) :=
        List.rel_append h.messages
          (List.Forall₂.cons ((messageOf_file htext).trans hlog.loads) List.Forall₂.nil)
      obtain ⟨sorted, names', hsort, hperm, hsorted, hascend⟩ := sortData_eq_ok hfolder hmessages
        (List.nodup_append.mpr ⟨nodup_of_ascending h.sorted, by simp,
          by simpa using fun x hx => ne_of_mem_of_not_mem hx hnew⟩)
      have hmem : ∀ name, name ∈ names' ↔ name ∈ names ∨ name = event.name := fun name => by
        rw [hperm.mem_iff, List.mem_append, List.mem_singleton]
      rw [hfinished, hlog.loads]
      refine ⟨⟨sorted, interface.ingestedFiles ++ [srcPath logFolder event.name]⟩, names', ?_,
        ⟨hsorted, hascend, fun name => ?_⟩, fun name hname => (hmem name).mpr (Or.inl hname),
        fun name => (hmem name).mp, fun _ => (hmem _).mpr (Or.inr rfl)⟩
      · simp only [hsort, Raised.ok_bind]
        rfl
      · rw [List.mem_append, h.mem_ingestedFiles, List.mem_singleton, hmem,
          (srcPath_injective logFolder).eq_iff]
    · rw [jsonLoad_of_unfinished hlog hobserved hfinished]
      refine ⟨interface, names, rfl, h, List.Subset.refl _, fun _ => Or.inl, fun hfile => ?_⟩
      rw [htext, Option.some.injEq, FileEntry.file.injEq] at hfile
      exact absurd hfile.symm hfinished

theorem ingestAll_keeps (hfolder : IsLogFolder writtenIn folder) :
    ∀ {events : List Event} {names : List Str} {interface : Interface},
      Holds folder logFolder names interface → (∀ event ∈ events, event.Observes folder) →
      ∃ interface' names', ingestAll logFolder events interface = .ok interface' ∧
        Holds folder logFolder names' interface' ∧ names ⊆ names' ∧
        (∀ name ∈ names', name ∈ names ∨ ∃ event ∈ events, event.name = name) ∧
        ∀ event ∈ events, folder.get? event.name = some (.file event.text) → event.name ∈ names'
  | [], names, interface, h, _ =>
      ⟨interface, names, rfl, h, List.Subset.refl _, fun _ => Or.inl, by simp⟩
  | event :: events, names, interface, h, hevents => by
      rw [List.forall_mem_cons] at hevents
      obtain ⟨next, names₁, hnext, hholds, hsub, hfrom, hseen⟩ :=
        ingestFile_keeps hfolder h hevents.1
      obtain ⟨last, names₂, hlast, hholds', hsub', hfrom', hseen'⟩ :=
        ingestAll_keeps hfolder hholds hevents.2
      refine ⟨last, names₂, ?_, hholds', fun name hname => hsub' (hsub hname), fun name hname => ?_, ?_⟩
      · rw [ingestAll, List.foldlM_cons, hnext]
        exact hlast
      · rcases hfrom' name hname with hname | ⟨e, he, rfl⟩
        · rcases hfrom name hname with hname | rfl
          · exact Or.inl hname
          · exact Or.inr ⟨event, List.mem_cons_self, rfl⟩
        · exact Or.inr ⟨e, List.mem_cons_of_mem _ he, rfl⟩
      · rw [List.forall_mem_cons]
        exact ⟨fun hfile => hsub' (hseen hfile), hseen'⟩

end Live

section Replay

variable {folder : Dict Str FileEntry} {writtenIn : Str}

/-- The names of the files among some entries. -/
def fileNames (entries : List (Str × FileEntry)) : List Str :=
  (entries.filter fun entry => entry.2 ≠ .directory).map Prod.fst

theorem mem_fileNames_iff {entries : List (Str × FileEntry)} (hperm : entries.Perm folder.items)
    {name : Str} : name ∈ fileNames entries ↔ ∃ text, folder.get? name = some (.file text) := by
  simp only [fileNames, List.mem_map, List.mem_filter, hperm.mem_iff, Prod.exists,
    exists_and_right, exists_eq_right, ← Dict.mem_items_iff]
  constructor
  · rintro ⟨entry, hmem, hfile⟩
    cases entry with
    | directory => simp at hfile
    | file text => exact ⟨text, hmem⟩
  · rintro ⟨text, hmem⟩
    exact ⟨.file text, hmem, by simp⟩

theorem loadEntries_eq_ok (hfolder : IsLogFolder writtenIn folder) :
    ∀ {entries : List (Str × FileEntry)} (interface : Interface),
      (∀ entry ∈ entries, folder.get? entry.1 = some entry.2) →
      ∃ dataList, entries.foldlM (fun interface entry =>
          match entry.2 with
          | .directory => return interface
          | .file text => do
              let data ← Raised.ofOption (.valueError "JSONDecodeError") (jsonLoad text)
              return { interface with dataList := interface.dataList ++ [data] }) interface =
            .ok { interface with dataList := interface.dataList ++ dataList } ∧
        Messages folder (fileNames entries) dataList
  | [], interface, _ => ⟨[], by simp [pure, Except.pure], List.Forall₂.nil⟩
  | (name, .directory) :: entries, interface, h => by
      rw [List.forall_mem_cons] at h
      obtain ⟨dataList, hload, hmessages⟩ := loadEntries_eq_ok hfolder interface h.2
      exact ⟨dataList, hload, hmessages⟩
  | (name, .file text) :: entries, interface, h => by
      rw [List.forall_mem_cons] at h
      obtain ⟨data, hlog⟩ := hfolder name text h.1
      obtain ⟨dataList, hload, hmessages⟩ := loadEntries_eq_ok hfolder
        { interface with dataList := interface.dataList ++ [data] } h.2
      refine ⟨data :: dataList, ?_, List.Forall₂.cons ?_ hmessages⟩
      · rw [List.foldlM_cons]
        simp only [hlog.loads, Raised.ofOption_some, Raised.ok_bind, pure_bind]
        rw [hload, List.append_assoc, List.singleton_append]
      · rw [messageOf_file h.1, hlog.loads]

/-- The pass over the folder yields the messages of its files, sorted by name. -/
theorem loadDataFromLogs_eq (hfolder : IsLogFolder writtenIn folder) :
    ∃ names interface, loadDataFromLogs folder Interface.new = .ok interface ∧
      Messages folder names interface.dataList ∧
      names.Pairwise (fun a b => codePoints a < codePoints b) ∧
      ∀ name, name ∈ names ↔ ∃ text, folder.get? name = some (.file text) := by
  have hperm := List.mergeSort_perm folder.items
    fun a b => decide (codePoints a.1 ≤ codePoints b.1)
  obtain ⟨dataList, hload, hmessages⟩ := loadEntries_eq_ok hfolder Interface.new
    fun entry hentry => (Dict.mem_items_iff _ _ _).mp (hperm.mem_iff.mp hentry)
  refine ⟨_, _, hload, ?_, ?_, fun name => mem_fileNames_iff hperm⟩
  · simpa [Interface.new] using hmessages
  · have hsorted : (folder.items.mergeSort fun a b =>
        decide (codePoints a.1 ≤ codePoints b.1)).Pairwise
          fun a b => codePoints a.1 ≤ codePoints b.1 := by
      refine (List.pairwise_mergeSort ?_ ?_ _).imp fun {a b} h => by simpa using h
      · intro a b c hab hbc
        simp only [decide_eq_true_eq] at hab hbc ⊢
        exact le_trans hab hbc
      · intro a b
        simp only [Bool.or_eq_true, decide_eq_true_eq]
        exact le_total _ _
    have hnodup := (hperm.map Prod.fst).nodup_iff.mpr folder.nodup
    rw [List.Nodup, List.pairwise_map] at hnodup
    rw [fileNames, List.pairwise_map]
    refine ((hsorted.and hnodup).imp fun {a b} hab => ?_).filter _
    exact lt_of_le_of_ne hab.1 fun heq => hab.2 (codePoints_injective heq)

end Replay

/-- The messages of ascending names ascend. -/
theorem pairwise_of_messages {folder : Dict Str FileEntry} {writtenIn : Str}
    (hfolder : IsLogFolder writtenIn folder) {names : List Str} {dataList : List Json}
    (h : Messages folder names dataList)
    (hsorted : names.Pairwise fun a b => codePoints a < codePoints b) :
    dataList.Pairwise fun a b => ∃ k l, logFilename a = .ok k ∧ logFilename b = .ok l ∧ k < l := by
  induction h with
  | nil => exact List.Pairwise.nil
  | @cons name data names dataList hdata hrest ih =>
      rw [List.pairwise_cons] at hsorted ⊢
      refine ⟨fun data' hdata' => ?_, ih hsorted.2⟩
      have hname : ∃ name' ∈ names, messageOf folder name' = some data' := by
        clear ih hsorted
        induction hrest with
        | nil => simp at hdata'
        | cons hfirst _ ih =>
            rcases List.mem_cons.mp hdata' with rfl | hdata'
            · exact ⟨_, List.mem_cons_self, hfirst⟩
            · obtain ⟨name', hname', heq⟩ := ih hdata'
              exact ⟨name', List.mem_cons_of_mem _ hname', heq⟩
      obtain ⟨name', hname', heq⟩ := hname
      exact ⟨_, _, logFilename_of_messageOf hfolder hdata, logFilename_of_messageOf hfolder heq,
        codePoints_append_lt.mpr (hsorted.1 name' hname')⟩

theorem eq_of_messages {folder : Dict Str FileEntry} {names : List Str} :
    ∀ {dataList dataList' : List Json}, Messages folder names dataList →
      Messages folder names dataList' → dataList = dataList' := by
  intro dataList dataList' h h'
  induction h generalizing dataList' with
  | nil =>
      cases h'
      rfl
  | cons hdata _ ih =>
      cases h' with
      | cons hdata' h' =>
          rw [ih h', Option.some.inj (hdata.symm.trans hdata')]

/-- Live ingestion equals replay: in whatever order the events come, if every file
has one after it is finished, both hold the message of every file once, sorted. -/
theorem ingestion_eq_replay {folder : Dict Str FileEntry} {writtenIn : Str} (logFolder : Str)
    {events : List Event} (hfolder : IsLogFolder writtenIn folder)
    (hevents : ∀ event ∈ events, event.Observes folder)
    (hfinished : ∀ name text, folder.get? name = some (.file text) → ⟨name, text⟩ ∈ events) :
    ∃ live replayed names, ingestAll logFolder events Interface.new = .ok live ∧
      loadDataFromLogs folder Interface.new = .ok replayed ∧
      live.dataList = replayed.dataList ∧
      names.Nodup ∧ (∀ name, name ∈ names ↔ ∃ text, folder.get? name = some (.file text)) ∧
      Messages folder names live.dataList ∧
      live.dataList.Pairwise fun a b => ∃ k l, logFilename a = .ok k ∧ logFilename b = .ok l ∧
        k < l := by
  obtain ⟨live, names, hlive, hholds, -, hfrom, hseen⟩ :=
    ingestAll_keeps hfolder (holds_new : Holds folder logFolder [] Interface.new) hevents
  obtain ⟨names', replayed, hreplayed, hmessages, hascend, hfiles⟩ := loadDataFromLogs_eq hfolder
  have hmem : ∀ name, name ∈ names ↔ ∃ text, folder.get? name = some (.file text) := by
    intro name
    constructor
    · intro hname
      rcases hfrom name hname with hname | ⟨event, hevent, rfl⟩
      · simp at hname
      · obtain ⟨text, htext, -⟩ := hevents event hevent
        exact ⟨text, htext⟩
    · rintro ⟨text, htext⟩
      exact hseen ⟨name, text⟩ (hfinished name text htext) htext
  have hnames : names = names' :=
    eq_of_ascending hholds.sorted hascend fun name => (hmem name).trans (hfiles name).symm
  refine ⟨live, replayed, names, hlive, hreplayed, ?_, nodup_of_ascending hholds.sorted, hmem, hholds.messages, ?_⟩
  · exact eq_of_messages hholds.messages (hnames ▸ hmessages)
  · exact pairwise_of_messages hfolder hholds.messages hholds.sorted

/-- A log that holds its own name only. -/
def sampleText : Str := "\x7b\"log_filename\": \"a/0\"\x7d"

def sampleFolder : Dict Str FileEntry :=
  ⟨[("0", .file sampleText), ("files", .directory)], by decide⟩

theorem ingestion_eq_replay_sample :
    ∃ live replayed, ingestAll "logs"
        [⟨"0", []⟩, ⟨"0", sampleText.take 5⟩, ⟨"0", sampleText⟩, ⟨"0", sampleText⟩]
          Interface.new = .ok live ∧
      loadDataFromLogs sampleFolder Interface.new = .ok replayed ∧
      live.dataList = replayed.dataList := by
  have hfile : ∀ name text, sampleFolder.get? name = some (.file text) →
      name = ("0" : Str) ∧ text = sampleText := by
    intro name text h
    rw [← Dict.mem_items_iff] at h
    simpa [sampleFolder] using h
  have hfolder : IsLogFolder "a" sampleFolder := by
    intro name text h
    obtain ⟨rfl, rfl⟩ := hfile name text h
    have hparse : ((parseValue 3 sampleText).bind fun p =>
        if p.2 = [] then (logFilename p.1).toOption else none) =
          some (codePoints ("a" ++ "/" ++ "0")) := by
      decide +kernel
    exact exists_isLog (by decide) (by decide) (by decide) hparse
  have hevents : ∀ event ∈ [(⟨"0", []⟩ : Event), ⟨"0", sampleText.take 5⟩, ⟨"0", sampleText⟩,
      ⟨"0", sampleText⟩], event.Observes sampleFolder := by
    simp only [List.forall_mem_cons, Event.Observes]
    refine ⟨⟨_, rfl, ?_⟩, ⟨_, rfl, ?_⟩, ⟨_, rfl, ?_⟩, ⟨_, rfl, ?_⟩, by simp⟩
    · exact List.nil_prefix
    · exact List.take_prefix 5 sampleText
    · exact List.prefix_refl _
    · exact List.prefix_refl _
  obtain ⟨live, replayed, _, hlive, hreplayed, heq, _⟩ :=
    ingestion_eq_replay "logs" hfolder hevents (by
      intro name text h
      obtain ⟨rfl, rfl⟩ := hfile name text h
      simp)
  exact ⟨live, replayed, hlive, hreplayed, heq⟩

end Interfaces
end SystemTests
