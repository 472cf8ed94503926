import SystemTests.Foundation.Exception
import SystemTests.Foundation.FileTree
import SystemTests.Foundation.JsonDocument
import SystemTests.Foundation.Lines

/-!
# The saved corpus of the fuzzer (`tests/fuzzer/corpus.py`)

`get_saved_corpus` reads a file, or the files of a folder and of the folders below it.
A `.json` file holds one request, a `.dump` file one on each line that is not blank.

`_load_dir` walks its folder, and the walk goes down by itself.  Each folder met on
the walk is loaded by its name in the folder where the walk began, and each file is
opened by its name there.  A name that leads to no folder is walked as nothing.

The newline that ends a line is white space to `strip` and to `json.loads` and is
left out of the lines.

**Results.**
* `loadFile_eq`: what is read from a valid file.
* `requests_eq`: the requests of a tree by the files and folders at its top.
* `exists_loadDir_of_clear`: when nothing below a folder is mistaken for something in
  it, each request is loaded once.
* `clear_of_loadDir`: no request is lost, and when none is loaded twice nothing was
  mistaken.
* `getSavedCorpus_perm_iff`: a corpus is loaded once if and only if that is so for
  all of its folders.
-/

namespace SystemTests
namespace Fuzzer

open Foundation Foundation.Text Foundation.Json Foundation.Raised

section Loading

/-- `_add_request`: what is appended to the result. -/
def addRequest (request : Json) : Except Raised Json :=
  match request with
  | .object _ =>
      match member? "path" request with
      | none => .error (.keyError "path")
      | some (.string path) =>
          if codePoints "/" <+: path then .ok request else .error (.assertionError [])
      | some _ => .error (.attributeError "startswith")
  | .array _ => .error (.typeError "list indices must be integers or slices, not str")
  | .string _ => .error (.typeError "string indices must be integers, not 'str'")
  | _ => .error (.typeError "object is not subscriptable")

def addLoaded (text : Str) : Except Raised Json := do
  let request ← Raised.ofOption (.valueError "JSONDecodeError") (jsonLoad text)
  addRequest request

/-- The lines of a `.dump` file that are not blank. -/
def requestLines (content : Str) : List Str :=
  (linesOf (· = '\n') (universalNewlines content)).filter fun line => strip line ≠ []

def loadFile (filename content : Str) : Except Raised (List Json) :=
  if ".json".toList <:+ filename then do
    let request ← addLoaded content
    return [request]
  else if ".dump".toList <:+ filename then (requestLines content).mapM addLoaded
  else .error (.valueError (filename ++ " file must be a .dump or a .json"))

def isCorpusFile (filename : Str) : Prop :=
  ".json".toList <:+ filename ∨ ".dump".toList <:+ filename

instance (filename : Str) : Decidable (isCorpusFile filename) := by
  unfold isCorpusFile
  infer_instance

/-- `_load_file(os.path.join(base_dirname, filename))`; `open` fails for a name that is not
one of a file in the folder. -/
def loadFileAt (base : List (Entry Str)) (filename : Str) : Except Raised (List Json) :=
  match base.find? fun e => e.name = filename with
  | some (.file name content) => loadFile name content
  | _ => .error (.inPackage "open")

/-- What is loaded for one folder of the walk from `base`, where `loads` are the loads of the
folders in `base`. -/
def visit (base : List (Entry Str)) (loads : List (Str × Except Raised (List Json)))
    (folder : List (Entry Str)) : Except Raised (List Json) := do
  let below ← flatMapM (fun dirname => (loads.lookup dirname).getD (.ok []))
    ((dirs folder).map Prod.fst)
  let own ← flatMapM (loadFileAt base)
    (((files folder).map Prod.fst).filter fun filename => isCorpusFile filename)
  return below ++ own

def loadWith (base : List (Entry Str)) (loads : List (Str × Except Raised (List Json))) :
    Except Raised (List Json) :=
  flatMapM (visit base loads) (walk base)

mutual

def entryLoads : Entry Str → List (Str × Except Raised (List Json))
  | .file _ _ => []
  | .dir name entries => [(name, loadWith entries (dirLoads entries))]

/-- The loads of the folders in a folder, by name. -/
def dirLoads : List (Entry Str) → List (Str × Except Raised (List Json))
  | [] => []
  | e :: es => entryLoads e ++ dirLoads es

end

/-- `_load_dir` -/
def loadDir (base : List (Entry Str)) : Except Raised (List Json) :=
  loadWith base (dirLoads base)

/-- What a path leads to. -/
inductive Found where
  | file (content : Str)
  | dir (folder : Folder Str)

/-- The files of a host, with the path of the folder `corpus` next to the module. -/
structure Host where
  corpusFolder : Str
  find : Str → Option Found

def getSavedCorpus (host : Host) (source : Option Str) : Except Raised (List Json) :=
  let source := source.getD host.corpusFolder
  match host.find source with
  | some (.file content) => loadFile source content
  | some (.dir folder) => loadDir folder.entries
  | none => .error (.valueError (source ++ " is not a file or a dir"))

end Loading

section Requests

def IsRequest (request : Json) : Prop :=
  ∃ path, member? "path" request = some (.string path) ∧ codePoints "/" <+: path

/-- A file that holds valid requests, if it is one of a corpus at all. -/
structure ValidFile (filename content : Str) : Prop where
  json : ".json".toList <:+ filename → ∃ r, jsonLoad content = some r ∧ IsRequest r
  dump : ".dump".toList <:+ filename →
    ∀ line ∈ requestLines content, ∃ r, jsonLoad line = some r ∧ IsRequest r

/-- A tree of files in which the files of a corpus hold valid requests. -/
structure Corpus extends Folder Str where
  valid : ∀ folder ∈ walk entries, ∀ f ∈ files folder, ValidFile f.1 f.2

/-- The requests that a file stores. -/
def stored (filename content : Str) : List Json :=
  if ".json".toList <:+ filename then (jsonLoad content).toList
  else if ".dump".toList <:+ filename then (requestLines content).filterMap jsonLoad
  else []

/-- The requests that the files of a tree store. -/
def requests (base : List (Entry Str)) : List Json :=
  (walk base).flatMap fun folder => (files folder).flatMap fun f => stored f.1 f.2

/--
Nothing below a folder is mistaken for something in it: a corpus file further down has the
name of a file of the folder that stores no request, and a folder further down does not have
the name of a folder in it that holds requests.
-/
structure Clear (base : List (Entry Str)) : Prop where
  files : ∀ folder ∈ foldersBelow base, ∀ f ∈ files folder, isCorpusFile f.1 →
    ∃ content, .file f.1 content ∈ base ∧ stored f.1 content = []
  dirs : ∀ folder ∈ foldersBelow base, ∀ d ∈ dirs folder, ∀ inner,
    .dir d.1 inner ∈ base → requests inner = []

end Requests

section Files

theorem addLoaded_eq_ok {text : Str} {r : Json} (hload : jsonLoad text = some r)
    (hr : IsRequest r) : addLoaded text = .ok r := by
  obtain ⟨path, hmember, hslash⟩ := hr
  rw [addLoaded, hload, ofOption_some, ok_bind]
  cases r with
  | object members =>
      rw [addRequest, hmember]
      exact if_pos hslash
  | _ => simp [member?] at hmember

theorem mapM_addLoaded {lines : List Str}
    (h : ∀ line ∈ lines, ∃ r, jsonLoad line = some r ∧ IsRequest r) :
    lines.mapM addLoaded = .ok (lines.filterMap jsonLoad) := by
  induction lines with
  | nil => rfl
  | cons line lines ih =>
      rw [List.forall_mem_cons] at h
      obtain ⟨⟨r, hload, hr⟩, hlines⟩ := h
      rw [List.mapM_cons, addLoaded_eq_ok hload hr, ih hlines, List.filterMap_cons_some hload]
      rfl

/-- What is read from a valid file. -/
theorem loadFile_eq {filename content : Str} (h : ValidFile filename content)
    (hcorpus : isCorpusFile filename) : loadFile filename content = .ok (stored filename content) := by
  unfold loadFile stored
  split_ifs with hjson hdump
  · obtain ⟨r, hload, hr⟩ := h.json hjson
    rw [addLoaded_eq_ok hload hr, hload]
    rfl
  · exact mapM_addLoaded (h.dump hdump)
  · exact absurd hcorpus (not_or_intro hjson hdump)

variable {base : List (Entry Str)}

theorem loadFileAt_of_mem (h : WellNamed base) {filename content : Str}
    (hfile : .file filename content ∈ base) :
    loadFileAt base filename = loadFile filename content := by
  have hfind : base.find? (fun e => e.name = filename) = some (.file filename content) := by
    cases hentry : base.find? (fun e => e.name = filename) with
    | none =>
        have hnone := List.find?_eq_none.mp hentry _ hfile
        simp [Entry.name] at hnone
    | some e =>
        have hname : e.name = filename := by simpa using List.find?_some hentry
        rw [eq_of_name_eq h (List.mem_of_find?_eq_some hentry) hfile hname]
  rw [loadFileAt, hfind]

/-- A file that is opened is one of the folder. -/
theorem exists_of_loadFileAt {filename : Str} {rs : List Json}
    (h : loadFileAt base filename = .ok rs) :
    ∃ content, .file filename content ∈ base ∧ loadFile filename content = .ok rs := by
  unfold loadFileAt at h
  split at h
  · rename_i name content hentry
    have hname := List.find?_some hentry
    obtain rfl : name = filename := of_decide_eq_true hname
    exact ⟨content, List.mem_of_find?_eq_some hentry, h⟩
  · simp at h

end Files

section Folders

theorem dirLoads_eq (base : List (Entry Str)) :
    dirLoads base = (dirs base).map fun d => (d.1, loadDir d.2) := by
  induction base with
  | nil => rfl
  | cons e es ih =>
      rw [dirLoads, ih]
      cases e with
      | file _ _ => rfl
      | dir _ _ => rfl

/-- `_load_dir(os.path.join(base_dirname, dirname))` -/
def loadDirAt (base : List (Entry Str)) (dirname : Str) : Except Raised (List Json) :=
  ((dirLoads base).lookup dirname).getD (.ok [])

variable {base : List (Entry Str)}

theorem lookup_map_snd {β γ : Type} {f : β → γ} {ps : List (Str × β)} {k : Str} :
    (ps.map fun p => (p.1, f p.2)).lookup k = (ps.lookup k).map f := by
  induction ps with
  | nil => rfl
  | cons p ps ih =>
      rw [List.map_cons, List.lookup_cons, List.lookup_cons, ih]
      split <;> rfl

theorem loadDirAt_of_mem (h : WellNamed base) {dirname : Str} {inner : List (Entry Str)}
    (hdir : .dir dirname inner ∈ base) : loadDirAt base dirname = loadDir inner := by
  have hlookup : (dirs base).lookup dirname = some inner := by
    cases hfound : (dirs base).lookup dirname with
    | none =>
        have hnone := List.lookup_eq_none_iff.mp hfound _ (mem_dirs.mpr hdir)
        simp at hnone
    | some inner' =>
        obtain ⟨l₁, l₂, hsplit, -⟩ := List.lookup_eq_some_iff.mp hfound
        have hdir' : .dir dirname inner' ∈ base := by
          rw [← mem_dirs, hsplit]
          exact List.mem_append_right _ List.mem_cons_self
        have heq := eq_of_name_eq h hdir' hdir rfl
        rw [Entry.dir.injEq] at heq
        rw [heq.2]
  rw [loadDirAt, dirLoads_eq, lookup_map_snd, hlookup]
  rfl

theorem loadDirAt_of_not_mem {dirname : Str} (h : ∀ inner, .dir dirname inner ∉ base) :
    loadDirAt base dirname = .ok [] := by
  have hlookup : (dirs base).lookup dirname = none := by
    refine List.lookup_eq_none_iff.mpr fun d hd => ?_
    simp only [bne_iff_ne, ne_eq]
    rintro rfl
    exact h d.2 (mem_dirs.mp hd)
  rw [loadDirAt, dirLoads_eq, lookup_map_snd, hlookup]
  rfl

end Folders

section Loads

variable {base : List (Entry Str)}

/-- The requests of a tree by the files and folders at its top. -/
theorem requests_eq (base : List (Entry Str)) :
    requests base = ((files base).flatMap fun f => stored f.1 f.2) ++
      (dirs base).flatMap fun d => requests d.2 := by
  rw [requests, walk, List.flatMap_cons, foldersBelow_eq, List.flatMap_assoc]
  rfl

/-- The files of a corpus hold valid requests. -/
def Valid (base : List (Entry Str)) : Prop :=
  ∀ folder ∈ walk base, ∀ f ∈ files folder, ValidFile f.1 f.2

theorem mem_foldersBelow {d : Str × List (Entry Str)} (hd : d ∈ dirs base)
    {folder : List (Entry Str)} (h : folder ∈ walk d.2) : folder ∈ foldersBelow base := by
  rw [foldersBelow_eq]
  exact List.mem_flatMap.mpr ⟨d, hd, h⟩

theorem Valid.inner (h : Valid base) : ∀ d ∈ dirs base, Valid d.2 :=
  fun _ hd folder hfolder => h folder (List.mem_cons_of_mem _ (mem_foldersBelow hd hfolder))

theorem stored_of_not_corpus {filename : Str} (h : ¬ isCorpusFile filename) (content : Str) :
    stored filename content = [] := by
  rw [isCorpusFile, not_or] at h
  rw [stored, if_neg h.1, if_neg h.2]

/-- The files of a folder, opened by their names there. -/
theorem flatMapM_loadFileAt (h : WellNamed base) {fs : List (Str × Str)}
    (hfs : ∀ f ∈ fs, .file f.1 f.2 ∈ base ∧ ValidFile f.1 f.2) :
    flatMapM (loadFileAt base) ((fs.map Prod.fst).filter fun filename => isCorpusFile filename) =
      .ok (fs.flatMap fun f => stored f.1 f.2) := by
  induction fs with
  | nil => rfl
  | cons f fs ih =>
      rw [List.forall_mem_cons] at hfs
      obtain ⟨⟨hfile, hvalid⟩, hfs⟩ := hfs
      rw [List.map_cons, List.flatMap_cons]
      by_cases hcorpus : isCorpusFile f.1
      · rw [List.filter_cons, if_pos (decide_eq_true hcorpus), flatMapM_cons_eq_ok]
        refine ⟨_, _, ?_, ih hfs, rfl⟩
        rw [loadFileAt_of_mem h hfile, loadFile_eq hvalid hcorpus]
      · rw [List.filter_cons, if_neg (by simpa using hcorpus), ih hfs,
          stored_of_not_corpus hcorpus, List.nil_append]

theorem flatMapM_loadFileAt_files (h : WellNamed base) (hvalid : Valid base) :
    flatMapM (loadFileAt base)
        (((files base).map Prod.fst).filter fun filename => isCorpusFile filename) =
      .ok ((files base).flatMap fun f => stored f.1 f.2) :=
  flatMapM_loadFileAt h fun f hf => ⟨mem_files.mp hf, hvalid base List.mem_cons_self f hf⟩

/-- What a visit loads: from the folders, and from the files. -/
theorem visit_eq_ok_iff {folder : List (Entry Str)} {rs : List Json} :
    visit base (dirLoads base) folder = .ok rs ↔
      ∃ below own, flatMapM (loadDirAt base) ((dirs folder).map Prod.fst) = .ok below ∧
        flatMapM (loadFileAt base)
          (((files folder).map Prod.fst).filter fun filename => isCorpusFile filename) = .ok own ∧
        rs = below ++ own := by
  have hvisit : visit base (dirLoads base) folder = (do
      let below ← flatMapM (loadDirAt base) ((dirs folder).map Prod.fst)
      let own ← flatMapM (loadFileAt base)
        (((files folder).map Prod.fst).filter fun filename => isCorpusFile filename)
      return below ++ own) := rfl
  rw [hvisit]
  simp only [bind_eq_ok, pure_eq_ok]
  constructor
  · rintro ⟨below, hbelow, own, hown, rfl⟩
    exact ⟨below, own, hbelow, hown, rfl⟩
  · rintro ⟨below, own, hbelow, hown, rfl⟩
    exact ⟨below, hbelow, own, hown, rfl⟩

theorem loadDir_eq_ok_iff {rs : List Json} :
    loadDir base = .ok rs ↔
      ∃ own rest, visit base (dirLoads base) base = .ok own ∧
        flatMapM (visit base (dirLoads base)) (foldersBelow base) = .ok rest ∧ rs = own ++ rest := by
  rw [loadDir, loadWith, walk, flatMapM_cons_eq_ok]

theorem flatMapM_eq_nil {α β : Type} {f : α → Except Raised (List β)} {l : List α}
    (h : ∀ a ∈ l, f a = .ok []) : flatMapM f l = .ok [] := by
  rw [flatMapM_eq_ok h]
  simp

/--
**A clear tree is loaded once.**  The induction is on the tree: the folders in it are loaded
once by the visit of the folder itself, and the visits below load nothing more.
-/
theorem exists_loadDir_of_clear (h : WellNamed base) (hvalid : Valid base)
    (hclear : ∀ folder ∈ walk base, Clear folder) :
    ∃ rs, loadDir base = .ok rs ∧ rs.Perm (requests base) := by
  induction base using folder_induction with
  | h base ih =>
      have hinner : ∀ d ∈ dirs base, ∃ rs, loadDir d.2 = .ok rs ∧ rs.Perm (requests d.2) :=
        fun d hd => ih d hd (h.inner d hd) (hvalid.inner d hd) fun folder hfolder =>
          hclear folder (List.mem_cons_of_mem _ (mem_foldersBelow hd hfolder))
      have hload : ∀ d ∈ dirs base, loadDirAt base d.1 = loadDir d.2 :=
        fun d hd => loadDirAt_of_mem h (mem_dirs.mp hd)
      obtain ⟨below, hbelow⟩ : ∃ below,
          flatMapM (loadDirAt base) ((dirs base).map Prod.fst) = .ok below := by
        refine exists_flatMapM_eq_ok fun dirname hdirname => ?_
        obtain ⟨d, hd, rfl⟩ := List.mem_map.mp hdirname
        obtain ⟨rs, hrs, -⟩ := hinner d hd
        exact ⟨rs, by rw [hload d hd, hrs]⟩
      obtain ⟨g, hg, hgbelow⟩ := exists_of_flatMapM_eq_ok hbelow
      have hperm : below.Perm ((dirs base).flatMap fun d => requests d.2) := by
        rw [hgbelow, List.flatMap_map]
        refine List.Perm.flatMap_left _ fun d hd => ?_
        obtain ⟨rs, hrs, hperm⟩ := hinner d hd
        have heq := hg d.1 (List.mem_map_of_mem hd)
        rw [hload d hd, hrs] at heq
        exact Except.ok.inj heq ▸ hperm
      have hrest : flatMapM (visit base (dirLoads base)) (foldersBelow base) = .ok [] := by
        have hbase := hclear base List.mem_cons_self
        refine flatMapM_eq_nil fun folder hfolder => visit_eq_ok_iff.mpr ⟨[], [], ?_, ?_, rfl⟩
        · refine flatMapM_eq_nil fun dirname hdirname => ?_
          obtain ⟨d, hd, rfl⟩ := List.mem_map.mp hdirname
          by_cases hdir : ∃ inner, .dir d.1 inner ∈ base
          · obtain ⟨inner, hdir⟩ := hdir
            obtain ⟨rs, hrs, hperm⟩ := hinner (d.1, inner) (mem_dirs.mpr hdir)
            rw [hbase.dirs folder hfolder d hd inner hdir] at hperm
            rw [loadDirAt_of_mem h hdir, hrs, hperm.eq_nil]
          · exact loadDirAt_of_not_mem (not_exists.mp hdir)
        · refine flatMapM_eq_nil fun filename hfilename => ?_
          obtain ⟨hmem, hcorpus⟩ := List.mem_filter.mp hfilename
          obtain ⟨f, hf, rfl⟩ := List.mem_map.mp hmem
          obtain ⟨content, hfile, hstored⟩ :=
            hbase.files folder hfolder f hf (of_decide_eq_true hcorpus)
          have hvalidFile := hvalid base List.mem_cons_self (f.1, content) (mem_files.mpr hfile)
          rw [loadFileAt_of_mem h hfile, loadFile_eq hvalidFile (of_decide_eq_true hcorpus),
            hstored]
      refine ⟨_, loadDir_eq_ok_iff.mpr ⟨_, _, visit_eq_ok_iff.mpr
        ⟨_, _, hbelow, flatMapM_loadFileAt_files h hvalid, rfl⟩, hrest, rfl⟩, ?_⟩
      rw [List.append_nil, requests_eq]
      exact (hperm.append_right _).trans List.perm_append_comm

end Loads

section Converse

variable {base : List (Entry Str)}

/-- Lists of which none is shorter than its counterpart are together as short only when
each is. -/
theorem length_flatMap_le {α β γ : Type} {f : α → List β} {g : α → List γ} :
    ∀ {l : List α}, (∀ a ∈ l, (f a).length ≤ (g a).length) →
      (l.flatMap f).length ≤ (l.flatMap g).length ∧
        ((l.flatMap g).length ≤ (l.flatMap f).length → ∀ a ∈ l, (g a).length ≤ (f a).length)
  | [], _ => ⟨Nat.le_refl _, fun _ a ha => absurd ha List.not_mem_nil⟩
  | a :: l, h => by
      rw [List.forall_mem_cons] at h
      obtain ⟨hle, heq⟩ := length_flatMap_le h.2
      rw [List.flatMap_cons, List.flatMap_cons, List.length_append, List.length_append,
        List.forall_mem_cons]
      exact ⟨by omega, fun hge => ⟨by omega, heq (by omega)⟩⟩

/-- What a visit below the folder loads, when it loads nothing. -/
theorem clear_of_visits (hvalid : Valid base)
    (hinner : ∀ inner, (∃ name, .dir name inner ∈ base) →
      loadDir inner = .ok [] → requests inner = [])
    (hwell : WellNamed base)
    (hvisits : ∀ folder ∈ foldersBelow base, visit base (dirLoads base) folder = .ok []) :
    Clear base := by
  have hparts : ∀ folder ∈ foldersBelow base,
      (∀ d ∈ dirs folder, loadDirAt base d.1 = .ok []) ∧
        ∀ f ∈ files folder, isCorpusFile f.1 → loadFileAt base f.1 = .ok [] := by
    intro folder hfolder
    obtain ⟨below, own, hbelow, hown, hnil⟩ := visit_eq_ok_iff.mp (hvisits folder hfolder)
    obtain ⟨rfl, rfl⟩ := List.append_eq_nil_iff.mp hnil.symm
    obtain ⟨g, hg, hgnil⟩ := exists_of_flatMapM_eq_ok hbelow
    obtain ⟨g', hg', hgnil'⟩ := exists_of_flatMapM_eq_ok hown
    constructor
    · intro d hd
      have hmem := List.mem_map_of_mem (f := Prod.fst) hd
      rw [hg _ hmem, List.flatMap_eq_nil_iff.mp hgnil.symm _ hmem]
    · intro f hf hcorpus
      have hmem : f.1 ∈ ((files folder).map Prod.fst).filter fun filename =>
          isCorpusFile filename :=
        List.mem_filter.mpr ⟨List.mem_map_of_mem hf, decide_eq_true hcorpus⟩
      rw [hg' _ hmem, List.flatMap_eq_nil_iff.mp hgnil'.symm _ hmem]
  constructor
  · intro folder hfolder f hf hcorpus
    obtain ⟨content, hfile, hload⟩ :=
      exists_of_loadFileAt ((hparts folder hfolder).2 f hf hcorpus)
    have hvalidFile := hvalid base List.mem_cons_self (f.1, content) (mem_files.mpr hfile)
    rw [loadFile_eq hvalidFile hcorpus] at hload
    exact ⟨content, hfile, Except.ok.inj hload⟩
  · intro folder hfolder d hd inner hdir
    have hload := (hparts folder hfolder).1 d hd
    rw [loadDirAt_of_mem hwell hdir] at hload
    exact hinner inner ⟨d.1, hdir⟩ hload

/--
**No request is lost**, and when none is loaded twice nothing was mistaken.  The visit of the
folder itself loads as much as the tree holds, so the visits below it load nothing.
-/
theorem clear_of_loadDir (h : WellNamed base) (hvalid : Valid base) {rs : List Json}
    (hload : loadDir base = .ok rs) :
    (requests base).length ≤ rs.length ∧
      (rs.length ≤ (requests base).length → ∀ folder ∈ walk base, Clear folder) := by
  induction base using folder_induction generalizing rs with
  | h base ih =>
      obtain ⟨own, rest, hown, hrest, rfl⟩ := loadDir_eq_ok_iff.mp hload
      obtain ⟨below, fs, hbelow, hfiles, rfl⟩ := visit_eq_ok_iff.mp hown
      rw [flatMapM_loadFileAt_files h hvalid] at hfiles
      obtain rfl := Except.ok.inj hfiles
      obtain ⟨g, hg, rfl⟩ := exists_of_flatMapM_eq_ok hbelow
      rw [List.flatMap_map]
      have hinner : ∀ d ∈ dirs base, loadDir d.2 = .ok (g d.1) := by
        intro d hd
        rw [← loadDirAt_of_mem h (mem_dirs.mp hd), hg d.1 (List.mem_map_of_mem hd)]
      have hih := fun d hd => ih d hd (h.inner d hd) (hvalid.inner d hd) (hinner d hd)
      obtain ⟨hle, heq⟩ := length_flatMap_le fun d hd => (hih d hd).1
      rw [requests_eq, List.length_append, List.length_append, List.length_append]
      refine ⟨by omega, fun hge => ?_⟩
      have hnil : rest = [] := List.eq_nil_of_length_eq_zero (by omega)
      subst hnil
      have hclear : Clear base := by
        refine clear_of_visits hvalid ?_ h ?_
        · rintro inner ⟨name, hdir⟩ hempty
          have hlength := (ih (name, inner) (mem_dirs.mpr hdir) (h.inner _ (mem_dirs.mpr hdir))
            (hvalid.inner _ (mem_dirs.mpr hdir)) hempty).1
          exact List.eq_nil_of_length_eq_zero (Nat.le_zero.mp hlength)
        · obtain ⟨g', hg', hgnil⟩ := exists_of_flatMapM_eq_ok hrest
          intro folder hfolder
          rw [hg' folder hfolder, List.flatMap_eq_nil_iff.mp hgnil.symm folder hfolder]
      intro folder hfolder
      rcases List.mem_cons.mp hfolder with rfl | hfolder
      · exact hclear
      · rw [foldersBelow_eq] at hfolder
        obtain ⟨d, hd, hfolder⟩ := List.mem_flatMap.mp hfolder
        exact (hih d hd).2 (heq (by omega) d hd) folder hfolder

/--
**A corpus is loaded exactly once** if and only if, in every folder of it, nothing below the
folder is mistaken for something in it.
-/
theorem getSavedCorpus_perm_iff (host : Host) (source : Option Str) (corpus : Corpus)
    (hsource : host.find (source.getD host.corpusFolder) = some (.dir corpus.toFolder)) :
    (∃ rs, getSavedCorpus host source = .ok rs ∧ rs.Perm (requests corpus.entries)) ↔
      ∀ folder ∈ walk corpus.entries, Clear folder := by
  have hcall : getSavedCorpus host source = loadDir corpus.entries := by
    rw [getSavedCorpus]
    simp only [hsource]
  rw [hcall]
  constructor
  · rintro ⟨rs, hrs, hperm⟩
    exact (clear_of_loadDir corpus.wellNamed corpus.valid hrs).2 (Nat.le_of_eq hperm.length_eq)
  · exact exists_loadDir_of_clear corpus.wellNamed corpus.valid

end Converse

section Examples

/-- A request for the root, and the text of a file that stores it. -/
def rootRequest : Json := fields [("path", text "/")]

def rootText : Str := jsonDump .indented rootRequest

theorem jsonLoad_rootText : jsonLoad rootText = some rootRequest :=
  jsonLoad_of_plain (plain_fields (by simp [plain_text]))

theorem validFile_rootText (filename : Str) (h : ¬ ".dump".toList <:+ filename) :
    ValidFile filename rootText where
  json _ := ⟨rootRequest, jsonLoad_rootText, codePoints "/", rfl, List.prefix_rfl⟩
  dump hdump := absurd hdump h

def getJson : Str := ['g', '.', 'j', 's', 'o', 'n']

/-- One request, in the folder itself. -/
def flatCorpus : Corpus where
  entries := [.file getJson rootText]
  wellNamed := by simp [WellNamed, Entry.WellNamed, IsName, Entry.name, getJson]
  valid := by
    intro folder hfolder f hf
    obtain rfl : folder = [.file getJson rootText] := by
      simpa [walk, foldersBelow, Entry.folders] using hfolder
    obtain rfl : f = (getJson, rootText) := by simpa [files] using hf
    exact validFile_rootText _ (by decide)

theorem getSavedCorpus_flatCorpus :
    ∃ rs, getSavedCorpus ⟨"corpus", fun _ => some (.dir flatCorpus.toFolder)⟩ none = .ok rs ∧
      rs.Perm (requests flatCorpus.entries) := by
  refine (getSavedCorpus_perm_iff ⟨"corpus", fun _ => some (.dir flatCorpus.toFolder)⟩ none
    flatCorpus rfl).mpr fun folder hfolder => ?_
  obtain rfl : folder = flatCorpus.entries := by
    simpa [flatCorpus, walk, foldersBelow, Entry.folders] using hfolder
  constructor
  · exact fun folder hfolder => absurd hfolder List.not_mem_nil
  · exact fun folder hfolder => absurd hfolder List.not_mem_nil

/-- One request, in a folder of the folder. -/
def nestedCorpus : Corpus where
  entries := [.dir ['w', 'a', 'f'] [.file getJson rootText]]
  wellNamed := by simp [WellNamed, Entry.WellNamed, IsName, Entry.name, getJson]
  valid := by
    intro folder hfolder f hf
    simp only [walk, foldersBelow, Entry.folders, List.append_nil, List.mem_cons,
      List.not_mem_nil, or_false] at hfolder
    rcases hfolder with rfl | rfl
    · simp [files] at hf
    · obtain rfl : f = (getJson, rootText) := by simpa [files] using hf
      exact validFile_rootText _ (by decide)

/-- The request in a folder of the folder is looked for in the folder itself. -/
theorem not_loaded_nestedCorpus :
    ¬ ∃ rs, getSavedCorpus ⟨"corpus", fun _ => some (.dir nestedCorpus.toFolder)⟩ none = .ok rs ∧
      rs.Perm (requests nestedCorpus.entries) := by
  rintro ⟨rs, hrs, hperm⟩
  have hclear := (clear_of_loadDir nestedCorpus.wellNamed nestedCorpus.valid hrs).2
    (Nat.le_of_eq hperm.length_eq) nestedCorpus.entries List.mem_cons_self
  obtain ⟨content, hfile, -⟩ := hclear.files [.file getJson rootText] List.mem_cons_self
    (getJson, rootText) List.mem_cons_self (by decide)
  simp [nestedCorpus] at hfile

end Examples

end Fuzzer
end SystemTests
