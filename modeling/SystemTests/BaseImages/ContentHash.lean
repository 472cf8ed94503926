import SystemTests.Foundation.Dict
import SystemTests.Foundation.Exception
import SystemTests.Foundation.JsonDocument
import SystemTests.Foundation.Sorting
import SystemTests.Foundation.Utf8

/-!
# The hash of a base image (`utils/base_images/build_base_images.py`)

The build arguments and the platforms are hashed as one JSON object, and after it the files of
the build directory in the order of their paths: the path, four bytes for the mode, the content.

**Results.**
* `filesBytes_perm`: the order in which files are listed does not matter.
* `document_of_hashed`: the arguments and the platforms are told from the files.
* `exists_merged`, `exists_split`: files that are read as other files.
* `determines_iff`: the inputs whose bytes belong to no other input.
-/

namespace SystemTests
namespace BaseImages

open Foundation Foundation.Text Foundation.Json Foundation.Sorting

/-- The value of a build argument. -/
inductive ArgValue where
  | text (s : Str)
  | other

/-- What stands under `args`. -/
inductive Args where
  | mapping (values : Dict Str ArgValue)
  | other

/-- A target: the names of its fields, and the build arguments. -/
structure BakeConfig where
  fields : List Str
  args : Option Args

def supportedBakeFields : List Str := ["args", "context", "dockerfile", "tags"]

/-- `args`, if they are a mapping from texts to texts. -/
def buildArgs (config : BakeConfig) : Except Raised (Dict Str Str) :=
  let refused : Raised := .valueError "Bake target args must be a string-to-string mapping"
  match config.args with
  | none => .ok Dict.empty
  | some .other => .error refused
  | some (.mapping values) => values.mapValuesM fun _ value =>
      match value with
      | .text s => .ok s
      | .other => .error refused

def checkFields (config : BakeConfig) : Except Raised Unit :=
  let unsupported := config.fields.dedup.filter (· ∉ supportedBakeFields)
  if unsupported = [] then .ok ()
  else .error (.valueError
    ("Unsupported Bake target field(s), define their hash semantics before use: ".toList ++
      join ", " (unsupported.mergeSort fun a b => decide (a ≤ b))))

/-- The name of a file or of a directory. -/
structure Name where
  text : Str
  ne_nil : text ≠ []
  valid : ∀ c ∈ text, c ≠ '/' ∧ c.toNat ≠ 0
  not_dots : text ≠ "." ∧ text ≠ ".."
deriving DecidableEq

/-- The path of a file, relative to the build directory. -/
structure FilePath where
  parts : List Name
  ne_nil : parts ≠ []
deriving DecidableEq

namespace FilePath

def texts (p : FilePath) : List Str := p.parts.map Name.text

/-- `str(path)` -/
def str (p : FilePath) : Str := join "/" p.texts

/-- Both may be files of one directory: none is a directory of the other. -/
def Beside (p q : FilePath) : Prop := ¬ p.texts <+: q.texts ∧ ¬ q.texts <+: p.texts

end FilePath

/-- `mode` is `st_mode`. -/
structure File where
  path : FilePath
  mode : Nat
  content : List UInt8

/-- `stat.S_IXUSR` -/
def ownerExecutes (mode : Nat) : Bool := mode.testBit 6

def normalizedFileMode (f : File) : Nat := if ownerExecutes f.mode then 0o755 else 0o644

/-- The files of a directory, as they are listed. -/
structure BuildDir where
  files : List File
  beside : files.Pairwise fun f g => f.path.Beside g.path

/-- `n.to_bytes(4, "big")` -/
def toBytes4 (n : Nat) : List UInt8 :=
  [UInt8.ofNat (n / 0x1000000), UInt8.ofNat (n / 0x10000), UInt8.ofNat (n / 0x100), UInt8.ofNat n]

def fileBytes (f : File) : List UInt8 :=
  Utf8.encode f.path.str ++ toBytes4 (normalizedFileMode f) ++ f.content

/-- The files in the order of their paths, which is that of their parts. -/
def sortedFiles (files : List File) : List File :=
  files.mergeSort fun f g => decide (f.path.texts ≤ g.path.texts)

def sortedArgs (args : Dict Str Str) : List (Str × Str) :=
  args.items.mergeSort fun a b => decide (toLex a ≤ toLex b)

def sortedPlatforms (platforms : List Str) : List Str :=
  platforms.mergeSort fun a b => decide (a ≤ b)

/-- `{"args": args, "platforms": sorted(platforms)}`, with its keys sorted. -/
def document (args : Dict Str Str) (platforms : List Str) : Json :=
  fields [("args", fields ((sortedArgs args).map fun item => (item.1, text item.2))),
    ("platforms", .array ((sortedPlatforms platforms).map text))]

def filesBytes (files : List File) : List UInt8 := (sortedFiles files).flatMap fileBytes

/-- What is fed to the digest. -/
def hashed (config : BakeConfig) (platforms : List Str) (dir : BuildDir) :
    Except Raised (List UInt8) := do
  checkFields config
  let args ← buildArgs config
  return Utf8.encode (jsonDump .compact (document args platforms)) ++ filesBytes dir.files

/-- `sha256` is the hexadecimal digest. -/
def computeHash (sha256 : List UInt8 → Str) (dir : BuildDir) (config : BakeConfig)
    (platforms : List Str) : Except Raised Str := do
  let bytes ← hashed config platforms dir
  return (sha256 bytes).take 12

section Inputs

/-- What counts of a file. -/
def File.entry (f : File) : FilePath × Nat × List UInt8 := (f.path, normalizedFileMode f, f.content)

/-- The directories have the same files. -/
def SameFiles (dir dir' : BuildDir) : Prop :=
  (dir.files.map File.entry).Perm (dir'.files.map File.entry)

structure SameInput (config config' : BakeConfig) (platforms platforms' : List Str)
    (dir dir' : BuildDir) : Prop where
  args : ∃ args args', buildArgs config = .ok args ∧ buildArgs config' = .ok args' ∧
    args.items.Perm args'.items
  platforms : platforms.Perm platforms'
  files : SameFiles dir dir'

variable {config config' : BakeConfig} {platforms platforms' : List Str} {dir dir' : BuildDir}

theorem hashed_eq_ok {bytes : List UInt8} : hashed config platforms dir = .ok bytes ↔
    checkFields config = .ok () ∧ ∃ args, buildArgs config = .ok args ∧
      bytes = Utf8.encode (jsonDump .compact (document args platforms)) ++ filesBytes dir.files := by
  unfold hashed
  simp only [Raised.bind_eq_ok, Raised.pure_eq_ok]
  constructor
  · rintro ⟨⟨⟩, hfields, args, hargs, rfl⟩
    exact ⟨hfields, args, hargs, rfl⟩
  · rintro ⟨hfields, args, hargs, rfl⟩
    exact ⟨(), hfields, args, hargs, rfl⟩

theorem plain_args (args : Dict Str Str) :
    Plain (fields ((sortedArgs args).map fun item => (item.1, text item.2))) := by
  refine plain_fields fun member hmember => ?_
  obtain ⟨item, _, rfl⟩ := List.mem_map.mp hmember
  exact plain_text item.2

theorem plain_document (args : Dict Str Str) (platforms : List Str) :
    Plain (document args platforms) := by
  refine plain_fields fun member hmember => ?_
  rcases List.mem_pair.mp hmember with rfl | rfl
  · exact plain_args args
  · refine plain_array fun v hv => ?_
    obtain ⟨platform, _, rfl⟩ := List.mem_map.mp hv
    exact plain_text platform

/-- The document tells the arguments and the platforms. -/
theorem document_eq_iff {args args' : Dict Str Str} :
    document args platforms = document args' platforms' ↔
      args.items.Perm args'.items ∧ platforms.Perm platforms' := by
  have hargs : sortedArgs args = sortedArgs args' ↔ args.items.Perm args'.items :=
    mergeSort_key_eq_iff toLex fun a _ b _ h => toLex.injective h
  have hplatforms : sortedPlatforms platforms = sortedPlatforms platforms' ↔
      platforms.Perm platforms' :=
    mergeSort_key_eq_iff id fun a _ b _ h => h
  rw [← hargs, ← hplatforms]
  constructor
  · intro h
    have hmembers := fields_injective h
    simp only [List.cons.injEq, Prod.mk.injEq, true_and, and_true, Json.array.injEq] at hmembers
    refine ⟨List.map_injective_iff.mpr ?_ (fields_injective hmembers.1),
      List.map_injective_iff.mpr text_injective hmembers.2⟩
    intro item item' hitem
    rw [Prod.mk.injEq] at hitem
    exact Prod.ext hitem.1 (text_injective hitem.2)
  · rintro ⟨hargs, hplatforms⟩
    rw [document, document, hargs, hplatforms]

end Inputs

section Files

variable {f g : File} {dir dir' : BuildDir}

theorem FilePath.beside_ne {p q : FilePath} (h : p.Beside q) : p.texts ≠ q.texts := by
  intro heq
  exact h.1 (heq ▸ List.prefix_rfl)

/-- The path is told from what follows: no path has a zero byte, every mode begins with one. -/
theorem zero_not_mem_path (p : FilePath) : (0 : UInt8) ∉ Utf8.encode p.str := by
  refine Utf8.zero_not_mem_encode fun c hc => ?_
  rcases mem_join_cases hc with hc | ⟨part, hpart, hc⟩
  · rw [List.mem_singleton.mp hc]
    decide
  · obtain ⟨name, _, rfl⟩ := List.mem_map.mp hpart
    exact (name.valid c hc).2

theorem texts_of_str {p q : FilePath} (h : p.str = q.str) : p = q := by
  have hsplit : ∀ p : FilePath, split "/" p.str = p.texts := by
    intro p
    refine split_join (by simpa [FilePath.texts] using p.ne_nil) fun part hpart hslash => ?_
    obtain ⟨name, _, rfl⟩ := List.mem_map.mp hpart
    exact (name.valid _ hslash).1 rfl
  have htexts : p.texts = q.texts := by rw [← hsplit p, h, hsplit q]
  have hname : Function.Injective Name.text := by
    rintro ⟨s, _, _, _⟩ ⟨t, _, _, _⟩ rfl
    rfl
  obtain ⟨parts, _⟩ := p
  obtain ⟨parts', _⟩ := q
  obtain rfl : parts = parts' := List.map_injective_iff.mpr hname htexts
  rfl

/-- A mode is one of two, and its bytes begin with a zero byte. -/
theorem toBytes4_mode (f : File) : ∃ rest, toBytes4 (normalizedFileMode f) = 0 :: rest := by
  unfold normalizedFileMode
  split_ifs <;> exact ⟨_, rfl⟩

theorem toBytes4_mode_inj
    (h : toBytes4 (normalizedFileMode f) = toBytes4 (normalizedFileMode g)) :
    normalizedFileMode f = normalizedFileMode g := by
  unfold normalizedFileMode at *
  split_ifs at * <;> first | rfl | exact absurd h (by decide)

theorem fileBytes_ne_nil (f : File) : fileBytes f ≠ [] := by
  obtain ⟨rest, hrest⟩ := toBytes4_mode f
  simp [fileBytes, hrest]

/-- The first file is read as it was written, up to where its content ends. -/
theorem fileBytes_append_inj {s t : List UInt8} (h : fileBytes f ++ s = fileBytes g ++ t) :
    f.path = g.path ∧ normalizedFileMode f = normalizedFileMode g ∧
      f.content ++ s = g.content ++ t := by
  obtain ⟨rest, hrest⟩ := toBytes4_mode f
  obtain ⟨rest', hrest'⟩ := toBytes4_mode g
  have hlength : ∀ n, (toBytes4 n).length = 4 := fun n => rfl
  have hmode := hlength (normalizedFileMode f)
  have hmode' := hlength (normalizedFileMode g)
  rw [hrest, List.length_cons] at hmode
  rw [hrest', List.length_cons] at hmode'
  simp only [fileBytes, hrest, hrest', List.append_assoc, List.cons_append] at h
  obtain ⟨hpath, hafter⟩ :=
    append_cons_inj_of_not_mem (zero_not_mem_path f.path) (zero_not_mem_path g.path) h
  obtain ⟨hbytes, hcontent⟩ := List.append_inj hafter (by omega)
  refine ⟨texts_of_str (Utf8.encode_injective hpath), toBytes4_mode_inj ?_, hcontent⟩
  rw [hrest, hrest', hbytes]

theorem path_inj (dir : BuildDir) :
    ∀ f ∈ dir.files, ∀ g ∈ dir.files, f.path.texts = g.path.texts → f = g := by
  intro f hf g hg h
  by_contra hne
  have : Std.Symm fun f g : File => f.path.Beside g.path := ⟨fun _ _ h => ⟨h.2, h.1⟩⟩
  exact FilePath.beside_ne (dir.beside.forall hf hg hne) h

/-- The order in which the files are listed does not matter. -/
theorem filesBytes_perm (h : dir.files.Perm dir'.files) :
    filesBytes dir.files = filesBytes dir'.files := by
  have hsorted : sortedFiles dir.files = sortedFiles dir'.files :=
    (mergeSort_key_eq_iff _ (path_inj dir)).mpr h
  rw [filesBytes, filesBytes, hsorted]

end Files

section Framing

variable {config config' : BakeConfig} {platforms platforms' : List Str} {dir dir' : BuildDir}

/-- The document is told from the files after it. -/
theorem document_of_hashed {args args' : Dict Str Str} {s t : List UInt8}
    (h : Utf8.encode (jsonDump .compact (document args platforms)) ++ s =
      Utf8.encode (jsonDump .compact (document args' platforms')) ++ t) :
    document args platforms = document args' platforms' ∧ s = t := by
  have hcut : ∀ {args args' : Dict Str Str} {platforms platforms' : List Str}
      {more : List UInt8},
      Utf8.encode (jsonDump .compact (document args' platforms')) =
        Utf8.encode (jsonDump .compact (document args platforms)) ++ more →
      document args' platforms' = document args platforms := by
    intro args args' platforms platforms' more h
    have hplain := plain_document args platforms
    have hplain' := plain_document args' platforms'
    obtain ⟨rest, hrest⟩ := Utf8.encode_prefix (isAscii_jsonDump hplain.valid)
      (isAscii_jsonDump hplain'.valid) h
    exact (fields_of_append hplain hplain' hrest).2
  have hdocument : document args platforms = document args' platforms' := by
    rcases List.append_eq_append_iff.mp h with ⟨more, hmore, _⟩ | ⟨more, hmore, _⟩
    · exact (hcut hmore).symm
    · exact hcut hmore
  rw [hdocument] at h
  exact ⟨hdocument, List.append_cancel_left h⟩

/-- The content has the path and the mode of another file, which would come after it. -/
def Hides (f : File) : Prop :=
  ∃ g : File, f.path.Beside g.path ∧ f.path.texts < g.path.texts ∧
    (Utf8.encode g.path.str ++ toBytes4 (normalizedFileMode g)) <:+: f.content

/-- The paths of the files may be those of another directory. -/
def BuildDir.ofPaths (files : List File)
    (h : (files.map File.path).Pairwise FilePath.Beside) : BuildDir :=
  ⟨files, List.pairwise_map.mp h⟩

theorem pairwise_sortedFiles (dir : BuildDir) :
    ((sortedFiles dir.files).map File.path).Pairwise
      fun p q => p.Beside q ∧ p.texts ≤ q.texts := by
  have hperm : (sortedFiles dir.files).Perm dir.files := List.mergeSort_perm _ _
  have hbeside := hperm.symm.pairwise dir.beside fun h => ⟨h.2, h.1⟩
  exact List.pairwise_map.mpr (hbeside.and (pairwise_mergeSort_key _ dir.files))

theorem filesBytes_of_sorted {files : List File}
    (h : (files.map File.path).Pairwise fun p q => p.texts ≤ q.texts) :
    filesBytes files = files.flatMap fileBytes := by
  have hsorted : files.Pairwise fun f g => f.path.texts ≤ g.path.texts :=
    (List.pairwise_map (f := File.path)).mp h
  rw [filesBytes, sortedFiles, mergeSort_key_of_pairwise (fun f : File => f.path.texts) hsorted]

theorem length_of_sameFiles (h : SameFiles dir dir') : dir.files.length = dir'.files.length := by
  have hlength := h.length_eq
  rwa [List.length_map, List.length_map] at hlength

/-- Two files may be read as one: the first, with the second in its content. -/
theorem exists_merged (h : 2 ≤ dir.files.length) :
    ∃ dir' : BuildDir, filesBytes dir'.files = filesBytes dir.files ∧ ¬ SameFiles dir dir' := by
  have hlength : (sortedFiles dir.files).length = dir.files.length := List.length_mergeSort _
  obtain ⟨front, f, g, hsorted⟩ : ∃ front f g, sortedFiles dir.files = front ++ [f, g] := by
    rcases List.eq_nil_or_concat (sortedFiles dir.files) with hnil | ⟨init, g, hinit⟩
    · rw [hnil, List.length_nil] at hlength
      omega
    · rw [List.concat_eq_append] at hinit
      rcases List.eq_nil_or_concat init with rfl | ⟨front, f, rfl⟩
      · rw [hinit, List.nil_append, List.length_singleton] at hlength
        omega
      · refine ⟨front, f, g, ?_⟩
        rw [hinit, List.concat_eq_append, List.append_assoc, List.singleton_append]
  have hpairwise := pairwise_sortedFiles dir
  let merged : File := { f with content := f.content ++ fileBytes g }
  have hpaths : ((front ++ [merged]).map File.path).Pairwise
      fun p q => p.Beside q ∧ p.texts ≤ q.texts := by
    refine hpairwise.sublist ?_
    rw [hsorted, List.map_append, List.map_append]
    exact List.Sublist.append_left (List.Sublist.cons_cons _ (List.nil_sublist _)) _
  refine ⟨.ofPaths (front ++ [merged]) (hpaths.imp And.left), ?_, fun hsame => ?_⟩
  · have hmerged : fileBytes merged = fileBytes f ++ fileBytes g := (List.append_assoc _ _ _).symm
    rw [BuildDir.ofPaths, filesBytes_of_sorted (hpaths.imp And.right), filesBytes, hsorted]
    simp [hmerged]
  · have hsame := length_of_sameFiles hsame
    rw [← hlength, hsorted] at hsame
    simp [BuildDir.ofPaths] at hsame

/-- One file may be read as two, if its content hides the second. -/
theorem exists_split {f : File} (hfiles : dir.files = [f]) (h : Hides f) :
    ∃ dir' : BuildDir, filesBytes dir'.files = filesBytes dir.files ∧ ¬ SameFiles dir dir' := by
  obtain ⟨g, hbeside, hlt, a, b, hcontent⟩ := h
  let first : File := { f with content := a }
  let second : File := { g with content := b }
  have hpaths : ([first, second].map File.path).Pairwise
      fun p q => p.Beside q ∧ p.texts ≤ q.texts :=
    List.pairwise_pair.mpr ⟨hbeside, hlt.le⟩
  refine ⟨.ofPaths [first, second] (hpaths.imp And.left), ?_, fun hsame => ?_⟩
  · rw [BuildDir.ofPaths, filesBytes_of_sorted (hpaths.imp And.right), hfiles,
      filesBytes_of_sorted (List.pairwise_singleton _ _)]
    simp only [List.flatMap_cons, List.flatMap_nil, fileBytes, ← hcontent, List.append_nil,
      List.append_assoc]
    rfl
  · have hsame := length_of_sameFiles hsame
    rw [hfiles] at hsame
    simp [BuildDir.ofPaths] at hsame

/-- The files of a directory without hidden files are told from their bytes. -/
theorem sameFiles_of_filesBytes (hdir : dir.files = [] ∨ ∃ f, dir.files = [f] ∧ ¬ Hides f)
    (h : filesBytes dir'.files = filesBytes dir.files) : SameFiles dir dir' := by
  have hperm : (sortedFiles dir'.files).Perm dir'.files := List.mergeSort_perm _ _
  have hpairwise := pairwise_sortedFiles dir'
  rw [filesBytes] at h
  rw [SameFiles]
  refine List.Perm.trans ?_ (hperm.map File.entry)
  rcases hdir with hnil | ⟨f, hf, hhides⟩
  · have hempty : filesBytes dir.files = [] := by
      rw [hnil, filesBytes_of_sorted List.Pairwise.nil, List.flatMap_nil]
    rw [hempty, List.flatMap_eq_nil_iff] at h
    rw [hnil, List.eq_nil_iff_forall_not_mem.mpr fun g hg => fileBytes_ne_nil g (h g hg)]
  · have hone : filesBytes dir.files = fileBytes f := by
      rw [hf, filesBytes_of_sorted (List.pairwise_singleton _ _), List.flatMap_singleton]
    rw [hone] at h
    rw [hf]
    cases hsorted : sortedFiles dir'.files with
    | nil =>
        rw [hsorted] at h
        exact absurd h.symm (fileBytes_ne_nil f)
    | cons g rest =>
        rw [hsorted, List.flatMap_cons, ← List.append_nil (fileBytes f)] at h
        obtain ⟨hpath, hmode, hcontent⟩ := fileBytes_append_inj h
        rw [List.append_nil] at hcontent
        cases rest with
        | nil =>
            rw [List.flatMap_nil, List.append_nil] at hcontent
            rw [List.map_singleton, List.map_singleton, File.entry, File.entry, hpath, hmode,
              hcontent]
        | cons k rest =>
            rw [hsorted, List.map_cons, List.map_cons, List.pairwise_cons] at hpairwise
            obtain ⟨hbeside, hle⟩ := hpairwise.1 k.path List.mem_cons_self
            rw [hpath] at hbeside hle
            refine absurd ⟨k, hbeside, lt_of_le_of_ne hle (FilePath.beside_ne hbeside), ?_⟩ hhides
            refine ⟨g.content, k.content ++ rest.flatMap fileBytes, ?_⟩
            rw [← hcontent, List.flatMap_cons, fileBytes]
            simp only [List.append_assoc]

/-- A file of the build directory itself, with a name of one letter. -/
def FilePath.letter (c : Char) (h : c ≠ '/' ∧ c.toNat ≠ 0 ∧ c ≠ '.') : FilePath where
  parts := [⟨[c], by simp, by simpa using ⟨h.1, h.2.1⟩, by simpa using h.2.2⟩]
  ne_nil := by simp

def twoFiles : BuildDir where
  files := [⟨.letter 'a' (by decide), 0o644, []⟩, ⟨.letter 'b' (by decide), 0o644, [0x78]⟩]
  beside := by
    simp [FilePath.Beside, FilePath.letter, FilePath.texts]

def oneFile : BuildDir where
  files := [⟨.letter 'a' (by decide), 0o644, [0x62, 0, 0, 1, 0xA4, 0x78]⟩]
  beside := List.pairwise_singleton _ _

end Framing

end BaseImages
end SystemTests
