import SystemTests.Foundation.Exception
import SystemTests.Foundation.Lines
import SystemTests.Foundation.Sorting
import Mathlib.Data.Char
import Mathlib.Data.List.Lex

/-!
# The order of the rules in a manifest file (`utils/manifest/_internal/format.py`)

`yml_sort` reads a file line by line and sorts the rules by a part of their first lines.
`assert_key_order` of `validate.py` compares the keys that YAML reads.

**Results.**
* `parse_lines`: the header and the blocks of a file are read as they stand.
* `sortKey_line`: what a rule is sorted by is its key and a tail of its line.
* `assertKeyOrder_eq_nil_iff`: the keys are in order when each is smaller than the next.
* `ymlSort_normal_iff`: the files that are brought into a normal form with ordered keys.
-/

namespace SystemTests
namespace Manifest
namespace YmlSort

open Foundation Foundation.Text Foundation.Sorting

section Source

/-- `s.find(sub)`, counted from an index. -/
def findFrom (sub : Str) (i : Nat) (s : Str) : Int :=
  if sub <+: s then i
  else match s with
    | [] => -1
    | _ :: s => findFrom sub (i + 1) s

def find (sub s : Str) : Int := findFrom sub 0 s

/-- `s.rfind(c)` -/
def rfind (c : Char) (s : Str) : Int := s.length - (s.rtakeWhile (· ≠ c)).length - 1

/-- `s[start:stop]` -/
def slice (s : Str) (start stop : Int) : Str :=
  let index (i : Int) : Nat := (if i < 0 then s.length + i else i).toNat
  (s.take (index stop)).drop (index start)

/-- The key of the sort. -/
def sortKey (line : Str) : Str :=
  if "  ?".toList.isPrefixOf line then slice line (find "tests/" line) line.length
  else slice line (find "tests/" line) (rfind ':' line)

/-- A line that belongs to the rule above it. -/
def isMore (line : Str) : Bool :=
  "    ".toList.isPrefixOf line || "  :".toList.isPrefixOf line ||
    (line.dropWhile (· = ' ')).head? = some '#'

/-- `header_data` and `manifest_data`. -/
structure Lines where
  inManifest : Bool := false
  header : List Str := []
  rules : List (Str × List Str) := []

/-- `manifest_data[-1][1].append(line)` -/
def appendMore (line : Str) (rules : List (Str × List Str)) :
    Except Raised (List (Str × List Str)) :=
  match rules.getLast? with
  | none => .error (.indexError "list index out of range")
  | some rule => .ok (rules.dropLast ++ [(rule.1, rule.2 ++ [line])])

def addLine (lines : Lines) (line : Str) : Except Raised Lines :=
  if line = "manifest:" then
    .ok { lines with inManifest := true, header := lines.header ++ [line] }
  else if ¬ lines.inManifest then .ok { lines with header := lines.header ++ [line] }
  else if isMore line then do return { lines with rules := ← appendMore line lines.rules }
  else .ok { lines with rules := lines.rules ++ [(line, [])] }

def sortRules (rules : List (Str × List Str)) : List (Str × List Str) :=
  rules.mergeSort fun a b => decide (sortKey a.1 ≤ sortKey b.1)

/-- The loop body of `yml_sort`, for the content of one file. -/
def ymlSort (content : Str) : Except Raised Str := do
  let lines ← (readLines content).foldlM addLine {}
  return unlines (lines.header ++ (sortRules lines.rules).flatMap fun rule => rule.1 :: rule.2)

/-- `assert_key_order`, for the keys under `manifest`. -/
def assertKeyOrder (path : Str) (keys : List Str) : List Str :=
  (keys.foldl (fun (state : Str × List Str) key =>
    (key, if state.1 < key then state.2
      else state.2 ++ ["Order is not respected at ".toList ++ path ++ " (".toList ++ state.1 ++
        " < ".toList ++ key ++ ")".toList])) ("/", [])).2

end Source

section Files

/--
A rule of a manifest as YAML has it: a key of its own line is plain or quoted and a colon stands
behind it, a complex key stands behind a question mark and only a comment may follow it.
-/
structure Rule where
  complex : Bool
  blanks : Str
  quote : Str
  key : Str
  rest : Str
  blanks_eq : ∀ c ∈ blanks, c = ' '
  complex_iff : complex = true ↔ blanks ≠ []
  quote_mem : quote ∈ [[], ['"'], ['\'']]
  key_tests : "tests/".toList <+: key
  key_plain : quote = [] → ¬ ": ".toList <:+: key ∧ ¬ " #".toList <:+: key ∧ key.getLast? ≠ some ' '
  key_quoted : quote ≠ [] → ∀ c ∈ key, c ∉ quote ∧ c ≠ '\\'
  rest_blank : ∀ c ∈ rest.head?, c = ' '
  rest_comment : complex = true → ∀ c ∈ (rest.dropWhile (· = ' ')).head?, c = '#'
  clean : ∀ c ∈ key ++ rest, isLineBoundary c = false

namespace Rule

/-- What stands in front of the key. -/
def lead (r : Rule) : Str := (if r.complex then "  ?".toList else "  ".toList) ++ r.blanks ++ r.quote

/-- What stands behind the key. -/
def behind (r : Rule) : Str := r.quote ++ if r.complex then r.rest else ':' :: r.rest

def line (r : Rule) : Str := r.lead ++ r.key ++ r.behind

/-- What is taken along with the key: for a complex rule all of it, else up to the last colon. -/
def tail (r : Rule) : Str :=
  if r.complex then r.behind else (r.behind.rdropWhile (· ≠ ':')).dropLast

end Rule

/-- The first line of a block. -/
inductive FirstLine where
  | rule (r : Rule)
  | blank (n : Nat) (short : n < 4)

def FirstLine.text : FirstLine → Str
  | rule r => r.line
  | blank n _ => List.replicate n ' '

/-- A rule with its continuation and comment lines, or an empty line with its comments. -/
structure Block where
  first : FirstLine
  more : List Str
  more_isMore : ∀ line ∈ more, isMore line = true
  clean : ∀ line ∈ more, ∀ c ∈ line, isLineBoundary c = false

namespace Block

def line (b : Block) : Str := b.first.text

def lines (b : Block) : List Str := b.line :: b.more

def rule? (b : Block) : Option Rule :=
  match b.first with
  | .rule r => some r
  | .blank _ _ => none

def key? (b : Block) : Option Str := b.rule?.map Rule.key

end Block

/-- A manifest file; the section of the rules is its last one. -/
structure ManifestFile where
  header : List Str
  blocks : List Block
  header_ne : ∀ line ∈ header, line ≠ "manifest:"
  clean : ∀ line ∈ header, ∀ c ∈ line, isLineBoundary c = false

namespace ManifestFile

def lines (f : ManifestFile) : List Str :=
  f.header ++ "manifest:".toList :: f.blocks.flatMap Block.lines

def keys (f : ManifestFile) : List Str := f.blocks.filterMap Block.key?

/-- The file with its blocks in the order of the sort. -/
def sorted (f : ManifestFile) : ManifestFile :=
  { f with blocks := f.blocks.mergeSort fun a b => decide (sortKey a.line ≤ sortKey b.line) }

/--
The key of the second rule goes on from that of the first one, and yet it comes first: what is
taken along with the first key comes after what follows in the second line.
-/
def Misplaced (f : ManifestFile) (a b : Block) : Prop :=
  ∃ p ∈ a.rule?, ∃ q ∈ b.rule?, ∃ r ≠ [], q.key = p.key ++ r ∧
    (r ++ q.tail < p.tail ∨ r ++ q.tail = p.tail ∧ [b, a].Sublist f.blocks)

end ManifestFile

/-- What is written is a normal form of the file. -/
structure NormalForm (path content : Str) (f g : ManifestFile) : Prop where
  written : ymlSort content = .ok (unlines g.lines)
  header_eq : g.header = f.header
  blocks_perm : g.blocks.Perm f.blocks
  unchanged : ymlSort (unlines g.lines) = .ok (unlines g.lines)
  ordered : f.keys.Nodup → assertKeyOrder path g.keys = []

end Files

section Keys

variable (r : Rule)

theorem findFrom_append {sub lead s : Str} {c : Char} (hsub : (c :: sub) <+: s) (hlead : c ∉ lead)
    (i : Nat) : findFrom (c :: sub) i (lead ++ s) = (i + lead.length : Nat) := by
  induction lead generalizing i with
  | nil => rw [List.nil_append, findFrom.eq_def, if_pos hsub]; rfl
  | cons d lead ih =>
      rw [List.mem_cons, not_or] at hlead
      have hnot : ¬ (c :: sub) <+: d :: (lead ++ s) := by
        rw [List.cons_prefix_cons]
        exact fun h => hlead.1 h.1
      rw [List.cons_append, findFrom, if_neg hnot, ih hlead.2, List.length_cons]
      congr 1
      omega

theorem slice_nat (s : Str) (start stop : Nat) :
    slice s start stop = (s.take stop).drop start := by
  have hindex : ∀ n : Nat, ((if (n : Int) < 0 then (s.length : Int) + n else n) : Int).toNat = n := by
    intro n
    rw [if_neg (by omega)]
    rfl
  rw [slice]
  simp only [hindex]

/-- The last colon of what stands behind the key. -/
theorem Rule.exists_behind (h : r.complex = false) :
    ∃ post, r.behind = r.tail ++ ':' :: post ∧ ∀ c ∈ post, c ≠ ':' := by
  have hmem : ':' ∈ r.behind := by
    rw [Rule.behind, h]
    simp
  have hpost : ∀ c ∈ r.behind.rtakeWhile (· ≠ ':'), c ≠ ':' := by
    intro c hc
    simpa using List.mem_rtakeWhile_imp hc
  have hsplit : r.behind.rdropWhile (· ≠ ':') ++ r.behind.rtakeWhile (· ≠ ':') = r.behind :=
    List.rdropWhile_append_rtakeWhile ..
  have hne : r.behind.rdropWhile (· ≠ ':') ≠ [] := by
    intro hnil
    rw [hnil, List.nil_append] at hsplit
    refine hpost ':' ?_ rfl
    rw [hsplit]
    exact hmem
  have hlast : (r.behind.rdropWhile (· ≠ ':')).getLast hne = ':' := by
    simpa using List.rdropWhile_last_not (fun c : Char => decide (c ≠ ':')) r.behind hne
  have htail : r.tail ++ [':'] = r.behind.rdropWhile (· ≠ ':') := by
    have happend := List.dropLast_append_getLast hne
    rw [hlast] at happend
    rw [Rule.tail, h, if_neg Bool.false_ne_true, happend]
  refine ⟨_, ?_, hpost⟩
  conv_lhs => rw [← hsplit, ← htail]
  rw [List.append_assoc, List.singleton_append]

theorem rfind_append {s post : Str} {c : Char} (hpost : ∀ d ∈ post, d ≠ c) :
    rfind c (s ++ c :: post) = s.length := by
  have htake : (s ++ c :: post).rtakeWhile (· ≠ c) = post := by
    rw [List.rtakeWhile, List.reverse_append, List.reverse_cons, List.append_assoc,
      List.takeWhile_append_of_pos fun d hd => by simpa using hpost d (List.mem_reverse.mp hd)]
    simp
  rw [rfind, htake, List.length_append, List.length_cons]
  omega

theorem Rule.find_line : find "tests/" r.line = r.lead.length := by
  have hkey : "tests/".toList <+: r.key ++ r.behind :=
    r.key_tests.trans (List.prefix_append _ _)
  have hlead : 't' ∉ r.lead := by
    have hblanks : 't' ∉ r.blanks := fun h => absurd (r.blanks_eq 't' h) (by decide)
    have hquote : 't' ∉ r.quote := by
      have hmem := r.quote_mem
      simp only [List.mem_cons, List.not_mem_nil, or_false] at hmem
      rcases hmem with h | h | h <;> rw [h] <;> decide
    rw [Rule.lead]
    split_ifs <;> simp [hblanks, hquote]
  have hfind : findFrom "tests/".toList 0 (r.lead ++ (r.key ++ r.behind)) =
      (0 + r.lead.length : Nat) := findFrom_append hkey hlead 0
  rw [find, Rule.line, List.append_assoc, hfind, Nat.zero_add]

/-- The third character of a rule line tells a complex key from the others. -/
theorem Rule.exists_line : ∃ c rest, r.line = ' ' :: ' ' :: c :: rest ∧
    c ∈ ['?', 't', '"', '\''] ∧ (c = '?' ↔ r.complex = true) := by
  cases hcomplex : r.complex with
  | true =>
      refine ⟨'?', r.blanks ++ (r.quote ++ (r.key ++ r.behind)), ?_, by simp, by simp⟩
      rw [Rule.line, Rule.lead, hcomplex, if_pos rfl]
      simp
  | false =>
      have hblanks : r.blanks = [] := by
        by_contra hne
        exact absurd (r.complex_iff.mpr hne) (ne_true_of_eq_false hcomplex)
      have hline : r.line = ' ' :: ' ' :: (r.quote ++ (r.key ++ r.behind)) := by
        rw [Rule.line, Rule.lead, hcomplex, if_neg Bool.false_ne_true, hblanks]
        simp
      obtain ⟨more, hkey⟩ := r.key_tests
      have hmem := r.quote_mem
      simp only [List.mem_cons, List.not_mem_nil, or_false] at hmem
      rcases hmem with hquote | hquote | hquote
      · exact ⟨'t', "ests/".toList ++ more ++ r.behind,
          by rw [hline, hquote, ← hkey]; rfl, by simp, by simp⟩
      · exact ⟨'"', r.key ++ r.behind, by rw [hline, hquote]; rfl, by simp, by simp⟩
      · exact ⟨'\'', r.key ++ r.behind, by rw [hline, hquote]; rfl, by simp, by simp⟩

/-- A rule is sorted by its key and its tail. -/
theorem Rule.sortKey_line : sortKey r.line = r.key ++ r.tail := by
  obtain ⟨c, rest, hline, _, hc⟩ := r.exists_line
  cases hcomplex : r.complex with
  | true =>
      have hstart : "  ?".toList.isPrefixOf r.line = true := by
        rw [hline, hc.mpr hcomplex]
        rfl
      have htail : r.tail = r.behind := by rw [Rule.tail, hcomplex, if_pos rfl]
      rw [sortKey, if_pos hstart, r.find_line, slice_nat, List.take_length, Rule.line, htail,
        List.append_assoc, List.drop_left]
  | false =>
      have hstart : ¬ "  ?".toList.isPrefixOf r.line = true := by
        rw [hline]
        intro hprefix
        have hmark : '?' = c := by
          simpa [List.isPrefixOf] using hprefix
        exact absurd (hc.mp hmark.symm) (ne_true_of_eq_false hcomplex)
      obtain ⟨post, hbehind, hpost⟩ := r.exists_behind hcomplex
      have hsplit : r.line = (r.lead ++ (r.key ++ r.tail)) ++ ':' :: post := by
        rw [Rule.line, hbehind]
        simp only [List.append_assoc]
      rw [sortKey, if_neg hstart, r.find_line, hsplit, rfind_append hpost, slice_nat,
        List.take_left, List.drop_left]

theorem sortKey_blank {n : Nat} : sortKey (List.replicate n ' ') = [] := by
  have hmark : ¬ "  ?".toList.isPrefixOf (List.replicate n ' ') = true := by
    intro h
    have hmem := (List.isPrefixOf_iff_prefix.mp h).subset (show '?' ∈ "  ?".toList by decide)
    exact absurd (List.eq_of_mem_replicate hmem) (by decide)
  have hcolon : (List.replicate n ' ').rtakeWhile (· ≠ ':') = List.replicate n ' ' := by
    rw [List.rtakeWhile_eq_self_iff]
    intro c hc
    rw [List.eq_of_mem_replicate hc]
    rfl
  have hstop : rfind ':' (List.replicate n ' ') = -1 := by
    rw [rfind, hcolon]
    omega
  have hstart : ∀ i m : Nat, findFrom "tests/" i (List.replicate m ' ') = -1 := by
    intro i m
    induction m generalizing i with
    | zero => rfl
    | succ m ih =>
        rw [List.replicate_succ, findFrom, if_neg (by simp [List.cons_prefix_cons]), ih]
  rw [sortKey, if_neg hmark, hstop, find, hstart, slice]
  exact List.drop_eq_nil_of_le (List.length_take_le _ _)

end Keys

section Reading

theorem FirstLine.not_more (first : FirstLine) : isMore first.text = false := by
  cases first with
  | rule r =>
      obtain ⟨c, rest, hline, hc, _⟩ := r.exists_line
      rw [FirstLine.text, hline]
      simp only [List.mem_cons, List.not_mem_nil, or_false] at hc
      rcases hc with rfl | rfl | rfl | rfl <;> rfl
  | blank n short =>
      rw [FirstLine.text]
      interval_cases n <;> rfl

theorem FirstLine.ne_title (first : FirstLine) : first.text ≠ "manifest:" := by
  cases first with
  | rule r =>
      obtain ⟨c, rest, hline, _, _⟩ := r.exists_line
      rw [FirstLine.text, hline]
      simp
  | blank n short =>
      rw [FirstLine.text]
      interval_cases n <;> simp

theorem ne_title_of_isMore {line : Str} (h : isMore line = true) : line ≠ "manifest:" := by
  rintro rfl
  exact absurd h (by decide)

theorem FirstLine.isClean (first : FirstLine) : ∀ c ∈ first.text, isLineBoundary c = false := by
  cases first with
  | rule r =>
      have hquote : ∀ c ∈ r.quote, isLineBoundary c = false := by
        have hmem := r.quote_mem
        simp only [List.mem_cons, List.not_mem_nil, or_false] at hmem
        rcases hmem with h | h | h <;> rw [h] <;> decide
      have hblanks : ∀ c ∈ r.blanks, isLineBoundary c = false := fun c hc => by
        rw [r.blanks_eq c hc]
        rfl
      have hkey : ∀ c ∈ r.key, isLineBoundary c = false := fun c hc =>
        r.clean c (List.mem_append_left _ hc)
      have hrest : ∀ c ∈ r.rest, isLineBoundary c = false := fun c hc =>
        r.clean c (List.mem_append_right _ hc)
      simp only [FirstLine.text, Rule.line, Rule.lead, Rule.behind, List.forall_mem_append]
      refine ⟨⟨⟨⟨?_, hblanks⟩, hquote⟩, hkey⟩, hquote, ?_⟩
      · split_ifs <;> decide
      · split_ifs
        · exact hrest
        · exact List.forall_mem_cons.mpr ⟨rfl, hrest⟩
  | blank n short =>
      intro c hc
      rw [FirstLine.text] at hc
      rw [List.eq_of_mem_replicate hc]
      rfl

theorem addLine_header {header : List Str} (h : ∀ line ∈ header, line ≠ "manifest:") :
    ∀ read : List Str, header.foldlM addLine { header := read } =
      .ok { header := read ++ header } := by
  induction header with
  | nil =>
      intro read
      rw [List.append_nil]
      rfl
  | cons line header ih =>
      intro read
      rw [List.forall_mem_cons] at h
      have hline : addLine { header := read } line = .ok { header := read ++ [line] } := by
        rw [addLine, if_neg h.1, if_pos Bool.false_ne_true]
      rw [List.foldlM_cons, hline, Raised.ok_bind, ih h.2, List.append_assoc,
        List.singleton_append]

theorem addLine_more {header : List Str} {rules : List (Str × List Str)} {first : Str} :
    ∀ {more read : List Str}, (∀ line ∈ more, isMore line = true) →
      more.foldlM addLine ⟨true, header, rules ++ [(first, read)]⟩ =
        .ok ⟨true, header, rules ++ [(first, read ++ more)]⟩
  | [], read, _ => by
      rw [List.append_nil]
      rfl
  | line :: more, read, h => by
      rw [List.forall_mem_cons] at h
      have happend : appendMore line (rules ++ [(first, read)]) =
          .ok (rules ++ [(first, read ++ [line])]) := by
        rw [appendMore, List.getLast?_concat, List.dropLast_concat]
      have hline : addLine ⟨true, header, rules ++ [(first, read)]⟩ line =
          .ok ⟨true, header, rules ++ [(first, read ++ [line])]⟩ := by
        rw [addLine, if_neg (ne_title_of_isMore h.1), if_neg (fun h => h rfl), if_pos h.1, happend]
        rfl
      rw [List.foldlM_cons, hline, Raised.ok_bind, addLine_more h.2, List.append_assoc,
        List.singleton_append]

theorem addLine_blocks {header : List Str} {rules : List (Str × List Str)} (blocks : List Block) :
    (blocks.flatMap Block.lines).foldlM addLine ⟨true, header, rules⟩ =
      .ok ⟨true, header, rules ++ blocks.map fun b => (b.line, b.more)⟩ := by
  induction blocks generalizing rules with
  | nil =>
      rw [List.map_nil, List.append_nil]
      rfl
  | cons b blocks ih =>
      have htitle : b.line ≠ "manifest:" := b.first.ne_title
      have hmore : ¬ isMore b.line = true := ne_true_of_eq_false b.first.not_more
      have hfirst : addLine ⟨true, header, rules⟩ b.line =
          .ok ⟨true, header, rules ++ [(b.line, [])]⟩ := by
        rw [addLine, if_neg htitle, if_neg (fun h => h rfl), if_neg hmore]
      rw [List.flatMap_cons, Block.lines, List.cons_append, List.foldlM_cons, hfirst,
        Raised.ok_bind, List.foldlM_append, addLine_more b.more_isMore, Raised.ok_bind, ih,
        List.map_cons, List.append_assoc, List.singleton_append, List.nil_append]

/-- The header and the blocks are read as they stand. -/
theorem parse_lines (f : ManifestFile) : f.lines.foldlM addLine {} =
    .ok ⟨true, f.header ++ ["manifest:".toList], f.blocks.map fun b => (b.line, b.more)⟩ := by
  have htitle : addLine { header := f.header } "manifest:" =
      .ok ⟨true, f.header ++ ["manifest:".toList], []⟩ := if_pos rfl
  rw [ManifestFile.lines, List.foldlM_append, addLine_header f.header_ne, Raised.ok_bind,
    List.nil_append, List.foldlM_cons, htitle, Raised.ok_bind, addLine_blocks, List.nil_append]

theorem ManifestFile.isClean (f : ManifestFile) :
    ∀ line ∈ f.lines, ∀ c ∈ line, isLineBoundary c = false := by
  simp only [ManifestFile.lines, List.forall_mem_append, List.forall_mem_cons,
    List.forall_mem_flatMap, Block.lines]
  exact ⟨f.clean, by decide, fun b _ => ⟨b.first.isClean, b.clean⟩⟩

theorem sortRules_map (blocks : List Block) :
    sortRules (blocks.map fun b => (b.line, b.more)) =
      (blocks.mergeSort fun a b => decide (sortKey a.line ≤ sortKey b.line)).map
        fun b => (b.line, b.more) := by
  rw [sortRules, List.map_mergeSort]
  intro a _ b _
  rfl

/-- A file is written with its blocks sorted. -/
theorem ymlSort_eq {f : ManifestFile} {content : Str} (h : readLines content = f.lines) :
    ymlSort content = .ok (unlines f.sorted.lines) := by
  rw [ymlSort, h, parse_lines, Raised.ok_bind]
  simp only [sortRules_map, List.flatMap_map]
  rw [ManifestFile.lines, ManifestFile.sorted, List.append_assoc]
  rfl

theorem sorted_sorted (f : ManifestFile) : f.sorted.sorted = f.sorted := by
  have hblocks : f.sorted.blocks.mergeSort (fun a b => decide (sortKey a.line ≤ sortKey b.line)) =
      f.sorted.blocks :=
    mergeSort_key_of_pairwise (fun b : Block => sortKey b.line)
      (pairwise_mergeSort_key (fun b : Block => sortKey b.line) f.blocks)
  rw [ManifestFile.sorted, hblocks]

/-- A file that was sorted is not changed any more. -/
theorem ymlSort_sorted (f : ManifestFile) :
    ymlSort (unlines f.sorted.lines) = .ok (unlines f.sorted.lines) := by
  rw [ymlSort_eq (readLines_unlines f.sorted.isClean), sorted_sorted]

end Reading

section Order

theorem assertKeyOrder_go (path : Str) : ∀ (keys : List Str) (last : Str) (errors : List Str),
    (keys.foldl (fun (state : Str × List Str) key =>
      (key, if state.1 < key then state.2
        else state.2 ++ ["Order is not respected at ".toList ++ path ++ " (".toList ++ state.1 ++
          " < ".toList ++ key ++ ")".toList])) (last, errors)).2 = [] ↔
      errors = [] ∧ (last :: keys).IsChain (· < ·)
  | [], last, errors => by simp
  | key :: keys, last, errors => by
      rw [List.foldl_cons, assertKeyOrder_go path keys, List.isChain_cons_cons]
      split_ifs with h
      · simp [h]
      · simp [h]

theorem assertKeyOrder_eq_nil_iff {path : Str} {keys : List Str} :
    assertKeyOrder path keys = [] ↔ (("/" : Str) :: keys).Pairwise (· < ·) := by
  rw [assertKeyOrder, assertKeyOrder_go, ← List.isChain_iff_pairwise]
  simp

/-- Texts that differ before the first one ends are in the order of what follows, too. -/
theorem append_lt_append {s t : Str} (hlt : s < t) (hnot : ¬ s <+: t) (u v : Str) :
    s ++ u < t ++ v := by
  induction s generalizing t with
  | nil => exact absurd List.nil_prefix hnot
  | cons c s ih =>
      cases t with
      | nil => exact absurd hlt (List.not_lt_nil _)
      | cons d t =>
          rw [List.cons_append, List.cons_append, List.cons_lt_cons_iff]
          rcases List.cons_lt_cons_iff.mp hlt with h | ⟨rfl, h⟩
          · exact Or.inl h
          · refine Or.inr ⟨rfl, ih h fun hprefix => hnot ?_⟩
            exact List.cons_prefix_cons.mpr ⟨rfl, hprefix⟩

theorem append_lt_append_left {s u v : Str} : s ++ u < s ++ v ↔ u < v := by
  induction s with
  | nil => rfl
  | cons c s ih =>
      rw [List.cons_append, List.cons_append, List.cons_lt_cons_iff, ih]
      simp

/-- The key of the first block, if both have one, is the smaller one. -/
def Ahead (a b : Block) : Prop := ∀ p ∈ a.rule?, ∀ q ∈ b.rule?, p.key < q.key

variable {f : ManifestFile} {a b : Block} {p q : Rule}

theorem mem_key? {k : Str} : k ∈ a.key? ↔ ∃ p ∈ a.rule?, p.key = k := by
  rw [Block.key?, Option.mem_map]

theorem slash_lt_key (p : Rule) : "/".toList < p.key := by
  obtain ⟨more, hkey⟩ := p.key_tests
  rw [← hkey]
  exact List.cons_lt_cons_iff.mpr (Or.inl (by decide))

theorem assertKeyOrder_keys {path : Str} :
    assertKeyOrder path f.keys = [] ↔ f.blocks.Pairwise Ahead := by
  rw [assertKeyOrder_eq_nil_iff, List.pairwise_cons, ManifestFile.keys, List.pairwise_filterMap]
  constructor
  · rintro ⟨_, h⟩
    exact h.imp fun hab p hp q hq => hab _ (mem_key?.mpr ⟨p, hp, rfl⟩) _ (mem_key?.mpr ⟨q, hq, rfl⟩)
  · intro h
    refine ⟨fun k hk => ?_, h.imp fun hab k hk l hl => ?_⟩
    · obtain ⟨b, _, hb⟩ := List.mem_filterMap.mp hk
      obtain ⟨p, _, rfl⟩ := mem_key?.mp hb
      exact slash_lt_key p
    · obtain ⟨p, hp, rfl⟩ := mem_key?.mp hk
      obtain ⟨q, hq, rfl⟩ := mem_key?.mp hl
      exact hab p hp q hq

theorem sortKey_block (h : p ∈ a.rule?) : sortKey a.line = p.key ++ p.tail := by
  rw [Block.line]
  cases hfirst : a.first with
  | rule r =>
      rw [Block.rule?, hfirst] at h
      obtain rfl : r = p := Option.some.inj h
      exact r.sortKey_line
  | blank n short =>
      rw [Block.rule?, hfirst] at h
      cases h

theorem key_ne (hnodup : f.keys.Nodup) : f.blocks.Pairwise fun a b =>
    ∀ p ∈ a.rule?, ∀ q ∈ b.rule?, p.key ≠ q.key := by
  rw [ManifestFile.keys, List.nodup_iff_pairwise_ne, List.pairwise_filterMap] at hnodup
  exact hnodup.imp fun hab p hp q hq =>
    hab _ (mem_key?.mpr ⟨p, hp, rfl⟩) _ (mem_key?.mpr ⟨q, hq, rfl⟩)

theorem key_ne_of_ne (hnodup : f.keys.Nodup) (ha : a ∈ f.blocks) (hb : b ∈ f.blocks) (hne : a ≠ b)
    (hp : p ∈ a.rule?) (hq : q ∈ b.rule?) : p.key ≠ q.key := by
  have : Std.Symm fun a b : Block => ∀ p ∈ a.rule?, ∀ q ∈ b.rule?, p.key ≠ q.key :=
    ⟨fun _ _ h p hp q hq => (h q hq p hp).symm⟩
  exact (key_ne hnodup).forall ha hb hne p hp q hq

/-- A key that is smaller comes first, or the other key goes on from it. -/
theorem exists_of_not_ahead (hlt : q.key < p.key) (hle : p.key ++ p.tail ≤ q.key ++ q.tail) :
    ∃ r ≠ [], p.key = q.key ++ r ∧ r ++ p.tail ≤ q.tail := by
  by_cases hprefix : q.key <+: p.key
  · obtain ⟨r, hr⟩ := hprefix
    refine ⟨r, ?_, hr.symm, ?_⟩
    · rintro rfl
      rw [List.append_nil] at hr
      exact lt_irrefl _ (hr ▸ hlt)
    · rw [← hr, List.append_assoc] at hle
      exact le_of_not_gt fun h => not_lt_of_ge hle (append_lt_append_left.mpr h)
  · exact absurd hle (not_le_of_gt (append_lt_append hlt hprefix _ _))

/-- Blocks with keys of their own are brought into the order of their keys, unless misplaced. -/
theorem pairwise_sorted_iff (hnodup : f.keys.Nodup) :
    f.sorted.blocks.Pairwise Ahead ↔ ∀ a ∈ f.blocks, ∀ b ∈ f.blocks, ¬ f.Misplaced a b := by
  have hiff := pairwise_mergeSort_iff (fun b : Block => sortKey b.line) (r := Ahead) (l := f.blocks)
  rw [ManifestFile.sorted, hiff]
  constructor
  · rintro ⟨hlt, heq⟩ a ha b hb ⟨p, hp, q, hq, r, hne, hkey, htail⟩
    have hsmaller : p.key < q.key := by
      have happend : p.key ++ [] < p.key ++ r := append_lt_append_left.mpr (by
        cases r with
        | nil => exact absurd rfl hne
        | cons c r => exact List.nil_lt_cons _ _)
      rwa [List.append_nil, ← hkey] at happend
    have hkeys : sortKey b.line = p.key ++ (r ++ q.tail) := by
      rw [sortKey_block hq, hkey, List.append_assoc]
    rcases htail with htail | ⟨htail, hsub⟩
    · have hfirst : sortKey b.line < sortKey a.line := by
        rw [hkeys, sortKey_block hp]
        exact append_lt_append_left.mpr htail
      exact lt_asymm hsmaller (hlt b hb a ha hfirst q hq p hp)
    · have hsame : sortKey b.line = sortKey a.line := by
        rw [hkeys, sortKey_block hp, htail]
      exact lt_asymm hsmaller (heq b a hsame hsub q hq p hp)
  · intro hplaced
    constructor
    · intro a ha b hb hlt p hp q hq
      have hne : a ≠ b := by
        rintro rfl
        exact lt_irrefl _ hlt
      rcases lt_or_gt_of_ne (key_ne_of_ne hnodup ha hb hne hp hq) with h | h
      · exact h
      · rw [sortKey_block hp, sortKey_block hq] at hlt
        obtain ⟨r, hr, hkey, htail⟩ := exists_of_not_ahead h hlt.le
        refine absurd ⟨q, hq, p, hp, r, hr, hkey, Or.inl (lt_of_le_of_ne htail ?_)⟩
          (hplaced b hb a ha)
        intro heq
        rw [hkey, List.append_assoc, heq] at hlt
        exact lt_irrefl _ hlt
    · intro a b heq hsub p hp q hq
      rcases lt_or_gt_of_ne ((key_ne hnodup).forall_sublist hsub p hp q hq) with h | h
      · exact h
      · rw [sortKey_block hp, sortKey_block hq] at heq
        obtain ⟨r, hr, hkey, _⟩ := exists_of_not_ahead h heq.le
        rw [hkey, List.append_assoc] at heq
        have hmem : ∀ c ∈ [a, b], c ∈ f.blocks := fun c hc => hsub.subset hc
        exact absurd ⟨q, hq, p, hp, r, hr, hkey, Or.inr ⟨List.append_cancel_left heq, hsub⟩⟩
          (hplaced b (hmem b (by simp)) a (hmem a (by simp)))

/-- `tests/a.py::Test_A` with a version, and with what follows it on its line. -/
def ruleA (comment : Str) (hclean : ∀ c ∈ comment, isLineBoundary c = false) : Rule where
  complex := false
  blanks := []
  quote := []
  key := "tests/a.py::Test_A"
  rest := " v1.0".toList ++ comment
  blanks_eq := by simp
  complex_iff := by simp
  quote_mem := by simp
  key_tests := by decide
  key_plain _ := by decide
  key_quoted h := absurd rfl h
  rest_blank := by
    intro c hc
    exact (Option.some.inj hc).symm
  rest_comment h := absurd h Bool.false_ne_true
  clean := by
    simp only [List.forall_mem_append]
    exact ⟨by decide, by decide, hclean⟩

def ruleA1 : Rule :=
  { ruleA [] (by simp) with
    key := "tests/a.py::Test_A1"
    key_tests := by decide
    key_plain := fun _ => by decide
    key_quoted := fun h => absurd rfl h
    clean := by decide }

def Block.ofRule (r : Rule) : Block := ⟨.rule r, [], by simp, by simp⟩

/-- The version of the first rule has a comment with a colon. -/
def commentFile : ManifestFile where
  header := ["---"]
  blocks := [.ofRule (ruleA "  # TODO: check" (by decide)), .ofRule ruleA1]
  header_ne := by decide
  clean := by decide

def plainFile : ManifestFile where
  header := ["---"]
  blocks := [.ofRule ruleA1]
  header_ne := by decide
  clean := by decide

end Order

end YmlSort
end Manifest
end SystemTests
