import SystemTests.Foundation.Text

/-!
# Folders as trees

A folder is the list of its entries in the order a listing gives them: files with
what they hold, and folders.  No name is empty, refers to the folder itself or to
the one above, or has a slash in it, and no two entries of a folder share a name.

`nodes` lists what is below a folder, a folder before what is in it, each by the
names on the way to it.  `walk` lists the folder and all folders below it.

**Results.**
* `entries_induction`: induction over the entries of a folder and of the folders
  among them.
* `nodup_nodes`: no path is listed twice.
* `ancestor_mem_before`: what contains a node is listed before it.
* `folder_induction`: induction from the folders in a folder to the folder.
* `foldersBelow_eq`: the walk of a folder is the walk of the folders in it.
-/

namespace Foundation

open Text

universe u

inductive Entry (α : Type u) where
  | file (name : Str) (content : α)
  | dir (name : Str) (entries : List (Entry α))

variable {α : Type u}

def Entry.name : Entry α → Str
  | .file name _ => name
  | .dir name _ => name

def IsName (s : Str) : Prop := s ≠ [] ∧ s ≠ "." ∧ s ≠ ".." ∧ '/' ∉ s

mutual

def Entry.WellNamed : Entry α → Prop
  | .file name _ => IsName name
  | .dir name entries => IsName name ∧ WellNamed entries

def WellNamed : List (Entry α) → Prop
  | [] => True
  | e :: es => e.WellNamed ∧ e.name ∉ es.map Entry.name ∧ WellNamed es

end

structure Folder (α : Type u) where
  entries : List (Entry α)
  wellNamed : WellNamed entries

/-- Something below a folder, by the names on the way to it. -/
structure Node where
  path : List Str
  isDir : Bool
deriving DecidableEq

mutual

def Entry.nodes (above : List Str) : Entry α → List Node
  | .file name _ => [⟨above ++ [name], false⟩]
  | .dir name entries => ⟨above ++ [name], true⟩ :: nodes (above ++ [name]) entries

/-- What is below a folder, which itself has the path `above`. -/
def nodes (above : List Str) : List (Entry α) → List Node
  | [] => []
  | e :: es => e.nodes above ++ nodes above es

end

def Folder.nodes (folder : Folder α) : List Node := Foundation.nodes [] folder.entries

/-- Induction over the entries of a folder and of the folders among them. -/
theorem entries_induction {P : List (Entry α) → Prop} (nil : P [])
    (file : ∀ name content es, P es → P (.file name content :: es))
    (dir : ∀ name entries es, P entries → P es → P (.dir name entries :: es)) :
    ∀ es, P es
  | [] => nil
  | .file name content :: es => file name content es (entries_induction nil file dir es)
  | .dir name entries :: es =>
      dir name entries es (entries_induction nil file dir entries)
        (entries_induction nil file dir es)

theorem nodes_file_cons (above : List Str) (name : Str) (content : α) (es : List (Entry α)) :
    nodes above (.file name content :: es) = ⟨above ++ [name], false⟩ :: nodes above es := rfl

theorem nodes_dir_cons (above : List Str) (name : Str) (entries es : List (Entry α)) :
    nodes above (.dir name entries :: es) =
      ⟨above ++ [name], true⟩ :: (nodes (above ++ [name]) entries ++ nodes above es) := rfl

/-- A node is an entry of the folder or below one. -/
theorem prefix_of_mem_nodes {above : List Str} {es : List (Entry α)} {node : Node}
    (h : node ∈ nodes above es) : ∃ name ∈ es.map Entry.name, above ++ [name] <+: node.path := by
  induction es using entries_induction generalizing above with
  | nil => cases h
  | file name content es ih =>
      rw [nodes_file_cons] at h
      rcases List.mem_cons.mp h with rfl | h
      · exact ⟨name, List.mem_cons_self, List.prefix_rfl⟩
      · obtain ⟨name', hname', hprefix⟩ := ih h
        exact ⟨name', List.mem_cons_of_mem _ hname', hprefix⟩
  | dir name entries es ihentries ihes =>
      rw [nodes_dir_cons] at h
      rcases List.mem_cons.mp h with rfl | h
      · exact ⟨name, List.mem_cons_self, List.prefix_rfl⟩
      · rcases List.mem_append.mp h with h | h
        · obtain ⟨name', -, hprefix⟩ := ihentries h
          exact ⟨name, List.mem_cons_self, (List.prefix_append _ _).trans hprefix⟩
        · obtain ⟨name', hname', hprefix⟩ := ihes h
          exact ⟨name', List.mem_cons_of_mem _ hname', hprefix⟩

theorem eq_of_prefix_concat {above path : List Str} {name name' : Str}
    (h : above ++ [name] <+: path) (h' : above ++ [name'] <+: path) : name = name' := by
  have heq : above ++ [name] = above ++ [name'] :=
    (List.prefix_of_prefix_length_le h h' (by simp)).eq_of_length (by simp)
  simpa using heq

theorem not_append_prefix_self (above : List Str) (name : Str) : ¬ above ++ [name] <+: above := by
  intro h
  have hlength := h.length_le
  simp at hlength

/-- **No path is listed twice.** -/
theorem nodup_nodes {es : List (Entry α)} (h : WellNamed es) (above : List Str) :
    ((nodes above es).map Node.path).Nodup := by
  induction es using entries_induction generalizing above with
  | nil => exact List.nodup_nil
  | file name content es ih =>
      rw [nodes_file_cons, List.map_cons, List.nodup_cons]
      refine ⟨?_, ih h.2.2 above⟩
      intro hmem
      obtain ⟨node, hnode, hpath⟩ := List.mem_map.mp hmem
      obtain ⟨name', hname', hprefix⟩ := prefix_of_mem_nodes hnode
      rw [hpath] at hprefix
      exact h.2.1 (eq_of_prefix_concat hprefix List.prefix_rfl ▸ hname')
  | dir name entries es ihentries ihes =>
      rw [nodes_dir_cons, List.map_cons, List.nodup_cons, List.map_append, List.nodup_append]
      refine ⟨?_, ihentries h.1.2 _, ihes h.2.2 above, ?_⟩
      · intro hmem
        rcases List.mem_append.mp hmem with hmem | hmem
        · obtain ⟨node, hnode, hpath⟩ := List.mem_map.mp hmem
          obtain ⟨name', -, hprefix⟩ := prefix_of_mem_nodes hnode
          exact not_append_prefix_self _ name' (hpath ▸ hprefix)
        · obtain ⟨node, hnode, hpath⟩ := List.mem_map.mp hmem
          obtain ⟨name', hname', hprefix⟩ := prefix_of_mem_nodes hnode
          rw [hpath] at hprefix
          exact h.2.1 (eq_of_prefix_concat hprefix List.prefix_rfl ▸ hname')
      · rintro path hin path' hout rfl
        obtain ⟨node, hnode, rfl⟩ := List.mem_map.mp hin
        obtain ⟨node', hnode', hpath⟩ := List.mem_map.mp hout
        obtain ⟨below, -, hbelow⟩ := prefix_of_mem_nodes hnode
        obtain ⟨name', hname', hprefix⟩ := prefix_of_mem_nodes hnode'
        rw [hpath] at hprefix
        have hunder : above ++ [name] <+: node.path := (List.prefix_append _ _).trans hbelow
        exact h.2.1 (eq_of_prefix_concat hprefix hunder ▸ hname')

/-- **What contains a node is listed before it.** -/
theorem ancestor_mem_before {above : List Str} {es : List (Entry α)} {before after : List Node}
    {node : Node} (h : nodes above es = before ++ node :: after) {path : List Str}
    (habove : above <+: path) (hne : path ≠ above) (hpath : path <+: node.path)
    (hself : path ≠ node.path) : ⟨path, true⟩ ∈ before := by
  have hlonger : above.length < path.length :=
    lt_of_le_of_ne habove.length_le fun heq => hne (habove.eq_of_length heq).symm
  induction es using entries_induction generalizing above before after with
  | nil => simp [nodes] at h
  | file name content es ih =>
      rw [nodes_file_cons] at h
      cases before with
      | nil =>
          obtain ⟨rfl, -⟩ := List.cons.inj h
          exact absurd (hpath.eq_of_length_le (by simpa using hlonger)) hself
      | cons first before =>
          obtain ⟨-, hrest⟩ := List.cons.inj h
          exact List.mem_cons_of_mem _ (ih hrest habove hne hlonger)
  | dir name entries es ihentries ihes =>
      rw [nodes_dir_cons] at h
      cases before with
      | nil =>
          obtain ⟨rfl, -⟩ := List.cons.inj h
          exact absurd (hpath.eq_of_length_le (by simpa using hlonger)) hself
      | cons first before =>
          obtain ⟨rfl, hrest⟩ := List.cons.inj h
          rcases List.append_eq_append_iff.mp hrest with ⟨mid, rfl, hes⟩ | ⟨mid, hentries, hmid⟩
          · exact List.mem_cons_of_mem _ (List.mem_append_right _ (ihes hes habove hne hlonger))
          · cases mid with
            | nil =>
                have hnil : nodes above es = [] ++ node :: after := hmid.symm
                exact absurd (ihes hnil habove hne hlonger) List.not_mem_nil
            | cons first mid =>
                obtain ⟨rfl, -⟩ := List.cons.inj hmid
                have hnode : node ∈ nodes (above ++ [name]) entries := by
                  rw [hentries]
                  exact List.mem_append_right _ List.mem_cons_self
                obtain ⟨below, -, hbelow⟩ := prefix_of_mem_nodes hnode
                have hunder : above ++ [name] <+: path :=
                  List.prefix_of_prefix_length_le ((List.prefix_append _ _).trans hbelow) hpath
                    (by simpa using hlonger)
                by_cases heq : path = above ++ [name]
                · rw [heq]
                  exact List.mem_cons_self
                · have hdeeper : (above ++ [name]).length < path.length :=
                    lt_of_le_of_ne hunder.length_le fun hlength =>
                      heq (hunder.eq_of_length hlength).symm
                  exact List.mem_cons_of_mem _ (ihentries hentries hunder heq hdeeper)

section Walk

/-- The folders in a folder. -/
def dirs (entries : List (Entry α)) : List (Str × List (Entry α)) :=
  entries.filterMap fun
    | .file _ _ => none
    | .dir name inner => some (name, inner)

/-- The files in a folder. -/
def files (entries : List (Entry α)) : List (Str × α) :=
  entries.filterMap fun
    | .file name content => some (name, content)
    | .dir _ _ => none

mutual

def Entry.folders : Entry α → List (List (Entry α))
  | .file _ _ => []
  | .dir _ entries => entries :: foldersBelow entries

def foldersBelow : List (Entry α) → List (List (Entry α))
  | [] => []
  | e :: es => e.folders ++ foldersBelow es

end

/-- `os.walk`: the folder and all folders below it. -/
def walk (entries : List (Entry α)) : List (List (Entry α)) := entries :: foldersBelow entries

variable {es : List (Entry α)}

theorem mem_dirs {name : Str} {inner : List (Entry α)} :
    (name, inner) ∈ dirs es ↔ .dir name inner ∈ es := by
  rw [dirs, List.mem_filterMap]
  constructor
  · rintro ⟨e, he, heq⟩
    cases e with
    | file _ _ => simp at heq
    | dir name' inner' =>
        simp only [Option.some.injEq, Prod.mk.injEq] at heq
        rwa [← heq.1, ← heq.2]
  · exact fun h => ⟨_, h, rfl⟩

theorem mem_files {name : Str} {content : α} :
    (name, content) ∈ files es ↔ .file name content ∈ es := by
  rw [files, List.mem_filterMap]
  constructor
  · rintro ⟨e, he, heq⟩
    cases e with
    | file name' content' =>
        simp only [Option.some.injEq, Prod.mk.injEq] at heq
        rwa [← heq.1, ← heq.2]
    | dir _ _ => simp at heq
  · exact fun h => ⟨_, h, rfl⟩

/-- Induction from the folders in a folder to the folder. -/
theorem folder_induction {P : List (Entry α) → Prop}
    (h : ∀ es, (∀ d ∈ dirs es, P d.2) → P es) : ∀ es, P es := by
  have hdirs : ∀ es : List (Entry α), ∀ d ∈ dirs es, P d.2 := by
    intro es
    induction es using entries_induction with
    | nil => exact fun d hd => absurd hd List.not_mem_nil
    | file name content es ih => exact ih
    | dir name entries es ihentries ihes =>
        intro d hd
        rcases List.mem_cons.mp hd with rfl | hd
        · exact h entries ihentries
        · exact ihes d hd
  exact fun es => h es (hdirs es)

/-- **The walk of a folder** is the walk of the folders in it. -/
theorem foldersBelow_eq (es : List (Entry α)) :
    foldersBelow es = (dirs es).flatMap fun d => walk d.2 := by
  induction es with
  | nil => rfl
  | cons e es ih =>
      rw [foldersBelow, ih]
      cases e with
      | file _ _ => rfl
      | dir _ _ => rfl

theorem nodup_names (h : WellNamed es) : (es.map Entry.name).Nodup := by
  induction es with
  | nil => exact List.nodup_nil
  | cons e es ih => exact List.nodup_cons.mpr ⟨h.2.1, ih h.2.2⟩

theorem eq_of_name_eq (h : WellNamed es) {e e' : Entry α} (he : e ∈ es) (he' : e' ∈ es)
    (hname : e.name = e'.name) : e = e' :=
  List.inj_on_of_nodup_map (nodup_names h) he he' hname

theorem WellNamed.inner (h : WellNamed es) : ∀ d ∈ dirs es, WellNamed d.2 := by
  induction es with
  | nil => exact fun d hd => absurd hd List.not_mem_nil
  | cons e es ih =>
      cases e with
      | file _ _ => exact ih h.2.2
      | dir name inner =>
          intro d hd
          rcases List.mem_cons.mp hd with rfl | hd
          · exact h.1.2
          · exact ih h.2.2 d hd

end Walk

end Foundation
