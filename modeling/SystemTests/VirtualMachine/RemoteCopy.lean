import SystemTests.Foundation.FileTree
import SystemTests.VirtualMachine.Provisioning
import Mathlib.Logic.Relation

/-!
# Copying a folder to a machine (`utils/virtual_machine/aws_provider.py`)

`remote_copy_folders` walks a local folder and declares a resource for every file
and every folder below it.  Resources are run when what they depend on has run.  A
queue holds the resource the next one depends on.

The resources declared so far are a list, and a resource is its place in the list.
The listing of a folder is the order of its entries.

**Results.**
* `copyEntries_eq`: below a folder the resources are a chain, one for each node, and
  the queue holds its last resource.
* `chain_dependsOn_before`, `chain_dependsOn_start`: in a chain a resource depends
  on all before it.
* `remoteCopyFolders_complete`: the resources of a copy, their paths, and what they
  depend on.
-/

namespace SystemTests
namespace VirtualMachine
namespace RemoteCopy

open Foundation Foundation.Text

inductive Arguments where
  /-- `CopyFile(local_path, remote_path)` -/
  | copyFile (localPath remotePath : Str)
  /-- `Command(create)` -/
  | command (create : Str)
deriving DecidableEq

structure Resource (κ : Type) where
  name : Str
  connection : κ
  arguments : Arguments
  dependsOn : List Nat
  retainOnDelete : Bool
deriving DecidableEq

/-- What all calls of one copy share: `osType` is the `os_type` of the machine, if one is
given, and `uuid4` the identifier drawn when so many resources have been declared. -/
structure Copy (κ : Type) where
  commandId : Str
  connection : κ
  osType : Option Str
  uuid4 : Nat → Str

section Paths

/-- The root of a path: two slashes are one of their own, more count as one. -/
def root (path : Str) : Str :=
  if ['/', '/', '/'] <+: path then ['/']
  else if ['/', '/'] <+: path then ['/', '/']
  else if ['/'] <+: path then ['/']
  else []

/-- `Path(path).parts` -/
def parts (path : Str) : List Str :=
  let names := (split "/" path).filter fun part => part ≠ [] ∧ part ≠ "."
  if root path = [] then names else root path :: names

/-- The parts of `path.relative_to(*other)`. -/
def relativeTo (path other : List Str) : Except Raised (List Str) :=
  if other <+: path then .ok (path.drop other.length)
  else .error (.valueError (join "/" path ++ " is not in the subpath of " ++ join "/" other))

/-- The text of a path without a root. -/
def pathStr (names : List Str) : Str := if names = [] then "." else join "/" names

/-- `str(p.relative_to(*p.parts[:2]))` of the path `p` of `"/" + destination` -/
def dropFolder (destination : Str) : Except Raised Str := do
  let p := parts ("/" ++ destination)
  let names ← relativeTo p (p.take 2)
  return pathStr names

end Paths

section Program

variable {κ α : Type} (c : Copy κ)

/-- `list.pop()` -/
def pop (queue : List Nat) : Except Raised (Nat × List Nat) :=
  match queue.getLast? with
  | none => .error (.indexError "pop from empty list")
  | some last => .ok (last, queue.dropLast)

def mkdirCmd : Str :=
  if c.osType ≠ some "windows" then "mkdir -p" else "New-Item -ItemType Directory -Force -Path"

/-- One call, where `loop` declares the resources of the entries. -/
def callWith (loop : Str → List Nat × List (Resource κ) →
      Except Raised (List Nat × List (Resource κ)))
    (source : Str) (destination : Option Str) (dependsOn : Nat) (program : List (Resource κ)) :
    Except Raised (Nat × List (Resource κ)) := do
  let destination :=
    if orEmpty destination = [] then baseName source else orEmpty destination
  let (queue, program) ← loop destination ([dependsOn], program)
  let (last, _) ← pop queue
  return (last, program)

mutual

def copyEntry (source destination : Str) (relativePath : Bool) :
    Entry α → List Nat × List (Resource κ) → Except Raised (List Nat × List (Resource κ))
  | .file name _, (queue, program) => do
      let source := source ++ "/" ++ name
      let destination := destination ++ "/" ++ name
      let destination := if relativePath then destination else baseName destination
      let (dependsOn, queue) ← pop queue
      return (program.length :: queue,
        program ++ [⟨source ++ "-" ++ c.commandId, c.connection, .copyFile source destination,
          [dependsOn], true⟩])
  | .dir name entries, (queue, program) => do
      let source := source ++ "/" ++ name
      let destination := destination ++ "/" ++ name
      let destination ← (if relativePath then .ok destination else dropFolder destination)
      let (dependsOn, queue) ← pop queue
      let declared := program ++
        [⟨"mkdir-" ++ destination ++ "-" ++ c.uuid4 program.length ++ "-" ++ c.commandId,
          c.connection, .command (mkdirCmd c ++ " " ++ destination), [dependsOn], true⟩]
      let queue := program.length :: queue
      let (dependsOn, queue) ← pop queue
      let (last, declared) ← callWith
        (fun destination => copyEntries source destination true entries)
        source (some destination) dependsOn declared
      return (last :: queue, declared)

def copyEntries (source destination : Str) (relativePath : Bool) :
    List (Entry α) → List Nat × List (Resource κ) →
      Except Raised (List Nat × List (Resource κ))
  | [], state => .ok state
  | e :: es, state => do
      let state ← copyEntry source destination relativePath e state
      copyEntries source destination relativePath es state

end

/-- `remote_copy_folders(source_folder, destination_folder, ..)` -/
def remoteCopyFolders (source : Str) (destination : Option Str) (relativePath : Bool)
    (entries : List (Entry α)) (dependsOn : Nat) (program : List (Resource κ)) :
    Except Raised (Nat × List (Resource κ)) :=
  callWith (fun destination => copyEntries c source destination relativePath entries) source
    destination dependsOn program

end Program

section Names

theorem baseName_ne_dot (path : Str) : baseName path ≠ "." := by
  intro h
  unfold baseName at h
  cases hlast : ((split "/" path).filter fun part => part ≠ [] ∧ part ≠ ".").getLast? with
  | none =>
      rw [hlast] at h
      exact absurd h (by decide)
  | some part =>
      rw [hlast, Option.getD_some] at h
      have hpart := (List.mem_filter.mp (List.mem_of_getLast? hlast)).2
      simp [h] at hpart

theorem slash_not_mem_baseName (path : Str) : '/' ∉ baseName path := by
  unfold baseName
  cases hlast : ((split "/" path).filter fun part => part ≠ [] ∧ part ≠ ".").getLast? with
  | none => simp
  | some part =>
      rw [Option.getD_some]
      exact not_mem_of_mem_split (List.mem_filter.mp (List.mem_of_getLast? hlast)).1

theorem split_slash_append {folder name : Str} (hfolder : '/' ∉ folder) (hname : '/' ∉ name) :
    split "/" (folder ++ "/" ++ name) = [folder, name] := by
  have h : split ['/'] (folder ++ ['/'] ++ name) = folder :: split ['/'] name :=
    split_append hfolder
  rw [split_of_not_mem hname] at h
  exact h

/-- The name of what is in a folder. -/
theorem baseName_append {folder name : Str} (hfolder : '/' ∉ folder) (hname : IsName name) :
    baseName (folder ++ "/" ++ name) = name := by
  have hkept : decide (name ≠ [] ∧ name ≠ ".") = true := decide_eq_true ⟨hname.1, hname.2.1⟩
  rw [baseName, split_slash_append hfolder hname.2.2.2, List.filter_cons, List.filter_singleton,
    hkept]
  split_ifs <;> rfl

theorem root_slash_append {folder rest : Str} (hne : folder ≠ []) (hfolder : '/' ∉ folder) :
    root ("/" ++ (folder ++ rest)) = ['/'] := by
  obtain ⟨x, folder, rfl⟩ := List.exists_cons_of_ne_nil hne
  have hx : '/' ≠ x := fun heq => hfolder (heq ▸ List.mem_cons_self)
  have hslash : ("/" : Str) = ['/'] := rfl
  rw [hslash, root, if_neg (by simp [hx]), if_neg (by simp [hx]), if_pos (by simp)]

/-- The path of what is in a folder, from that folder. -/
theorem dropFolder_append {folder name : Str} (hne : folder ≠ []) (hdot : folder ≠ ".")
    (hfolder : '/' ∉ folder) (hname : IsName name) :
    dropFolder (folder ++ "/" ++ name) = .ok name := by
  have hparts : parts ("/" ++ (folder ++ "/" ++ name)) = [['/'], folder, name] := by
    have hsplit : split "/" ("/" ++ (folder ++ "/" ++ name)) = [[], folder, name] := by
      have h : split ['/'] ([] ++ ['/'] ++ (folder ++ ['/'] ++ name)) =
          [] :: split ['/'] (folder ++ ['/'] ++ name) := split_append List.not_mem_nil
      exact h.trans (congrArg _ (split_slash_append hfolder hname.2.2.2))
    have hroot : root ("/" ++ (folder ++ "/" ++ name)) = ['/'] := by
      rw [List.append_assoc folder]
      exact root_slash_append hne hfolder
    have hkept : ([[], folder, name].filter fun part => part ≠ [] ∧ part ≠ ".") =
        [folder, name] := by
      rw [List.filter_cons_of_neg (by simp), List.filter_eq_self]
      simp only [List.forall_mem_cons, decide_eq_true_eq]
      exact ⟨⟨hne, hdot⟩, ⟨hname.1, hname.2.1⟩, by simp⟩
    rw [parts, hsplit, hroot, hkept]
    rfl
  have hstr : pathStr [name] = name := by
    rw [pathStr, if_neg (List.cons_ne_nil _ _), join_singleton]
  have hrelative : relativeTo [['/'], folder, name] [['/'], folder] = .ok [name] := by
    have hcut : [['/'], folder] <+: [['/'], folder, name] := ⟨[name], rfl⟩
    rw [relativeTo, if_pos hcut]
    rfl
  calc dropFolder (folder ++ "/" ++ name)
      = (do
          let names ← relativeTo [['/'], folder, name] [['/'], folder]
          return pathStr names) := by rw [dropFolder, hparts]; rfl
    _ = .ok name := by rw [hrelative, Raised.ok_bind, hstr]; rfl

end Names

section Chains

variable {κ α : Type} (c : Copy κ)

def localPath (source : Str) (path : List Str) : Str := source ++ "/" ++ join "/" path

/-- What has to be done for a node: a file is copied from its path below the source folder to
its path from there, and a folder is made at that path. -/
def arguments (source : Str) (node : Node) : Arguments :=
  if node.isDir then .command (mkdirCmd c ++ " " ++ join "/" node.path)
  else .copyFile (localPath source node.path) (join "/" node.path)

/-- The resource of a node at a place in the program. -/
def declared (source : Str) (node : Node) (place dependsOn : Nat) : Resource κ where
  name :=
    if node.isDir then
      "mkdir-" ++ join "/" node.path ++ "-" ++ c.uuid4 place ++ "-" ++ c.commandId
    else localPath source node.path ++ "-" ++ c.commandId
  connection := c.connection
  arguments := arguments c source node
  dependsOn := [dependsOn]
  retainOnDelete := true

/-- The resources of some nodes, each of which depends on the one before. -/
def chain (source : Str) : Nat → Nat → List Node → List (Resource κ)
  | _, _, [] => []
  | place, dependsOn, node :: nodes =>
      declared c source node place dependsOn :: chain source (place + 1) place nodes

/-- The last resource of a chain, or what the chain was to depend on. -/
def lastOf : Nat → Nat → List Node → Nat
  | _, dependsOn, [] => dependsOn
  | place, _, _ :: nodes => lastOf (place + 1) place nodes

@[simp] theorem length_chain (source : Str) (place dependsOn : Nat) (nodes : List Node) :
    (chain c source place dependsOn nodes).length = nodes.length := by
  induction nodes generalizing place dependsOn with
  | nil => rfl
  | cons node nodes ih => rw [chain, List.length_cons, ih, List.length_cons]

theorem map_arguments_chain (source : Str) (place dependsOn : Nat) (nodes : List Node) :
    (chain c source place dependsOn nodes).map Resource.arguments =
      nodes.map (arguments c source) := by
  induction nodes generalizing place dependsOn with
  | nil => rfl
  | cons node nodes ih => rw [chain, List.map_cons, ih, List.map_cons, declared]

theorem chain_append (source : Str) (place dependsOn : Nat) (before after : List Node) :
    chain c source place dependsOn (before ++ after) =
      chain c source place dependsOn before ++
        chain c source (place + before.length) (lastOf place dependsOn before) after := by
  induction before generalizing place dependsOn with
  | nil => rfl
  | cons node before ih =>
      rw [List.cons_append, chain, chain, lastOf, ih, List.cons_append, List.length_cons,
        Nat.add_assoc, Nat.add_comm 1]

theorem lastOf_append (place dependsOn : Nat) (before after : List Node) :
    lastOf place dependsOn (before ++ after) =
      lastOf (place + before.length) (lastOf place dependsOn before) after := by
  induction before generalizing place dependsOn with
  | nil => rfl
  | cons node before ih =>
      rw [List.cons_append, lastOf, lastOf, ih, List.length_cons, Nat.add_assoc, Nat.add_comm 1]

theorem lastOf_of_ne_nil {nodes : List Node} (h : nodes ≠ []) (place dependsOn : Nat) :
    lastOf place dependsOn nodes + 1 = place + nodes.length := by
  induction nodes generalizing place dependsOn with
  | nil => exact absurd rfl h
  | cons node nodes ih =>
      rw [lastOf]
      by_cases hnil : nodes = []
      · subst hnil
        rfl
      · rw [ih hnil, List.length_cons]
        omega

/-- One resource depends on another, directly or through others. -/
def DependsOn (program : List (Resource κ)) : Nat → Nat → Prop :=
  Relation.TransGen fun place dependsOn =>
    ∃ resource, program[place]? = some resource ∧ dependsOn ∈ resource.dependsOn

variable (source : Str) (program : List (Resource κ)) (dependsOn : Nat)

/-- What the resource of a node in a chain depends on by itself. -/
theorem getElem?_chain (before : List Node) (node : Node) (after : List Node) :
    (program ++ chain c source program.length dependsOn (before ++ node :: after))[
        program.length + before.length]? =
      some (declared c source node (program.length + before.length)
        (lastOf program.length dependsOn before)) := by
  rw [List.getElem?_append_right (Nat.le_add_right _ _), Nat.add_sub_cancel_left, chain_append,
    List.getElem?_append_right (by rw [length_chain]), length_chain, Nat.sub_self, chain]
  rfl

theorem chain_dependsOn_last (before : List Node) (node : Node) (after : List Node) :
    DependsOn (program ++ chain c source program.length dependsOn (before ++ node :: after))
      (program.length + before.length) (lastOf program.length dependsOn before) :=
  .single ⟨_, getElem?_chain c source program dependsOn before node after, List.mem_singleton_self _⟩

/-- In a chain a resource depends on what the chain depends on. -/
theorem chain_dependsOn_start (before : List Node) (node : Node) (after : List Node) :
    DependsOn (program ++ chain c source program.length dependsOn (before ++ node :: after))
      (program.length + before.length) dependsOn := by
  induction before using List.reverseRecOn generalizing node after with
  | nil => exact chain_dependsOn_last c source program dependsOn [] node after
  | append_singleton before x ih =>
      have hlast := chain_dependsOn_last c source program dependsOn (before ++ [x]) node after
      rw [lastOf_append] at hlast
      refine Relation.TransGen.trans hlast ?_
      rw [List.append_assoc]
      exact ih x (node :: after)

/-- In a chain a resource depends on all the resources before it. -/
theorem chain_dependsOn_before (before : List Node) (x : Node) (between : List Node)
    (node : Node) (after : List Node) :
    DependsOn (program ++
        chain c source program.length dependsOn (before ++ x :: (between ++ node :: after)))
      (program.length + (before.length + 1 + between.length))
      (program.length + before.length) := by
  have happend : ∀ ys : List Node, before ++ x :: (between ++ ys) = before ++ x :: between ++ ys :=
    fun ys => by simp
  have hlength : (before ++ x :: between).length = before.length + 1 + between.length := by
    rw [List.length_append, List.length_cons]
    omega
  induction between using List.reverseRecOn generalizing node after with
  | nil =>
      have hlast := chain_dependsOn_last c source program dependsOn (before ++ [x]) node after
      rw [lastOf_append, List.append_assoc, List.length_append] at hlast
      exact hlast
  | append_singleton between y ih =>
      have hlast := chain_dependsOn_last c source program dependsOn (before ++ x :: (between ++ [y])) node after
      rw [hlength, ← happend] at hlast
      refine Relation.TransGen.trans hlast ?_
      have hplace : lastOf program.length dependsOn (before ++ x :: (between ++ [y])) =
          program.length + (before.length + 1 + between.length) := by
        have hne : before ++ x :: (between ++ [y]) ≠ [] := by simp
        have hlastOf := lastOf_of_ne_nil hne program.length dependsOn
        rw [hlength, List.length_append, List.length_singleton] at hlastOf
        omega
      rw [hplace, List.append_assoc]
      exact ih y (node :: after) (fun ys => by simp) (by simp; omega)

end Chains

section Copying

variable {κ α : Type} (c : Copy κ)

/-- The source folder of the call on a folder. -/
def sourceAt (source : Str) (above : List Str) : Str :=
  if above = [] then source else localPath source above

/-- The destination folder of the call on a folder. -/
def destinationAt (source : Str) (above : List Str) : Str :=
  if above = [] then baseName source else join "/" above

theorem join_concat {above : List Str} (h : above ≠ []) (name : Str) :
    join "/" (above ++ [name]) = join "/" above ++ "/" ++ name := by
  rw [join_append _ h (List.cons_ne_nil _ _), join_singleton]

theorem sourceAt_append (source : Str) (above : List Str) (name : Str) :
    sourceAt source above ++ "/" ++ name = localPath source (above ++ [name]) := by
  unfold sourceAt localPath
  split_ifs with h
  · rw [h, List.nil_append, join_singleton]
  · rw [join_concat h]
    simp only [List.append_assoc]

/-- The name of a file at the top is its path; below it the path is already the one from
the source folder. -/
theorem destination_file {source : Str} (above : List Str) {name : Str} (hname : IsName name) :
    (if decide (above ≠ []) = true then destinationAt source above ++ "/" ++ name
      else baseName (destinationAt source above ++ "/" ++ name)) = join "/" (above ++ [name]) := by
  unfold destinationAt
  by_cases h : above = []
  · rw [if_neg (by simp [h]), if_pos h, h, List.nil_append, join_singleton,
      baseName_append (slash_not_mem_baseName source) hname]
  · rw [if_pos (decide_eq_true h), if_neg h, join_concat h]

theorem destination_dir {source : Str} (hsource : baseName source ≠ []) (above : List Str)
    {name : Str} (hname : IsName name) :
    (if decide (above ≠ []) = true then .ok (destinationAt source above ++ "/" ++ name)
      else dropFolder (destinationAt source above ++ "/" ++ name)) =
      .ok (join "/" (above ++ [name])) := by
  unfold destinationAt
  by_cases h : above = []
  · rw [if_neg (by simp [h]), if_pos h, h, List.nil_append, join_singleton,
      dropFolder_append hsource (baseName_ne_dot source) (slash_not_mem_baseName source) hname]
  · rw [if_pos (decide_eq_true h), if_neg h, join_concat h]

theorem pop_singleton (last : Nat) : pop [last] = .ok (last, []) := rfl

theorem copyEntry_file {source : Str} (above : List Str) {name : Str} (hname : IsName name)
    (content : α) (dependsOn : Nat) (program : List (Resource κ)) :
    copyEntry c (sourceAt source above) (destinationAt source above) (above ≠ [])
        (.file name content) ([dependsOn], program) =
      .ok ([program.length],
        program ++ [declared c source ⟨above ++ [name], false⟩ program.length dependsOn]) := by
  rw [copyEntry, pop_singleton]
  simp only [sourceAt_append, destination_file above hname]
  rfl

/-- A call returns the resource that its loop leaves in the queue. -/
theorem callWith_eq_ok
    {loop : Str → List Nat × List (Resource κ) → Except Raised (List Nat × List (Resource κ))}
    {source : Str} {destination : Option Str} {dependsOn last : Nat}
    {program program' : List (Resource κ)}
    (h : loop (if orEmpty destination = [] then baseName source else orEmpty destination)
        ([dependsOn], program) = .ok ([last], program')) :
    callWith loop source destination dependsOn program = .ok (last, program') := by
  rw [callWith, h]
  rfl

/-- Below a folder the loop declares a chain and leaves its last resource in the queue. -/
def Declares (source : Str) (entries : List (Entry α)) (above : List Str) : Prop :=
  ∀ (dependsOn : Nat) (program : List (Resource κ)),
    copyEntries c (sourceAt source above) (destinationAt source above) (above ≠ []) entries
        ([dependsOn], program) =
      .ok ([lastOf program.length dependsOn (nodes above entries)],
        program ++ chain c source program.length dependsOn (nodes above entries))

theorem copyEntry_dir {source : Str} (hsource : baseName source ≠ []) (above : List Str)
    {name : Str} (hname : IsName name) {entries : List (Entry α)}
    (h : Declares c source entries (above ++ [name])) (dependsOn : Nat)
    (program : List (Resource κ)) :
    copyEntry c (sourceAt source above) (destinationAt source above) (above ≠ [])
        (.dir name entries) ([dependsOn], program) =
      .ok ([lastOf (program.length + 1) program.length (nodes (above ++ [name]) entries)],
        program ++ declared c source ⟨above ++ [name], true⟩ program.length dependsOn ::
          chain c source (program.length + 1) program.length
            (nodes (above ++ [name]) entries)) := by
  have hne : above ++ [name] ≠ [] := by simp
  have hjoin : join "/" (above ++ [name]) ≠ [] := by
    by_cases hnil : above = []
    · rw [hnil, List.nil_append, join_singleton]
      exact hname.1
    · rw [join_concat hnil]
      simp
  have hbelow := h program.length
    (program ++ [declared c source ⟨above ++ [name], true⟩ program.length dependsOn])
  rw [sourceAt, if_neg hne, destinationAt, if_neg hne, decide_eq_true hne] at hbelow
  rw [copyEntry]
  simp only [sourceAt_append, destination_dir hsource above hname, pop_singleton, Raised.ok_bind]
  have hdestination : (if orEmpty (some (join "/" (above ++ [name]))) = [] then
      baseName (localPath source (above ++ [name]))
      else orEmpty (some (join "/" (above ++ [name])))) = join "/" (above ++ [name]) := by
    rw [orEmpty, Option.getD_some, if_neg hjoin]
  rw [callWith_eq_ok (by rw [hdestination]; exact hbelow)]
  simp

/-- **Below a folder the resources are a chain**, one for each node. -/
theorem copyEntries_eq {source : Str} (hsource : baseName source ≠ []) {entries : List (Entry α)}
    (h : WellNamed entries) (above : List Str) : Declares c source entries above := by
  induction entries using entries_induction generalizing above with
  | nil =>
      intro dependsOn program
      rw [copyEntries, nodes, lastOf, chain, List.append_nil]
  | file name content es ih =>
      intro dependsOn program
      rw [copyEntries, copyEntry_file c above h.1, Raised.ok_bind, ih h.2.2 above,
        nodes_file_cons, lastOf, chain, List.length_append, List.length_singleton,
        List.append_assoc, List.singleton_append]
  | dir name entries es ihentries ihes =>
      intro dependsOn program
      have hbelow := ihentries h.1.2 (above ++ [name])
      rw [copyEntries, copyEntry_dir c hsource above h.1.1 hbelow, Raised.ok_bind, ihes h.2.2 above,
        nodes_dir_cons, lastOf, chain, lastOf_append, chain_append, List.length_append,
        List.length_cons, length_chain, List.append_assoc, List.cons_append,
        Nat.add_comm _ 1, ← Nat.add_assoc]

/-- A place in a list cuts it in two. -/
theorem split_at_place {β : Type} {l : List β} {i : Nat} {x : β} (h : l[i]? = some x) :
    ∃ before after, l = before ++ x :: after ∧ before.length = i := by
  obtain ⟨hi, hx⟩ := List.getElem?_eq_some_iff.mp h
  refine ⟨l.take i, l.drop (i + 1), ?_, List.length_take_of_le hi.le⟩
  rw [← hx, ← List.drop_eq_getElem_cons hi, List.take_append_drop]

/-- In the chain of a folder a resource depends on what makes the folders around its node. -/
theorem dependsOn_folders {folder : Folder α} {source : Str} {dependsOn i : Nat}
    {program : List (Resource κ)} {node : Node} (hnode : folder.nodes[i]? = some node)
    {path : List Str} (hne : path ≠ []) (hpath : path <+: node.path) (hself : path ≠ node.path) :
    ∃ j, folder.nodes[j]? = some ⟨path, true⟩ ∧
      DependsOn (program ++ chain c source program.length dependsOn folder.nodes)
        (program.length + i) (program.length + j) := by
  obtain ⟨before, after, hsplit, rfl⟩ := split_at_place hnode
  obtain ⟨earlier, between, rfl⟩ := List.append_of_mem
    (ancestor_mem_before hsplit List.nil_prefix hne hpath hself)
  have hnodes : folder.nodes = earlier ++ ⟨path, true⟩ :: (between ++ node :: after) := by
    rw [hsplit, List.append_assoc, List.cons_append]
  refine ⟨earlier.length, ?_, ?_⟩
  · rw [hnodes, List.getElem?_append_right (Nat.le_refl _), Nat.sub_self]
    rfl
  · have hbefore := chain_dependsOn_before c source program dependsOn earlier ⟨path, true⟩ between node after
    rw [hnodes, List.length_append, List.length_cons, Nat.add_comm between.length 1,
      ← Nat.add_assoc earlier.length]
    exact hbefore

/-- What a chain ends with depends on all of the chain and on what the chain depends on. -/
theorem lastOf_dependsOn {source : Str} {dependsOn place : Nat} {program : List (Resource κ)}
    {nodes : List Node}
    (hplace : place = dependsOn ∨
      program.length ≤ place ∧ place < program.length + nodes.length) :
    place = lastOf program.length dependsOn nodes ∨
      DependsOn (program ++ chain c source program.length dependsOn nodes)
        (lastOf program.length dependsOn nodes) place := by
  cases nodes using List.reverseRecOn with
  | nil =>
      rw [List.length_nil, Nat.add_zero] at hplace
      rcases hplace with hplace | ⟨hle, hlt⟩
      · exact Or.inl hplace
      · omega
  | append_singleton before node =>
      have hlast : lastOf program.length dependsOn (before ++ [node]) =
          program.length + before.length := by
        rw [lastOf_append]
        rfl
      rw [hlast]
      rcases hplace with rfl | ⟨hle, hlt⟩
      · exact Or.inr (chain_dependsOn_start c source program _ before node [])
      · rw [List.length_append, List.length_singleton] at hlt
        rcases Nat.lt_or_ge (place - program.length) before.length with hi | hi
        · obtain ⟨first, x, between, hx⟩ : ∃ first x between,
              before = first ++ x :: between ∧ first.length = place - program.length := by
            obtain ⟨first, between, hsplit⟩ := split_at_place (List.getElem?_eq_getElem hi)
            exact ⟨first, _, between, hsplit⟩
          obtain ⟨rfl, hfirst⟩ := hx
          have hbefore := chain_dependsOn_before c source program dependsOn first x between node []
          right
          have hplace : place = program.length + first.length := by omega
          rw [hplace, List.append_assoc, List.cons_append, List.length_append, List.length_cons,
            Nat.add_comm between.length 1, ← Nat.add_assoc first.length]
          exact hbefore
        · left
          omega

/--
**A copied folder is complete and ordered.**  The tasks are those of the nodes below the
folder, one for each: a file is copied to its path from the source folder, and a folder is made
at that path.  Each depends on the task passed in and on what makes the folders it is in, and
the returned task depends on all of them.
-/
theorem remoteCopyFolders_complete (folder : Folder α) {source : Str}
    (hsource : baseName source ≠ []) {destination : Option Str}
    (hdestination : orEmpty destination = []) (dependsOn : Nat) (program : List (Resource κ)) :
    ∃ last tasks,
      remoteCopyFolders c source destination false folder.entries dependsOn program =
          .ok (last, program ++ tasks) ∧
        tasks.map Resource.arguments = folder.nodes.map (arguments c source) ∧
        (folder.nodes.map Node.path).Nodup ∧
        (∀ i node, folder.nodes[i]? = some node →
          DependsOn (program ++ tasks) (program.length + i) dependsOn ∧
            ∀ path, path ≠ [] → path <+: node.path → path ≠ node.path →
              ∃ j, folder.nodes[j]? = some ⟨path, true⟩ ∧
                DependsOn (program ++ tasks) (program.length + i) (program.length + j)) ∧
        (folder.entries = [] → last = dependsOn) ∧
        ∀ place, place = dependsOn ∨
            program.length ≤ place ∧ place < program.length + tasks.length →
          place = last ∨ DependsOn (program ++ tasks) last place := by
  have hloop := copyEntries_eq c hsource folder.wellNamed [] dependsOn program
  rw [sourceAt, if_pos rfl, destinationAt, if_pos rfl] at hloop
  refine ⟨lastOf program.length dependsOn folder.nodes,
    chain c source program.length dependsOn folder.nodes,
    callWith_eq_ok (by rw [if_pos hdestination]; exact hloop), map_arguments_chain _ _ _ _ _,
    nodup_nodes folder.wellNamed [], ?_, ?_, ?_⟩
  · intro i node hnode
    refine ⟨?_, fun path hne hpath hself => dependsOn_folders c hnode hne hpath hself⟩
    obtain ⟨before, after, hsplit, rfl⟩ := split_at_place hnode
    rw [hsplit]
    exact chain_dependsOn_start c source program dependsOn before node after
  · intro hempty
    rw [Folder.nodes, hempty]
    rfl
  · intro place hplace
    rw [length_chain] at hplace
    exact lastOf_dependsOn c hplace

def scripts : Folder Unit where
  entries := [.dir ['l', 'i', 'b'] [.file ['a'] ()], .file ['r', 'u', 'n'] ()]
  wellNamed := by simp [WellNamed, Entry.WellNamed, IsName, Entry.name]

theorem remoteCopyFolders_scripts :
    ∃ last tasks,
      remoteCopyFolders (⟨"install", (), none, fun _ => "uuid"⟩ : Copy Unit) "build/ssi" none false
          scripts.entries 0 [] = .ok (last, [] ++ tasks) ∧
        tasks.map Resource.arguments =
          [Arguments.command "mkdir -p lib", Arguments.copyFile "build/ssi/lib/a" "lib/a",
            Arguments.copyFile "build/ssi/run" "run"] := by
  have hsource : baseName "build/ssi" ≠ [] := by decide
  have hdestination : orEmpty none = [] := rfl
  obtain ⟨last, tasks, hcall, harguments, -⟩ := remoteCopyFolders_complete
    (⟨"install", (), none, fun _ => "uuid"⟩ : Copy Unit) scripts hsource hdestination 0 []
  exact ⟨last, tasks, hcall, harguments.trans rfl⟩

end Copying

end RemoteCopy
end VirtualMachine
end SystemTests
