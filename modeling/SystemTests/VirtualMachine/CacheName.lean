import SystemTests.Foundation.Md5

/-!
# Names of cached machine images (`utils/virtual_machine/virtual_machines.py`)

An image is named after its virtual machine, provision and weblog, and after the
digest of a text that says what the cacheable installations are.  The text is the
concatenation of the fields of the installations with underscores between them.

**Results.**
* `vmCachedName_eq_nil_iff`: which provisions have the empty text.
* `vmCachedName_moveVariant`: the variant may be taken for an installation.
* `vmCachedName_separates_iff`: which provisions have a text of their own.
-/

namespace SystemTests
namespace VirtualMachine

open Foundation Foundation.Text

structure CopyFile where
  name : Str
  remotePath : Option Str
  localPath : Option Str
  gitPath : Option Str
deriving DecidableEq

structure Installation where
  id : Str
  cache : Bool
  populateEnv : Bool
  localCommand : Option Str
  localScript : Option Str
  remoteCommand : Option Str
  copyFiles : List CopyFile
deriving DecidableEq

structure Provision where
  provisionName : Str
  installations : List Installation
  langVariantInstallation : Option Installation
  weblogInstallation : Installation
  testedComponentsInstallation : Installation
  vmLogsInstallation : Option Installation
deriving DecidableEq

section Texts

/-- `text or ""` -/
def orEmpty (text : Option Str) : Str := text.getD []

/-- `self.git_path if self.git_path else self.local_path or ""` -/
def CopyFile.sourcePath (f : CopyFile) : Str :=
  if orEmpty f.gitPath ≠ [] then orEmpty f.gitPath else orEmpty f.localPath

/-- `CopyFile.__repr__` -/
def CopyFile.text (f : CopyFile) : Str :=
  orEmpty f.remotePath ++ "_" ++ f.sourcePath ++ "_" ++ f.name

/-- `repr(self.copy_files)` -/
def textOfFiles (copyFiles : List CopyFile) : Str :=
  "[" ++ join ", " (copyFiles.map CopyFile.text) ++ "]"

/-- `Installation.__repr__` -/
def Installation.text (i : Installation) : Str :=
  i.id ++ "_" ++ orEmpty i.localCommand ++ "_" ++ orEmpty i.remoteCommand ++ "_" ++
    orEmpty i.localScript ++ "_" ++ textOfFiles i.copyFiles

def Provision.cached (p : Provision) : List Installation := p.installations.filter (·.cache)

/-- What is fed to `hashlib.md5`. -/
def vmCachedName (p : Provision) : Str :=
  (p.langVariantInstallation.toList ++ p.cached).flatMap fun i => i.text ++ "_"

/-- `hashlib.shake_128(..).hexdigest(4)` is a parameter. -/
def getCacheName (shake128 : List UInt8 → Str) (vmName : Str) (p : Provision) : Str :=
  let suffix := p.weblogInstallation.id ++ "_" ++ Md5.hexdigest (Utf8.encode (vmCachedName p))
  let fullCacheName := vmName ++ "_" ++ p.provisionName ++ "_" ++ suffix
  if 120 ≤ fullCacheName.length then
    vmName ++ "_" ++ shake128 (Utf8.encode p.provisionName) ++ "_" ++ suffix
  else fullCacheName

end Texts

section Contents

/-- A copied file as far as it is cached. -/
structure FileContent where
  remotePath : Str
  sourcePath : Str
  name : Str
deriving DecidableEq

/-- An installation as far as it is cached. -/
structure Content where
  id : Str
  localCommand : Str
  remoteCommand : Str
  localScript : Str
  copyFiles : List FileContent
deriving DecidableEq

def CopyFile.content (f : CopyFile) : FileContent :=
  ⟨orEmpty f.remotePath, f.sourcePath, f.name⟩

def Installation.content (i : Installation) : Content :=
  ⟨i.id, orEmpty i.localCommand, orEmpty i.remoteCommand, orEmpty i.localScript,
    i.copyFiles.map CopyFile.content⟩

/-- The installation of the language variant, and the others in their order. -/
structure CacheContent where
  langVariant : Option Content
  cached : List Content
deriving DecidableEq

def Provision.cacheContent (p : Provision) : CacheContent :=
  ⟨p.langVariantInstallation.map Installation.content, p.cached.map Installation.content⟩

/-- Provisions of one name, with one weblog. -/
structure SameNames (p q : Provision) : Prop where
  provisionName : q.provisionName = p.provisionName
  weblog : q.weblogInstallation.id = p.weblogInstallation.id

/-- No other content has the text of this provision. -/
def Separates (p : Provision) : Prop :=
  ∀ q, SameNames p q → q.cacheContent ≠ p.cacheContent → vmCachedName q ≠ vmCachedName p

theorem vmCachedName_eq_nil_iff (p : Provision) :
    vmCachedName p = [] ↔ p.langVariantInstallation = none ∧ p.cached = [] := by
  constructor
  · intro h
    have hnil : p.langVariantInstallation.toList ++ p.cached = [] := by
      cases hlist : p.langVariantInstallation.toList ++ p.cached with
      | nil => rfl
      | cons i is =>
          rw [vmCachedName, hlist, List.flatMap_cons] at h
          simp at h
    rw [List.append_eq_nil_iff] at hnil
    refine ⟨?_, hnil.2⟩
    cases hvariant : p.langVariantInstallation with
    | none => rfl
    | some i =>
        rw [hvariant] at hnil
        cases hnil.1
  · rintro ⟨hvariant, hcached⟩
    rw [vmCachedName, hvariant, hcached]
    rfl

/-- The variant becomes the first cached installation, or the first cached installation
becomes the variant. -/
def Provision.moveVariant (p : Provision) : Provision :=
  match p.langVariantInstallation, p.cached with
  | some variant, cached =>
      { p with langVariantInstallation := none, installations := { variant with cache := true } :: cached }
  | none, first :: cached =>
      { p with langVariantInstallation := some first, installations := cached }
  | none, [] => p

theorem cached_cached (p : Provision) : p.cached.filter (·.cache) = p.cached := by
  rw [Provision.cached, List.filter_filter]
  simp

theorem cached_of_cached_eq_cons {p : Provision} {first : Installation}
    {rest : List Installation} (h : p.cached = first :: rest) :
    rest.filter (·.cache) = rest := by
  have hall := cached_cached p
  rw [h] at hall
  refine List.filter_eq_self.mpr fun i hi => ?_
  exact List.filter_eq_self.mp hall i (List.mem_cons_of_mem _ hi)

/-- The text does not say which installation is the variant. -/
theorem vmCachedName_moveVariant (p : Provision) :
    vmCachedName p.moveVariant = vmCachedName p := by
  cases hvariant : p.langVariantInstallation with
  | some variant =>
      have hcached : p.moveVariant.cached = { variant with cache := true } :: p.cached := by
        simp only [Provision.moveVariant, hvariant]
        rw [Provision.cached, List.filter_cons_of_pos rfl, cached_cached]
      have hnone : p.moveVariant.langVariantInstallation = none := by
        simp only [Provision.moveVariant, hvariant]
      rw [vmCachedName, vmCachedName, hcached, hnone, hvariant]
      rfl
  | none =>
      cases hcached : p.cached with
      | nil => simp only [Provision.moveVariant, hvariant, hcached]
      | cons first rest =>
          have hmove : p.moveVariant =
              { p with langVariantInstallation := some first, installations := rest } := by
            simp only [Provision.moveVariant, hvariant, hcached]
          rw [hmove, vmCachedName, vmCachedName, hvariant, hcached, Provision.cached,
            cached_of_cached_eq_cons hcached]
          rfl

theorem cacheContent_moveVariant {p : Provision}
    (h : ¬ (p.langVariantInstallation = none ∧ p.cached = [])) :
    p.moveVariant.cacheContent ≠ p.cacheContent := by
  intro heq
  have hvariant := congrArg (fun c : CacheContent => c.langVariant.isSome) heq
  cases hp : p.langVariantInstallation with
  | some variant =>
      simp [Provision.cacheContent, Provision.moveVariant, hp] at hvariant
  | none =>
      cases hcached : p.cached with
      | nil => exact h ⟨hp, hcached⟩
      | cons first rest =>
          simp [Provision.cacheContent, Provision.moveVariant, hp, hcached] at hvariant

theorem sameNames_moveVariant (p : Provision) : SameNames p p.moveVariant := by
  unfold Provision.moveVariant
  split
  · exact ⟨rfl, rfl⟩
  · exact ⟨rfl, rfl⟩
  · exact ⟨rfl, rfl⟩

/-- The text of a provision is its own if and only if nothing of it is cached. -/
theorem vmCachedName_separates_iff (p : Provision) :
    Separates p ↔ p.langVariantInstallation = none ∧ p.cached = [] := by
  constructor
  · intro hsep
    by_contra h
    exact hsep p.moveVariant (sameNames_moveVariant p) (cacheContent_moveVariant h)
      (vmCachedName_moveVariant p)
  · rintro ⟨hvariant, hcached⟩ q _ hcontent htext
    rw [(vmCachedName_eq_nil_iff p).mpr ⟨hvariant, hcached⟩, vmCachedName_eq_nil_iff] at htext
    apply hcontent
    rw [Provision.cacheContent, Provision.cacheContent, htext.1, htext.2, hvariant, hcached]

/-- A step of a provision with a remote command and a local script. -/
def step (remoteCommand localScript : Str) : Installation :=
  ⟨"setup", true, true, none, some localScript, some remoteCommand, []⟩

def provisionOf (installations : List Installation) : Provision :=
  let idle (id : Str) : Installation := ⟨id, false, true, none, none, none, []⟩
  ⟨"host", installations, none, idle "app", idle "tested_components", none⟩

/-- The end of a remote command may be taken for the beginning of a local script. -/
theorem vmCachedName_shifted :
    SameNames (provisionOf [step "make" "install_all"]) (provisionOf [step "make_install" "all"]) ∧
    (provisionOf [step "make_install" "all"]).cacheContent ≠
      (provisionOf [step "make" "install_all"]).cacheContent ∧
    vmCachedName (provisionOf [step "make_install" "all"]) =
      vmCachedName (provisionOf [step "make" "install_all"]) :=
  ⟨⟨rfl, rfl⟩, by decide, by decide⟩

end Contents

end VirtualMachine
end SystemTests
