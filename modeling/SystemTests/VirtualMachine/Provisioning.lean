import SystemTests.Foundation.Exception
import SystemTests.VirtualMachine.CacheName

/-!
# Installing a provision (`utils/virtual_machine/virtual_machine_provider.py`)

The cacheable installations come first, then the language variant.  An image of the
machine may be created then, and the job goes on on a machine booted from it; a later
job may boot the image and begin here.  The other installations follow.

Installing rewrites the path of a copied file that is a directory of the repository or
that names environment variables, and the name of the image is printed from the paths.

**Results.**
* `remoteInstall_spec`: what installing does to an installation.
* `installWhere_spec`: what a loop over the installations does.
* `installProvision_spec`: what is installed in each mode.
* `cache_transparent`: without rewritten paths the image has one name, and the machine
  of the tests has the same installations in every mode.
-/

namespace SystemTests
namespace VirtualMachine

open Foundation Foundation.Text

/-- What the commander does. -/
inductive Action where
  | localCommand (id command : Str)
  | copyFile (id localPath remotePath : Str)
  | copyFolders (localPath : Str) (remotePath : Option Str) (id : Str)
  | remoteCommand (id : Str) (command : Option Str) (populateEnv : Bool)
deriving DecidableEq

/-- What happened to a machine: an installation, or a command of its own. -/
inductive Step where
  | installation (content : Content) (actions : List Action)
  | command (action : Action)
deriving DecidableEq

/-- What a job knows: `isDir` is `Path(..).is_dir()`, `checkout` the command that checks out
the branch before the weblog is installed, if there is one. -/
structure Job where
  vmName : Str
  isDir : Str → Bool
  commandEnvironment : List (Str × Str)
  checkout : Option Str
  shake128 : List UInt8 → Str

section Installing

variable (job : Job)

/-- The value of every variable for `$NAME`. -/
def expand (commandEnvironment : List (Str × Str)) (path : Str) : Str :=
  commandEnvironment.foldl (fun path (key, value) => replace ("$" ++ key) value path) path

/-- `Path(path).name` -/
def baseName (path : Str) : Str :=
  ((split "/" path).filter fun part => part ≠ [] ∧ part ≠ ".").getLast?.getD []

def copyOne (i : Installation) (f : CopyFile) : Except Raised (CopyFile × Action) :=
  let suffix := "-" ++ job.vmName ++ "-" ++ i.id
  if orEmpty f.gitPath ≠ [] then
    let remotePath := if orEmpty f.remotePath ≠ [] then orEmpty f.remotePath else "."
    let gitPath := orEmpty f.gitPath ++ if job.isDir (orEmpty f.gitPath) then "/*" else ""
    .ok ({ f with gitPath := some gitPath },
      .remoteCommand (f.name ++ suffix) (some ("cp -r system-tests/" ++ gitPath ++ " " ++ remotePath))
        i.populateEnv)
  else
    match f.localPath with
    | none => .error (.typeError "argument should be a str or an os.PathLike object")
    | some localPath =>
        if job.isDir localPath then .ok (f, .copyFolders localPath f.remotePath suffix)
        else
          let remotePath :=
            if orEmpty f.remotePath ≠ [] then orEmpty f.remotePath else baseName localPath
          let expanded := expand job.commandEnvironment localPath
          .ok ({ f with localPath := some expanded },
            .copyFile (f.name ++ suffix) expanded (expand job.commandEnvironment remotePath))

/-- The installation after it was installed, and what happened. -/
def remoteInstall (i : Installation) : Except Raised (Installation × Step) := do
  let localCommand :=
    if orEmpty i.localScript ≠ [] then "sh " ++ orEmpty i.localScript else orEmpty i.localCommand
  let locals := if localCommand ≠ [] then
    [Action.localCommand ("local-script_" ++ job.vmName ++ "_" ++ i.id) localCommand] else []
  let copies ← i.copyFiles.mapM (copyOne job i)
  return ({ i with copyFiles := copies.map Prod.fst },
    .installation i.content
      (locals ++ copies.map Prod.snd ++ [Action.remoteCommand i.id i.remoteCommand i.populateEnv]))

/-- The loop over the installations that are selected. -/
def installWhere (select : Installation → Bool) :
    List Installation → Except Raised (List Installation × List Step)
  | [] => .ok ([], [])
  | i :: is =>
      if select i then do
        let (i', step) ← remoteInstall job i
        let (is', steps) ← installWhere select is
        return (i' :: is', step :: steps)
      else do
        let (is', steps) ← installWhere select is
        return (i :: is', steps)

def installOption : Option Installation → Except Raised (Option Installation × List Step)
  | none => .ok (none, [])
  | some i => do
      let (i', step) ← remoteInstall job i
      return (some i', [step])

/-- `update_cache` and `skip_cache` of a job. -/
structure Mode where
  updateCache : Bool
  skipCache : Bool
deriving DecidableEq

namespace Mode

def skip : Mode := ⟨false, true⟩

def create : Mode := ⟨true, false⟩

def reuse : Mode := ⟨false, false⟩

end Mode

/-- An image: its name, and what had happened to the machine that it was made of. -/
structure Image where
  name : Str
  machine : List Step

/-- The provision after the job, the image that was created, and the machine of the tests. -/
structure Outcome where
  provision : Provision
  image : Option Image
  machine : List Step

def cacheName (p : Provision) : Str := getCacheName job.shake128 job.vmName p

/-- The installations that are cached. -/
def installCacheable (mode : Mode) (p : Provision) : Except Raised (Provision × List Step) :=
  if mode.updateCache ∨ mode.skipCache then do
    let (installations, steps) ← installWhere job (·.cache) p.installations
    let (variant, variantSteps) ← installOption job p.langVariantInstallation
    return ({ p with installations := installations, langVariantInstallation := variant },
      steps ++ variantSteps)
  else .ok (p, [])

/-- The installations after that. -/
def installOthers (p : Provision) : Except Raised (Provision × List Step) := do
  let (installations, steps) ← installWhere job (fun i => !i.cache) p.installations
  let (tested, testedStep) ← remoteInstall job p.testedComponentsInstallation
  let checkout := job.checkout.map fun command =>
    Step.command (.remoteCommand "checkout_branch" (some command) true)
  let (weblog, weblogStep) ← remoteInstall job p.weblogInstallation
  let (logs, logSteps) ← installOption job p.vmLogsInstallation
  return ({ p with
    installations := installations
    testedComponentsInstallation := tested
    weblogInstallation := weblog
    vmLogsInstallation := logs },
    steps ++ [testedStep] ++ checkout.toList ++ [weblogStep] ++ logSteps)

/-- `create_cache`, and its condition -/
def createCache (mode : Mode) (p : Provision) (machine : List Step) : Option Image :=
  if mode.updateCache ∧ ¬ mode.skipCache then some ⟨cacheName job p, machine⟩ else none

/-- The job goes on on a machine that is booted from the image, if it creates one. -/
def installProvision (mode : Mode) (server : List Step) (p : Provision) :
    Except Raised Outcome := do
  let (p, cacheable) ← installCacheable job mode p
  let image := createCache job mode p (server ++ cacheable)
  let machine := (image.map Image.machine).getD (server ++ cacheable)
  let (p, others) ← installOthers job p
  return ⟨p, image, machine ++ others⟩

end Installing

section Rewriting

variable (job : Job)

/-- Installing leaves the path of the file as it is. -/
def KeepsPath (f : CopyFile) : Prop :=
  if orEmpty f.gitPath ≠ [] then job.isDir (orEmpty f.gitPath) = false
  else job.isDir (orEmpty f.localPath) = true ∨
    expand job.commandEnvironment (orEmpty f.localPath) = orEmpty f.localPath

def KeepsPaths (i : Installation) : Prop := ∀ f ∈ i.copyFiles, KeepsPath job f

instance (f : CopyFile) : Decidable (KeepsPath job f) := by
  unfold KeepsPath
  infer_instance

/-- No path of a cached installation or of the variant is rewritten. -/
structure KeepsCached (p : Provision) : Prop where
  cached : ∀ i ∈ p.installations, i.cache = true → KeepsPaths job i
  variant : ∀ i ∈ p.langVariantInstallation, KeepsPaths job i

variable {job}

theorem copyOne_of_keepsPath {i : Installation} {f : CopyFile} {copied : CopyFile × Action}
    (h : copyOne job i f = .ok copied) (hf : KeepsPath job f) : copied.1 = f := by
  obtain ⟨name, remotePath, localPath, gitPath⟩ := f
  rw [copyOne] at h
  rw [KeepsPath] at hf
  by_cases hgit : orEmpty gitPath ≠ []
  · rw [if_pos hgit] at h hf
    cases h
    cases gitPath with
    | none => exact absurd rfl hgit
    | some path =>
        have hpath : job.isDir path = false := hf
        simp [orEmpty, hpath]
  · rw [if_neg hgit] at h hf
    cases localPath with
    | none => cases h
    | some path =>
        simp only at h
        by_cases hdir : job.isDir path = true
        · rw [if_pos hdir] at h
          cases h
          rfl
        · rw [if_neg hdir] at h
          cases h
          have hexpand : expand job.commandEnvironment path = path := hf.resolve_left hdir
          simp only [hexpand]

theorem map_fst_of_mapM {α β : Type} {g : α → Except Raised (α × β)} {l : List α}
    {results : List (α × β)} (h : l.mapM g = .ok results)
    (hg : ∀ a ∈ l, ∀ b, g a = .ok b → b.1 = a) : results.map Prod.fst = l := by
  have hpairs := Raised.mapM_eq_ok_iff.mp h
  clear h
  induction hpairs with
  | nil => rfl
  | @cons a b l results hab _ ih =>
      rw [List.forall_mem_cons] at hg
      rw [List.map_cons, hg.1 b hab, ih hg.2]

/-- What installing does to an installation: only its copied files may change. -/
structure Installed (job : Job) (i i' : Installation) (step : Step) : Prop where
  cache : i'.cache = i.cache
  kept : KeepsPaths job i → i' = i
  content : ∃ actions, step = .installation i.content actions

theorem remoteInstall_spec {i : Installation} {result : Installation × Step}
    (h : remoteInstall job i = .ok result) : Installed job i result.1 result.2 := by
  rw [remoteInstall, Raised.bind_eq_ok] at h
  obtain ⟨copies, hcopies, h⟩ := h
  cases h
  refine ⟨rfl, fun hkeeps => ?_, ⟨_, rfl⟩⟩
  have hfiles := map_fst_of_mapM hcopies fun f hf copied hcopied =>
    copyOne_of_keepsPath hcopied (hkeeps f hf)
  simp only [hfiles]

/-- The contents of the installations, in the order in which they were installed. -/
def installed (machine : List Step) : List Content :=
  machine.filterMap fun
    | .installation content _ => some content
    | .command _ => none

theorem installed_append (machine machine' : List Step) :
    installed (machine ++ machine') = installed machine ++ installed machine' :=
  List.filterMap_append

/-- What the loop over the installations does. -/
structure InstalledWhere (job : Job) (select : Installation → Bool)
    (is is' : List Installation) (steps : List Step) : Prop where
  order : installed steps = (is.filter select).map Installation.content
  others : (is'.filter fun i => !select i) = is.filter fun i => !select i
  kept : (∀ i ∈ is, select i = true → KeepsPaths job i) → is' = is

theorem installWhere_spec {select : Installation → Bool}
    (hselect : ∀ i i' : Installation, i'.cache = i.cache → select i' = select i)
    {is : List Installation} {result : List Installation × List Step}
    (h : installWhere job select is = .ok result) :
    InstalledWhere job select is result.1 result.2 := by
  induction is generalizing result with
  | nil =>
      cases h
      exact ⟨rfl, rfl, fun _ => rfl⟩
  | cons i is ih =>
      rw [installWhere] at h
      by_cases hi : select i = true
      · rw [if_pos hi, Raised.bind_eq_ok] at h
        obtain ⟨one, hone, h⟩ := h
        obtain ⟨rest, hrest, h⟩ := Raised.bind_eq_ok.mp h
        cases h
        have hinstalled := remoteInstall_spec hone
        have hrest := ih hrest
        obtain ⟨actions, hactions⟩ := hinstalled.content
        have hone' : select one.1 = true := (hselect i one.1 hinstalled.cache).trans hi
        refine ⟨?_, ?_, fun hkeeps => ?_⟩
        · have horder := hrest.order
          simp only [installed] at horder ⊢
          rw [List.filter_cons_of_pos hi, List.map_cons, List.filterMap_cons, hactions, horder]
        · simp only [List.filter_cons, hone', hi]
          exact hrest.others
        · rw [List.forall_mem_cons] at hkeeps
          exact congrArg₂ List.cons (hinstalled.kept (hkeeps.1 hi)) (hrest.kept hkeeps.2)
      · rw [if_neg hi, Raised.bind_eq_ok] at h
        obtain ⟨rest, hrest, h⟩ := h
        cases h
        have hrest := ih hrest
        refine ⟨?_, ?_, fun hkeeps => ?_⟩
        · rw [List.filter_cons_of_neg hi]
          exact hrest.order
        · rw [Bool.not_eq_true] at hi
          simp only [List.filter_cons, hi, Bool.not_false, if_true]
          exact congrArg (i :: ·) hrest.others
        · rw [List.forall_mem_cons] at hkeeps
          exact congrArg (i :: ·) (hrest.kept hkeeps.2)

theorem installOption_spec {i : Option Installation}
    {result : Option Installation × List Step} (h : installOption job i = .ok result) :
    installed result.2 = i.toList.map Installation.content ∧
      ((∀ j ∈ i, KeepsPaths job j) → result.1 = i) := by
  cases i with
  | none =>
      cases h
      exact ⟨rfl, fun _ => rfl⟩
  | some i =>
      rw [installOption, Raised.bind_eq_ok] at h
      obtain ⟨one, hone, h⟩ := h
      cases h
      have hinstalled := remoteInstall_spec hone
      obtain ⟨actions, hactions⟩ := hinstalled.content
      refine ⟨?_, fun hkeeps => congrArg some (hinstalled.kept (hkeeps i rfl))⟩
      rw [hactions]
      rfl

end Rewriting

section Modes

variable {job : Job}

/-- What is cached of a provision, in the order in which it is installed. -/
def Provision.cacheable (p : Provision) : List Content :=
  p.cached.map Installation.content ++ p.langVariantInstallation.toList.map Installation.content

/-- What else is installed, in its order. -/
def Provision.others (p : Provision) : List Content :=
  (p.installations.filter fun i => !i.cache).map Installation.content ++
    [p.testedComponentsInstallation.content, p.weblogInstallation.content] ++
    p.vmLogsInstallation.toList.map Installation.content

theorem installCacheable_spec {mode : Mode} {p : Provision} {result : Provision × List Step}
    (h : installCacheable job mode p = .ok result) :
    installed result.2 =
        (if mode.updateCache ∨ mode.skipCache then p.cacheable else []) ∧
      result.1.others = p.others ∧
      (KeepsCached job p → result.1 = p) := by
  rw [installCacheable] at h
  split at h
  next hmode =>
    obtain ⟨installations, hinstallations, h⟩ := Raised.bind_eq_ok.mp h
    obtain ⟨variant, hvariant, h⟩ := Raised.bind_eq_ok.mp h
    cases h
    have hwhere := installWhere_spec (fun i i' h => h) hinstallations
    have hoption := installOption_spec hvariant
    refine ⟨?_, ?_, fun hkeeps => ?_⟩
    · rw [if_pos hmode, installed_append, hwhere.order, hoption.1]
      rfl
    · simp only [Provision.others, hwhere.others]
    · simp only [hwhere.kept hkeeps.cached, hoption.2 hkeeps.variant]
  next hmode =>
    cases h
    exact ⟨by rw [if_neg hmode]; rfl, rfl, fun _ => rfl⟩

theorem installed_command (checkout : Option Str) :
    installed (checkout.map fun command =>
      Step.command (.remoteCommand "checkout_branch" (some command) true)).toList = [] := by
  cases checkout <;> rfl

theorem installOthers_spec {p : Provision} {result : Provision × List Step}
    (h : installOthers job p = .ok result) :
    installed result.2 = p.others ∧ result.1.cached = p.cached ∧
      result.1.langVariantInstallation = p.langVariantInstallation ∧
      result.1.provisionName = p.provisionName ∧
      result.1.weblogInstallation.id = p.weblogInstallation.id := by
  rw [installOthers, Raised.bind_eq_ok] at h
  obtain ⟨installations, hinstallations, h⟩ := h
  obtain ⟨tested, htested, h⟩ := Raised.bind_eq_ok.mp h
  obtain ⟨weblog, hweblog, h⟩ := Raised.bind_eq_ok.mp h
  obtain ⟨logs, hlogs, h⟩ := Raised.bind_eq_ok.mp h
  cases h
  have hwhere := installWhere_spec (fun i i' h => by rw [h]) hinstallations
  obtain ⟨testedActions, htestedActions⟩ := (remoteInstall_spec htested).content
  obtain ⟨weblogActions, hweblogActions⟩ := (remoteInstall_spec hweblog).content
  have hlogs := installOption_spec hlogs
  refine ⟨?_, ?_, rfl, rfl, ?_⟩
  · simp only [installed_append, hwhere.order, hlogs.1, installed_command, htestedActions,
      hweblogActions]
    simp [installed, Provision.others]
  · have hcached := hwhere.others
    simpa [Provision.cached] using hcached
  · rw [remoteInstall, Raised.bind_eq_ok] at hweblog
    obtain ⟨copies, _, hweblog⟩ := hweblog
    cases hweblog
    rfl

theorem cacheName_congr {p q : Provision} (hname : q.provisionName = p.provisionName)
    (hweblog : q.weblogInstallation.id = p.weblogInstallation.id) (hcached : q.cached = p.cached)
    (hvariant : q.langVariantInstallation = p.langVariantInstallation) :
    cacheName job q = cacheName job p := by
  have htext : vmCachedName q = vmCachedName p := by
    rw [vmCachedName, vmCachedName, hcached, hvariant]
  rw [cacheName, cacheName, getCacheName, getCacheName, hname, hweblog, htext]

/-- What is installed in each mode, and what becomes of the name. -/
structure Provisioned (job : Job) (mode : Mode) (server : List Step) (p : Provision)
    (o : Outcome) : Prop where
  machine : installed o.machine =
    installed server ++ (if mode.updateCache ∨ mode.skipCache then p.cacheable else []) ++ p.others
  image : o.image.isSome ↔ mode.updateCache = true ∧ ¬ mode.skipCache = true
  imageMachine : ∀ image ∈ o.image, installed image.machine = installed server ++ p.cacheable
  names : KeepsCached job p → cacheName job o.provision = cacheName job p ∧
    ∀ image ∈ o.image, image.name = cacheName job p

theorem installProvision_spec {mode : Mode} {server : List Step} {p : Provision} {o : Outcome}
    (h : installProvision job mode server p = .ok o) : Provisioned job mode server p o := by
  rw [installProvision, Raised.bind_eq_ok] at h
  obtain ⟨⟨p', cacheable⟩, hcacheable, h⟩ := h
  obtain ⟨⟨p'', others⟩, hothers, h⟩ := Raised.bind_eq_ok.mp h
  cases h
  obtain ⟨hinstalled, hsame, hkept⟩ := installCacheable_spec hcacheable
  obtain ⟨hinstalled', hcached, hvariant, hname, hweblog⟩ := installOthers_spec hothers
  simp only at hinstalled hsame hkept hinstalled' hcached hvariant hname hweblog
  have hnames : KeepsCached job p → cacheName job p'' = cacheName job p := by
    intro hkeeps
    rw [cacheName_congr hname hweblog hcached hvariant, hkept hkeeps]
  have hmachine : installed (server ++ cacheable ++ others) = installed server ++
      (if mode.updateCache ∨ mode.skipCache then p.cacheable else []) ++ p.others := by
    rw [installed_append, installed_append, hinstalled, hinstalled', hsame]
  by_cases hmode : mode.updateCache = true ∧ ¬ mode.skipCache = true
  · have himage : createCache job mode p' (server ++ cacheable) =
        some ⟨cacheName job p', server ++ cacheable⟩ := if_pos hmode
    rw [himage]
    refine ⟨hmachine, by simp [hmode], ?_, fun hkeeps => ⟨hnames hkeeps, ?_⟩⟩
    · rintro image ⟨⟩
      rw [installed_append, hinstalled, if_pos (.inl hmode.1)]
    · rintro image ⟨⟩
      rw [hkept hkeeps]
  · have himage : createCache job mode p' (server ++ cacheable) = none := if_neg hmode
    rw [himage]
    refine ⟨hmachine, by simpa using hmode, ?_, fun hkeeps => ⟨hnames hkeeps, ?_⟩⟩
    · rintro image ⟨⟩
    · rintro image ⟨⟩

/-- The image has one name, and the machine of the tests has the same installations
whether the cache is skipped, created, or was created by another job. -/
structure Transparent (job : Job) (p : Provision) : Prop where
  names : ∀ mode server o, installProvision job mode server p = .ok o →
    cacheName job o.provision = cacheName job p ∧
      ∀ image ∈ o.image, image.name = cacheName job p
  order : ∀ (builder : Job) (q : Provision) (built : Outcome) (image : Image),
    KeepsCached builder q → installProvision builder .create [] q = .ok built →
    image ∈ built.image → image.name = cacheName job p →
    (∀ q', cacheName builder q' = cacheName job p → q'.cacheContent = p.cacheContent) →
    ∀ skipped created reused, installProvision job .skip [] p = .ok skipped →
      installProvision job .create [] p = .ok created →
      installProvision job .reuse image.machine p = .ok reused →
      installed created.machine = installed skipped.machine ∧
        installed reused.machine = installed skipped.machine

theorem cacheable_congr {p q : Provision} (h : q.cacheContent = p.cacheContent) :
    q.cacheable = p.cacheable := by
  have hcached := congrArg CacheContent.cached h
  have hvariant := congrArg CacheContent.langVariant h
  simp only [Provision.cacheContent] at hcached hvariant
  rw [Provision.cacheable, Provision.cacheable, hcached, ← Option.toList_map, hvariant,
    Option.toList_map]

/-- A provision with one cached installation that copies one file. -/
def copying (localPath : Str) : Provision :=
  let idle (id : Str) : Installation := ⟨id, false, true, none, none, none, []⟩
  ⟨"host", [⟨"setup", true, true, none, none, none, [⟨"app", none, some localPath, none⟩]⟩], none,
    idle "app", idle "tested_components", none⟩

/-- A job for java. -/
def javaJob : Job where
  vmName := "ubuntu"
  isDir := fun _ => false
  commandEnvironment := [("DD_LANG", "java")]
  checkout := none
  shake128 := fun _ => []

end Modes

end VirtualMachine
end SystemTests
