import Mathlib.Data.List.DropRight
import SystemTests.Github.Nightly

/-!
# The runs of the nightly activation

A run is a list of commands with their answers.  `Allowed` says what must have been asked and
answered before each command, and `Activated` what a library's night leaves.  Both only read
the run, and the runner that answers is arbitrary.

What a push rests on was asked since the push before it.

**Results.**
* `nightly_respects`: every command of every run was allowed.
* `nightly_complete`: a run ends, and what the exit code 0 says about every branch.
-/

namespace SystemTests
namespace Nightly

open Foundation Foundation.Text Foundation.Program

section Evidence

def Command.isPush : Command → Bool
  | .push .. => true
  | _ => false

def notPush (entry : Command × Answer) : Bool := !entry.1.isPush

/-- What happened since the last push -/
def recent (log : Log) : Log := log.rtakeWhile notPush

/-- What happened up to the last push -/
def upToPush (log : Log) : Log := log.rdropWhile notPush

/-- The command ran, with this result and the exit code 0. -/
def Succeeded (log : Log) (c : Command) (result : CommandResult) : Prop :=
  (c, .ok result) ∈ log ∧ result.returncode = 0

def Listed (log : Log) (library branch : Str) : Prop :=
  ∃ result, Succeeded log (.listBranches library) result ∧ branch ∈ words result.stdout

/-- The pull request that was found for a branch -/
def Found (log : Log) (branch : Str) (prNumber : Option Str) : Prop :=
  ∃ result, Succeeded log (.listPrs branch) result ∧ prNumberOf result = prNumber

def Counted (log : Log) (c : Command) (count : Int) : Prop :=
  ∃ result, Succeeded log c result ∧ countOf result = some count

def Observed (log : Log) (repository prNumber : Str) (activity : PullRequestActivity) : Prop :=
  Counted log (.issueComments repository prNumber) activity.comments ∧
    Counted log (.pullReviews repository prNumber) activity.reviews ∧
      Counted log (.pullCommits repository prNumber) activity.commits

/-- A branch has no pull request, or one that no human touched. -/
def Untouched (log : Log) (repository branch : Str) : Prop :=
  Found log branch none ∨
    ∃ prNumber activity, Found log branch (some prNumber) ∧
      Observed log repository prNumber activity ∧ activity.hasHumanActivity = false

/-- The last push succeeded and was one of the branch. -/
def JustPushed (options : NightlyOptions) (log : Log) (branch : Str) : Prop :=
  ∃ mainSha force commits result,
    (upToPush log).getLast? = some (.push options branch mainSha force commits, .ok result) ∧
      result.returncode = 0

variable {log log' : Log} {c : Command} {result : CommandResult}

theorem recent_concat (h : c.isPush = false) (a : Answer) :
    recent (log ++ [(c, a)]) = recent log ++ [(c, a)] :=
  List.rtakeWhile_concat_pos _ _ _ (by simp [notPush, h])

theorem mem_recent_concat (h : c.isPush = false) (a : Answer) :
    (c, a) ∈ recent (log ++ [(c, a)]) := by
  rw [recent_concat h]
  exact List.mem_append_right _ (List.mem_singleton.mpr rfl)

theorem upToPush_concat (h : c.isPush = false) (a : Answer) :
    upToPush (log ++ [(c, a)]) = upToPush log :=
  List.rdropWhile_concat_pos _ _ _ (by simp [notPush, h])

theorem upToPush_concat_push (h : c.isPush = true) (a : Answer) :
    upToPush (log ++ [(c, a)]) = log ++ [(c, a)] :=
  List.rdropWhile_concat_neg _ _ _ (by simp [notPush, h])

theorem recent_subset (log : Log) : recent log ⊆ log :=
  (List.rtakeWhile_suffix _ log).subset

/-- What a part of the run that has no push keeps -/
structure Grown (log log' : Log) : Prop where
  all : log ⊆ log'
  recent : recent log ⊆ recent log'
  upToPush : upToPush log' = upToPush log

theorem Grown.refl (log : Log) : Grown log log :=
  ⟨List.Subset.refl log, List.Subset.refl _, rfl⟩

theorem Grown.concat (h : Grown log log') (hc : c.isPush = false) (a : Answer) :
    Grown log (log' ++ [(c, a)]) where
  all := List.subset_append_of_subset_left _ h.all
  recent := by
    rw [recent_concat hc]
    exact List.subset_append_of_subset_left _ h.recent
  upToPush := (upToPush_concat hc a).trans h.upToPush

theorem Succeeded.mono (h : Succeeded log c result) (hsub : log ⊆ log') :
    Succeeded log' c result := ⟨hsub h.1, h.2⟩

theorem Succeeded.last (h : result.returncode = 0) :
    Succeeded (log ++ [(c, Except.ok result)]) c result :=
  ⟨List.mem_append_right _ (List.mem_singleton.mpr rfl), h⟩

/-- A command that is no push is recent when it returns. -/
theorem Succeeded.recent (hc : c.isPush = false) (h : result.returncode = 0) :
    Succeeded (recent (log ++ [(c, Except.ok result)])) c result :=
  ⟨mem_recent_concat hc _, h⟩

theorem Listed.mono {library branch : Str} (h : Listed log library branch) (hsub : log ⊆ log') :
    Listed log' library branch :=
  h.imp fun _ h => ⟨h.1.mono hsub, h.2⟩

theorem Found.mono {branch : Str} {prNumber : Option Str} (h : Found log branch prNumber)
    (hsub : log ⊆ log') : Found log' branch prNumber :=
  h.imp fun _ h => ⟨h.1.mono hsub, h.2⟩

theorem Counted.mono {count : Int} (h : Counted log c count) (hsub : log ⊆ log') :
    Counted log' c count :=
  h.imp fun _ h => ⟨h.1.mono hsub, h.2⟩

theorem Observed.mono {repository prNumber : Str} {activity : PullRequestActivity}
    (h : Observed log repository prNumber activity) (hsub : log ⊆ log') :
    Observed log' repository prNumber activity :=
  ⟨h.1.mono hsub, h.2.1.mono hsub, h.2.2.mono hsub⟩

theorem Untouched.mono {repository branch : Str} (h : Untouched log repository branch)
    (hsub : log ⊆ log') : Untouched log' repository branch := by
  rcases h with hnone | ⟨prNumber, activity, hfound, hseen, hhuman⟩
  · exact .inl (hnone.mono hsub)
  · exact .inr ⟨prNumber, activity, hfound.mono hsub, hseen.mono hsub, hhuman⟩

variable {options : NightlyOptions} {branch : Str}

theorem JustPushed.grown (h : JustPushed options log branch) (hgrown : Grown log log') :
    JustPushed options log' branch := by
  unfold JustPushed
  rw [hgrown.upToPush]
  exact h

theorem JustPushed.exists_push (h : JustPushed options log branch) :
    ∃ mainSha force commits result,
      Succeeded log (.push options branch mainSha force commits) result := by
  obtain ⟨mainSha, force, commits, result, hlast, hcode⟩ := h
  have hsplit : upToPush log ++ recent log = log := List.rdropWhile_append_rtakeWhile
  have hsub : upToPush log ⊆ upToPush log ++ recent log := List.subset_append_left _ _
  rw [hsplit] at hsub
  exact ⟨mainSha, force, commits, result, hsub (List.mem_of_getLast? hlast), hcode⟩

end Evidence

section Rules

variable (lower : Str → Str) (str : Json → Str) (options : NightlyOptions)
  (libraries : List ActivationConfig)

/-- A pull request that may be merged: its branch was just pushed, and its owner did not opt
out. -/
def MayMerge (log : Log) (prNumber : Str) : Prop :=
  ∃ library branch owner, Listed log library branch ∧ ownerFromBranch branch = .ok owner ∧
    shouldEnableAutoMerge owner library options.autoMergeOptOuts = true ∧
      JustPushed options log branch ∧ Found log branch (some prNumber)

/-- A pull request whose auto-merge was seen to be off -/
def Mergeable (log : Log) (prNumber pullRequestId : Str) : Prop :=
  MayMerge options log prNumber ∧ ∃ view, Succeeded (recent log) (.viewPr prNumber) view ∧
    autoMergeState str view.stdout = .ok (some pullRequestId)

/-- What must have happened before a command -/
def Allowed (log : Log) : Command → Prop
  | .activate config => config ∈ libraries
  | .listBranches library => ∃ config ∈ libraries, config.library = library
  | .push options' branch mainSha force commits =>
      options' = options ∧ (∃ library, Listed log library branch) ∧
        Untouched (recent log) options.github.repository branch ∧
          (∃ main logged, Succeeded (recent log) .revParseMain main ∧
            mainSha = strip main.stdout ∧ Succeeded (recent log) (.logCommits mainSha) logged ∧
              commits = logged.stdout) ∧
            ∃ remote, (.lsRemote branch, .ok remote) ∈ recent log ∧
              force = decide (remote.returncode = 0)
  | .createPr github branch owner library =>
      github = options.github ∧ ownerFromBranch branch = .ok owner ∧
        Listed log library branch ∧ Found log branch none ∧ JustPushed options log branch
  | .readyPr prNumber =>
      ∃ branch, JustPushed options log branch ∧ Found (recent log) branch (some prNumber)
  | .resolveThread threadId =>
      ∃ owner name prNumber threads,
        Succeeded (recent log) (.reviewThreads owner name prNumber) threads ∧
          threadId ∈ words threads.stdout
  | .enableAutoMerge pullRequestId =>
      ∃ prNumber, Mergeable str options log prNumber pullRequestId
  | .mergePr prNumber =>
      ∃ pullRequestId enable, Mergeable str options log prNumber pullRequestId ∧
        (.enableAutoMerge pullRequestId, .ok enable) ∈ recent log ∧ enable.returncode ≠ 0 ∧
          saysCleanStatus lower enable = true
  | _ => True

/-- The commands of the parts that have no push -/
def Calm (log : Log) (c : Command) : Prop :=
  Allowed lower str options libraries log c ∧ c.isPush = false

/-- Auto-merge was on, was enabled, or the pull request was merged. -/
def AutoMergeSet (log : Log) (prNumber : Str) : Prop :=
  (∃ view, Succeeded log (.viewPr prNumber) view ∧
    autoMergeState str view.stdout = .ok none) ∨
  (∃ view pullRequestId enable, Succeeded log (.viewPr prNumber) view ∧
    autoMergeState str view.stdout = .ok (some pullRequestId) ∧
      Succeeded log (.enableAutoMerge pullRequestId) enable) ∨
  ∃ merged, Succeeded log (.mergePr prNumber) merged

/-- A branch has a pull request that a human touched, or it was pushed and its pull request is
on its way. -/
def Handled (log : Log) (library branch : Str) : Prop :=
  ∃ owner prNumber, ownerFromBranch branch = .ok owner ∧ Found log branch (some prNumber) ∧
    ((∃ activity, Observed log options.github.repository prNumber activity ∧
      activity.hasHumanActivity = true) ∨
    (∃ mainSha force commits pushed,
      Succeeded log (.push options branch mainSha force commits) pushed) ∧
      (shouldEnableAutoMerge owner library options.autoMergeOptOuts = true →
        AutoMergeSet str log prNumber))

/-- A library was activated, and each branch that this left was handled. -/
def Activated (log : Log) (config : ActivationConfig) : Prop :=
  ∃ activation listed, Succeeded log (.activate config) activation ∧
    Succeeded log (.listBranches config.library) listed ∧
      ∀ branch ∈ words listed.stdout, Handled str options log config.library branch

variable {lower str options libraries} {log log' : Log} {c : Command} {prNumber : Str}

theorem AutoMergeSet.mono (h : AutoMergeSet str log prNumber) (hsub : log ⊆ log') :
    AutoMergeSet str log' prNumber := by
  rcases h with ⟨view, hview, hstate⟩ | ⟨view, id, enable, hview, hstate, henable⟩ | ⟨merged, h⟩
  · exact .inl ⟨view, hview.mono hsub, hstate⟩
  · exact .inr (.inl ⟨view, id, enable, hview.mono hsub, hstate, henable.mono hsub⟩)
  · exact .inr (.inr ⟨merged, h.mono hsub⟩)

theorem Handled.mono {library branch : Str} (h : Handled str options log library branch)
    (hsub : log ⊆ log') : Handled str options log' library branch := by
  obtain ⟨owner, prNumber, howner, hfound, hdone⟩ := h
  refine ⟨owner, prNumber, howner, hfound.mono hsub, ?_⟩
  rcases hdone with ⟨activity, hseen, hhuman⟩ | ⟨⟨mainSha, force, commits, pushed, hpush⟩, hset⟩
  · exact .inl ⟨activity, hseen.mono hsub, hhuman⟩
  · exact .inr ⟨⟨mainSha, force, commits, pushed, hpush.mono hsub⟩,
      fun hshould => (hset hshould).mono hsub⟩

theorem Activated.mono {config : ActivationConfig} (h : Activated str options log config)
    (hsub : log ⊆ log') : Activated str options log' config := by
  obtain ⟨activation, listed, hactivation, hlisted, hall⟩ := h
  exact ⟨activation, listed, hactivation.mono hsub, hlisted.mono hsub,
    fun branch hbranch => (hall branch hbranch).mono hsub⟩

theorem MayMerge.grown (h : MayMerge options log prNumber) (hgrown : Grown log log') :
    MayMerge options log' prNumber := by
  obtain ⟨library, branch, owner, hlisted, howner, hshould, hpushed, hfound⟩ := h
  exact ⟨library, branch, owner, hlisted.mono hgrown.all, howner, hshould,
    hpushed.grown hgrown, hfound.mono hgrown.all⟩

theorem Mergeable.grown {pullRequestId : Str}
    (h : Mergeable str options log prNumber pullRequestId) (hgrown : Grown log log') :
    Mergeable str options log' prNumber pullRequestId := by
  obtain ⟨hmay, view, hview, hstate⟩ := h
  exact ⟨hmay.grown hgrown, view, hview.mono hgrown.recent, hstate⟩

/-- A branch that may be pushed -/
def Ready (options : NightlyOptions) (log : Log) (branch : Str) : Prop :=
  (∃ library, Listed log library branch) ∧
    Untouched (recent log) options.github.repository branch

theorem Ready.grown {branch : Str} (h : Ready options log branch) (hgrown : Grown log log') :
    Ready options log' branch :=
  ⟨h.1.imp fun _ hlisted => hlisted.mono hgrown.all, h.2.mono hgrown.recent⟩

section Commands

variable {allowed : Log → Command → Prop} {α : Type} {p : Script α} {Q : Log → α → Prop}

theorem keeps_runCommand {Q : Log → CommandResult → Prop} (hc : allowed log c)
    (h : ∀ result, Q (log ++ [(c, Except.ok result)]) result) :
    Keeps allowed (runCommand c) log Q := by
  refine ⟨hc, fun answer => ?_⟩
  cases answer with
  | error e => trivial
  | ok result => exact h result

theorem keeps_runChecked {Q : Log → CommandResult → Prop} (hc : allowed log c)
    (h : ∀ result, result.returncode = 0 → Q (log ++ [(c, Except.ok result)]) result) :
    Keeps allowed (runChecked c) log Q := by
  refine (keeps_runCommand (Q := fun log' result => log' = log ++ [(c, Except.ok result)]) hc
    fun _ => rfl).bind ?_
  rintro _ result rfl
  by_cases hcode : result.returncode ≠ 0
  · rw [if_pos hcode]
    trivial
  · rw [if_neg hcode]
    exact h result (not_not.mp hcode)

/-- A part without a push, seen from outside -/
theorem keeps_grown (h : Keeps (Calm lower str options libraries) p log Q) :
    Keeps (Calm lower str options libraries) p log fun log' b => Grown log log' ∧ Q log' b :=
  h.invariant (I := Grown log) (fun _ _ a hgrown hc => hgrown.concat hc.2 a) (Grown.refl log)

theorem keeps_calm (h : Keeps (Calm lower str options libraries) p log Q) :
    Keeps (Allowed lower str options libraries) p log fun log' b =>
      Grown log log' ∧ Q log' b :=
  (keeps_grown h).weaken fun _ _ hc => hc.1

/-- A command that is checked and is no push -/
theorem keeps_calmChecked {Q : Log → CommandResult → Prop}
    (hc : Calm lower str options libraries log c)
    (h : ∀ log' result, Grown log log' → Succeeded (recent log') c result → Q log' result) :
    Keeps (Calm lower str options libraries) (runChecked c) log Q :=
  keeps_runChecked hc fun result hcode =>
    h _ result ((Grown.refl log).concat hc.2 _) (Succeeded.recent hc.2 hcode)

theorem keeps_allowedChecked {Q : Log → CommandResult → Prop}
    (hc : Calm lower str options libraries log c)
    (h : ∀ log' result, Grown log log' → Succeeded (recent log') c result → Q log' result) :
    Keeps (Allowed lower str options libraries) (runChecked c) log Q :=
  (keeps_calmChecked hc h).weaken fun _ _ hc => hc.1

theorem keeps_findPrNumber (branch : Str) :
    Keeps (Calm lower str options libraries) (findPrNumber branch) log
      fun log' prNumber => Found (recent log') branch prNumber := by
  refine (keeps_calmChecked (Q := fun log' result =>
    Succeeded (recent log') (.listPrs branch) result) (by exact ⟨trivial, rfl⟩) fun _ _ _ h => h).bind ?_
  intro log' result h
  exact Keeps.pure ⟨result, h, rfl⟩

theorem keeps_apiCount (hc : Calm lower str options libraries log c) :
    Keeps (Calm lower str options libraries) (apiCount c) log
      fun log' count => Counted (recent log') c count := by
  refine (keeps_calmChecked (Q := fun log' result => Succeeded (recent log') c result) hc
    fun _ _ _ h => h).bind ?_
  intro log' result h
  refine Keeps.done fun count hcount => ⟨result, h, ?_⟩
  cases hvalue : countOf result with
  | none =>
      rw [hvalue] at hcount
      cases hcount
  | some n =>
      rw [hvalue] at hcount
      exact congrArg some (Except.ok.inj hcount)

theorem keeps_getPrActivity (repository prNumber : Str) :
    Keeps (Calm lower str options libraries) (getPrActivity repository prNumber) log
      fun log' activity => Observed (recent log') repository prNumber activity := by
  refine (keeps_apiCount (by exact ⟨trivial, rfl⟩)).bind ?_
  intro log₁ comments hcomments
  refine (keeps_grown (keeps_apiCount (by exact ⟨trivial, rfl⟩))).bind ?_
  rintro log₂ reviews ⟨hgrown₂, hreviews⟩
  refine (keeps_grown (keeps_apiCount (by exact ⟨trivial, rfl⟩))).bind ?_
  rintro log₃ commits ⟨hgrown₃, hcommits⟩
  exact Keeps.pure ⟨(hcomments.mono hgrown₂.recent).mono hgrown₃.recent,
    hreviews.mono hgrown₃.recent, hcommits⟩

theorem keeps_resolveBotReviewThreads (repository prNumber : Str) :
    Keeps (Calm lower str options libraries) (resolveBotReviewThreads repository prNumber) log
      fun _ _ => True := by
  refine (Keeps.done (Q := fun _ _ => True) fun _ _ => trivial).bind ?_
  rintro log' ⟨owner, name⟩ -
  refine (keeps_calmChecked (Q := fun log' result =>
    Succeeded (recent log') (.reviewThreads owner name prNumber) result) (by exact ⟨trivial, rfl⟩)
    fun _ _ _ h => h).bind ?_
  intro log' threads hthreads
  -- Each thread is one that was listed, since resolving the others pushes nothing.
  refine (Keeps.forEach (J := fun _ log _ =>
    Succeeded (recent log) (.reviewThreads owner name prNumber) threads) ?_ hthreads).imp
    fun _ _ _ => trivial
  intro passed threadId rest log' u hsplit hthreads
  have hmem : threadId ∈ words threads.stdout := by
    rw [hsplit]
    exact List.mem_append_right _ List.mem_cons_self
  refine (keeps_calmChecked (Q := fun log' _ =>
    Succeeded (recent log') (.reviewThreads owner name prNumber) threads)
    (by exact ⟨⟨owner, name, prNumber, threads, hthreads, hmem⟩, rfl⟩)
    fun _ _ hgrown _ => hthreads.mono hgrown.recent).bind ?_
  intro log' _ hthreads
  exact Keeps.pure hthreads

theorem keeps_enableAutoMerge (hmay : MayMerge options log prNumber) :
    Keeps (Calm lower str options libraries) (enableAutoMerge lower str prNumber) log
      fun log' _ => AutoMergeSet str log' prNumber := by
  refine (keeps_calmChecked (Q := fun log' view => MayMerge options log' prNumber ∧
    Succeeded (recent log') (.viewPr prNumber) view) (by exact ⟨trivial, rfl⟩)
    fun _ _ hgrown h => ⟨hmay.grown hgrown, h⟩).bind ?_
  rintro log' view ⟨hmay, hview⟩
  refine (Keeps.done (Q := fun log₁ state => log' = log₁ ∧
    autoMergeState str view.stdout = .ok state) fun _ h => ⟨rfl, h⟩).bind ?_
  rintro _ state ⟨rfl, hstate⟩
  cases state with
  | none => exact Keeps.pure (.inl ⟨view, hview.mono (recent_subset _), hstate⟩)
  | some id =>
      have hmergeable : Mergeable str options log' prNumber id := ⟨hmay, view, hview, hstate⟩
      refine (keeps_runCommand
        (Q := fun log₁ enable =>
          log₁ = log' ++ [(Command.enableAutoMerge id, Except.ok enable)])
        (by exact ⟨⟨prNumber, hmergeable⟩, rfl⟩) fun _ => rfl).bind ?_
      rintro _ enable rfl
      have hgrown : Grown log' (log' ++ [(Command.enableAutoMerge id, Except.ok enable)]) :=
        (Grown.refl log').concat rfl _
      have henable : (.enableAutoMerge id, .ok enable) ∈
          recent (log' ++ [(Command.enableAutoMerge id, Except.ok enable)]) :=
        mem_recent_concat rfl _
      by_cases hcode : enable.returncode = 0
      · rw [if_pos hcode]
        exact Keeps.pure (.inr (.inl ⟨view, id, enable,
          (hview.mono hgrown.recent).mono (recent_subset _), hstate, Succeeded.last hcode⟩))
      · rw [if_neg hcode]
        by_cases hclean : saysCleanStatus lower enable = true
        · rw [if_pos hclean]
          refine (keeps_calmChecked (Q := fun log₁ _ => AutoMergeSet str log₁ prNumber)
            (by exact ⟨⟨id, enable, hmergeable.grown hgrown, henable, hcode, hclean⟩, rfl⟩)
            fun _ merged _ h => .inr (.inr ⟨merged, h.mono (recent_subset _)⟩)).bind ?_
          exact fun _ _ hset => Keeps.pure hset
        · rw [if_neg hclean]
          exact Keeps.raise _

theorem keeps_finishBranch {owner library : Str}
    (hmay : shouldEnableAutoMerge owner library options.autoMergeOptOuts = true →
      MayMerge options log prNumber) :
    Keeps (Calm lower str options libraries)
      (finishBranch lower str owner library prNumber options) log fun log' _ =>
        shouldEnableAutoMerge owner library options.autoMergeOptOuts = true →
          AutoMergeSet str log' prNumber := by
  unfold finishBranch
  by_cases hshould : shouldEnableAutoMerge owner library options.autoMergeOptOuts = true
  · rw [if_pos hshould]
    exact (keeps_enableAutoMerge (hmay hshould)).imp fun _ _ hset _ => hset
  · rw [if_neg hshould]
    exact Keeps.pure fun h => absurd h hshould

theorem keeps_openPullRequest {branch owner library : Str}
    (howner : ownerFromBranch branch = .ok owner) (hlisted : Listed log library branch)
    (hnone : Found log branch none) (hpushed : JustPushed options log branch) :
    Keeps (Calm lower str options libraries) (openPullRequest branch owner library options) log
      fun log' prNumber => Found log' branch (some prNumber) := by
  refine (keeps_calmChecked (Q := fun log' _ => JustPushed options log' branch)
    (by exact ⟨⟨rfl, howner, hlisted, hnone, hpushed⟩, rfl⟩)
    fun _ _ hgrown _ => hpushed.grown hgrown).bind ?_
  intro log₁ _ hpushed
  refine (keeps_grown (keeps_findPrNumber branch)).bind ?_
  rintro log₂ (_ | prNumber) ⟨hgrown, hfound⟩
  · exact Keeps.raise _
  · refine (keeps_calmChecked (Q := fun log' _ => Found log' branch (some prNumber))
      (by exact ⟨⟨branch, hpushed.grown hgrown, hfound⟩, rfl⟩)
      fun _ _ hgrown _ => (hfound.mono (recent_subset _)).mono hgrown.all).bind ?_
    intro log₃ _ hfound
    refine (keeps_grown (keeps_resolveBotReviewThreads _ prNumber)).bind ?_
    rintro log₄ _ ⟨hgrown, -⟩
    exact Keeps.pure (hfound.mono hgrown.all)

theorem keeps_pushSignedBranch {branch : Str} (hready : Ready options log branch) :
    Keeps (Allowed lower str options libraries) (pushSignedBranch branch options) log
      fun log' _ => JustPushed options log' branch := by
  refine (keeps_allowedChecked (Q := fun log' _ => Ready options log' branch)
    (by exact ⟨trivial, rfl⟩) fun _ _ hgrown _ => hready.grown hgrown).bind ?_
  intro log₁ _ hready
  refine (keeps_allowedChecked (Q := fun log' main => Ready options log' branch ∧
    Succeeded (recent log') .revParseMain main) (by exact ⟨trivial, rfl⟩)
    fun _ _ hgrown h => ⟨hready.grown hgrown, h⟩).bind ?_
  rintro log₂ main ⟨hready, hmain⟩
  refine (keeps_allowedChecked (Q := fun log' logged => Ready options log' branch ∧
    Succeeded (recent log') .revParseMain main ∧
      Succeeded (recent log') (.logCommits (strip main.stdout)) logged)
    (by exact ⟨trivial, rfl⟩)
    fun _ _ hgrown h => ⟨hready.grown hgrown, hmain.mono hgrown.recent, h⟩).bind ?_
  rintro log₃ logged ⟨hready, hmain, hlogged⟩
  refine (keeps_runCommand
    (Q := fun log' remote => log' = log₃ ++ [(Command.lsRemote branch, Except.ok remote)])
    (by exact trivial) fun _ => rfl).bind ?_
  rintro _ remote rfl
  have hgrown : Grown log₃ (log₃ ++ [(Command.lsRemote branch, Except.ok remote)]) :=
    (Grown.refl log₃).concat rfl _
  have hremote : (.lsRemote branch, .ok remote) ∈
      recent (log₃ ++ [(Command.lsRemote branch, Except.ok remote)]) := mem_recent_concat rfl _
  obtain ⟨hlisted, huntouched⟩ := hready.grown hgrown
  refine (keeps_runChecked (Q := fun log' _ => JustPushed options log' branch)
    (by exact ⟨rfl, hlisted, huntouched, ⟨main, logged, hmain.mono hgrown.recent, rfl,
      hlogged.mono hgrown.recent, rfl⟩, remote, hremote, rfl⟩) ?_).bind ?_
  · intro result hcode
    refine ⟨strip main.stdout, decide (remote.returncode = 0), logged.stdout, result, ?_, hcode⟩
    rw [upToPush_concat_push rfl]
    exact List.getLast?_concat
  · exact fun _ _ hpushed => Keeps.pure hpushed

/-- One branch -/
theorem keeps_processActivationBranch {branch library : Str}
    (hlisted : Listed log library branch) :
    Keeps (Allowed lower str options libraries)
      (processActivationBranch lower str branch library options) log
      fun log' _ => Handled str options log' library branch := by
  refine (Keeps.done (Q := fun log' owner => log = log' ∧ ownerFromBranch branch = .ok owner)
    fun _ h => ⟨rfl, h⟩).bind ?_
  rintro _ owner ⟨rfl, howner⟩
  refine (keeps_calm (keeps_findPrNumber branch)).bind ?_
  rintro log₁ (_ | prNumber) ⟨hgrown₁, hfound⟩
  · refine (keeps_pushSignedBranch ⟨⟨library, hlisted.mono hgrown₁.all⟩,
      .inl hfound⟩).extends.bind ?_
    rintro log₂ _ ⟨hsub, hpushed⟩
    refine (keeps_calm (keeps_openPullRequest howner ((hlisted.mono hgrown₁.all).mono hsub)
      ((hfound.mono (recent_subset _)).mono hsub) hpushed)).bind ?_
    rintro log₃ prNumber ⟨hgrown₃, hfound⟩
    have hmay : shouldEnableAutoMerge owner library options.autoMergeOptOuts = true →
        MayMerge options log₃ prNumber := fun hshould =>
      ⟨library, branch, owner, ((hlisted.mono hgrown₁.all).mono hsub).mono hgrown₃.all, howner,
        hshould, hpushed.grown hgrown₃, hfound⟩
    refine (keeps_calm (keeps_finishBranch hmay)).imp ?_
    rintro log₄ _ ⟨hgrown₄, hset⟩
    exact ⟨owner, prNumber, howner, hfound.mono hgrown₄.all,
      .inr ⟨((hpushed.grown hgrown₃).grown hgrown₄).exists_push, hset⟩⟩
  · refine (keeps_calm (keeps_resolveBotReviewThreads _ prNumber)).bind ?_
    rintro log₂ _ ⟨hgrown₂, -⟩
    refine (keeps_calm (keeps_getPrActivity options.github.repository prNumber)).bind ?_
    rintro log₃ activity ⟨hgrown₃, hseen⟩
    have hfound₃ : Found (recent log₃) branch (some prNumber) :=
      (hfound.mono hgrown₂.recent).mono hgrown₃.recent
    by_cases hhuman : activity.hasHumanActivity = true
    · rw [if_pos hhuman]
      exact Keeps.pure ⟨owner, prNumber, howner, hfound₃.mono (recent_subset _),
        .inl ⟨activity, hseen.mono (recent_subset _), hhuman⟩⟩
    · rw [if_neg hhuman]
      have hlisted₃ : Listed log₃ library branch :=
        ((hlisted.mono hgrown₁.all).mono hgrown₂.all).mono hgrown₃.all
      refine (keeps_pushSignedBranch ⟨⟨library, hlisted₃⟩, .inr ⟨prNumber, activity, hfound₃,
        hseen, Bool.eq_false_of_not_eq_true hhuman⟩⟩).extends.bind ?_
      rintro log₄ _ ⟨hsub, hpushed⟩
      have hfound₄ : Found log₄ branch (some prNumber) :=
        (hfound₃.mono (recent_subset _)).mono hsub
      refine (keeps_calm (keeps_finishBranch fun hshould =>
        ⟨library, branch, owner, hlisted₃.mono hsub, howner, hshould, hpushed, hfound₄⟩)).imp ?_
      rintro log₅ _ ⟨hgrown₅, hset⟩
      exact ⟨owner, prNumber, howner, hfound₄.mono hgrown₅.all,
        .inr ⟨(hpushed.grown hgrown₅).exists_push, hset⟩⟩

theorem keeps_activateLibrary {config : ActivationConfig} (hconfig : config ∈ libraries) :
    Keeps (Calm lower str options libraries) (activateLibrary config) log
      fun log' branches => ∃ activation listed, Succeeded log' (.activate config) activation ∧
        Succeeded log' (.listBranches config.library) listed ∧ branches = words listed.stdout := by
  refine (keeps_calmChecked (Q := fun _ _ => True) (by exact ⟨trivial, rfl⟩)
    fun _ _ _ _ => trivial).bind ?_
  intro log₁ _ _
  refine (keeps_runCommand
    (Q := fun log' activation => (.activate config, .ok activation) ∈ log')
    (by exact ⟨hconfig, rfl⟩)
    fun _ => List.mem_append_right _ (List.mem_singleton.mpr rfl)).bind ?_
  intro log₂ activation hactivation
  refine (keeps_calmChecked (Q := fun log' listed =>
    (.activate config, .ok activation) ∈ log' ∧
      Succeeded log' (.listBranches config.library) listed)
    (by exact ⟨⟨config, hconfig, rfl⟩, rfl⟩)
    fun _ _ hgrown h => ⟨hgrown.all hactivation, h.mono (recent_subset _)⟩).bind ?_
  rintro log₃ listed ⟨hactivation, hlisted⟩
  by_cases hcode : activation.returncode ≠ 0
  · rw [if_pos hcode]
    exact Keeps.raise _
  · rw [if_neg hcode]
    exact Keeps.pure ⟨activation, listed, ⟨hactivation, not_not.mp hcode⟩, hlisted, rfl⟩

/-- A round over a branch: no failure is forgotten, and without one the branch is handled. -/
theorem keeps_branchRound {branch library : Str} (hlisted : Listed log library branch)
    (failures : List LibraryFailure) :
    Keeps (Allowed lower str options libraries)
      (branchRound lower str options library failures branch) log
      fun log' failures' => failures' = [] →
        failures = [] ∧ Handled str options log' library branch := by
  refine (Keeps.attempt (R := fun log' result => ∀ u, result = .ok u →
    Handled str options log' library branch)
    ((keeps_processActivationBranch hlisted).imp fun _ _ h _ _ => h)
    fun _ _ _ h => by cases h).bind ?_
  rintro log' (e | u) hhandled
  · exact Keeps.pure fun h => absurd h (List.append_ne_nil_of_right_ne_nil _ (List.cons_ne_nil _ _))
  · exact Keeps.pure fun h => ⟨h, hhandled u rfl⟩

theorem keeps_libraryRound {config : ActivationConfig} (hconfig : config ∈ libraries)
    (failures : List LibraryFailure) :
    Keeps (Allowed lower str options libraries)
      (libraryRound lower str options failures config) log
      fun log' failures' => failures' = [] →
        failures = [] ∧ Activated str options log' config := by
  refine (Keeps.attempt (R := fun log' result => ∀ branches, result = .ok branches →
    ∃ activation listed, Succeeded log' (.activate config) activation ∧
      Succeeded log' (.listBranches config.library) listed ∧ branches = words listed.stdout)
    (((keeps_activateLibrary hconfig).weaken fun _ _ hc => hc.1).imp
      fun log' branches h branches' heq => Except.ok.inj heq ▸ h)
    fun _ _ _ h => by cases h).bind ?_
  rintro log₁ (e | branches) hlist
  · exact Keeps.pure fun h => absurd h (List.append_ne_nil_of_right_ne_nil _ (List.cons_ne_nil _ _))
  · obtain ⟨activation, listed, hactivation, hlisted, rfl⟩ := hlist branches rfl
    refine (Keeps.forEach (J := fun passed log' failures' => log₁ ⊆ log' ∧ (failures' = [] →
      failures = [] ∧ ∀ branch ∈ passed, Handled str options log' config.library branch))
      ?_ ⟨List.Subset.refl _, fun h => ⟨h, fun _ hmem => absurd hmem List.not_mem_nil⟩⟩).imp ?_
    · intro passed branch rest log₂ failures₂ hsplit hinv
      have hmem : branch ∈ words listed.stdout := by
        rw [hsplit]
        exact List.mem_append_right _ List.mem_cons_self
      refine (keeps_branchRound ⟨listed, hlisted.mono hinv.1, hmem⟩ failures₂).extends.imp ?_
      rintro log₃ failures₃ ⟨hsub, hround⟩
      refine ⟨List.Subset.trans hinv.1 hsub, fun h => ?_⟩
      obtain ⟨hempty, hhandled⟩ := hround h
      refine ⟨(hinv.2 hempty).1, fun b hb => ?_⟩
      rcases List.mem_append.mp hb with hb | hb
      · exact ((hinv.2 hempty).2 b hb).mono hsub
      · rw [List.mem_singleton.mp hb]
        exact hhandled
    · rintro log₂ failures₂ ⟨hsub, hinv⟩ h
      obtain ⟨hempty, hall⟩ := hinv h
      exact ⟨hempty, activation, listed, hactivation.mono hsub, hlisted.mono hsub, hall⟩

theorem keeps_setup (extracted prepared : Except Raised Unit) :
    Keeps (Calm lower str options libraries) (setup extracted prepared) log fun _ _ => True := by
  refine (Keeps.done (Q := fun _ _ => True) fun _ _ => trivial).bind fun _ _ _ => ?_
  refine (keeps_calmChecked (Q := fun _ _ => True) (by exact ⟨trivial, rfl⟩)
    fun _ _ _ _ => trivial).bind fun _ _ _ => ?_
  refine (keeps_calmChecked (Q := fun _ _ => True) (by exact ⟨trivial, rfl⟩)
    fun _ _ _ _ => trivial).bind fun _ _ _ => ?_
  refine (keeps_calmChecked (Q := fun _ _ => True) (by exact ⟨trivial, rfl⟩)
    fun _ _ _ _ => trivial).bind fun _ _ _ => ?_
  exact Keeps.done fun _ _ => trivial

/-- The whole night -/
theorem keeps_runNightlyActivation (extracted prepared : Except Raised Unit) :
    Keeps (Allowed lower str options libraries)
      (runNightlyActivation lower str options libraries extracted prepared) log
      fun log' code => code ≤ 1 ∧
        (code = 0 → ∀ config ∈ libraries, Activated str options log' config) := by
  refine (Keeps.attempt (R := fun _ _ => True)
    ((keeps_setup extracted prepared).weaken fun _ _ hc => hc.1) fun _ _ => trivial).bind ?_
  rintro log₁ (e | u) -
  · exact Keeps.pure ⟨le_rfl, fun h => absurd h Nat.one_ne_zero⟩
  · refine (Keeps.forEach (J := fun passed log' failures => failures = [] →
      ∀ config ∈ passed, Activated str options log' config)
      ?_ fun _ _ hmem => absurd hmem List.not_mem_nil).bind ?_
    · intro passed config rest log₂ failures hsplit hinv
      have hconfig : config ∈ libraries := by
        rw [hsplit]
        exact List.mem_append_right _ List.mem_cons_self
      refine (keeps_libraryRound hconfig failures).extends.imp ?_
      rintro log₃ failures' ⟨hsub, hround⟩ h config' hconfig'
      obtain ⟨hempty, hactivated⟩ := hround h
      rcases List.mem_append.mp hconfig' with hmem | hmem
      · exact (hinv hempty config' hmem).mono hsub
      · rw [List.mem_singleton.mp hmem]
        exact hactivated
    · intro log₂ failures hinv
      by_cases hempty : failures.isEmpty = true
      · rw [if_pos hempty]
        exact Keeps.pure ⟨Nat.zero_le 1, fun _ => hinv (List.isEmpty_iff.mp hempty)⟩
      · rw [if_neg hempty]
        exact Keeps.pure ⟨le_rfl, fun h => absurd h Nat.one_ne_zero⟩

/-- What is raised in a round is a failure of that round. -/
theorem total_runNightlyActivation (extracted prepared : Except Raised Unit) :
    Total (runNightlyActivation lower str options libraries extracted prepared) := by
  refine (Total.attempt (setup extracted prepared)).bind ?_
  rintro (e | u)
  · exact Total.pure 1
  · refine (Total.forEach (fun failures config => ?_) libraries []).bind fun _ => Total.pure _
    refine (Total.attempt (activateLibrary config)).bind ?_
    rintro (e | branches)
    · exact Total.pure _
    · refine Total.forEach (fun failures branch => ?_) branches failures
      refine (Total.attempt _).bind ?_
      rintro (e | u)
      · exact Total.pure _
      · exact Total.pure _

end Commands
end Rules

section Runs

variable (lower : Str → Str) (str : Json → Str) (runner : Runner) (executable : Str)
  (options : NightlyOptions) (libraries : List ActivationConfig)
  (extracted prepared : Except Raised Unit)

/-- **Safety**: whatever is answered or raised, each command was allowed by what happened before
it.  A branch is pushed when it was listed and no human touched its pull request, forced iff the
branch was seen on the remote; a pull request is merged by hand only after auto-merge was refused
because all is clean, and never for an owner who opted out. -/
theorem nightly_respects :
    Respects (Allowed lower str options libraries)
      (night lower str runner executable options libraries extracted prepared).1 :=
  ((keeps_runNightlyActivation extracted prepared).exec (runner.answer executable)
    respects_nil).1

/-- A library with one branch, which gets its pull request in the night -/
def freshBranch : Runner := fun log call =>
  let printed := if call.args.take 2 = ["git".toList, "branch".toList] then "easy-win/asm/python"
    else if call.args.take 3 = ["gh".toList, "pr".toList, "list".toList] ∧
      log.any fun entry => entry.1.args.take 3 = ["gh".toList, "pr".toList, "create".toList]
    then "7" else ""
  .ok { args := call.args, returncode := 0, stdout := printed.toList }

example :
    let run := night id (fun _ => []) freshBranch [] ⟨[], ⟨['o', '/', 'r'], [], []⟩, [],
      [⟨"asm".toList, "python".toList⟩]⟩ [⟨"python".toList, [], false⟩] (.ok ()) (.ok ())
    run.2 = .ok 0 ∧ run.1.any (fun entry => entry.1.isPush) = true := by
  decide

end Runs

end Nightly
end SystemTests
