import SystemTests.Foundation.Interaction
import SystemTests.Foundation.JsonDocument
import SystemTests.Foundation.Lines
import SystemTests.Foundation.Numeral

/-!
# The nightly activation (`utils/ci/github/nightly.py`)

Every night the easy wins of each library are activated on branches, one for each owner, and a
pull request is kept up to date for each branch.  All that is done goes through commands of
`git` and `gh`; a command runner may answer anything, and may raise.

The steps of the setup that run no command (the extraction of the reports, the check of the
signing tool) are results that the environment chooses.
-/

namespace SystemTests
namespace Nightly

open Foundation Foundation.Text Foundation.Program

section Model

structure ActivationConfig where
  library : Str
  excludedOwners : List Str := []
  useDev : Bool := false

structure AutoMergeOptOut where
  owner : Str
  library : Str

structure GithubContext where
  repository : Str
  serverUrl : Str
  runId : Str

structure NightlyOptions where
  commitHeadless : Str
  github : GithubContext
  githubToken : Str
  autoMergeOptOuts : List AutoMergeOptOut

structure CommandResult where
  args : List Str
  returncode : Int
  stdout : Str := []
  stderr : Str := []

structure PullRequestActivity where
  comments : Int
  reviews : Int
  commits : Int

def PullRequestActivity.hasHumanActivity (activity : PullRequestActivity) : Bool :=
  0 < activity.comments || 0 < activity.reviews || 1 < activity.commits

structure LibraryFailure where
  library : Str
  error : Raised

/-- The commands, each with the values that its arguments are made of. -/
inductive Command where
  | gitConfig (key value : Str)
  | setupGit
  | checkout (ref : Str)
  | activate (config : ActivationConfig)
  | listBranches (library : Str)
  | listPrs (branch : Str)
  | issueComments (repository prNumber : Str)
  | pullReviews (repository prNumber : Str)
  | pullCommits (repository prNumber : Str)
  | reviewThreads (owner name prNumber : Str)
  | resolveThread (threadId : Str)
  | viewPr (prNumber : Str)
  | enableAutoMerge (pullRequestId : Str)
  | mergePr (prNumber : Str)
  | revParseMain
  | logCommits (mainSha : Str)
  | lsRemote (branch : Str)
  | push (options : NightlyOptions) (branch mainSha : Str) (force : Bool) (commits : Str)
  | createPr (github : GithubContext) (branch owner library : Str)
  | readyPr (prNumber : Str)

def threadsQuery : Str :=
  ("\nquery($owner: String!, $name: String!, $number: Int!, $endCursor: String) \x7b\n" ++
    "  repository(owner: $owner, name: $name) \x7b\n" ++
    "    pullRequest(number: $number) \x7b\n" ++
    "      reviewThreads(first: 100, after: $endCursor) \x7b\n" ++
    "        nodes \x7b\n          id\n          isResolved\n" ++
    "          comments(first: 1) \x7b\n" ++
    "            nodes \x7b author \x7b __typename \x7d \x7d\n          \x7d\n        \x7d\n" ++
    "        pageInfo \x7b hasNextPage endCursor \x7d\n" ++
    "      \x7d\n    \x7d\n  \x7d\n\x7d\n").toList

def threadsFilter : Str :=
  (".data.repository.pullRequest.reviewThreads.nodes[] | select(.isResolved == false and " ++
    ".comments.nodes[0].author.__typename == \"Bot\") | .id").toList

def resolveMutation : Str :=
  ("\nmutation($threadId: ID!) \x7b\n" ++
    "  resolveReviewThread(input: \x7bthreadId: $threadId\x7d) \x7b thread \x7b id \x7d \x7d\n" ++
    "\x7d\n").toList

def autoMergeMutation : Str :=
  ("\nmutation($pullRequestId: ID!) \x7b\n" ++
    "  enablePullRequestAutoMerge(input: " ++
    "\x7bpullRequestId: $pullRequestId, mergeMethod: SQUASH\x7d) \x7b\n" ++
    "    pullRequest \x7b number \x7d\n  \x7d\n\x7d\n").toList

def notBotsFilter : Str := "[.[] | select(.user.type != \"Bot\")] | length".toList

def prBody (github : GithubContext) (owner library : Str) : Str :=
  "Automated activation of easy-win tests for `".toList ++ library ++ "` owned by `".toList ++
    owner ++ "`".toList ++
    "\n[View nightly workflow run](".toList ++ github.serverUrl ++ '/' :: github.repository ++
    "/actions/runs/".toList ++ github.runId ++ ")\n".toList ++
    "- Auto-merge is enabled unless the team opted out for this library.\n".toList ++
    "- If the tests are failing it might be due to a change made since the last nightly ".toList ++
    "system-tests run. You can close the PR, an updated one will be available tomorrow.\n".toList ++
    "- If you close the PR please also delete the branch".toList

/-- The arguments of a command; `executable` is `sys.executable`. -/
def Command.args (executable : Str) : Command → List Str
  | .gitConfig key value => ["git".toList, "config".toList, "--global".toList, key, value]
  | .setupGit => ["gh", "auth", "setup-git"].map String.toList
  | .checkout ref => ["git".toList, "checkout".toList, ref]
  | .activate config =>
      [executable, "-m".toList, "utils.scripts.activate_easy_wins".toList,
        "--no-download".toList, "--split-co".toList, "--components".toList, config.library] ++
      (if config.excludedOwners = [] then [] else "--exclude".toList :: config.excludedOwners) ++
      (if config.useDev then ["--dev".toList] else [])
  | .listBranches library =>
      ["git".toList, "branch".toList, "--list".toList, "easy-win/*/".toList ++ library,
        "--format=%(refname:short)".toList]
  | .listPrs branch =>
      ["gh".toList, "pr".toList, "list".toList, "--head".toList, branch, "--json".toList,
        "number".toList, "--jq".toList, ".[0].number".toList]
  | .issueComments repository prNumber =>
      ["gh".toList, "api".toList,
        "repos/".toList ++ repository ++ "/issues/".toList ++ prNumber ++ "/comments".toList,
        "--jq".toList, notBotsFilter]
  | .pullReviews repository prNumber =>
      ["gh".toList, "api".toList,
        "repos/".toList ++ repository ++ "/pulls/".toList ++ prNumber ++ "/reviews".toList,
        "--jq".toList, notBotsFilter]
  | .pullCommits repository prNumber =>
      ["gh".toList, "api".toList,
        "repos/".toList ++ repository ++ "/pulls/".toList ++ prNumber ++ "/commits".toList,
        "--jq".toList, "length".toList]
  | .reviewThreads owner name prNumber =>
      ["gh".toList, "api".toList, "graphql".toList, "--paginate".toList, "-f".toList,
        "query=".toList ++ threadsQuery, "-F".toList, "owner=".toList ++ owner, "-F".toList,
        "name=".toList ++ name, "-F".toList, "number=".toList ++ prNumber, "--jq".toList,
        threadsFilter]
  | .resolveThread threadId =>
      ["gh".toList, "api".toList, "graphql".toList, "-f".toList,
        "query=".toList ++ resolveMutation, "-F".toList, "threadId=".toList ++ threadId]
  | .viewPr prNumber =>
      ["gh".toList, "pr".toList, "view".toList, prNumber, "--json".toList,
        "id,autoMergeRequest".toList]
  | .enableAutoMerge pullRequestId =>
      ["gh".toList, "api".toList, "graphql".toList, "-f".toList,
        "query=".toList ++ autoMergeMutation, "-f".toList,
        "pullRequestId=".toList ++ pullRequestId]
  | .mergePr prNumber => ["gh".toList, "pr".toList, "merge".toList, prNumber, "--squash".toList]
  | .revParseMain => ["git", "rev-parse", "main"].map String.toList
  | .logCommits mainSha =>
      ["git".toList, "log".toList, "--reverse".toList, "--format=%H".toList,
        mainSha ++ "..HEAD".toList]
  | .lsRemote branch =>
      ["git".toList, "ls-remote".toList, "--exit-code".toList, "--heads".toList,
        "origin".toList, branch]
  | .push options branch mainSha force _ =>
      [options.commitHeadless, "push".toList, "-T".toList, options.github.repository,
        "--branch".toList, branch, "--head-sha".toList, mainSha,
        if force then "--force".toList else "--create-branch".toList]
  | .createPr github branch owner library =>
      ["gh".toList, "pr".toList, "create".toList, "--title".toList,
        "Auto-activate ".toList ++ library ++ " easy wins for ".toList ++ owner,
        "--body".toList, prBody github owner library, "--head".toList, branch, "--base".toList,
        "main".toList, "--draft".toList]
  | .readyPr prNumber => ["gh".toList, "pr".toList, "ready".toList, prNumber]

/-- What a runner answers: a result, or the exception that it raises. -/
abbrev Answer := Except Raised CommandResult

abbrev Script := Program Command Answer

abbrev Log := History Command Answer

/-- `runner.run` -/
def runCommand (c : Command) : Script CommandResult := do
  match ← ask c with
  | .ok result => return result
  | .error e => raise e

/-- `_command_error` -/
def commandError (label : Str) (result : CommandResult) : Str :=
  let command := join [' '] result.args
  let details :=
    if strip result.stderr ≠ [] then strip result.stderr
    else if strip result.stdout ≠ [] then strip result.stdout
    else "exit code ".toList ++ Json.intText result.returncode
  if command = [] then details else label ++ ": ".toList ++ command ++ ": ".toList ++ details

/-- `_run_checked` -/
def runChecked (c : Command) : Script CommandResult := do
  let result ← runCommand c
  if result.returncode ≠ 0 then raise (.runtimeError (commandError "Command failed".toList result))
  else return result

/-- `should_enable_auto_merge` -/
def shouldEnableAutoMerge (owner library : Str) (optOuts : List AutoMergeOptOut) : Bool :=
  !optOuts.any fun optOut => optOut.owner = owner && optOut.library = library

/-- `owner_from_branch`; `MIN_ACTIVATION_BRANCH_PARTS` is 3. -/
def ownerFromBranch (branchName : Str) : Except Raised Str :=
  let error := .error (.runtimeError ("Unexpected activation branch name: ".toList ++ branchName))
  match split ['/'] branchName with
  | first :: owner :: _ :: _ => if first ≠ "easy-win".toList then error else .ok owner
  | _ => error

/-- The value of `_find_pr_number` for what is printed -/
def prNumberOf (result : CommandResult) : Option Str :=
  let value := strip result.stdout
  if value = [] || value = "null".toList then none else some value

/-- `_find_pr_number` -/
def findPrNumber (branchName : Str) : Script (Option Str) := do
  return prNumberOf (← runChecked (.listPrs branchName))

/-- The value of `_api_count` for what is printed -/
def countOf (result : CommandResult) : Option Int :=
  let value := strip result.stdout
  Numeral.intOfText (if value = [] then ['0'] else value)

/-- `_api_count` -/
def apiCount (c : Command) : Script Int := do
  let result ← runChecked c
  .done (Raised.ofOption (.valueError "invalid literal for int() with base 10".toList)
    (countOf result))

/-- `_get_pr_activity` -/
def getPrActivity (repository prNumber : Str) : Script PullRequestActivity := do
  let comments ← apiCount (.issueComments repository prNumber)
  let reviews ← apiCount (.pullReviews repository prNumber)
  let commits ← apiCount (.pullCommits repository prNumber)
  return ⟨comments, reviews, commits⟩

/-- `repository.split("/", maxsplit=1)` -/
def splitRepository (repository : Str) : Except Raised (Str × Str) :=
  match repository.dropWhile (· ≠ '/') with
  | [] => .error (.valueError "not enough values to unpack (expected 2, got 1)".toList)
  | _ :: name => .ok (before '/' repository, name)

/-- `_resolve_bot_review_threads` -/
def resolveBotReviewThreads (repository prNumber : Str) : Script Unit := do
  let (owner, name) ← .done (splitRepository repository)
  let result ← runChecked (.reviewThreads owner name prNumber)
  forEach (fun _ threadId => do
    let _ ← runChecked (.resolveThread threadId)
    return ()) (words result.stdout) ()

/-- What `_enable_auto_merge` finds in the state of a pull request: whether auto-merge is
enabled, else its id -/
def autoMergeState (str : Json → Str) (stdout : Str) : Except Raised (Option Str) :=
  match Json.jsonLoad stdout with
  | none => .error (.valueError "not a JSON document".toList)
  | some (.object members) =>
      match Json.member? "autoMergeRequest".toList (.object members) with
      | none | some .null =>
          match Json.member? "id".toList (.object members) with
          | none => .error (.keyError "id".toList)
          | some pullRequestId => .ok (some (str pullRequestId))
      | some _ => .ok none
  | some _ => .error (.attributeError "get".toList)

variable (lower : Str → Str) (str : Json → Str)

/-- Whether `"clean status"` is in what a command printed -/
def saysCleanStatus (result : CommandResult) : Bool :=
  decide ("clean status".toList <:+: lower (result.stderr ++ '\n' :: result.stdout))

/-- `_enable_auto_merge` -/
def enableAutoMerge (prNumber : Str) : Script Unit := do
  let view ← runChecked (.viewPr prNumber)
  match ← .done (autoMergeState str view.stdout) with
  | none => return ()
  | some pullRequestId =>
      let enable ← runCommand (.enableAutoMerge pullRequestId)
      if enable.returncode = 0 then return ()
      else if saysCleanStatus lower enable then
        let _ ← runChecked (.mergePr prNumber)
        return ()
      else raise (.runtimeError (commandError "Command failed".toList enable))

/-- `_push_signed_branch` -/
def pushSignedBranch (branchName : Str) (options : NightlyOptions) : Script Unit := do
  let _ ← runChecked (.checkout branchName)
  let mainSha := strip (← runChecked .revParseMain).stdout
  let commits := (← runChecked (.logCommits mainSha)).stdout
  let remoteBranchExists := (← runCommand (.lsRemote branchName)).returncode = 0
  let _ ← runChecked (.push options branchName mainSha remoteBranchExists commits)
  return ()

/-- `process_activation_branch` after the push of a branch that has no pull request -/
def openPullRequest (branchName owner library : Str) (options : NightlyOptions) :
    Script Str := do
  let _ ← runChecked (.createPr options.github branchName owner library)
  match ← findPrNumber branchName with
  | none =>
      raise (.runtimeError ("Could not find PR after creating it for ".toList ++ branchName))
  | some prNumber =>
      let _ ← runChecked (.readyPr prNumber)
      resolveBotReviewThreads options.github.repository prNumber
      return prNumber

/-- The end of `process_activation_branch` -/
def finishBranch (owner library prNumber : Str) (options : NightlyOptions) : Script Unit :=
  if shouldEnableAutoMerge owner library options.autoMergeOptOuts then
    enableAutoMerge lower str prNumber
  else return ()

/-- `process_activation_branch` -/
def processActivationBranch (branchName library : Str) (options : NightlyOptions) :
    Script Unit := do
  let owner ← .done (ownerFromBranch branchName)
  match ← findPrNumber branchName with
  | none =>
      pushSignedBranch branchName options
      let prNumber ← openPullRequest branchName owner library options
      finishBranch lower str owner library prNumber options
  | some prNumber =>
      resolveBotReviewThreads options.github.repository prNumber
      let activity ← getPrActivity options.github.repository prNumber
      if activity.hasHumanActivity then return ()
      else
        pushSignedBranch branchName options
        finishBranch lower str owner library prNumber options

/-- `activate_library` -/
def activateLibrary (config : ActivationConfig) : Script (List Str) := do
  let _ ← runChecked (.checkout "main".toList)
  let activation ← runCommand (.activate config)
  let branches := words (← runChecked (.listBranches config.library)).stdout
  if activation.returncode ≠ 0 then
    raise (.runtimeError (commandError "Activation command failed".toList activation))
  else return branches

/-- One round of the loop over the branches of a library -/
def branchRound (options : NightlyOptions) (library : Str) (failures : List LibraryFailure)
    (branch : Str) : Script (List LibraryFailure) := do
  match ← attempt (processActivationBranch lower str branch library options) with
  | .ok () => return failures
  | .error e => return failures ++ [⟨library ++ '/' :: branch, e⟩]

/-- One round of the loop over the libraries -/
def libraryRound (options : NightlyOptions) (failures : List LibraryFailure)
    (config : ActivationConfig) : Script (List LibraryFailure) := do
  match ← attempt (activateLibrary config) with
  | .ok branches => forEach (branchRound lower str options config.library) branches failures
  | .error e => return failures ++ [⟨config.library, e⟩]

/-- The setup; `extracted` and `prepared` are what `extract_reports_from_logs_artifacts` and
`_prepare_commit_headless` raise -/
def setup (extracted prepared : Except Raised Unit) : Script Unit := do
  .done extracted
  let _ ← runChecked (.gitConfig "user.name".toList "github-actions[bot]".toList)
  let _ ← runChecked
    (.gitConfig "user.email".toList "github-actions[bot]@users.noreply.github.com".toList)
  let _ ← runChecked .setupGit
  .done prepared

/-- `run_nightly_activation` -/
def runNightlyActivation (options : NightlyOptions) (libraries : List ActivationConfig)
    (extracted prepared : Except Raised Unit) : Script Nat := do
  match ← attempt (setup extracted prepared) with
  | .error _ => return 1
  | .ok () =>
      let failures ← forEach (libraryRound lower str options) libraries []
      return if failures.isEmpty then 0 else 1

/-- What a runner is called with; `token` is the `HEADLESS_TOKEN` that is put in the
environment. -/
structure Invocation where
  args : List Str
  token : Option Str
  inputText : Option Str

def Command.invocation (executable : Str) : Command → Invocation
  | .push options branch mainSha force commits =>
      { args := (Command.push options branch mainSha force commits).args executable
        token := some options.githubToken
        inputText := some commits }
  | c => { args := c.args executable, token := none, inputText := none }

/-- A runner answers by what it was called with so far. -/
abbrev Runner := List (Invocation × Answer) → Invocation → Answer

def Runner.answer (runner : Runner) (executable : Str) (log : Log) (c : Command) : Answer :=
  runner (log.map fun entry => (entry.1.invocation executable, entry.2)) (c.invocation executable)

/-- A night with a runner: what was run, and the exit code -/
def night (runner : Runner) (executable : Str) (options : NightlyOptions)
    (libraries : List ActivationConfig) (extracted prepared : Except Raised Unit) :
    Log × Except Raised Nat :=
  exec (runner.answer executable)
    (runNightlyActivation lower str options libraries extracted prepared) []

end Model

end Nightly
end SystemTests
