import Mathlib.Data.Char
import Mathlib.Data.List.Lex
import SystemTests.Foundation.Dict
import SystemTests.Foundation.Exception
import SystemTests.Foundation.Regex
import SystemTests.Foundation.SetOrder

/-!
# Time statistics (`utils/scripts/ci_orchestrators/compute-time-stats.py`, `workflow_data.py`)

The lines of a nightly CSV are steps of jobs.  The durations of those that build
or run something are kept by library and weblog, with the averages under `*`,
and written to a file.  The scheduler reads that file: where it finds nothing
for a weblog, a library or a scenario, it takes the average.

What is counted for other statistics is left out.
-/

namespace SystemTests
namespace Orchestration
namespace TimeStats

open Foundation Foundation.Text Foundation.Regex Foundation.Regex.Rx

/-- Functions of Python that depend on Unicode tables, and its floats. -/
structure Python (N : Type) where
  lower : Str → Str
  upper : Str → Str
  isdecimal : Str → Bool
  classes : CharTable
  /-- `float(s)`, which may be a `ValueError`. -/
  float : Str → Option N
  /-- `int(x)`, which raises for an infinity. -/
  int : N → Except Raised Int
  ofInt : Int → N
  zero : N
  add : N → N → N
  sum : List N → N
  divide : N → Nat → N
  /-- The quotient of two integers may be too large for a float. -/
  divideInt : Int → Nat → Except Raised N

section Append

variable {N : Type} (py : Python N)

def lits (texts : List String) : Rx :=
  match texts with
  | [] => .eps
  | [t] => lit t.toList
  | t :: ts => .alt (lit t.toList) (lits ts)

def word : Rx := .chars fun c => py.classes.isWord c || c == ' '

inductive Category where
  | ciSetup
  | loadComponent
  | build
  | run
  | postRun
deriving DecidableEq

/-- `step_categories`, in their order. -/
def stepCategories : List (Rx × Category) :=
  let post := opt (lit "Post ".toList)
  let rest := Rx.star dot
  [(seqs [lits ["Set up", "Complete"], lit " job".toList], .ciSetup),
    (lits ["Checkout", "Post Checkout"], .ciSetup),
    (lit "Log in to the Container registry".toList, .ciSetup),
    (seqs [post, lit "Set up ".toList, lits ["QEMU", "Docker Buildx"]], .ciSetup),
    (lit "Set up QEMU for docker cross platform setup".toList, .ciSetup),
    (seqs [post, lit "Login to GitHub Container Registry".toList], .ciSetup),
    (lit "Prepare arm runner".toList, .ciSetup),
    (seqs [lits ["Compress", "Upload"], lit " ".toList, lits ["artifact", "logs"]], .ciSetup),
    (seqs [post, lit "Setup python 3.9".toList], .ciSetup),
    (seqs [lit "Load ".toList,
      lits ["library binary", "agent binary", "PHP appsec", "WAF rule set"]], .loadComponent),
    (seqs [lit "Load ".toList, lits ["PHP", "Ruby", "C++"], lit " library binary ".toList, rest],
      .loadComponent),
    (lit "Get binaries artifact".toList, .loadComponent),
    (seqs [post, lit "Pull images".toList], .build),
    (seqs [lits ["Build", "build"], rest], .build),
    (seqs [post, lit "Install runner".toList], .build),
    (seqs [lit "Run ".toList, plus (word py), lit " scenario".toList], .run),
    (seqs [lit "Run ./run.sh ".toList,
      plus (.chars fun c => c.isUpper || c == '_' || c.isDigit), rest], .run),
    (seqs [lit "Run parametric ".toList, opt (lit "tests ".toList), lit "(with timeout)".toList],
      .run),
    (seqs [lit "Run parametric ".toList, opt (lit "tests ".toList), lit "(without timeout)".toList],
      .run),
    (lit "Upload results CI Visibility".toList, .postRun),
    (lit "Push results to Feature Parity Dashboard".toList, .postRun),
    (lit "Print fancy log report".toList, .postRun),
    (lit "Run all scenarios in replay mode".toList, .postRun)]

/-- `_find_category` -/
def findCategory (name : Str) : Except Raised Category :=
  Raised.ofOption (.valueError ("Category not found for '".toList ++ name ++ "'".toList))
    (((stepCategories py).find? fun p => (fullmatch p.1 name).isSome).map Prod.snd)

def excludedJobs : List Str :=
  ["lib-injection", "compute-matrix", "get scenarios", "get weblogs", "get_dev_artifacts",
    "get parameters"]

def languages : List Str :=
  ["php", "python", "ruby", "nodejs", "golang", "cpp", "java", "dotnet", "python_http"]

/-- What the words of a job name say. -/
structure JobWords where
  ci : Option Str
  lang : Option Str
  weblog : Option Str

def addWord (jobName : Str) (words : JobWords) (key : Str) : Except Raised JobWords :=
  if key = "nightly".toList ∨ key = "end-to-end".toList then .ok words
  else if py.isdecimal key then .ok words
  else if key = "dev".toList ∨ key = "prod".toList then
    if words.ci = none then .ok { words with ci := some key }
    else .error (.assertionError ("CI already set for '".toList ++ jobName ++ "'".toList))
  else if key ∈ languages then
    if words.lang = none then .ok { words with lang := some key }
    else .error (.assertionError ("lang already set for '".toList ++ jobName ++ "'".toList))
  else
    match words.weblog with
    | none => .ok { words with weblog := some key }
    | some weblog =>
        .error (.assertionError ("weblog already set for '".toList ++ jobName ++ "' : ".toList ++
          weblog ++ " vs ".toList ++ key))

/-- The words of a job name: a set. -/
def jobKeys (order : SetOrder Str) (jobName : Str) : List Str :=
  order.elements ((split [' '] jobName).filter fun k => decide (strip k ≠ []))

/-- `,()/` are replaced by blanks. -/
def blankSeparators (jobName : Str) : Str :=
  ",()/".toList.foldl (fun name sep => replace [sep] [' '] name) jobName

def scenarioName (stepName : Str) : Str :=
  let name := replace "./run.sh ".toList [] stepName
  let name := replace " scenario".toList [] name
  let name := replace " $REPORT_PARAMS".toList [] name
  let name := replace " (without timeout)".toList [] name
  let name := replace " tests (with timeout)".toList [] name
  replace "RUN ".toList [] (py.upper name)

/-- What a line adds to the statistics. -/
inductive Measurement (N : Type) where
  | run (scenario lang : Str) (weblog : Option Str) (duration : N)
  | build (lang workflow job : Str) (weblog : Option Str) (seconds : Int)
deriving DecidableEq

def Measurement.weblog : Measurement N → Option Str
  | .run _ _ weblog _ => weblog
  | .build _ _ _ weblog _ => weblog

def Measurement.scenario : Measurement N → Option Str
  | .run scenario _ _ _ => some scenario
  | .build _ _ _ _ _ => none

/-- `_append`, up to the place where the measurement is stored. -/
def measure (order : SetOrder Str) (csvLine : Str) : Except Raised (Option (Measurement N)) := do
  let items := split [';'] csvLine.dropLast
  let items := if items.length = 7 then items ++ ["1".toList, "True".toList] else items
  match items with
  | [workflow, job, jobName, stepName, _, _, duration, _, isLastAttempt] =>
      let jobName := py.lower jobName
      if jobName = "post_system-tests".toList then return none
      else if ∃ excluded ∈ excludedJobs, excluded <:+: jobName then return none
      else
        let jobName := blankSeparators jobName
        let words ← (jobKeys order jobName).foldlM (addWord py jobName) ⟨none, none, none⟩
        let lang := if words.lang = some "python_http".toList then some "python".toList else words.lang
        let ci ← Raised.ofOption
          (.assertionError ("CI not found for '".toList ++ jobName ++ "'".toList)) words.ci
        let lang ← Raised.ofOption
          (.assertionError ("Lang not found for '".toList ++ jobName ++ "'".toList)) lang
        let category ← findCategory py stepName
        let durationSeconds ← Raised.ofOption
          (.valueError ("could not convert string to float: '".toList ++ duration ++ "'".toList))
          (py.float duration)
        if category = .run ∧ isLastAttempt = "True".toList then
          return some (.run (scenarioName py stepName) lang words.weblog durationSeconds)
        else if category = .build ∧ ci = "dev".toList then
          let seconds ← py.int durationSeconds
          return some (.build lang workflow job words.weblog seconds)
        else return none
  | _ => .error (.valueError "wrong number of values to unpack")

structure Data (N : Type) where
  scenarioDurations : Dict Str (Dict Str (Dict (Option Str) N))
  buildDurations : Dict Str (Dict (Str × Str × Option Str) Int)

namespace Data

def new : Data N := ⟨.empty, .empty⟩

/-- `d[key]` of a `defaultdict` of dictionaries. -/
def entry {κ : Type} {α : Type} {β : Type} [DecidableEq κ] (d : Dict κ (Dict α β)) (key : κ) :
    Dict α β :=
  (d.get? key).getD Dict.empty

def store (self : Data N) : Measurement N → Data N
  | .run scenario lang weblog duration =>
      let langs := entry self.scenarioDurations scenario
      let weblogs := (entry langs lang).set weblog duration
      { self with
        scenarioDurations := self.scenarioDurations.set scenario (langs.set lang weblogs) }
  | .build lang workflow job weblog seconds =>
      let durations := entry self.buildDurations lang
      let key := (workflow, job, weblog)
      { self with
        buildDurations := self.buildDurations.set lang
          (durations.set key ((durations.get? key).getD 0 + seconds)) }

end Data

def append (order : SetOrder Str) (self : Data N) (csvLine : Str) : Except Raised (Data N) := do
  match ← measure py order csvLine with
  | some measurement => return self.store measurement
  | none => return self

/-- All lines but the first one of a file. -/
def load (order : SetOrder Str) (lines : List Str) : Except Raised (Data N) :=
  lines.foldlM (append py order) Data.new

end Append

/-- A dictionary of dictionaries and numbers; some of its keys may be `None`. -/
inductive Stat (N : Type) where
  | number (x : N)
  | table (rows : List (Option Str × Stat N))

section Statistics

variable {N : Type} (py : Python N)

def star : Str := "*"

/-- `sum(xs) / len(xs)` -/
def average (xs : List N) : Except Raised N :=
  if xs = [] then .error .zeroDivisionError else .ok (py.divide (py.sum xs) xs.length)

def averageInt (xs : List Int) : Except Raised N :=
  if xs = [] then .error .zeroDivisionError else py.divideInt xs.sum xs.length

/-- The sum of averages, each divided by their number. -/
def averageOfAverages (averages : List N) : N :=
  averages.foldl (fun total x => py.add total (py.divide x averages.length)) py.zero

/-- The durations of a library, and their average under `*`. -/
def weblogTable (durations : Dict (Option Str) N) (average : N) : Stat N :=
  .table ((durations.set (some star) average).mapValues fun _ x => Stat.number x).items

/-- The statistics of libraries, and what is under `*`. -/
def libraryTable (libraries : Dict Str (N × Stat N)) (average : N) : Stat N :=
  .table (((libraries.mapValues fun _ p => p.2).set star (.number average)).items.map
    fun p => (some p.1, p.2))

def libraryStatistics (weblogs : Dict (Option Str) N) : Except Raised (N × Stat N) := do
  let x ← average py weblogs.values
  return (x, weblogTable weblogs x)

def scenarioStatistics (langs : Dict Str (Dict (Option Str) N)) : Except Raised (Stat N) := do
  let libraries ← langs.mapValuesM fun _ weblogs => libraryStatistics py weblogs
  return libraryTable libraries (averageOfAverages py (libraries.values.map Prod.fst))

/-- `get_run_statistics` -/
def getRunStatistics (data : Data N) : Except Raised (Stat N) := do
  let scenarios ← data.scenarioDurations.mapValuesM fun _ langs => scenarioStatistics py langs
  return .table (scenarios.items.map fun p => (some p.1, p.2))

/-- The durations by weblog: the last one of a weblog counts. -/
def byWeblog (durations : Dict (Str × Str × Option Str) Int) : Dict (Option Str) Int :=
  Dict.empty.setAll (durations.items.map fun p => (p.1.2.2, p.2))

def libraryBuildStatistics (durations : Dict (Str × Str × Option Str) Int) :
    Except Raised (N × Stat N) := do
  let weblogs := byWeblog durations
  let x ← averageInt py weblogs.values
  return (x, weblogTable (weblogs.mapValues fun _ n => py.ofInt n) x)

/-- `get_build_statistics` -/
def getBuildStatistics (data : Data N) : Except Raised (Stat N) := do
  let libraries ← data.buildDurations.mapValuesM fun _ durations => libraryBuildStatistics py durations
  return libraryTable libraries (averageOfAverages py (libraries.values.map Prod.fst))

/-- `sorted(keys)`: `None` cannot be compared with a text. -/
def sortedKeys (keys : List (Option Str)) : Except Raised (List (Option Str)) :=
  if none ∈ keys ∧ 2 ≤ keys.length then
    .error (.typeError "'<' not supported between instances of 'NoneType' and 'str'")
  else .ok (keys.mergeSort fun a b => decide (a.getD [] ≤ b.getD []))

mutual

/-- `_sort` -/
def sortStat : Stat N → Except Raised (Stat N)
  | .number x => .ok (.number x)
  | .table rows => do
      let keys ← sortedKeys (rows.map Prod.fst)
      let sorted ← sortRows rows
      return .table (keys.filterMap fun k => (Dict.find k sorted).map fun value => (k, value))

def sortRows : List (Option Str × Stat N) → Except Raised (List (Option Str × Stat N))
  | [] => .ok []
  | row :: rows => do
      let value ← sortStat row.2
      let rows ← sortRows rows
      return (row.1, value) :: rows

end

/-- The object that `main` prints. -/
def timeStats (data : Data N) : Except Raised (Stat N) := do
  let build ← getBuildStatistics py data
  let run ← getRunStatistics py data
  sortStat (.table [(some "build".toList, build), (some "run".toList, run)])

end Statistics

section Scheduler

variable {N : Type}

namespace Stat

/-- `self[key]` -/
def get (self : Stat N) (key : Str) : Except Raised (Stat N) :=
  match self with
  | .number _ => .error (.typeError "'float' object is not subscriptable")
  | .table rows => Raised.ofOption (.keyError key) (Dict.find (some key) rows)

/-- `key in self` -/
def contains (self : Stat N) (key : Str) : Except Raised Bool :=
  match self with
  | .number _ => .error (.typeError "argument of type 'float' is not iterable")
  | .table rows => .ok (Dict.find (some key) rows).isSome

end Stat

structure Weblog where
  prebuild : Bool
  name : Str

/-- `_get_build_time` -/
def getBuildTime (py : Python N) (library : Str) (weblog : Weblog) (buildStats : Stat N) :
    Except Raised (Stat N) := do
  if weblog.prebuild = false then return .number py.zero
  else if (← buildStats.contains library) = false then buildStats.get star
  else
    let weblogs ← buildStats.get library
    if (← weblogs.contains weblog.name) = false then weblogs.get star
    else weblogs.get weblog.name

/-- `_get_execution_time` -/
def getExecutionTime (library weblog scenario : Str) (runStats : Stat N) :
    Except Raised (Stat N) := do
  if (← runStats.contains scenario) = false then runStats.get star
  else
    let libraries ← runStats.get scenario
    if (← libraries.contains library) = false then libraries.get star
    else
      let weblogs ← libraries.get library
      if (← weblogs.contains weblog) = false then weblogs.get star
      else weblogs.get weblog

end Scheduler

end TimeStats
end Orchestration
end SystemTests
