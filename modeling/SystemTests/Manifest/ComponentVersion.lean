import SystemTests.Foundation.Exception
import SystemTests.Foundation.Regex
import SystemTests.Manifest.SemverRange

/-!
# Component versions (`utils/_context/component_version.py`)

The version a component exposes is brought into the form of a semantic version
by a rule of its own language before `Version.coerce` reads it.  The classes of
digits and of word characters are those of the `re` module, the parameter
`table`.

The record of known versions that the class keeps for its error reports is not
part of the model: nothing modelled reads it.
-/

namespace SystemTests
namespace Manifest

open Foundation Foundation.Text Foundation.Semver Foundation.Regex

/-- `Version(version)`: a leading `v` is dropped, then the text is coerced. -/
def versionOfText (sv : SemanticVersion) (version : Str) : Except Raised Version :=
  let bare := if ['v'] <+: version then version.drop 1 else version
  Raised.ofOption (sv.coerceRaises bare) (sv.coerce bare)

structure ComponentVersion where
  name : Str
  rawVersion : Str
  version : Version

namespace ComponentVersion

open Rx

section Normalization

variable (table : CharTable)

def digit : Rx := .chars table.isDigit

/-- `\d+\.\d+\.\d+` -/
def base : Rx :=
  seqs [plus (digit table), char '.', plus (digit table), char '.', plus (digit table)]

/-- `[\w\d+]+` -/
def prerelease : Rx :=
  plus (.chars fun c => table.isWord c || table.isDigit c || c == '+')

/-- `[a-f0-9]+` -/
def build : Rx :=
  plus (.chars fun c => ('a' ≤ c && c ≤ 'f') || ('0' ≤ c && c ≤ '9'))

/-- `[\. ]` -/
def separator : Rx := .chars fun c => c == '.' || c == ' '

def ruby (version : Str) : Str :=
  let base := base table
  let prerelease := prerelease table
  if (matchStart (seqs [base, separator, prerelease, separator, build]) version).isSome then
    sub (seqs [.group 1 base, separator, .group 2 prerelease, separator, .group 3 build])
      [.ref 1, .lit "-", .ref 2, .lit "+", .ref 3] version
  else if (matchStart (seqs [base, char ' ', build]) version).isSome then
    sub (seqs [.group 1 base, separator, .group 2 build]) [.ref 1, .lit "+", .ref 2] version
  else if (matchStart (seqs [base, separator, prerelease]) version).isSome then
    sub (seqs [.group 1 base, separator, .group 2 prerelease])
      [.ref 1, .lit "-", .ref 2] version
  else version

def libddwaf (version : Str) : Str :=
  if "* libddwaf".toList <+: version then
    sub (seqs [char '*', .star (char ' '), lit "libddwaf", .star (char ' '), char '(',
      .group 1 (.star dot), char ')']) [.ref 1] version
  else version

/-- Java separates the version from the build with a tilde. -/
def java (version : Str) : Str := replace ['~'] ['+'] version

def dotnet (version : Str) : Str :=
  sub (seqs [opt (.group 1 (lit "datadog-dotnet-apm-")), .group 2 (.lazyStar dot),
    opt (.group 3 (lit ".tar.gz"))]) [.ref 2] version

/-- A prerelease that looks like a commit is moved to the build. -/
def php (version : Str) : Str :=
  sub (seqs [char '-',
    .group 1 (between 32 100 (.chars fun c => ('0' ≤ c && c ≤ '9') || ('a' ≤ c && c ≤ 'f'))),
    .atEnd]) [.lit "+", .ref 1] version

def python (version : Str) : Str :=
  sub (seqs [.group 1 (seqs [plus (digit table), char '.', plus (digit table), dot,
      plus (digit table)]), char '.', .group 2 (plus (.chars (· != '.')))])
    [.ref 1, .lit "-", .ref 2] version

def normalize (name version : Str) : Str :=
  if name = "ruby" then ruby table version
  else if name = "libddwaf" then libddwaf version
  else if name = "java" ∨ name = "java_lambda" then java version
  else if name = "dotnet" then dotnet version
  else if name = "php" then php version
  else if name = "python" then python table version
  else version

end Normalization

/-- `ComponentVersion(name, version)` -/
def create (sv : SemanticVersion) (table : CharTable) (name version : Str) :
    Except Raised ComponentVersion :=
  if '@' ∈ name then
    throw (.valueError "Library's name can't contains '@'")
  else if version = [] then do
    let v ← versionOfText sv "0.0.0"
    return ⟨name, strip version, v⟩
  else do
    let v ← versionOfText sv (normalize table name (strip version))
    return ⟨name, strip version, v⟩

end ComponentVersion
end Manifest
end SystemTests
