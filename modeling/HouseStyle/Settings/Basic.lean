import HouseStyle.Convention.Basic
import HouseStyle.Path

/-!
# Settings of a run

The thresholds of a run, what to leave out, which languages to look at, and where results are
kept.  Every setting has a default.
-/

namespace HouseStyle

/-- The settings of a run. -/
structure Settings (α : Type) where
  /-- The least confidence of an accepted convention. -/
  leastConfidence : α
  /-- The least confidence of a reported convention. -/
  floor : α
  /-- How fast confidence grows with the share of the observations. -/
  steepness : α
  /-- The share by which a fresh strictness moves an earlier one. -/
  adaptationRate : α
  /-- The names of directories to leave out. -/
  excludedDirs : List String
  /-- The paths to leave out, as patterns. -/
  excludedPaths : List String
  /-- The languages to look at; all of them when there are none. -/
  languages : List String
  /-- The main language; without one it is found by counting files. -/
  primaryLanguage : Option String
  /-- The greatest number of files of a language. -/
  maxFiles : Option Nat
  /-- Whether files may be read at the same time. -/
  parallel : Bool
  /-- The directory below the project in which results are kept. -/
  stateDir : String
deriving DecidableEq

namespace Settings

/-- The directories that never hold sources of a project. -/
def neverSources : List String := [
  "node_modules", "vendor", "target", "build", "dist", "out", "coverage", "__pycache__", "venv",
  "env", "site-packages", "bower_components", "jspm_packages", ".git", ".hg", ".svn", ".tox",
  ".venv", ".mypy_cache", ".pytest_cache", ".next", ".nuxt", ".cache"]

variable {α : Type} [Scalar α]

/-- The settings where nothing is set. -/
def standard : Settings α :=
  { leastConfidence := 0.7
    floor := 0.6
    steepness := 10.0
    adaptationRate := 0.3
    excludedDirs := neverSources
    excludedPaths := []
    languages := []
    primaryLanguage := none
    maxFiles := none
    parallel := true
    stateDir := ".analysis-state" }

/-- What it takes for a convention to be reported. -/
def acceptance (s : Settings α) : Acceptance α := ⟨s.floor, s.steepness⟩

/-- The directory in which the results of a project are kept. -/
def stateDirFor (s : Settings α) (root : Path) : Path := root.join ⟨s.stateDir⟩

end Settings

end HouseStyle
