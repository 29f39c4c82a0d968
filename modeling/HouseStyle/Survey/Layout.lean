import HouseStyle.Path
import HouseStyle.Tally

/-!
# The layout of a project

The directories right below the root of a project, how many files of which language there are,
and how many files there are at all.  Some directory names are customary for tests, documents,
sources and scripts.
-/

namespace HouseStyle

/-- The layout of a project. -/
structure Layout where
  /-- The names of the directories right below the root. -/
  topDirs : SortedMap Unit
  /-- The number of source files by language. -/
  sourceFiles : Tally
  /-- The number of files. -/
  fileCount : Nat
deriving DecidableEq

namespace Layout

/-- A project without files. -/
def empty : Layout := ⟨.empty, .empty, 0⟩

instance : Inhabited Layout := ⟨empty⟩

/-- A set of names. -/
def names (l : List String) : SortedMap Unit := SortedMap.ofList (l.map fun name => (name, ()))

/-- Which of some names are directories right below the root. -/
def present (layout : Layout) (dirs : List String) : List String :=
  dirs.filter layout.topDirs.contains

/-- The customary directories, by the convention that they show. -/
def customary : List (String × List String) := [
  ("has_tests_directory", Path.testDirs),
  ("has_docs_directory", ["docs", "doc", "documentation"]),
  ("has_source_directory", ["src", "lib", "source", "app", "pkg", "internal", "cmd"]),
  ("has_scripts_directory", ["scripts", "bin", "tools"])]

/-- The number of conventions about directories that the project follows. -/
def customaryCount (layout : Layout) : Nat :=
  customary.countP fun c => c.2.any layout.topDirs.contains

end Layout

end HouseStyle
