import HouseStyle.Convention.Observed
import HouseStyle.Count

/-!
# The measures of a language

The files of a language are summed up in a few measures: how long and how branched its
functions are on average, and which share of the names, quotes and indented lines follows the
dominant choice.  The measures stand beside the conventions that the language shows.
-/

namespace HouseStyle

/-- The measures of a language and its conventions. -/
structure LanguageMetrics (α : Type) where
  /-- The language. -/
  language : String
  /-- The number of files. -/
  fileCount : Nat
  /-- The number of lines. -/
  totalLines : Nat
  /-- The mean number of lines of a function. -/
  avgFunctionSize : α
  /-- The mean number of independent ways through a function. -/
  avgComplexity : α
  /-- The share of the names that follow the dominant style of their kind. -/
  namingConsistency : α
  /-- The share of the quotes and indented lines that follow the dominant choice. -/
  styleConsistency : α
  /-- The lengths of the lines. -/
  lineStats : LineStats
  /-- The conventions. -/
  conventions : List (Convention α)

namespace LanguageMetrics

variable {α : Type}

/-- Whether there is a file. -/
def hasData (m : LanguageMetrics α) : Bool := decide (0 < m.fileCount)

/-- Leave out what describes the project and not the language. -/
def withoutLayout (m : LanguageMetrics α) : LanguageMetrics α :=
  { m with conventions := m.conventions.filter fun c => c.kind != .layout }

variable [Scalar α]

/-- The measures of a language without files. -/
def empty (language : String) : LanguageMetrics α :=
  ⟨language, 0, 0, 0.0, 0.0, 0.0, 0.0, .none, []⟩

/-- The tallies of the naming styles, by kind of name. -/
def namingTallies (facts : LanguageFacts) : List Tally :=
  NameKind.all.map fun kind => Names.styleTally (facts.names.get kind)

/-- The share of the observations of some tallies that agree with the dominant label of their
tally. -/
def agreement (tallies : List Tally) : α :=
  Scalar.share (Count.sum (tallies.map Tally.dominantCount)) (Count.sum (tallies.map Tally.total))

/-- The mean of a count over some functions, 0 without functions. -/
def functionMean (functions : List FunctionFacts) (count : FunctionFacts → Nat) : α :=
  Scalar.share (Count.sum (functions.map count)) functions.length

/-- The measures of the files of a language, given what they add up to. -/
def ofFiles [NumberText α] (accept : Acceptance α) (language : String) (files : List FileFacts)
    (facts : LanguageFacts) : LanguageMetrics α :=
  if files.isEmpty then empty language
  else
    let functions := files.flatMap (·.functions)
    { language
      fileCount := files.length
      totalLines := Count.sum (files.map (·.totalLines))
      avgFunctionSize := functionMean functions (·.lineCount)
      avgComplexity := functionMean functions FunctionFacts.complexity
      namingConsistency := agreement (namingTallies facts)
      styleConsistency := agreement [facts.quotes.tally, facts.indentation.tally]
      lineStats := LineStats.sum (files.map (·.lineStats))
      conventions := Convention.allObserved accept facts }

end LanguageMetrics

/-- Everything that is known about a language. -/
structure Analysis (α : Type) where
  /-- The language. -/
  language : String
  /-- The facts about each file. -/
  files : List FileFacts
  /-- The number of files about which nothing is known. -/
  skippedFiles : Nat
  /-- The facts about all files. -/
  facts : LanguageFacts
  /-- The measures. -/
  metrics : LanguageMetrics α

namespace Analysis

variable {α : Type} [Scalar α]

/-- What the facts about the files of a language add up to. -/
def ofFiles [NumberText α] (accept : Acceptance α) (language : String) (files : List FileFacts)
    (skipped : Nat) (layout : Layout) : Analysis α :=
  let facts := LanguageFacts.ofFiles language files layout
  ⟨language, files, skipped, facts, LanguageMetrics.ofFiles accept language files facts⟩

/-- The share of the files that hold tests, if there are files. -/
def testFileRatio? (a : Analysis α) : Option α :=
  if a.files.isEmpty then none
  else some (Scalar.share (a.files.countP (·.isTestFile)) a.files.length)

/-- The imports of all files. -/
def imports (a : Analysis α) : List ImportFacts := a.files.flatMap (·.imports)

/-- The share of the imports that import all names, if there are imports. -/
def wildcardRatio? (a : Analysis α) : Option α :=
  if a.imports.isEmpty then none
  else some (Scalar.share (a.imports.countP (·.wildcard)) a.imports.length)

/-- The extensions of the files. -/
def extensions (a : Analysis α) : Tally := Tally.ofLabels (a.files.filterMap FileFacts.extension?)

/-- The test frameworks that the files refer to. -/
def testFrameworks (a : Analysis α) : Tally :=
  Tally.mergeAll (a.files.map (·.testFrameworks))

end Analysis

end HouseStyle
