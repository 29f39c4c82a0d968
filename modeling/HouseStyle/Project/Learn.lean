import HouseStyle.Overview.Basic
import HouseStyle.Project.Fault
import HouseStyle.Project.Tree
import HouseStyle.Survey.Extract

/-!
# Learning from a project

The files of a language are read, and what is found in them is put into the order of their paths,
so it does not matter in which order they were read.  A profile is learned from the main
language: the one that is set, or else the one with the most files.  An overview compares all
languages and takes the profile from the same analysis.

The grammars by which files are read are part of the program, but a reader that cannot work makes
its language fail as a whole.  So everything is said for given readers (`Readers`) first, and then
for those of the program.
-/

namespace HouseStyle

/-- What the reading of a file gives, in a project: its facts, unless nothing can be known. -/
def ProjectFile.facts? (language : Language) (f : ProjectFile) : Option FileFacts :=
  f.bytes?.bind fun bytes =>
    match Survey.extract language f.path bytes with
    | .ok facts => some facts
    | .error _ => none

/-- Put what the reading of some files gave into the order of their paths, and count the files
about which nothing is known. -/
def Survey.gather (results : List (Option FileFacts)) : List FileFacts × Nat :=
  ((results.filterMap id).mergeSort fun f g => decide (f.path ≤ g.path),
    results.countP Option.isNone)

/-- What is read for the analysis of a language. -/
structure Workload where
  /-- The language. -/
  language : Language
  /-- The files. -/
  files : List ProjectFile

namespace Workload

/-- The facts about the files, and the number of files about which nothing is known. -/
def survey (w : Workload) : List FileFacts × Nat :=
  Survey.gather (w.files.map (ProjectFile.facts? w.language))

/-- Everything that is known about the language in a project with a layout. -/
def analysis {α : Type} [Scalar α] [NumberText α] (w : Workload) (s : Settings α)
    (layout : Layout) : Analysis α :=
  let (files, skipped) := w.survey
  Analysis.ofFiles s.acceptance w.language.id files skipped layout

end Workload

/-- Whether the reader of a language works, or why it does not. -/
abbrev Readers (α : Type) := Language → Except (ProjectFault α) Unit

/-- The readers of the program, which all work. -/
def Readers.sound {α : Type} : Readers α := fun _ => .ok ()

namespace Settings

variable {α : Type} [Scalar α]

/-- What to leave out of a project. -/
def exclusion (s : Settings α) : Except (SettingsFault α) Exclusion :=
  s.globs.map fun patterns => ⟨s.excludedDirs, patterns⟩

/-- The language that is assumed when nothing else decides. -/
def fallbackLanguage : String := Language.python.id

/-- The main language of a project with a layout: the one that is set, or else the active one
with the most files. -/
def mainLanguage (s : Settings α) (layout : Layout) : String :=
  match s.primaryLanguage with
  | some name => name
  | none =>
    let counts := layout.sourceFiles.counts.entries.filter fun e =>
      s.activeLanguages.contains e.1
    match (Tally.ofCounts counts).dominant? with
    | some (name, _) => name
    | none => fallbackLanguage

end Settings

namespace ProjectTree

variable {α : Type} [Scalar α]

/-- What is read for the analysis of a language. -/
def workload (p : ProjectTree) (x : Exclusion) (limit : Option Nat) (language : Language) :
    Workload :=
  ⟨language, p.collect x limit language⟩

/-- The facts about the files of a language, and the number of files about which nothing is
known. -/
def survey (p : ProjectTree) (x : Exclusion) (limit : Option Nat) (language : Language) :
    List FileFacts × Nat :=
  (p.workload x limit language).survey

variable [NumberText α]

/-- What is read of the main language, and the layout.  Without files there is nothing to read,
and then it does not matter whether the reader works. -/
def mainWork (r : Readers α) (p : ProjectTree) (s : Settings α) :
    Except (ProjectFault α) (Workload × Layout) := do
  let x ← s.exclusion.mapError .settings
  let layout := p.layout x
  let name := s.mainLanguage layout
  match Language.ofId? name with
  | none => .error (.unknownLanguage name)
  | some language =>
    if layout.sourceFiles.get name = 0 then .ok (⟨language, []⟩, layout)
    else do
      r language
      .ok (p.workload x s.maxFiles language, layout)

/-- The analysis of the main language, and the layout, with given readers. -/
def analyzeMainWith (r : Readers α) (p : ProjectTree) (s : Settings α) :
    Except (ProjectFault α) (Analysis α × Layout) :=
  (p.mainWork r s).map fun w => (w.1.analysis s w.2, w.2)

/-- The profile of the main language, with given readers. -/
def learnWith (r : Readers α) (p : ProjectTree) (s : Settings α) (now : α) :
    Except (ProjectFault α) (Profile α) :=
  (p.analyzeMainWith r s).map fun a => Profile.learn s.leastConfidence now a.1 a.2

/-- What is read of all languages that have files and a reader that works, and the layout. -/
def allWork (r : Readers α) (p : ProjectTree) (s : Settings α) :
    Except (ProjectFault α) (List Workload × Layout) := do
  let x ← s.exclusion.mapError .settings
  let layout := p.layout x
  let present := s.knownLanguages.filter fun l =>
    decide (0 < layout.sourceFiles.get l.id) && (r l).isOk
  .ok (present.map (p.workload x s.maxFiles), layout)

/-- The analyses of some languages, without those of which no file can be read. -/
def analysesOf (s : Settings α) (work : List Workload) (layout : Layout) :
    SortedMap (Analysis α) :=
  let analyses := (work.map fun w => w.analysis s layout).filter fun a => a.metrics.hasData
  .ofList (analyses.map fun a => (a.language, a))

/-- The analyses of all languages of which at least one file can be read, and the layout, with
given readers. -/
def analyzeAllWith (r : Readers α) (p : ProjectTree) (s : Settings α) :
    Except (ProjectFault α) (SortedMap (Analysis α) × Layout) :=
  (p.allWork r s).map fun w => (analysesOf s w.1 w.2, w.2)

/-- The measures of analyses, without what describes the project. -/
def metricsOf (analyses : SortedMap (Analysis α)) : SortedMap (LanguageMetrics α) :=
  analyses.map fun _ a => a.metrics.withoutLayout

/-- The overview, with given readers.  The profile of the main language is learned from its
analysis if there is one, and from the project if not. -/
def overviewWith (r : Readers α) (p : ProjectTree) (s : Settings α) (now : α) :
    Except (ProjectFault α) (Overview α) := do
  let (analyses, layout) ← p.analyzeAllWith r s
  let primary ← match analyses.get? (s.mainLanguage layout) with
    | some a => .ok (Profile.learn s.leastConfidence now a layout)
    | none => p.learnWith r s now
  .ok (Overview.integrate now (some primary) (metricsOf analyses))

/-- The analysis of the main language, and the layout. -/
def analyzeMain (p : ProjectTree) (s : Settings α) :
    Except (ProjectFault α) (Analysis α × Layout) :=
  p.analyzeMainWith .sound s

/-- The profile of the main language. -/
def learn (p : ProjectTree) (s : Settings α) (now : α) : Except (ProjectFault α) (Profile α) :=
  p.learnWith .sound s now

/-- The analyses of all languages of which at least one file can be read, and the layout. -/
def analyzeAll (p : ProjectTree) (s : Settings α) :
    Except (ProjectFault α) (SortedMap (Analysis α) × Layout) :=
  p.analyzeAllWith .sound s

/-- The measures of all languages. -/
def analyze (p : ProjectTree) (s : Settings α) :
    Except (ProjectFault α) (SortedMap (LanguageMetrics α)) :=
  (p.analyzeAll s).map fun r => metricsOf r.1

/-- The overview. -/
def overview (p : ProjectTree) (s : Settings α) (now : α) :
    Except (ProjectFault α) (Overview α) :=
  p.overviewWith .sound s now

end ProjectTree

namespace Disk

/-- The project at a path, which has to be a directory. -/
def project {α : Type} (d : Disk) (root : Path) : Except (ProjectFault α) ProjectTree :=
  if d.isDirectory root then .ok (.ofDisk d root) else .error (.noRoot root)

end Disk

end HouseStyle
