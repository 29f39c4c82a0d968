import HouseStyle.Survey.Metrics

/-!
# Maturity

How established the practices of a project are is measured along five axes: documentation,
tests, complexity, layout and imports.  Their weighted mean, in which an axis with nothing to
measure does not count, falls into one of three classes.
-/

namespace HouseStyle

/-- How established the practices of a project are. -/
inductive Maturity where
  /-- Below one half. -/
  | beginner
  /-- From one half. -/
  | intermediate
  /-- From four fifths. -/
  | expert
deriving DecidableEq, Repr

namespace Maturity

variable {α : Type} [Scalar α]

/-- All classes. -/
def all : List Maturity := [beginner, intermediate, expert]

/-- The label of a class. -/
def label : Maturity → String
  | beginner => "beginner"
  | intermediate => "intermediate"
  | expert => "expert"

/-- The class of a label. -/
def ofLabel? (label : String) : Option Maturity := all.find? fun m => m.label == label

/-- The class of a mean. -/
def ofRatio (ratio : α) : Maturity :=
  if Scalar.le 0.8 ratio then expert
  else if Scalar.le 0.5 ratio then intermediate
  else beginner

/-- The strictness from which the adjustments start. -/
def baseStrictness : Maturity → α
  | beginner => 0.3
  | intermediate => 0.6
  | expert => 0.8

/-- The score of a class where it is averaged with others. -/
def score : Maturity → α
  | beginner => 0.3
  | intermediate => 0.6
  | expert => 0.9

end Maturity

/-- What was measured along the axes of maturity, each in the unit interval. -/
structure MaturityAxes (α : Type) where
  /-- The share of documented items. -/
  documentation : Option α
  /-- The share of test files, a quarter being enough. -/
  tests : Option α
  /-- How far the functions are from being too complex. -/
  complexity : Option α
  /-- The customary directories and the size of the project. -/
  layout : Option α
  /-- The share of imports that name what they import. -/
  imports : Option α

namespace MaturityAxes

variable {α : Type} [Scalar α]

/-- The score of a share of test files. -/
def testScore (ratio : α) : α := Scalar.smaller (ratio / 0.25) 1.0

/-- The score of a mean complexity. -/
def complexityScore (mean : α) : α := Scalar.larger (10.0 - mean) 0.0 / 10.0

/-- The score of a layout with some customary directories and a number of files. -/
def layoutScore (customary files : Nat) : α :=
  Scalar.ofCount customary / Scalar.ofCount Layout.customary.length * 0.8
    + Scalar.smaller (Scalar.ofCount files / 50.0) 1.0 * 0.2

/-- What an analysis says along the axes. -/
def measure (a : Analysis α) (layout : Layout) : MaturityAxes α :=
  { documentation := a.facts.documentationCoverage?
    tests := a.testFileRatio?.map testScore
    complexity :=
      if a.files.any fun f => !f.functions.isEmpty then
        some (complexityScore a.metrics.avgComplexity)
      else none
    layout :=
      if a.files.isEmpty then none
      else some (layoutScore layout.customaryCount a.files.length)
    imports := a.wildcardRatio?.map (1.0 - ·) }

/-- The axes with their weights. -/
def weighted (axes : MaturityAxes α) : List (Option α × α) :=
  [(axes.documentation, 20.0), (axes.tests, 25.0), (axes.complexity, 15.0),
    (axes.layout, 20.0), (axes.imports, 10.0)]

/-- The measured axes with their weights. -/
def measured (axes : MaturityAxes α) : List (α × α) :=
  axes.weighted.filterMap fun e => e.1.map fun score => (score, e.2)

/-- The weighted mean of the measured axes, 0 if nothing was measured. -/
def ratio (axes : MaturityAxes α) : α :=
  let (sum, weight) := axes.measured.foldl
    (fun acc e => (acc.1 + e.1 * e.2, acc.2 + e.2)) ((0.0 : α), (0.0 : α))
  if Scalar.same weight 0.0 then 0.0 else Scalar.clamp 0.0 1.0 (sum / weight)

end MaturityAxes

end HouseStyle
