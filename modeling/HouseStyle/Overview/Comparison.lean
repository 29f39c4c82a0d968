import HouseStyle.Profile.Basic

/-!
# Comparing languages

A convention that at least two languages of a project show is compared: the closer their values,
the higher its consistency.  Numbers are close when they deviate little from their mean, flags
when they are equal, and anything else is at least half consistent.  Two measures, complexity
and function size, are compared by their spread.
-/

namespace HouseStyle

/-- How uniformly a convention is applied in several languages. -/
structure Comparison (α : Type) where
  /-- The name of the convention. -/
  name : String
  /-- The languages, ascending. -/
  languages : List String
  /-- The value of the convention by language. -/
  values : SortedMap (ConventionValue α)
  /-- How close the values are, in the unit interval. -/
  consistency : α
  /-- What to do about it. -/
  recommendation : String

/-- The value of each convention by language. -/
abbrev ConventionIndex (α : Type) := SortedMap (SortedMap (ConventionValue α))

namespace Comparison

variable {α : Type} [Scalar α]

/-- The consistency of numbers: one less their relative deviation from the mean. -/
def numeric (xs : List α) : α :=
  if xs.isEmpty then 1.0
  else
    let mean := Scalar.mean xs
    if Scalar.same mean 0.0 then
      if xs.all fun x => Scalar.same x 0.0 then 1.0 else 0.0
    else
      let variance := Scalar.mean (xs.map fun x => (x - mean) * (x - mean))
      Scalar.larger (1.0 - Scalar.sqrt variance / Scalar.abs mean) 0.0

/-- The greatest number of a list. -/
def greatest? : List α → Option α
  | [] => none
  | x :: xs => some (xs.foldl Scalar.larger x)

/-- The least number of a list. -/
def least? : List α → Option α
  | [] => none
  | x :: xs => some (xs.foldl Scalar.smaller x)

/-- The consistency of numbers that are not negative: one less their relative spread. -/
def spread (xs : List α) : α :=
  match greatest? xs, least? xs with
  | some high, some low =>
    if Scalar.le high 0.0 then 1.0 else Scalar.clamp 0.0 1.0 (1.0 - (high - low) / high)
  | _, _ => 1.0

/-- Whether each value of a list equals the next one. -/
def allSame : List (ConventionValue α) → Bool
  | a :: b :: rest => a.same b && allSame (b :: rest)
  | _ => true

/-- The consistency of the values of a convention. -/
def ofValues (values : List (ConventionValue α)) : α :=
  if values.length < 2 then 1.0
  else
    match values.mapM ConventionValue.number? with
    | some xs => numeric xs
    | none =>
      if allSame values then 1.0
      else if values.all fun v => v.flag?.isSome then 0.0
      else 0.5

/-- What to do about a convention of a consistency. -/
def recommend (name : String) (consistency : α) : String :=
  if Scalar.le 0.8 consistency then "Maintain the consistent " ++ name ++ " across languages"
  else if Scalar.le 0.5 consistency then
    "Unify " ++ name ++ " lightly: languages mostly agree but differ in places"
  else "Establish a cross-language standard for " ++ name

/-- Enter the conventions of a language into an index, except those about the layout, which all
languages of a project share. -/
def enter (language : String) (index : ConventionIndex α) (conventions : List (Convention α)) :
    ConventionIndex α :=
  (conventions.filter fun c => c.kind != .layout).foldl
    (fun acc c => acc.upsert c.name fun old => (old.getD .empty).insert language c.value) index

/-- The language of a profile in an index. -/
def languageKey (p : Profile α) : String := if p.language = "" then "primary" else p.language

/-- The values of all conventions of a profile and some languages; where both have a value, that
of the measures counts. -/
def index (primary : Option (Profile α)) (metrics : SortedMap (LanguageMetrics α)) :
    ConventionIndex α :=
  let start := match primary with
    | some p => enter (languageKey p) .empty p.conventions
    | none => .empty
  metrics.entries.foldl (fun acc e => enter e.1 acc e.2.conventions) start

/-- The comparison of a convention, if two languages show it. -/
def ofEntry? (name : String) (values : SortedMap (ConventionValue α)) : Option (Comparison α) :=
  if values.size < 2 then none
  else
    let consistency := ofValues values.values
    some ⟨name, values.keys, values, consistency, recommend name consistency⟩

/-- The comparisons of all conventions of an index. -/
def ofIndex (index : ConventionIndex α) : List (Comparison α) :=
  index.entries.filterMap fun e => ofEntry? e.1 e.2

/-- A measure that is compared by its spread. -/
structure Measure (α : Type) where
  /-- Its name. -/
  name : String
  /-- What it is called in a sentence. -/
  phrase : String
  /-- The measure of a language. -/
  value : LanguageMetrics α → α
  /-- The mean up to which it is low. -/
  low : α

/-- The name of the comparison of complexity. -/
def complexityName : String := "avg_complexity"

/-- The mean complexity up to which functions are simple. -/
def goodComplexity : α := 5.0

/-- The mean function length up to which functions are short. -/
def goodSize : α := 20.0

/-- The measures that are compared. -/
def measures : List (Measure α) := [
  ⟨complexityName, "complexity", LanguageMetrics.avgComplexity, goodComplexity⟩,
  ⟨"avg_function_size", "function size", LanguageMetrics.avgFunctionSize, goodSize⟩]

variable [NumberText α]

/-- What to do about a measure of a consistency and mean. -/
def recommendMeasure (m : Measure α) (consistency mean : α) : String :=
  if Scalar.le 0.8 consistency && Scalar.le mean m.low then
    "Maintain the low " ++ m.phrase ++ " (average " ++ NumberText.fixed 1 mean
      ++ ") shared across languages"
  else if Scalar.le 0.8 consistency then
    "The " ++ m.phrase ++ " is consistent but high (average " ++ NumberText.fixed 1 mean
      ++ "); reduce it in every language"
  else "The " ++ m.phrase ++ " varies between languages; align on a common limit"

/-- The comparison of a measure of some languages. -/
def ofMeasure (metrics : SortedMap (LanguageMetrics α)) (m : Measure α) : Comparison α :=
  let xs := metrics.values.map m.value
  let consistency := spread xs
  ⟨m.name, metrics.keys, metrics.map fun _ l => .number (m.value l), consistency,
    recommendMeasure m consistency (Scalar.mean xs)⟩

/-- The comparisons of the measures, if at least two languages have files. -/
def derived (metrics : SortedMap (LanguageMetrics α)) : List (Comparison α) :=
  let withData := metrics.filter fun _ m => m.hasData
  if withData.size < 2 then [] else measures.map (ofMeasure withData)

end Comparison

end HouseStyle
