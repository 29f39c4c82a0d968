import HouseStyle.Overview.Basic

/-!
# Ranges of saved results

A result that was saved is used only if its numbers lie in their ranges: strictness, confidence
and consistency within their bounds, times after 1970, and no more examples than are kept.  The
first fault, in the order of the fields, is reported.
-/

namespace HouseStyle

/-- A value outside its range. -/
inductive RangeFault (α : Type) where
  /-- A number outside its bounds. -/
  | outside (name : String) (low high value : α)
  /-- A time that is none. -/
  | time (value : α)
  /-- Too many examples of a convention. -/
  | examples (name : String) (count : Nat)

namespace RangeFault

variable {α : Type}

/-- The fault in words. -/
def message [NumberText α] : RangeFault α → String
  | outside name low high value =>
    name ++ " must be within [" ++ NumberText.message low ++ ", " ++ NumberText.message high
      ++ "], got " ++ NumberText.message value
  | time value => "generated_at must be a unix timestamp, got " ++ NumberText.message value
  | examples name count =>
    "pattern " ++ name ++ " has " ++ Nat.repr count ++ " examples, at most "
      ++ Nat.repr Convention.maxExamples ++ " allowed"

/-- Whether a number lies within its bounds. -/
def range [Scalar α] (name : String) (low high value : α) : Except (RangeFault α) Unit :=
  if Scalar.within low high value then .ok () else .error (outside name low high value)

end RangeFault

variable {α : Type} [Scalar α]

/-- Whether a convention is within its ranges. -/
def Convention.check (c : Convention α) : Except (RangeFault α) Unit := do
  RangeFault.range ("confidence of " ++ c.name) 0.0 1.0 c.confidence
  if Convention.maxExamples < c.examples.length then
    .error (.examples c.name c.examples.length)

/-- Whether a profile is within its ranges. -/
def Profile.check (p : Profile α) : Except (RangeFault α) Unit := do
  RangeFault.range "recommended_strictness" Strictness.least Strictness.greatest p.strictness
  if !(Scalar.isFinite p.generatedAt && Scalar.le 0.0 p.generatedAt) then
    .error (.time p.generatedAt)
  p.conventions.forM Convention.check

/-- Whether the measures of a language are within their ranges. -/
def LanguageMetrics.check (language : String) (m : LanguageMetrics α) :
    Except (RangeFault α) Unit := do
  RangeFault.range (language ++ " naming_consistency") 0.0 1.0 m.namingConsistency
  RangeFault.range (language ++ " style_consistency") 0.0 1.0 m.styleConsistency

/-- Whether an overview is within its ranges. -/
def Overview.check (o : Overview α) : Except (RangeFault α) Unit := do
  RangeFault.range "overall_strictness" Strictness.leastUnified Strictness.greatest o.strictness
  match o.primary with
  | some p => p.check
  | none => pure ()
  o.metrics.entries.forM fun e => e.2.check e.1
  o.comparisons.forM fun c =>
    RangeFault.range ("consistency of " ++ c.name) 0.0 1.0 c.consistency

end HouseStyle
