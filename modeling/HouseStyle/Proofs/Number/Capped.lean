import HouseStyle.Proofs.Json.WholeNumber
import HouseStyle.Proofs.Number.Laws

/-!
# Whole numbers with small counts

A statement about numbers that obey the laws and also have a text is to be seen at some type of
them.  Whole numbers are such a type if the counts that are taken from them are cut off at 64 bits.
-/

namespace HouseStyle

/-- The whole numbers, giving counts of at most 64 bits. -/
structure CappedNumber where
  /-- The whole number. -/
  whole : WholeNumber
deriving DecidableEq

namespace CappedNumber

instance : Scalar CappedNumber where
  add x y := ⟨x.whole + y.whole⟩
  sub x y := ⟨x.whole - y.whole⟩
  mul x y := ⟨x.whole * y.whole⟩
  div x y := ⟨x.whole / y.whole⟩
  neg x := ⟨-x.whole⟩
  ofScientific m negative k := ⟨OfScientific.ofScientific m negative k⟩
  ofCount n := ⟨Scalar.ofCount n⟩
  le x y := Scalar.le x.whole y.whole
  lt x y := Scalar.lt x.whole y.whole
  same x y := Scalar.same x.whole y.whole
  exp x := ⟨Scalar.exp x.whole⟩
  sqrt x := ⟨Scalar.sqrt x.whole⟩
  abs x := ⟨Scalar.abs x.whole⟩
  isNaN _ := false
  isFinite _ := true
  wholePart x := min (Scalar.wholePart x.whole) (Count.wordSize 64 - 1)
  nearest x := min (Scalar.nearest x.whole) (Count.wordSize 64 - 1)

instance : NumberText CappedNumber where
  message x := NumberText.message x.whole
  document x := NumberText.document x.whole
  configuration x := NumberText.configuration x.whole
  fixed places x := NumberText.fixed places x.whole
  ofDecimal? m k := (NumberText.ofDecimal? m k).map mk

instance : LawfulNumberText CappedNumber where
  spells x s hs := LawfulNumberText.spells x.whole s hs
  reads_back x _ := by
    obtain ⟨s, n, hs, hn, hx⟩ := LawfulNumberText.reads_back x.whole rfl
    refine ⟨s, n, hs, hn, ?_⟩
    obtain ⟨y, hy, hsign⟩ := Option.map_eq_some_iff.1 hx
    refine Option.map_eq_some_iff.2 ⟨⟨y⟩, Option.map_eq_some_iff.2 ⟨y, hy, rfl⟩, ?_⟩
    split_ifs at hsign ⊢
    · exact congrArg mk hsign
    · exact congrArg mk hsign

variable {x y : CappedNumber}

lemma le_iff : Scalar.le x y = true ↔ x.whole.value ≤ y.whole.value := decide_eq_true_iff

lemma lt_iff : Scalar.lt x y = true ↔ x.whole.value < y.whole.value := decide_eq_true_iff

lemma value_tenths (n : Nat) :
    (OfScientific.ofScientific n true 1 : CappedNumber).whole.value = (n : Int) / 10 := rfl

lemma value_div_count (m n : Nat) :
    (Scalar.ofCount m / Scalar.ofCount n : CappedNumber).whole.value = (m : Int) / n := rfl

instance : ExactCounts CappedNumber where
  countsTo limit := {
    isFinite_div := fun _ _ _ => rfl
    div_nonneg := fun {m n} _ _ _ => by
      rw [le_iff, value_tenths, value_div_count]
      exact Int.ediv_nonneg (Int.natCast_nonneg m) (Int.natCast_nonneg n)
    div_le_one := fun {m n} h hn _ => by
      rw [le_iff, value_div_count]
      change _ ≤ (1 : Int)
      exact Int.ediv_le_of_le_mul (by omega) (by omega) }
  reads _ := ⟨_, rfl, rfl⟩

instance : FiniteReading CappedNumber where
  reads _ := ExactCounts.reads _

instance : LawfulScalar CappedNumber where
  le_of_not_lt _ _ h := by
    rw [← Bool.not_eq_true, lt_iff, Int.not_lt] at h
    exact le_iff.2 h
  lt_of_not_le _ _ h := by
    rw [← Bool.not_eq_true, le_iff, Int.not_le] at h
    exact lt_iff.2 h
  isNaN_of_isFinite _ := rfl
  isFinite_of_le_of_le _ _ _ _ := rfl
  isFinite_tenths _ := rfl
  le_tenths h _ := by
    rw [le_iff, value_tenths, value_tenths]
    omega
  countsTo _ := ExactCounts.countsTo _
  isNaN_sub _ _ := rfl
  isNaN_div _ _ _ := rfl
  isNaN_of_sub _ := rfl
  isNaN_of_div _ := ⟨rfl, rfl⟩
  sqrt_nonneg _ := le_iff.2 (Int.natCast_nonneg _)
  abs_pos {x} _ h := by
    have hne : x.whole.value ≠ 0 := of_decide_eq_false h
    exact lt_iff.2 (Int.natCast_pos.2 (Int.natAbs_pos.2 hne))
  div_nonneg _ hx hy := le_iff.2 (Int.ediv_nonneg (le_iff.1 hx) (Int.le_of_lt (lt_iff.1 hy)))
  one_sub_le hx := le_iff.2 (Int.sub_le_self _ (le_iff.1 hx))
  wholePart_lt x := (Nat.min_le_right _ _).trans_lt (by decide)
  nearest_lt x := (Nat.min_le_right _ _).trans_lt (by decide)

end CappedNumber

end HouseStyle
