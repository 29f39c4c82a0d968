import HouseStyle.Proofs.Json.Spelling

/-!
# Whole numbers in documents

The formulas of the library can be read over any type of numbers.  The least one in which numbers
are written as in a document are the whole numbers, with a point and a zero behind their digits.
They serve where a statement about all such types is to be seen at one of them.
-/

namespace HouseStyle

open Document

/-- The whole numbers, as numbers of a document: they are written with a point and a zero. -/
structure WholeNumber where
  /-- The number. -/
  value : Int
deriving DecidableEq

namespace WholeNumber

instance : Scalar WholeNumber where
  add x y := ⟨x.value + y.value⟩
  sub x y := ⟨x.value - y.value⟩
  mul x y := ⟨x.value * y.value⟩
  div x y := ⟨x.value / y.value⟩
  neg x := ⟨-x.value⟩
  ofScientific m negative k := ⟨if negative then m / Nat.pow 10 k else m * Nat.pow 10 k⟩
  ofCount n := ⟨n⟩
  le x y := decide (x.value ≤ y.value)
  lt x y := decide (x.value < y.value)
  same x y := decide (x.value = y.value)
  exp x := x
  sqrt x := ⟨x.value.toNat.sqrt⟩
  abs x := ⟨x.value.natAbs⟩
  isNaN _ := false
  isFinite _ := true
  wholePart x := x.value.toNat
  nearest x := x.value.toNat

instance : NumberText WholeNumber where
  message x := String.ofList (Json.wholeText x.value)
  document x := some (String.ofList (Json.wholeText x.value ++ ['.', '0']))
  configuration x := String.ofList (Json.wholeText x.value)
  fixed _ x := String.ofList (Json.wholeText x.value)
  ofDecimal? m k := some ⟨if k < 0 then m / Nat.pow 10 k.natAbs else m * Nat.pow 10 k.natAbs⟩

/-- The text of a whole number spells ten times the number with one place. -/
lemma signed?_wholeText_point (n : Int) :
    signed? (Json.wholeText n ++ ['.', '0'])
      = some (⟨decide (n < 0), n.natAbs * 10, -1, false⟩, []) := by
  have hpoint : ∀ c ∈ ['.', '0'].head?, c.isDigit = false := by simp
  have hvalue : digitsValue (Nat.toDigits 10 n.natAbs ++ ['0']) = n.natAbs * 10 := by
    have hds := digitsValue_toDigits n.natAbs
    rw [digitsValue] at hds ⊢
    rw [List.foldl_append, hds]
    rfl
  rw [Numeral.signed?_wholeText_append, numeral?_toDigits_append _ _ hpoint]
  simp [fraction?, exponent?, digits, hvalue]

instance : LawfulNumberText WholeNumber where
  spells x s hs := by
    obtain rfl := Option.some.inj hs
    exact ⟨_, by rw [String.toList_ofList, signed?_wholeText_point], rfl⟩
  reads_back x _ := by
    refine ⟨_, _, rfl, by rw [String.toList_ofList, signed?_wholeText_point], ?_⟩
    obtain ⟨n⟩ := x
    have hplace : ((n.natAbs * 10 : Nat) : Int) / (Nat.pow 10 (Int.natAbs (-1)) : Nat)
        = n.natAbs := by
      have hten : Nat.pow 10 (Int.natAbs (-1)) = 10 := rfl
      rw [hten]
      omega
    have hnegative : (-1 : Int) < 0 := by decide
    simp only [Numeral.real?, NumberText.ofDecimal?, Option.map_some, if_pos hnegative, hplace]
    by_cases hn : n < 0
    · have hvalue : -(n.natAbs : Int) = n := by omega
      rw [if_pos (decide_eq_true hn)]
      exact congrArg (fun k => some (WholeNumber.mk k)) hvalue
    · have hvalue : (n.natAbs : Int) = n := by omega
      rw [if_neg (by simpa using hn)]
      exact congrArg (fun k => some (WholeNumber.mk k)) hvalue

end WholeNumber

end HouseStyle
