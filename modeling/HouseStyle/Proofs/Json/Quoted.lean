import HouseStyle.Json.Document
import HouseStyle.Json.Writer
import Mathlib.Tactic.Common

/-!
# Texts in quotes

A character is written inside quotes as itself or as an escape, and either way it is read as one
unit of the text.  A control character without a short escape is written by its number, which is
never half of a character, so every text is read back.
-/

namespace HouseStyle

namespace Document

/-- The unit as which a character of a written text is read. -/
def unitOf (c : Char) : Char ⊕ Nat :=
  if c.toNat < 32 ∧ Json.shortEscape? c = none then .inr c.toNat else .inl c

lemma hexValue?_hexDigit (n : Nat) : hexValue? (Json.hexDigit n) = some (n % 16) := by
  have hall : ∀ d < 16, hexValue? (Nat.digitChar d) = some d := by decide
  exact hall (n % 16) (Nat.mod_lt n (by decide))

/-- A number below 256 is read from two zeros and its two digits. -/
lemma hexFour?_hexDigit {n : Nat} (h : n < 256) (rest : List Char) :
    hexFour? ('0' :: '0' :: Json.hexDigit (n / 16) :: Json.hexDigit n :: rest)
      = some (n, rest) := by
  have hzero : hexValue? '0' = some 0 := by decide
  simp only [hexFour?, hzero, hexValue?_hexDigit, Option.bind_eq_bind, Option.bind_some,
    Option.pure_def, Option.some.injEq, Prod.mk.injEq, and_true]
  omega

lemma simpleEscape?_of_shortEscape? {c e : Char} (h : Json.shortEscape? c = some e) :
    simpleEscape? e = some c ∧ e ≠ 'u' := by
  unfold Json.shortEscape? at h
  split_ifs at h with h₁ h₂ h₃ h₄ h₅ <;> obtain rfl := Option.some.inj h <;> subst_vars <;> decide

lemma units?_simple {c e : Char} (h : simpleEscape? e = some c) (hu : e ≠ 'u') (fuel : Nat)
    (rest : List Char) :
    units? (fuel + 1) ('\\' :: e :: rest) = (units? fuel rest).map fun r =>
      (.inl c :: r.1, r.2) := by
  rw [units?]
  · simp only [Char.reduceEq, if_false, if_true, h]
    cases units? fuel rest <;> simp
  · exact hu

lemma units?_numbered {n : Nat} (h : n < 256) (fuel : Nat) (rest : List Char) :
    units? (fuel + 1)
        ('\\' :: 'u' :: '0' :: '0' :: Json.hexDigit (n / 16) :: Json.hexDigit n :: rest)
      = (units? fuel rest).map fun r => (.inr n :: r.1, r.2) := by
  rw [units?]
  simp only [Char.reduceEq, if_false, if_true, hexFour?_hexDigit h]
  cases hr : units? fuel rest <;> simp [hr]

lemma units?_plain {c : Char} (hq : c ≠ '\x22') (hs : c ≠ '\\') (hc : ¬ c.toNat < 32) (fuel : Nat)
    (rest : List Char) :
    units? (fuel + 1) (c :: rest) = (units? fuel rest).map fun r => (.inl c :: r.1, r.2) := by
  rw [units?.eq_def]
  simp only [if_neg hq, if_neg hs, if_neg hc]
  cases units? fuel rest <;> simp

/-- The escape of a character is read as its unit. -/
lemma units?_escapeChar (c : Char) (fuel : Nat) (rest : List Char) :
    units? (fuel + 1) (Json.escapeChar c ++ rest)
      = (units? fuel rest).map fun r => (unitOf c :: r.1, r.2) := by
  by_cases hq : c = '\x22' ∨ c = '\\'
  · have hunit : unitOf c = .inl c := by
      rcases hq with rfl | rfl <;> rfl
    have hsimple : simpleEscape? c = some c := by
      rcases hq with rfl | rfl <;> rfl
    have hu : c ≠ 'u' := by
      rcases hq with rfl | rfl <;> decide
    rw [Json.escapeChar, if_pos hq, hunit]
    exact units?_simple hsimple hu fuel rest
  · by_cases hc : c.toNat < 32
    · rw [Json.escapeChar, if_neg hq, if_pos hc]
      cases hshort : Json.shortEscape? c with
      | some e =>
        have hunit : unitOf c = .inl c := by simp [unitOf, hshort]
        obtain ⟨hsimple, hu⟩ := simpleEscape?_of_shortEscape? hshort
        rw [hunit]
        exact units?_simple hsimple hu fuel rest
      | none =>
        have hunit : unitOf c = .inr c.toNat := by simp [unitOf, hshort, hc]
        rw [hunit]
        exact units?_numbered (by omega) fuel rest
    · have hunit : unitOf c = .inl c := by simp [unitOf, hc]
      rw [Json.escapeChar, if_neg hq, if_neg hc, hunit]
      exact units?_plain (fun h => hq (Or.inl h)) (fun h => hq (Or.inr h)) hc fuel rest

/-- The units of a written text, up to its closing quote. -/
lemma units?_escaped (cs rest : List Char) {fuel : Nat} (hfuel : cs.length < fuel) :
    units? fuel (cs.flatMap Json.escapeChar ++ '\x22' :: rest) = some (cs.map unitOf, rest) := by
  induction cs generalizing fuel with
  | nil =>
    obtain ⟨fuel, rfl⟩ := Nat.exists_eq_add_one_of_ne_zero (Nat.ne_of_gt hfuel)
    simp [units?]
  | cons c cs ih =>
    obtain ⟨fuel, rfl⟩ := Nat.exists_eq_add_one_of_ne_zero (Nat.ne_of_gt (Nat.zero_lt_of_lt hfuel))
    rw [List.flatMap_cons, List.append_assoc, units?_escapeChar,
      ih (Nat.lt_of_succ_lt_succ hfuel)]
    rfl

lemma joinUnits?_unitOf (cs : List Char) : joinUnits? (cs.map unitOf) = some cs := by
  induction cs with
  | nil => rfl
  | cons c cs ih =>
    by_cases hc : c.toNat < 32 ∧ Json.shortEscape? c = none
    · -- a control character is no half of a pair
      have hunit : unitOf c = .inr c.toNat := if_pos hc
      have hhigh : isHighHalf c.toNat = false := by simp [isHighHalf]; omega
      have hlow : isLowHalf c.toNat = false := by simp [isLowHalf]; omega
      rw [List.map_cons, hunit, joinUnits?.eq_def]
      simp [hhigh, hlow, ih]
    · have hunit : unitOf c = .inl c := if_neg hc
      rw [List.map_cons, hunit, joinUnits?, ih]
      rfl

lemma length_le_escaped (cs : List Char) : cs.length ≤ (cs.flatMap Json.escapeChar).length := by
  induction cs with
  | nil => exact Nat.le_refl _
  | cons c cs ih =>
    have hpos : 0 < (Json.escapeChar c).length := by
      unfold Json.escapeChar
      split_ifs
      · simp
      · split <;> simp
      · simp
    simp only [List.length_cons, List.flatMap_cons, List.length_append]
    omega

/-- A text in quotes is read back, whatever follows it. -/
lemma textBody?_quote (s : String) (rest : List Char) :
    textBody? (s.toList.flatMap Json.escapeChar ++ '\x22' :: rest) = some (some s, rest) := by
  have hlen := length_le_escaped s.toList
  have hfuel : s.toList.length
      < (s.toList.flatMap Json.escapeChar ++ '\x22' :: rest).length + 1 := by
    rw [List.length_append]
    omega
  rw [textBody?, units?_escaped s.toList rest hfuel]
  simp [joinUnits?_unitOf]

end Document

end HouseStyle
