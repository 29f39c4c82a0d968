import HouseStyle.Json.Shape
import HouseStyle.Json.Writer
import HouseStyle.Number.Reading
import Mathlib.Data.List.TakeWhile
import Mathlib.Data.Option.Basic

/-!
# Numbers inside documents

The reader of numbers looks at one character after the number, and nothing else of what follows
matters to it.  So a numeral that is read from a text of its own is also read where the text
stands inside a document, since there a comma, a bracket or a new line follows.  The digits of a
whole number are such a numeral.
-/

namespace HouseStyle

namespace Document

/-- What may follow a number: no character with which the number would go on. -/
def AfterNumber (rest : List Char) : Prop :=
  ∀ c ∈ rest.head?, c.isDigit = false ∧ c ≠ '.' ∧ c ≠ 'e' ∧ c ≠ 'E'

lemma afterNumber_nil : AfterNumber [] := by
  simp [AfterNumber]

lemma afterNumber_cons {c : Char} {rest : List Char} (hd : c.isDigit = false) (hp : c ≠ '.')
    (he : c ≠ 'e') (hE : c ≠ 'E') : AfterNumber (c :: rest) := by
  intro c' hc'
  obtain rfl : c = c' := by simpa using hc'
  exact ⟨hd, hp, he, hE⟩

/-! ### Digits -/

lemma digitsValue_eq (ds : List Char) : digitsValue ds = Nat.ofDigitChars 10 ds 0 := by
  rw [digitsValue, Nat.ofDigitChars_eq_foldl]
  congr 1
  funext n d
  rw [Nat.mul_comm]
  rfl

@[simp] lemma digitsValue_toDigits (n : Nat) : digitsValue (Nat.toDigits 10 n) = n := by
  rw [digitsValue_eq, Nat.ofDigitChars_ten_toDigits]

lemma isDigit_of_mem_toDigits {n : Nat} {c : Char} (h : c ∈ Nat.toDigits 10 n) :
    c.isDigit = true :=
  Nat.isDigit_of_mem_toDigits (by decide) (by decide) h

/-- Digits are cut off where they end, whatever follows. -/
lemma digits_append {cs rest : List Char} (h : ∀ c ∈ rest.head?, c.isDigit = false) :
    digits (cs ++ rest) = ((digits cs).1, (digits cs).2 ++ rest) := by
  induction cs with
  | nil =>
    cases rest with
    | nil => rfl
    | cons c rest =>
      have hc : c.isDigit = false := h c rfl
      simp [digits, hc]
  | cons c cs ih =>
    rw [digits, Prod.mk.injEq] at ih
    by_cases hc : c.isDigit = true
    · simp [digits, hc, ih.1, ih.2]
    · simp [digits, hc]

lemma digits_all {ds : List Char} (h : ∀ c ∈ ds, c.isDigit = true) : digits ds = (ds, []) := by
  have htake : ds.takeWhile Char.isDigit = ds := List.takeWhile_eq_self_iff.2 h
  have hdrop : ds.dropWhile Char.isDigit = [] := List.dropWhile_eq_nil_iff.2 h
  rw [digits, htake, hdrop]

/-- A zero stands only at the start of the digits of zero. -/
lemma head?_toDigits_ne_zero {n : Nat} (h : 0 < n) : (Nat.toDigits 10 n).head? ≠ some '0' := by
  induction n using Nat.strongRecOn with
  | ind n ih =>
    by_cases hn : n < 10
    · rw [Nat.toDigits_of_lt_base hn]
      have hall : ∀ m < 10, 0 < m → [Nat.digitChar m].head? ≠ some '0' := by decide
      exact hall n hn h
    · -- the first digit is that of the number without its last one
      have hdiv : 0 < n / 10 := Nat.div_pos (by omega) (by decide)
      rw [Nat.toDigits_of_base_le (by decide) (by omega)]
      obtain ⟨c, cs, hcs⟩ := List.exists_cons_of_ne_nil (@Nat.toDigits_ne_nil (n / 10) 10)
      have hih := ih (n / 10) (by omega) hdiv
      rw [hcs] at hih ⊢
      exact hih

/-! ### The parts of a number, with something behind them -/

lemma fraction?_of_head {cs : List Char} (h : ∀ c ∈ cs.head?, c ≠ '.') :
    fraction? cs = some ([], cs) := by
  rw [fraction?]
  rintro rest rfl
  exact h '.' rfl rfl

lemma fraction?_append {cs rest ds r : List Char} (hrest : AfterNumber rest)
    (h : fraction? cs = some (ds, r)) : fraction? (cs ++ rest) = some (ds, r ++ rest) := by
  have hdigit : ∀ c ∈ rest.head?, c.isDigit = false := fun c hc => (hrest c hc).1
  match cs with
  | [] =>
    obtain ⟨rfl, rfl⟩ : ds = [] ∧ r = [] := by simpa [fraction?, eq_comm] using h
    exact fraction?_of_head fun c hc => (hrest c hc).2.1
  | c :: cs =>
    by_cases hc : c = '.'
    · subst hc
      simp only [List.cons_append, fraction?, digits_append hdigit] at h ⊢
      split at h
      · simp at h
      next hds =>
        obtain ⟨rfl, rfl⟩ := Prod.mk.inj (Option.some.inj h)
        rw [if_neg hds]
    · have hhead : ∀ xs, ∀ d ∈ (c :: xs).head?, d ≠ '.' := by
        rintro xs d hd
        obtain rfl : c = d := by simpa using hd
        exact hc
      rw [fraction?_of_head (hhead cs)] at h
      obtain ⟨rfl, rfl⟩ : [] = ds ∧ c :: cs = r := by simpa using h
      exact fraction?_of_head (hhead (cs ++ rest))

lemma exponent?_of_head {cs : List Char} (h : ∀ c ∈ cs.head?, c ≠ 'e' ∧ c ≠ 'E') :
    exponent? cs = some (none, cs) := by
  cases cs with
  | nil => rfl
  | cons c cs =>
    have hc := h c rfl
    simp [exponent?, hc.1, hc.2]

lemma exponent?_cons {c : Char} (hc : c = 'e' ∨ c = 'E') (cs : List Char) :
    exponent? (c :: cs) =
      if (digits (Number.sign cs).2).1.isEmpty then none
      else some (some (if (Number.sign cs).1 then -(digitsValue (digits (Number.sign cs).2).1 : Int)
        else digitsValue (digits (Number.sign cs).2).1), (digits (Number.sign cs).2).2) := by
  simp only [exponent?, if_pos hc]
  rfl

lemma sign_append {cs : List Char} (h : cs ≠ []) (rest : List Char) :
    Number.sign (cs ++ rest) = ((Number.sign cs).1, (Number.sign cs).2 ++ rest) := by
  obtain ⟨c, cs, rfl⟩ := List.exists_cons_of_ne_nil h
  unfold Number.sign
  split <;> simp_all

lemma exponent?_append {cs rest r : List Char} {e : Option Int} (hrest : AfterNumber rest)
    (h : exponent? cs = some (e, r)) : exponent? (cs ++ rest) = some (e, r ++ rest) := by
  match cs with
  | [] =>
    obtain ⟨rfl, rfl⟩ : none = e ∧ [] = r := by simpa [exponent?] using h
    exact exponent?_of_head fun c hc => (hrest c hc).2.2
  | c :: cs =>
    by_cases hc : c = 'e' ∨ c = 'E'
    · rw [exponent?_cons hc] at h
      split at h
      · simp at h
      next hds =>
        have hcs : cs ≠ [] := by
          rintro rfl
          exact hds rfl
        obtain ⟨rfl, rfl⟩ := Prod.mk.inj (Option.some.inj h)
        rw [List.cons_append, exponent?_cons hc, sign_append hcs,
          digits_append fun c hc => (hrest c hc).1, if_neg hds]
    · have hhead : ∀ xs, ∀ d ∈ (c :: xs).head?, d ≠ 'e' ∧ d ≠ 'E' := by
        rintro xs d hd
        obtain rfl : c = d := by simpa using hd
        exact not_or.1 hc
      rw [exponent?_of_head (hhead cs)] at h
      obtain ⟨rfl, rfl⟩ : none = e ∧ c :: cs = r := by simpa using h
      exact exponent?_of_head (hhead (cs ++ rest))

/-- A number is read in the same way when something else follows it. -/
lemma numeral?_append {b : Bool} {cs rest r : List Char} {n : Numeral} (hrest : AfterNumber rest)
    (h : numeral? b cs = some (n, r)) : numeral? b (cs ++ rest) = some (n, r ++ rest) := by
  have hdigit : ∀ c ∈ rest.head?, c.isDigit = false := fun c hc => (hrest c hc).1
  simp only [numeral?, digits_append hdigit, Option.bind_eq_bind, Option.bind_eq_some_iff,
    Option.pure_def, Option.some.injEq, Prod.exists, Prod.mk.injEq] at h ⊢
  obtain ⟨_, hne, _, hzero, places, afterPlaces, hplaces, power, afterPower, hpower, rfl, rfl⟩ := h
  exact ⟨_, hne, _, hzero, places, afterPlaces ++ rest, fraction?_append hrest hplaces, power,
    afterPower ++ rest, exponent?_append hrest hpower, rfl, rfl⟩

/-! ### Numbers with a sign -/

/-- A number with its sign, and what follows it. -/
def signed? : List Char → Option (Numeral × List Char)
  | '-' :: rest => numeral? true rest
  | rest => numeral? false rest

lemma signed?_of_head {cs : List Char} (h : ∀ c ∈ cs.head?, c ≠ '-') :
    signed? cs = numeral? false cs := by
  rw [signed?]
  rintro rest rfl
  exact h '-' rfl rfl

lemma exists_digit_of_numeral? {b : Bool} {cs r : List Char} {n : Numeral}
    (h : numeral? b cs = some (n, r)) : ∃ c rest, cs = c :: rest ∧ c.isDigit = true := by
  -- a number without digits is refused
  have hne : (digits cs).1 ≠ [] := by
    intro hnil
    simp [numeral?, hnil, guard, failure] at h
  cases cs with
  | nil => exact absurd rfl hne
  | cons c cs =>
    refine ⟨c, cs, rfl, ?_⟩
    by_contra hc
    exact hne (by simp [digits, hc])

/-- A number starts with a minus sign or a digit. -/
lemma exists_head_of_signed? {cs r : List Char} {n : Numeral} (h : signed? cs = some (n, r)) :
    ∃ c rest, cs = c :: rest ∧ (c = '-' ∨ c.isDigit = true) := by
  by_cases hc : cs.head? = some '-'
  · obtain ⟨rest, rfl⟩ := List.head?_eq_some_iff.1 hc
    exact ⟨'-', rest, rfl, Or.inl rfl⟩
  · have hhead : ∀ c ∈ cs.head?, c ≠ '-' := by
      rintro c hmem rfl
      exact hc hmem
    rw [signed?_of_head hhead] at h
    obtain ⟨d, rest, rfl, hd⟩ := exists_digit_of_numeral? h
    exact ⟨d, rest, rfl, Or.inr hd⟩

lemma signed?_append {cs rest r : List Char} {n : Numeral} (hrest : AfterNumber rest)
    (h : signed? cs = some (n, r)) : signed? (cs ++ rest) = some (n, r ++ rest) := by
  obtain ⟨c, cs, rfl, -⟩ := exists_head_of_signed? h
  by_cases hc : c = '-'
  · subst hc
    exact numeral?_append hrest h
  · rw [signed?_of_head (by simpa using hc)] at h
    rw [signed?_of_head (by simpa using hc)]
    exact numeral?_append hrest h

/-- The digits of a number are its digits before the point. -/
lemma numeral?_toDigits_append (b : Bool) (n : Nat) {rest : List Char}
    (hrest : ∀ c ∈ rest.head?, c.isDigit = false) :
    numeral? b (Nat.toDigits 10 n ++ rest) = (fraction? rest).bind fun found =>
      (exponent? found.2).bind fun power =>
        some (⟨b, digitsValue (Nat.toDigits 10 n ++ found.1), power.1.getD 0 - found.1.length,
          found.1.isEmpty && power.1.isNone⟩, power.2) := by
  have hzero : (Nat.toDigits 10 n).head? ≠ some '0' ∨ (Nat.toDigits 10 n).length = 1 := by
    rcases Nat.eq_zero_or_pos n with rfl | hn
    · exact Or.inr rfl
    · exact Or.inl (head?_toDigits_ne_zero hn)
  have hdigits : digits (Nat.toDigits 10 n ++ rest) = (Nat.toDigits 10 n, rest) := by
    rw [digits_append hrest, digits_all fun c hc => isDigit_of_mem_toDigits hc]
    rfl
  rw [numeral?, hdigits]
  simp [guard, hzero, Nat.toDigits_ne_nil]

lemma numeral?_toDigits (b : Bool) (n : Nat) :
    numeral? b (Nat.toDigits 10 n) = some (⟨b, n, 0, true⟩, []) := by
  have hnil : ∀ c ∈ ([] : List Char).head?, c.isDigit = false := by simp
  simpa [fraction?, exponent?] using numeral?_toDigits_append b n hnil

end Document

namespace Numeral

/-- The numeral of a whole number. -/
def ofInt (n : Int) : Numeral := ⟨decide (n < 0), n.natAbs, 0, true⟩

@[simp] lemma int?_ofInt (n : Int) : (ofInt n).int? = some n := by
  by_cases hn : n < 0
  · have hpos : n.natAbs ≠ 0 := by omega
    have hmantissa : (-(n.natAbs : Int)) = n := by omega
    simp only [int?, ofInt, hn, hpos, hmantissa, decide_true, Bool.true_and,
      Bool.not_eq_true', beq_eq_false_iff_ne, ne_eq, not_false_eq_true, if_true]
  · have hmantissa : (n.natAbs : Int) = n := by omega
    simp only [int?, ofInt, hn, hmantissa, decide_false, Bool.false_and, Bool.not_false,
      Bool.and_true, if_true, Bool.false_eq_true, if_false]

/-- The sign of a whole number is read first. -/
lemma signed?_wholeText_append (n : Int) (rest : List Char) :
    Document.signed? (Json.wholeText n ++ rest)
      = Document.numeral? (decide (n < 0)) (Nat.toDigits 10 n.natAbs ++ rest) := by
  by_cases hn : n < 0
  · rw [Json.wholeText, if_pos hn, List.cons_append, decide_eq_true hn]
    rfl
  · rw [Json.wholeText, if_neg hn, Document.signed?_of_head, decide_eq_false hn]
    intro c hc h
    have hmem : c ∈ Nat.toDigits 10 n.natAbs := by
      obtain ⟨d, ds, hds⟩ := List.exists_cons_of_ne_nil (@Nat.toDigits_ne_nil n.natAbs 10)
      rw [hds] at hc ⊢
      simp_all
    have hd := Document.isDigit_of_mem_toDigits hmem
    simp [h] at hd

/-- The digits of a whole number are read as its numeral. -/
lemma signed?_wholeText (n : Int) :
    Document.signed? (Json.wholeText n) = some (ofInt n, []) := by
  have h := signed?_wholeText_append n []
  rw [List.append_nil, List.append_nil, Document.numeral?_toDigits] at h
  exact h

end Numeral

end HouseStyle
