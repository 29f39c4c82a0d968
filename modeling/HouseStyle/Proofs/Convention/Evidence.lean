import HouseStyle.Proofs.Convention.Bounds
import HouseStyle.Proofs.Convention.Confidence
import HouseStyle.Proofs.Convention.Floor
import Mathlib.Analysis.Complex.Exponential

/-!
# More evidence

In exact numbers confidence rises with the share of the observations that agree, whatever positive
and increasing function stands for the exponential one.  So what a tally shows it goes on showing,
with more confidence, when its dominant label is observed again (`Convention.ofTally?_addTimes`).
-/

namespace HouseStyle

/-! ### The dominant label -/

namespace Tally

variable {t : Tally} {label : String} {count : Nat}

/-- The dominant label stays the dominant one when it is observed again. -/
lemma Leads.addTimes (h : t.Leads label count) (n : Nat) :
    (t.addTimes label n).Leads label (count + n) where
  positive := Nat.add_pos_left h.positive n
  get_eq := by rw [get_addTimes, if_pos rfl, h.get_eq]
  most l := by
    have hl := h.most l
    rw [get_addTimes]
    split_ifs <;> omega
  first l hl := by
    rw [get_addTimes] at hl
    split_ifs at hl with heq
    · exact heq ▸ List.le_refl _
    · have hmost := h.most l
      exact h.first l (by omega)

lemma Leads.le_total (h : t.Leads label count) : count ≤ t.total :=
  h.dominantCount_eq ▸ t.dominantCount_le_total

end Tally

namespace Convention

/-- Whatever it takes to be reported: what is still reported when the dominant label was observed
again has the same label, and a frequency that is higher by the number of new observations. -/
lemma eq_of_ofTally?_addTimes {α : Type} [Scalar α] {accept : Acceptance α} {kind : ConventionKind}
    {name label : String} {tally : Tally} {examples : List String} {n : Nat}
    {c c' : Convention α} (h : ofTally? accept kind name tally examples = some c)
    (hlabel : c.value = .text label)
    (h' : ofTally? accept kind name (tally.addTimes label n) examples = some c') :
    c' = { c with confidence := c'.confidence, frequency := c.frequency + n } := by
  obtain ⟨l, count, hleads, -, -, rfl⟩ := ofTally?_eq_some_iff.1 h
  obtain ⟨l', count', hleads', -, -, rfl⟩ := ofTally?_eq_some_iff.1 h'
  obtain rfl : l = label := ConventionValue.text.inj hlabel
  obtain ⟨rfl, rfl⟩ := hleads'.unique (hleads.addTimes n)
  rfl

open ExactNumber

variable {exp : ℝ → ℝ} {k : ℝ}

/-! ### The curve of confidence -/

lemma curve_mono (hpos : ∀ x, 0 < exp x) (hexp : Monotone exp) (hk : 0 ≤ k) :
    Monotone (curve exp k) := by
  intro s t hst
  have hle : exp (-k * (t - 1 / 2)) ≤ exp (-k * (s - 1 / 2)) :=
    hexp (mul_le_mul_of_nonpos_left (by linarith) (by linarith))
  have ht := hpos (-k * (t - 1 / 2))
  rw [curve, curve]
  exact one_div_le_one_div_of_le (by linarith) (by linarith)

lemma share_mono_left {m m' : Nat} (n : Nat) (h : m ≤ m') : (m : ℝ) / n ≤ m' / n :=
  div_le_div_of_nonneg_right (Nat.cast_le.2 h) (Nat.cast_nonneg n)

lemma share_anti_right (m : Nat) {n n' : Nat} (hn : 0 < n) (h : n ≤ n') :
    (m : ℝ) / n' ≤ m / n :=
  div_le_div_of_nonneg_left (Nat.cast_nonneg m) (Nat.cast_pos.2 hn) (Nat.cast_le.2 h)

/-- A share grows when as much is added to the part as to the whole. -/
lemma share_le_share_add {m n : Nat} (hn : 0 < n) (h : m ≤ n) (i : Nat) :
    (m : ℝ) / n ≤ (m + i : Nat) / (n + i : Nat) := by
  have hmn : (m : ℝ) ≤ n := Nat.cast_le.2 h
  have hn' : (0 : ℝ) < n := Nat.cast_pos.2 hn
  have hi : (0 : ℝ) ≤ i := Nat.cast_nonneg i
  push_cast
  rw [div_le_div_iff₀ hn' (by linarith)]
  nlinarith

/-- A greater share of the observations gives no less confidence. -/
lemma shareConfidence_le (hpos : ∀ x, 0 < exp x) (hexp : Monotone exp) (hk : 0 ≤ k)
    {m n m' n' : Nat} (hn : 0 < n) (hn' : 0 < n') (h : (m : ℝ) / n ≤ m' / n') :
    Scalar.le (shareConfidence m n (⟨some k⟩ : ExactNumber exp)) (shareConfidence m' n' ⟨some k⟩)
      = true := by
  rw [shareConfidence_some hpos k m hn, shareConfidence_some hpos k m' hn', le_some]
  exact curve_mono hpos hexp hk h

/-- What a tally shows it goes on showing when its dominant label is observed again: the confidence
does not fall, and the frequency rises by the number of new observations. -/
lemma ofTally?_addTimes (hpos : ∀ x, 0 < exp x) (hexp : Monotone exp) (hk : 0 ≤ k)
    {floor : ExactNumber exp} {kind : ConventionKind} {name : String} {tally : Tally}
    {examples : List String} {c : Convention (ExactNumber exp)}
    (h : ofTally? ⟨floor, ⟨some k⟩⟩ kind name tally examples = some c) :
    ∃ label, c.value = .text label ∧ tally.Leads label c.frequency ∧
      ∀ n, ∃ confidence, Scalar.le c.confidence confidence = true ∧
        ofTally? ⟨floor, ⟨some k⟩⟩ kind name (tally.addTimes label n) examples
          = some { c with confidence, frequency := c.frequency + n } := by
  obtain ⟨label, count, hleads, hshare, hconfidence, rfl⟩ := ofTally?_eq_some_iff.1 h
  refine ⟨label, rfl, hleads, fun n => ?_⟩
  have htotal : 0 < tally.total := Nat.lt_of_lt_of_le hleads.positive hleads.le_total
  have htotal' : 0 < tally.total + n := Nat.add_pos_left htotal n
  have hgrows : (count : ℝ) / tally.total ≤ (count + n : Nat) / (tally.total + n : Nat) :=
    share_le_share_add htotal hleads.le_total n
  have hsteeper := shareConfidence_le hpos hexp hk htotal htotal' hgrows
  refine ⟨Scalar.clampUnit (shareConfidence (count + n) (tally.total + n) ⟨some k⟩), ?_, ?_⟩
  · rw [make, clampUnit_shareConfidence, clampUnit_shareConfidence]
    exact hsteeper
  · -- both tests were passed with less
    refine ofTally?_eq_some_iff.2 ⟨label, count + n, hleads.addTimes n, ?_, ?_, ?_⟩
    · rw [Tally.total_addTimes]
      rw [← Bool.not_eq_true] at hshare ⊢
      refine fun hle => hshare (OrderedScalar.le_trans ?_ hle)
      rw [share_some _ htotal, share_some _ htotal', le_some]
      exact hgrows
    · rw [Tally.total_addTimes]
      rw [← Bool.not_eq_true] at hconfidence ⊢
      exact fun hlt => hconfidence (OrderedScalar.lt_of_le_of_lt hsteeper hlt)
    · rw [Tally.total_addTimes]
      rfl

/-- More evidence never weakens a convention.  Where confidence rises with the share, it lies in the
unit interval, does not fall when more observations agree and does not rise when more are made; what
a tally shows it goes on showing when its dominant label is observed again, with the same label, no
less confidence and a frequency that is higher by the number of new observations.  The label and the
frequency do so whatever it takes to be reported. -/
theorem evidence_strengthens (hpos : ∀ x, 0 < exp x) (hexp : Monotone exp) (hk : 0 ≤ k) :
    (∀ count total : Nat, count ≤ total → 0 < total →
      Scalar.within 0.0 1.0 (shareConfidence count total (⟨some k⟩ : ExactNumber exp)) = true) ∧
    (∀ count count' total : Nat, count ≤ count' → count' ≤ total → 0 < total →
      Scalar.le (shareConfidence count total (⟨some k⟩ : ExactNumber exp))
        (shareConfidence count' total ⟨some k⟩) = true) ∧
    (∀ count total total' : Nat, count ≤ total → 0 < total → total ≤ total' →
      Scalar.le (shareConfidence count total' (⟨some k⟩ : ExactNumber exp))
        (shareConfidence count total ⟨some k⟩) = true) ∧
    (∀ (floor : ExactNumber exp) (kind : ConventionKind) (name : String) (tally : Tally)
      (examples : List String) (c : Convention (ExactNumber exp)),
      ofTally? ⟨floor, ⟨some k⟩⟩ kind name tally examples = some c →
      ∃ label, c.value = .text label ∧ tally.dominant? = some (label, c.frequency) ∧
        ∀ n, ∃ confidence, Scalar.le c.confidence confidence = true ∧
          ofTally? ⟨floor, ⟨some k⟩⟩ kind name (tally.addTimes label n) examples
            = some { c with confidence, frequency := c.frequency + n }) ∧
    ∀ (accept : Acceptance (ExactNumber exp)) (kind : ConventionKind) (name label : String)
      (tally : Tally) (examples : List String) (n : Nat) (c c' : Convention (ExactNumber exp)),
      ofTally? accept kind name tally examples = some c → c.value = .text label →
      ofTally? accept kind name (tally.addTimes label n) examples = some c' →
      c' = { c with confidence := c'.confidence, frequency := c.frequency + n } := by
  refine ⟨fun count total _ _ => ?_, fun count count' total h _ htotal => ?_,
    fun count total total' _ htotal h => ?_, fun floor kind name tally examples c h => ?_,
    fun _ _ _ _ _ _ _ _ _ h hlabel h' => eq_of_ofTally?_addTimes h hlabel h'⟩
  · rw [← clampUnit_shareConfidence]
    exact Scalar.within_clampUnit _
  · exact shareConfidence_le hpos hexp hk htotal htotal (share_mono_left total h)
  · exact shareConfidence_le hpos hexp hk (Nat.lt_of_lt_of_le htotal h) htotal
      (share_anti_right count htotal h)
  · obtain ⟨label, hvalue, hleads, hmore⟩ := ofTally?_addTimes hpos hexp hk h
    exact ⟨label, hvalue, Tally.dominant?_eq_some_iff.2 hleads, hmore⟩

/-- Of ten names nine are in snake case, which is reported at the floor and the steepness that are
set in the first place; five more such names make it fourteen. -/
theorem evidence_strengthens_snakeCase :
    let accept : Acceptance (ExactNumber Real.exp) := ⟨⟨some (6 / 10)⟩, ⟨some 10⟩⟩
    let tally := Tally.ofCounts [("snake_case", 9), ("camelCase", 1)]
    (∀ x, 0 < Real.exp x) ∧ Monotone Real.exp ∧ (0 : ℝ) ≤ 10 ∧
    Scalar.within 0.0 1.0 (shareConfidence 9 10 accept.steepness) = true ∧
    Scalar.le (shareConfidence 9 10 accept.steepness) (shareConfidence 10 10 accept.steepness)
      = true ∧
    Scalar.le (shareConfidence 9 12 accept.steepness) (shareConfidence 9 10 accept.steepness)
      = true ∧
    ∃ c, ofTally? accept .naming "function_naming" tally [] = some c ∧
      c.value = .text "snake_case" ∧ c.frequency = 9 ∧
      ∃ c', ofTally? accept .naming "function_naming" (tally.addTimes "snake_case" 5) [] = some c' ∧
        c'.value = .text "snake_case" ∧ c'.frequency = 14 ∧
        Scalar.le c.confidence c'.confidence = true := by
  intro accept tally
  have hdominant : tally.dominant? = some ("snake_case", 9) := by decide +kernel
  have htotal : tally.total = 10 := by decide +kernel
  have hexp : Real.exp (-10 * (9 / 10 - 1 / 2)) ≤ 1 / 5 := by
    have hbound := Real.add_one_le_exp 4
    rw [show (-10 * (9 / 10 - 1 / 2) : ℝ) = -4 by norm_num, Real.exp_neg, inv_eq_one_div]
    exact one_div_le_one_div_of_le (by norm_num) (by linarith)
  have hcurve : 6 / 10 ≤ curve Real.exp 10 (9 / 10) := by
    rw [curve, le_div_iff₀ (by linarith [Real.exp_pos (-10 * (9 / 10 - 1 / 2))])]
    linarith
  have hc : ofTally? accept .naming "function_naming" tally [] = some (make .naming
      "function_naming" (.text "snake_case") (shareConfidence 9 10 accept.steepness) 9 []) := by
    refine ofTally?_eq_some_iff.2 ⟨"snake_case", 9, Tally.leads_of_dominant? hdominant, ?_, ?_, ?_⟩
    · rw [htotal, share_some 9 (by decide), ← Bool.not_eq_true, le_some]
      norm_num
    · rw [htotal, shareConfidence_some Real.exp_pos 10 9 (by decide), ← Bool.not_eq_true, lt_some,
        not_lt]
      exact_mod_cast hcurve
    · rw [htotal]
  obtain ⟨hunit, hcount, htotals, hmore, -⟩ :=
    evidence_strengthens Real.exp_pos Real.exp_monotone (by norm_num : (0 : ℝ) ≤ 10)
  obtain ⟨label, hlabel, -, hgrows⟩ := hmore _ _ _ _ _ _ hc
  obtain rfl := ConventionValue.text.inj hlabel
  obtain ⟨confidence, hle, hc'⟩ := hgrows 5
  exact ⟨Real.exp_pos, Real.exp_monotone, by norm_num, hunit 9 10 (by decide) (by decide),
    hcount 9 10 10 (by decide) (by decide) (by decide),
    htotals 9 10 12 (by decide) (by decide) (by decide), _, hc, rfl, rfl, _, hc', rfl, rfl, hle⟩

end Convention

end HouseStyle
