import HouseStyle.Proofs.Convention.Catalog
import HouseStyle.Proofs.Number.Exact
import Mathlib.Tactic.Linarith

/-!
# Confidence in exact numbers

In exact numbers confidence lies on the curve that its formula describes, since nothing is cut off
there: a function that only takes positive values keeps the curve inside of the unit interval.  So a
label that more than half of the names agree on becomes a convention where the floor is one half.
-/

namespace HouseStyle

namespace ExactNumber

variable {exp : ℝ → ℝ} {a : ℝ}

lemma clampUnit_some (h0 : 0 ≤ a) (h1 : a ≤ 1) :
    Scalar.clampUnit (⟨some a⟩ : ExactNumber exp) = ⟨some a⟩ := by
  have hnan : Scalar.isNaN (⟨some a⟩ : ExactNumber exp) = false := rfl
  have hlow : Scalar.lt (⟨some a⟩ : ExactNumber exp) 0.0 = false := by
    rw [zero_eq, ← Bool.not_eq_true, lt_some, not_lt]
    exact h0
  have hhigh : Scalar.lt (1.0 : ExactNumber exp) ⟨some a⟩ = false := by
    rw [one_eq, ← Bool.not_eq_true, lt_some, not_lt]
    exact h1
  simp [Scalar.clampUnit, Scalar.clamp, hnan, hlow, hhigh]

lemma share_some (m : Nat) {n : Nat} (hn : 0 < n) :
    (Scalar.share m n : ExactNumber exp) = ⟨some (m / n)⟩ := by
  rw [Scalar.share, if_neg (by omega), div_count m hn]

end ExactNumber

namespace Convention

open ExactNumber

variable {exp : ℝ → ℝ}

/-- The curve on which confidence lies. -/
noncomputable def curve (exp : ℝ → ℝ) (k share : ℝ) : ℝ := 1 / (1 + exp (-k * (share - 1 / 2)))

lemma curve_mem_unit (hexp : ∀ x, 0 < exp x) (k share : ℝ) :
    0 ≤ curve exp k share ∧ curve exp k share ≤ 1 := by
  have hpos := hexp (-k * (share - 1 / 2))
  rw [curve]
  constructor
  · positivity
  · rw [div_le_one (by positivity)]
    linarith

/-- Confidence is the point of the curve above the share. -/
lemma shareConfidence_some (hexp : ∀ x, 0 < exp x) (k : ℝ) (m : Nat) {n : Nat} (hn : 0 < n) :
    shareConfidence m n (⟨some k⟩ : ExactNumber exp) = ⟨some (curve exp k (m / n))⟩ := by
  have hpos := hexp (-k * ((m : ℝ) / n - 1 / 2))
  have hhalf : (0.5 : ExactNumber exp) = ⟨some (1 / 2)⟩ := by
    rw [tenths]
    norm_num
  have hcurve : (1.0 / (1.0 + Scalar.exp (-(⟨some k⟩ : ExactNumber exp)
      * (Scalar.share m n - 0.5))) : ExactNumber exp) = ⟨some (curve exp k (m / n))⟩ := by
    rw [share_some m hn, hhalf, one_eq]
    change (⟨some 1⟩ / ⟨some (1 + exp (-k * ((m : ℝ) / n - 1 / 2)))⟩ : ExactNumber exp) = _
    rw [div_some (by positivity), curve]
  rw [shareConfidence, if_neg (by omega), hcurve]
  exact clampUnit_some (curve_mem_unit hexp _ _).1 (curve_mem_unit hexp _ _).2

/-- What more than half of the names of a kind agree on is a convention where the floor is one half.
-/
lemma exists_naming {facts : LanguageFacts} {kind : NameKind} {label : String} {k : ℝ} {m n : Nat}
    (hpos : ∀ x, 0 < exp x) (hone : ∀ x ≤ 0, exp x ≤ 1) (hk : 0 ≤ k)
    (hdominant : (Names.styleTally (facts.names.get kind)).dominant? = some (label, m))
    (htotal : (Names.styleTally (facts.names.get kind)).total = n) (hn : 0 < n)
      (hhalf : n < 2 * m) :
    ∃ c ∈ allObserved (⟨⟨some (1 / 2)⟩, ⟨some k⟩⟩ : Acceptance (ExactNumber exp)) facts,
      c.kind = .naming ∧ c.name = kind.convention ∧ c.value = .text label ∧
      1 / 2 ≤ curve exp k (m / n) ∧ c.confidence = ⟨some (curve exp k (m / n))⟩ := by
  have hshare : (1 : ℝ) / 2 < m / n := by
    have hnm : (n : ℝ) < 2 * m := by exact_mod_cast hhalf
    rw [lt_div_iff₀ (by exact_mod_cast hn)]
    linarith
  have hcurve : 1 / 2 ≤ curve exp k (m / n) := by
    have hexp : exp (-k * ((m : ℝ) / n - 1 / 2)) ≤ 1 :=
      hone _ (mul_nonpos_of_nonpos_of_nonneg (by linarith) (by linarith))
    have hexp' := hpos (-k * ((m : ℝ) / n - 1 / 2))
    rw [curve, div_le_div_iff_of_pos_left one_pos two_pos (by positivity)]
    linarith
  obtain ⟨examples, hmade⟩ : ∃ examples,
      ofNames? (⟨⟨some (1 / 2)⟩, ⟨some k⟩⟩ : Acceptance (ExactNumber exp)) kind
        (facts.names.get kind) = some (make .naming kind.convention (.text label)
          ⟨some (curve exp k (m / n))⟩ m examples) := by
    refine ⟨namesOfStyle label (facts.names.get kind), ?_⟩
    rw [ofNames?, ofTally?_eq_some_iff, htotal, hdominant]
    refine ⟨label, m, Tally.leads_of_dominant? hdominant, ?_, ?_, ?_⟩
    · rw [share_some m hn, ← Bool.not_eq_true, le_some, not_le]
      exact hshare
    · rw [shareConfidence_some hpos k m hn, ← Bool.not_eq_true, lt_some, not_lt]
      exact hcurve
    · rw [shareConfidence_some hpos k m hn]
  have hclamp : Scalar.clampUnit (⟨some (curve exp k (m / n))⟩ : ExactNumber exp)
      = ⟨some (curve exp k (m / n))⟩ :=
    clampUnit_some (curve_mem_unit hpos _ _).1 (curve_mem_unit hpos _ _).2
  refine ⟨_, List.mem_flatMap.2 ⟨.naming, by decide, List.mem_filter.2 ⟨List.mem_filterMap.2
    ⟨kind, by cases kind <;> decide, hmade⟩, ?_⟩⟩, rfl, rfl, rfl, hcurve, hclamp⟩
  simp only [make, hclamp]
  exact le_some.2 hcurve

end Convention

end HouseStyle
