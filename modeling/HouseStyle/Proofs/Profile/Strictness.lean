import HouseStyle.Proofs.Convention.Shown
import HouseStyle.Proofs.Profile.Maturity
import Mathlib.Algebra.Order.BigOperators.Group.List

/-!
# Strictness follows maturity

Strictness starts from a base for the maturity and moves by at most half of the weight that the mean
confidence has.  That leaves it within its bounds, so in exact numbers it is never cut off.  Where
only conventions are accepted in which one is at least half confident it does not move down, and
then the values for the three classes lie in bands that do not meet.
-/

namespace HouseStyle

open ExactNumber

variable {exp : ℝ → ℝ}

/-- A number between two bounds is a real number between them. -/
lemma ExactNumber.exists_of_within {low high : ℝ} {x : ExactNumber exp}
    (h : Scalar.within ⟨some low⟩ ⟨some high⟩ x = true) :
    ∃ a, x = ⟨some a⟩ ∧ low ≤ a ∧ a ≤ high := by
  obtain ⟨hlow, hhigh⟩ := Bool.and_eq_true_iff.1 h
  obtain ⟨_, a, heq, rfl, ha⟩ := exists_of_holds hlow
  cases heq
  exact ⟨a, rfl, ha, le_some.1 hhigh⟩

/-- An analysis in which the confidence in each convention lies in the unit interval. -/
def Analysis.Confident {α : Type} [Scalar α] (a : Analysis α) : Prop :=
  ∀ c ∈ a.metrics.conventions, Scalar.within 0.0 1.0 c.confidence = true

/-- Every analysis that is made of files is of this kind. -/
lemma Analysis.confident_ofFiles {α : Type} [Scalar α] [OrderedScalar α] [NumberText α]
    (accept : Acceptance α) (language : String) (files : List FileFacts) (skipped : Nat)
    (layout : Layout) : (Analysis.ofFiles accept language files skipped layout).Confident := by
  intro c hc
  simp only [Analysis.ofFiles, LanguageMetrics.ofFiles] at hc
  split_ifs at hc
  · cases hc
  · obtain ⟨kind, -, hc⟩ := List.mem_flatMap.1 hc
    exact (Convention.shown_of_mem_observed hc).confidence

/-! ### The base -/

/-- The base of strictness in tenths. -/
def Maturity.baseTenths : Maturity → Nat
  | beginner => 3
  | intermediate => 6
  | expert => 8

lemma Maturity.baseStrictness_eq (m : Maturity) :
    (m.baseStrictness : ExactNumber exp) = ⟨some (m.baseTenths / 10)⟩ := by
  cases m <;> exact tenths _

/-- The bases of two classes are apart by more than half the weight of confidence. -/
lemma Maturity.baseTenths_lt {m n : Maturity} (h : m < n) :
    (m.baseTenths : ℝ) / 10 + 15 / 100 < n.baseTenths / 10 := by
  have hapart : ∀ m n : Maturity, m.rank < n.rank → m.baseTenths + 2 ≤ n.baseTenths := by
    intro m n
    cases m <;> cases n <;> decide
  have hcast : (m.baseTenths : ℝ) + 2 ≤ n.baseTenths := by
    exact_mod_cast hapart m n h
  linarith

/-- The class of a real number. -/
lemma Maturity.ofRatio_some (x : ℝ) : Maturity.ofRatio (⟨some x⟩ : ExactNumber exp)
    = if 8 / 10 ≤ x then expert else if 1 / 2 ≤ x then intermediate else beginner := by
  rw [ofRatio, tenths, half_eq]
  simp only [le_some, Nat.cast_ofNat]

/-- Keeping a real number within the bounds of strictness. -/
lemma Strictness.clamp_some {low a : ℝ} (h : low ≤ 1) :
    Strictness.clamp ⟨some low⟩ (⟨some a⟩ : ExactNumber exp) = ⟨some (max low (min a 1))⟩ := by
  have hnumber : Scalar.isNaN (⟨some a⟩ : ExactNumber exp) = false := rfl
  have hone : (greatest : ExactNumber exp) = ⟨some 1⟩ := one_eq
  rw [clamp, hnumber, if_neg Bool.false_ne_true, hone, ExactNumber.clamp_some h]

namespace Profile

/-! ### The mean confidence -/

section MeanConfidence

variable {low high : ℝ} {conventions : List (Convention (ExactNumber exp))}
  (h : ∀ c ∈ conventions, Scalar.within ⟨some low⟩ ⟨some high⟩ c.confidence = true)
include h

/-- The confidence in some conventions is a list of real numbers. -/
lemma exists_confidences : ∃ xs : List ℝ,
    xs.map (fun x => (⟨some x⟩ : ExactNumber exp)) = conventions.map (·.confidence) ∧
      ∀ x ∈ xs, low ≤ x ∧ x ≤ high :=
  exists_reals (List.forall_mem_map.2 fun c hc => exists_of_within (h c hc))

/-- The mean confidence lies between any bounds of the confidence, if one half does so. -/
lemma exists_meanConfidence (hlow : low ≤ 1 / 2) (hhigh : 1 / 2 ≤ high) :
    ∃ x, meanConfidence conventions = ⟨some x⟩ ∧ low ≤ x ∧ x ≤ high := by
  rcases eq_or_ne conventions [] with rfl | hne
  · refine ⟨1 / 2, ?_, hlow, hhigh⟩
    rw [meanConfidence, List.isEmpty_nil, if_pos rfl, half_eq]
  · obtain ⟨xs, hxs, hbounds⟩ := exists_confidences h
    have hlength : xs.length = conventions.length := by
      rw [← List.length_map (fun x => (⟨some x⟩ : ExactNumber exp)), hxs, List.length_map]
    have hpos : 0 < xs.length := hlength ▸ List.length_pos_of_ne_nil hne
    have hleast := xs.card_nsmul_le_sum low fun x hx => (hbounds x hx).1
    have hgreatest := xs.sum_le_card_nsmul high fun x hx => (hbounds x hx).2
    rw [nsmul_eq_mul] at hleast hgreatest
    refine ⟨xs.sum / xs.length, ?_, ?_, ?_⟩
    · rw [meanConfidence, if_neg (by simpa using hne), ← hxs,
        mean_some (List.length_pos_iff_ne_nil.1 hpos)]
    · rwa [le_div_iff₀ (Nat.cast_pos.2 hpos), mul_comm]
    · rwa [div_le_iff₀ (Nat.cast_pos.2 hpos), mul_comm]

end MeanConfidence

/-! ### The strictness -/

/-- Strictness moves from its base with the mean confidence, and is not cut off. -/
lemma exists_recommended (m : Maturity) {low : ℝ}
    {conventions : List (Convention (ExactNumber exp))}
    (h : ∀ c ∈ conventions, Scalar.within ⟨some low⟩ ⟨some 1⟩ c.confidence = true) (hlow : 0 ≤ low)
    (hhalf : low ≤ 1 / 2) :
    ∃ x, recommended m conventions = ⟨some x⟩ ∧
      recommended m conventions
        = m.baseStrictness + (meanConfidence conventions - 0.5) * 0.3 ∧
      m.baseTenths / 10 + (low - 1 / 2) * (3 / 10) ≤ x ∧ x ≤ m.baseTenths / 10 + 15 / 100 := by
  obtain ⟨y, hy, hleast, hgreatest⟩ := exists_meanConfidence h hhalf (by norm_num)
  have hweight : (0.3 : ExactNumber exp) = ⟨some (3 / 10)⟩ := tenths 3
  obtain ⟨x, hx⟩ : ∃ x : ℝ, m.baseTenths / 10 + (y - 1 / 2) * (3 / 10) = x := ⟨_, rfl⟩
  have hsum : (m.baseStrictness : ExactNumber exp) + (meanConfidence conventions - 0.5) * 0.3
      = ⟨some x⟩ := by
    rw [m.baseStrictness_eq, hy, half_eq, hweight, sub_some, mul_some, add_some, hx]
  have hbase : (3 : ℝ) ≤ m.baseTenths ∧ (m.baseTenths : ℝ) ≤ 8 := by
    cases m <;> norm_num [Maturity.baseTenths]
  -- the bases leave room for all that confidence can add or take away
  have hclamp : Strictness.clamp Strictness.least (⟨some x⟩ : ExactNumber exp) = ⟨some x⟩ := by
    have htenth : (Strictness.least : ExactNumber exp) = ⟨some (1 / 10)⟩ := by
      rw [Strictness.least, tenths]
      norm_num
    rw [htenth, Strictness.clamp_some (by norm_num), min_eq_left (by linarith),
      max_eq_right (by linarith)]
  have hrecommended : recommended m conventions = ⟨some x⟩ := by
    rw [recommended, hsum, hclamp]
  exact ⟨x, hrecommended, hrecommended.trans hsum.symm, by linarith, by linarith⟩

/-- The strictness for the conventions that are accepted, if those are confident enough. -/
lemma exists_strictness_learn {a : Analysis (ExactNumber exp)} (ha : a.Confident) {low : ℝ}
    {least : ExactNumber exp}
    (hleast : ∀ c : Convention (ExactNumber exp), Scalar.within 0.0 1.0 c.confidence = true →
      Scalar.le least c.confidence = true → Scalar.le ⟨some low⟩ c.confidence = true)
    (hlow : 0 ≤ low) (hhalf : low ≤ 1 / 2) (layout : Layout) (now : ExactNumber exp) :
    let p := learn least now a layout
    ∃ x, p.strictness = ⟨some x⟩ ∧
      p.strictness = p.maturity.baseStrictness + (meanConfidence p.conventions - 0.5) * 0.3 ∧
      p.maturity.baseTenths / 10 + (low - 1 / 2) * (3 / 10) ≤ x ∧
        x ≤ p.maturity.baseTenths / 10 + 15 / 100 := by
  refine exists_recommended _ (fun c hc => ?_) hlow hhalf
  obtain ⟨hmem, haccepted⟩ := List.mem_filter.1 hc
  have hwithin := ha c hmem
  rw [Scalar.within, hleast c hwithin haccepted, Bool.true_and, ← one_eq]
  exact (Bool.and_eq_true_iff.1 hwithin).2

/-- Strictness follows maturity.  It is never cut off, and within 15 hundredths of the base for the
maturity.  Where one has to be at least half confident in a convention to accept it, a project of a
lower maturity than another one gets a lower strictness, whatever was accepted in either of them. -/
theorem strictness_follows_maturity (exp : ℝ → ℝ) :
    (∀ (accept : Acceptance (ExactNumber exp)) (language : String) (files : List FileFacts)
      (skipped : Nat) (layout : Layout),
      (Analysis.ofFiles accept language files skipped layout).Confident) ∧
    ∀ (a : Analysis (ExactNumber exp)) (layout : Layout) (least now : ExactNumber exp),
      a.Confident →
      let p := learn least now a layout
      (p.strictness = p.maturity.baseStrictness + (meanConfidence p.conventions - 0.5) * 0.3 ∧
        ∃ x base, p.strictness = ⟨some x⟩ ∧
          (p.maturity.baseStrictness : ExactNumber exp) = ⟨some base⟩ ∧ |x - base| ≤ 15 / 100) ∧
      ∀ (b : Analysis (ExactNumber exp)) (layout' : Layout) (now' : ExactNumber exp),
        b.Confident → Scalar.within 0.5 1.0 least = true →
        p.maturity < (learn least now' b layout').maturity →
          Scalar.lt p.strictness (learn least now' b layout').strictness = true := by
  refine ⟨Analysis.confident_ofFiles, fun a layout least now ha => ?_⟩
  intro p
  refine ⟨?_, fun b layout' now' hb hleast hlt => ?_⟩
  · have hzero : ∀ c : Convention (ExactNumber exp), Scalar.within 0.0 1.0 c.confidence = true →
        Scalar.le least c.confidence = true → Scalar.le ⟨some 0⟩ c.confidence = true :=
      fun c hc _ => zero_eq ▸ (Bool.and_eq_true_iff.1 hc).1
    obtain ⟨x, hx, hformula, hlow, hhigh⟩ :=
      exists_strictness_learn ha hzero le_rfl (by norm_num) layout now
    refine ⟨hformula, x, _, hx, p.maturity.baseStrictness_eq, ?_⟩
    rw [abs_le]
    constructor <;> linarith
  · have hhalf : ∀ c : Convention (ExactNumber exp), Scalar.within 0.0 1.0 c.confidence = true →
        Scalar.le least c.confidence = true → Scalar.le ⟨some (1 / 2)⟩ c.confidence = true :=
      fun c _ hc => half_eq ▸ OrderedScalar.le_trans (Bool.and_eq_true_iff.1 hleast).1 hc
    obtain ⟨x, hx, -, -, hhigh⟩ :=
      exists_strictness_learn ha hhalf (by norm_num) le_rfl layout now
    obtain ⟨y, hy, -, hlow, -⟩ :=
      exists_strictness_learn hb hhalf (by norm_num) le_rfl layout' now'
    have hbase := Maturity.baseTenths_lt hlt
    rw [hx, hy, lt_some]
    linarith

/-- A file that holds tests and nothing else. -/
def testFile : FileFacts := Survey.fileFacts "tests/test_load.py" "python" [] []

lemma measured_testFile (accept : Acceptance (ExactNumber exp)) :
    (MaturityAxes.measure (Analysis.ofFiles accept "python" [testFile] 0 .empty) .empty).measured
      = [(1, 25), (1 / 250, 20)].map (MaturityAxes.computed exp) := by
  have hmeasured : (MaturityAxes.measure (Analysis.ofFiles accept "python" [testFile] 0 .empty)
      .empty).measured = [(MaturityAxes.testScore (Scalar.share 1 1), 25.0),
        (MaturityAxes.layoutScore 0 1, 20.0)] := rfl
  rw [hmeasured, share_eq, MaturityAxes.testScore_some, MaturityAxes.layoutScore_eq, tenths, tenths]
  norm_num [MaturityAxes.computed]

/-- A project without files is less mature than one with tests only, so it gets a lower
strictness. -/
theorem strictness_follows_maturity_testFile :
    let accept : Acceptance (ExactNumber Real.exp) := ⟨0.6, 10.0⟩
    let without := learn 0.5 0.0 (.ofFiles accept "python" [] 0 .empty) .empty
    let tested := learn 0.5 0.0 (.ofFiles accept "python" [testFile] 0 .empty) .empty
    Scalar.within 0.5 1.0 (0.5 : ExactNumber Real.exp) = true ∧
    without.maturity = .beginner ∧ tested.maturity = .intermediate ∧
    Scalar.lt without.strictness tested.strictness = true := by
  intro accept without tested
  have hleast : Scalar.within 0.5 1.0 (0.5 : ExactNumber Real.exp) = true := by
    rw [half_eq, one_eq, Scalar.within, Bool.and_eq_true, le_some, le_some]
    norm_num
  have hwithout : without.maturity = .beginner := by
    have hmeasured : (MaturityAxes.measure (Analysis.ofFiles accept "python" [] 0 .empty)
        .empty).measured = [].map (MaturityAxes.computed Real.exp) := rfl
    change Maturity.ofRatio (MaturityAxes.measure _ .empty).ratio = _
    rw [MaturityAxes.ratio_of_measured hmeasured, Maturity.ofRatio_some]
    norm_num [weightedMean]
  have htested : tested.maturity = .intermediate := by
    change Maturity.ofRatio (MaturityAxes.measure _ .empty).ratio = _
    rw [MaturityAxes.ratio_of_measured (measured_testFile accept), Maturity.ofRatio_some]
    norm_num [weightedMean]
  have hlt : without.maturity < tested.maturity := by
    rw [hwithout, htested]
    exact Nat.lt_succ_self 0
  obtain ⟨hconfident, hlearn⟩ := strictness_follows_maturity Real.exp
  obtain ⟨-, hstricter⟩ := hlearn _ .empty 0.5 0.0 (hconfident accept "python" [] 0 .empty)
  exact ⟨hleast, hwithout, htested,
    hstricter _ .empty 0.0 (hconfident accept "python" [testFile] 0 .empty) hleast hlt⟩

end Profile

end HouseStyle
