import HouseStyle.Profile.Basic
import HouseStyle.Proofs.Survey.Metrics
import Mathlib.Analysis.Complex.Exponential
import Mathlib.Data.List.Forall2
import Mathlib.Logic.Relation

/-!
# Maturity is a fair mean

In exact numbers the maturity of a project is the weighted mean of what was measured along its axes.
Each axis lies in the unit interval, so the mean does too and is never cut off, and it lies between
the least and the greatest of the axes (`FairMean`).  If no axis falls, neither does the mean, nor
the class that it belongs to.

The axes are read off a few counts.  Whatever makes a file or the layout better changes these counts
in one direction only (`FileFacts.RaisedTo`), so it lowers no axis.
-/

namespace HouseStyle

/-! ### The order of the classes -/

namespace Maturity

/-- The place of a class among all classes. -/
def rank : Maturity → Nat
  | beginner => 0
  | intermediate => 1
  | expert => 2

lemma rank_injective : Function.Injective rank := by
  intro m n h
  cases m <;> cases n <;> grind [rank]

/-- Classes are ordered by how established the practices are. -/
instance : PartialOrder Maturity := PartialOrder.lift rank rank_injective

/-- A greater mean belongs to no lower class. -/
lemma ofRatio_mono {α : Type} [Scalar α] [OrderedScalar α] {x y : α} (h : Scalar.le x y = true) :
    ofRatio x ≤ ofRatio y := by
  have hkept {bound : α} (hx : Scalar.le bound x = true) : Scalar.le bound y = true :=
    OrderedScalar.le_trans hx h
  rw [ofRatio, ofRatio]
  by_cases hexpert : Scalar.le 0.8 x = true
  · rw [if_pos hexpert, if_pos (hkept hexpert)]
  · rw [if_neg hexpert]
    by_cases hintermediate : Scalar.le 0.5 x = true
    · rw [if_pos hintermediate, if_pos (hkept hintermediate)]
      split_ifs
      · exact Nat.le_succ 1
      · exact le_refl _
    · rw [if_neg hintermediate]
      exact Nat.zero_le _

end Maturity

/-! ### Weighted means -/

/-- The mean of some scores with their weights. -/
noncomputable def weightedMean (scores : List (ℝ × ℝ)) : ℝ :=
  (scores.map fun e => e.1 * e.2).sum / (scores.map Prod.snd).sum

/-- A mean of some scores with their weights, all of them positive: 0 without scores, and otherwise
between the least and the greatest score. -/
structure FairMean (scores : List (ℝ × ℝ)) (x : ℝ) : Prop where
  positive : ∀ e ∈ scores, 0 < e.2
  weighted : x * (scores.map Prod.snd).sum = (scores.map fun e => e.1 * e.2).sum
  eq_zero : scores = [] → x = 0
  between : scores ≠ [] → ∃ low ∈ scores, ∃ high ∈ scores,
    (∀ e ∈ scores, low.1 ≤ e.1 ∧ e.1 ≤ high.1) ∧ low.1 ≤ x ∧ x ≤ high.1

section WeightedMean

variable {scores scores' : List (ℝ × ℝ)}

lemma sum_weights_pos (h : ∀ e ∈ scores, 0 < e.2) (hne : scores ≠ []) :
    0 < (scores.map Prod.snd).sum :=
  List.sum_pos _ (List.forall_mem_map.2 h) (by simpa using hne)

lemma fairMean_weightedMean (h : ∀ e ∈ scores, 0 < e.2) :
    FairMean scores (weightedMean scores) := by
  have hzero : scores = [] → weightedMean scores = 0 := by
    rintro rfl
    simp [weightedMean]
  refine ⟨h, ?_, hzero, fun hne => ?_⟩
  · rcases eq_or_ne scores [] with rfl | hne
    · simp
    · exact div_mul_cancel₀ _ (sum_weights_pos h hne).ne'
  · obtain ⟨first, hfirst⟩ := List.exists_mem_of_ne_nil _ hne
    obtain ⟨low, hlow, hleast⟩ := Set.exists_min_image {e | e ∈ scores} Prod.fst
      scores.finite_toSet ⟨first, hfirst⟩
    obtain ⟨high, hhigh, hgreatest⟩ := Set.exists_max_image {e | e ∈ scores} Prod.fst
      scores.finite_toSet ⟨first, hfirst⟩
    have hpos := sum_weights_pos h hne
    refine ⟨low, hlow, high, hhigh, fun e he => ⟨hleast e he, hgreatest e he⟩, ?_, ?_⟩
    · rw [weightedMean, le_div_iff₀ hpos, ← List.sum_map_mul_left]
      exact List.sum_le_sum fun e he => mul_le_mul_of_nonneg_right (hleast e he) (h e he).le
    · rw [weightedMean, div_le_iff₀ hpos, ← List.sum_map_mul_left]
      exact List.sum_le_sum fun e he => mul_le_mul_of_nonneg_right (hgreatest e he) (h e he).le

/-- The mean of scores in the unit interval lies there too. -/
lemma FairMean.mem_unit {x : ℝ} (h : FairMean scores x) (hunit : ∀ e ∈ scores, 0 ≤ e.1 ∧ e.1 ≤ 1) :
    0 ≤ x ∧ x ≤ 1 := by
  rcases eq_or_ne scores [] with hnil | hne
  · rw [h.eq_zero hnil]
    exact ⟨le_refl _, zero_le_one⟩
  · obtain ⟨low, hlow, high, hhigh, -, hx, hx'⟩ := h.between hne
    exact ⟨(hunit low hlow).1.trans hx, hx'.trans (hunit high hhigh).2⟩

/-- If no score falls and no weight changes, the mean does not fall. -/
lemma weightedMean_mono (hpos : ∀ e ∈ scores, 0 < e.2)
    (h : List.Forall₂ (fun e e' => e.1 ≤ e'.1 ∧ e.2 = e'.2) scores scores') :
    weightedMean scores ≤ weightedMean scores' := by
  have hweights : scores.map Prod.snd = scores'.map Prod.snd := by
    rw [← List.forall₂_eq_eq_eq, List.forall₂_map_left_iff, List.forall₂_map_right_iff]
    exact h.imp fun _ _ he => he.2
  have hsums : (scores.map fun e => e.1 * e.2).sum ≤ (scores'.map fun e => e.1 * e.2).sum := by
    refine List.Forall₂.sum_le_sum ?_
    rw [List.forall₂_map_left_iff, List.forall₂_map_right_iff]
    refine ((List.forall₂_and_left scores scores').2 ⟨hpos, h⟩).imp fun e e' he => ?_
    obtain ⟨hweight, hscore, heq⟩ := he
    rw [← heq]
    exact mul_le_mul_of_nonneg_right hscore hweight.le
  rw [weightedMean, weightedMean, ← hweights]
  exact div_le_div_of_nonneg_right hsums
    (List.sum_nonneg (List.forall_mem_map.2 fun e he => (hpos e he).le))

end WeightedMean

/-! ### The axes -/

namespace MaturityAxes

/-- The same axes are measured, and their scores are related one by one. -/
structure Related {α : Type} (r : α → α → Prop) (a b : MaturityAxes α) : Prop where
  documentation : Option.Rel r a.documentation b.documentation
  tests : Option.Rel r a.tests b.tests
  complexity : Option.Rel r a.complexity b.complexity
  layout : Option.Rel r a.layout b.layout
  imports : Option.Rel r a.imports b.imports

/-- The same axes are measured, and some of them may have been raised. -/
def RaisedTo {α : Type} [Scalar α] (a b : MaturityAxes α) : Prop :=
  a.Related (fun x y => Scalar.le x y = true) b

open ExactNumber

variable {exp : ℝ → ℝ} {a b : MaturityAxes (ExactNumber exp)} {r : ℝ → ℝ → Prop}

/-- A score and its weight, as they are computed. -/
def computed (exp : ℝ → ℝ) (e : ℝ × ℝ) : ExactNumber exp × ExactNumber exp :=
  (⟨some e.1⟩, ⟨some e.2⟩)

lemma Related.imp {α : Type} {r s : α → α → Prop} {a b : MaturityAxes α} (h : a.Related r b)
    (hrs : ∀ x y, r x y → s x y) : a.Related s b := by
  have hrel {x y : Option α} (hxy : Option.Rel r x y) : Option.Rel s x y := by
    cases hxy with
    | some hxy => exact .some (hrs _ _ hxy)
    | none => exact .none
  exact ⟨hrel h.documentation, hrel h.tests, hrel h.complexity, hrel h.layout, hrel h.imports⟩

/-- The scores of measured axes are real numbers with positive weights. -/
lemma Related.exists_scores (h : a.Related (fun x y => holds r x y = true) b) :
    ∃ scores scores', a.measured = scores.map (computed exp) ∧
      b.measured = scores'.map (computed exp) ∧ (∀ e ∈ scores, 0 < e.2) ∧
        List.Forall₂ (fun e e' => r e.1 e'.1 ∧ e.2 = e'.2) scores scores' := by
  have hweighted : List.Forall₂ (fun x y => Option.Rel (fun x y => holds r x y = true) x.1 y.1 ∧
      x.2 = y.2 ∧ ∃ w : ℝ, 0 < w ∧ x.2 = ⟨some w⟩) a.weighted b.weighted := by
    have hweight (n : Nat) (hn : 0 < n) :
        ∃ w : ℝ, 0 < w ∧ (OfScientific.ofScientific n true 1 : ExactNumber exp) = ⟨some w⟩ :=
      ⟨n / 10, by positivity, tenths n⟩
    exact .cons ⟨h.documentation, rfl, hweight 200 (by decide)⟩ <|
      .cons ⟨h.tests, rfl, hweight 250 (by decide)⟩ <|
      .cons ⟨h.complexity, rfl, hweight 150 (by decide)⟩ <|
      .cons ⟨h.layout, rfl, hweight 200 (by decide)⟩ <|
      .cons ⟨h.imports, rfl, hweight 100 (by decide)⟩ .nil
  rw [measured, measured]
  generalize a.weighted = l, b.weighted = l' at hweighted
  induction hweighted with
  | nil => exact ⟨[], [], rfl, rfl, nofun, .nil⟩
  | @cons x y l l' hxy _ ih =>
    obtain ⟨scores, scores', hl, hl', hpos, hscores⟩ := ih
    obtain ⟨x, w⟩ := x
    obtain ⟨y, w'⟩ := y
    obtain ⟨hrel, heq, v, hv, hw⟩ := hxy
    dsimp only at hrel heq hw
    subst heq hw
    cases hrel with
    | none => exact ⟨scores, scores', hl, hl', hpos, hscores⟩
    | some hxy =>
      obtain ⟨x, y, rfl, rfl, hr⟩ := exists_of_holds hxy
      refine ⟨(x, v) :: scores, (y, v) :: scores', ?_, ?_, List.forall_mem_cons.2 ⟨hv, hpos⟩,
        .cons ⟨hr, rfl⟩ hscores⟩
      · rw [List.map_cons, ← hl]
        rfl
      · rw [List.map_cons, ← hl']
        rfl

/-- The mean of the measured axes, cut off in the unit interval. -/
lemma ratio_of_measured {scores : List (ℝ × ℝ)} (h : a.measured = scores.map (computed exp)) :
    a.ratio = ⟨some (max 0 (min (weightedMean scores) 1))⟩ := by
  have hfold (s w : ℝ) : (scores.map (computed exp)).foldl
      (fun acc e => (acc.1 + e.1 * e.2, acc.2 + e.2)) (⟨some s⟩, ⟨some w⟩)
        = (⟨some (s + (scores.map fun e => e.1 * e.2).sum)⟩,
          ⟨some (w + (scores.map Prod.snd).sum)⟩) := by
    clear h
    induction scores generalizing s w with
    | nil => simp
    | cons e scores ih =>
      rw [List.map_cons, List.foldl_cons, computed, mul_some, add_some, add_some, ih]
      simp only [List.map_cons, List.sum_cons, add_assoc]
  rw [ratio, h, zero_eq, one_eq, hfold, zero_add, zero_add, weightedMean]
  simp only [same_some]
  split_ifs with hweight
  · rw [hweight, div_zero, min_eq_left zero_le_one, max_self]
  · rw [div_some hweight, clamp_some zero_le_one]

/-- If no axis falls, the mean does not fall. -/
lemma RaisedTo.ratio (h : a.RaisedTo b) : Scalar.le a.ratio b.ratio = true := by
  obtain ⟨scores, scores', ha, hb, hpos, hscores⟩ := Related.exists_scores h
  rw [ratio_of_measured ha, ratio_of_measured hb, le_some]
  have hmean := weightedMean_mono hpos hscores
  gcongr

end MaturityAxes

/-! ### What makes a project better -/

/-- Whether one file is another one with all that counts for maturity at least as good: the
functions are as complex, what has a doc comment keeps it, no import becomes one of all names, and a
test file stays one. -/
structure FileFacts.RaisedTo (f g : FileFacts) : Prop where
  functions : List.Forall₂ (fun a b => a.complexity = b.complexity ∧
    (a.documented = true → b.documented = true)) f.functions g.functions
  types : List.Forall₂ (fun a b => a.documented = true → b.documented = true) f.types g.types
  imports : List.Forall₂ (fun a b => b.wildcard = true → a.wildcard = true) f.imports g.imports
  isTestFile : f.isTestFile = true → g.isTestFile = true

/-- Whether a layout has all directories of another one. -/
def Layout.RaisedTo (layout layout' : Layout) : Prop :=
  ∀ name, layout.topDirs.contains name = true → layout'.topDirs.contains name = true

lemma FileFacts.RaisedTo.refl (f : FileFacts) : f.RaisedTo f where
  functions := List.forall₂_same.2 fun _ _ => ⟨rfl, id⟩
  types := List.forall₂_same.2 fun _ _ => id
  imports := List.forall₂_same.2 fun _ _ => id
  isTestFile := id

/-- A member of a list gives way to one that it is related to. -/
lemma forall₂_replace {β : Type} {r : β → β → Prop} (hrefl : ∀ b, r b b) (before behind : List β)
    {b c : β} (h : r b c) : List.Forall₂ r (before ++ b :: behind) (before ++ c :: behind) :=
  List.rel_append (List.forall₂_same.2 fun b _ => hrefl b)
    (.cons h (List.forall₂_same.2 fun b _ => hrefl b))

/-- One improvement of a file. -/
inductive FileFacts.Improved : FileFacts → FileFacts → Prop
  /-- A function gets a doc comment. -/
  | function (f : FileFacts) {before behind : List FunctionFacts} {g : FunctionFacts}
      (h : f.functions = before ++ g :: behind) (docDelimiters docFormats : Tally) :
      Improved f { f with
        functions := before ++ { g with documented := true } :: behind
        docDelimiters, docFormats }
  /-- A type gets a doc comment. -/
  | type (f : FileFacts) {before behind : List TypeFacts} {t : TypeFacts}
      (h : f.types = before ++ t :: behind) (docDelimiters docFormats : Tally) :
      Improved f { f with
        types := before ++ { t with documented := true } :: behind
        docDelimiters, docFormats }
  /-- An import names what it imports. -/
  | plainImport (f : FileFacts) {before behind : List ImportFacts} {i : ImportFacts}
      (h : f.imports = before ++ i :: behind) :
      Improved f { f with imports := before ++ { i with wildcard := false } :: behind }
  /-- The file holds tests. -/
  | test (f : FileFacts) : Improved f { f with isTestFile := true }

/-- One improvement of the files of a language and of the layout. -/
inductive Improves : List FileFacts × Layout → List FileFacts × Layout → Prop
  /-- One file is improved. -/
  | file {before behind : List FileFacts} {f g : FileFacts} (layout : Layout) (h : f.Improved g) :
      Improves (before ++ f :: behind, layout) (before ++ g :: behind, layout)
  /-- There is one more directory right below the root. -/
  | directory (files : List FileFacts) (layout : Layout) (name : String) :
      Improves (files, layout) (files, { layout with topDirs := layout.topDirs.insert name () })

lemma FileFacts.Improved.raisedTo {f g : FileFacts} (h : f.Improved g) : f.RaisedTo g := by
  cases h with
  | function h =>
    exact { FileFacts.RaisedTo.refl f with
      functions := by
        rw [h]
        exact forall₂_replace (fun _ => ⟨rfl, id⟩) _ _ ⟨rfl, fun _ => rfl⟩ }
  | type h =>
    exact { FileFacts.RaisedTo.refl f with
      types := by
        rw [h]
        exact forall₂_replace (fun _ => id) _ _ fun _ => rfl }
  | plainImport h =>
    exact { FileFacts.RaisedTo.refl f with
      imports := by
        rw [h]
        exact forall₂_replace (fun _ => id) _ _ nofun }
  | test => exact { FileFacts.RaisedTo.refl f with isTestFile := fun _ => rfl }

lemma Improves.raisedTo {p q : List FileFacts × Layout} (h : Improves p q) :
    List.Forall₂ FileFacts.RaisedTo p.1 q.1 ∧ p.2.RaisedTo q.2 := by
  cases h with
  | file layout h =>
    exact ⟨forall₂_replace FileFacts.RaisedTo.refl _ _ h.raisedTo, fun _ => id⟩
  | directory files layout name =>
    refine ⟨List.forall₂_same.2 fun f _ => .refl f, fun dir hdir => ?_⟩
    rw [SortedMap.contains_eq] at hdir
    rw [SortedMap.contains_eq, SortedMap.get?_insert]
    split_ifs
    · rfl
    · exact hdir

namespace MaturityAxes

open ExactNumber

/-- Whether a number of the unit interval does not fall, and stays in the unit interval. -/
def Rises (x y : ℝ) : Prop := 0 ≤ x ∧ x ≤ y ∧ y ≤ 1

variable {exp : ℝ → ℝ} {x y : ℝ}

lemma rises_div {m m' n : Nat} (h : m ≤ m') (h' : m' ≤ n) : Rises ((m : ℝ) / n) (m' / n) := by
  refine ⟨by positivity, by gcongr, ?_⟩
  exact div_le_one_of_le₀ (Nat.cast_le.2 h') (Nat.cast_nonneg _)

/-! ### The scores -/

lemma testScore_some (x : ℝ) :
    testScore (⟨some x⟩ : ExactNumber exp) = ⟨some (min (x / (1 / 4)) 1)⟩ := by
  have hquarter : (0.25 : ExactNumber exp) = ⟨some (1 / 4)⟩ := by
    change (⟨some ((25 : ℕ) / 10 ^ 2)⟩ : ExactNumber exp) = _
    norm_num
  rw [testScore, hquarter, div_some (by norm_num), one_eq, smaller_some]

lemma rises_testScore (h : Rises x y) :
    holds Rises (testScore (⟨some x⟩ : ExactNumber exp)) (testScore ⟨some y⟩) = true := by
  obtain ⟨hx, hxy, -⟩ := h
  rw [testScore_some, testScore_some, holds_some]
  exact ⟨by positivity, by gcongr, min_le_right _ _⟩

lemma rises_complexityScore (h : 0 ≤ x) :
    holds Rises (complexityScore (⟨some x⟩ : ExactNumber exp)) (complexityScore ⟨some x⟩)
      = true := by
  have hten : (10.0 : ExactNumber exp) = ⟨some 10⟩ := by
    rw [tenths]
    norm_num
  rw [complexityScore, hten, zero_eq, sub_some, larger_some, div_some (by norm_num), holds_some]
  refine ⟨by positivity, le_refl _, ?_⟩
  rw [div_le_one (by norm_num), max_le_iff]
  constructor <;> linarith

lemma layoutScore_eq (m n : Nat) : (layoutScore m n : ExactNumber exp)
    = ⟨some ((m : ℝ) / Layout.customary.length * (4 / 5) + min ((n : ℝ) / 50) 1 * (1 / 5))⟩ := by
  have hfifty : (50.0 : ExactNumber exp) = ⟨some 50⟩ := by
    rw [tenths]
    norm_num
  have hdirs : (0.8 : ExactNumber exp) = ⟨some (4 / 5)⟩ := by
    rw [tenths]
    norm_num
  have hfiles : (0.2 : ExactNumber exp) = ⟨some (1 / 5)⟩ := by
    rw [tenths]
    norm_num
  have hcount : (Scalar.ofCount n : ExactNumber exp) = ⟨some n⟩ := rfl
  rw [layoutScore, div_count m (by decide), hcount, hfifty, div_some (by norm_num), one_eq,
    smaller_some, hdirs, hfiles, mul_some, mul_some, add_some]

lemma rises_layoutScore {m m' n : Nat} (h : m ≤ m') (h' : m' ≤ Layout.customary.length) :
    holds Rises (layoutScore m n : ExactNumber exp) (layoutScore m' n) = true := by
  obtain ⟨hdirs, hle, hone⟩ := rises_div h h'
  have hfiles : min ((n : ℝ) / 50) 1 ≤ 1 := min_le_right _ _
  rw [layoutScore_eq, layoutScore_eq, holds_some]
  exact ⟨by positivity, by gcongr, by linarith⟩

lemma rises_sub (h : Rises x y) :
    holds Rises (1.0 - (⟨some y⟩ : ExactNumber exp)) (1.0 - ⟨some x⟩) = true := by
  obtain ⟨hx, hxy, hy⟩ := h
  rw [one_eq, sub_some, sub_some, holds_some]
  exact ⟨by linarith, by linarith, by linarith⟩

/-! ### What the axes are read off -/

lemma documentedItems_le_documentableItems (files : List FileFacts) :
    Count.sum (files.map (·.documentedItems)) ≤ Count.sum (files.map (·.documentableItems)) :=
  Count.sum_map_le_sum_map fun _ _ => Nat.add_le_add List.countP_le_length List.countP_le_length

section Counts

variable {files files' : List FileFacts} (h : List.Forall₂ FileFacts.RaisedTo files files')
include h

lemma documentedItems_le :
    Count.sum (files.map (·.documentedItems)) ≤ Count.sum (files'.map (·.documentedItems)) := by
  refine Count.sum_map_le_of_forall₂ (h.imp fun f g hfg => ?_)
  exact Nat.add_le_add (Count.countP_le_of_forall₂ (hfg.functions.imp fun _ _ hab => hab.2))
    (Count.countP_le_of_forall₂ hfg.types)

lemma documentableItems_eq :
    files.map (·.documentableItems) = files'.map (·.documentableItems) := by
  rw [← List.forall₂_eq_eq_eq, List.forall₂_map_left_iff, List.forall₂_map_right_iff]
  refine h.imp fun f g hfg => ?_
  rw [FileFacts.documentableItems, FileFacts.documentableItems, hfg.functions.length_eq,
    hfg.types.length_eq]

/-- The functions of all files are as complex, one by one. -/
lemma complexity_eq : (files.flatMap (·.functions)).map FunctionFacts.complexity
    = (files'.flatMap (·.functions)).map FunctionFacts.complexity := by
  rw [← List.forall₂_eq_eq_eq, List.forall₂_map_left_iff, List.forall₂_map_right_iff]
  exact List.rel_flatMap h fun f g hfg => hfg.functions.imp fun _ _ hab => hab.1

lemma any_functions_eq :
    (files.any fun f => !f.functions.isEmpty) = files'.any fun f => !f.functions.isEmpty := by
  induction h with
  | nil => rfl
  | @cons f g files files' hfg _ ih =>
    rw [List.any_cons, List.any_cons, ih]
    congr 2
    rw [Bool.eq_iff_iff, List.isEmpty_iff_length_eq_zero, List.isEmpty_iff_length_eq_zero,
      hfg.functions.length_eq]

lemma forall₂_imports : List.Forall₂ (fun a b => b.wildcard = true → a.wildcard = true)
    (files.flatMap (·.imports)) (files'.flatMap (·.imports)) :=
  List.rel_flatMap h fun _ _ hfg => hfg.imports

end Counts

/-! ### The axes of an analysis -/

variable (accept : Acceptance (ExactNumber exp)) (language : String) (skipped : Nat)
  (shown shown' : Layout) {files files' : List FileFacts} {layout layout' : Layout}

/-- Where files and layout are at least as good, no axis falls, and all of them stay in the unit
interval.  The layout that an analysis shows makes no difference. -/
lemma related_measure (hfiles : List.Forall₂ FileFacts.RaisedTo files files')
    (hlayout : layout.RaisedTo layout') :
    (measure (Analysis.ofFiles accept language files skipped shown) layout).Related
      (fun x y => holds Rises x y = true)
      (measure (Analysis.ofFiles accept language files' skipped shown') layout') where
  documentation := by
    have hitems (files : List FileFacts) (layout : Layout) :
        (LanguageFacts.ofFiles language files layout).documentableItems
          = Count.sum (files.map (·.documentableItems)) :=
      LanguageFacts.sum_ofFiles (fun _ _ => rfl) (fun _ _ => rfl) language files layout
    have hdocumented (files : List FileFacts) (layout : Layout) :
        (LanguageFacts.ofFiles language files layout).documentedItems
          = Count.sum (files.map (·.documentedItems)) :=
      LanguageFacts.sum_ofFiles (fun _ _ => rfl) (fun _ _ => rfl) language files layout
    simp only [measure, Analysis.ofFiles, LanguageFacts.documentationCoverage?, hitems, hdocumented,
      documentableItems_eq hfiles]
    split_ifs
    · exact .none
    · rw [share_eq, share_eq]
      exact .some (holds_some.2 (rises_div (documentedItems_le hfiles)
        (documentedItems_le_documentableItems files')))
  tests := by
    have htests := Count.countP_le_of_forall₂ (hfiles.imp fun _ _ hfg => hfg.isTestFile)
    have hall : files'.countP (·.isTestFile) ≤ files'.length := List.countP_le_length
    simp only [measure, Analysis.testFileRatio?, Analysis.ofFiles, List.isEmpty_iff_length_eq_zero,
      hfiles.length_eq]
    split_ifs
    · exact .none
    · rw [Option.map_some, Option.map_some, share_eq, share_eq]
      exact .some (rises_testScore (rises_div htests hall))
  complexity := by
    obtain ⟨-, -, -, hmean⟩ := LanguageMetrics.consistency_ofFiles accept language files shown
    obtain ⟨-, -, -, hmean'⟩ := LanguageMetrics.consistency_ofFiles accept language files' shown'
    have hlength :
        (files.flatMap (·.functions)).length = (files'.flatMap (·.functions)).length := by
      rw [← List.length_map FunctionFacts.complexity, complexity_eq hfiles, List.length_map]
    simp only [measure, Analysis.ofFiles, hmean, hmean', any_functions_eq hfiles,
      LanguageMetrics.functionMean, complexity_eq hfiles, hlength, share_eq]
    split_ifs
    · exact .some (rises_complexityScore (by positivity))
    · exact .none
  layout := by
    have hcustomary : layout.customaryCount ≤ layout'.customaryCount :=
      List.countP_mono_left fun c _ hc => by
        obtain ⟨name, hname, hdir⟩ := List.any_eq_true.1 hc
        exact List.any_eq_true.2 ⟨name, hname, hlayout name hdir⟩
    simp only [measure, Analysis.ofFiles, List.isEmpty_iff_length_eq_zero, hfiles.length_eq]
    split_ifs
    · exact .none
    · exact .some (rises_layoutScore hcustomary List.countP_le_length)
  imports := by
    have hwildcards := Count.countP_le_of_forall₂
      (List.Forall₂.flip (forall₂_imports hfiles))
    have hall : (files.flatMap (·.imports)).countP (·.wildcard)
        ≤ (files.flatMap (·.imports)).length := List.countP_le_length
    have hlength := (forall₂_imports hfiles).length_eq
    simp only [measure, Analysis.wildcardRatio?, Analysis.imports, Analysis.ofFiles,
      List.isEmpty_iff_length_eq_zero, ← hlength]
    split_ifs
    · exact .none
    · rw [Option.map_some, Option.map_some, share_eq, share_eq]
      exact .some (rises_sub (rises_div hwildcards hall))

lemma raisedTo_measure (hfiles : List.Forall₂ FileFacts.RaisedTo files files')
    (hlayout : layout.RaisedTo layout') :
    (measure (Analysis.ofFiles accept language files skipped shown) layout).RaisedTo
      (measure (Analysis.ofFiles accept language files' skipped shown') layout') := by
  refine (related_measure accept language skipped shown shown' hfiles hlayout).imp fun x y hxy => ?_
  obtain ⟨x, y, rfl, rfl, -, hle, -⟩ := exists_of_holds hxy
  exact le_some.2 hle

/-! ### The whole -/

/-- The axes of an analysis are in the unit interval, and the ratio is their fair mean. -/
lemma exists_fairMean (files : List FileFacts) (layout : Layout) :
    ∃ scores x, (measure (Analysis.ofFiles accept language files skipped shown) layout).measured
        = scores.map (computed exp) ∧ (∀ e ∈ scores, 0 ≤ e.1 ∧ e.1 ≤ 1) ∧
      (measure (Analysis.ofFiles accept language files skipped shown) layout).ratio = ⟨some x⟩ ∧
      FairMean scores x := by
  have hfiles : List.Forall₂ FileFacts.RaisedTo files files :=
    List.forall₂_same.2 fun f _ => .refl f
  have hlayout : layout.RaisedTo layout := fun _ => id
  obtain ⟨scores, scores', hscores, -, hpos, hrises⟩ :=
    (related_measure accept language skipped shown shown hfiles hlayout).exists_scores
  have hunit : ∀ e ∈ scores, 0 ≤ e.1 ∧ e.1 ≤ 1 := by
    intro e he
    obtain ⟨i, hi, rfl⟩ := List.getElem_of_mem he
    obtain ⟨⟨hzero, hle, hone⟩, -⟩ := List.Forall₂.get hrises hi (hrises.length_eq ▸ hi)
    exact ⟨hzero, hle.trans hone⟩
  have hfair := fairMean_weightedMean hpos
  obtain ⟨hzero, hone⟩ := hfair.mem_unit hunit
  refine ⟨scores, weightedMean scores, hscores, hunit, ?_, hfair⟩
  rw [ratio_of_measured hscores, min_eq_left hone, max_eq_right hzero]

/-- Improvements made one after another do not lower the ratio. -/
lemma ratio_le_of_improves {p q : List FileFacts × Layout}
    (h : Relation.ReflTransGen Improves p q) :
    Scalar.le (measure (Analysis.ofFiles accept language p.1 skipped shown) p.2).ratio
      (measure (Analysis.ofFiles accept language q.1 skipped shown') q.2).ratio = true := by
  induction h generalizing shown' with
  | refl =>
    have hfiles : List.Forall₂ FileFacts.RaisedTo p.1 p.1 :=
      List.forall₂_same.2 fun f _ => .refl f
    exact (raisedTo_measure accept language skipped shown shown' hfiles fun _ => id).ratio
  | tail _ hstep ih =>
    obtain ⟨hfiles, hlayout⟩ := hstep.raisedTo
    exact OrderedScalar.le_trans (ih shown)
      (raisedTo_measure accept language skipped shown shown' hfiles hlayout).ratio

/-- Maturity is a fair mean: each measured axis lies in the unit interval, and the ratio is their
weighted mean, between the least and the greatest of them.  If some of them are raised the ratio
does not fall, and any improvements of the files and the layout lower neither the ratio nor the
class. -/
theorem ratio_fair (files : List FileFacts) (layout : Layout) (least now : ExactNumber exp) :
    let analysis := Analysis.ofFiles accept language files skipped shown
    let axes := measure analysis layout
    (∃ scores x, axes.measured = scores.map (computed exp) ∧ (∀ e ∈ scores, 0 ≤ e.1 ∧ e.1 ≤ 1) ∧
      axes.ratio = ⟨some x⟩ ∧ FairMean scores x) ∧
    (∀ raised, axes.RaisedTo raised → Scalar.le axes.ratio raised.ratio = true ∧
      Maturity.ofRatio axes.ratio ≤ Maturity.ofRatio raised.ratio) ∧
    ∀ files' layout', Relation.ReflTransGen Improves (files, layout) (files', layout') →
      let better := Analysis.ofFiles accept language files' skipped shown'
      Scalar.le axes.ratio (measure better layout').ratio = true ∧
      (Profile.learn least now analysis layout).maturity
        ≤ (Profile.learn least now better layout').maturity := by
  refine ⟨exists_fairMean accept language skipped shown files layout, fun raised h =>
    ⟨h.ratio, Maturity.ofRatio_mono h.ratio⟩, fun files' layout' h => ?_⟩
  have hle := ratio_le_of_improves accept language skipped shown shown' h
  exact ⟨hle, Maturity.ofRatio_mono hle⟩

/-- A file with one function, with or without a doc comment. -/
def loader (doc : Option Survey.Doc) : FileFacts :=
  Survey.fileFacts "load.py" "python" []
    ((doc.toList.flatMap fun d => [.docDelimiter d.delimiter, .docFormat d.format])
      ++ [.function ⟨"load", 1, 2, .none, doc.isSome, none⟩])

/-- The function of a project gets a doc comment, and the project a directory for its tests. -/
theorem ratio_fair_documented :
    let documented := loader (some ⟨"\"\"\"", .plain⟩)
    let layout : Layout := { Layout.empty with topDirs := Layout.empty.topDirs.insert "tests" () }
    let accept : Acceptance (ExactNumber Real.exp) := ⟨0.6, 10.0⟩
    Relation.ReflTransGen Improves ([loader none], .empty) ([documented], layout) ∧
    Scalar.le (measure (Analysis.ofFiles accept "python" [loader none] 0 .empty) .empty).ratio
      (measure (Analysis.ofFiles accept "python" [documented] 0 layout) layout).ratio = true := by
  intro documented layout accept
  have hfunctions : (loader none).functions = [] ++ ⟨"load", 1, 2, .none, false, none⟩ :: [] := rfl
  have hfile : Improves ([] ++ loader none :: [], .empty) ([] ++ documented :: [], .empty) :=
    .file .empty (.function (loader none) hfunctions documented.docDelimiters documented.docFormats)
  have himproves : Relation.ReflTransGen Improves ([loader none], .empty) ([documented], layout) :=
    .head hfile (.single (.directory [documented] .empty "tests"))
  obtain ⟨-, -, hbetter⟩ := ratio_fair accept "python" 0 .empty layout [loader none] .empty 0.0 0.0
  exact ⟨himproves, (hbetter _ _ himproves).1⟩

end MaturityAxes

end HouseStyle
