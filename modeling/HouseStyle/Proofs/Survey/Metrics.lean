import HouseStyle.Proofs.Convention.Confidence
import HouseStyle.Proofs.Convention.Naming
import HouseStyle.Proofs.Survey.FileOrder
import Mathlib.Data.Finset.Lattice.Fold

/-!
# What the measures of a language say

The two measures of consistency are shares of observations that agree with the dominant label of
their tally.  In exact numbers such a share is 1 exactly where all observations agree, and as there
are only so many labels it does not fall below the share of one of them (`TrueShare`).  The mean of
a count over functions lies between its least and its greatest value (`MeanOf`).
-/

namespace HouseStyle

/-! ### Tallies of two labels -/

namespace Tally

variable {a b : String} {m n : Nat}

lemma get_pair_pos {key : String} : 0 < (ofCounts [(a, m), (b, n)]).get key ↔
    a = key ∧ 0 < m ∨ b = key ∧ 0 < n := by
  rw [get_ofCounts_pos]
  simp

lemma total_pair_pos : 0 < (ofCounts [(a, m), (b, n)]).total ↔ 0 < m ∨ 0 < n := by
  rw [total_pos_iff]
  simp only [get_pair_pos]
  constructor
  · rintro ⟨-, ⟨-, hm⟩ | ⟨-, hn⟩⟩
    · exact Or.inl hm
    · exact Or.inr hn
  · rintro (hm | hn)
    · exact ⟨a, Or.inl ⟨rfl, hm⟩⟩
    · exact ⟨b, Or.inr ⟨rfl, hn⟩⟩

lemma dominantCount_pair_eq_total_iff (hab : a ≠ b) :
    (ofCounts [(a, m), (b, n)]).dominantCount = (ofCounts [(a, m), (b, n)]).total ↔
      ¬(0 < m ∧ 0 < n) := by
  rw [dominantCount_eq_total_iff]
  simp only [get_pair_pos]
  constructor
  · rintro h ⟨hm, hn⟩
    exact hab (h a b (Or.inl ⟨rfl, hm⟩) (Or.inr ⟨rfl, hn⟩))
  · rintro h label other (⟨rfl, hm⟩ | ⟨rfl, hn⟩) (⟨rfl, hm'⟩ | ⟨rfl, hn'⟩)
    · rfl
    · exact absurd ⟨hm, hn'⟩ h
    · exact absurd ⟨hm', hn⟩ h
    · rfl

lemma total_pair_le : (ofCounts [(a, m), (b, n)]).total
    ≤ 2 * (ofCounts [(a, m), (b, n)]).dominantCount := by
  refine total_le_mul_dominantCount [a, b] fun label h => ?_
  rcases get_pair_pos.1 h with ⟨rfl, -⟩ | ⟨rfl, -⟩ <;> simp

end Tally

/-! ### Tallies of naming styles -/

namespace Names

variable {names : List String}

lemma total_styleTally_pos_iff : 0 < (styleTally names).total ↔
    ∃ name ∈ names, (NamingStyle.classify? name).isSome := by
  rw [Tally.total_pos_iff]
  simp only [get_styleTally_pos_iff, Option.isSome_iff_exists]
  constructor
  · rintro ⟨-, name, hname, style, hstyle, -⟩
    exact ⟨name, hname, style, hstyle⟩
  · rintro ⟨name, hname, style, hstyle⟩
    exact ⟨style.label, name, hname, style, hstyle, rfl⟩

/-- No two of the names show different styles. -/
def OneStyle (names : List String) : Prop :=
  ∀ name ∈ names, ∀ other ∈ names, ∀ style style', NamingStyle.classify? name = some style →
    NamingStyle.classify? other = some style' → style = style'

lemma dominantCount_styleTally_eq_total_iff :
    (styleTally names).dominantCount = (styleTally names).total ↔ OneStyle names := by
  rw [Tally.dominantCount_eq_total_iff]
  simp only [get_styleTally_pos_iff]
  constructor
  · intro h name hname other hother style style' hstyle hstyle'
    exact label_injective
      (h _ _ ⟨name, hname, style, hstyle, rfl⟩ ⟨other, hother, style', hstyle', rfl⟩)
  · rintro h - - ⟨name, hname, style, hstyle, rfl⟩ ⟨other, hother, style', hstyle', rfl⟩
    rw [h name hname other hother style style' hstyle hstyle']

lemma total_styleTally_le (names : List String) :
    (styleTally names).total ≤ 5 * (styleTally names).dominantCount := by
  refine Tally.total_le_mul_dominantCount (NamingStyle.all.map NamingStyle.label)
    fun label h => ?_
  obtain ⟨-, -, style, -, rfl⟩ := get_styleTally_pos_iff.1 h
  exact List.mem_map_of_mem (by cases style <;> decide)

end Names

/-! ### Shares in exact numbers -/

/-- A share of some observations: it is 1 exactly where something was seen and all of it agreed, has
a least value as soon as something was seen, and is 0 otherwise. -/
structure TrueShare (seen agreed : Prop) (least x : ℝ) : Prop where
  nonneg : 0 ≤ x
  le_one : x ≤ 1
  eq_one_iff : x = 1 ↔ seen ∧ agreed
  least_le : seen → least ≤ x
  eq_zero : ¬seen → x = 0

/-- The mean of a count over some functions: 0 without functions, and otherwise between the least
and the greatest count. -/
structure MeanOf (functions : List FunctionFacts) (count : FunctionFacts → Nat) (x : ℝ) : Prop where
  eq_zero : functions = [] → x = 0
  between : functions ≠ [] → ∃ f ∈ functions, ∃ g ∈ functions,
    (∀ h ∈ functions, count f ≤ count h ∧ count h ≤ count g) ∧ count f ≤ x ∧ x ≤ count g

namespace ExactNumber

variable {exp : ℝ → ℝ}

/-- A share of nothing is 0, as is every quotient by 0. -/
lemma share_eq (m n : Nat) : (Scalar.share m n : ExactNumber exp) = ⟨some (m / n)⟩ := by
  rcases Nat.eq_zero_or_pos n with rfl | hn
  · rw [Scalar.share, if_pos rfl, zero_eq, Nat.cast_zero, div_zero]
  · exact share_some m hn

end ExactNumber

namespace LanguageMetrics

open ExactNumber

variable (exp : ℝ → ℝ)

/-- Where no tally has more than some number of labels, the observations that agree with the
dominant labels are a true share. -/
lemma trueShare_agreement (tallies : List Tally) {k : Nat} (hk : 0 < k)
    (h : ∀ t ∈ tallies, t.total ≤ k * t.dominantCount) :
    ∃ x, (agreement tallies : ExactNumber exp) = ⟨some x⟩ ∧
      TrueShare (∃ t ∈ tallies, 0 < t.total) (∀ t ∈ tallies, t.dominantCount = t.total)
        (1 / k) x := by
  refine ⟨_, share_eq _ _, ?_⟩
  have hle := Count.sum_map_le_sum_map fun t (_ : t ∈ tallies) => t.dominantCount_le_total
  have heq := Count.sum_map_eq_sum_map_iff fun t (_ : t ∈ tallies) => t.dominantCount_le_total
  have hbound := Count.sum_map_le_sum_map h
  have hseen : 0 < Count.sum (tallies.map Tally.total) ↔ ∃ t ∈ tallies, 0 < t.total := by
    rw [Count.sum_pos_iff]
    simp
  rw [Count.sum_map_mul_left] at hbound
  rw [← hseen, ← heq]
  generalize Count.sum (tallies.map Tally.dominantCount) = part at *
  generalize Count.sum (tallies.map Tally.total) = whole at *
  refine ⟨by positivity, div_le_one_of_le₀ (Nat.cast_le.2 hle) (Nat.cast_nonneg _), ?_, ?_, ?_⟩
  · constructor
    · intro hone
      have hne : (whole : ℝ) ≠ 0 := by
        intro hzero
        rw [hzero, div_zero] at hone
        exact zero_ne_one hone
      exact ⟨Nat.pos_of_ne_zero (Nat.cast_ne_zero.1 hne),
        Nat.cast_injective ((div_eq_one_iff_eq hne).1 hone)⟩
    · rintro ⟨hpos, rfl⟩
      exact div_self (Nat.cast_ne_zero.2 hpos.ne')
  · intro hpos
    have hbound' : (whole : ℝ) ≤ k * part := by exact_mod_cast hbound
    rw [div_le_div_iff₀ (Nat.cast_pos.2 hk) (Nat.cast_pos.2 hpos)]
    linarith
  · intro hnot
    rw [Nat.eq_zero_of_not_pos hnot, Nat.cast_zero, div_zero]

/-- The share of the names that follow the dominant style of their kind. -/
lemma trueShare_naming (facts : LanguageFacts) :
    ∃ x, (agreement (namingTallies facts) : ExactNumber exp) = ⟨some x⟩ ∧
      TrueShare (∃ kind, ∃ name ∈ facts.names.get kind, (NamingStyle.classify? name).isSome)
        (∀ kind, Names.OneStyle (facts.names.get kind)) (1 / 5) x := by
  have hmem {t : Tally} :
      t ∈ namingTallies facts ↔ ∃ kind, Names.styleTally (facts.names.get kind) = t := by
    rw [namingTallies, List.mem_map]
    exact exists_congr fun kind => and_iff_right (by cases kind <;> decide)
  obtain ⟨x, hx, hshare⟩ := trueShare_agreement exp (namingTallies facts) (k := 5)
    (by decide) fun t ht => by
      obtain ⟨kind, rfl⟩ := hmem.1 ht
      exact Names.total_styleTally_le _
  have hseen : (∃ t ∈ namingTallies facts, 0 < t.total) ↔
      ∃ kind, ∃ name ∈ facts.names.get kind, (NamingStyle.classify? name).isSome := by
    simp only [hmem, exists_exists_eq_and, Names.total_styleTally_pos_iff]
  have hagreed : (∀ t ∈ namingTallies facts, t.dominantCount = t.total) ↔
      ∀ kind, Names.OneStyle (facts.names.get kind) := by
    simp only [hmem, forall_exists_index, forall_apply_eq_imp_iff,
      Names.dominantCount_styleTally_eq_total_iff]
  rw [hseen, hagreed, Nat.cast_ofNat] at hshare
  exact ⟨x, hx, hshare⟩

/-- The share of the quotes and indented lines that follow the dominant choice. -/
lemma trueShare_style (quotes : QuoteCount) (indentation : Indentation) :
    ∃ x, (agreement [quotes.tally, indentation.tally] : ExactNumber exp) = ⟨some x⟩ ∧
      TrueShare ((0 < quotes.single ∨ 0 < quotes.double) ∨
          (0 < indentation.spaceLines ∨ 0 < indentation.tabLines))
        (¬(0 < quotes.single ∧ 0 < quotes.double) ∧
          ¬(0 < indentation.spaceLines ∧ 0 < indentation.tabLines)) (1 / 2) x := by
  obtain ⟨x, hx, hshare⟩ := trueShare_agreement exp [quotes.tally, indentation.tally] (k := 2)
    (by decide)
    (List.forall_mem_cons.2 ⟨Tally.total_pair_le, List.forall_mem_singleton.2 Tally.total_pair_le⟩)
  simp only [List.mem_pair, exists_eq_or_imp, exists_eq_left, forall_eq_or_imp, forall_eq]
    at hshare
  rw [QuoteCount.tally, Indentation.tally, Tally.total_pair_pos, Tally.total_pair_pos,
    Tally.dominantCount_pair_eq_total_iff (by decide),
    Tally.dominantCount_pair_eq_total_iff (by decide), Nat.cast_ofNat] at hshare
  exact ⟨x, hx, hshare⟩

lemma meanOf_functionMean (functions : List FunctionFacts) (count : FunctionFacts → Nat) :
    ∃ x, (functionMean functions count : ExactNumber exp) = ⟨some x⟩ ∧
      MeanOf functions count x := by
  refine ⟨_, share_eq _ _, ?_, fun hne => ?_⟩
  · rintro rfl
    rw [List.length_nil, Nat.cast_zero, div_zero]
  · have hnonempty : functions.toFinset.Nonempty := List.toFinset_nonempty_iff _ |>.2 hne
    obtain ⟨f, hf, hleast⟩ := functions.toFinset.exists_min_image count hnonempty
    obtain ⟨g, hg, hgreatest⟩ := functions.toFinset.exists_max_image count hnonempty
    simp only [List.mem_toFinset] at hf hg hleast hgreatest
    have hlow : functions.length * count f ≤ Count.sum (functions.map count) := by
      rw [← functions.length_map count]
      exact Count.length_mul_le_sum (List.forall_mem_map.2 hleast)
    have hhigh : Count.sum (functions.map count) ≤ functions.length * count g := by
      rw [← functions.length_map count]
      exact Count.sum_le_length_mul (List.forall_mem_map.2 hgreatest)
    have hlength : (0 : ℝ) < functions.length := Nat.cast_pos.2 (List.length_pos_of_ne_nil hne)
    refine ⟨f, hf, g, hg, fun h hh => ⟨hleast h hh, hgreatest h hh⟩, ?_, ?_⟩
    · rw [le_div_iff₀ hlength, mul_comm]
      exact_mod_cast hlow
    · rw [div_le_iff₀ hlength, mul_comm]
      exact_mod_cast hhigh

/-- The measures of no files are those of sums over no files. -/
lemma consistency_ofFiles {α : Type} [Scalar α] [NumberText α] (accept : Acceptance α)
    (language : String) (files : List FileFacts) (layout : Layout) :
    (ofFiles accept language files (.ofFiles language files layout)).namingConsistency
      = agreement (namingTallies (.ofFiles language files layout)) ∧
    (ofFiles accept language files (.ofFiles language files layout)).styleConsistency
      = agreement [(LanguageFacts.ofFiles language files layout).quotes.tally,
        (LanguageFacts.ofFiles language files layout).indentation.tally] ∧
    (ofFiles accept language files (.ofFiles language files layout)).avgFunctionSize
      = functionMean (files.flatMap (·.functions)) (·.lineCount) ∧
    (ofFiles accept language files (.ofFiles language files layout)).avgComplexity
      = functionMean (files.flatMap (·.functions)) FunctionFacts.complexity := by
  cases files with
  | nil => exact ⟨rfl, rfl, rfl, rfl⟩
  | cons f files => exact ⟨rfl, rfl, rfl, rfl⟩

end LanguageMetrics

/-! ### The measures of some files -/

/-- A number that every file adds to is a sum over the files. -/
lemma LanguageFacts.sum_ofFiles {count : LanguageFacts → Nat} {part : FileFacts → Nat}
    (hempty : ∀ language layout, count (empty language layout) = 0)
    (hadd : ∀ facts f, count (facts.addFile f) = count facts + part f)
    (language : String) (files : List FileFacts) (layout : Layout) :
    count (ofFiles language files layout) = Count.sum (files.map part) := by
  rw [ofFiles, Count.foldl_eq_add count hadd, hempty, Nat.zero_add]

/-- Such a number is positive as soon as one file adds to it. -/
lemma LanguageFacts.pos_ofFiles_iff (count : LanguageFacts → Nat) (part : FileFacts → Nat)
    (hempty : ∀ language layout, count (empty language layout) = 0)
    (hadd : ∀ facts f, count (facts.addFile f) = count facts + part f)
    {language : String} {files : List FileFacts} {layout : Layout} :
    0 < count (ofFiles language files layout) ↔ ∃ f ∈ files, 0 < part f := by
  rw [sum_ofFiles hempty hadd, Count.sum_pos_iff]
  simp

namespace Analysis

variable {exp : ℝ → ℝ}

/-- The measures are true shares and means.  The consistency of names is a share of the names that
show a style: it is 1 exactly where there are some and those of each kind show one style, and at
least one fifth as soon as there are some.  The consistency of style is a share of the quotes and
indented lines: it is 1 exactly where there are some, and neither two kinds of quotes nor two kinds
of indentation, and at least one half as soon as there are some. -/
theorem measures_true (accept : Acceptance (ExactNumber exp)) (language : String)
    (files : List FileFacts) (skipped : Nat) (layout : Layout) :
    let m := (Analysis.ofFiles accept language files skipped layout).metrics
    let names := fun kind : NameKind => files.flatMap fun f => f.names.get kind
    let functions := files.flatMap (·.functions)
    let single := ∃ f ∈ files, 0 < f.quotes.single
    let double := ∃ f ∈ files, 0 < f.quotes.double
    let spaces := ∃ f ∈ files, 0 < f.indentation.spaceLines
    let tabs := ∃ f ∈ files, 0 < f.indentation.tabLines
    (∃ x, m.namingConsistency = ⟨some x⟩ ∧
      TrueShare (∃ kind, ∃ name ∈ names kind, (NamingStyle.classify? name).isSome)
        (∀ kind, Names.OneStyle (names kind)) (1 / 5) x) ∧
    (∃ x, m.styleConsistency = ⟨some x⟩ ∧
      TrueShare (single ∨ double ∨ spaces ∨ tabs) (¬(single ∧ double) ∧ ¬(spaces ∧ tabs))
        (1 / 2) x) ∧
    (∃ x, m.avgFunctionSize = ⟨some x⟩ ∧ MeanOf functions (·.lineCount) x) ∧
    (∃ x, m.avgComplexity = ⟨some x⟩ ∧ MeanOf functions FunctionFacts.complexity x) := by
  intro m names functions single double spaces tabs
  obtain ⟨hnaming, hstyle, hsize, hcomplexity⟩ :=
    LanguageMetrics.consistency_ofFiles accept language files layout
  refine ⟨?_, ?_, ?_, ?_⟩
  · obtain ⟨x, hx, hshare⟩ := LanguageMetrics.trueShare_naming exp
      (.ofFiles language files layout)
    simp only [LanguageFacts.get_names_ofFiles] at hshare
    exact ⟨x, hnaming.trans hx, hshare⟩
  · obtain ⟨x, hx, hshare⟩ := LanguageMetrics.trueShare_style exp
      (LanguageFacts.ofFiles language files layout).quotes
      (LanguageFacts.ofFiles language files layout).indentation
    rw [LanguageFacts.pos_ofFiles_iff (·.quotes.single) (·.quotes.single)
        (fun _ _ => rfl) (fun _ _ => rfl),
      LanguageFacts.pos_ofFiles_iff (·.quotes.double) (·.quotes.double)
        (fun _ _ => rfl) (fun _ _ => rfl),
      LanguageFacts.pos_ofFiles_iff (·.indentation.spaceLines) (·.indentation.spaceLines)
        (fun _ _ => rfl) (fun _ _ => rfl),
      LanguageFacts.pos_ofFiles_iff (·.indentation.tabLines) (·.indentation.tabLines)
        (fun _ _ => rfl) (fun _ _ => rfl), or_assoc] at hshare
    exact ⟨x, hstyle.trans hx, hshare⟩
  · exact hsize ▸ LanguageMetrics.meanOf_functionMean exp functions (·.lineCount)
  · exact hcomplexity ▸ LanguageMetrics.meanOf_functionMean exp functions FunctionFacts.complexity

end Analysis

end HouseStyle
