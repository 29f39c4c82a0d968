import HouseStyle.Proofs.Overview.Index

/-!
# What an overview compares

A name is compared if two languages report it, where the main profile counts for its own language
and a language without files for none.  Each of them stands in the comparison with the last value
that it shows, and the consistency is that of these values (`Compares`).  Behind them come the two
measures if at least two languages have files (`ComparesMeasure`).  A language without files is in
the measures of the overview and nowhere else in it.
-/

namespace HouseStyle

variable {α : Type}

namespace Comparison

open Convention

/-- The measures of a language, if it has files. -/
def measuresOf? (metrics : SortedMap (LanguageMetrics α)) (language : String) :
    Option (LanguageMetrics α) :=
  (metrics.get? language).filter LanguageMetrics.hasData

/-- Whether a language reports a name, with its measures or with the main profile. -/
def Reports (primary : Option (Profile α)) (metrics : SortedMap (LanguageMetrics α))
    (name language : String) : Prop :=
  (∃ m, measuresOf? metrics language = some m ∧
      ∃ c ∈ m.conventions, c.kind ≠ .layout ∧ c.name = name) ∨
    ∃ p, primary = some p ∧ languageKey p = language ∧
      ∃ c ∈ p.conventions, c.kind ≠ .layout ∧ c.name = name

/-- The value that a language shows for a name: the last one in its measures, or else the last one
in the main profile if that is about the language. -/
def shownValue? (primary : Option (Profile α)) (metrics : SortedMap (LanguageMetrics α))
    (name language : String) : Option (ConventionValue α) :=
  ((measuresOf? metrics language).bind fun m => lastValue? m.conventions name).or
    (primary.bind fun p =>
      if language = languageKey p then lastValue? p.conventions name else none)

/-- Whether at least two languages have files. -/
def Several (metrics : SortedMap (LanguageMetrics α)) : Prop :=
  ∃ l l', l ≠ l' ∧ (measuresOf? metrics l).isSome ∧ (measuresOf? metrics l').isSome

variable [Scalar α]

/-- A comparison of exactly the values that the languages show for its name. -/
structure Compares (primary : Option (Profile α)) (metrics : SortedMap (LanguageMetrics α))
    (c : Comparison α) : Prop where
  languages : c.languages = c.values.keys
  ascending : c.languages.Pairwise (· < ·)
  values : ∀ language, c.values.get? language = shownValue? primary metrics c.name language
  consistency : c.consistency = ofValues c.values.values
  recommendation : c.recommendation = recommend c.name c.consistency

/-- A comparison of a measure of exactly the languages that have files. -/
structure ComparesMeasure (metrics : SortedMap (LanguageMetrics α))
    (measure : LanguageMetrics α → α) (c : Comparison α) : Prop where
  languages : c.languages = c.values.keys
  values : ∀ language, c.values.get? language
    = (measuresOf? metrics language).map fun m => .number (measure m)
  consistency : c.consistency = spread (c.values.values.filterMap ConventionValue.number?)

variable {primary : Option (Profile α)} {metrics : SortedMap (LanguageMetrics α)}
  {name language : String}

/-! ### What the languages report -/

omit [Scalar α] in
lemma get?_withData :
    (metrics.filter fun _ m => m.hasData).get? language = measuresOf? metrics language :=
  SortedMap.get?_filter ..

omit [Scalar α] in
/-- The index of the languages with files holds the values that the languages show. -/
lemma valueAt?_withData :
    valueAt? (index primary (metrics.filter fun _ m => m.hasData)) name language
      = shownValue? primary metrics name language := by
  rw [valueAt?_index, get?_withData]
  rfl

omit [Scalar α] in
lemma isSome_shownValue? :
    (shownValue? primary metrics name language).isSome ↔ Reports primary metrics name language := by
  rw [shownValue?, Option.isSome_or, Bool.or_eq_true]
  refine or_congr ?_ ?_
  · simp [Option.isSome_bind, Option.any_eq_true, isSome_lastValue?]
  · cases primary with
    | none => simp
    | some p =>
      simp only [Option.bind_some, Option.some.injEq, exists_eq_left', eq_comm (a := language)]
      split_ifs with h
      · simp [h, isSome_lastValue?]
      · simp [h]

/-! ### The comparisons of names -/

lemma eq_of_ofEntry? {values : SortedMap (ConventionValue α)} {c : Comparison α}
    (h : ofEntry? name values = some c) : 2 ≤ values.size ∧
      c = ⟨name, values.keys, values, ofValues values.values,
        recommend name (ofValues values.values)⟩ := by
  unfold ofEntry? at h
  split at h
  · cases h
  · exact ⟨by omega, (Option.some.inj h).symm⟩

/-- The comparisons stand in the order of their names. -/
lemma pairwise_ofIndex (index : ConventionIndex α) :
    (ofIndex index).Pairwise fun a b => a.name < b.name := by
  refine List.Pairwise.filterMap _ ?_ index.ascending
  intro e e' hlt c hc c' hc'
  obtain ⟨-, rfl⟩ := eq_of_ofEntry? hc
  obtain ⟨-, rfl⟩ := eq_of_ofEntry? hc'
  exact hlt

/-- A name is compared if an index has a value of it for two languages. -/
lemma exists_mem_ofIndex {index : ConventionIndex α} :
    (∃ c ∈ ofIndex index, c.name = name) ↔
      ∃ l l', l ≠ l' ∧ (valueAt? index name l).isSome ∧ (valueAt? index name l').isSome := by
  constructor
  · rintro ⟨c, hc, rfl⟩
    obtain ⟨e, he, hc⟩ := List.mem_filterMap.1 hc
    obtain ⟨hsize, rfl⟩ := eq_of_ofEntry? hc
    obtain ⟨l, l', hne, hl, hl'⟩ := SortedMap.two_le_size_iff.1 hsize
    have hget := SortedMap.mem_entries_iff.1 he
    exact ⟨l, l', hne, by simpa [valueAt?, hget] using hl, by simpa [valueAt?, hget] using hl'⟩
  · rintro ⟨l, l', hne, hl, hl'⟩
    obtain ⟨values, hvalues⟩ : ∃ values, index.get? name = some values := by
      rw [valueAt?, Option.isSome_bind] at hl
      cases hget : index.get? name with
      | none => simp [hget] at hl
      | some values => exact ⟨values, rfl⟩
    rw [valueAt?, hvalues] at hl hl'
    have hsize := SortedMap.two_le_size_iff.2 ⟨l, l', hne, hl, hl'⟩
    have hentry : (name, values) ∈ index.entries := SortedMap.mem_entries_iff.2 hvalues
    exact ⟨⟨name, values.keys, values, ofValues values.values, _⟩,
      List.mem_filterMap.2 ⟨_, hentry, if_neg (Nat.not_lt.2 hsize)⟩, rfl⟩

/-- A comparison of an index has the values of the index. -/
lemma of_mem_ofIndex {index : ConventionIndex α} {c : Comparison α} (h : c ∈ ofIndex index) :
    c.languages = c.values.keys ∧ (∀ l, c.values.get? l = valueAt? index c.name l) ∧
      c.consistency = ofValues c.values.values ∧
        c.recommendation = recommend c.name c.consistency := by
  obtain ⟨e, he, hc⟩ := List.mem_filterMap.1 h
  obtain ⟨-, rfl⟩ := eq_of_ofEntry? hc
  refine ⟨rfl, fun l => ?_, rfl, rfl⟩
  rw [valueAt?, SortedMap.mem_entries_iff.1 he, Option.bind_some]

/-! ### The comparisons of measures -/

omit [Scalar α] in
/-- Languages without files do not count a second time. -/
lemma filter_withData :
    (metrics.filter fun _ m => m.hasData).filter (fun _ m => m.hasData)
      = metrics.filter fun _ m => m.hasData := by
  refine SortedMap.ext_get? fun key => ?_
  rw [SortedMap.get?_filter, get?_withData, measuresOf?, Option.filter_filter]
  simp

omit [Scalar α] in
lemma several_iff : Several metrics ↔ 2 ≤ (metrics.filter fun _ m => m.hasData).size := by
  simp only [SortedMap.two_le_size_iff, get?_withData, Several]

variable [NumberText α]

lemma compares_ofMeasure (metrics : SortedMap (LanguageMetrics α)) (m : Measure α) :
    ComparesMeasure metrics m.value (ofMeasure (metrics.filter fun _ m => m.hasData) m) where
  languages := by simp [ofMeasure, SortedMap.keys, SortedMap.map]
  values language := by rw [ofMeasure, SortedMap.get?_map, get?_withData]
  consistency := by
    simp only [ofMeasure, SortedMap.values, SortedMap.map, List.map_map, List.filterMap_map]
    congr 1
    rw [← List.filterMap_eq_map]
    rfl

end Comparison

namespace Overview

open Comparison

variable [Scalar α] [NumberText α]

/-- The comparisons of an overview: first those of the names that two languages report, one for each
name and ascending by name, and then those of the measures if two languages have files.  Leaving out
the languages without files changes nothing but the measures. -/
theorem comparisons_integrate (now : α) (primary : Option (Profile α))
    (metrics : SortedMap (LanguageMetrics α)) :
    (∃ named derived,
      (integrate now primary metrics).comparisons = named ++ derived ∧
      named.Pairwise (fun a b => a.name < b.name) ∧
      (∀ name, (∃ c ∈ named, c.name = name) ↔
        ∃ l l', l ≠ l' ∧ Reports primary metrics name l ∧ Reports primary metrics name l') ∧
      (∀ c ∈ named, Compares primary metrics c) ∧
      (Several metrics → ∃ a b, derived = [a, b] ∧
        a.name = "avg_complexity" ∧ ComparesMeasure metrics LanguageMetrics.avgComplexity a ∧
        b.name = "avg_function_size" ∧ ComparesMeasure metrics LanguageMetrics.avgFunctionSize b) ∧
      (¬ Several metrics → derived = [])) ∧
    { integrate now primary (metrics.filter fun _ m => m.hasData) with metrics }
      = integrate now primary metrics := by
  refine ⟨⟨ofIndex (index primary (metrics.filter fun _ m => m.hasData)),
    derived (metrics.filter fun _ m => m.hasData), rfl, pairwise_ofIndex _, fun name => ?_,
    fun c hc => ?_, fun hseveral => ?_, fun hfew => ?_⟩, ?_⟩
  · simp only [exists_mem_ofIndex, valueAt?_withData, isSome_shownValue?]
  · obtain ⟨hlanguages, hvalues, hconsistency, hrecommendation⟩ := of_mem_ofIndex hc
    have hascending : c.languages.Pairwise (· < ·) := by
      rw [hlanguages]
      exact List.pairwise_map.2 c.values.ascending
    exact ⟨hlanguages, hascending, fun l => (hvalues l).trans valueAt?_withData, hconsistency,
      hrecommendation⟩
  · rw [several_iff] at hseveral
    rw [derived, filter_withData, if_neg (by omega)]
    exact ⟨_, _, rfl, rfl, compares_ofMeasure metrics ⟨_, _, _, _⟩, rfl,
      compares_ofMeasure metrics ⟨_, _, _, _⟩⟩
  · rw [several_iff] at hfew
    rw [derived, filter_withData, if_pos (by omega)]
  · simp only [integrate, filter_withData]

/-- Of three languages that use quotes those two are compared that have files. -/
example :
    let measures (files : Nat) (quotes : String) : LanguageMetrics Float :=
      { LanguageMetrics.empty "" with
        fileCount := files
        conventions := [⟨.style, "quote_style", .text quotes, 0.9, 3, []⟩] }
    (integrate 0.0 none (.ofList [("go", measures 1 "double"), ("python", measures 2 "single"),
        ("rust", measures 0 "double")])).comparisons.map (fun c => (c.name, c.languages))
      = [("quote_style", ["go", "python"]), ("avg_complexity", ["go", "python"]),
        ("avg_function_size", ["go", "python"])] := by
  decide +kernel

end Overview

end HouseStyle
