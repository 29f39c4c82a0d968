import HouseStyle.Proofs.Convention.Catalog
import HouseStyle.Proofs.Project.Work
import HouseStyle.Proofs.Snapshot.Ranges
import HouseStyle.Proofs.Survey.Steps

/-!
# Observed conventions keep to their bounds

Every convention is made by the same function, which cuts off the confidence and the examples, so
it lies in its ranges whatever was counted.  The only number that a convention can have as its value
is the width of a step, and this is spelled by the label of a step.  The shares among the measures
of a language are shares of a part in its whole.
-/

namespace HouseStyle

variable {α : Type} [Scalar α]

/-! ### Conventions -/

/-- A convention whose numbers are finite. -/
structure Convention.Finite (c : Convention α) : Prop where
  value : c.value.Storable
  confidence : Scalar.isFinite c.confidence = true

/-- A convention whose numbers are finite and lie in their ranges. -/
structure Convention.Sound (c : Convention α) : Prop where
  finite : c.Finite
  inRange : c.InRange

namespace Convention

/-- A convention that a tally shows is about its dominant label. -/
lemma exists_of_ofTally? {accept : Acceptance α} {kind : ConventionKind} {name : String}
    {tally : Tally} {examples : List String} {c : Convention α}
    (h : ofTally? accept kind name tally examples = some c) :
    ∃ e confidence, tally.dominant? = some e ∧
      c = make kind name (.text e.1) confidence e.2 examples := by
  obtain ⟨label, count, hleads, -, -, rfl⟩ := ofTally?_eq_some_iff.1 h
  exact ⟨(label, count), _, Tally.dominant?_eq_some_iff.2 hleads, rfl⟩

variable [LawfulScalar α]

lemma sound_make {kind : ConventionKind} {name : String} {value : ConventionValue α}
    (hvalue : value.Storable) (confidence : α) (frequency : Nat) (examples : List String) :
    (make kind name value confidence frequency examples).Sound := by
  have hconfidence := Scalar.finiteWithin_clampUnit confidence
  exact ⟨⟨hvalue, hconfidence.isFinite⟩, hconfidence.within, List.length_take_le _ _⟩

lemma sound_of_ofTally? {accept : Acceptance α} {kind : ConventionKind} {name : String}
    {tally : Tally} {examples : List String} {c : Convention α}
    (h : ofTally? accept kind name tally examples = some c) : c.Sound := by
  obtain ⟨e, confidence, -, rfl⟩ := exists_of_ofTally? h
  exact sound_make (by trivial) _ _ _

/-- The width of a step is finite, since its label is a number of columns. -/
lemma sound_of_indentSize? [NumberText α] {accept : Acceptance α} {steps : Tally}
    {c : Convention α} (hsteps : steps.Columns)
    (hreads : ∀ e ∈ steps.counts.entries, NumberText.Reads α (Number.ofDigits e.1.toList))
    (h : indentSize? accept steps = some c) : c.Sound := by
  simp only [indentSize?, Option.bind_eq_bind, Option.bind_eq_some_iff] at h
  obtain ⟨step, hstep, label, hlabel, width, hwidth, hc⟩ := h
  obtain ⟨e, confidence, hdominant, rfl⟩ := exists_of_ofTally? hstep
  obtain rfl := Option.some.inj hlabel
  have hmem := Tally.mem_of_dominant? hdominant
  obtain ⟨n, hn⟩ := hsteps e hmem
  have hread := hreads e hmem
  rw [hn, Nat.repr, String.toList_ofList, Number.ofDigits_toDigits] at hread
  obtain ⟨x, hx, hfinite⟩ := Number.exists_ofLabel?_repr hread
  rw [hn, hx] at hwidth
  obtain rfl := Option.some.inj hwidth
  obtain rfl := Option.some.inj hc
  have hmade : (make .style "indent_size" (.text e.1) confidence e.2 []).Sound :=
    sound_make (by trivial) _ _ _
  exact ⟨⟨hfinite, hmade.finite.confidence⟩, hmade.inRange.confidence, hmade.inRange.examples⟩

variable [NumberText α]

lemma sound_of_mem_style {accept : Acceptance α} {facts : LanguageFacts} {c : Convention α}
    (hsteps : facts.indentation.steps.Columns)
    (hreads : ∀ e ∈ facts.indentation.steps.counts.entries,
      NumberText.Reads α (Number.ofDigits e.1.toList))
    (h : c ∈ style accept facts) : c.Sound := by
  simp only [style, List.mem_append, Option.mem_toList] at h
  rcases h with ((h | h) | h) | h
  · exact sound_of_ofTally? h
  · unfold indentation at h
    split at h
    · cases h
    next step hstep =>
      split_ifs at h
      · rcases List.mem_cons.1 h with rfl | h
        · exact sound_of_ofTally? hstep
        · exact sound_of_indentSize? hsteps hreads (Option.mem_toList.1 h)
      · obtain rfl := List.mem_singleton.1 h
        exact sound_of_ofTally? hstep
  · exact sound_of_ofTally? h
  · exact sound_of_ofTally? h

omit [NumberText α] in
lemma sound_of_mem_layout {accept : Acceptance α} {facts : LanguageFacts} {c : Convention α}
    (h : c ∈ layout accept facts) : c.Sound := by
  simp only [layout, List.mem_append, List.mem_filterMap, Option.mem_toList] at h
  rcases h with ⟨custom, -, h⟩ | h
  · simp only [ofCustom?] at h
    split_ifs at h
    obtain rfl := Option.some.inj h
    exact sound_make (by trivial) _ _ _
  · exact sound_of_ofTally? h

omit [NumberText α] in
lemma sound_of_mem_documentation {accept : Acceptance α} {facts : LanguageFacts}
    {c : Convention α} (h : c ∈ documentation accept facts) : c.Sound := by
  simp only [documentation, List.mem_append, Option.mem_toList] at h
  rcases h with (h | h) | h
  · exact sound_of_ofTally? h
  · exact sound_of_ofTally? h
  · simp only [highCoverage?, Option.bind_eq_bind, Option.bind_eq_some_iff] at h
    obtain ⟨coverage, -, -, -, h⟩ := h
    obtain rfl := Option.some.inj h
    exact sound_make (by trivial) _ _ _

/-- All conventions that a language shows keep to their bounds. -/
lemma sound_of_mem_allObserved {accept : Acceptance α} {facts : LanguageFacts} {c : Convention α}
    (hsteps : facts.indentation.steps.Columns)
    (hreads : ∀ e ∈ facts.indentation.steps.counts.entries,
      NumberText.Reads α (Number.ofDigits e.1.toList))
    (h : c ∈ allObserved accept facts) : c.Sound := by
  obtain ⟨kind, -, h⟩ := List.mem_flatMap.1 h
  have hfound := (List.mem_filter.1 h).1
  cases kind with
  | naming =>
    obtain ⟨nameKind, -, hnames⟩ := List.mem_filterMap.1 hfound
    exact sound_of_ofTally? hnames
  | layout => exact sound_of_mem_layout hfound
  | style => exact sound_of_mem_style hsteps hreads hfound
  | documentation => exact sound_of_mem_documentation hfound

end Convention

/-! ### Measures -/

/-- Measures whose numbers are finite. -/
structure LanguageMetrics.Finite (m : LanguageMetrics α) : Prop where
  avgFunctionSize : Scalar.isFinite m.avgFunctionSize = true
  avgComplexity : Scalar.isFinite m.avgComplexity = true
  namingConsistency : Scalar.isFinite m.namingConsistency = true
  styleConsistency : Scalar.isFinite m.styleConsistency = true
  conventions : ∀ c ∈ m.conventions, c.Finite

/-- Measures whose numbers are finite and lie in their ranges, as those of their conventions do. -/
structure LanguageMetrics.Sound (m : LanguageMetrics α) : Prop where
  finite : m.Finite
  inRange : m.InRange
  conventions : ∀ c ∈ m.conventions, c.Sound

namespace LanguageMetrics

/-- Whether what the measures of some files are computed from has a property, which may be to fit
into some bits: the counts that are divided, and the steps of the indentation. -/
structure Counts (fits : Nat → Prop) (files : List FileFacts) (facts : LanguageFacts) : Prop where
  functions : fits (files.flatMap (·.functions)).length
  lines : fits (Count.sum ((files.flatMap (·.functions)).map (·.lineCount)))
  complexity : fits (Count.sum ((files.flatMap (·.functions)).map FunctionFacts.complexity))
  names : fits (Count.sum ((namingTallies facts).map Tally.total))
  style : fits (Count.sum ([facts.quotes.tally, facts.indentation.tally].map Tally.total))
  steps : ∀ e ∈ facts.indentation.steps.counts.entries, fits (Number.ofDigits e.1.toList)

/-- Every count has the property that says nothing. -/
lemma counts_true (files : List FileFacts) (facts : LanguageFacts) :
    Counts (fun _ => True) files facts :=
  ⟨trivial, trivial, trivial, trivial, trivial, fun _ _ => trivial⟩

instance {files : List FileFacts} {facts : LanguageFacts} {limit : Nat} :
    Decidable (Counts (· < limit) files facts) :=
  decidable_of_iff
    ((files.flatMap (·.functions)).length < limit ∧
      Count.sum ((files.flatMap (·.functions)).map (·.lineCount)) < limit ∧
      Count.sum ((files.flatMap (·.functions)).map FunctionFacts.complexity) < limit ∧
      Count.sum ((namingTallies facts).map Tally.total) < limit ∧
      Count.sum ([facts.quotes.tally, facts.indentation.tally].map Tally.total) < limit ∧
      ∀ e ∈ facts.indentation.steps.counts.entries, Number.ofDigits e.1.toList < limit)
    ⟨fun ⟨hf, hl, hc, hn, hs, hw⟩ => ⟨hf, hl, hc, hn, hs, hw⟩,
      fun ⟨hf, hl, hc, hn, hs, hw⟩ => ⟨hf, hl, hc, hn, hs, hw⟩⟩

variable [LawfulScalar α]

lemma finiteWithin_agreement {tallies : List Tally}
    (h : Scalar.CountsTo α (Count.sum (tallies.map Tally.total))) :
    Scalar.FiniteWithin (0.0 : α) 1.0 (agreement tallies) := by
  refine Scalar.finiteWithin_share ?_ h
  clear h
  induction tallies with
  | nil => exact Nat.le_refl _
  | cons t tallies ih =>
    simp only [List.map_cons, Count.sum_cons]
    exact Nat.add_le_add t.dominantCount_le_total ih

variable [NumberText α] {fits : Nat → Prop}

lemma sound_ofFiles (hfits : Scalar.Handles α fits) (accept : Acceptance α) (language : String)
    {files : List FileFacts} {facts : LanguageFacts} (hsteps : facts.indentation.steps.Columns)
    (h : files ≠ [] → Counts fits files facts) : (ofFiles accept language files facts).Sound := by
  unfold ofFiles
  split
  · have hzero : Scalar.FiniteWithin (0.0 : α) 1.0 0.0 := Scalar.finiteWithin_zero
    exact ⟨⟨hzero.isFinite, hzero.isFinite, hzero.isFinite, hzero.isFinite, nofun⟩,
      ⟨hzero.within, hzero.within⟩, nofun⟩
  next hfiles =>
    have hcounts := h fun hnil => hfiles (by rw [hnil]; rfl)
    have hfunctions := hfits.countsTo hcounts.functions
    have hnaming : Scalar.FiniteWithin (0.0 : α) 1.0 (agreement (namingTallies facts)) :=
      finiteWithin_agreement (hfits.countsTo hcounts.names)
    have hstyle : Scalar.FiniteWithin (0.0 : α) 1.0
        (agreement [facts.quotes.tally, facts.indentation.tally]) :=
      finiteWithin_agreement (hfits.countsTo hcounts.style)
    have hconventions : ∀ c ∈ Convention.allObserved accept facts, c.Sound := fun c hc =>
      Convention.sound_of_mem_allObserved hsteps (fun e he => hfits.reads (hcounts.steps e he)) hc
    exact ⟨⟨Scalar.isFinite_share (hfits.countsTo hcounts.lines) hfunctions,
      Scalar.isFinite_share (hfits.countsTo hcounts.complexity) hfunctions, hnaming.isFinite,
      hstyle.isFinite, fun c hc => (hconventions c hc).finite⟩, ⟨hnaming.within, hstyle.within⟩,
      hconventions⟩

omit [LawfulScalar α] [NumberText α] in
lemma Sound.withoutLayout {m : LanguageMetrics α} (h : m.Sound) : m.withoutLayout.Sound where
  finite := ⟨h.finite.avgFunctionSize, h.finite.avgComplexity, h.finite.namingConsistency,
    h.finite.styleConsistency, fun c hc => h.finite.conventions c (List.mem_filter.1 hc).1⟩
  inRange := ⟨h.inRange.namingConsistency, h.inRange.styleConsistency⟩
  conventions := fun c hc => h.conventions c (List.mem_filter.1 hc).1

end LanguageMetrics

/-- Whether what is counted in the files that are read of a language has a property. -/
def Workload.Counts (fits : Nat → Prop) (w : Workload) (layout : Layout) : Prop :=
  LanguageMetrics.Counts fits w.survey.1 (.ofFiles w.language.id w.survey.1 layout)

instance {w : Workload} {layout : Layout} {limit : Nat} :
    Decidable (w.Counts (· < limit) layout) :=
  inferInstanceAs (Decidable (LanguageMetrics.Counts _ _ _))

/-- The measures of what was read keep to their bounds. -/
lemma Workload.sound_analysis [LawfulScalar α] [NumberText α] {fits : Nat → Prop}
    (hfits : Scalar.Handles α fits) {w : Workload} (s : Settings α) {layout : Layout}
    (h : w.files ≠ [] → w.Counts fits layout) : (w.analysis s layout).metrics.Sound :=
  LanguageMetrics.sound_ofFiles hfits _ _
    (LanguageFacts.columns_ofFiles fun _ hf => w.columns_survey hf)
    fun hfiles => h fun hnil => hfiles (congrArg Prod.fst (survey_of_nil hnil))

end HouseStyle
