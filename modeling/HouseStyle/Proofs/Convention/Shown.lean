import HouseStyle.Proofs.Convention.Bounds
import HouseStyle.Proofs.Convention.Floor
import HouseStyle.Proofs.Overview.Index

/-!
# What the reported conventions show

Each reported convention stands for something that was counted.  It either names the label that
leads a tally, with the number of its observations, or says that some directories are there or that
nearly everything is documented (`Convention.Shown`).  No two of them have one name, so whatever is
taken from them can be looked up by name, and an index of all languages loses none of them.
-/

namespace HouseStyle

namespace Convention

variable {α : Type} [Scalar α]

/-- The tallies whose leading labels are reported, by the names of the conventions. -/
def tallies (facts : LanguageFacts) : List (String × Tally) :=
  NameKind.all.map (fun kind => (kind.convention, Names.styleTally (facts.names.get kind)))
    ++ [("dominant_language", facts.layout.sourceFiles), ("quote_style", facts.quotes.tally),
      ("indentation", facts.indentation.tally), ("indent_size", facts.indentation.steps),
      ("type_annotations", facts.annotations), ("import_style", facts.importStyles),
      ("doc_comment_style", facts.docDelimiters), ("docstring_format", facts.docFormats)]

/-- The value that a convention of some name has for a label: the width of a step is the number
that the label spells, and every other label stands for itself. -/
def valueOf? [NumberText α] (name label : String) : Option (ConventionValue α) :=
  if name = "indent_size" then (Number.ofLabel? label).map .number else some (.text label)

/-- The value of a convention is that of the label that leads the tally, observed as often as the
convention says, or a flag where there is no tally. -/
def ReadOff [NumberText α] (c : Convention α) : Option Tally → Prop
  | some tally => ∃ label, tally.Leads label c.frequency ∧ valueOf? c.name label = some c.value
  | none => c.value = .flag true

/-- A convention that stands for what was counted, and whose numbers are in their ranges. -/
structure Counted [NumberText α] (facts : LanguageFacts) (c : Convention α) : Prop where
  /-- The name is one of those for its kind. -/
  named : c.name ∈ namesOf c.kind
  confidence : Scalar.within 0.0 1.0 c.confidence = true
  frequency : 0 < c.frequency
  examples : c.examples.length ≤ 5
  /-- The value is read off the tally of its name. -/
  value : c.ReadOff ((tallies facts).lookup c.name)

/-- A convention that is counted and reaches the floor. -/
structure Shown [NumberText α] (accept : Acceptance α) (facts : LanguageFacts)
    (c : Convention α) : Prop extends c.Counted facts where
  floor : Scalar.le accept.floor c.confidence = true

/-! ### Kinds and names -/

section Kinds

variable [NumberText α] {accept : Acceptance α} {facts : LanguageFacts} {c : Convention α}

lemma kind_of_mem_observed {kind : ConventionKind} (h : c ∈ observed kind accept facts) :
    c.kind = kind := by
  have hentry := (sublist_observed kind accept facts).subset (List.mem_map_of_mem h)
  obtain ⟨name, -, heq⟩ := List.mem_map.1 hentry
  exact (congrArg Prod.fst heq).symm

/-- The conventions of one kind are those that are observed of it. -/
lemma filter_kind_allObserved (kind : ConventionKind) (accept : Acceptance α)
    (facts : LanguageFacts) : (allObserved accept facts).filter (fun c => c.kind = kind)
      = observed kind accept facts := by
  have hfilter (other : ConventionKind) : (observed other accept facts).filter
      (fun c => c.kind = kind) = if other = kind then observed kind accept facts else [] := by
    split_ifs with heq
    · subst heq
      exact List.filter_eq_self.2 fun c hc => decide_eq_true (kind_of_mem_observed hc)
    · refine List.filter_eq_nil_iff.2 fun c hc hkind => heq ?_
      rw [← kind_of_mem_observed hc, of_decide_eq_true hkind]
  rw [allObserved, List.filter_flatMap]
  simp only [hfilter]
  cases kind <;> simp [ConventionKind.all]

lemma nodup_names (accept : Acceptance α) (facts : LanguageFacts) :
    ((allObserved accept facts).map name).Nodup := by
  have hnodup := nodup_catalog.sublist ((entries_sublist_catalog accept facts).map Prod.snd)
  rw [List.map_map] at hnodup
  exact hnodup

end Kinds

/-! ### Single conventions -/

variable [OrderedScalar α] {accept : Acceptance α} {facts : LanguageFacts} {c : Convention α}

/-- Where nearly everything is documented something is. -/
lemma documentedItems_pos (hitems : facts.documentableItems ≠ 0)
    (h : Scalar.lt highCoverage
      (Scalar.share facts.documentedItems facts.documentableItems : α) = true) :
    0 < facts.documentedItems := by
  refine Nat.pos_of_ne_zero fun hzero => ?_
  have hnot : Scalar.lt (highCoverage : α) (Scalar.share 0 facts.documentableItems) = false :=
    Scalar.not_lt_share_zero (by decide) hitems
  rw [hzero, hnot] at h
  exact Bool.false_ne_true h

variable [NumberText α]

lemma counted_of_ofTally? {kind : ConventionKind} {name : String} {tally : Tally}
    {examples : List String} (hname : name ∈ namesOf kind) (hsize : name ≠ "indent_size")
    (htally : (tallies facts).lookup name = some tally)
    (h : ofTally? accept kind name tally examples = some c) : c.Counted facts := by
  obtain ⟨⟨label, count⟩, confidence, hdominant, rfl⟩ := exists_of_ofTally? h
  have hleads := Tally.leads_of_dominant? hdominant
  refine ⟨hname, Scalar.within_clampUnit _, hleads.positive, List.length_take_le _ _, ?_⟩
  change ReadOff _ ((tallies facts).lookup name)
  rw [htally]
  refine ⟨label, hleads, ?_⟩
  change valueOf? name label = _
  rw [valueOf?, if_neg hsize]
  rfl

lemma counted_of_indentSize? (h : indentSize? accept facts.indentation.steps = some c) :
    c.Counted facts := by
  simp only [indentSize?, Option.bind_eq_bind, Option.bind_eq_some_iff] at h
  obtain ⟨step, hstep, label, hlabel, width, hwidth, hc⟩ := h
  obtain ⟨⟨label', count⟩, confidence, hdominant, rfl⟩ := exists_of_ofTally? hstep
  obtain rfl := Option.some.inj hlabel
  obtain rfl := Option.some.inj hc
  have hleads := Tally.leads_of_dominant? hdominant
  have hname : "indent_size" ∈ namesOf .style := by decide
  refine ⟨hname, Scalar.within_clampUnit _, hleads.positive, List.length_take_le _ _, label',
    hleads, ?_⟩
  change valueOf? "indent_size" label' = _
  rw [valueOf?, if_pos rfl, hwidth]
  rfl

lemma counted_of_ofNames? {kind : NameKind}
    (h : ofNames? accept kind (facts.names.get kind) = some c) : c.Counted facts := by
  have hname : kind.convention ∈ namesOf .naming :=
    List.mem_map_of_mem (by cases kind <;> decide)
  have hsize : kind.convention ≠ "indent_size" := by cases kind <;> decide
  refine counted_of_ofTally? hname hsize ?_ h
  cases kind <;> rfl

lemma counted_of_ofCustom? {custom : String × List String} (hcustom : custom ∈ Layout.customary)
    (h : ofCustom? facts.layout custom.1 custom.2 = some c) : c.Counted facts := by
  simp only [ofCustom?] at h
  split_ifs at h with hempty
  obtain rfl := Option.some.inj h
  have hname : custom.1 ∈ namesOf .layout := List.mem_append_left _ (List.mem_map_of_mem hcustom)
  have hfound : 0 < (facts.layout.present custom.2).length :=
    List.length_pos_of_ne_nil fun hnil => hempty (by rw [hnil]; rfl)
  have htally : (tallies facts).lookup custom.1 = none := by
    have hall : ∀ e ∈ Layout.customary, (tallies facts).lookup e.1 = none := by
      simp only [Layout.customary, List.forall_mem_cons]
      exact ⟨rfl, rfl, rfl, rfl, List.forall_mem_nil _⟩
    exact hall custom hcustom
  refine ⟨hname, Scalar.within_clampUnit _, hfound, List.length_take_le _ _, ?_⟩
  change ReadOff _ ((tallies facts).lookup custom.1)
  rw [htally]
  rfl

lemma counted_of_highCoverage? (h : highCoverage? facts = some c) : c.Counted facts := by
  simp only [highCoverage?, LanguageFacts.documentationCoverage?, Option.bind_eq_bind,
    Option.bind_eq_some_iff] at h
  obtain ⟨coverage, hcoverage, _, hguard, hc⟩ := h
  obtain rfl := Option.some.inj hc
  split_ifs at hcoverage with hitems
  obtain rfl := Option.some.inj hcoverage
  have hhigh : Scalar.lt highCoverage
      (Scalar.share facts.documentedItems facts.documentableItems : α) = true := by
    by_contra hlow
    rw [guard, if_neg hlow] at hguard
    cases hguard
  have hname : "high_documentation_coverage" ∈ namesOf .documentation := by decide
  exact ⟨hname, Scalar.within_clampUnit _, documentedItems_pos hitems hhigh,
    List.length_take_le _ _, rfl⟩

/-! ### All conventions -/

lemma counted_of_mem_indentation (h : c ∈ indentation accept facts.indentation) :
    c.Counted facts := by
  unfold indentation at h
  split at h
  · cases h
  next d hd =>
    have hcounted : d.Counted facts := counted_of_ofTally? (by decide) (by decide) rfl hd
    split_ifs at h
    · rcases List.mem_cons.1 h with rfl | h
      · exact hcounted
      · exact counted_of_indentSize? (Option.mem_toList.1 h)
    · exact List.mem_singleton.1 h ▸ hcounted

/-- Every convention that is found is counted, whether or not it reaches the floor. -/
lemma shown_of_mem_observed {kind : ConventionKind} (h : c ∈ observed kind accept facts) :
    c.Shown accept facts := by
  obtain ⟨hfound, hfloor⟩ := List.mem_filter.1 h
  refine ⟨?_, hfloor⟩
  cases kind with
  | naming =>
    obtain ⟨kind, -, hkind⟩ := List.mem_filterMap.1 hfound
    exact counted_of_ofNames? hkind
  | layout =>
    rcases List.mem_append.1 hfound with hfound | hfound
    · obtain ⟨custom, hcustom, hc⟩ := List.mem_filterMap.1 hfound
      exact counted_of_ofCustom? hcustom hc
    · exact counted_of_ofTally? (by decide) (by decide) rfl (Option.mem_toList.1 hfound)
  | style =>
    simp only [style, List.mem_append, Option.mem_toList] at hfound
    rcases hfound with ((hc | hc) | hc) | hc
    · exact counted_of_ofTally? (by decide) (by decide) rfl hc
    · exact counted_of_mem_indentation hc
    · exact counted_of_ofTally? (by decide) (by decide) rfl hc
    · exact counted_of_ofTally? (by decide) (by decide) rfl hc
  | documentation =>
    simp only [documentation, List.mem_append, Option.mem_toList] at hfound
    rcases hfound with (hc | hc) | hc
    · exact counted_of_ofTally? (by decide) (by decide) rfl hc
    · exact counted_of_ofTally? (by decide) (by decide) rfl hc
    · exact counted_of_highCoverage? hc

end Convention

/-! ### Looking up -/

section LookUp

variable {α : Type} {l : List (Convention α)} {c : Convention α}

/-- Where no name occurs twice, a search that the convention passes finds it, if it finds only
conventions of its name. -/
lemma Convention.find?_of_nodup (hnodup : (l.map name).Nodup) (h : c ∈ l)
    {p : Convention α → Bool} (hc : p c = true) (hp : ∀ d, p d = true → d.name = c.name) :
    l.find? p = some c := by
  cases hfind : l.find? p with
  | none => exact absurd hc (List.find?_eq_none.1 hfind c h)
  | some d =>
    have hname : d.name = c.name := hp d (List.find?_some hfind)
    rw [List.inj_on_of_nodup_map hnodup (List.mem_of_find?_eq_some hfind) h hname]

lemma Convention.lastValue?_of_nodup (hnodup : (l.map name).Nodup) (h : c ∈ l)
    (hkind : c.kind ≠ .layout) : lastValue? l c.name = some c.value := by
  have hreverse : (l.reverse.map name).Nodup := by
    rw [List.map_reverse, List.nodup_reverse]
    exact hnodup
  have hfind : l.reverse.find? (fun d => d.kind != .layout && d.name == c.name) = some c :=
    find?_of_nodup hreverse (List.mem_reverse.2 h) (by simp [hkind]) (by simp)
  rw [lastValue?, hfind]
  rfl

/-- The index keeps the value of each convention of a language. -/
lemma Comparison.valueAt?_index_of_nodup {metrics : SortedMap (LanguageMetrics α)}
    {language : String} {m : LanguageMetrics α} (hm : metrics.get? language = some m)
    (hnodup : (m.conventions.map Convention.name).Nodup) (h : c ∈ m.conventions)
    (hkind : c.kind ≠ .layout) (primary : Option (Profile α)) :
    valueAt? (index primary metrics) c.name language = some c.value := by
  rw [valueAt?_index, hm, Option.bind_some, Convention.lastValue?_of_nodup hnodup h hkind]
  rfl

end LookUp

namespace Convention

variable {α : Type} [Scalar α] [NumberText α] [OrderedScalar α]

/-- What is reported is well formed: no name occurs twice, the conventions stand in the order of
their kinds, each is counted and reaches the floor, and the width of a step comes with indentation
with spaces.  So whatever is kept of them is found by its name, and an index of all languages keeps
its values. -/
theorem allObserved_shown (accept : Acceptance α) (facts : LanguageFacts) :
    ((allObserved accept facts).map name).Nodup ∧
    (∀ kind, (allObserved accept facts).filter (fun c => c.kind = kind)
      = observed kind accept facts) ∧
    (allObserved accept facts = ConventionKind.all.flatMap fun kind =>
      (allObserved accept facts).filter fun c => c.kind = kind) ∧
    (∀ c ∈ allObserved accept facts, c.Shown accept facts) ∧
    (∀ c ∈ allObserved accept facts, c.name = "indent_size" →
      ∃ d ∈ allObserved accept facts, d.name = "indentation" ∧ d.value = .text "spaces") ∧
    ∀ keep : Convention α → Bool,
      (((allObserved accept facts).filter keep).map name).Nodup ∧
      (∀ c ∈ (allObserved accept facts).filter keep,
        ((allObserved accept facts).filter keep).find? (fun d => d.name == c.name) = some c) ∧
      ∀ (primary : Option (Profile α)) (metrics : SortedMap (LanguageMetrics α))
        (language : String) (m : LanguageMetrics α), metrics.get? language = some m →
        m.conventions = (allObserved accept facts).filter keep →
        ∀ c ∈ m.conventions, c.kind ≠ .layout →
          Comparison.valueAt? (Comparison.index primary metrics) c.name language
            = some c.value := by
  have hnodup := nodup_names accept facts
  have hkept (keep : Convention α → Bool) :
      (((allObserved accept facts).filter keep).map name).Nodup :=
    hnodup.sublist (List.filter_sublist.map name)
  refine ⟨hnodup, fun kind => filter_kind_allObserved kind accept facts, ?_, ?_, ?_, ?_⟩
  · simp only [filter_kind_allObserved]
    rfl
  · intro c hc
    obtain ⟨kind, -, hkind⟩ := List.mem_flatMap.1 hc
    exact shown_of_mem_observed hkind
  · intro c hc hname
    obtain ⟨d, hd, hspaces⟩ := exists_spaces hc hname
    exact ⟨d, observed_subset hd, hspaces⟩
  · intro keep
    refine ⟨hkept keep, fun c hc => find?_of_nodup (hkept keep) hc (by simp) (by simp), ?_⟩
    intro primary metrics language m hm hconventions c hc hkind
    exact Comparison.valueAt?_index_of_nodup hm (hconventions ▸ hkept keep) hc hkind primary

/-- A language with names in two styles, single and double quotes, and lines that start with four
spaces, each a step of four columns deeper. -/
def indented : LanguageFacts :=
  { LanguageFacts.empty "javascript"
    ⟨Layout.names ["test", "tests"], .ofLabels ["javascript"], 3⟩ with
    names := { Names.empty with functions := ["loadUser", "_saveUser"], types := ["User_Store"] }
    quotes := ⟨3, 0⟩
    indentation := ⟨2, 0, .ofLabels ["4", "4"]⟩
    docFormats := .ofLabels ["jsdoc", "jsdoc"]
    documentedItems := 2
    documentableItems := 2 }

/-- Eight conventions are reported of this language in whole numbers.  They are counted, the width
of a step comes with indentation with spaces, and the measures without the layout hand the quotes to
the index. -/
theorem allObserved_shown_indented :
    let accept : Acceptance WholeNumber := ⟨⟨0⟩, ⟨0⟩⟩
    let cs := allObserved accept indented
    let kept := cs.filter fun c => c.kind != .layout
    let m : LanguageMetrics WholeNumber :=
      { LanguageMetrics.empty "javascript" with conventions := kept }
    let metrics := SortedMap.empty.insert "javascript" m
    cs.map (fun c => (c.name, c.frequency)) = [("function_naming", 2), ("has_tests_directory", 2),
      ("dominant_language", 1), ("quote_style", 3), ("indentation", 2), ("indent_size", 2),
      ("docstring_format", 2), ("high_documentation_coverage", 2)] ∧
    (∀ c ∈ cs, c.Shown accept indented) ∧
    (∃ d ∈ cs, d.name = "indentation" ∧ d.value = .text "spaces") ∧
    metrics.get? "javascript" = some m ∧
    ∃ c ∈ kept, c.name = "quote_style" ∧ c.kind ≠ .layout ∧ c.value.text? = some "single" ∧
      kept.find? (fun d => d.name == c.name) = some c ∧
      Comparison.valueAt? (Comparison.index none metrics) c.name "javascript" = some c.value := by
  intro accept cs kept m metrics
  obtain ⟨-, -, -, hshown, hwidth, hkept⟩ := allObserved_shown accept indented
  obtain ⟨-, hfind, hindex⟩ := hkept fun c => c.kind != .layout
  have hsize : "indent_size" ∈ cs.map name := by decide +kernel
  obtain ⟨step, hstep, hstepName⟩ := List.mem_map.1 hsize
  have hquotes : ("quote_style", ConventionKind.style, some "single")
      ∈ kept.map fun c => (c.name, c.kind, c.value.text?) := by decide +kernel
  obtain ⟨c, hc, hfields⟩ := List.mem_map.1 hquotes
  obtain ⟨hname, hkind, hvalue⟩ : c.name = "quote_style" ∧ c.kind = .style ∧
      c.value.text? = some "single" := by simpa using hfields
  have hlayout : c.kind ≠ .layout := by rw [hkind]; decide
  have hm : metrics.get? "javascript" = some m := by
    rw [SortedMap.get?_insert, if_pos rfl]
  exact ⟨by decide +kernel, hshown, hwidth step hstep hstepName, hm, c, hc, hname, hlayout, hvalue,
    hfind c hc, hindex none metrics "javascript" m hm rfl c hc hlayout⟩

end Convention

end HouseStyle
