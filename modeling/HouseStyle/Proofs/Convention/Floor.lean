import HouseStyle.Proofs.Convention.Catalog
import HouseStyle.Proofs.Number.Order

/-!
# Raising the floor

The floor decides what is reported, not what it looks like: it is compared with the share of the
dominant label, with the confidence in it and once more with the confidence of the convention.
All three comparisons are passed more easily at a lower floor.  So with a higher floor a sublist of
the conventions is reported (`Convention.allObserved_sublist`).  The width of a step stays behind
indentation with spaces at every floor.
-/

namespace HouseStyle

namespace Convention

variable {α : Type} [Scalar α]

/-! ### One convention -/

section Single

variable [OrderedScalar α] {low high k : α} {c : Convention α}

/-- What a tally shows at a floor it shows at a lower one. -/
lemma ofTally?_of_le (hfloor : Scalar.le low high = true) {kind : ConventionKind} {name : String}
    {tally : Tally} {examples : List String}
    (h : ofTally? ⟨high, k⟩ kind name tally examples = some c) :
    ofTally? ⟨low, k⟩ kind name tally examples = some c := by
  obtain ⟨label, count, hleads, hshare, hconfidence, rfl⟩ := ofTally?_eq_some_iff.1 h
  rw [← Bool.not_eq_true] at hshare hconfidence
  refine ofTally?_eq_some_iff.2 ⟨label, count, hleads, ?_, ?_, rfl⟩
  · rw [← Bool.not_eq_true]
    exact fun hle => hshare (OrderedScalar.le_trans hle hfloor)
  · rw [← Bool.not_eq_true]
    exact fun hlt => hconfidence (OrderedScalar.lt_of_lt_of_le hlt hfloor)

lemma clampUnit_shareConfidence (count total : Nat) (k : α) :
    Scalar.clampUnit (shareConfidence count total k) = shareConfidence count total k := by
  have hzero : Scalar.clampUnit (0.0 : α) = 0.0 := by
    have hle : Scalar.le (0.0 : α) 0.0 = true := OrderedScalar.le_tenths (by decide) (by decide)
    refine Scalar.clampUnit_of_within ?_
    rw [Scalar.within, hle, Scalar.le_zero_one]
    rfl
  rw [shareConfidence]
  split_ifs
  · exact hzero
  · exact Scalar.clampUnit_clampUnit _

/-- What a tally shows reaches the floor, if this has a value. -/
lemma floor_le_of_ofTally? {accept : Acceptance α} (hfloor : Scalar.isNaN accept.floor = false)
    {kind : ConventionKind} {name : String} {tally : Tally} {examples : List String}
    (h : ofTally? accept kind name tally examples = some c) :
    Scalar.le accept.floor c.confidence = true := by
  obtain ⟨label, count, -, -, hconfidence, rfl⟩ := ofTally?_eq_some_iff.1 h
  change Scalar.le accept.floor (Scalar.clampUnit _) = true
  rw [clampUnit_shareConfidence]
  refine OrderedScalar.le_of_not_lt ?_ hfloor hconfidence
  rw [← clampUnit_shareConfidence]
  exact Scalar.isNaN_clampUnit _

lemma indentSize?_of_le [NumberText α] (hfloor : Scalar.le low high = true) {steps : Tally}
    (h : indentSize? ⟨high, k⟩ steps = some c) : indentSize? ⟨low, k⟩ steps = some c := by
  simp only [indentSize?, Option.bind_eq_bind, Option.bind_eq_some_iff] at h ⊢
  obtain ⟨step, hstep, hrest⟩ := h
  exact ⟨step, ofTally?_of_le hfloor hstep, hrest⟩

end Single

/-! ### Lists of conventions -/

lemma toList_sublist_toList {β : Type} {a b : Option β} (h : ∀ x, a = some x → b = some x) :
    a.toList.Sublist b.toList := by
  cases a with
  | none => exact List.nil_sublist _
  | some x => rw [h x rfl]

lemma filterMap_sublist_filterMap {β γ : Type} {f g : β → Option γ}
    (h : ∀ b c, f b = some c → g b = some c) (l : List β) :
    (l.filterMap f).Sublist (l.filterMap g) := by
  induction l with
  | nil => exact List.Sublist.slnil
  | cons b l ih =>
    have hcons (f : β → Option γ) : (b :: l).filterMap f = (f b).toList ++ l.filterMap f := by
      rw [List.filterMap_cons]
      cases f b <;> rfl
    rw [hcons, hcons]
    exact (toList_sublist_toList (h b)).append ih

lemma flatMap_sublist_flatMap {β γ : Type} {f g : β → List γ} (h : ∀ b, (f b).Sublist (g b))
    (l : List β) : (l.flatMap f).Sublist (l.flatMap g) := by
  induction l with
  | nil => exact List.Sublist.slnil
  | cons b l ih =>
    rw [List.flatMap_cons, List.flatMap_cons]
    exact (h b).append ih

section Lists

variable [OrderedScalar α] {low high : α}

lemma naming_sublist (hfloor : Scalar.le low high = true) (k : α) (facts : LanguageFacts) :
    (naming ⟨high, k⟩ facts).Sublist (naming ⟨low, k⟩ facts) :=
  filterMap_sublist_filterMap (fun _ _ h => ofTally?_of_le hfloor h) _

lemma layout_sublist (hfloor : Scalar.le low high = true) (k : α) (facts : LanguageFacts) :
    (layout ⟨high, k⟩ facts).Sublist (layout ⟨low, k⟩ facts) :=
  (List.Sublist.refl _).append (toList_sublist_toList fun _ h => ofTally?_of_le hfloor h)

lemma documentation_sublist (hfloor : Scalar.le low high = true) (k : α) (facts : LanguageFacts) :
    (documentation ⟨high, k⟩ facts).Sublist (documentation ⟨low, k⟩ facts) :=
  ((toList_sublist_toList fun _ h => ofTally?_of_le hfloor h).append
    (toList_sublist_toList fun _ h => ofTally?_of_le hfloor h)).append (List.Sublist.refl _)

variable [NumberText α]

/-- Where indentation is still reported, it is with the same value, and so is the width. -/
lemma indentation_sublist (hfloor : Scalar.le low high = true) (k : α) (i : Indentation) :
    (indentation ⟨high, k⟩ i).Sublist (indentation ⟨low, k⟩ i) := by
  cases hhigh : ofTally? ⟨high, k⟩ .style "indentation" i.tally [] with
  | none =>
    rw [indentation, hhigh]
    exact List.nil_sublist _
  | some c =>
    rw [indentation, indentation, hhigh, ofTally?_of_le hfloor hhigh]
    dsimp only
    split_ifs
    · exact (toList_sublist_toList fun _ h => indentSize?_of_le hfloor h).cons_cons c
    · exact List.Sublist.refl _

lemma style_sublist (hfloor : Scalar.le low high = true) (k : α) (facts : LanguageFacts) :
    (style ⟨high, k⟩ facts).Sublist (style ⟨low, k⟩ facts) :=
  (((toList_sublist_toList fun _ h => ofTally?_of_le hfloor h).append
    (indentation_sublist hfloor k facts.indentation)).append
      (toList_sublist_toList fun _ h => ofTally?_of_le hfloor h)).append
        (toList_sublist_toList fun _ h => ofTally?_of_le hfloor h)

/-- Each kind of convention loses some with a higher floor, and keeps the others as they are. -/
lemma observed_sublist (hfloor : Scalar.le low high = true) (k : α) (facts : LanguageFacts)
    (kind : ConventionKind) :
    (observed kind ⟨high, k⟩ facts).Sublist (observed kind ⟨low, k⟩ facts) := by
  have hfilter {l l' : List (Convention α)} (h : l.Sublist l') :
      (l.filter fun c => Scalar.le high c.confidence).Sublist
        (l'.filter fun c => Scalar.le low c.confidence) :=
    (List.monotone_filter_right l fun c hc => OrderedScalar.le_trans hfloor hc).trans (h.filter _)
  cases kind with
  | naming => exact hfilter (naming_sublist hfloor k facts)
  | layout => exact hfilter (layout_sublist hfloor k facts)
  | style => exact hfilter (style_sublist hfloor k facts)
  | documentation => exact hfilter (documentation_sublist hfloor k facts)

/-! ### The width of a step -/

omit [OrderedScalar α] in
lemma observed_subset {accept : Acceptance α} {facts : LanguageFacts} {kind : ConventionKind}
    {c : Convention α} (h : c ∈ observed kind accept facts) : c ∈ allObserved accept facts := by
  refine List.mem_flatMap.2 ⟨kind, ?_, h⟩
  cases kind <;> decide

/-- The width of a step is reported only where indentation is, too, and is done with spaces. -/
lemma exists_spaces {accept : Acceptance α} {facts : LanguageFacts} {c : Convention α}
    (h : c ∈ allObserved accept facts) (hname : c.name = "indent_size") :
    ∃ d ∈ observed .style accept facts, d.name = "indentation" ∧ d.value = .text "spaces" := by
  have hmem := mem_indentation h (Or.inr hname)
  obtain ⟨kind, -, hkind⟩ := List.mem_flatMap.1 h
  have hfloor : Scalar.isNaN accept.floor = false :=
    (OrderedScalar.isNaN_of_le (List.mem_filter.1 hkind).2).1
  unfold indentation at hmem
  split at hmem
  · cases hmem
  next d hd =>
    have hdname : d.name = "indentation" := congrArg Prod.snd (entry_of_ofTally? hd)
    have hreported : d ∈ observed .style accept facts := by
      refine List.mem_filter.2 ⟨?_, floor_le_of_ofTally? hfloor hd⟩
      have hindentation : d ∈ indentation accept facts.indentation := by
        rw [indentation, hd]
        dsimp only
        split_ifs <;> exact List.mem_cons_self
      simp [style, hindentation]
    split_ifs at hmem with hspaces
    · refine ⟨d, hreported, hdname, ?_⟩
      cases hvalue : d.value <;> simp_all [ConventionValue.text?]
    · rw [List.mem_singleton.1 hmem, hdname] at hname
      exact absurd hname (by decide)

/-- Raising the floor only takes conventions away, from all of them and from those of each kind,
before and after the last comparison with the floor; and at every floor the width of a step is
reported only where indentation is, too, and is done with spaces. -/
theorem allObserved_sublist {low high : α} (hfloor : Scalar.le low high = true) (k : α)
    (facts : LanguageFacts) :
    (allObserved ⟨high, k⟩ facts).Sublist (allObserved ⟨low, k⟩ facts) ∧
    (∀ kind, (observed kind ⟨high, k⟩ facts).Sublist (observed kind ⟨low, k⟩ facts)) ∧
    ((naming ⟨high, k⟩ facts).Sublist (naming ⟨low, k⟩ facts) ∧
      (layout ⟨high, k⟩ facts).Sublist (layout ⟨low, k⟩ facts) ∧
      (style ⟨high, k⟩ facts).Sublist (style ⟨low, k⟩ facts) ∧
      (documentation ⟨high, k⟩ facts).Sublist (documentation ⟨low, k⟩ facts)) ∧
    ∀ floor, ∀ c ∈ observed .style ⟨floor, k⟩ facts, c.name = "indent_size" →
      ∃ d ∈ observed .style ⟨floor, k⟩ facts,
        d.name = "indentation" ∧ d.value = .text "spaces" := by
  have hkind := observed_sublist hfloor k facts
  exact ⟨flatMap_sublist_flatMap hkind _, hkind,
    ⟨naming_sublist hfloor k facts, layout_sublist hfloor k facts, style_sublist hfloor k facts,
      documentation_sublist hfloor k facts⟩, fun floor c hc hname =>
        exists_spaces (observed_subset hc) hname⟩

end Lists

/-- A language in a project with a directory for tests, in which four fifths of the items are
documented, four lines start with spaces, each a step of four columns deeper, and two texts of three
are in double quotes. -/
def documented : LanguageFacts :=
  { LanguageFacts.empty "python" ⟨Layout.names ["tests"], .empty, 1⟩ with
    documentedItems := 8
    documentableItems := 10
    quotes := ⟨1, 2⟩
    indentation := ⟨4, 0, .ofLabels ["4", "4", "4", "4"]⟩ }

/-- In binary numbers the coverage of four fifths is left out when the floor is raised to nine
tenths.  In whole numbers, where every share but a full one is 0, the quotes are left out when the
floor is raised to 0, and the width of a step stays with the indentation. -/
theorem allObserved_sublist_documented :
    let low : Acceptance Float := ⟨0.6, 5.0⟩
    let high : Acceptance Float := ⟨0.9, 5.0⟩
    let below : Acceptance WholeNumber := ⟨⟨-1⟩, ⟨0⟩⟩
    let zero : Acceptance WholeNumber := ⟨⟨0⟩, ⟨0⟩⟩
    (Scalar.le low.floor high.floor = true ∧
      (observed .documentation high documented).Sublist
        (observed .documentation low documented) ∧
      (observed .documentation low documented).map name = ["high_documentation_coverage"] ∧
      (observed .documentation high documented).map name = []) ∧
    Scalar.le below.floor zero.floor = true ∧
    (allObserved zero documented).Sublist (allObserved below documented) ∧
    (allObserved below documented).map name
      = ["has_tests_directory", "quote_style", "indentation", "indent_size"] ∧
    (allObserved zero documented).map name
      = ["has_tests_directory", "indentation", "indent_size"] ∧
    ∃ d ∈ observed .style zero documented, d.name = "indentation" ∧ d.value = .text "spaces" := by
  intro low high below zero
  have hfloat : Scalar.le low.floor high.floor = true := by decide +kernel
  have hwhole : Scalar.le below.floor zero.floor = true := by decide
  obtain ⟨-, hkind, -, -⟩ := allObserved_sublist hfloat (5.0 : Float) documented
  obtain ⟨hall, -, -, hwidth⟩ := allObserved_sublist hwhole (⟨0⟩ : WholeNumber) documented
  refine ⟨⟨hfloat, hkind .documentation, by decide +kernel, by decide +kernel⟩, hwhole, hall,
    by decide +kernel, by decide +kernel, ?_⟩
  have hsize : ∃ c ∈ observed .style zero documented, c.name = "indent_size" := by
    have hnames : "indent_size" ∈ (observed .style zero documented).map name := by decide +kernel
    obtain ⟨c, hc, hname⟩ := List.mem_map.1 hnames
    exact ⟨c, hc, hname⟩
  obtain ⟨c, hc, hname⟩ := hsize
  exact hwidth zero.floor c hc hname

end Convention

end HouseStyle
