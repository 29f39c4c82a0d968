import HouseStyle.Convention.Observed
import HouseStyle.Proofs.Tally
import Mathlib.Data.List.Nodup
import Mathlib.Data.Option.Basic

/-!
# The catalog of conventions

The conventions that a language shows stand in a fixed order, and each kind of observation gives at
most one of them.  So what is reported is a sublist of one catalog, whatever was counted
(`entries_sublist_catalog`): no name is reported twice, and the style of function names, of type
names and of variables come first, in this order.
-/

namespace HouseStyle

namespace Convention

variable {α : Type} [Scalar α]

/-- What a convention is about and its name. -/
def entry (c : Convention α) : ConventionKind × String := (c.kind, c.name)

/-- The names of the conventions of a kind, in the order in which they are reported. -/
def namesOf : ConventionKind → List String
  | .naming => NameKind.all.map NameKind.convention
  | .layout => Layout.customary.map Prod.fst ++ ["dominant_language"]
  | .style => ["quote_style", "indentation", "indent_size", "type_annotations", "import_style"]
  | .documentation => ["doc_comment_style", "docstring_format", "high_documentation_coverage"]

/-- All conventions that can be reported. -/
def catalog : List (ConventionKind × String) :=
  ConventionKind.all.flatMap fun kind => (namesOf kind).map (kind, ·)

lemma nodup_catalog : (catalog.map Prod.snd).Nodup := by decide

/-! ### What a tally shows -/

section Shown

variable {accept : Acceptance α} {kind : ConventionKind} {name : String} {tally : Tally}
  {examples : List String} {c : Convention α}

/-- A convention is what the label that leads a tally shows, if its share exceeds the floor and the
confidence in it is not below. -/
lemma ofTally?_eq_some_iff : ofTally? accept kind name tally examples = some c ↔
    ∃ label count, tally.Leads label count ∧
      Scalar.le (Scalar.share count tally.total) accept.floor = false ∧
      Scalar.lt (shareConfidence count tally.total accept.steepness) accept.floor = false ∧
      c = make kind name (.text label) (shareConfidence count tally.total accept.steepness)
        count examples := by
  rw [ofTally?]
  constructor
  · intro h
    cases hdominant : tally.dominant? with
    | none => simp [hdominant] at h
    | some e =>
      rw [hdominant] at h
      dsimp only at h
      split_ifs at h with hshare hconfidence
      rw [Bool.not_eq_true] at hshare hconfidence
      exact ⟨e.1, e.2, Tally.leads_of_dominant? hdominant, hshare, hconfidence,
        (Option.some.inj h).symm⟩
  · rintro ⟨label, count, hleads, hshare, hconfidence, rfl⟩
    simp [Tally.dominant?_eq_some_iff.2 hleads, hshare, hconfidence]

lemma entry_of_ofTally? (h : ofTally? accept kind name tally examples = some c) :
    c.entry = (kind, name) := by
  obtain ⟨label, count, -, -, -, rfl⟩ := ofTally?_eq_some_iff.1 h
  rfl

end Shown

/-! ### The order of what is reported -/

omit [Scalar α] in
/-- What may be reported of one name is at most that name. -/
lemma sublist_toList {found : Option (Convention α)} {e : ConventionKind × String}
    (h : ∀ c, found = some c → c.entry = e) : (found.toList.map entry).Sublist [e] := by
  cases found with
  | none => exact List.nil_sublist _
  | some c =>
    rw [Option.toList_some, List.map_singleton, h c rfl]

omit [Scalar α] in
lemma sublist_filterMap {β : Type} {f : β → Option (Convention α)} {e : β → ConventionKind × String}
    (h : ∀ b c, f b = some c → c.entry = e b) (l : List β) :
    ((l.filterMap f).map entry).Sublist (l.map e) := by
  induction l with
  | nil => exact List.Sublist.slnil
  | cons b l ih =>
    have hhead := sublist_toList (h b)
    rw [List.filterMap_cons, List.map_cons]
    cases hb : f b with
    | none => exact ih.cons _
    | some c =>
      rw [hb] at hhead
      exact hhead.append ih

lemma sublist_naming (accept : Acceptance α) (facts : LanguageFacts) :
    ((naming accept facts).map entry).Sublist ((namesOf .naming).map (.naming, ·)) := by
  rw [namesOf, List.map_map]
  exact sublist_filterMap (fun kind c h => entry_of_ofTally? h) _

lemma sublist_layout (accept : Acceptance α) (facts : LanguageFacts) :
    ((layout accept facts).map entry).Sublist ((namesOf .layout).map (.layout, ·)) := by
  rw [namesOf, layout, List.map_append, List.map_append, List.map_map]
  refine List.Sublist.append (sublist_filterMap (fun custom c h => ?_) _)
    (sublist_toList fun c h => entry_of_ofTally? h)
  simp only [ofCustom?] at h
  split_ifs at h
  obtain rfl := Option.some.inj h
  rfl

lemma entry_of_indentSize? [NumberText α] {accept : Acceptance α} {steps : Tally}
    {c : Convention α} (h : indentSize? accept steps = some c) :
    c.entry = (.style, "indent_size") := by
  simp only [indentSize?, Option.bind_eq_bind, Option.bind_eq_some_iff] at h
  obtain ⟨step, hstep, label, -, width, -, h⟩ := h
  obtain rfl := Option.some.inj h
  have hentry := entry_of_ofTally? hstep
  exact hentry

/-- The width of a step is reported only behind indentation with spaces. -/
lemma indentation_cases [NumberText α] (accept : Acceptance α) (i : Indentation) :
    indentation accept i = [] ∨ ∃ c, c.entry = (.style, "indentation") ∧
      (indentation accept i = [c] ∨ c.value.text? = some "spaces" ∧
        ∃ size : Option (Convention α), (∀ d, size = some d → d.entry = (.style, "indent_size")) ∧
          indentation accept i = c :: size.toList) := by
  unfold indentation
  split
  · exact Or.inl rfl
  next c hc =>
    refine Or.inr ⟨c, entry_of_ofTally? hc, ?_⟩
    split_ifs with hspaces
    · exact Or.inr ⟨hspaces, _, fun d hd => entry_of_indentSize? hd, rfl⟩
    · exact Or.inl rfl

lemma sublist_indentation [NumberText α] (accept : Acceptance α) (i : Indentation) :
    ((indentation accept i).map entry).Sublist
      [(.style, "indentation"), (.style, "indent_size")] := by
  rcases indentation_cases accept i with h | ⟨c, hc, h | ⟨-, size, hsize, h⟩⟩
  · rw [h]
    exact List.nil_sublist _
  · rw [h, List.map_singleton, hc]
    exact (List.nil_sublist _).cons_cons _
  · rw [h, List.map_cons, hc]
    exact (sublist_toList hsize).cons_cons _

lemma sublist_style [NumberText α] (accept : Acceptance α) (facts : LanguageFacts) :
    ((style accept facts).map entry).Sublist ((namesOf .style).map (.style, ·)) := by
  simp only [style, List.map_append]
  exact (((sublist_toList fun c h => entry_of_ofTally? h).append (sublist_indentation _ _)).append
    (sublist_toList fun c h => entry_of_ofTally? h)).append
      (sublist_toList fun c h => entry_of_ofTally? h)

lemma sublist_documentation (accept : Acceptance α) (facts : LanguageFacts) :
    ((documentation accept facts).map entry).Sublist
      ((namesOf .documentation).map (.documentation, ·)) := by
  simp only [documentation, List.map_append]
  refine ((sublist_toList fun c h => entry_of_ofTally? h).append
    (sublist_toList fun c h => entry_of_ofTally? h)).append (sublist_toList fun c h => ?_)
  simp only [highCoverage?, Option.bind_eq_bind, Option.bind_eq_some_iff] at h
  obtain ⟨coverage, -, -, -, h⟩ := h
  obtain rfl := Option.some.inj h
  rfl

variable [NumberText α] {accept : Acceptance α} {facts : LanguageFacts} {c c' : Convention α}

lemma sublist_observed (kind : ConventionKind) (accept : Acceptance α) (facts : LanguageFacts) :
    ((observed kind accept facts).map entry).Sublist ((namesOf kind).map (kind, ·)) := by
  refine (List.filter_sublist.map entry).trans ?_
  cases kind with
  | naming => exact sublist_naming accept facts
  | layout => exact sublist_layout accept facts
  | style => exact sublist_style accept facts
  | documentation => exact sublist_documentation accept facts

/-- What is reported is a sublist of the catalog. -/
theorem entries_sublist_catalog (accept : Acceptance α) (facts : LanguageFacts) :
    ((allObserved accept facts).map entry).Sublist catalog := by
  rw [allObserved, List.map_flatMap, catalog]
  induction ConventionKind.all with
  | nil => exact List.Sublist.slnil
  | cons kind kinds ih =>
    rw [List.flatMap_cons, List.flatMap_cons]
    exact (sublist_observed kind accept facts).append ih

/-- No name is reported twice. -/
theorem eq_of_name_eq (h : c ∈ allObserved accept facts) (h' : c' ∈ allObserved accept facts)
    (hname : c.name = c'.name) : c = c' := by
  have hnodup := nodup_catalog.sublist ((entries_sublist_catalog accept facts).map Prod.snd)
  rw [List.map_map] at hnodup
  exact List.inj_on_of_nodup_map hnodup h h' hname

/-! ### The styles of names -/

omit [Scalar α] [NumberText α] in
/-- What stands first in the catalog is reported first, if at all. -/
lemma exists_of_sublist_cons {cs : List (Convention α)} {e : ConventionKind × String}
    {es : List (ConventionKind × String)} (h : (cs.map entry).Sublist (e :: es)) :
    ∃ (first : Option (Convention α)) (rest : List (Convention α)), cs = first.toList ++ rest ∧
      (∀ c, first = some c → c.entry = e) ∧ (rest.map entry).Sublist es := by
  cases cs with
  | nil => exact ⟨none, [], rfl, nofun, List.nil_sublist _⟩
  | cons c cs =>
    rcases List.sublist_cons_iff.1 h with h | ⟨rest, heq, hrest⟩
    · exact ⟨none, c :: cs, rfl, nofun, h⟩
    · obtain ⟨hc, rfl⟩ := List.cons.inj heq
      refine ⟨some c, cs, rfl, fun d hd => ?_, hrest⟩
      rw [← Option.some.inj hd, hc]

/-- The style of function names stands before that of variables. -/
lemma exists_split (accept : Acceptance α) (facts : LanguageFacts) :
    ∃ (f v : Option (Convention α)) (between behind : List (Convention α)),
      allObserved accept facts = f.toList ++ (between ++ (v.toList ++ behind)) ∧
      (∀ c, f = some c → c.entry = (.naming, "function_naming")) ∧
      (∀ c, v = some c → c.entry = (.naming, "variable_naming")) ∧
      ∀ c ∈ between ++ behind, c.name ≠ "function_naming" ∧ c.name ≠ "variable_naming" := by
  obtain ⟨f, cs, hcs, hf, h⟩ := exists_of_sublist_cons (entries_sublist_catalog accept facts)
  obtain ⟨t, ds, rfl, ht, h⟩ := exists_of_sublist_cons h
  obtain ⟨v, behind, rfl, hv, h⟩ := exists_of_sublist_cons h
  refine ⟨f, v, t.toList, behind, hcs, hf, hv, fun c hc => ?_⟩
  rcases List.mem_append.1 hc with hc | hc
  · have hname : c.name = "class_naming" := congrArg Prod.snd (ht c (Option.mem_toList.1 hc))
    rw [hname]
    decide
  · have hothers : ∀ e ∈ catalog.drop 3, e.2 ≠ "function_naming" ∧ e.2 ≠ "variable_naming" := by
      decide
    exact hothers _ (h.subset (List.mem_map_of_mem hc))

/-! ### The width of a step -/

lemma mem_style_of_name (h : c ∈ allObserved accept facts) (hname : c.name ∈ namesOf .style) :
    c ∈ style accept facts := by
  obtain ⟨kind, -, h⟩ := List.mem_flatMap.1 h
  have hentry := (sublist_observed kind accept facts).subset (List.mem_map_of_mem h)
  obtain ⟨name, hmem, heq⟩ := List.mem_map.1 hentry
  obtain rfl : name = c.name := congrArg Prod.snd heq
  -- no name is in the catalog for two kinds
  obtain rfl : kind = .style := by
    have hdisjoint : ∀ kind, kind ≠ .style → ∀ name ∈ namesOf .style, name ∉ namesOf kind := by
      intro kind hkind
      cases kind <;> first | decide | exact absurd rfl hkind
    by_contra hkind
    exact hdisjoint kind hkind _ hname hmem
  exact (List.mem_filter.1 h).1

lemma mem_indentation (h : c ∈ allObserved accept facts)
    (hname : c.name = "indentation" ∨ c.name = "indent_size") :
    c ∈ indentation accept facts.indentation := by
  have hstyle := mem_style_of_name h (by rcases hname with h | h <;> simp [h, namesOf])
  have hother {name : String} {tally : Tally} (hne : "indentation" ≠ name ∧ "indent_size" ≠ name)
      (hc : c ∈ (ofTally? accept .style name tally []).toList) : False := by
    have hentry : c.name = name := congrArg Prod.snd (entry_of_ofTally? (Option.mem_toList.1 hc))
    rcases hname with h | h
    · exact hne.1 (h.symm.trans hentry)
    · exact hne.2 (h.symm.trans hentry)
  simp only [style, List.mem_append] at hstyle
  rcases hstyle with ((hc | hc) | hc) | hc
  · exact (hother (by decide) hc).elim
  · exact hc
  · exact (hother (by decide) hc).elim
  · exact (hother (by decide) hc).elim

/-- Where the width of a step is reported, indentation is done with spaces. -/
lemma spaces_of_indentSize (h : c ∈ allObserved accept facts) (hname : c.name = "indent_size")
    (h' : c' ∈ allObserved accept facts) (hname' : c'.name = "indentation") :
    c'.value.text? = some "spaces" := by
  have hc := mem_indentation h (Or.inr hname)
  have hc' := mem_indentation h' (Or.inl hname')
  have hne {d : Convention α} {name : String} (hd : d.entry = (.style, name))
      (hdname : d.name ≠ name) : False := hdname (congrArg Prod.snd hd)
  rcases indentation_cases accept facts.indentation with
    hlist | ⟨step, hstep, hlist | ⟨hspaces, size, hsize, hlist⟩⟩
  · rw [hlist] at hc
    cases hc
  · rw [hlist, List.mem_singleton] at hc
    exact (hne hstep (by rw [← hc, hname]; decide)).elim
  · rw [hlist, List.mem_cons, Option.mem_toList] at hc'
    rcases hc' with rfl | hc'
    · exact hspaces
    · exact (hne (hsize c' hc') (by rw [hname']; decide)).elim

end Convention

end HouseStyle
