import HouseStyle.Proofs.Convention.Confidence
import HouseStyle.Proofs.Profile.Setting
import HouseStyle.Proofs.Project.Loadable

/-!
# The rules of an overview and those of the profile

The settings of the main language are derived twice for an overview: by the profile, from the
conventions that reach the bar of the settings, and for the overview, from those above its own bar.
The second settings are laid over the first ones.  Settings for one tool and key agree whichever bar
was taken, except for the check for camel case, which two conventions make.  There the rules differ
exactly where the two bars part these conventions (`Convention.Parted`).
-/

namespace HouseStyle

/-- Whether two bars part the style of function names and that of variables, one of which is camel
case and the other one snake case.  The style of variables has to pass one bar only, and that of
function names both bars or the other one. -/
def Convention.Parted {α : Type} (accepted confident : Convention α → Bool)
    (conventions : List (Convention α)) : Prop :=
  ∃ f ∈ conventions, ∃ v ∈ conventions,
    f.name = "function_naming" ∧ v.name = "variable_naming" ∧
    (Toolchain.styleOf? f = some .camelCase ∧ Toolchain.styleOf? v = some .snakeCase ∨
      Toolchain.styleOf? f = some .snakeCase ∧ Toolchain.styleOf? v = some .camelCase) ∧
    (accepted v = true ∧ confident v = false ∧ confident f = true ∨
      accepted v = false ∧ confident v = true ∧ accepted f = true)

/-- Whether a convention is accepted into a profile. -/
def Settings.accepts {α : Type} [Scalar α] (s : Settings α) (c : Convention α) : Bool :=
  Scalar.le s.leastConfidence c.confidence

/-- Whether an overview derives settings from a convention. -/
def Overview.confident {α : Type} [Scalar α] (c : Convention α) : Bool := Scalar.lt 0.7 c.confidence

namespace Rules

variable {α : Type}

/-! ### Two conventions that make one setting -/

/-- The value that the later of two conventions gives where it passes a bar, and the earlier one
otherwise. -/
def laterOr {β : Type} (earlier later : Option β) (passed passed' : Bool) : Option β :=
  (if passed' then later else none).or (if passed then earlier else none)

/-- What is decided by one bar stands when it is overlaid with what is decided by another bar,
unless the two conventions differ and the bars part them. -/
lemma laterOr_overlay {β : Type} {earlier later : Option β} {a a' b b' : Bool} {value : β}
    (h : laterOr earlier later a a' = some value) :
    (laterOr earlier later b b').or (some value) = some value ↔
      ¬ ((∃ x y, earlier = some x ∧ later = some y ∧ x ≠ y) ∧
        (a' = true ∧ b' = false ∧ b = true ∨ a' = false ∧ b' = true ∧ a = true)) := by
  unfold laterOr at h ⊢
  cases earlier <;> cases later <;> cases a <;> cases a' <;> cases b <;> cases b' <;>
    simp_all [eq_comm]

/-- Camel case and snake case set the check for camel case in different ways. -/
lemma camelcase_differ {f v : Convention α} :
    (∃ x y, camelcaseOf? f = some x ∧ camelcaseOf? v = some y ∧ x ≠ y) ↔
      Toolchain.styleOf? f = some .camelCase ∧ Toolchain.styleOf? v = some .snakeCase ∨
      Toolchain.styleOf? f = some .snakeCase ∧ Toolchain.styleOf? v = some .camelCase := by
  unfold camelcaseOf?
  rcases Toolchain.styleOf? f with _ | style
  · simp
  · rcases Toolchain.styleOf? v with _ | style'
    · simp
    · cases style <;> cases style' <;> simp [camelcaseFor?, Toolchain.leveled]

variable [Scalar α] [NumberText α] {accept : Acceptance α} {facts : LanguageFacts}
  {language tool key : String} {lines : LineStats} {p p' : Convention α → Bool} {value : Json α}

omit [Scalar α] [NumberText α] in
lemma laterOr_filter (f v : Option (Convention α)) (p : Convention α → Bool) :
    ((v.filter p).bind camelcaseOf?).or ((f.filter p).bind camelcaseOf?)
      = laterOr (f.bind camelcaseOf?) (v.bind camelcaseOf?) (f.any p) (v.any p) := by
  have hfilter (o : Option (Convention α)) :
      (o.filter p).bind camelcaseOf? = if o.any p then o.bind camelcaseOf? else none := by
    rcases o with _ | c
    · rfl
    · cases hp : p c <;> simp [hp, Option.filter]
  rw [hfilter, hfilter, laterOr]

omit [Scalar α] [NumberText α] in
lemma eq_some_of_function {f v : Option (Convention α)} {between behind : List (Convention α)}
    {c : Convention α} (hv : ∀ c, v = some c → c.entry = (.naming, "variable_naming"))
    (hothers : ∀ c ∈ between ++ behind, c.name ≠ "function_naming" ∧ c.name ≠ "variable_naming")
    (hc : c ∈ f.toList ++ (between ++ (v.toList ++ behind))) (hname : c.name = "function_naming") :
    f = some c := by
  simp only [List.mem_append, Option.mem_toList] at hc
  rcases hc with hc | hc | hc | hc
  · exact hc
  · exact absurd hname (hothers c (List.mem_append_left _ hc)).1
  · exact absurd (hname.symm.trans (congrArg Prod.snd (hv c hc))) (by decide)
  · exact absurd hname (hothers c (List.mem_append_right _ hc)).1

omit [Scalar α] [NumberText α] in
lemma eq_some_of_variable {f v : Option (Convention α)} {between behind : List (Convention α)}
    {c : Convention α} (hf : ∀ c, f = some c → c.entry = (.naming, "function_naming"))
    (hothers : ∀ c ∈ between ++ behind, c.name ≠ "function_naming" ∧ c.name ≠ "variable_naming")
    (hc : c ∈ f.toList ++ (between ++ (v.toList ++ behind))) (hname : c.name = "variable_naming") :
    v = some c := by
  simp only [List.mem_append, Option.mem_toList] at hc
  rcases hc with hc | hc | hc | hc
  · exact absurd (hname.symm.trans (congrArg Prod.snd (hf c hc))) (by decide)
  · exact absurd hname (hothers c (List.mem_append_left _ hc)).2
  · exact hc
  · exact absurd hname (hothers c (List.mem_append_right _ hc)).2

omit [Scalar α] [NumberText α] in
/-- The bars part the two conventions about names, if there are both of them. -/
lemma parted_iff {f v : Option (Convention α)} {between behind : List (Convention α)}
    (hf : ∀ c, f = some c → c.entry = (.naming, "function_naming"))
    (hv : ∀ c, v = some c → c.entry = (.naming, "variable_naming"))
    (hothers : ∀ c ∈ between ++ behind, c.name ≠ "function_naming" ∧ c.name ≠ "variable_naming") :
    Convention.Parted p p' (f.toList ++ (between ++ (v.toList ++ behind))) ↔
      (∃ x y, f.bind camelcaseOf? = some x ∧ v.bind camelcaseOf? = some y ∧ x ≠ y) ∧
        (v.any p = true ∧ v.any p' = false ∧ f.any p' = true ∨
          v.any p = false ∧ v.any p' = true ∧ f.any p = true) := by
  constructor
  · rintro ⟨c, hc, d, hd, hcname, hdname, hstyles, hbars⟩
    obtain rfl := eq_some_of_function hv hothers hc hcname
    obtain rfl := eq_some_of_variable hf hothers hd hdname
    exact ⟨camelcase_differ.2 hstyles, hbars⟩
  · rintro ⟨⟨x, y, hx, hy, hne⟩, hbars⟩
    obtain ⟨c, rfl, hx⟩ := Option.bind_eq_some_iff.1 hx
    obtain ⟨d, rfl, hy⟩ := Option.bind_eq_some_iff.1 hy
    exact ⟨c, by simp, d, by simp, congrArg Prod.snd (hf c rfl), congrArg Prod.snd (hv d rfl),
      camelcase_differ.1 ⟨x, y, hx, hy, hne⟩, hbars⟩

/-- What describes the project has nothing to do with names. -/
lemma parted_withoutLayout :
    Convention.Parted p (fun c => p' c && c.kind != .layout)
        (Convention.allObserved accept facts) ↔
      Convention.Parted p p'
        ((Convention.allObserved accept facts).filter fun c => c.kind != .layout) := by
  have hcatalog : ∀ e ∈ Convention.catalog, e.2 = "function_naming" ∨ e.2 = "variable_naming" →
      (e.1 != .layout) = true := by decide
  have hkind {c : Convention α} (hc : c ∈ Convention.allObserved accept facts)
      (hname : c.name = "function_naming" ∨ c.name = "variable_naming") :
      (c.kind != .layout) = true :=
    hcatalog c.entry ((Convention.entries_sublist_catalog accept facts).subset
      (List.mem_map_of_mem hc)) hname
  constructor
  · rintro ⟨f, hf, v, hv, hfname, hvname, hstyles, hbars⟩
    have hfkind := hkind hf (Or.inl hfname)
    have hvkind := hkind hv (Or.inr hvname)
    simp only [hfkind, hvkind, Bool.and_true] at hbars
    exact ⟨f, List.mem_filter.2 ⟨hf, hfkind⟩, v, List.mem_filter.2 ⟨hv, hvkind⟩, hfname, hvname,
      hstyles, hbars⟩
  · rintro ⟨f, hf, v, hv, hfname, hvname, hstyles, hbars⟩
    obtain ⟨hf, hfkind⟩ := List.mem_filter.1 hf
    obtain ⟨hv, hvkind⟩ := List.mem_filter.1 hv
    refine ⟨f, hf, v, hv, hfname, hvname, hstyles, ?_⟩
    simpa only [hfkind, hvkind, Bool.and_true] using hbars

/-- A setting that is derived with one bar stands when the settings that are derived with another
bar are laid over it, unless it is the check for camel case and the bars part its conventions. -/
lemma derive_overlay
    (h : (derive language ((Convention.allObserved accept facts).filter p) lines).setting? tool key
      = some value) :
    ((derive language ((Convention.allObserved accept facts).filter p') lines).setting? tool key).or
        (some value) = some value ↔
      ¬ (Toolchain.ofLanguage? language = some .javascript ∧ (tool, key) = Toolchain.camelcase ∧
        Convention.Parted p p' (Convention.allObserved accept facts)) := by
  by_cases hcamel : Toolchain.ofLanguage? language = some .javascript ∧
      (tool, key) = Toolchain.camelcase
  · obtain ⟨hlanguage, hkey⟩ := hcamel
    obtain ⟨rfl, rfl⟩ := Prod.mk.inj hkey
    obtain ⟨f, v, between, behind, hsplit, hf, hv, hothers⟩ := Convention.exists_split accept facts
    rw [hsplit, setting?_camelcase hlanguage hf hv hothers, laterOr_filter] at h
    rw [hsplit, setting?_camelcase hlanguage hf hv hothers, laterOr_filter, laterOr_overlay h,
      parted_iff hf hv hothers]
    simp [hlanguage, Toolchain.camelcase]
  · have hstands : ((derive language ((Convention.allObserved accept facts).filter p')
        lines).setting? tool key).or (some value) = some value := by
      cases h' : (derive language ((Convention.allObserved accept facts).filter p')
          lines).setting? tool key with
      | none => rfl
      | some value' => rw [Option.some_or, derive_agree h' h hcamel]
    exact iff_of_true hstands fun hcase => hcamel ⟨hcase.1, hcase.2.1⟩

end Rules

namespace Overview

variable {α : Type} [Scalar α] {tool key : String}

/-- The rules for the main language: the limits over the settings for confident conventions over the
rules of the profile. -/
lemma setting?_rulesFor {q : Profile α} (m : LanguageMetrics α) :
    (rulesFor (some q) q.language m).setting? tool key
      = ((Rules.limits q.language m).setting? tool key).or
          (((Rules.derive q.language (m.conventions.filter confident) m.lineStats).setting?
            tool key).or (q.rules.setting? tool key)) := by
  have hown : (Rules.merge .empty q.rules).setting? tool key = q.rules.setting? tool key := by
    rw [Rules.setting?_merge, Rules.setting?_empty, Option.or_none]
  simp only [rulesFor, if_pos, Rules.setting?_merge, hown]
  rfl

end Overview

/-- The conventions of a language with files are those that it shows. -/
lemma Workload.conventions_analysis {α : Type} [Scalar α] [NumberText α] {w : Workload}
    {s : Settings α} {layout : Layout} (h : (w.analysis s layout).metrics.hasData = true) :
    (w.analysis s layout).metrics.conventions
      = Convention.allObserved s.acceptance (w.analysis s layout).facts := by
  simp only [Workload.analysis, Analysis.ofFiles, LanguageMetrics.ofFiles] at h ⊢
  split_ifs at h ⊢
  · cases h
  · rfl

namespace ProjectTree

variable {α : Type} [Scalar α] [NumberText α] {p : ProjectTree} {s : Settings α} {now : α}

/-- The rules for the main language are made from the analysis that its profile is learned from. -/
lemma exists_main_rules {o : Overview α} {q : Profile α} {rules : Rules α}
    (h : p.overview s now = .ok o) (hq : o.primary = some q)
    (hrules : o.rules.get? q.language = some rules) :
    ∃ w layout, p.mainWork (.sound : Readers α) s = .ok (w, layout) ∧
      q = Profile.learn s.leastConfidence now (w.analysis s layout) layout ∧
      (w.analysis s layout).metrics.hasData = true ∧
      o.metrics.get? q.language = some (w.analysis s layout).metrics.withoutLayout ∧
      rules = Overview.rulesFor (some q) q.language
        (w.analysis s layout).metrics.withoutLayout := by
  rw [overview, overviewWith_eq] at h
  obtain ⟨⟨analyses, layout⟩, hall, h⟩ := exists_of_bind_eq_ok h
  cases hlearn : p.learnWith (.sound : Readers α) s now with
  | error fault => simp [hlearn, Except.map] at h
  | ok q' =>
    simp only [hlearn, Except.map, Except.ok.injEq] at h
    subst h
    obtain rfl : q' = q := by simpa [Overview.integrate] using hq
    obtain ⟨w, layout', hwork, rfl⟩ := exists_mainWork hlearn
    have hmain : p.analyzeMainWith (.sound : Readers α) s
        = .ok (w.analysis s layout', layout') := by
      rw [analyzeMainWith, hwork]
      rfl
    obtain ⟨hlanguage, -⟩ := language_of_analyzeMainWith hall hmain
    -- there are rules for the main language only if it has an analysis with files
    simp only [Overview.integrate, Profile.learn, SortedMap.get?_map] at hrules
    obtain ⟨m, hm, rfl⟩ := Option.map_eq_some_iff.1 hrules
    rw [SortedMap.get?_filter, Option.filter_eq_some_iff, metricsOf, SortedMap.get?_map] at hm
    obtain ⟨a, ha, rfl⟩ := Option.map_eq_some_iff.1 hm.1
    have hmain' := analyzeMainWith_of_get? hall (hlanguage ▸ ha)
    rw [hmain] at hmain'
    obtain rfl := (Prod.mk.inj (Except.ok.inj hmain')).1
    refine ⟨w, layout', hwork, rfl, hm.2, ?_, rfl⟩
    change (metricsOf _).get? _ = _
    rw [metricsOf, SortedMap.get?_map]
    exact congrArg (Option.map _) ha

/-- A setting of the profile stands in the rules for its language unless the bars part the two
conventions that make it. -/
lemma setting?_main_rules {o : Overview α} {q : Profile α} {rules : Rules α}
    (h : p.overview s now = .ok o) (hq : o.primary = some q)
    (hrules : o.rules.get? q.language = some rules) :
    ∃ m, o.metrics.get? q.language = some m ∧
      ∀ tool key value, q.rules.setting? tool key = some value →
        (rules.setting? tool key).isSome ∧
        (rules.setting? tool key = some value ↔
          ¬ (Toolchain.ofLanguage? q.language = some .javascript ∧
            (tool, key) = Toolchain.camelcase ∧
            Convention.Parted s.accepts Overview.confident m.conventions)) := by
  obtain ⟨w, layout, -, hlearned, hdata, hmetrics, rfl⟩ := exists_main_rules h hq hrules
  have hconventions := Workload.conventions_analysis hdata
  generalize w.analysis s layout = a at hlearned hmetrics hconventions ⊢
  refine ⟨_, hmetrics, fun tool key value hvalue => ?_⟩
  have hderived : q.rules = Rules.derive q.language
      ((Convention.allObserved s.acceptance a.facts).filter s.accepts) a.metrics.lineStats := by
    rw [hlearned, ← hconventions]
    rfl
  rw [hderived] at hvalue
  have hconfident : a.metrics.withoutLayout.conventions.filter Overview.confident
      = (Convention.allObserved s.acceptance a.facts).filter
          fun c => Overview.confident c && c.kind != .layout := by
    rw [← hconventions, ← List.filter_filter]
    rfl
  have hsetting : (Overview.rulesFor (some q) q.language a.metrics.withoutLayout).setting? tool key
      = ((Rules.derive q.language ((Convention.allObserved s.acceptance a.facts).filter
          fun c => Overview.confident c && c.kind != .layout) a.metrics.lineStats).setting?
            tool key).or (some value) := by
    rw [Overview.setting?_rulesFor, Rules.limits_eq_none _ hvalue, Option.none_or, hderived, hvalue,
      hconfident]
    rfl
  have hparted : Convention.Parted s.accepts Overview.confident
        a.metrics.withoutLayout.conventions ↔
      Convention.Parted s.accepts (fun c => Overview.confident c && c.kind != .layout)
        (Convention.allObserved s.acceptance a.facts) := by
    rw [Rules.parted_withoutLayout, ← hconventions]
    rfl
  rw [hsetting, hparted]
  exact ⟨by simp, Rules.derive_overlay hvalue⟩

/-! ### A script in two styles -/

/-- A script whose function is in camel case and whose variables are mostly in snake case. -/
def twoStyles : ProjectTree :=
  ⟨⟨"."⟩, [⟨["a.js"], some (Text.encode
    "function loadUser() \x7b\x7d\nlet user_id;\nlet user_name;\nlet userAge;\n")⟩], []⟩

/-- Settings with a lower bar than that of an overview. -/
noncomputable def lowBar : Settings (ExactNumber Real.exp) :=
  { Settings.standard with leastConfidence := 0.5, floor := 0.5, steepness := 2.0 }

lemma check_lowBar : lowBar.check = .ok () := by
  have hshare {n : Nat} (hn : n ≤ 10) : Scalar.within (0.0 : ExactNumber Real.exp) 1.0
      (OfScientific.ofScientific n true 1) = true :=
    (Scalar.finiteWithin_tenths (Nat.zero_le n) hn (by decide)).within
  have hsteep : Scalar.lt (0.0 : ExactNumber Real.exp) 2.0 = true := by
    rw [ExactNumber.zero_eq, ExactNumber.tenths, ExactNumber.lt_some]
    norm_num
  have hfinite : Scalar.isFinite (2.0 : ExactNumber Real.exp) = true :=
    LawfulScalar.isFinite_tenths (by decide)
  have hdir : Text.allBlank ".analysis-state".toList = false := by decide
  simp only [Settings.check, lowBar, Settings.standard, Settings.checkShare,
    hshare (n := 5) (by decide), hshare (n := 3) (by decide), hsteep, hfinite, hdir]
  rfl

lemma half_lowBar : lowBar.leastConfidence = ⟨some (1 / 2)⟩ ∧
    lowBar.acceptance = ⟨⟨some (1 / 2)⟩, ⟨some 2⟩⟩ := by
  have hhalf : (0.5 : ExactNumber Real.exp) = ⟨some (1 / 2)⟩ := by
    rw [ExactNumber.tenths]
    norm_num
  have htwo : (2.0 : ExactNumber Real.exp) = ⟨some 2⟩ := by
    rw [ExactNumber.tenths]
    norm_num
  refine ⟨hhalf, ?_⟩
  change (⟨0.5, 2.0⟩ : Acceptance (ExactNumber Real.exp)) = _
  rw [hhalf, htwo]

/-- What is left out of the script's project. -/
def neverSources : Exclusion := ⟨Settings.neverSources, []⟩

/-- What is read of the script. -/
def twoStylesWork : Workload := twoStyles.workload neverSources none .javascript

lemma mainWork_twoStyles :
    twoStyles.mainWork .sound lowBar = .ok (twoStylesWork, twoStyles.layout neverSources) := by
  have hx : lowBar.exclusion = .ok neverSources := rfl
  have hl : Language.javascript.id = lowBar.mainLanguage (twoStyles.layout neverSources) := by
    decide +kernel
  have hfiles : 0 < (twoStyles.layout neverSources).sourceFiles.get Language.javascript.id := by
    decide +kernel
  exact mainWork_of_files hx hl hfiles rfl

lemma allWork_twoStyles :
    twoStyles.allWork .sound lowBar = .ok ([twoStylesWork], twoStyles.layout neverSources) := by
  have hx : lowBar.exclusion = .ok neverSources := rfl
  have hpresent : (lowBar.knownLanguages.filter fun l =>
      decide (0 < (twoStyles.layout neverSources).sourceFiles.get l.id)
        && ((.sound : Readers (ExactNumber Real.exp)) l).isOk) = [.javascript] := by
    decide +kernel
  simp only [allWork, hx, Except.mapError, bind, Except.bind, hpresent]
  rfl

/-- The facts about the script. -/
def twoStylesFacts : LanguageFacts :=
  .ofFiles Language.javascript.id twoStylesWork.survey.1 (twoStyles.layout neverSources)

lemma names_twoStyles : twoStylesFacts.names
    = ⟨["loadUser"], [], ["user_id", "user_name", "userAge"], [], ["a"]⟩ := by
  decide +kernel

lemma exists_function_naming : ∃ c ∈ Convention.allObserved lowBar.acceptance twoStylesFacts,
    c.kind = .naming ∧ c.name = "function_naming" ∧ Toolchain.styleOf? c = some .camelCase ∧
      Overview.confident c = true := by
  have hdominant : (Names.styleTally (twoStylesFacts.names.get .function)).dominant?
      = some ("camelCase", 1) := by
    rw [names_twoStyles]
    decide +kernel
  have htotal : (Names.styleTally (twoStylesFacts.names.get .function)).total = 1 := by
    rw [names_twoStyles]
    decide +kernel
  obtain ⟨c, hc, hkind, hname, hvalue, -, hconfidence⟩ := Convention.exists_naming Real.exp_pos
    (fun _ => Real.exp_le_one_iff.2) two_pos.le hdominant htotal (by decide) (by decide)
  refine ⟨c, half_lowBar.2 ▸ hc, hkind, hname, ?_, ?_⟩
  · rw [Toolchain.styleOf?, hvalue]
    decide
  · -- e exceeds 7 / 3
    have he := Real.quadratic_le_exp_of_nonneg (x := 1) one_pos.le
    have hexp : Real.exp (-2 * (((1 : ℕ) : ℝ) / ((1 : ℕ) : ℝ) - 1 / 2)) < 3 / 7 := by
      norm_num [Real.exp_neg] at he ⊢
      rw [inv_lt_comm₀ (by positivity) (by norm_num)]
      linarith
    rw [Overview.confident, hconfidence, ExactNumber.tenths, ExactNumber.lt_some, Convention.curve,
      lt_div_iff₀ (by positivity)]
    norm_num at hexp ⊢
    linarith

lemma exists_variable_naming : ∃ c ∈ Convention.allObserved lowBar.acceptance twoStylesFacts,
    c.kind = .naming ∧ c.name = "variable_naming" ∧ Toolchain.styleOf? c = some .snakeCase ∧
      lowBar.accepts c = true ∧ Overview.confident c = false := by
  have hdominant : (Names.styleTally (twoStylesFacts.names.get .binding)).dominant?
      = some ("snake_case", 2) := by
    rw [names_twoStyles]
    decide +kernel
  have htotal : (Names.styleTally (twoStylesFacts.names.get .binding)).total = 3 := by
    rw [names_twoStyles]
    decide +kernel
  obtain ⟨c, hc, hkind, hname, hvalue, hhalf, hconfidence⟩ := Convention.exists_naming Real.exp_pos
    (fun _ => Real.exp_le_one_iff.2) two_pos.le hdominant htotal (by decide) (by decide)
  refine ⟨c, half_lowBar.2 ▸ hc, hkind, hname, ?_, ?_, ?_⟩
  · rw [Toolchain.styleOf?, hvalue]
    decide
  · rw [Settings.accepts, hconfidence, half_lowBar.1]
    exact ExactNumber.le_some.2 hhalf
  · have hexp := Real.add_one_le_exp (-2 * (((2 : ℕ) : ℝ) / ((3 : ℕ) : ℝ) - 1 / 2))
    rw [Overview.confident, hconfidence, ExactNumber.tenths, ← Bool.not_eq_true,
      ExactNumber.lt_some, not_lt, Convention.curve, div_le_iff₀ (by positivity)]
    norm_num at hexp ⊢
    linarith

/-! ### The rules of an overview -/

/-- Every setting of the main profile is made by the rules of the overview for its language, and
with the same value, unless it is the check of eslint for camel case and the two bars part the
styles of function names and of variables. -/
theorem overview_keeps_rules (hs : s.check = .ok ()) (p : ProjectTree) (now : α) :
    ∃ o q, p.overview s now = .ok o ∧ o.primary = some q ∧
      (∀ now', (p.learn s now').map (·.rules) = .ok q.rules) ∧
      ∀ rules, o.rules.get? q.language = some rules →
        ∃ m, o.metrics.get? q.language = some m ∧
        ∀ tool key value, q.rules.setting? tool key = some value →
          (rules.setting? tool key).isSome ∧
          (rules.setting? tool key = some value ↔
            ¬ (Toolchain.ofLanguage? q.language = some .javascript ∧
              (tool, key) = Toolchain.camelcase ∧
              Convention.Parted s.accepts Overview.confident m.conventions)) := by
  obtain ⟨o, q, ho, hq⟩ := exists_overview (Settings.sensible_of_check hs) p now
  refine ⟨o, q, ho, hq, fun now' => ?_, fun rules hrules => setting?_main_rules ho hq hrules⟩
  obtain ⟨x, work, layout, q', -, -, hlearn, rfl⟩ := exists_parts_of_overview ho
  obtain rfl := Option.some.inj hq
  have hnow := learnWith_now (r := .sound) (p := p) (s := s) now' now
  rw [learn] at hlearn ⊢
  rw [hnow, hlearn]
  rfl

theorem overview_keeps_rules_twoStyles :
    lowBar.check = .ok () ∧ ∃ o q, twoStyles.overview lowBar 0.0 = .ok o ∧ o.primary = some q ∧
      (∀ now', (twoStyles.learn lowBar now').map (·.rules) = .ok q.rules) ∧
      ∀ rules, o.rules.get? q.language = some rules →
        ∃ m, o.metrics.get? q.language = some m ∧
        ∀ tool key value, q.rules.setting? tool key = some value →
          (rules.setting? tool key).isSome ∧
          (rules.setting? tool key = some value ↔
            ¬ (Toolchain.ofLanguage? q.language = some .javascript ∧
              (tool, key) = Toolchain.camelcase ∧
              Convention.Parted lowBar.accepts Overview.confident m.conventions)) :=
  ⟨check_lowBar, overview_keeps_rules check_lowBar twoStyles 0.0⟩

/-- With a low bar the profile turns off the check for camel case that the overview turns on. -/
theorem overview_changes_rules :
    lowBar.check = .ok () ∧ ∃ o q rules, twoStyles.overview lowBar 0.0 = .ok o ∧
      o.primary = some q ∧ o.rules.get? q.language = some rules ∧
      q.rules.setting? "eslint" "camelcase" = some (.text "off") ∧
      rules.setting? "eslint" "camelcase" ≠ some (.text "off") := by
  obtain ⟨o, q, ho, hq⟩ := exists_overview (Settings.sensible_of_check check_lowBar) twoStyles 0.0
  have hsome : (o.rules.get? q.language).isSome := by
    obtain ⟨-, work, layout, q', -, hwork, hlearn, rfl⟩ := exists_parts_of_overview ho
    obtain rfl := Option.some.inj hq
    obtain ⟨w, layout', hmain, rfl⟩ := exists_mainWork hlearn
    rw [mainWork_twoStyles] at hmain
    rw [allWork_twoStyles] at hwork
    cases hmain
    cases hwork
    decide +kernel
  obtain ⟨rules, hrules⟩ := Option.isSome_iff_exists.1 hsome
  obtain ⟨w, layout, hmain, hlearned, hdata, hmetrics, -⟩ := exists_main_rules ho hq hrules
  rw [mainWork_twoStyles] at hmain
  cases hmain
  have hconventions : (twoStylesWork.analysis lowBar
      (twoStyles.layout neverSources)).metrics.conventions
        = Convention.allObserved lowBar.acceptance twoStylesFacts :=
    Workload.conventions_analysis hdata
  obtain ⟨f, hf, hfkind, hfname, hfstyle, hfbar⟩ := exists_function_naming
  obtain ⟨v, hv, hvkind, hvname, hvstyle, hvaccepted, hvbar⟩ := exists_variable_naming
  have hoff : q.rules.setting? "eslint" "camelcase" = some (.text "off") := by
    obtain ⟨f', v', between, behind, hsplit, hf', hv', hothers⟩ :=
      Convention.exists_split lowBar.acceptance twoStylesFacts
    obtain rfl := Rules.eq_some_of_variable hf' hothers (hsplit ▸ hv) hvname
    rw [hlearned]
    change (Rules.derive _ (List.filter lowBar.accepts _) _).setting? _ _ = _
    rw [hconventions, hsplit, Rules.setting?_camelcase (by decide +kernel) hf' hv' hothers]
    simp [Option.filter, hvaccepted, Rules.camelcaseOf?, hvstyle, Rules.camelcaseFor?]
  have hlanguage : Toolchain.ofLanguage? q.language = some .javascript := by
    rw [hlearned]
    decide +kernel
  have hmem {c : Convention (ExactNumber Real.exp)}
      (hc : c ∈ Convention.allObserved lowBar.acceptance twoStylesFacts)
        (hkind : c.kind = .naming) :
      c ∈ (twoStylesWork.analysis lowBar
        (twoStyles.layout neverSources)).metrics.withoutLayout.conventions :=
    List.mem_filter.2 ⟨hconventions ▸ hc, by rw [hkind]; rfl⟩
  obtain ⟨m, hm, hiff⟩ := setting?_main_rules ho hq hrules
  obtain rfl := Option.some.inj (hm.symm.trans hmetrics)
  refine ⟨check_lowBar, o, q, rules, ho, hq, hrules, hoff, fun hsame => ?_⟩
  exact (hiff _ _ _ hoff).2.1 hsame ⟨hlanguage, rfl, f, hmem hf hfkind, v, hmem hv hvkind, hfname,
    hvname, Or.inl ⟨hfstyle, hvstyle⟩, Or.inl ⟨hvaccepted, hvbar, hfbar⟩⟩

end ProjectTree

end HouseStyle
