import HouseStyle.Proofs.Convention.Catalog
import HouseStyle.Proofs.SortedMap
import HouseStyle.Profile.Rules

/-!
# Which setting counts

Rules are a map of maps, and all that is done with them can be said about one tool and one key: of
several settings the last one counts, and of two rules the second one.  Two conventions of a
language rarely make the same setting.  Where they do, the value is always the same, or the two are
not reported together, with one exception (`Toolchain.value_eq`): the style of function names and
that of variables both turn the check of eslint for camel case on or off.
-/

namespace HouseStyle

namespace Rules

variable {α : Type}

/-- The value of a setting, if it is made. -/
def setting? (rules : Rules α) (tool key : String) : Option (Json α) :=
  (rules.get? tool).bind (·.get? key)

variable {rules : Rules α} {tool key : String} {value : Json α}

@[simp] lemma setting?_empty : setting? (.empty : Rules α) tool key = none := rfl

lemma setting?_set (rules : Rules α) (s : ToolSetting α) :
    (rules.set s).setting? tool key
      = if tool = s.tool ∧ key = s.key then some s.value else rules.setting? tool key :=
  SortedMap.get?_bind_upsert_insert ..

/-! ### Settings of a list -/

@[simp] lemma ofSettings_nil : ofSettings ([] : List (ToolSetting α)) = .empty := rfl

lemma ofSettings_concat (settings : List (ToolSetting α)) (s : ToolSetting α) :
    ofSettings (settings ++ [s]) = (ofSettings settings).set s := by
  rw [ofSettings, List.foldl_append]
  rfl

/-- Of two lists the second one counts. -/
lemma setting?_append (settings more : List (ToolSetting α)) :
    (ofSettings (settings ++ more)).setting? tool key
      = ((ofSettings more).setting? tool key).or ((ofSettings settings).setting? tool key) := by
  induction more using List.reverseRecOn with
  | nil => rw [List.append_nil, ofSettings_nil, setting?_empty, Option.none_or]
  | append_singleton more s ih =>
    rw [← List.append_assoc, ofSettings_concat, ofSettings_concat, setting?_set, setting?_set, ih]
    split_ifs <;> rfl

/-- What is set is set by the list. -/
lemma exists_of_setting? {settings : List (ToolSetting α)}
    (h : (ofSettings settings).setting? tool key = some value) :
    ∃ s ∈ settings, s.tool = tool ∧ s.key = key ∧ s.value = value := by
  induction settings using List.reverseRecOn with
  | nil => cases h
  | append_singleton settings s ih =>
    rw [ofSettings_concat, setting?_set] at h
    split_ifs at h with hs
    · exact ⟨s, by simp, hs.1.symm, hs.2.symm, Option.some.inj h⟩
    · obtain ⟨s', hmem, hs'⟩ := ih h
      exact ⟨s', List.mem_append_left _ hmem, hs'⟩

lemma setting?_eq_none {settings : List (ToolSetting α)}
    (h : ∀ s ∈ settings, s.tool = tool → s.key ≠ key) :
    (ofSettings settings).setting? tool key = none := by
  cases hvalue : (ofSettings settings).setting? tool key with
  | none => rfl
  | some value =>
    obtain ⟨s, hs, htool, hkey, -⟩ := exists_of_setting? hvalue
    exact absurd hkey (h s hs htool)

/-! ### Rules put together -/

/-- Where two rules have settings of a tool, those of the second one are put into those of the first
one. -/
lemma get?_merge (rules extra : Rules α) (tool : String) :
    (rules.merge extra).get? tool
      = ((extra.get? tool).map fun more => ((rules.get? tool).getD .empty).union more).or
          (rules.get? tool) := by
  -- the induction is on the tools that are put in, none of which occurs twice
  suffices h : ∀ (tools : List (String × RuleSet α)) (rules : Rules α),
      (tools.Pairwise fun a b => a.1 ≠ b.1) →
      (tools.foldl (fun acc e => acc.upsert e.1 fun old => (old.getD .empty).union e.2) rules).get?
          tool
        = ((((tools.find? fun e => e.1 == tool).map Prod.snd).map fun more =>
            ((rules.get? tool).getD .empty).union more).or (rules.get? tool)) from
    h extra.entries rules extra.keys_ne
  intro tools
  induction tools with
  | nil => exact fun rules _ => rfl
  | cons e tools ih =>
    intro rules hkeys
    obtain ⟨hhead, htail⟩ := List.pairwise_cons.1 hkeys
    rw [List.foldl_cons, ih _ htail, SortedMap.get?_upsert]
    by_cases h : tool = e.1
    · have hnone : tools.find? (fun a => a.1 == tool) = none := by
        rw [List.find?_eq_none]
        intro a ha hat
        exact hhead a ha (h ▸ (beq_iff_eq.1 hat).symm)
      rw [List.find?_cons_of_pos (by simp [h]), hnone, if_pos h, h]
      rfl
    · rw [List.find?_cons_of_neg (by simpa using fun h' => h h'.symm), if_neg h]

/-- Where two rules make a setting, the second one counts. -/
lemma setting?_merge (rules extra : Rules α) :
    (rules.merge extra).setting? tool key
      = (extra.setting? tool key).or (rules.setting? tool key) := by
  rw [setting?, get?_merge, setting?, setting?]
  cases extra.get? tool with
  | none => rfl
  | some more =>
    rw [Option.map_some, Option.some_or, Option.bind_some, Option.bind_some, SortedMap.get?_union]
    cases rules.get? tool <;> rfl

end Rules

namespace Toolchain

variable {α : Type} [Scalar α] {tools : Toolchain} {language : String} {c c' : Convention α}
  {s s' : ToolSetting α}

/-! ### The settings of a convention -/

/-- Which conventions make which settings. -/
def settable : Toolchain → List (String × String × String)
  | .python => [
    ("function_naming", "pylint", "function-naming-style"),
    ("class_naming", "pylint", "class-naming-style"),
    ("variable_naming", "pylint", "variable-naming-style"),
    ("constant_naming", "pylint", "const-naming-style"),
    ("quote_style", "flake8", "inline-quotes"),
    ("quote_style", "black", "skip-string-normalization"),
    ("indent_size", "flake8", "indent-size"),
    ("indent_size", "pylint", "indent-string"),
    ("indentation", "pylint", "indent-string"),
    ("import_style", "flake8", "ban-relative-imports"),
    ("type_annotations", "mypy", "disallow_untyped_defs"),
    ("docstring_format", "pydocstyle", "convention"),
    ("high_documentation_coverage", "pydocstyle", "add-select")]
  | .javascript => [
    ("function_naming", "eslint", "camelcase"),
    ("variable_naming", "eslint", "camelcase"),
    ("class_naming", "eslint", "new-cap"),
    ("quote_style", "eslint", "quotes"),
    ("quote_style", "prettier", "singleQuote"),
    ("indentation", "eslint", "indent"),
    ("indentation", "prettier", "useTabs"),
    ("indent_size", "eslint", "indent"),
    ("indent_size", "prettier", "tabWidth"),
    ("import_style", "eslint", "no-restricted-imports"),
    ("type_annotations", "eslint", "@typescript-eslint/explicit-function-return-type"),
    ("high_documentation_coverage", "eslint", "jsdoc/require-jsdoc")]
  | .go => [
    ("function_naming", "golangci-lint", "stylecheck.ST1003"),
    ("class_naming", "golangci-lint", "stylecheck.ST1003"),
    ("variable_naming", "golangci-lint", "stylecheck.ST1003"),
    ("constant_naming", "golangci-lint", "stylecheck.ST1003"),
    ("indentation", "gofmt", "simplify"),
    ("docstring_format", "golangci-lint", "stylecheck.ST1020"),
    ("high_documentation_coverage", "golangci-lint", "revive.exported")]
  | .rust => [
    ("function_naming", "rustc", "non_snake_case"),
    ("variable_naming", "rustc", "non_snake_case"),
    ("class_naming", "rustc", "non_camel_case_types"),
    ("constant_naming", "rustc", "non_upper_case_globals"),
    ("indentation", "rustfmt", "hard_tabs"),
    ("indent_size", "rustfmt", "tab_spaces"),
    ("import_style", "clippy", "wildcard_imports"),
    ("high_documentation_coverage", "clippy", "missing_docs_in_private_items")]

/-- Settings that a convention with a name can make, at most one of each tool. -/
def Settles (tools : Toolchain) (name : String) (settings : List (ToolSetting α)) : Prop :=
  (∀ s ∈ settings, (name, s.tool, s.key) ∈ tools.settable) ∧
    (settings.map (·.tool)).Nodup

lemma mem_settable_of_pylintKey? {name key : String} (h : pylintKey? name = some key) :
    (name, "pylint", key) ∈ settable .python := by
  simp only [pylintKey?, List.lookup_cons, List.lookup_nil] at h
  repeat' split at h
  all_goals simp_all [settable]

lemma settles_python (c : Convention α) : Settles .python c.name (pythonSettings c) := by
  unfold pythonSettings
  split
  next key hkey => split <;> simp [Settles, mem_settable_of_pylintKey? hkey]
  · split
    case h_3 | h_8 => split <;> simp [*, Settles, settable]
    all_goals simp [*, Settles, settable]

lemma settles_javascript (language : String) (c : Convention α) :
    Settles .javascript c.name (javascriptSettings language c) := by
  unfold javascriptSettings
  split
  case h_1 | h_2 | h_3 | h_7 | h_9 => split <;> simp [*, Settles, settable]
  all_goals simp [*, Settles, settable]

omit [Scalar α] in
lemma settles_go (c : Convention α) : Settles .go c.name (goSettings c) := by
  unfold goSettings
  split
  case h_1 | h_2 | h_3 | h_4 => split <;> simp [*, Settles, settable]
  all_goals simp [*, Settles, settable]

lemma settles_rust (c : Convention α) : Settles .rust c.name (rustSettings c) := by
  unfold rustSettings
  split
  case h_1 | h_2 | h_3 | h_4 | h_7 => split <;> simp [*, Settles, settable]
  all_goals simp [*, Settles, settable]

lemma settles (tools : Toolchain) (language : String) (c : Convention α) :
    Settles tools c.name (tools.settings language c) := by
  cases tools with
  | python => exact settles_python c
  | javascript => exact settles_javascript language c
  | go => exact settles_go c
  | rust => exact settles_rust c

lemma mem_settable (h : s ∈ tools.settings language c) :
    (c.name, s.tool, s.key) ∈ tools.settable :=
  (settles tools language c).1 s h

lemma eq_of_tool_eq (h : s ∈ tools.settings language c) (h' : s' ∈ tools.settings language c)
    (htool : s.tool = s'.tool) : s = s' :=
  List.inj_on_of_nodup_map (settles tools language c).2 h h' htool

/-! ### Settings that two conventions make -/

/-- Settings that have the same value whichever convention makes them. -/
def constant : List (String × String) :=
  [("golangci-lint", "stylecheck.ST1003"), ("rustc", "non_snake_case")]

/-- Settings that depend on indentation and on the width of a step. -/
def stepwise : List (String × String) := [("pylint", "indent-string"), ("eslint", "indent")]

/-- The setting that depends on the style of function names and on that of variables. -/
def camelcase : String × String := ("eslint", "camelcase")

lemma shared_settable : ∀ tools : Toolchain, ∀ e ∈ tools.settable, ∀ e' ∈ tools.settable,
    e.2 = e'.2 → e.1 = e'.1 ∨ e.2 ∈ constant ∨
      e.2 ∈ stepwise ∧ (e.1 = "indent_size" ∧ e'.1 = "indentation" ∨
        e.1 = "indentation" ∧ e'.1 = "indent_size") ∨
      tools = .javascript ∧ e.2 = camelcase := by
  intro tools
  cases tools <;> decide +kernel

lemma value_of_constant (h : s ∈ tools.settings language c) (hkey : (s.tool, s.key) ∈ constant) :
    s.value = if tools = .go then .flag true else .text "deny" := by
  have hmem := mem_settable h
  cases tools with
  | python =>
    have hdisjoint : ∀ e ∈ settable .python, e.2 ∉ constant := by decide +kernel
    exact absurd hkey (hdisjoint _ hmem)
  | javascript =>
    have hdisjoint : ∀ e ∈ settable .javascript, e.2 ∉ constant := by decide +kernel
    exact absurd hkey (hdisjoint _ hmem)
  | go =>
    suffices hflag : ∀ s ∈ goSettings c, s.value = .flag true from hflag s h
    unfold goSettings
    split
    case h_1 | h_2 | h_3 | h_4 => split <;> simp
    all_goals simp
  | rust =>
    suffices hdeny : ∀ s ∈ rustSettings c, (s.tool, s.key) ∈ constant → s.value = .text "deny" from
      hdeny s h hkey
    unfold rustSettings
    split
    case h_1 | h_2 | h_3 | h_4 | h_7 => split <;> simp [constant]
    all_goals simp [constant]

/-- Indentation with spaces does not turn to the settings that the width of a step makes. -/
lemma not_stepwise_of_spaces (h : s ∈ tools.settings language c) (hname : c.name = "indentation")
    (hspaces : c.value.text? = some "spaces") : (s.tool, s.key) ∉ stepwise := by
  cases tools <;>
    simp [settings, pythonSettings, javascriptSettings, goSettings, rustSettings, pylintKey?, hname,
      hspaces, List.lookup_cons] at h <;>
    simp [h, stepwise]

variable [NumberText α] {accept : Acceptance α} {facts : LanguageFacts}

/-- Where two conventions of a language make the same setting, they make it the same way, but for
the check for camel case. -/
theorem value_eq (h : c ∈ Convention.allObserved accept facts)
    (h' : c' ∈ Convention.allObserved accept facts) (hs : s ∈ tools.settings language c)
    (hs' : s' ∈ tools.settings language c') (htool : s.tool = s'.tool) (hkey : s.key = s'.key)
    (hcamel : ¬ (tools = .javascript ∧ (s.tool, s.key) = camelcase)) : s.value = s'.value := by
  have hsame : (s'.tool, s'.key) = (s.tool, s.key) := by rw [htool, hkey]
  rcases shared_settable tools _ (mem_settable hs) _ (mem_settable hs') hsame.symm with
    hname | hconstant | ⟨hstep, ⟨hsize, hindent⟩ | ⟨hindent, hsize⟩⟩ | hcase
  · obtain rfl := Convention.eq_of_name_eq h h' hname
    rw [eq_of_tool_eq hs hs' htool]
  · rw [value_of_constant hs hconstant, value_of_constant hs' (hsame ▸ hconstant)]
  · have hspaces := Convention.spaces_of_indentSize h hsize h' hindent
    exact absurd (hsame ▸ hstep) (not_stepwise_of_spaces hs' hindent hspaces)
  · have hspaces := Convention.spaces_of_indentSize h' hsize h hindent
    exact absurd hstep (not_stepwise_of_spaces hs hindent hspaces)
  · exact absurd hcase hcamel

/-! ### Settings that no convention makes -/

omit [Scalar α] [NumberText α] in
lemma wide_settings (tools : Toolchain) :
    (∀ s ∈ (tools.wideSettings : List (ToolSetting α)), ∀ e ∈ tools.settable,
      (s.tool, s.key) ≠ e.2) ∧
    ((tools.wideSettings : List (ToolSetting α)).map (·.tool)).Nodup := by
  cases tools <;> simp [wideSettings, settable]

omit [Scalar α] [NumberText α] in
lemma limit_settings (complexity length : Nat) (tools : Toolchain) :
    ∀ s ∈ (limitSettings complexity length tools : List (ToolSetting α)),
      (∀ e ∈ tools.settable, (s.tool, s.key) ≠ e.2) ∧
      ∀ s' ∈ (tools.wideSettings : List (ToolSetting α)), s.tool = s'.tool → s.key ≠ s'.key := by
  cases tools <;> simp [limitSettings, wideSettings, settable]

end Toolchain

namespace Rules

variable {α : Type} [Scalar α] [NumberText α] {accept : Acceptance α} {facts : LanguageFacts}
  {tools : Toolchain} {language tool key : String} {lines : LineStats} {p p' : Convention α → Bool}
  {value value' : Json α}

omit [NumberText α] in
/-- A setting is made for a convention or for long lines. -/
lemma mem_settingsOf {conventions : List (Convention α)} {s : ToolSetting α}
    (h : s ∈ settingsOf tools language conventions lines) :
    (∃ c ∈ conventions, s ∈ tools.settings language c) ∨ s ∈ tools.wideSettings := by
  rcases List.mem_append.1 h with h | h
  · exact Or.inl (List.mem_flatMap.1 h)
  · split_ifs at h
    · exact Or.inr h
    · cases h

/-- Rules that are derived from some of the conventions of a language agree, but for the check for
camel case. -/
theorem derive_agree
    (h : (derive language ((Convention.allObserved accept facts).filter p) lines).setting? tool key
      = some value)
    (h' : (derive language
        ((Convention.allObserved accept facts).filter p') lines).setting? tool key
      = some value')
    (hcamel : ¬ (Toolchain.ofLanguage? language = some .javascript ∧
      (tool, key) = Toolchain.camelcase)) : value = value' := by
  unfold derive at h h'
  cases htools : Toolchain.ofLanguage? language with
  | none =>
    rw [htools] at h
    cases h
  | some tools =>
    simp only [htools] at h h' hcamel
    obtain ⟨s, hs, rfl, rfl, rfl⟩ := exists_of_setting? h
    obtain ⟨s', hs', htool, hkey, rfl⟩ := exists_of_setting? h'
    obtain ⟨hwide, hdistinct⟩ := Toolchain.wide_settings (α := α) tools
    rcases mem_settingsOf hs with ⟨c, hc, hs⟩ | hs <;>
      rcases mem_settingsOf hs' with ⟨c', hc', hs'⟩ | hs'
    · refine Toolchain.value_eq (List.mem_filter.1 hc).1 (List.mem_filter.1 hc').1 hs hs' htool.symm
        hkey.symm fun hcase => hcamel ⟨congrArg some hcase.1, hcase.2⟩
    · exact absurd (by rw [htool, hkey]) (hwide s' hs' _ (Toolchain.mem_settable hs))
    · exact absurd (by rw [htool, hkey]) (hwide s hs _ (Toolchain.mem_settable hs'))
    · rw [List.inj_on_of_nodup_map hdistinct hs' hs htool]

omit [NumberText α] in
/-- The limits for averages are no settings that conventions or long lines make. -/
lemma limits_eq_none {conventions : List (Convention α)} (m : LanguageMetrics α)
    (h : (derive language conventions lines).setting? tool key = some value) :
    (limits language m).setting? tool key = none := by
  unfold derive at h
  unfold limits
  cases htools : Toolchain.ofLanguage? language with
  | none => rfl
  | some tools =>
    simp only [htools] at h ⊢
    obtain ⟨s, hs, rfl, rfl, -⟩ := exists_of_setting? h
    refine setting?_eq_none fun l hl htool hkey => ?_
    obtain ⟨hsettable, hwide⟩ := Toolchain.limit_settings _ _ tools l hl
    rcases mem_settingsOf hs with ⟨c, -, hs⟩ | hs
    · exact hsettable _ (Toolchain.mem_settable hs) (by rw [htool, hkey])
    · exact hwide s hs htool hkey

/-! ### The check for camel case -/

/-- How a naming style sets the check for camel case. -/
def camelcaseFor? : NamingStyle → Option (Json α)
  | .camelCase => some (Toolchain.leveled "error" (.record [("properties", .text "never")]))
  | .snakeCase => some (.text "off")
  | _ => none

/-- How a convention about names sets the check for camel case. -/
def camelcaseOf? (c : Convention α) : Option (Json α) :=
  (Toolchain.styleOf? c).bind camelcaseFor?

omit [NumberText α] in
lemma setting?_of_naming {c : Convention α}
    (h : c.name = "function_naming" ∨ c.name = "variable_naming") :
    (ofSettings (Toolchain.settings .javascript language c)).setting? "eslint" "camelcase"
      = camelcaseOf? c := by
  have hsettings : Toolchain.settings .javascript language c
      = ((camelcaseOf? c).map fun value => ⟨"eslint", "camelcase", value⟩).toList := by
    rw [camelcaseOf?, Toolchain.settings, Toolchain.javascriptSettings]
    rcases h with h | h <;> simp only [h] <;> rcases Toolchain.styleOf? c with _ | style
    case inl.none | inr.none => rfl
    all_goals cases style <;> rfl
  rw [hsettings]
  cases camelcaseOf? c <;> rfl

omit [NumberText α] in
/-- No other convention has to do with the check for camel case. -/
lemma setting?_of_others {cs : List (Convention α)}
    (h : ∀ c ∈ cs, c.name ≠ "function_naming" ∧ c.name ≠ "variable_naming") :
    (ofSettings (cs.flatMap (Toolchain.settings .javascript language))).setting? "eslint"
      "camelcase"
      = none := by
  have hnames : ∀ e ∈ Toolchain.settable .javascript, e.2 = Toolchain.camelcase →
      e.1 = "function_naming" ∨ e.1 = "variable_naming" := by decide +kernel
  refine setting?_eq_none fun s hs htool hkey => ?_
  obtain ⟨c, hc, hs⟩ := List.mem_flatMap.1 hs
  rcases hnames _ (Toolchain.mem_settable hs) (by rw [htool, hkey]; rfl) with hname | hname
  · exact (h c hc).1 hname
  · exact (h c hc).2 hname

omit [NumberText α] in
/-- The style of variables decides on the check for camel case, and the style of function names
where that of variables says nothing. -/
lemma setting?_camelcase {f v : Option (Convention α)} {between behind : List (Convention α)}
    (hlanguage : Toolchain.ofLanguage? language = some .javascript)
    (hf : ∀ c, f = some c → c.entry = (.naming, "function_naming"))
    (hv : ∀ c, v = some c → c.entry = (.naming, "variable_naming"))
    (hothers : ∀ c ∈ between ++ behind, c.name ≠ "function_naming" ∧ c.name ≠ "variable_naming")
    (p : Convention α → Bool) :
    (derive language ((f.toList ++ (between ++ (v.toList ++ behind))).filter p) lines).setting?
        "eslint" "camelcase"
      = ((v.filter p).bind camelcaseOf?).or ((f.filter p).bind camelcaseOf?) := by
  have hnaming {o : Option (Convention α)}
      (h : ∀ c, o = some c → c.name = "function_naming" ∨ c.name = "variable_naming") :
      (ofSettings ((o.toList.filter p).flatMap (Toolchain.settings .javascript language))).setting?
        "eslint" "camelcase" = (o.filter p).bind camelcaseOf? := by
    rcases o with _ | c
    · rfl
    · cases hp : p c
      · simp [hp, Option.filter]
      · simpa [hp, Option.filter] using setting?_of_naming (h c rfl)
  have hother {cs : List (Convention α)} (h : cs ⊆ between ++ behind) :
      (ofSettings ((cs.filter p).flatMap (Toolchain.settings .javascript language))).setting?
        "eslint" "camelcase" = none :=
    setting?_of_others fun c hc => hothers c (h (List.mem_filter.1 hc).1)
  have hwide : (ofSettings (if Scalar.lt (100.0 : α) lines.average
      then Toolchain.wideSettings .javascript else ([] : List (ToolSetting α)))).setting?
        "eslint" "camelcase" = none := by
    refine setting?_eq_none fun s hs htool hkey => ?_
    split_ifs at hs
    · have hmem : ("function_naming", Toolchain.camelcase) ∈ Toolchain.settable .javascript := by
        decide
      exact (Toolchain.wide_settings (α := α) .javascript).1 s hs _ hmem (by rw [htool, hkey]; rfl)
    · cases hs
  simp only [derive, hlanguage, settingsOf, List.filter_append, List.flatMap_append,
    setting?_append, hwide, Option.none_or]
  rw [hother fun c hc => List.mem_append_left behind hc,
    hother fun c hc => List.mem_append_right between hc,
    hnaming fun c hc => Or.inl (congrArg Prod.snd (hf c hc)),
    hnaming fun c hc => Or.inr (congrArg Prod.snd (hv c hc)), Option.none_or, Option.or_none]

end Rules

end HouseStyle
