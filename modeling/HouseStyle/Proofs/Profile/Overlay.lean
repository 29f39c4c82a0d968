import HouseStyle.Proofs.Profile.Setting

/-!
# Rules laid over each other

No tool stands in derived rules without a setting, so two rules are equal if they make the same
settings (`Rules.ext_setting?`).  Rules for two lists of settings one behind the other are those for
the second list laid over those for the first one (`Rules.ofSettings_append`).  What a convention
sets depends on nothing but the convention, and therefore the same is true of conventions: of all
that make a setting the last one counts.  Long lines and the limits for averages make settings that
no convention makes, so it does not matter in which order these are laid over each other.
-/

namespace HouseStyle

namespace Rules

variable {α : Type} {rules extra : Rules α}

/-! ### Rules without empty tools -/

/-- Two rules in which no tool is without a setting are equal if they make the same settings. -/
lemma ext_setting? (hrules : SortedMap.Filled rules) (hextra : SortedMap.Filled extra)
    (h : ∀ tool key, rules.setting? tool key = extra.setting? tool key) : rules = extra :=
  hrules.ext hextra h

lemma filled_ofSettings (settings : List (ToolSetting α)) :
    SortedMap.Filled (ofSettings settings) := by
  induction settings using List.reverseRecOn with
  | nil => exact SortedMap.filled_empty
  | append_singleton settings s ih =>
    rw [ofSettings_concat]
    exact ih.upsert_insert s.tool s.key s.value

lemma filled_merge (hrules : SortedMap.Filled rules) (hextra : SortedMap.Filled extra) :
    SortedMap.Filled (rules.merge extra) := by
  intro tool settings hsettings
  rw [get?_merge] at hsettings
  cases hmore : extra.get? tool with
  | none =>
    rw [hmore] at hsettings
    exact hrules tool settings hsettings
  | some more =>
    rw [hmore] at hsettings
    obtain rfl := Option.some.inj hsettings
    obtain ⟨key, hkey⟩ := hextra tool more hmore
    exact ⟨key, by rw [SortedMap.get?_union, Option.isSome_or, hkey, Bool.true_or]⟩

/-- The settings of two lists are those of the second one laid over those of the first one. -/
lemma ofSettings_append (settings more : List (ToolSetting α)) :
    ofSettings (settings ++ more) = (ofSettings settings).merge (ofSettings more) := by
  refine ext_setting? (filled_ofSettings _)
    (filled_merge (filled_ofSettings _) (filled_ofSettings _)) fun tool key => ?_
  rw [setting?_append, setting?_merge]

/-! ### Rules for conventions -/

variable [Scalar α] {language tool key : String} {conventions more : List (Convention α)}
  {lines : LineStats}

lemma filled_derive : SortedMap.Filled (derive language conventions lines) := by
  unfold derive
  split
  · exact SortedMap.filled_empty
  · exact filled_ofSettings _

lemma filled_limits (m : LanguageMetrics α) : SortedMap.Filled (limits language m) := by
  unfold limits
  split
  · exact SortedMap.filled_empty
  · exact filled_ofSettings _

section Conventions

variable (hnarrow : Scalar.lt (100.0 : α) 0.0 = false)
include hnarrow

/-- The settings for conventions and no lines, and then those for more conventions and some lines.
-/
lemma settingsOf_append (tools : Toolchain) :
    settingsOf tools language (conventions ++ more) lines
      = settingsOf tools language conventions .none ++ settingsOf tools language more lines := by
  have hnone : (LineStats.none.average : α) = 0.0 := rfl
  rw [settingsOf, settingsOf, settingsOf, hnone, hnarrow, if_neg Bool.false_ne_true,
    List.append_nil, List.flatMap_append, List.append_assoc]

/-- Rules for conventions are laid over those for the conventions before. -/
lemma derive_append : derive language (conventions ++ more) lines
    = (derive language conventions .none).merge (derive language more lines) := by
  unfold derive
  split
  · rfl
  · rw [settingsOf_append hnarrow, ofSettings_append]

/-- A setting that a convention makes is none that long lines make. -/
lemma derive_nil_eq_none {c : Convention α} {value : Json α}
    (h : (derive language [c] .none).setting? tool key = some value) :
    (derive language ([] : List (Convention α)) lines).setting? tool key = none := by
  have hnone : (LineStats.none.average : α) = 0.0 := rfl
  unfold derive at h ⊢
  cases htools : Toolchain.ofLanguage? language with
  | none => rfl
  | some tools =>
    simp only [htools, settingsOf, hnone, hnarrow, List.flatMap_singleton, List.flatMap_nil,
      List.nil_append, if_neg Bool.false_ne_true, List.append_nil] at h ⊢
    obtain ⟨s, hs, rfl, rfl, -⟩ := exists_of_setting? h
    refine setting?_eq_none fun wide hwide htool hkey => ?_
    split_ifs at hwide
    · exact (Toolchain.wide_settings (α := α) tools).1 wide hwide _ (Toolchain.mem_settable hs)
        (by rw [htool, hkey])
    · cases hwide

/-- Of all conventions that make a setting the last one counts; if there is none, long lines may
make it. -/
lemma setting?_derive : (derive language conventions lines).setting? tool key
    = (conventions.reverse.findSome? fun c => (derive language [c] .none).setting? tool key).or
        ((derive language [] lines).setting? tool key) := by
  induction conventions with
  | nil => rfl
  | cons c conventions ih =>
    rw [← List.singleton_append, derive_append hnarrow, setting?_merge, ih, List.singleton_append,
      List.reverse_cons, List.findSome?_append, List.findSome?_singleton, Option.or_assoc,
      Option.or_assoc]
    congr 1
    cases hvalue : (derive language [c] .none).setting? tool key with
    | none => rw [Option.or_none, Option.none_or]
    | some value => rw [derive_nil_eq_none hnarrow hvalue, Option.none_or, Option.or_none]

/-- Conventions that are there already change nothing behind them. -/
lemma derive_append_self :
    derive language (conventions ++ conventions) lines = derive language conventions lines := by
  refine ext_setting? filled_derive filled_derive fun tool key => ?_
  calc (derive language (conventions ++ conventions) lines).setting? tool key
    _ = _ := setting?_derive hnarrow
    _ = _ := by rw [List.reverse_append, List.findSome?_append, Option.or_self]
    _ = (derive language conventions lines).setting? tool key := (setting?_derive hnarrow).symm

lemma derive_replicate (n : Nat) :
    derive language (List.replicate (n + 1) conventions).flatten lines
    = derive language conventions lines := by
  induction n with
  | zero => rw [List.replicate_one, List.flatten_singleton]
  | succ n ih =>
    rw [List.replicate_succ, List.flatten_cons, derive_append hnarrow, ih, ← derive_append hnarrow,
      derive_append_self hnarrow]

end Conventions

/-! ### The limits -/

/-- No setting is both a limit for an average and derived from conventions or long lines. -/
lemma derive_disjoint_limits (m : LanguageMetrics α) (tool key : String) :
    (derive language conventions lines).setting? tool key = none ∨
      (limits language m).setting? tool key = none := by
  cases hvalue : (derive language conventions lines).setting? tool key with
  | none => exact Or.inl rfl
  | some value => exact Or.inr (limits_eq_none m hvalue)

omit [Scalar α] in
/-- Rules that have no setting in common can be laid over each other in any order. -/
lemma merge_comm (hrules : SortedMap.Filled rules) (hextra : SortedMap.Filled extra)
    (h : ∀ tool key, rules.setting? tool key = none ∨ extra.setting? tool key = none) :
    rules.merge extra = extra.merge rules := by
  refine ext_setting? (filled_merge hrules hextra) (filled_merge hextra hrules) fun tool key => ?_
  rw [setting?_merge, setting?_merge]
  rcases h tool key with hnone | hnone
  · rw [hnone, Option.or_none, Option.none_or]
  · rw [hnone, Option.none_or, Option.or_none]

/-! ### The rules of a language -/

/-- Deriving rules takes conventions one behind the other to rules laid over each other.  So of all
conventions that make a setting the last one counts, conventions that are repeated change nothing,
and no tool is without a setting.  The limits for averages can be laid over derived rules or under
them, as they have no setting in common. -/
theorem derive_overlays (language : String) (conventions more : List (Convention Float))
    (lines : LineStats) :
    derive language (conventions ++ more) lines
      = (derive language conventions .none).merge (derive language more lines) ∧
    (∀ tool key, (derive language (conventions ++ more) lines).setting? tool key
      = ((derive language more lines).setting? tool key).or
          ((derive language conventions .none).setting? tool key)) ∧
    (∀ tool key, (derive language conventions lines).setting? tool key
      = (conventions.reverse.findSome? fun c => (derive language [c] .none).setting? tool key).or
          ((derive language [] lines).setting? tool key)) ∧
    (∀ n, derive language (List.replicate (n + 1) conventions).flatten lines
      = derive language conventions lines) ∧
    (∀ tool settings, (derive language conventions lines).get? tool = some settings →
      settings.isEmpty = false) ∧
    ∀ m : LanguageMetrics Float,
      (∀ tool key, (derive language conventions lines).setting? tool key = none ∨
        (limits language m).setting? tool key = none) ∧
      (derive language conventions lines).merge (limits language m)
        = (limits language m).merge (derive language conventions lines) := by
  have hnarrow : Scalar.lt (100.0 : Float) 0.0 = false := by decide +kernel
  refine ⟨derive_append hnarrow, fun tool key => ?_, fun tool key => setting?_derive hnarrow,
    fun n => derive_replicate hnarrow n, fun tool settings hsettings => ?_, fun m => ?_⟩
  · rw [derive_append hnarrow, setting?_merge]
  · obtain ⟨key, hkey⟩ := filled_derive tool settings hsettings
    rw [SortedMap.isEmpty, List.isEmpty_eq_false_iff]
    intro hnil
    rw [SortedMap.get?, hnil] at hkey
    cases hkey
  · exact ⟨derive_disjoint_limits m,
      merge_comm filled_derive (filled_limits m) (derive_disjoint_limits m)⟩

/-- Of two conventions about quotes the second one decides what flake8 asks for, and black still
does not change quotes because of the first one. -/
example :
    let rules := derive "python" [⟨.style, "quote_style", .text "single", 0.9, 3, []⟩,
      (⟨.style, "quote_style", .text "double", 0.9, 3, []⟩ : Convention Float)] .none
    rules.setting? "flake8" "inline-quotes" = some (.text "double") ∧
      rules.setting? "black" "skip-string-normalization" = some (.flag true) :=
  ⟨rfl, rfl⟩

end Rules

end HouseStyle
