import HouseStyle.Proofs.Convention.Bounds

/-!
# Profiles keep to their bounds

Strictness is cut off at its bounds, so it lies in its range for whatever confidence it follows and
whatever earlier strictness it is moved from.  Settings of tools are made of texts, flags and counts
that fit into 64 bits, and no setting has more than three levels.
-/

namespace HouseStyle

variable {α : Type} [Scalar α]

/-! ### Settings of tools -/

namespace Toolchain

open Json

variable {room : Nat}

lemma storable_count {n : Nat} (h : n < Count.wordSize 64) : (count n : Json α).Storable room := by
  rw [count, Storable]
  omega

lemma storable_goSettings (c : Convention α) :
    ∀ s ∈ goSettings c, s.value.Storable (room + 3) := by
  unfold goSettings
  split
  case h_1 | h_2 | h_3 | h_4 => split <;> simp [Storable]
  all_goals simp [Storable]

lemma storable_wideSettings (tools : Toolchain) :
    ∀ s ∈ (tools.wideSettings : List (ToolSetting α)), s.value.Storable (room + 3) := by
  have hwide {room : Nat} : (wideLine : Json α).Storable room := storable_count (by decide)
  cases tools <;> simp [wideSettings, leveled, Storable, StorableItems, StorableMembers, hwide]

lemma storable_limitSettings {complexity length : Nat}
    (hcomplexity : complexity < Count.wordSize 64)
    (hlength : length < Count.wordSize 64) (tools : Toolchain) :
    ∀ s ∈ (limitSettings complexity length tools : List (ToolSetting α)),
      s.value.Storable (room + 3) := by
  cases tools <;>
    simp [limitSettings, leveled, Storable, StorableItems, storable_count hcomplexity,
      storable_count hlength]

variable [LawfulScalar α]

lemma storable_columns {c : Convention α} {n : Nat} (h : columnsOf? c = some n) :
    (count n : Json α).Storable room := by
  obtain ⟨x, -, rfl⟩ := Option.map_eq_some_iff.1 h
  exact storable_count (LawfulScalar.wholePart_lt x)

lemma storable_pythonSettings (c : Convention α) :
    ∀ s ∈ pythonSettings c, s.value.Storable (room + 3) := by
  unfold pythonSettings
  split
  · split <;> simp [Storable]
  · split
    case h_3 =>
      split
      next n hn => simp [Storable, storable_columns hn]
      next => simp
    case h_8 => split <;> simp [Storable]
    all_goals simp [Storable]

lemma storable_javascriptSettings (language : String) (c : Convention α) :
    ∀ s ∈ javascriptSettings language c, s.value.Storable (room + 3) := by
  unfold javascriptSettings
  split
  case h_7 =>
    split
    next n hn => simp [leveled, Storable, StorableItems, storable_columns hn]
    next => simp
  case h_1 | h_2 => split <;> simp [leveled, Storable, StorableItems, StorableMembers]
  case h_3 | h_9 => split <;> simp [Storable]
  all_goals simp [leveled, Storable, StorableItems, StorableMembers]

lemma storable_rustSettings (c : Convention α) :
    ∀ s ∈ rustSettings c, s.value.Storable (room + 3) := by
  unfold rustSettings
  split
  case h_7 =>
    split
    next n hn => simp [storable_columns hn]
    next => simp
  case h_1 | h_2 | h_3 | h_4 => split <;> simp [Storable]
  all_goals simp [Storable]

lemma storable_settings (tools : Toolchain) (language : String) (c : Convention α) :
    ∀ s ∈ tools.settings language c, s.value.Storable (room + 3) := by
  cases tools with
  | python => exact storable_pythonSettings c
  | javascript => exact storable_javascriptSettings language c
  | go => exact storable_goSettings c
  | rust => exact storable_rustSettings c

end Toolchain

namespace Rules

variable {room : Nat}

lemma storable_set {rules : Rules α} {s : ToolSetting α} (h : rules.Storable room)
    (hs : s.value.Storable (room - 2)) : (rules.set s).Storable room := by
  refine SortedMap.forall_upsert h (SortedMap.forall_insert ?_ hs)
  cases hold : SortedMap.get? rules s.tool with
  | none => exact nofun
  | some old => exact h (s.tool, old) (SortedMap.mem_entries_iff.2 hold)

lemma storable_ofSettings {settings : List (ToolSetting α)}
    (h : ∀ s ∈ settings, s.value.Storable (room - 2)) : (ofSettings settings).Storable room := by
  suffices hfold : ∀ rules : Rules α, rules.Storable room →
      (settings.foldl set rules).Storable room from hfold _ nofun
  induction settings with
  | nil => exact fun rules hrules => hrules
  | cons s settings ih =>
    intro rules hrules
    rw [List.forall_mem_cons] at h
    exact ih h.2 _ (storable_set hrules h.1)

lemma storable_merge {rules extra : Rules α} (h : rules.Storable room)
    (hextra : extra.Storable room) : (rules.merge extra).Storable room := by
  suffices hfold : ∀ (tools : List (String × RuleSet α)) (rules : Rules α), rules.Storable room →
      (∀ tool ∈ tools, ∀ setting ∈ tool.2.entries, setting.2.Storable (room - 2)) →
        Storable room (tools.foldl
          (fun acc e => acc.upsert e.1 fun old => (old.getD .empty).union e.2) rules) from
    hfold extra.entries rules h hextra
  intro tools
  induction tools with
  | nil => exact fun rules hrules _ => hrules
  | cons tool tools ih =>
    intro rules hrules htools
    rw [List.forall_mem_cons] at htools
    refine ih _ (SortedMap.forall_upsert hrules (SortedMap.forall_union ?_ htools.1)) htools.2
    cases hold : SortedMap.get? rules tool.1 with
    | none => exact nofun
    | some old => exact hrules (tool.1, old) (SortedMap.mem_entries_iff.2 hold)

variable [LawfulScalar α]

lemma storable_derive (language : String) (conventions : List (Convention α)) (lines : LineStats) :
    (derive language conventions lines).Storable (room + 5) := by
  unfold derive
  split
  · exact nofun
  next tools _ =>
    refine storable_ofSettings fun s hs => ?_
    rcases List.mem_append.1 hs with hs | hs
    · obtain ⟨c, -, hs⟩ := List.mem_flatMap.1 hs
      exact tools.storable_settings language c s hs
    · split_ifs at hs
      · exact tools.storable_wideSettings s hs
      · cases hs

lemma storable_limits (language : String) (m : LanguageMetrics α) :
    (limits language m).Storable (room + 5) := by
  unfold limits
  split
  · exact nofun
  · exact storable_ofSettings (Toolchain.storable_limitSettings
      (max_lt (LawfulScalar.nearest_lt _) (by decide))
      (max_lt (LawfulScalar.nearest_lt _) (by decide)) _)

end Rules

/-! ### Profiles -/

/-- A profile whose numbers are finite and whose settings come back from a document with room for
some levels. -/
structure Profile.Finite (room : Nat) (p : Profile α) : Prop where
  strictness : Scalar.isFinite p.strictness = true
  conventions : ∀ c ∈ p.conventions, c.Finite
  rules : p.rules.Storable (room - 1)
  preferences : ∀ e ∈ p.preferences.entries, e.2.Storable (room - 2)
  generatedAt : Scalar.isFinite p.generatedAt = true

/-- A profile whose numbers are finite and lie in their ranges. -/
structure Profile.Sound (room : Nat) (p : Profile α) : Prop where
  finite : p.Finite room
  inRange : p.InRange

namespace Profile

variable {room : Nat}

lemma storable_preferencesOf (a : Analysis α) :
    ∀ e ∈ (preferencesOf a).entries, e.2.Storable room := by
  have htext {key : String} {tally : Tally} {e : String × Json α}
      (he : e ∈ (preference? key tally).toList) : e.2.Storable room := by
    obtain ⟨d, -, rfl⟩ := Option.map_eq_some_iff.1 (Option.mem_toList.1 he)
    trivial
  refine SortedMap.forall_ofList fun e he => ?_
  simp only [List.mem_append] at he
  rcases he with ((he | he) | he) | he
  · exact htext he
  · exact htext he
  · exact htext he
  · split_ifs at he
    · obtain rfl := List.mem_singleton.1 he
      trivial
    · cases he

variable [LawfulScalar α]

/-- A profile that is learned keeps to its bounds, as the measures do that it is learned from. -/
lemma sound_learn {least now : α} {a : Analysis α} (ha : a.metrics.Sound) (hnow : InTime now)
    (layout : Layout) : (learn least now a layout).Sound (room + 6) := by
  have hstrictness : Scalar.FiniteWithin Strictness.least Strictness.greatest
      (learn least now a layout).strictness := Strictness.finiteWithin_clamp (by decide) _
  have hconventions : ∀ c ∈ (learn least now a layout).conventions, c.Sound :=
    fun c hc => ha.conventions c (List.mem_filter.1 hc).1
  exact ⟨⟨hstrictness.isFinite, fun c hc => (hconventions c hc).finite, Rules.storable_derive _ _ _,
    storable_preferencesOf a, (Bool.and_eq_true_iff.1 hnow).1⟩,
    hstrictness.within, hnow, fun c hc => (hconventions c hc).inRange⟩

/-- Adapting a profile moves its strictness within the bounds, whatever it is adapted to. -/
lemma Sound.adapt {p : Profile α} (h : p.Sound room) (rate : α) (previous : Profile α) :
    (Profile.adapt rate previous p).Sound room := by
  have hstrictness : Scalar.FiniteWithin Strictness.least Strictness.greatest
      (Profile.adapt rate previous p).strictness := Strictness.finiteWithin_clamp (by decide) _
  exact ⟨⟨hstrictness.isFinite, h.finite.conventions, h.finite.rules, h.finite.preferences,
    h.finite.generatedAt⟩, hstrictness.within, h.inRange.generatedAt, h.inRange.conventions⟩

end Profile

end HouseStyle
