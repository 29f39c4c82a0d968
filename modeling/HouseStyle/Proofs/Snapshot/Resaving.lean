import HouseStyle.Proofs.Json.Readable
import HouseStyle.Proofs.Snapshot.Contents

/-!
# Saving what was loaded

A result may be spelled in many ways: with members that are unknown, with the list of the fields of
a record, with whole numbers for fractional ones, or with a name twice.  Whatever is read from any
of these spellings can be stored (`Profile.storable_of_ofDocument?`,
`Overview.storable_of_ofDocument?`), and so the text that is saved of it holds the same result, and
is saved of that result in turn (`SavedFormat.Normalizes`).
-/

namespace HouseStyle

open Document

/-! ### Texts that hold a result -/

namespace SavedFormat

variable {α β : Type} [NumberText α]

/-- The result that a text holds, if its values lie in their ranges. -/
def accepted? (format : SavedFormat α β) (text : List Char) : Option β :=
  (format.decode? text).filter fun value => (format.check value).isOk

/-- The text that is saved of the result that a text holds. -/
def resaved? (format : SavedFormat α β) (text : List Char) : Option String :=
  (format.accepted? text).map format.encode

/-- Whether saving what a text holds gives a normal form of the text: it holds the same, and the
text that is saved of that is the normal form itself. -/
def Normalizes (format : SavedFormat α β) : Prop :=
  ∀ (text : List Char) (normal : String), format.resaved? text = some normal →
    format.accepted? normal.toList = format.accepted? text ∧
      format.resaved? normal.toList = some normal

variable {format : SavedFormat α β} {text : List Char} {value : β}

omit [NumberText α] in
lemma accepted?_eq_some : format.accepted? text = some value ↔
    format.decode? text = some value ∧ format.check value = .ok () := by
  rw [accepted?, Option.filter_eq_some_iff]
  refine and_congr_right fun _ => ?_
  cases format.check value with
  | ok u => simp [Except.isOk, Except.toBool]
  | error fault => simp [Except.isOk, Except.toBool]

/-- Results are normalized if each of them that a text holds is read back from its own text. -/
lemma normalizes_of_spelled [Scalar α] [LawfulNumberText α]
    (h : ∀ d value, format.ofDocument? d = some value →
      format.ofDocument? (format.toJson value).spelled = some value) : format.Normalizes := by
  intro text normal hnormal
  obtain ⟨value, hvalue, rfl⟩ := Option.map_eq_some_iff.1 hnormal
  obtain ⟨hdecode, hcheck⟩ := accepted?_eq_some.1 hvalue
  obtain ⟨d, -, hd⟩ := Option.bind_eq_some_iff.1 hdecode
  have hagain : format.accepted? (format.encode value).toList = some value :=
    accepted?_eq_some.2 ⟨decode?_of_spelled (h d value hd), hcheck⟩
  refine ⟨hagain.trans hvalue.symm, ?_⟩
  rw [resaved?, hagain, Option.map_some]

end SavedFormat

/-! ### What is read can be stored -/

variable {α : Type} [Scalar α] [NumberText α]

omit [Scalar α] [NumberText α] in
lemma LineStats.storable_of_ofDocument? {d : Document} {s : LineStats}
    (h : ofDocument? d = some s) : s.Storable := by
  simp only [ofDocument?, bind, Option.bind_eq_some_iff] at h
  obtain ⟨fields, -, h⟩ := h
  split at h
  next lines totalLength maxLength =>
    simp only [Option.bind_eq_some_iff, pure, Option.some.injEq] at h
    obtain ⟨_, hlines, _, htotal, _, hmax, rfl⟩ := h
    exact ⟨lt_of_count? hlines, lt_of_count? htotal, lt_of_count? hmax⟩
  next => cases h

variable [FiniteNumerals α] {d : Document}

lemma ConventionValue.storable_of_ofDocument? {v : ConventionValue α}
    (h : ofDocument? d = some v) : v.Storable := by
  unfold ofDocument? at h
  split at h
  · obtain rfl := Option.some.inj h
    trivial
  · obtain ⟨x, hx, rfl⟩ := Option.map_eq_some_iff.1 h
    exact Numeral.isFinite_of_real? hx
  · obtain ⟨s, -, rfl⟩ := Option.map_eq_some_iff.1 h
    trivial
  · cases h

lemma Convention.storable_of_ofDocument? {c : Convention α} (h : ofDocument? d = some c) :
    c.Storable := by
  simp only [ofDocument?, bind, Option.bind_eq_some_iff] at h
  obtain ⟨fields, -, h⟩ := h
  split at h
  next =>
    simp only [Option.bind_eq_some_iff, pure, Option.some.injEq] at h
    obtain ⟨_, -, _, -, value, hvalue, confidence, hconfidence, frequency, hfrequency,
      _, -, rfl⟩ := h
    exact ⟨ConventionValue.storable_of_ofDocument? hvalue, isFinite_of_real? hconfidence,
      lt_of_count? hfrequency⟩
  next => cases h

lemma LanguageMetrics.storable_of_ofDocument? {m : LanguageMetrics α} (h : ofDocument? d = some m) :
    m.Storable := by
  have hnone : LineStats.none.Storable := ⟨by decide, by decide, by decide⟩
  simp only [ofDocument?, bind, Option.bind_eq_some_iff] at h
  obtain ⟨fields, -, h⟩ := h
  split at h
  next =>
    simp only [Option.bind_eq_some_iff, pure, Option.some.injEq] at h
    obtain ⟨_, -, files, hfiles, lines, hlines, size, hsize, complexity, hcomplexity, naming,
      hnaming, style, hstyle, stats, hstats, conventions, hconventions, rfl⟩ := h
    exact {
      fileCount := lt_of_count? hfiles
      totalLines := lt_of_count? hlines
      avgFunctionSize := isFinite_of_real? hsize
      avgComplexity := isFinite_of_real? hcomplexity
      namingConsistency := isFinite_of_real? hnaming
      styleConsistency := isFinite_of_real? hstyle
      lineStats := of_orElse? (fun _ _ => LineStats.storable_of_ofDocument?) hnone hstats
      conventions := forall_of_list? (fun _ _ => Convention.storable_of_ofDocument?) hconventions }
  next => cases h

lemma Comparison.storable_of_ofDocument? {c : Comparison α} (h : ofDocument? d = some c) :
    c.Storable := by
  simp only [ofDocument?, bind, Option.bind_eq_some_iff] at h
  obtain ⟨fields, -, h⟩ := h
  split at h
  next =>
    simp only [Option.bind_eq_some_iff, pure, Option.some.injEq] at h
    obtain ⟨_, -, _, -, values, hvalues, consistency, hconsistency, _, -, rfl⟩ := h
    exact ⟨forall_of_table? (fun _ _ => ConventionValue.storable_of_ofDocument?) hvalues,
      isFinite_of_real? hconsistency⟩
  next => cases h

lemma Rules.storable_of_ofDocument? {room : Nat} {rules : Rules α}
    (h : ofDocument? room d = some rules) : rules.Storable room :=
  forall_of_table? (P := fun settings : SortedMap (Json α) =>
    ∀ e ∈ settings.entries, e.2.Storable (room - 2))
    (fun _ _ => forall_of_table? fun d _ => storable_of_json? d) h

/-- A profile that is read can be stored. -/
lemma Profile.storable_of_ofDocument? {room : Nat} {p : Profile α}
    (h : ofDocument? room d = some p) : p.Storable room := by
  simp only [ofDocument?, bind, Option.bind_eq_some_iff] at h
  obtain ⟨fields, -, h⟩ := h
  split at h
  next =>
    simp only [Option.bind_eq_some_iff, pure, Option.some.injEq] at h
    obtain ⟨_, -, _, -, strictness, hstrictness, conventions, hconventions, rules, hrules,
      preferences, hpreferences, generated, hgenerated, rfl⟩ := h
    exact {
      strictness := isFinite_of_real? hstrictness
      conventions := forall_of_list? (fun _ _ => Convention.storable_of_ofDocument?) hconventions
      rules := Rules.storable_of_ofDocument? hrules
      preferences := forall_of_table? (fun d _ => storable_of_json? d) hpreferences
      generatedAt := isFinite_of_real? hgenerated }
  next => cases h

/-- An overview that is read can be stored. -/
lemma Overview.storable_of_ofDocument? {room : Nat} {o : Overview α}
    (h : ofDocument? room d = some o) : o.Storable room := by
  simp only [ofDocument?, bind, Option.bind_eq_some_iff] at h
  obtain ⟨fields, -, h⟩ := h
  split at h
  next =>
    simp only [Option.bind_eq_some_iff, pure, Option.some.injEq] at h
    obtain ⟨primary, hprimary, metrics, hmetrics, comparisons, hcomparisons, _, -, _, -,
      strictness, hstrictness, rules, hrules, generated, hgenerated, rfl⟩ := h
    have hstored (d : Document) (x : Option (Profile α))
        (hx : d.optional? (Profile.ofDocument? (room - 1)) = some x) :
        ∀ p, x = some p → p.Storable (room - 1) :=
      forall_of_optional? (fun _ _ => Profile.storable_of_ofDocument?) hx
    have hnone : ∀ p : Profile α, none = some p → p.Storable (room - 1) := fun p hp => by cases hp
    exact {
      primary := of_orElse? hstored hnone hprimary
      metrics := forall_of_table? (fun _ _ => LanguageMetrics.storable_of_ofDocument?) hmetrics
      comparisons := forall_of_list? (fun _ _ => Comparison.storable_of_ofDocument?) hcomparisons
      strictness := isFinite_of_real? hstrictness
      rules := forall_of_table? (fun _ _ => Rules.storable_of_ofDocument?) hrules
      generatedAt := isFinite_of_real? hgenerated }
  next => cases h

/-! ### Normal forms -/

/-- Saving what was loaded normalizes the texts of profiles and of overviews. -/
theorem resaving_normalizes [LawfulNumberText α] :
    (Profile.format (α := α)).Normalizes ∧ (Overview.format (α := α)).Normalizes :=
  ⟨SavedFormat.normalizes_of_spelled fun _ _ h =>
      Profile.ofDocument?_spelled (Profile.storable_of_ofDocument? h),
    SavedFormat.normalizes_of_spelled fun _ _ h =>
      Overview.ofDocument?_spelled (Overview.storable_of_ofDocument? h)⟩

/-- A profile that is spelled by the lists of its fields, with an escape, an exponent, a zero with a
minus sign and a name that occurs twice. -/
def looseText : String :=
  "[\"go\",\x7b\"expert\":null\x7d,1,[[\"style\",\"\\u0061\",-0.0,1,2,[]]],"
    ++ "\x7b\"t\":\x7b\"k\":1,\"k\":[-0]\x7d\x7d,\x7b\x7d,5e1]"

theorem resaving_normalizes_loose : ∃ normal : String, normal ≠ looseText ∧
    (Profile.format (α := WholeNumber)).resaved? looseText.toList = some normal ∧
    (Profile.format (α := WholeNumber)).accepted? normal.toList
      = (Profile.format (α := WholeNumber)).accepted? looseText.toList ∧
    (Profile.format (α := WholeNumber)).resaved? normal.toList = some normal := by
  have hsome : ((Profile.format (α := WholeNumber)).resaved? looseText.toList).isSome = true := by
    decide +kernel
  have hother : (Profile.format (α := WholeNumber)).resaved? looseText.toList ≠ some looseText := by
    decide +kernel
  obtain ⟨normal, hnormal⟩ := Option.isSome_iff_exists.1 hsome
  refine ⟨normal, ?_, hnormal, resaving_normalizes.1 _ _ hnormal⟩
  rintro rfl
  exact hother hnormal

end HouseStyle
