import HouseStyle.Proofs.Json.Shape
import HouseStyle.Proofs.Json.WholeNumber
import HouseStyle.Snapshot.Store

/-!
# Loading what was saved

A saved result is read back as it was.  Reading is refused for a document that is nested too
deeply and for a count beyond 64 bits, and a number that is not finite has no text, so a result
has to be free of these (`Storable`).  For everything else there is one lemma about each record of
the format, in the order in which the records contain each other, and the results themselves stand
at the end (`decode?_encode`).
-/

namespace HouseStyle

open Document

variable {α : Type} [Scalar α]

/-! ### Results that can be stored -/

/-- A value whose number is finite, if it is a number. -/
def ConventionValue.Storable : ConventionValue α → Prop
  | number x => Scalar.isFinite x = true
  | _ => True

/-- A convention whose numbers are finite and whose count fits into 64 bits. -/
structure Convention.Storable (c : Convention α) : Prop where
  value : c.value.Storable
  confidence : Scalar.isFinite c.confidence = true
  frequency : c.frequency < Count.wordSize 64

/-- Lengths of lines that fit into 64 bits. -/
structure LineStats.Storable (s : LineStats) : Prop where
  lines : s.lines < Count.wordSize 64
  totalLength : s.totalLength < Count.wordSize 64
  maxLength : s.maxLength < Count.wordSize 64

instance (s : LineStats) : Decidable s.Storable :=
  decidable_of_iff (s.lines < Count.wordSize 64 ∧ s.totalLength < Count.wordSize 64 ∧
    s.maxLength < Count.wordSize 64)
    ⟨fun ⟨hn, ht, hm⟩ => ⟨hn, ht, hm⟩, fun ⟨hn, ht, hm⟩ => ⟨hn, ht, hm⟩⟩

/-- Measures whose numbers are finite and whose counts fit into 64 bits. -/
structure LanguageMetrics.Storable (m : LanguageMetrics α) : Prop where
  fileCount : m.fileCount < Count.wordSize 64
  totalLines : m.totalLines < Count.wordSize 64
  avgFunctionSize : Scalar.isFinite m.avgFunctionSize = true
  avgComplexity : Scalar.isFinite m.avgComplexity = true
  namingConsistency : Scalar.isFinite m.namingConsistency = true
  styleConsistency : Scalar.isFinite m.styleConsistency = true
  lineStats : m.lineStats.Storable
  conventions : ∀ c ∈ m.conventions, c.Storable

/-- A comparison whose numbers are finite. -/
structure Comparison.Storable (c : Comparison α) : Prop where
  values : ∀ e ∈ c.values.entries, e.2.Storable
  consistency : Scalar.isFinite c.consistency = true

/-- Rules whose values come back from a document with room for some levels. -/
def Rules.Storable (room : Nat) (rules : Rules α) : Prop :=
  ∀ tool ∈ rules.entries, ∀ setting ∈ tool.2.entries, setting.2.Storable (room - 2)

/-- A profile whose numbers are finite, whose counts fit into 64 bits and whose settings come back
from a document with room for some levels. -/
structure Profile.Storable (room : Nat) (p : Profile α) : Prop where
  strictness : Scalar.isFinite p.strictness = true
  conventions : ∀ c ∈ p.conventions, c.Storable
  rules : p.rules.Storable (room - 1)
  preferences : ∀ e ∈ p.preferences.entries, e.2.Storable (room - 2)
  generatedAt : Scalar.isFinite p.generatedAt = true

/-- An overview of which all parts can be stored in a document with room for some levels. -/
structure Overview.Storable (room : Nat) (o : Overview α) : Prop where
  primary : ∀ p, o.primary = some p → p.Storable (room - 1)
  metrics : ∀ e ∈ o.metrics.entries, e.2.Storable
  comparisons : ∀ c ∈ o.comparisons, c.Storable
  strictness : Scalar.isFinite o.strictness = true
  rules : ∀ e ∈ o.rules.entries, e.2.Storable (room - 2)
  generatedAt : Scalar.isFinite o.generatedAt = true

/-! ### Labels -/

lemma ConventionKind.ofLabel?_label (kind : ConventionKind) : ofLabel? kind.label = some kind := by
  cases kind <;> decide

lemma Maturity.ofLabel?_label (m : Maturity) : ofLabel? m.label = some m := by
  cases m <;> decide

/-! ### Records inside the results -/

variable [NumberText α] [LawfulNumberText α]

/-- A value keeps its kind, although the kind is not written. -/
lemma ConventionValue.ofDocument?_spelled {v : ConventionValue α} (h : v.Storable) :
    ofDocument? v.toJson.spelled = some v := by
  cases v with
  | flag b => rfl
  | text s => rfl
  | number x =>
    obtain ⟨n, hn, -, hx⟩ := Json.exists_numeral_of_isFinite h
    rw [toJson, Json.spelled, hn, ofDocument?, hx]
    rfl

lemma Convention.ofDocument?_spelled {c : Convention α} (h : c.Storable) :
    ofDocument? c.toJson.spelled = some c := by
  have hvalue := ConventionValue.ofDocument?_spelled h.value
  have hconfidence := real?_spelled h.confidence
  have hfrequency := count?_spelled (α := α) h.frequency
  have hexamples := texts?_spelled (α := α) c.examples
  rw [ofDocument?, toJson, fields?_spelled shape rfl (by decide)]
  simp [hvalue, hconfidence, hfrequency, hexamples, ConventionKind.ofLabel?_label]

omit [Scalar α] [LawfulNumberText α] in
lemma LineStats.ofDocument?_spelled {s : LineStats} (h : s.Storable) :
    ofDocument? (s.toJson : Json α).spelled = some s := by
  have hlines := count?_spelled (α := α) h.lines
  have htotal := count?_spelled (α := α) h.totalLength
  have hmax := count?_spelled (α := α) h.maxLength
  simp only [ofDocument?, toJson]
  rw [fields?_spelled _ rfl (by decide)]
  simp [hlines, htotal, hmax]

lemma LanguageMetrics.ofDocument?_spelled {m : LanguageMetrics α} (h : m.Storable) :
    ofDocument? m.toJson.spelled = some m := by
  have hfiles := count?_spelled (α := α) h.fileCount
  have hlines := count?_spelled (α := α) h.totalLines
  have hsize := real?_spelled h.avgFunctionSize
  have hcomplexity := real?_spelled h.avgComplexity
  have hnaming := real?_spelled h.namingConsistency
  have hstyle := real?_spelled h.styleConsistency
  have hstats := LineStats.ofDocument?_spelled (α := α) h.lineStats
  have hconventions := list?_spelled fun c hc => Convention.ofDocument?_spelled (h.conventions c hc)
  rw [ofDocument?, toJson, fields?_spelled shape rfl (by decide)]
  simp [hfiles, hlines, hsize, hcomplexity, hnaming, hstyle, hstats, hconventions, orElse?]

lemma Comparison.ofDocument?_spelled {c : Comparison α} (h : c.Storable) :
    ofDocument? c.toJson.spelled = some c := by
  have hlanguages := texts?_spelled (α := α) c.languages
  have hvalues := table?_spelled fun e he => ConventionValue.ofDocument?_spelled (h.values e he)
  have hconsistency := real?_spelled h.consistency
  rw [ofDocument?, toJson, fields?_spelled shape rfl (by decide)]
  simp [hlanguages, hvalues, hconsistency]

lemma Rules.ofDocument?_spelled {room : Nat} {rules : Rules α} (h : rules.Storable room) :
    ofDocument? room rules.toJson.spelled = some rules :=
  table?_spelled fun tool htool =>
    table?_spelled fun setting hsetting => json?_spelled setting.2 (h tool htool setting hsetting)

/-! ### The results -/

lemma Profile.ofDocument?_spelled {room : Nat} {p : Profile α} (h : p.Storable room) :
    ofDocument? room p.toJson.spelled = some p := by
  have hstrictness := real?_spelled h.strictness
  have hconventions := list?_spelled fun c hc => Convention.ofDocument?_spelled (h.conventions c hc)
  have hrules := Rules.ofDocument?_spelled h.rules
  have hpreferences : (p.preferences.toJson id).spelled.table? (json? (room - 2))
      = some p.preferences :=
    table?_spelled fun e he => json?_spelled e.2 (h.preferences e he)
  have hgenerated := real?_spelled h.generatedAt
  rw [ofDocument?, toJson, fields?_spelled shape rfl (by decide)]
  simp [hstrictness, hconventions, hrules, hpreferences, hgenerated, orElse?,
    Maturity.ofLabel?_label]

lemma Overview.ofDocument?_spelled {room : Nat} {o : Overview α} (h : o.Storable room) :
    ofDocument? room o.toJson.spelled = some o := by
  have hprimary : (Json.optional (o.primary.map Profile.toJson)).spelled.optional?
      (Profile.ofDocument? (room - 1)) = some o.primary :=
    optional?_spelled (fun p hp => Profile.ofDocument?_spelled (h.primary p hp))
      (fun p => by simp [Profile.toJson, Json.spelled])
  have hmetrics := table?_spelled fun e he => LanguageMetrics.ofDocument?_spelled (h.metrics e he)
  have hcomparisons := list?_spelled fun c hc => Comparison.ofDocument?_spelled (h.comparisons c hc)
  have hrecommendations := texts?_spelled (α := α) o.recommendations
  have hstrictness := real?_spelled h.strictness
  have hrules := table?_spelled fun e he => Rules.ofDocument?_spelled (h.rules e he)
  have hgenerated := real?_spelled h.generatedAt
  rw [ofDocument?, toJson, fields?_spelled shape rfl (by decide)]
  simp [hprimary, hmetrics, hcomparisons, hrecommendations, hstrictness, hrules, hgenerated,
    orElse?, Maturity.ofLabel?_label]

/-- A profile and an overview that can be stored are read back from the text that is saved. -/
theorem decode?_encode :
    (∀ p : Profile α, p.Storable depthLimit →
      Profile.format.decode? (Profile.format.encode p).toList = some p) ∧
    (∀ o : Overview α, o.Storable depthLimit →
      Overview.format.decode? (Overview.format.encode o).toList = some o) := by
  constructor
  · intro p hp
    rw [SavedFormat.decode?, SavedFormat.encode, Json.prettyText, String.toList_ofList,
      parse?_layOut]
    exact Profile.ofDocument?_spelled hp
  · intro o ho
    rw [SavedFormat.decode?, SavedFormat.encode, Json.prettyText, String.toList_ofList,
      parse?_layOut]
    exact Overview.ofDocument?_spelled ho

/-- A profile with a value of each kind, a setting with a list in it and quotes in a text. -/
def Profile.sample : Profile WholeNumber where
  language := "python"
  maturity := .expert
  strictness := ⟨1⟩
  conventions := [⟨.naming, "function_naming", .text "snake_case", ⟨1⟩, 12, ["a \"b\"\n"]⟩,
    ⟨.style, "line_length", .number ⟨-88⟩, ⟨0⟩, 3, []⟩, ⟨.style, "tabs", .flag false, ⟨1⟩, 7, []⟩]
  rules := SortedMap.empty.insert "pylint"
    (SortedMap.empty.insert "max-line-length" (.list [.whole 88, .null]))
  preferences := SortedMap.empty.insert "doc_style" (.text "google")
  generatedAt := ⟨1700000000⟩

/-- An overview with the sample as its main profile. -/
def Overview.sample : Overview WholeNumber where
  primary := some .sample
  metrics := SortedMap.empty.insert "python"
    ⟨"python", 2, 90, ⟨7⟩, ⟨2⟩, ⟨1⟩, ⟨1⟩, ⟨80, 900, 99⟩, []⟩
  comparisons := [⟨"tabs", ["go"], SortedMap.empty.insert "go" (.flag true), ⟨1⟩, "Keep tabs"⟩]
  recommendations := ["Keep tabs"]
  maturity := .expert
  strictness := ⟨1⟩
  rules := SortedMap.empty.insert "python" .empty
  generatedAt := ⟨1700000001⟩

lemma Profile.storable_sample {room : Nat} (h : 4 ≤ room) : sample.Storable room := by
  obtain ⟨room, rfl⟩ := Nat.exists_eq_add_of_le' h
  refine ⟨rfl, ?_, ?_, ?_, rfl⟩
  · intro c hc
    simp only [sample, List.mem_cons, List.not_mem_nil, or_false] at hc
    rcases hc with rfl | rfl | rfl
    all_goals exact ⟨by simp [ConventionValue.Storable, Scalar.isFinite], rfl, by decide⟩
  · rintro tool htool setting hsetting
    simp [sample, SortedMap.insert, SortedMap.upsertEntry] at htool
    subst htool
    simp [SortedMap.upsertEntry] at hsetting
    subst hsetting
    simp [Json.Storable, Json.StorableItems, Count.wordSize]
  · rintro e he
    simp [sample, SortedMap.insert, SortedMap.upsertEntry] at he
    subst he
    trivial

theorem decode?_encode_sample :
    Profile.format.decode? (Profile.format.encode Profile.sample).toList = some .sample ∧
    Overview.format.decode? (Overview.format.encode Overview.sample).toList = some .sample := by
  refine ⟨decode?_encode.1 _ (Profile.storable_sample (by decide)), decode?_encode.2 _ ?_⟩
  refine ⟨?_, ?_, ?_, rfl, ?_, rfl⟩
  · rintro p hp
    obtain rfl := Option.some.inj hp
    exact Profile.storable_sample (by decide)
  · rintro e he
    simp [Overview.sample, SortedMap.insert, SortedMap.upsertEntry] at he
    subst he
    exact ⟨by decide, by decide, rfl, rfl, rfl, rfl, ⟨by decide, by decide, by decide⟩, by simp⟩
  · rintro c hc
    simp only [Overview.sample, List.mem_singleton] at hc
    subst hc
    refine ⟨?_, rfl⟩
    rintro e he
    simp [SortedMap.insert, SortedMap.upsertEntry] at he
    subst he
    trivial
  · rintro e he
    simp [Overview.sample, SortedMap.insert, SortedMap.upsertEntry] at he
    subst he
    rintro tool htool
    simp at htool

end HouseStyle
