import HouseStyle.Proofs.Settings.Check
import HouseStyle.Proofs.Snapshot.RoundTrip
import HouseStyle.Proofs.Snapshot.Save

/-!
# What a loaded result promises

A saved result is loaded if and only if its text spells a result whose values lie in their ranges
(`load_eq_ok_iff`).  For a profile these are all the bounds that are kept where profiles are made.
For an overview they are not: nothing is asked of the time at which it was made, of the conventions
of its languages and of the languages of its comparisons (`overview_outside_loads`).
-/

namespace HouseStyle

/-- Every step of a check that passes has passed. -/
lemma forM_eq_ok_iff {ε β : Type} {f : β → Except ε Unit} {xs : List β} :
    xs.forM f = .ok () ↔ ∀ x ∈ xs, f x = .ok () := by
  induction xs with
  | nil => exact iff_of_true rfl (by simp)
  | cons x xs ih =>
    rw [List.forall_mem_cons, ← ih]
    constructor
    · intro h
      obtain ⟨_, hx, hxs⟩ := exists_of_bind_eq_ok h
      exact ⟨hx, hxs⟩
    · rintro ⟨hx, hxs⟩
      change (f x).bind (fun _ => xs.forM f) = .ok ()
      rw [hx]
      exact hxs

variable {α : Type} [Scalar α]

lemma RangeFault.range_eq_ok_iff {name : String} {low high x : α} :
    range name low high x = .ok () ↔ Scalar.within low high x = true := by
  rw [range]
  split
  · exact iff_of_true rfl ‹_›
  · exact iff_of_false (by simp) ‹_›

/-! ### The ranges that are checked -/

/-- A time after the start of 1970. -/
def InTime (x : α) : Prop := (Scalar.isFinite x && Scalar.le 0.0 x) = true

/-- A convention with a confidence in the unit interval and few examples. -/
structure Convention.InRange (c : Convention α) : Prop where
  confidence : Scalar.within 0.0 1.0 c.confidence = true
  examples : c.examples.length ≤ maxExamples

/-- A profile of which all values lie in their ranges. -/
structure Profile.InRange (p : Profile α) : Prop where
  strictness : Scalar.within Strictness.least Strictness.greatest p.strictness = true
  generatedAt : InTime p.generatedAt
  conventions : ∀ c ∈ p.conventions, c.InRange

/-- Measures of which the shares lie in the unit interval. -/
structure LanguageMetrics.InRange (m : LanguageMetrics α) : Prop where
  namingConsistency : Scalar.within 0.0 1.0 m.namingConsistency = true
  styleConsistency : Scalar.within 0.0 1.0 m.styleConsistency = true

/-- An overview of which the values that are checked lie in their ranges. -/
structure Overview.InRange (o : Overview α) : Prop where
  strictness : Scalar.within Strictness.leastUnified Strictness.greatest o.strictness = true
  primary : ∀ p, o.primary = some p → p.InRange
  metrics : ∀ e ∈ o.metrics.entries, e.2.InRange
  comparisons : ∀ c ∈ o.comparisons, Scalar.within 0.0 1.0 c.consistency = true

lemma Convention.check_eq_ok_iff {c : Convention α} : c.check = .ok () ↔ c.InRange := by
  constructor
  · intro h
    obtain ⟨_, hconfidence, h⟩ := exists_of_bind_eq_ok h
    refine ⟨RangeFault.range_eq_ok_iff.1 hconfidence, ?_⟩
    split at h
    · cases h
    · omega
  · intro h
    simp only [check, RangeFault.range_eq_ok_iff.2 h.confidence, Nat.not_lt.2 h.examples, if_false]
    rfl

lemma Profile.check_eq_ok_iff {p : Profile α} : p.check = .ok () ↔ p.InRange := by
  constructor
  · intro h
    obtain ⟨_, hstrictness, h⟩ := exists_of_bind_eq_ok h
    dsimp only at h
    split at h
    · cases h
    next htime =>
      have hconventions := forM_eq_ok_iff.1 h
      exact ⟨RangeFault.range_eq_ok_iff.1 hstrictness, by simpa [InTime] using htime,
        fun c hc => Convention.check_eq_ok_iff.1 (hconventions c hc)⟩
  · intro h
    have htime : (Scalar.isFinite p.generatedAt && Scalar.le 0.0 p.generatedAt) = true :=
      h.generatedAt
    have hconventions : p.conventions.forM Convention.check = .ok () :=
      forM_eq_ok_iff.2 fun c hc => Convention.check_eq_ok_iff.2 (h.conventions c hc)
    simp only [check, RangeFault.range_eq_ok_iff.2 h.strictness, htime, Bool.not_true,
      Bool.false_eq_true, if_false, hconventions]
    rfl

lemma LanguageMetrics.check_eq_ok_iff {language : String} {m : LanguageMetrics α} :
    m.check language = .ok () ↔ m.InRange := by
  constructor
  · intro h
    obtain ⟨_, hnaming, hstyle⟩ := exists_of_bind_eq_ok h
    exact ⟨RangeFault.range_eq_ok_iff.1 hnaming, RangeFault.range_eq_ok_iff.1 hstyle⟩
  · intro h
    rw [check, RangeFault.range_eq_ok_iff.2 h.namingConsistency,
      RangeFault.range_eq_ok_iff.2 h.styleConsistency]
    rfl

lemma Overview.check_eq_ok_iff {o : Overview α} : o.check = .ok () ↔ o.InRange := by
  constructor
  · intro h
    obtain ⟨_, hstrictness, h⟩ := exists_of_bind_eq_ok h
    -- the check goes on in the same way behind the main profile
    have hrest : (∀ p, o.primary = some p → p.check = .ok ()) ∧
        ((o.metrics.entries.forM fun e => e.2.check e.1).bind fun _ => o.comparisons.forM fun c =>
          RangeFault.range ("consistency of " ++ c.name) 0.0 1.0 c.consistency) = .ok () := by
      dsimp only at h
      split at h
      next p hp =>
        obtain ⟨_, hprimary, h⟩ := exists_of_bind_eq_ok h
        refine ⟨fun q hq => ?_, h⟩
        obtain rfl := Option.some.inj (hp.symm.trans hq)
        exact hprimary
      next hp => exact ⟨fun q hq => absurd (hp.symm.trans hq) (by simp), h⟩
    obtain ⟨_, hmetrics, hcomparisons⟩ := exists_of_bind_eq_ok hrest.2
    exact ⟨RangeFault.range_eq_ok_iff.1 hstrictness,
      fun p hp => Profile.check_eq_ok_iff.1 (hrest.1 p hp),
      fun e he => LanguageMetrics.check_eq_ok_iff.1 (forM_eq_ok_iff.1 hmetrics e he),
      fun c hc => RangeFault.range_eq_ok_iff.1 (forM_eq_ok_iff.1 hcomparisons c hc)⟩
  · intro h
    have hmetrics : (o.metrics.entries.forM fun e => e.2.check e.1) = .ok () :=
      forM_eq_ok_iff.2 fun e he => LanguageMetrics.check_eq_ok_iff.2 (h.metrics e he)
    have hcomparisons : (o.comparisons.forM fun c =>
        RangeFault.range ("consistency of " ++ c.name) 0.0 1.0 c.consistency) = .ok () :=
      forM_eq_ok_iff.2 fun c hc => RangeFault.range_eq_ok_iff.2 (h.comparisons c hc)
    simp only [check, RangeFault.range_eq_ok_iff.2 h.strictness, bind, Except.bind, hmetrics,
      hcomparisons]
    split
    next p hp => rw [Profile.check_eq_ok_iff.2 (h.primary p hp)]
    next => rfl

namespace Store

omit [Scalar α] in
/-- A result is loaded if its text spells it and it passes its check. -/
lemma load_eq_ok_iff_check {β : Type} [NumberText α] {s : Store} {format : SavedFormat α β}
    {d : Disk} {value : β} : s.load format d = .ok value ↔
      ∃ text, d.readText (s.pathOf format) = .ok text ∧ format.decode? text = some value ∧
        format.check value = .ok () := by
  unfold load
  dsimp only
  constructor
  · intro h
    split at h
    · cases h
    · cases h
    next text htext =>
      split at h
      · cases h
      next found hfound =>
        split at h
        next hcheck =>
          obtain rfl := Except.ok.inj h
          exact ⟨text, htext, hfound, hcheck⟩
        next => cases h
  · rintro ⟨text, htext, hdecode, hcheck⟩
    rw [htext]
    dsimp only
    rw [hdecode]
    dsimp only
    rw [hcheck]

/-- The results that are loaded are those that are spelled by the text of their file and of which
the values that are checked lie in their ranges. -/
theorem load_eq_ok_iff [NumberText α] (s : Store) (d : Disk) :
    (∀ p : Profile α, s.load Profile.format d = .ok p ↔
      ∃ text, d.readText (s.pathOf (Profile.format : SavedFormat α _)) = .ok text ∧
        Profile.format.decode? text = some p ∧ p.InRange) ∧
    (∀ o : Overview α, s.load Overview.format d = .ok o ↔
      ∃ text, d.readText (s.pathOf (Overview.format : SavedFormat α _)) = .ok text ∧
        Overview.format.decode? text = some o ∧ o.InRange) := by
  constructor
  · intro p
    simp only [load_eq_ok_iff_check, ← Profile.check_eq_ok_iff]
    rfl
  · intro o
    simp only [load_eq_ok_iff_check, ← Overview.check_eq_ok_iff]
    rfl

end Store

/-! ### What is not checked -/

/-- A result that is read back from its document is read back from its text. -/
lemma SavedFormat.decode?_of_spelled {β : Type} [NumberText α] [LawfulNumberText α]
    {format : SavedFormat α β} {value : β}
    (h : format.ofDocument? (format.toJson value).spelled = some value) :
    format.decode? (format.encode value).toList = some value := by
  rw [decode?, encode, Json.prettyText, String.toList_ofList, Document.parse?_layOut]
  exact h

/-- An overview that was made before 1970, with a convention beyond all confidence that has too many
examples, and a comparison of a single language. -/
def Overview.outside : Overview WholeNumber where
  primary := none
  metrics := ⟨[("go", ⟨"go", 1, 9, ⟨7⟩, ⟨2⟩, ⟨1⟩, ⟨1⟩, ⟨9, 90, 20⟩,
    [⟨.style, "tabs", .flag true, ⟨2⟩, 6, ["a", "b", "c", "d", "e", "f"]⟩]⟩)],
    List.pairwise_singleton _ _⟩
  comparisons := [⟨"tabs", ["go"], ⟨[("go", .flag true)], List.pairwise_singleton _ _⟩, ⟨1⟩,
    "Keep tabs"⟩]
  recommendations := []
  maturity := .beginner
  strictness := ⟨1⟩
  rules := .empty
  generatedAt := ⟨-1⟩

/-- A disk on which this overview is saved in the directory of the program. -/
def outsideSaved : Disk :=
  ⟨[(["integrated_learning_result.json"],
    .file (Text.encode (Overview.format.encode Overview.outside)) .all)], [], .none⟩

lemma Overview.storable_outside : outside.Storable Document.depthLimit := by
  refine ⟨nofun, ?_, ?_, rfl, nofun, rfl⟩
  · intro e he
    obtain rfl := List.mem_singleton.1 he
    refine ⟨by decide, by decide, rfl, rfl, rfl, rfl, ⟨by decide, by decide, by decide⟩, ?_⟩
    intro c hc
    obtain rfl := List.mem_singleton.1 hc
    exact ⟨trivial, rfl, by decide⟩
  · intro c hc
    obtain rfl := List.mem_singleton.1 hc
    refine ⟨fun e he => ?_, rfl⟩
    obtain rfl := List.mem_singleton.1 he
    trivial

lemma Overview.inRange_outside : outside.InRange := by
  refine ⟨rfl, nofun, ?_, ?_⟩
  · intro e he
    obtain rfl := List.mem_singleton.1 he
    exact ⟨rfl, rfl⟩
  · intro c hc
    obtain rfl := List.mem_singleton.1 hc
    rfl

/-- An overview may be loaded although its time, a convention of a language and the languages of a
comparison are outside their ranges. -/
theorem overview_outside_loads :
    (⟨⟨"."⟩⟩ : Store).load Overview.format outsideSaved = .ok Overview.outside ∧
      ¬ InTime Overview.outside.generatedAt ∧
      (∃ e ∈ Overview.outside.metrics.entries, ∃ c ∈ e.2.conventions,
        Scalar.within 0.0 1.0 c.confidence = false ∧ Convention.maxExamples < c.examples.length) ∧
      ∃ c ∈ Overview.outside.comparisons, c.languages.length < 2 := by
  have hleads : outsideSaved.Leads ⟨"."⟩ [] := Disk.leads_here outsideSaved
  have hname : Path.IsName "integrated_learning_result.json" := by decide
  refine ⟨Store.load_eq_ok_iff_check.2 ⟨_, Disk.readText_file hleads hname rfl rfl,
    SavedFormat.decode?_of_spelled (Overview.ofDocument?_spelled Overview.storable_outside),
    Overview.check_eq_ok_iff.2 Overview.inRange_outside⟩, fun h => Bool.false_ne_true h, ?_, ?_⟩
  · exact ⟨_, List.mem_cons_self, _, List.mem_cons_self, rfl, by decide⟩
  · exact ⟨_, List.mem_cons_self, by decide⟩

end HouseStyle
