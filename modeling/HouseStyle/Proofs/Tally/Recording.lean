import HouseStyle.Convention.Basic
import HouseStyle.Proofs.Tally
import Mathlib.Algebra.Order.BigOperators.Group.Finset
import Mathlib.Algebra.BigOperators.Group.Finset.Basic

/-!
# How tallies come about

Labels are observed one by one, several times at once, as a list, or together with all that is in
another tally, in any order and nesting (`Recording`).  All that is left of this in a tally is the
multiset of the observations: two recordings make the same tally exactly when the same labels were
observed equally often (`Recording.tally_observed`).
-/

namespace HouseStyle

namespace Tally

/-- A tally holds some observations: it has the number of each label, and nothing else. -/
def Holds (t : Tally) (observed : Multiset String) : Prop :=
  ∀ label, t.get label = observed.count label

/-! ### Each step keeps the observations -/

variable {t u : Tally} {m n : Multiset String}

lemma holds_empty : empty.Holds 0 := fun _ => rfl

lemma Holds.addTimes (h : t.Holds m) (label : String) (k : Nat) :
    (t.addTimes label k).Holds (m + Multiset.replicate k label) := by
  intro l
  rw [get_addTimes, h, Multiset.count_add, Multiset.count_replicate]
  by_cases hl : l = label
  · rw [if_pos hl, if_pos hl.symm]
  · rw [if_neg hl, if_neg (Ne.symm hl), Nat.add_zero]

lemma Holds.add (h : t.Holds m) (label : String) : (t.add label).Holds (label ::ₘ m) := by
  rw [← Multiset.singleton_add, add_comm, ← Multiset.replicate_one]
  exact h.addTimes label 1

lemma Holds.merge (h : t.Holds m) (h' : u.Holds n) : (t.merge u).Holds (m + n) := by
  intro label
  rw [get_merge, h, h', Multiset.count_add]

lemma holds_ofLabels (labels : List String) : (ofLabels labels).Holds labels := by
  intro label
  rw [get_ofLabels, Multiset.coe_count]

/-! ### What is read off a tally -/

/-- The observations determine the tally. -/
lemma Holds.eq_iff (h : t.Holds m) (h' : u.Holds n) : t = u ↔ m = n := by
  constructor
  · rintro rfl
    exact Multiset.ext.2 fun label => (h label).symm.trans (h' label)
  · rintro rfl
    exact ext_get fun label => (h label).trans (h' label).symm

/-- A tally is the one of any list of its observations. -/
lemma Holds.eq_ofLabels (h : t.Holds m) : t = ofLabels m.toList :=
  (h.eq_iff (holds_ofLabels _)).2 m.coe_toList.symm

lemma Holds.total_eq (h : t.Holds m) : t.total = m.card := by
  rw [h.eq_ofLabels, total_ofLabels, Multiset.length_toList]

lemma Holds.isEmpty_iff (h : t.Holds m) : t.isEmpty = true ↔ m = 0 := by
  rw [isEmpty, beq_iff_eq, h.total_eq, Multiset.card_eq_zero]

lemma Holds.mem_entries_iff (h : t.Holds m) {label : String} {k : Nat} :
    (label, k) ∈ t.counts.entries ↔ label ∈ m ∧ m.count label = k := by
  rw [Tally.mem_entries_iff, h, ← Multiset.count_pos]
  exact ⟨fun ⟨hpos, hcount⟩ => ⟨hcount ▸ hpos, hcount⟩,
    fun ⟨hpos, hcount⟩ => ⟨hcount ▸ hpos, hcount⟩⟩

lemma Holds.dominant?_eq_none_iff (h : t.Holds m) : t.dominant? = none ↔ m = 0 := by
  rw [dominant?_eq_none, List.eq_nil_iff_forall_not_mem, Multiset.eq_zero_iff_forall_notMem]
  constructor
  · exact fun hnone label hlabel => hnone _ (h.mem_entries_iff.2 ⟨hlabel, rfl⟩)
  · exact fun hnone e he => hnone e.1 (h.mem_entries_iff.1 he).1

lemma Holds.dominant?_eq_some_iff (h : t.Holds m) {label : String} {k : Nat} :
    t.dominant? = some (label, k) ↔ label ∈ m ∧ m.count label = k ∧
      (∀ l, m.count l ≤ k) ∧ ∀ l, m.count l = k → Text.encode label ≤ Text.encode l := by
  rw [Tally.dominant?_eq_some_iff]
  constructor
  · rintro ⟨hpos, hget, hmost, hfirst⟩
    simp only [h _] at hget hmost hfirst
    exact ⟨Multiset.count_pos.1 (hget ▸ hpos), hget, hmost, hfirst⟩
  · rintro ⟨hmem, hcount, hmost, hfirst⟩
    refine ⟨hcount ▸ Multiset.count_pos.2 hmem, ?_, ?_, ?_⟩
    all_goals simpa only [h _]

lemma agreement_of_dominant? {α : Type} [Scalar α] {label : String} {k : Nat}
    (h : t.dominant? = some (label, k)) :
    (Convention.agreement t : α) = Scalar.ofCount k / Scalar.ofCount t.total := by
  have htotal : t.total ≠ 0 := by
    have hle := t.dominantCount_le_total
    have hpos := (leads_of_dominant? h).positive
    rw [dominantCount, h] at hle
    exact (Nat.lt_of_lt_of_le hpos hle).ne'
  rw [Convention.agreement, dominantCount, h, Scalar.share, if_neg htotal]
  rfl

end Tally

/-- The steps by which a tally comes about. -/
inductive Recording where
  /-- Nothing was observed. -/
  | start
  /-- A label was observed once more. -/
  | add (before : Recording) (label : String)
  /-- A label was observed a number of times more. -/
  | addTimes (before : Recording) (label : String) (n : Nat)
  /-- All that another tally holds was observed as well. -/
  | merge (before other : Recording)
  /-- The labels of a list were observed. -/
  | ofLabels (labels : List String)

namespace Recording

/-- The tally that the steps make. -/
def tally : Recording → Tally
  | start => .empty
  | add before label => before.tally.add label
  | addTimes before label n => before.tally.addTimes label n
  | merge before other => before.tally.merge other.tally
  | ofLabels labels => .ofLabels labels

/-- The observations of all steps. -/
def observed : Recording → Multiset String
  | start => 0
  | add before label => label ::ₘ before.observed
  | addTimes before label n => before.observed + Multiset.replicate n label
  | merge before other => before.observed + other.observed
  | ofLabels labels => labels

/-- A recording and all that it is made of. -/
def parts : Recording → List Recording
  | start => [start]
  | add before label => add before label :: before.parts
  | addTimes before label n => addTimes before label n :: before.parts
  | merge before other => merge before other :: (before.parts ++ other.parts)
  | ofLabels labels => [ofLabels labels]

/-- Nothing that was observed on the way is lost. -/
lemma observed_le_of_mem_parts {r s : Recording} (h : s ∈ r.parts) : s.observed ≤ r.observed := by
  induction r with
  | start => rw [List.mem_singleton.1 h]
  | add before label ih =>
    rcases List.mem_cons.1 h with rfl | h
    · exact le_rfl
    · exact (ih h).trans (Multiset.le_cons_self _ _)
  | addTimes before label n ih =>
    rcases List.mem_cons.1 h with rfl | h
    · exact le_rfl
    · exact (ih h).trans (Multiset.le_add_right _ _)
  | merge before other ih ih' =>
    rcases List.mem_cons.1 h with rfl | h
    · exact le_rfl
    · rcases List.mem_append.1 h with h | h
      · exact (ih h).trans (Multiset.le_add_right _ _)
      · exact (ih' h).trans (Multiset.le_add_left _ _)
  | ofLabels labels => rw [List.mem_singleton.1 h]

/-- A tally holds all that was observed on the way to it. -/
lemma holds_observed (r : Recording) : r.tally.Holds r.observed := by
  induction r with
  | start => exact Tally.holds_empty
  | add before label ih => exact ih.add label
  | addTimes before label n ih => exact ih.addTimes label n
  | merge before other ih ih' => exact ih.merge ih'
  | ofLabels labels => exact Tally.holds_ofLabels labels

/-- A tally is the multiset of what was observed: it has the number of each label and of all
observations, lists no label without one, and does not depend on the order or the grouping of the
steps; no number on the way is greater than the number of all observations.  Of the labels that were
observed most often the first one in the order of bytes dominates, and the share of the observations
that agree with it is its number over that of all. -/
theorem tally_observed (r : Recording) :
    (∀ label, r.tally.get label = r.observed.count label) ∧
    (∀ label n, (label, n) ∈ r.tally.counts.entries ↔
      label ∈ r.observed ∧ r.observed.count label = n) ∧
    (∀ e ∈ r.tally.counts.entries, 0 < e.2) ∧
    r.tally.total = r.observed.card ∧
    r.tally.total = ∑ label ∈ r.observed.toFinset, r.tally.get label ∧
    (∀ s ∈ r.parts, s.tally.total ≤ r.tally.total ∧
      ∀ label, s.tally.get label ≤ r.tally.get label) ∧
    (r.tally.isEmpty = true ↔ r.observed = 0) ∧
    (∀ s : Recording, r.tally = s.tally ↔ r.observed = s.observed) ∧
    (r.tally.dominant? = none ↔ r.observed = 0) ∧
    (∀ label n, r.tally.dominant? = some (label, n) ↔
      label ∈ r.observed ∧ r.observed.count label = n ∧ (∀ l, r.observed.count l ≤ n) ∧
        ∀ l, r.observed.count l = n → Text.encode label ≤ Text.encode l) ∧
    ∀ {α : Type} [Scalar α],
      (r.observed = 0 → (Convention.agreement r.tally : α) = 0.0) ∧
      ∀ label n, r.tally.dominant? = some (label, n) →
        (Convention.agreement r.tally : α) = Scalar.ofCount n / Scalar.ofCount r.observed.card := by
  have h := r.holds_observed
  refine ⟨h, fun label n => h.mem_entries_iff, r.tally.positive, h.total_eq, ?_, fun s hs => ?_,
    h.isEmpty_iff, fun s => h.eq_iff s.holds_observed, h.dominant?_eq_none_iff,
    fun label n => h.dominant?_eq_some_iff, fun {α} _ => ⟨fun hzero => ?_, fun label n hd => ?_⟩⟩
  · rw [h.total_eq, ← Multiset.toFinset_sum_count_eq]
    exact Finset.sum_congr rfl fun label _ => (h label).symm
  · have hle := observed_le_of_mem_parts hs
    rw [h.total_eq, s.holds_observed.total_eq]
    refine ⟨Multiset.card_le_card hle, fun label => ?_⟩
    rw [h label, s.holds_observed label]
    exact Multiset.count_le_of_le label hle
  · rw [Convention.agreement, Scalar.share, if_pos]
    rw [h.total_eq, hzero, Multiset.card_zero]
  · rw [Tally.agreement_of_dominant? hd, h.total_eq]

/-- Two single quotes and two double ones, counted on their own and then put together, or in a list:
the tallies are the same, and of the two labels the first one dominates with half of all quotes. -/
theorem tally_observed_tie :
    let r : Recording := .merge (.addTimes (.add .start "single") "double" 2) (.ofLabels ["single"])
    let s : Recording := .ofLabels ["double", "single", "double", "single"]
    r.observed = s.observed ∧ r.tally = s.tally ∧
    .addTimes (.add .start "single") "double" 2 ∈ r.parts ∧ r.observed ≠ 0 ∧
    r.tally.dominant? = some ("double", 2) ∧ Text.encode "double" ≤ Text.encode "single" ∧
    (Convention.agreement r.tally : Float) = Scalar.ofCount 2 / Scalar.ofCount 4 := by
  intro r s
  have hobserved : r.observed = s.observed := by decide
  have hdominant : r.tally.dominant? = some ("double", 2) := by decide +kernel
  obtain ⟨-, -, -, -, -, -, -, hsame, -, hwinner, hshare⟩ := r.tally_observed
  obtain ⟨-, hcount, -, hfirst⟩ := (hwinner "double" 2).1 hdominant
  have htie : r.observed.count "single" = 2 := by decide
  refine ⟨hobserved, (hsame s).2 hobserved, ?_, by decide, hdominant, hfirst "single" htie,
    hshare.2 "double" 2 hdominant⟩
  exact List.mem_cons_of_mem _ (List.mem_append_left _ List.mem_cons_self)

end Recording

end HouseStyle
