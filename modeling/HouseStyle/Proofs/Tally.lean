import HouseStyle.Proofs.Count
import HouseStyle.Proofs.SortedMap
import HouseStyle.Proofs.Text.ByteOrder
import HouseStyle.Tally
import Mathlib.Data.List.Perm.Subperm

/-!
# What a tally holds

A tally is described by the number of observations of each label.  Its entries are the labels with
such a number, and its dominant label is one of them if there is any.
-/

namespace HouseStyle

namespace Tally

@[simp] lemma get_empty (label : String) : empty.get label = 0 := rfl

lemma get_addTimes (t : Tally) (label key : String) (n : Nat) :
    (t.addTimes label n).get key = if key = label then t.get key + n else t.get key := by
  rw [addTimes]
  split
  · rw [get, SortedMap.get?_upsert]
    split
    next hkey =>
      subst hkey
      rfl
    next => rfl
  next hn =>
    have hzero : n = 0 := by omega
    simp [hzero]

lemma get_foldl_addTimes (counts : List (String × Nat)) (t : Tally) (key : String) :
    (counts.foldl (fun t e => t.addTimes e.1 e.2) t).get key
      = t.get key + Count.sum ((counts.filter fun e => e.1 == key).map Prod.snd) := by
  induction counts generalizing t with
  | nil => rfl
  | cons e counts ih =>
    rw [List.foldl_cons, ih, get_addTimes]
    by_cases hkey : key = e.1
    · subst hkey
      simp [Nat.add_assoc]
    · have hne : (e.1 == key) = false := by simpa using fun h => hkey h.symm
      simp [hkey, hne]

/-- In the tally of some counts a label has the sum of its counts. -/
lemma get_ofCounts (counts : List (String × Nat)) (key : String) :
    (ofCounts counts).get key
      = Count.sum ((counts.filter fun e => e.1 == key).map Prod.snd) := by
  rw [ofCounts, get_foldl_addTimes, get_empty, Nat.zero_add]

/-- A label is in the tally of some counts if one of its counts is positive. -/
lemma get_ofCounts_pos {counts : List (String × Nat)} {key : String} :
    0 < (ofCounts counts).get key ↔ ∃ e ∈ counts, e.1 = key ∧ 0 < e.2 := by
  rw [get_ofCounts, Count.sum_pos_iff]
  constructor
  · rintro ⟨n, hn, hpos⟩
    obtain ⟨e, he, rfl⟩ := List.mem_map.1 hn
    obtain ⟨he, hkey⟩ := List.mem_filter.1 he
    exact ⟨e, he, beq_iff_eq.1 hkey, hpos⟩
  · rintro ⟨e, he, hkey, hpos⟩
    exact ⟨e.2, List.mem_map_of_mem (List.mem_filter.2 ⟨he, beq_iff_eq.2 hkey⟩), hpos⟩

lemma get_ofLabels (labels : List String) (key : String) :
    (ofLabels labels).get key = labels.count key := by
  have hcounts : ofLabels labels = ofCounts (labels.map fun label => (label, 1)) := by
    rw [ofCounts, List.foldl_map]
    rfl
  rw [hcounts, get_ofCounts]
  clear hcounts
  induction labels with
  | nil => rfl
  | cons label labels ih =>
    rw [List.map_cons, List.filter_cons, List.count_cons]
    split
    · rw [List.map_cons, Count.sum_cons, ih, Nat.add_comm]
    · rw [ih, Nat.add_zero]

/-- The entries of a tally are the observed labels with their numbers. -/
lemma mem_entries_iff {t : Tally} {e : String × Nat} :
    e ∈ t.counts.entries ↔ 0 < e.2 ∧ t.get e.1 = e.2 := by
  rw [get]
  constructor
  · intro he
    rw [SortedMap.mem_entries_iff.1 he]
    exact ⟨t.positive e he, rfl⟩
  · rintro ⟨hpos, hget⟩
    rw [SortedMap.mem_entries_iff]
    cases h : t.counts.get? e.1 with
    | some n => rw [← hget, h]; rfl
    | none =>
      rw [h, Option.getD_none] at hget
      omega

/-- A tally is determined by the number of observations of each label. -/
theorem ext_get {t u : Tally} (h : ∀ label, t.get label = u.get label) : t = u := by
  have hcounts : t.counts = u.counts := by
    refine SortedMap.ext_get? fun label => Option.ext fun n => ?_
    have ht := mem_entries_iff (t := t) (e := (label, n))
    have hu := mem_entries_iff (t := u) (e := (label, n))
    rw [SortedMap.mem_entries_iff] at ht hu
    rw [ht, hu, h]
  cases t
  cases u
  cases hcounts
  rfl

/-- The order of labels does not matter. -/
lemma ofLabels_congr {labels labels' : List String} (h : labels.Perm labels') :
    ofLabels labels = ofLabels labels' :=
  ext_get fun label => by rw [get_ofLabels, get_ofLabels, h.count_eq]

/-! ### Several tallies -/

/-- In a list where no key occurs twice the sum for a key is the one number that it has. -/
lemma sum_filter_key {l : List (String × Nat)} (h : l.Pairwise fun a b => a.1 ≠ b.1)
    (key : String) : Count.sum ((l.filter fun e => e.1 == key).map Prod.snd)
      = ((l.find? fun e => e.1 == key).map Prod.snd).getD 0 := by
  induction l with
  | nil => rfl
  | cons e l ih =>
    obtain ⟨hne, hl⟩ := List.pairwise_cons.1 h
    rw [List.filter_cons, List.find?_cons]
    cases hkey : e.1 == key with
    | false => exact ih hl
    | true =>
      have hrest : l.filter (fun e => e.1 == key) = [] := by
        rw [List.filter_eq_nil_iff]
        intro a ha hakey
        exact hne a ha ((beq_iff_eq.1 hkey).trans (beq_iff_eq.1 hakey).symm)
      simp [hrest]

lemma get_merge (t other : Tally) (key : String) :
    (t.merge other).get key = t.get key + other.get key := by
  rw [merge, get_foldl_addTimes, sum_filter_key other.counts.keys_ne]
  rfl

lemma merge_right_comm (t u v : Tally) : (t.merge u).merge v = (t.merge v).merge u := by
  refine ext_get fun label => ?_
  simp only [get_merge]
  omega

/-- The order of tallies does not matter. -/
lemma mergeAll_congr {ts ts' : List Tally} (h : ts.Perm ts') : mergeAll ts = mergeAll ts' :=
  h.foldl_eq' (fun u _ v _ t => merge_right_comm t u v) empty

/-! ### The number of all observations -/

lemma total_addTimes (t : Tally) (label : String) (n : Nat) :
    (t.addTimes label n).total = t.total + n := by
  rw [addTimes]
  split
  · have hentries : (t.counts.upsert label fun seen => seen.getD 0 + n).entries
        = SortedMap.upsertEntry label (fun seen => seen.getD 0 + n) t.counts.entries := rfl
    rw [total, total, SortedMap.values, SortedMap.values, hentries]
    induction t.counts.entries with
    | nil => simp [SortedMap.upsertEntry]
    | cons e rest ih =>
      obtain ⟨key, seen⟩ := e
      rw [SortedMap.upsertEntry]
      split_ifs
      · rw [List.map_cons, Count.sum_cons, Option.getD_none]
        omega
      · rw [List.map_cons, Count.sum_cons, ih, List.map_cons, Count.sum_cons]
        omega
      · rw [List.map_cons, Count.sum_cons, Option.getD_some, List.map_cons, Count.sum_cons]
        omega
  · omega

lemma total_add (t : Tally) (label : String) : (t.add label).total = t.total + 1 :=
  total_addTimes t label 1

lemma total_merge (t other : Tally) : (t.merge other).total = t.total + other.total :=
  Count.foldl_eq_add total (fun t e => total_addTimes t e.1 e.2) other.counts.entries t

lemma total_ofLabels (labels : List String) : (ofLabels labels).total = labels.length := by
  have hfold := Count.foldl_eq_add total total_add labels empty
  have hempty : empty.total = 0 := rfl
  rw [ofLabels, hfold, hempty, Nat.zero_add, Count.sum_eq_sum, List.map_const',
    List.sum_replicate_nat, Nat.mul_one]

/-! ### The dominant label -/

lemma foldl_leading (l : List (String × Nat)) (best : Option (String × Nat)) :
    (∀ e, l.foldl leading best = some e → best = some e ∨ e ∈ l) ∧
    (l.foldl leading best = none ↔ best = none ∧ l = []) := by
  induction l generalizing best with
  | nil => simp
  | cons a l ih =>
    have hleading : leading best a = best ∧ best ≠ none ∨ leading best a = some a := by
      cases best with
      | none => exact Or.inr rfl
      | some b =>
        rw [leading]
        split
        · exact Or.inl ⟨rfl, by simp⟩
        · exact Or.inr rfl
    obtain ⟨hmem, hnone⟩ := ih (leading best a)
    rw [List.foldl_cons]
    constructor
    · intro e he
      rcases hmem e he with he | he
      · rcases hleading with ⟨h, -⟩ | h
        · exact Or.inl (h ▸ he)
        · rw [h] at he
          exact Or.inr (Option.some.inj he ▸ List.mem_cons_self)
      · exact Or.inr (List.mem_cons_of_mem a he)
    · rw [hnone]
      rcases hleading with ⟨h, hne⟩ | h
      · simp [h, hne]
      · simp [h]

lemma mem_of_dominant? {t : Tally} {e : String × Nat} (h : t.dominant? = some e) :
    e ∈ t.counts.entries := by
  rcases (foldl_leading _ _).1 e h with h | h
  · simp at h
  · exact h

lemma dominant?_eq_none {t : Tally} : t.dominant? = none ↔ t.counts.entries = [] := by
  rw [dominant?, (foldl_leading _ _).2]
  simp

/-- A label has the greatest number of observations, and its bytes come before those of all other
labels with this number. -/
structure Leads (t : Tally) (label : String) (count : Nat) : Prop where
  /-- It was observed. -/
  positive : 0 < count
  /-- This often. -/
  get_eq : t.get label = count
  /-- No label was observed more often. -/
  most : ∀ l, t.get l ≤ count
  /-- Every label that was observed as often comes later. -/
  first : ∀ l, t.get l = count → Text.encode label ≤ Text.encode l

lemma Leads.unique {t : Tally} {label label' : String} {count count' : Nat}
    (h : t.Leads label count) (h' : t.Leads label' count') : label = label' ∧ count = count' := by
  have hcount : count = count' :=
    Nat.le_antisymm (h.get_eq ▸ h'.most label) (h'.get_eq ▸ h.most label')
  subst hcount
  have hle := Text.encode_le_iff.1 (h.first label' h'.get_eq)
  exact ⟨String.le_antisymm hle (Text.encode_le_iff.1 (h'.first label h.get_eq)), rfl⟩

/-- Of ascending entries the first one with the greatest count is the one that is left. -/
lemma foldl_leading_some {b : String × Nat} {l : List (String × Nat)}
    (h : (b :: l).Pairwise fun a b => a.1 < b.1) :
    ∃ e ∈ b :: l, l.foldl leading (some b) = some e ∧
      ∀ a ∈ b :: l, a.2 < e.2 ∨ a.2 = e.2 ∧ e.1 ≤ a.1 := by
  induction l generalizing b with
  | nil => exact ⟨b, by simp, rfl, by simp⟩
  | cons a l ih =>
    obtain ⟨hb, hal⟩ := List.pairwise_cons.1 h
    have hbl : (b :: l).Pairwise fun a b => a.1 < b.1 :=
      List.pairwise_cons.2 ⟨fun e he => hb e (List.mem_cons_of_mem a he),
        (List.pairwise_cons.1 hal).2⟩
    rw [List.foldl_cons, leading]
    split
    next hle =>
      -- the entry that came before stays, and the new one comes after it
      obtain ⟨e, he, hfold, hbest⟩ := ih hbl
      have hab : b.1 < a.1 := hb a List.mem_cons_self
      have ha : a.2 < e.2 ∨ a.2 = e.2 ∧ e.1 ≤ a.1 := by
        rcases hbest b List.mem_cons_self with hlt | ⟨heq, hfirst⟩
        · exact Or.inl (Nat.lt_of_le_of_lt hle hlt)
        · rcases Nat.lt_or_eq_of_le (heq ▸ hle) with hlt | hsame
          · exact Or.inl hlt
          · exact Or.inr ⟨hsame, String.le_trans hfirst (Std.le_of_lt hab)⟩
      refine ⟨e, ?_, hfold, ?_⟩
      · exact List.cons_subset_cons b (List.subset_cons_self a l) he
      · rw [List.forall_mem_cons] at hbest ⊢
        exact ⟨hbest.1, List.forall_mem_cons.2 ⟨ha, hbest.2⟩⟩
    next hgt =>
      obtain ⟨e, he, hfold, hbest⟩ := ih hal
      have hb : b.2 < e.2 := by
        rcases hbest a List.mem_cons_self with hlt | ⟨heq, -⟩ <;> omega
      exact ⟨e, List.mem_cons_of_mem b he, hfold, List.forall_mem_cons.2 ⟨Or.inl hb, hbest⟩⟩

lemma leads_of_dominant? {t : Tally} {label : String} {count : Nat}
    (h : t.dominant? = some (label, count)) : t.Leads label count := by
  obtain ⟨hpos, hget⟩ := mem_entries_iff.1 (mem_of_dominant? h)
  have hbest : ∀ a ∈ t.counts.entries, a.2 < count ∨ a.2 = count ∧ label ≤ a.1 := by
    have hascending := t.counts.ascending
    rw [dominant?] at h
    cases hentries : t.counts.entries with
    | nil => exact nofun
    | cons b l =>
      rw [hentries] at h hascending
      obtain ⟨e, -, hfold, hbest⟩ := foldl_leading_some hascending
      obtain rfl : e = (label, count) := Option.some.inj (hfold.symm.trans h)
      exact hbest
  -- a label that is not listed was not observed
  have hmost : ∀ l, t.get l < count ∨ t.get l = count ∧ label ≤ l := by
    intro l
    rcases Nat.eq_zero_or_pos (t.get l) with hzero | hseen
    · exact Or.inl (hzero ▸ hpos)
    · exact hbest (l, t.get l) (mem_entries_iff.2 ⟨hseen, rfl⟩)
  refine ⟨hpos, hget, fun l => ?_, fun l hl => ?_⟩
  · rcases hmost l with hlt | ⟨heq, -⟩ <;> omega
  · rcases hmost l with hlt | ⟨-, hfirst⟩
    · omega
    · exact Text.encode_le_iff.2 hfirst

/-- There is a dominant label as soon as one was observed. -/
lemma exists_dominant? {t : Tally} {label : String} (h : 0 < t.get label) :
    ∃ e, t.dominant? = some e := by
  have hmem : (label, t.get label) ∈ t.counts.entries := mem_entries_iff.2 ⟨h, rfl⟩
  refine Option.ne_none_iff_exists'.1 fun hnone => ?_
  rw [dominant?_eq_none.1 hnone] at hmem
  cases hmem

/-- The dominant label is the one that leads its tally. -/
theorem dominant?_eq_some_iff {t : Tally} {label : String} {count : Nat} :
    t.dominant? = some (label, count) ↔ t.Leads label count := by
  refine ⟨leads_of_dominant?, fun h => ?_⟩
  obtain ⟨e, he⟩ := exists_dominant? (h.get_eq ▸ h.positive : 0 < t.get label)
  obtain ⟨rfl, rfl⟩ := h.unique (leads_of_dominant? he)
  exact he

/-! ### The dominant label among all observations -/

lemma Leads.dominantCount_eq {t : Tally} {label : String} {count : Nat} (h : t.Leads label count) :
    t.dominantCount = count := by
  rw [dominantCount, dominant?_eq_some_iff.2 h]
  rfl

/-- No label was observed more often than the dominant one. -/
lemma get_le_dominantCount (t : Tally) (label : String) : t.get label ≤ t.dominantCount := by
  rcases Nat.eq_zero_or_pos (t.get label) with hzero | hpos
  · exact hzero ▸ Nat.zero_le _
  · obtain ⟨e, he⟩ := exists_dominant? hpos
    have hleads := leads_of_dominant? he
    rw [hleads.dominantCount_eq]
    exact hleads.most label

lemma sum_filter_add (l : List (String × Nat)) (p : String × Nat → Bool) :
    Count.sum ((l.filter p).map Prod.snd) + Count.sum ((l.filter fun e => !p e).map Prod.snd)
      = Count.sum (l.map Prod.snd) := by
  induction l with
  | nil => rfl
  | cons e l ih =>
    rw [List.map_cons, Count.sum_cons, ← ih, List.filter_cons, List.filter_cons]
    cases p e
    · simp only [Bool.false_eq_true, if_false, Bool.not_false, if_true, List.map_cons,
        Count.sum_cons]
      omega
    · simp only [if_true, Bool.not_true, Bool.false_eq_true, if_false, List.map_cons,
        Count.sum_cons]
      omega

/-- All observations are those of a label and those of the others. -/
lemma total_eq_get_add (t : Tally) (label : String) : t.total = t.get label
    + Count.sum ((t.counts.entries.filter fun e => !(e.1 == label)).map Prod.snd) := by
  have hlabel := sum_filter_key t.counts.keys_ne label
  rw [total, SortedMap.values, ← sum_filter_add _ fun e => e.1 == label, hlabel]
  rfl

/-- Something was observed if some label was. -/
lemma total_pos_iff {t : Tally} : 0 < t.total ↔ ∃ label, 0 < t.get label := by
  constructor
  · intro h
    obtain ⟨n, hn, hpos⟩ := Count.sum_pos_iff.1 h
    obtain ⟨e, he, rfl⟩ := List.mem_map.1 hn
    exact ⟨e.1, (mem_entries_iff.1 he).2 ▸ hpos⟩
  · rintro ⟨label, hpos⟩
    rw [t.total_eq_get_add label]
    exact Nat.add_pos_left hpos _

lemma get_add_get_le_total (t : Tally) {label other : String} (h : other ≠ label) :
    t.get label + t.get other ≤ t.total := by
  rw [t.total_eq_get_add label]
  refine Nat.add_le_add_left ?_ _
  rcases Nat.eq_zero_or_pos (t.get other) with hzero | hpos
  · exact hzero ▸ Nat.zero_le _
  · have hother : (other, t.get other) ∈ t.counts.entries.filter fun e => !(e.1 == label) :=
      List.mem_filter.2 ⟨mem_entries_iff.2 ⟨hpos, rfl⟩, by simpa using h⟩
    exact Count.le_sum_of_mem (List.mem_map_of_mem (f := Prod.snd) hother)

lemma dominantCount_le_total (t : Tally) : t.dominantCount ≤ t.total := by
  cases hdominant : t.dominant? with
  | none =>
    rw [dominantCount, hdominant]
    exact Nat.zero_le _
  | some e =>
    have hleads := leads_of_dominant? hdominant
    rw [hleads.dominantCount_eq, ← hleads.get_eq, t.total_eq_get_add e.1]
    exact Nat.le_add_right _ _

/-- All observations agree exactly when no two labels were observed. -/
lemma dominantCount_eq_total_iff {t : Tally} : t.dominantCount = t.total ↔
    ∀ label other, 0 < t.get label → 0 < t.get other → label = other := by
  constructor
  · intro h
    -- beside the dominant label there is no room for another one
    have hleading : ∀ label other, t.get label = t.dominantCount → 0 < t.get other →
        label = other := by
      intro label other hlabel hother
      by_contra hne
      have hle := t.get_add_get_le_total (Ne.symm hne)
      omega
    intro label other hlabel hother
    obtain ⟨e, he⟩ := exists_dominant? hlabel
    have hleads := leads_of_dominant? he
    have hget : t.get e.1 = t.dominantCount :=
      hleads.get_eq.trans hleads.dominantCount_eq.symm
    exact (hleading _ _ hget hlabel).symm.trans (hleading _ _ hget hother)
  · intro h
    refine Nat.le_antisymm t.dominantCount_le_total ?_
    rcases hentries : t.counts.entries with _ | ⟨e, rest⟩
    · rw [total, SortedMap.values, hentries]
      exact Nat.zero_le _
    · obtain ⟨hpos, hget⟩ :=
        mem_entries_iff.1 (hentries ▸ List.mem_cons_self : e ∈ t.counts.entries)
      have hothers : t.counts.entries.filter (fun a => !(a.1 == e.1)) = [] := by
        rw [List.filter_eq_nil_iff]
        intro a ha hne
        obtain ⟨hapos, haget⟩ := mem_entries_iff.1 ha
        have heq : a.1 = e.1 := h _ _ (haget ▸ hapos) (hget ▸ hpos)
        simp [heq] at hne
      rw [t.total_eq_get_add e.1, hothers]
      exact t.get_le_dominantCount e.1

/-- Where only some labels are observed, the dominant one has at least its share of all
observations. -/
lemma total_le_mul_dominantCount {t : Tally} (labels : List String)
    (h : ∀ label, 0 < t.get label → label ∈ labels) :
    t.total ≤ labels.length * t.dominantCount := by
  have hkeys : t.counts.keys.length ≤ labels.length := by
    refine List.Subperm.length_le (List.subperm_of_subset ?_ ?_)
    · exact List.pairwise_map.2 t.counts.keys_ne
    · intro label hlabel
      obtain ⟨e, he, rfl⟩ := List.mem_map.1 hlabel
      obtain ⟨hpos, hget⟩ := mem_entries_iff.1 he
      exact h _ (hget ▸ hpos)
  have hcounts : ∀ n ∈ t.counts.values, n ≤ t.dominantCount := by
    intro n hn
    obtain ⟨e, he, rfl⟩ := List.mem_map.1 hn
    rw [← (mem_entries_iff.1 he).2]
    exact t.get_le_dominantCount e.1
  refine Nat.le_trans (Count.sum_le_length_mul hcounts) (Nat.mul_le_mul_right _ ?_)
  rwa [SortedMap.keys, List.length_map, ← List.length_map Prod.snd] at hkeys

end Tally

end HouseStyle
