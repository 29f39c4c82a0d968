import HouseStyle.Proofs.Convention.Shown
import Mathlib.Data.Finset.Card
import Mathlib.Data.List.Count

/-!
# What the conventions about names report

A convention about the names of a kind is read off a tally of their styles and off the names
themselves.  Both speak of the style that prevails among the names (`Names.Prevails`): it is
reported exactly when it is clear enough, with the number of names that show it and the first of
them as examples (`Convention.naming_reported`).
-/

namespace HouseStyle

/-! ### The first occurrences -/

/-- The first names of a list, at most a number of them, without repetitions. -/
structure FirstOccurrences (k : Nat) (names firsts : List String) : Prop where
  subset : firsts ⊆ names
  /-- They stand in the order in which they occur first, so none is repeated. -/
  ordered : firsts.Pairwise fun a b => names.idxOf a < names.idxOf b
  /-- Whatever occurs before one of them is one of them. -/
  earliest : ∀ a ∈ firsts, ∀ b ∈ names, names.idxOf b < names.idxOf a → b ∈ firsts
  /-- There are as many as there are different names, but not more than asked for. -/
  length : firsts.length = min k names.toFinset.card

namespace FirstOccurrences

variable {k : Nat} {names firsts firsts' : List String}

lemma nodup (h : FirstOccurrences k names firsts) : firsts.Nodup := by
  refine h.ordered.imp ?_
  rintro a b hab rfl
  exact Nat.lt_irrefl _ hab

/-- Of two lists of first occurrences, which are as long, neither has a name for itself. -/
lemma subset_of (h : FirstOccurrences k names firsts) (h' : FirstOccurrences k names firsts') :
    firsts ⊆ firsts' := by
  intro a ha
  by_contra hnot
  -- all names of the other list occur before this one, so they are in the first list as well
  have hbefore : ∀ b ∈ firsts', b ∈ firsts := by
    intro b hb
    refine h.earliest a ha b (h'.subset hb) (Nat.lt_of_le_of_ne (Nat.not_lt.1 fun hlt => ?_) ?_)
    · exact hnot (h'.earliest b hb a (h.subset ha) hlt)
    · intro heq
      exact hnot ((List.idxOf_inj (h'.subset hb)).1 heq ▸ hb)
  have hmore : (a :: firsts').length ≤ firsts.length :=
    (List.subperm_of_subset (List.nodup_cons.2 ⟨hnot, h'.nodup⟩)
      (List.cons_subset.2 ⟨ha, hbefore⟩)).length_le
  rw [List.length_cons, h.length, h'.length] at hmore
  omega

/-- There is only one list of first occurrences. -/
lemma unique (h : FirstOccurrences k names firsts) (h' : FirstOccurrences k names firsts') :
    firsts = firsts' := by
  have hperm : firsts.Perm firsts' :=
    (List.perm_ext_iff_of_nodup h.nodup h'.nodup).2 fun a =>
      ⟨fun ha => h.subset_of h' ha, fun ha => h'.subset_of h ha⟩
  refine hperm.eq_of_pairwise ?_ h.ordered h'.ordered
  intro a b _ _ hab hba
  omega

end FirstOccurrences

namespace Convention

/-! A name is looked at behind all names before it, so the induction is on the end of the list. -/

lemma distinct_concat (names : List String) (name : String) : distinct (names ++ [name])
    = if name ∈ distinct names then distinct names else distinct names ++ [name] := by
  rw [distinct, distinct, List.foldl_append, List.foldl_cons, List.foldl_nil]
  simp only [List.contains_iff_mem, List.mem_reverse]
  split_ifs
  · rfl
  · exact List.reverse_cons

lemma mem_distinct {names : List String} {name : String} :
    name ∈ distinct names ↔ name ∈ names := by
  induction names using List.reverseRecOn with
  | nil => rfl
  | append_singleton names last ih =>
    rw [distinct_concat, List.mem_append, List.mem_singleton]
    split_ifs with hlast
    · rw [ih]
      refine ⟨Or.inl, fun h => h.elim id ?_⟩
      rintro rfl
      exact ih.1 hlast
    · rw [List.mem_append, List.mem_singleton, ih]

lemma ordered_distinct (names : List String) :
    (distinct names).Pairwise fun a b => names.idxOf a < names.idxOf b := by
  induction names using List.reverseRecOn with
  | nil => exact .nil
  | append_singleton names last ih =>
    -- the names before the last one stand where they stood
    have hkept : (distinct names).Pairwise fun a b =>
        (names ++ [last]).idxOf a < (names ++ [last]).idxOf b := by
      refine ih.imp_of_mem fun {a b} ha hb hab => ?_
      rwa [List.idxOf_append_of_mem (mem_distinct.1 ha),
        List.idxOf_append_of_mem (mem_distinct.1 hb)]
    rw [distinct_concat]
    split_ifs with hlast
    · exact hkept
    · refine List.pairwise_append.2 ⟨hkept, List.pairwise_singleton _ _, fun a ha b hb => ?_⟩
      obtain rfl := List.mem_singleton.1 hb
      rw [mem_distinct] at ha hlast
      rw [List.idxOf_append_of_mem ha, List.idxOf_append_of_notMem hlast]
      exact Nat.lt_of_lt_of_le (List.idxOf_lt_length_of_mem ha) (Nat.le_add_right _ _)

lemma nodup_distinct (names : List String) : (distinct names).Nodup := by
  refine (ordered_distinct names).imp ?_
  rintro a b hab rfl
  exact Nat.lt_irrefl _ hab

lemma length_distinct (names : List String) : (distinct names).length = names.toFinset.card := by
  rw [← List.toFinset_card_of_nodup (nodup_distinct names)]
  congr 1
  ext name
  rw [List.mem_toFinset, List.mem_toFinset, mem_distinct]

/-- What is kept of the distinct names are the first occurrences. -/
lemma firstOccurrences_take (k : Nat) (names : List String) :
    FirstOccurrences k names ((distinct names).take k) where
  subset _ h := mem_distinct.1 (List.mem_of_mem_take h)
  ordered := (ordered_distinct names).sublist (List.take_sublist _ _)
  earliest a ha b hb hlt := by
    have hmem : b ∈ (distinct names).take k ++ (distinct names).drop k := by
      rw [List.take_append_drop, mem_distinct]
      exact hb
    rcases List.mem_append.1 hmem with h | h
    · exact h
    · have hordered := ordered_distinct names
      rw [← List.take_append_drop k (distinct names)] at hordered
      have hafter := (List.pairwise_append.1 hordered).2.2 a ha b h
      omega
  length := by rw [List.length_take, length_distinct]

end Convention

/-! ### The style that prevails -/

namespace Names

/-- The names that show a style. -/
def showing (names : List String) (style : NamingStyle) : List String :=
  names.filter fun name => NamingStyle.classify? name = some style

/-- The names that show some style. -/
def classified (names : List String) : List String :=
  names.filter fun name => (NamingStyle.classify? name).isSome

/-- A style prevails among some names: no style is shown by more of them, and of the styles that
are shown by as many its label is the first one in the order of bytes. -/
structure Prevails (names : List String) (style : NamingStyle) : Prop where
  shown : 0 < (showing names style).length
  most : ∀ other, (showing names other).length ≤ (showing names style).length
  first : ∀ other, (showing names other).length = (showing names style).length →
    Text.encode style.label ≤ Text.encode other.label

variable {names : List String} {style : NamingStyle} {label : String} {n : Nat}

lemma label_injective : Function.Injective NamingStyle.label := by
  intro s t
  cases s <;> cases t <;> decide

lemma get_styleTally (names : List String) (style : NamingStyle) :
    (styleTally names).get style.label = (showing names style).length := by
  rw [styleTally, Tally.get_ofLabels, List.count_map_of_injective _ _ label_injective, showing]
  induction names with
  | nil => rfl
  | cons name names ih =>
    rw [List.filterMap_cons, List.filter_cons]
    cases hstyle : NamingStyle.classify? name with
    | none => exact ih
    | some other =>
      by_cases heq : other = style
      · simp [heq, ih]
      · simp [heq, ih]

/-- Only the labels of styles are counted, and of those the ones that some name shows. -/
lemma get_styleTally_pos_iff : 0 < (styleTally names).get label ↔
    ∃ name ∈ names, ∃ style, NamingStyle.classify? name = some style ∧ style.label = label := by
  rw [styleTally, Tally.get_ofLabels, List.count_pos_iff]
  simp only [List.mem_map, List.mem_filterMap]
  constructor
  · rintro ⟨style, ⟨name, hname, hstyle⟩, hlabel⟩
    exact ⟨name, hname, style, hstyle, hlabel⟩
  · rintro ⟨name, hname, style, hstyle, hlabel⟩
    exact ⟨style, ⟨name, hname, hstyle⟩, hlabel⟩

lemma total_styleTally (names : List String) :
    (styleTally names).total = (classified names).length := by
  rw [styleTally, Tally.total_ofLabels, List.length_map, List.length_filterMap_eq_countP,
    List.countP_eq_length_filter, classified]

/-- The label that leads the tally is that of the style that prevails. -/
lemma dominant?_styleTally_eq_some_iff : (styleTally names).dominant? = some (label, n) ↔
    ∃ style, Prevails names style ∧ label = style.label ∧ n = (showing names style).length := by
  rw [Tally.dominant?_eq_some_iff]
  constructor
  · intro h
    obtain ⟨-, -, style, -, rfl⟩ := get_styleTally_pos_iff.1 (h.get_eq ▸ h.positive)
    have hcount : (showing names style).length = n := by rw [← get_styleTally, h.get_eq]
    refine ⟨style, ⟨hcount ▸ h.positive, fun other => ?_, fun other hother => ?_⟩, rfl, hcount.symm⟩
    · rw [hcount, ← get_styleTally]
      exact h.most _
    · exact h.first _ (by rw [get_styleTally, hother, hcount])
  · rintro ⟨style, hprevails, rfl, rfl⟩
    refine ⟨hprevails.shown, get_styleTally names style, fun l => ?_, fun l hl => ?_⟩
    · rcases Nat.eq_zero_or_pos ((styleTally names).get l) with hzero | hpos
      · exact hzero ▸ Nat.zero_le _
      · obtain ⟨-, -, other, -, rfl⟩ := get_styleTally_pos_iff.1 hpos
        exact get_styleTally names other ▸ hprevails.most other
    · obtain ⟨-, -, other, -, rfl⟩ := get_styleTally_pos_iff.1 (hl ▸ hprevails.shown)
      exact hprevails.first other (get_styleTally names other ▸ hl)

lemma Prevails.dominant?_eq (h : Prevails names style) :
    (styleTally names).dominant? = some (style.label, (showing names style).length) :=
  dominant?_styleTally_eq_some_iff.2 ⟨style, h, rfl, rfl⟩

lemma Prevails.unique {other : NamingStyle} (h : Prevails names style) (h' : Prevails names other) :
    style = other := by
  have heq := h.dominant?_eq.symm.trans h'.dominant?_eq
  exact label_injective (congrArg Prod.fst (Option.some.inj heq))

/-- A style prevails as soon as some name shows one. -/
lemma exists_prevails_iff :
    (∃ style, Prevails names style) ↔ ∃ name ∈ names, (NamingStyle.classify? name).isSome := by
  constructor
  · rintro ⟨style, h⟩
    obtain ⟨name, hname⟩ := List.exists_mem_of_length_pos h.shown
    obtain ⟨hmem, hstyle⟩ := List.mem_filter.1 hname
    exact ⟨name, hmem, Option.isSome_of_eq_some (of_decide_eq_true hstyle)⟩
  · rintro ⟨name, hmem, hsome⟩
    obtain ⟨style, hstyle⟩ := Option.isSome_iff_exists.1 hsome
    obtain ⟨e, hdominant⟩ :=
      Tally.exists_dominant? (get_styleTally_pos_iff.2 ⟨name, hmem, style, hstyle, rfl⟩)
    obtain ⟨winner, hwinner, -⟩ := dominant?_styleTally_eq_some_iff.1 hdominant
    exact ⟨winner, hwinner⟩

end Names

/-! ### What is reported -/

namespace Convention

open Names

variable {α : Type} [Scalar α]

/-- A style is clear enough: its share of the classified names exceeds the floor, and the confidence
in it reaches the floor. -/
structure Clear (accept : Acceptance α) (names : List String) (style : NamingStyle) : Prop where
  exceeds : Scalar.le (Scalar.share (showing names style).length (classified names).length)
    accept.floor = false
  reaches : Scalar.le accept.floor (shareConfidence (showing names style).length
    (classified names).length accept.steepness) = true

/-- A convention reports a style of the names of a kind as it was seen. -/
structure ReportsNames (accept : Acceptance α) (kind : NameKind) (names : List String)
    (style : NamingStyle) (c : Convention α) : Prop where
  kind_eq : c.kind = .naming
  name_eq : c.name = kind.convention
  value_eq : c.value = .text style.label
  confidence_eq : c.confidence = shareConfidence (showing names style).length
    (classified names).length accept.steepness
  frequency_eq : c.frequency = (showing names style).length
  examples_eq : FirstOccurrences 5 (showing names style) c.examples

variable {accept : Acceptance α} {facts : LanguageFacts} {kind : NameKind} {names : List String}
  {style : NamingStyle} {c : Convention α}

omit [Scalar α] in
lemma namesOfStyle_label (names : List String) (style : NamingStyle) :
    namesOfStyle style.label names = distinct (showing names style) := by
  rw [namesOfStyle, showing]
  congr 1
  refine List.filter_congr fun name _ => ?_
  cases NamingStyle.classify? name with
  | none => rfl
  | some other =>
    rw [Option.map_some, Bool.eq_iff_iff, beq_iff_eq, decide_eq_true_iff, Option.some_inj,
      Option.some_inj, label_injective.eq_iff]

/-- What is found out about the names of a kind before the floor is looked at once more. -/
lemma ofNames?_eq_some_iff : ofNames? accept kind names = some c ↔
    ∃ style, Prevails names style ∧
      Scalar.le (Scalar.share (showing names style).length (classified names).length)
        accept.floor = false ∧
      Scalar.lt (shareConfidence (showing names style).length (classified names).length
        accept.steepness) accept.floor = false ∧
      c = make .naming kind.convention (.text style.label)
        (shareConfidence (showing names style).length (classified names).length accept.steepness)
        (showing names style).length (distinct (showing names style)) := by
  rw [ofNames?, ofTally?_eq_some_iff, total_styleTally]
  constructor
  · rintro ⟨label, count, hleads, hshare, hconfidence, rfl⟩
    obtain ⟨style, hprevails, rfl, rfl⟩ :=
      dominant?_styleTally_eq_some_iff.1 (Tally.dominant?_eq_some_iff.2 hleads)
    refine ⟨style, hprevails, hshare, hconfidence, ?_⟩
    rw [hprevails.dominant?_eq, ← namesOfStyle_label]
  · rintro ⟨style, hprevails, hshare, hconfidence, rfl⟩
    refine ⟨style.label, (showing names style).length,
      Tally.dominant?_eq_some_iff.1 hprevails.dominant?_eq, hshare, hconfidence, ?_⟩
    rw [hprevails.dominant?_eq, ← namesOfStyle_label]

variable [OrderedScalar α]

/-- Of the names of a kind that style is reported which prevails and is clear enough, as it was
seen. -/
lemma ofNames?_iff :
    ofNames? accept kind names = some c ∧ Scalar.le accept.floor c.confidence = true ↔
    ∃ style, Prevails names style ∧ Clear accept names style ∧
      ReportsNames accept kind names style c := by
  constructor
  · rintro ⟨h, hfloor⟩
    obtain ⟨style, hprevails, hshare, -, rfl⟩ := ofNames?_eq_some_iff.1 h
    have hclamp := clampUnit_shareConfidence (showing names style).length
      (classified names).length accept.steepness
    refine ⟨style, hprevails, ⟨hshare, ?_⟩, ⟨rfl, rfl, rfl, hclamp, rfl, firstOccurrences_take 5 _⟩⟩
    rw [← hclamp]
    exact hfloor
  · rintro ⟨style, hprevails, hclear, hreports⟩
    have hexamples : c.examples = (distinct (showing names style)).take maxExamples :=
      hreports.examples_eq.unique (firstOccurrences_take 5 _)
    refine ⟨ofNames?_eq_some_iff.2 ⟨style, hprevails, hclear.exceeds,
      OrderedScalar.not_lt_of_le hclear.reaches, ?_⟩, ?_⟩
    · rw [make, clampUnit_shareConfidence, ← hreports.kind_eq, ← hreports.name_eq,
        ← hreports.value_eq, ← hreports.confidence_eq, ← hreports.frequency_eq, ← hexamples]
    · rw [hreports.confidence_eq]
      exact hclear.reaches

variable [NumberText α]

lemma mem_allObserved_naming_iff : c ∈ allObserved accept facts ∧ c.kind = .naming ↔
    ∃ kind style, Prevails (facts.names.get kind) style ∧
      Clear accept (facts.names.get kind) style ∧
      ReportsNames accept kind (facts.names.get kind) style c := by
  have hfilter : c ∈ allObserved accept facts ∧ c.kind = .naming ↔
      c ∈ observed .naming accept facts := by
    rw [← filter_kind_allObserved, List.mem_filter, decide_eq_true_iff]
  have hall (kind : NameKind) : kind ∈ NameKind.all := by cases kind <;> decide
  rw [hfilter, observed, List.mem_filter, naming, List.mem_filterMap]
  constructor
  · rintro ⟨⟨kind, -, hc⟩, hfloor⟩
    exact ⟨kind, ofNames?_iff.1 ⟨hc, hfloor⟩⟩
  · rintro ⟨kind, h⟩
    obtain ⟨hc, hfloor⟩ := ofNames?_iff.2 h
    exact ⟨⟨kind, hall kind, hc⟩, hfloor⟩

/-- Each kind of names has a convention of its own. -/
lemma convention_injective : Function.Injective NameKind.convention := by
  intro k l
  cases k <;> cases l <;> decide

/-- A naming convention is reported exactly where some name of the kind shows a style and the style
that prevails is clear enough.  It then names this style, counts the names that show it, with
repetitions, and shows the first of them, at most five and without repetitions.  At most one is
reported of each kind, and the floor, if it has a value, holds back none that was found. -/
theorem naming_reported (accept : Acceptance α) (facts : LanguageFacts) :
    (∀ kind : NameKind,
      (∃ c ∈ allObserved accept facts, c.kind = .naming ∧ c.name = kind.convention) ↔
        (∃ name ∈ facts.names.get kind, (NamingStyle.classify? name).isSome) ∧
        ∀ style, Prevails (facts.names.get kind) style →
          Clear accept (facts.names.get kind) style) ∧
    (∀ c, c ∈ allObserved accept facts ∧ c.kind = .naming ↔
      ∃ kind style, Prevails (facts.names.get kind) style ∧
        Clear accept (facts.names.get kind) style ∧
        ReportsNames accept kind (facts.names.get kind) style c) ∧
    ((observed .naming accept facts).map name).Sublist (NameKind.all.map NameKind.convention) ∧
    (Scalar.isNaN accept.floor = false → naming accept facts = observed .naming accept facts) := by
  refine ⟨fun kind => ⟨?_, ?_⟩, fun c => mem_allObserved_naming_iff, ?_, fun hfloor => ?_⟩
  · rintro ⟨c, hc, hnaming, hname⟩
    obtain ⟨other, style, hprevails, hclear, hreports⟩ :=
      mem_allObserved_naming_iff.1 ⟨hc, hnaming⟩
    obtain rfl := convention_injective (hname.symm.trans hreports.name_eq)
    exact ⟨exists_prevails_iff.1 ⟨style, hprevails⟩, fun s hs => hprevails.unique hs ▸ hclear⟩
  · rintro ⟨hname, hclear⟩
    obtain ⟨style, hprevails⟩ := exists_prevails_iff.2 hname
    let c : Convention α := ⟨.naming, kind.convention, .text style.label,
      shareConfidence (showing (facts.names.get kind) style).length
        (classified (facts.names.get kind)).length accept.steepness,
      (showing (facts.names.get kind) style).length,
      (distinct (showing (facts.names.get kind) style)).take 5⟩
    have hreports : ReportsNames accept kind (facts.names.get kind) style c :=
      ⟨rfl, rfl, rfl, rfl, rfl, firstOccurrences_take 5 _⟩
    have hc := mem_allObserved_naming_iff.2
      ⟨kind, style, hprevails, hclear style hprevails, hreports⟩
    exact ⟨c, hc.1, rfl, rfl⟩
  · have hentries := (sublist_observed .naming accept facts).map Prod.snd
    have hnames : ((namesOf .naming).map (ConventionKind.naming, ·)).map Prod.snd
        = NameKind.all.map NameKind.convention := by decide
    rw [hnames, List.map_map] at hentries
    exact hentries
  · refine (List.filter_eq_self.2 fun c hc => ?_).symm
    obtain ⟨kind, -, hkind⟩ := List.mem_filterMap.1 hc
    exact floor_le_of_ofTally? hfloor hkind

/-- The functions of a script, one of them twice: all classified names but one are in camel case. -/
def camelFunctions : List String :=
  ["loadUser", "render", "_saveUser", "loadUser", "dropUser", "findUser", "sortUsers", "mapUsers"]

/-- With whole numbers and a floor of 0 camel case is reported of these functions, with seven names
and the first five of them as examples. -/
theorem naming_reported_camelFunctions :
    let accept : Acceptance WholeNumber := ⟨⟨0⟩, ⟨0⟩⟩
    let facts : LanguageFacts := { LanguageFacts.empty "javascript" .empty with
      names := { Names.empty with functions := camelFunctions } }
    Scalar.isNaN accept.floor = false ∧
    naming accept facts = observed .naming accept facts ∧
    Prevails camelFunctions .camelCase ∧ Clear accept camelFunctions .camelCase ∧
    (∃ name ∈ camelFunctions, (NamingStyle.classify? name).isSome) ∧
    ∃ c ∈ allObserved accept facts, c.name = "function_naming" ∧ c.value = .text "camelCase" ∧
      c.frequency = 7 ∧
      c.examples = ["loadUser", "_saveUser", "dropUser", "findUser", "sortUsers"] := by
  intro accept facts
  have hfirst : ∀ other, (showing camelFunctions other).length
      = (showing camelFunctions .camelCase).length → other = .camelCase := by
    intro other
    cases other <;> decide
  have hprevails : Prevails camelFunctions .camelCase :=
    ⟨by decide, fun other => by cases other <;> decide,
      fun other hother => hfirst other hother ▸ List.le_refl _⟩
  have hclear : Clear accept camelFunctions .camelCase := ⟨by decide +kernel, by decide +kernel⟩
  have hexamples : (distinct (showing camelFunctions .camelCase)).take 5
      = ["loadUser", "_saveUser", "dropUser", "findUser", "sortUsers"] := by decide
  obtain ⟨hreported, hfields, -, hfloor⟩ := naming_reported accept facts
  obtain ⟨c, hc, hnaming, hname⟩ := (hreported .function).2
    ⟨exists_prevails_iff.1 ⟨_, hprevails⟩, fun style hstyle => hprevails.unique hstyle ▸ hclear⟩
  obtain ⟨kind, style, hstyle, -, hreports⟩ := (hfields c).1 ⟨hc, hnaming⟩
  obtain rfl : NameKind.function = kind :=
    convention_injective (hname.symm.trans hreports.name_eq)
  obtain rfl : NamingStyle.camelCase = style := hprevails.unique hstyle
  exact ⟨rfl, hfloor rfl, hprevails, hclear, ⟨"loadUser", by decide, by decide⟩, c, hc, hname,
    hreports.value_eq, hreports.frequency_eq,
    hexamples ▸ hreports.examples_eq.unique (firstOccurrences_take 5 _)⟩

end Convention

end HouseStyle
