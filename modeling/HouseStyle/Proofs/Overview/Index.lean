import HouseStyle.Overview.Basic
import HouseStyle.Proofs.SortedMap

/-!
# What the index of conventions holds

The conventions of several languages are entered into one index, and what is entered later
overwrites what was entered before.  So the index is described by its value for each name and
each language: the value of the last convention of this name that the measures of the language
have, and without one that of the main profile (`valueAt?_index`).  Nothing else is in it, and
therefore two indexes with the same values are equal (`ext_valueAt?`).
-/

namespace HouseStyle

variable {α : Type}

namespace Convention

/-- The value of the last convention of a name, those about the layout left out. -/
def lastValue? (conventions : List (Convention α)) (name : String) : Option (ConventionValue α) :=
  (conventions.reverse.find? fun c => c.kind != .layout && c.name == name).map (·.value)

lemma lastValue?_cons (c : Convention α) (conventions : List (Convention α)) (name : String) :
    lastValue? (c :: conventions) name = (lastValue? conventions name).or
      (if c.kind != .layout && c.name == name then some c.value else none) := by
  rw [lastValue?, List.reverse_cons, List.find?_append]
  cases h : conventions.reverse.find? fun c => c.kind != .layout && c.name == name with
  | some c' => simp [lastValue?, h]
  | none =>
    simp only [lastValue?, h, List.find?_singleton, Option.none_or, Option.map_none]
    split <;> rfl

/-- A name has a last value if it is the name of some convention. -/
lemma isSome_lastValue? {conventions : List (Convention α)} {name : String} :
    (lastValue? conventions name).isSome ↔ ∃ c ∈ conventions, c.kind ≠ .layout ∧ c.name = name := by
  rw [lastValue?, Option.isSome_map, List.find?_isSome]
  simp

end Convention

namespace Comparison

open Convention

/-- The value of a name and a language in an index. -/
def valueAt? (index : ConventionIndex α) (name language : String) : Option (ConventionValue α) :=
  (index.get? name).bind fun values => values.get? language

/-- Whether every name of an index has a value. -/
def Filled (index : ConventionIndex α) : Prop :=
  ∀ name values, index.get? name = some values → ∃ language, (values.get? language).isSome

/-- An index in which every name has a value is determined by its values. -/
lemma ext_valueAt? {i j : ConventionIndex α} (hi : Filled i) (hj : Filled j)
    (h : ∀ name language, valueAt? i name language = valueAt? j name language) : i = j :=
  SortedMap.Filled.ext hi hj h

/-! ### Entering conventions -/

/-- Enter one convention of a language. -/
def enterOne (language : String) (index : ConventionIndex α) (c : Convention α) :
    ConventionIndex α :=
  index.upsert c.name fun old => (old.getD .empty).insert language c.value

lemma valueAt?_enterOne (language : String) (index : ConventionIndex α) (c : Convention α)
    (name l : String) :
    valueAt? (enterOne language index c) name l =
      if name = c.name ∧ l = language then some c.value else valueAt? index name l :=
  SortedMap.get?_bind_upsert_insert index c.name language c.value name l

lemma filled_enterOne {index : ConventionIndex α} (h : Filled index) (language : String)
    (c : Convention α) : Filled (enterOne language index c) :=
  SortedMap.Filled.upsert_insert h c.name language c.value

lemma enter_cons (language : String) (index : ConventionIndex α) (c : Convention α)
    (conventions : List (Convention α)) :
    enter language index (c :: conventions) =
      enter language (if c.kind != .layout then enterOne language index c else index)
        conventions := by
  rw [enter, enter, List.filter_cons]
  split <;> rfl

/-- Entering conventions changes the values of their language, and no others. -/
lemma valueAt?_enter (language : String) (index : ConventionIndex α)
    (conventions : List (Convention α)) (name l : String) :
    valueAt? (enter language index conventions) name l =
      if l = language then (lastValue? conventions name).or (valueAt? index name l)
      else valueAt? index name l := by
  induction conventions generalizing index with
  | nil => simp [enter, lastValue?]
  | cons c conventions ih =>
    rw [enter_cons, ih, lastValue?_cons]
    by_cases hkind : (c.kind != .layout) = true
    · rw [if_pos hkind, valueAt?_enterOne]
      by_cases hl : l = language
      · by_cases hname : name = c.name
        · simp [hl, hname, hkind]
        · have hname' : (c.name == name) = false := by simpa using fun h => hname h.symm
          simp [hl, hname, hname']
      · simp [hl]
    · simp [hkind]

lemma filled_enter {index : ConventionIndex α} (h : Filled index) (language : String)
    (conventions : List (Convention α)) : Filled (enter language index conventions) := by
  induction conventions generalizing index with
  | nil => exact h
  | cons c conventions ih =>
    rw [enter_cons]
    refine ih ?_
    split
    · exact filled_enterOne h language c
    · exact h

/-! ### The index of a project -/

lemma valueAt?_foldl_enter {l : List (String × LanguageMetrics α)}
    (hl : l.Pairwise fun a b => a.1 ≠ b.1) (index : ConventionIndex α) (name language : String) :
    valueAt? (l.foldl (fun acc e => enter e.1 acc e.2.conventions) index) name language =
      (((l.find? fun e => e.1 == language).map Prod.snd).bind fun m =>
        lastValue? m.conventions name).or (valueAt? index name language) := by
  induction l generalizing index with
  | nil => simp
  | cons e l ih =>
    obtain ⟨hhead, hrest⟩ := List.pairwise_cons.1 hl
    rw [List.foldl_cons, ih hrest, valueAt?_enter]
    by_cases he : language = e.1
    · -- the language does not occur again behind its entry
      have hnone : l.find? (fun e => e.1 == language) = none := by
        rw [List.find?_eq_none]
        intro e' he' heq
        exact hhead e' he' (he ▸ (beq_iff_eq.1 heq).symm)
      rw [if_pos he, hnone, List.find?_cons_of_pos (by simp [he])]
      rfl
    · have he' : (e.1 == language) = false := by simpa using fun h => he h.symm
      rw [if_neg he, List.find?_cons, he']

lemma filled_foldl_enter (l : List (String × LanguageMetrics α)) {index : ConventionIndex α}
    (h : Filled index) : Filled (l.foldl (fun acc e => enter e.1 acc e.2.conventions) index) := by
  induction l generalizing index with
  | nil => exact h
  | cons e l ih => exact ih (filled_enter h e.1 e.2.conventions)

/-- The value of a name and a language: the last one in the measures of the language, or else the
last one in the main profile if that is about the language. -/
lemma valueAt?_index (primary : Option (Profile α)) (metrics : SortedMap (LanguageMetrics α))
    (name language : String) :
    valueAt? (index primary metrics) name language =
      ((metrics.get? language).bind fun m => lastValue? m.conventions name).or
        (primary.bind fun p =>
          if language = languageKey p then lastValue? p.conventions name else none) := by
  have hindex := fun start => valueAt?_foldl_enter metrics.keys_ne start name language
  cases primary with
  | none => exact hindex .empty
  | some p =>
    refine (hindex _).trans ?_
    rw [valueAt?_enter, Option.bind_some]
    congr 1
    split
    · rw [show valueAt? (.empty : ConventionIndex α) name language = none from rfl, Option.or_none]
    · rfl

lemma filled_index (primary : Option (Profile α)) (metrics : SortedMap (LanguageMetrics α)) :
    Filled (index primary metrics) := by
  have hempty : Filled (.empty : ConventionIndex α) := by
    intro name values hvalues
    simp at hvalues
  refine filled_foldl_enter _ ?_
  cases primary with
  | none => exact hempty
  | some p => exact filled_enter hempty _ _

/-- A profile adds nothing to the index if the measures of its language show all of its
conventions. -/
lemma index_eq_of_subset {p : Profile α} {metrics : SortedMap (LanguageMetrics α)}
    {m : LanguageMetrics α} (hm : metrics.get? (languageKey p) = some m)
    (hsubset : ∀ c ∈ p.conventions, c.kind ≠ .layout → c ∈ m.conventions) :
    index (some p) metrics = index none metrics := by
  refine ext_valueAt? (filled_index _ _) (filled_index _ _) fun name language => ?_
  rw [valueAt?_index, valueAt?_index, Option.bind_some, Option.bind_none, Option.or_none]
  split
  next hlanguage =>
    subst hlanguage
    rw [hm, Option.bind_some]
    cases hlast : lastValue? m.conventions name with
    | some v => rfl
    | none =>
      -- what the profile has, the measures of its language have too
      rw [Option.none_or, ← Option.not_isSome_iff_eq_none, isSome_lastValue?]
      rintro ⟨c, hc, hkind, hname⟩
      have hsome := isSome_lastValue?.2 ⟨c, hsubset c hc hkind, hkind, hname⟩
      simp [hlast] at hsome
  next => rw [Option.or_none]

end Comparison

end HouseStyle
