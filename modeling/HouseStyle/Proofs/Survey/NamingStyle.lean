import HouseStyle.Survey.NamingStyle
import Mathlib.Data.Char
import Mathlib.Data.List.DropRight
import Mathlib.Order.Interval.Set.Basic

/-!
# The grammar of the naming styles

Each style is a language of cores: words that start with a letter of one case, go on with letters,
digits or a separator, and show by one of their characters, or by their length, that they are no
plain word.  A core has a style exactly when it is in the language of that style, so the five
languages are disjoint, and the marks at the ends of a name make no difference.
-/

namespace HouseStyle

namespace NamingStyle

/-! ### Words -/

/-- The letters in lower case. -/
def lowerCase : Set Char := Set.Icc 'a' 'z'

/-- The letters in upper case. -/
def upperCase : Set Char := Set.Icc 'A' 'Z'

/-- The digits. -/
def digits : Set Char := Set.Icc '0' '9'

/-- The characters that are stripped from the ends of a name. -/
def marks : Set Char := {'_', '$', '#'}

/-- A character of one class and then any number of characters of another. -/
def word (first rest : Set Char) : Set (List Char) :=
  {cs | ∃ c ds, cs = c :: ds ∧ c ∈ first ∧ ∀ d ∈ ds, d ∈ rest}

/-- The cores of a style. -/
def cores : NamingStyle → Set (List Char)
  | snakeCase => {cs ∈ word lowerCase (lowerCase ∪ digits ∪ {'_'}) | '_' ∈ cs}
  | camelCase => {cs ∈ word lowerCase (upperCase ∪ lowerCase ∪ digits) | ∃ c ∈ cs, c ∈ upperCase}
  | pascalCase => {cs ∈ word upperCase (upperCase ∪ lowerCase ∪ digits) | ∃ c ∈ cs, c ∈ lowerCase}
  | kebabCase => {cs ∈ word lowerCase (lowerCase ∪ digits ∪ {'-'}) | '-' ∈ cs}
  | upperSnakeCase => {cs ∈ word upperCase (upperCase ∪ digits ∪ {'_'}) | 2 ≤ cs.length}

lemma isLower_iff {c : Char} : c.isLower = true ↔ c ∈ lowerCase := by
  have hrange : c.isLower = (decide ('a' ≤ c) && decide (c ≤ 'z')) := rfl
  rw [hrange, Bool.and_eq_true, decide_eq_true_eq, decide_eq_true_eq]
  rfl

lemma isUpper_iff {c : Char} : c.isUpper = true ↔ c ∈ upperCase := by
  have hrange : c.isUpper = decide ('A' ≤ c ∧ c ≤ 'Z') := rfl
  rw [hrange, decide_eq_true_eq]
  rfl

lemma isDigit_iff {c : Char} : c.isDigit = true ↔ c ∈ digits := by
  have hrange : c.isDigit = (decide ('0' ≤ c) && decide (c ≤ '9')) := rfl
  rw [hrange, Bool.and_eq_true, decide_eq_true_eq, decide_eq_true_eq]
  rfl

lemma isAlpha_eq_false_iff {c : Char} :
    c.isAlpha = false ↔ c.isUpper = false ∧ c.isLower = false := by
  have hcases : c.isAlpha = (c.isUpper || c.isLower) := rfl
  rw [hcases, Bool.or_eq_false_iff]

lemma isMark_iff {c : Char} : isMark c = true ↔ c ∈ marks := by
  simp [isMark, marks, or_assoc]

lemma not_mem_upperCase {c : Char} (h : c ∈ lowerCase) : c ∉ upperCase := by
  simp only [lowerCase, upperCase, Set.mem_Icc, Char.le_def] at h ⊢
  grind

lemma not_mem_of_digit {c : Char} (h : c ∈ digits) : c ∉ upperCase ∧ c ∉ lowerCase := by
  simp only [digits, lowerCase, upperCase, Set.mem_Icc, Char.le_def] at h ⊢
  grind

/-- The separators are neither letters nor digits. -/
lemma separator_not_mem {c : Char} (h : c = '_' ∨ c = '-') :
    c ∉ upperCase ∧ c ∉ lowerCase ∧ c ∉ digits := by
  rcases h with rfl | rfl <;> simp [upperCase, lowerCase, digits, Char.le_def]

/-- The characters that may occur in a core with a style. -/
def allowed : Set Char := upperCase ∪ lowerCase ∪ digits ∪ {'_', '-'}

lemma isAllowed_iff {c : Char} :
    (c.isAlphanum || c == '_' || c == '-') = true ↔ c ∈ allowed := by
  have hcases : c.isAlphanum = (c.isUpper || c.isLower || c.isDigit) := rfl
  simp only [hcases, Bool.or_eq_true, isUpper_iff, isLower_iff, isDigit_iff, beq_iff_eq, allowed,
    Set.mem_union, Set.mem_insert_iff, Set.mem_singleton_iff, or_assoc]

/-! ### Cores -/

/-- The tests on a core, said of the classes of its characters. -/
lemma ofCore?_cons [∀ p : Prop, Decidable p] (first : Char) (rest : List Char) :
    ofCore? (first :: rest) =
      if first ∉ upperCase ∧ first ∉ lowerCase then none
      else if ∃ c ∈ first :: rest, c ∉ allowed then none
      else if '-' ∈ first :: rest then
        if (∃ c ∈ first :: rest, c ∈ upperCase) ∨ '_' ∈ first :: rest then none
        else some kebabCase
      else if (∃ c ∈ first :: rest, c ∈ upperCase) ∧ ∀ c ∈ first :: rest, c ∉ lowerCase then
        if rest = [] then none else some upperSnakeCase
      else if first ∈ lowerCase then
        if ∃ c ∈ first :: rest, c ∈ upperCase then
          if '_' ∈ first :: rest then none else some camelCase
        else if '_' ∈ first :: rest then some snakeCase else none
      else if '_' ∈ first :: rest then none
      else some pascalCase := by
  simp only [ofCore?, ← isUpper_iff, ← isLower_iff, ← isAllowed_iff, isAlpha_eq_false_iff,
    Bool.not_eq_true', Bool.not_eq_true, Bool.and_eq_true, Bool.or_eq_true, List.any_eq_true,
    List.any_eq_false, List.all_eq_false, List.contains_iff_mem, List.isEmpty_iff]

lemma cons_mem_word {first : Char} {rest : List Char} {P Q : Set Char} :
    first :: rest ∈ word P Q ↔ first ∈ P ∧ ∀ c ∈ rest, c ∈ Q := by
  simp [word]

/-- A core with a style is in the language of the style. -/
lemma mem_cores_of_ofCore? {cs : List Char} {style : NamingStyle} (h : ofCore? cs = some style) :
    cs ∈ style.cores := by
  classical
  cases cs with
  | nil => cases h
  | cons first rest =>
    rw [ofCore?_cons] at h
    split_ifs at h with hfirst hall hhyphen hmixed hupper hshort hlower hcamel hscore hscore hscore
    all_goals
      cases h
      simp only [allowed, Set.mem_union, Set.mem_insert_iff, Set.mem_singleton_iff] at hall
    · -- a hyphen, but neither a letter in upper case nor an underscore
      have hstart : first ∈ lowerCase := by grind
      have hrest : ∀ c ∈ rest, c ∈ lowerCase ∪ digits ∪ {'-'} := by grind
      exact ⟨cons_mem_word.2 ⟨hstart, hrest⟩, hhyphen⟩
    · -- letters in upper case only, and more than one character
      have hstart : first ∈ upperCase := by grind
      have hrest : ∀ c ∈ rest, c ∈ upperCase ∪ digits ∪ {'_'} := by grind
      have hlength : 2 ≤ (first :: rest).length := by grind
      exact ⟨cons_mem_word.2 ⟨hstart, hrest⟩, hlength⟩
    · -- an upper case letter after a start in lower case
      have hrest : ∀ c ∈ rest, c ∈ upperCase ∪ lowerCase ∪ digits := by grind
      exact ⟨cons_mem_word.2 ⟨hlower, hrest⟩, hcamel⟩
    · -- letters in lower case only, and an underscore
      have hrest : ∀ c ∈ rest, c ∈ lowerCase ∪ digits ∪ {'_'} := by grind
      exact ⟨cons_mem_word.2 ⟨hlower, hrest⟩, hscore⟩
    · -- a start in upper case that is not all in upper case
      have hstart : first ∈ upperCase := by grind
      have hrest : ∀ c ∈ rest, c ∈ upperCase ∪ lowerCase ∪ digits := by grind
      have hshown : ∃ c ∈ first :: rest, c ∈ lowerCase := by grind
      exact ⟨cons_mem_word.2 ⟨hstart, hrest⟩, hshown⟩

/-- A core in the language of a style has that style. -/
lemma ofCore?_of_mem_cores {cs : List Char} {style : NamingStyle} (h : cs ∈ style.cores) :
    ofCore? cs = some style := by
  classical
  have hlower : ∀ c ∈ lowerCase, c ∉ upperCase := fun _ => not_mem_upperCase
  have hdigit : ∀ c ∈ digits, c ∉ upperCase ∧ c ∉ lowerCase := fun _ => not_mem_of_digit
  have hscore := separator_not_mem (c := '_') (.inl rfl)
  have hhyphen := separator_not_mem (c := '-') (.inr rfl)
  cases style with
  | snakeCase =>
    obtain ⟨⟨first, rest, rfl, hfirst, hrest⟩, hshow⟩ := h
    simp only [Set.mem_union, Set.mem_singleton_iff] at hrest
    have hall : ∀ c ∈ first :: rest, c ∈ allowed := by grind [allowed]
    have hno : '-' ∉ first :: rest := by grind
    have hcase : ∀ c ∈ first :: rest, c ∉ upperCase := by grind
    simp_all [ofCore?_cons]
  | camelCase =>
    obtain ⟨⟨first, rest, rfl, hfirst, hrest⟩, hshow⟩ := h
    simp only [Set.mem_union] at hrest
    have hall : ∀ c ∈ first :: rest, c ∈ allowed := by grind [allowed]
    have hno : '-' ∉ first :: rest ∧ '_' ∉ first :: rest := by grind
    simp_all [ofCore?_cons]
  | pascalCase =>
    obtain ⟨⟨first, rest, rfl, hfirst, hrest⟩, hshow⟩ := h
    simp only [Set.mem_union] at hrest
    have hall : ∀ c ∈ first :: rest, c ∈ allowed := by grind [allowed]
    have hno : '-' ∉ first :: rest ∧ '_' ∉ first :: rest := by grind
    have hcase : first ∉ lowerCase := by grind
    simp_all [ofCore?_cons]
  | kebabCase =>
    obtain ⟨⟨first, rest, rfl, hfirst, hrest⟩, hshow⟩ := h
    simp only [Set.mem_union, Set.mem_singleton_iff] at hrest
    have hall : ∀ c ∈ first :: rest, c ∈ allowed := by grind [allowed]
    have hno : '_' ∉ first :: rest := by grind
    have hcase : ∀ c ∈ first :: rest, c ∉ upperCase := by grind
    simp_all [ofCore?_cons]
  | upperSnakeCase =>
    obtain ⟨⟨first, rest, rfl, hfirst, hrest⟩, hshow⟩ := h
    simp only [Set.mem_union, Set.mem_singleton_iff] at hrest
    have hall : ∀ c ∈ first :: rest, c ∈ allowed := by grind [allowed]
    have hno : '-' ∉ first :: rest := by grind
    have hcase : ∀ c ∈ first :: rest, c ∉ lowerCase := by grind
    have hmore : rest ≠ [] := by grind
    simp_all [ofCore?_cons]

/-- The style of a core is the one whose language it is in. -/
lemma ofCore?_eq_some_iff {cs : List Char} {style : NamingStyle} :
    ofCore? cs = some style ↔ cs ∈ style.cores :=
  ⟨mem_cores_of_ofCore?, ofCore?_of_mem_cores⟩

lemma ofCore?_eq_none_iff {cs : List Char} :
    ofCore? cs = none ↔ ∀ style : NamingStyle, cs ∉ style.cores := by
  rw [Option.eq_none_iff_forall_ne_some]
  exact forall_congr' fun _ => not_congr ofCore?_eq_some_iff

/-- No core is in the languages of two styles. -/
lemma pairwise_disjoint_cores : Pairwise fun s t : NamingStyle => s.cores ∩ t.cores = ∅ := by
  intro s t hne
  rw [Set.eq_empty_iff_forall_notMem]
  rintro cs ⟨hs, ht⟩
  rw [← ofCore?_eq_some_iff] at hs ht
  exact hne (Option.some.inj (hs.symm.trans ht))

/-! ### Marks -/

/-- `cs` is what is left of `name` when all marks are stripped from its ends. -/
structure Strips (name cs : List Char) : Prop where
  /-- Only marks are stripped. -/
  around : ∃ left right, name = left ++ cs ++ right ∧ ∀ c ∈ left ++ right, c ∈ marks
  /-- The first character that is left is no mark. -/
  head : ∀ c ∈ cs.head?, c ∉ marks
  /-- Neither is the last one. -/
  last : ∀ c ∈ cs.getLast?, c ∉ marks

lemma core_eq_rdropWhile (name : List Char) :
    core name = (name.dropWhile isMark).rdropWhile isMark := rfl

lemma core_marks_append {left cs : List Char} (h : ∀ c ∈ left, c ∈ marks) :
    core (left ++ cs) = core cs := by
  rw [core, List.dropWhile_append_of_pos fun c hc => isMark_iff.2 (h c hc), core]

lemma core_append_marks {cs right : List Char} (h : ∀ c ∈ right, c ∈ marks) :
    core (cs ++ right) = core cs := by
  have hmark : ∀ c ∈ right, isMark c := fun c hc => isMark_iff.2 (h c hc)
  rw [core, core, List.dropWhile_append]
  split
  next hempty =>
    rw [List.isEmpty_iff.1 hempty, List.dropWhile_eq_nil_iff.2 hmark]
  next =>
    rw [List.reverse_append,
      List.dropWhile_append_of_pos fun c hc => hmark c (List.mem_reverse.1 hc)]

/-- What is stripped from a name is stripped in one way only. -/
lemma strips_iff {name cs : List Char} : Strips name cs ↔ cs = core name := by
  constructor
  · rintro ⟨⟨left, right, rfl, hmarks⟩, hhead, hlast⟩
    rw [List.forall_mem_append] at hmarks
    have hstart : cs.dropWhile isMark = cs := by
      cases cs with
      | nil => rfl
      | cons c cs => exact List.dropWhile_cons_of_neg fun h => hhead c rfl (isMark_iff.1 h)
    have hend : cs.rdropWhile isMark = cs :=
      List.rdropWhile_eq_self_iff.2 fun hne h =>
        hlast _ (List.getLast?_eq_some_getLast hne) (isMark_iff.1 h)
    rw [core_append_marks hmarks.2, core_marks_append hmarks.1, core_eq_rdropWhile, hstart, hend]
  · rintro rfl
    refine ⟨⟨name.takeWhile isMark, (name.dropWhile isMark).rtakeWhile isMark, ?_, ?_⟩,
      fun c hc => ?_, fun c hc => ?_⟩
    · rw [core_eq_rdropWhile, List.append_assoc, List.rdropWhile_append_rtakeWhile,
        List.takeWhile_append_dropWhile]
    · rw [List.forall_mem_append]
      exact ⟨fun c hc => isMark_iff.1 (List.mem_takeWhile_imp hc),
        fun c hc => isMark_iff.1 (List.mem_rtakeWhile_imp hc)⟩
    · -- what is left starts where the marks at the start end
      obtain ⟨rest, hrest⟩ := List.rdropWhile_prefix isMark (name.dropWhile isMark)
      have hfirst : (name.dropWhile isMark).head? = some c := by
        rw [← hrest, List.head?_append, ← core_eq_rdropWhile, hc, Option.some_or]
      have hnot := List.head?_dropWhile_not isMark name
      rw [hfirst] at hnot
      rw [← isMark_iff, hnot]
      exact Bool.false_ne_true
    · rw [core_eq_rdropWhile] at hc
      obtain ⟨hne, rfl⟩ := List.mem_getLast?_eq_getLast hc
      exact fun h => List.rdropWhile_last_not isMark _ hne (isMark_iff.2 h)

/-- A name is classified by the grammar of its core.  What is left of it between marks is unique,
the name has a style exactly when this is in the language of the style, the languages of the styles
are disjoint, and more marks at its ends make no difference. -/
theorem classify?_grammar (name : String) :
    (∃! cs, Strips name.toList cs) ∧
    (∀ cs, Strips name.toList cs →
      (∀ style : NamingStyle, classify? name = some style ↔ cs ∈ style.cores) ∧
      (classify? name = none ↔ ∀ style : NamingStyle, cs ∉ style.cores)) ∧
    (Pairwise fun s t : NamingStyle => s.cores ∩ t.cores = ∅) ∧
    ∀ left right : List Char, (∀ c ∈ left ++ right, c ∈ marks) →
      classify? (String.ofList (left ++ name.toList ++ right)) = classify? name := by
  refine ⟨⟨core name.toList, strips_iff.2 rfl, fun cs => strips_iff.1⟩, ?_,
    pairwise_disjoint_cores, ?_⟩
  · intro cs hcs
    obtain rfl := strips_iff.1 hcs
    exact ⟨fun style => ofCore?_eq_some_iff, ofCore?_eq_none_iff⟩
  · intro left right hmarks
    rw [List.forall_mem_append] at hmarks
    rw [classify?, String.toList_ofList, core_append_marks hmarks.2, core_marks_append hmarks.1,
      classify?]

/-- `loadUser` with a private name and a sigil: the marks are stripped, the word with a capital is
left, and a name may carry still more marks. -/
theorem classify?_grammar_loadUser :
    Strips "__loadUser".toList "loadUser".toList ∧
    (∀ c ∈ ['#'] ++ ['_', '$'], c ∈ marks) ∧
    (classify? "__loadUser" = some camelCase ↔ "loadUser".toList ∈ camelCase.cores) ∧
    classify? "__loadUser" = some camelCase ∧
    classify? (String.ofList (['#'] ++ "__loadUser".toList ++ ['_', '$'])) = some camelCase := by
  have hstrips : Strips "__loadUser".toList "loadUser".toList := strips_iff.2 (by decide)
  have hmarks : ∀ c ∈ ['#'] ++ ['_', '$'], c ∈ marks := by simp [marks]
  have hstyle : classify? "__loadUser" = some camelCase := by decide
  obtain ⟨-, hgrammar, -, hmore⟩ := classify?_grammar "__loadUser"
  exact ⟨hstrips, hmarks, (hgrammar _ hstrips).1 camelCase, hstyle,
    (hmore ['#'] ['_', '$'] hmarks).trans hstyle⟩

end NamingStyle

end HouseStyle
