import HouseStyle.Proofs.Project.SharedScan
import HouseStyle.Proofs.Settings.Check
import HouseStyle.Proofs.Tally

/-!
# Runs that are restricted to some languages

The settings can name the languages to look at.  The measures are made of these languages only,
but the main language of a project is assumed to be Python if none of the named languages has a
file, whether Python is named or not.  So a run keeps to the named languages unless they have no
files, Python is not among them, and there are files of Python (`restricted_iff`).
-/

namespace HouseStyle

namespace ProjectTree

variable {α : Type} [Scalar α] [NumberText α]

/-! ### What a run reads -/

/-- What is read to learn a profile. -/
def learnWork (r : Readers α) (p : ProjectTree) (s : Settings α) : List Workload :=
  match p.mainWork r s with
  | .ok (w, _) => [w]
  | .error _ => []

/-- What is read for an overview.  The main language is read once more if it has no analysis. -/
def overviewWork (r : Readers α) (p : ProjectTree) (s : Settings α) : List Workload :=
  match p.allWork r s with
  | .ok (work, layout) =>
    match (analysesOf s work layout).get? (s.mainLanguage layout) with
    | some _ => work
    | none => work ++ p.learnWork r s
  | .error _ => []

/-- Whether every file that is read is one of some languages. -/
def ReadsOnly (p : ProjectTree) (names : List String) (work : List Workload) : Prop :=
  ∀ w ∈ work, ∀ f ∈ w.files, ∃ l, p.languageOf? f = some l ∧ l.id ∈ names

end ProjectTree

/-- Whether a profile says anything about its language. -/
def Profile.Carries {α : Type} (q : Profile α) : Prop :=
  q.conventions ≠ [] ∨ q.rules ≠ .empty ∨ q.preferences ≠ .empty

/-- Whether runs on a project keep to the languages of the settings: no file of another language is
read, and no profile says anything about another language. -/
structure ProjectTree.Restricted (p : ProjectTree) (s : Settings Float) : Prop where
  learnWork : p.ReadsOnly s.languages (p.learnWork .sound s)
  overviewWork : p.ReadsOnly s.languages (p.overviewWork .sound s)
  learn : ∀ now q, p.learn s now = .ok q → q.Carries → q.language ∈ s.languages
  overview : ∀ now o q, p.overview s now = .ok o → o.primary = some q → q.Carries →
    q.language ∈ s.languages

/-! ### The main language -/

namespace Settings

variable {α : Type} {s : Settings α}

lemma activeLanguages_eq (h : s.languages ≠ []) : s.activeLanguages = s.languages := by
  rw [activeLanguages, if_neg (by simpa using h)]

/-- The main language is a named one that has files, or else it is the assumed one and no named one
has files. -/
lemma mainLanguage_spec (layout : Layout) (hlanguages : s.languages ≠ [])
    (hprimary : s.primaryLanguage = none) :
    s.mainLanguage layout ∈ s.languages ∧ 0 < layout.sourceFiles.get (s.mainLanguage layout) ∨
      s.mainLanguage layout = fallbackLanguage ∧
        ∀ name ∈ s.languages, layout.sourceFiles.get name = 0 := by
  have hactive := activeLanguages_eq hlanguages
  cases hdominant : (Tally.ofCounts (layout.sourceFiles.counts.entries.filter fun e =>
      s.activeLanguages.contains e.1)).dominant? with
  | some e =>
    left
    -- the dominant label has a positive number, which it has from the layout
    obtain ⟨hpos, hget⟩ := Tally.mem_entries_iff.1 (Tally.mem_of_dominant? hdominant)
    obtain ⟨e', he', hname, hcount⟩ := Tally.get_ofCounts_pos.1 (hget ▸ hpos)
    obtain ⟨hentry, hcontains⟩ := List.mem_filter.1 he'
    rw [hactive, List.contains_iff_mem, hname] at hcontains
    rw [← (Tally.mem_entries_iff.1 hentry).2, hname] at hcount
    simp only [mainLanguage, hprimary, hdominant]
    exact ⟨hcontains, hcount⟩
  | none =>
    right
    refine ⟨by simp only [mainLanguage, hprimary, hdominant], fun name hname => ?_⟩
    -- a named language with files would be an entry of the tally, which has none
    by_contra hne
    have hentry : (name, layout.sourceFiles.get name) ∈ layout.sourceFiles.counts.entries :=
      Tally.mem_entries_iff.2 ⟨Nat.pos_of_ne_zero hne, rfl⟩
    have hcontains : s.activeLanguages.contains name = true := by
      rw [hactive, List.contains_iff_mem]
      exact hname
    have hkept : (name, layout.sourceFiles.get name) ∈
        layout.sourceFiles.counts.entries.filter fun e => s.activeLanguages.contains e.1 :=
      List.mem_filter.2 ⟨hentry, hcontains⟩
    have hpos := Tally.get_ofCounts_pos.2 ⟨_, hkept, rfl, Nat.pos_of_ne_zero hne⟩
    have hmem := (Tally.mem_entries_iff (e := (name, _))).2 ⟨hpos, rfl⟩
    rw [Tally.dominant?_eq_none.1 hdominant] at hmem
    cases hmem

end Settings

/-! ### Languages without files -/

/-- The profile of a language about which nothing is known. -/
def Profile.unlearned (language : String) (now : Float) : Profile Float :=
  { language
    maturity := .beginner
    strictness := 0.3
    conventions := []
    rules := .empty
    preferences := .empty
    generatedAt := now }

/-- Where there is no file, nothing is learned, whatever the layout is. -/
lemma Profile.learn_of_nil (least now : Float) (accept : Acceptance Float) (language : String)
    (skipped : Nat) (layout layout' : Layout) :
    learn least now (Analysis.ofFiles accept language [] skipped layout) layout'
      = unlearned language now := by
  -- the only rule without a convention is one about long lines
  have hrules : Rules.derive language [] LineStats.none = (.empty : Rules Float) := by
    have hshort : Scalar.lt (100.0 : Float) LineStats.none.average = false := by decide
    rw [Rules.derive]
    cases Toolchain.ofLanguage? language with
    | none => rfl
    | some tools => simp [Rules.settingsOf, hshort, Rules.ofSettings]
  have hmeasure : MaturityAxes.measure (Analysis.ofFiles accept language [] skipped layout) layout'
      = ⟨none, none, none, none, none⟩ := rfl
  have hmaturity : Maturity.ofRatio
      (MaturityAxes.ratio ⟨none, none, none, none, none⟩ : Float) = .beginner := by decide
  have hstrictness : recommended .beginner [] = (0.3 : Float) := rfl
  have hpreferences :
      preferencesOf (Analysis.ofFiles accept language [] skipped layout) = .empty := rfl
  have haccepted : accepted least
      (Analysis.ofFiles accept language [] skipped layout).metrics.conventions = [] := rfl
  simp only [learn, haccepted, hmeasure, hmaturity, hstrictness, hpreferences, unlearned,
    Profile.mk.injEq, true_and, and_true]
  exact ⟨rfl, hrules⟩

lemma Profile.not_carries_unlearned (language : String) (now : Float) :
    ¬ (unlearned language now).Carries := by
  rintro (h | h | h) <;> exact h rfl

namespace Language

/-- The language of an extension is the one that has it, so no two languages share one. -/
lemma ofExtension?_eq_some {extension : String} {l : Language} :
    ofExtension? extension = some l ↔ extension ∈ l.extensions := by
  constructor
  · intro h
    unfold ofExtension? at h
    split at h <;> cases h <;> decide
  · have hall : ∀ l : Language, ∀ e ∈ l.extensions, ofExtension? e = some l := by
      intro l
      cases l <;> decide
    exact hall l extension

end Language

namespace ProjectTree

variable {p : ProjectTree} {x : Exclusion} {f : ProjectFile} {l : Language}

lemma languageOf?_eq_some : p.languageOf? f = some l ↔
    (f.extension? p.root).any l.extensions.contains = true := by
  rw [languageOf?, Option.bind_eq_some_iff, Option.any_eq_true]
  simp only [Language.ofExtension?_eq_some, List.contains_iff_mem]

/-- What there is to read of a language are the files of the language. -/
lemma mem_collect_none : f ∈ p.collect x none l ↔
    f ∈ p.visible x ∧ p.languageOf? f = some l := by
  simp only [collect, List.mem_mergeSort, List.mem_filter, languageOf?_eq_some]

lemma collect_some (n : Nat) : p.collect x (some n) l = (p.collect x none l).take n := rfl

lemma languageOf?_of_mem_collect {limit : Option Nat} (h : f ∈ p.collect x limit l) :
    p.languageOf? f = some l := by
  cases limit with
  | none => exact (mem_collect_none.1 h).2
  | some n =>
    rw [collect_some] at h
    exact (mem_collect_none.1 (List.mem_of_mem_take h)).2

/-- There is something to read of a language that has files. -/
lemma collect_ne_nil {limit : Option Nat} (hcount : 0 < (p.layout x).sourceFiles.get l.id)
    (hlimit : limit ≠ some 0) : p.collect x limit l ≠ [] := by
  rw [layout, Tally.get_ofLabels, List.count_pos_iff, List.mem_filterMap] at hcount
  obtain ⟨f, hf, hlanguage⟩ := hcount
  obtain ⟨l', hl', hid⟩ := Option.map_eq_some_iff.1 hlanguage
  obtain rfl : l' = l := Language.id_injective hid
  have hne : p.collect x none l' ≠ [] := List.ne_nil_of_mem (mem_collect_none.2 ⟨hf, hl'⟩)
  cases limit with
  | none => exact hne
  | some n =>
    have hn : n ≠ 0 := by
      rintro rfl
      exact hlimit rfl
    rw [collect_some, ne_eq, List.take_eq_nil_iff]
    rintro (h | h)
    · exact hn h
    · exact hne h

/-! ### Runs -/

section Runs

variable {α : Type} {r : Readers α} {s : Settings α}

lemma mem_learnWork {w : Workload} :
    w ∈ p.learnWork r s ↔ ∃ layout, p.mainWork r s = .ok (w, layout) := by
  rw [learnWork]
  split
  next w' layout h => simp [h, eq_comm]
  next h => simp [h]

/-- What is read of the main language are files of it. -/
lemma languageOf?_of_mem_mainWork {w : Workload} {layout : Layout}
    (h : p.mainWork r s = .ok (w, layout)) (hf : f ∈ w.files) :
    p.languageOf? f = some w.language := by
  cases hx : s.exclusion with
  | error fault => simp [mainWork_of_error hx] at h
  | ok x =>
    obtain ⟨-, -, ⟨-, hnil⟩ | ⟨-, -, heq⟩⟩ := mainWork_spec hx h
    · rw [hnil] at hf
      cases hf
    · rw [heq] at hf
      exact languageOf?_of_mem_collect hf

/-- What is read of all languages are files of the languages to look at. -/
lemma mem_activeLanguages_of_mem_allWork {w : Workload} {work : List Workload} {layout : Layout}
    (h : p.allWork r s = .ok (work, layout)) (hw : w ∈ work) :
    w.language.id ∈ s.activeLanguages ∧ ∀ f ∈ w.files, p.languageOf? f = some w.language := by
  cases hx : s.exclusion with
  | error fault => simp [allWork_of_error hx] at h
  | ok x =>
    obtain ⟨-, hall⟩ := allWork_spec hx h
    obtain ⟨hactive, -, -, heq⟩ := hall w hw
    refine ⟨hactive, fun f hf => ?_⟩
    rw [heq] at hf
    exact languageOf?_of_mem_collect hf

/-- What is read of the main language is read of a named one, unless only files of the assumed one
are there. -/
lemma mem_languages_of_mainWork {w : Workload} {layout : Layout} (hx : s.exclusion = .ok x)
    (hlanguages : s.languages ≠ []) (hprimary : s.primaryLanguage = none)
    (hcovered : (∃ name ∈ s.languages, 0 < (p.layout x).sourceFiles.get name) ∨
      Settings.fallbackLanguage ∈ s.languages ∨
        (p.layout x).sourceFiles.get Settings.fallbackLanguage = 0)
    (h : p.mainWork r s = .ok (w, layout)) (hfiles : w.files ≠ []) :
    w.language.id ∈ s.languages := by
  obtain ⟨rfl, hname, ⟨-, hnil⟩ | ⟨hcount, -, -⟩⟩ := mainWork_spec hx h
  · exact absurd hnil hfiles
  rw [hname] at hcount ⊢
  rcases Settings.mainLanguage_spec (p.layout x) hlanguages hprimary with
    ⟨hmem, -⟩ | ⟨heq, hnone⟩
  · exact hmem
  · rw [heq] at hcount ⊢
    rcases hcovered with ⟨name, hname, hpos⟩ | hmem | hzero
    · have := hnone name hname
      omega
    · exact hmem
    · omega

variable [Scalar α] [NumberText α]

lemma mem_overviewWork {w : Workload} (h : w ∈ p.overviewWork r s) :
    (∃ work layout, p.allWork r s = .ok (work, layout) ∧ w ∈ work) ∨ w ∈ p.learnWork r s := by
  rw [overviewWork] at h
  split at h
  next work layout hwork =>
    split at h
    next => exact Or.inl ⟨work, layout, hwork, h⟩
    next =>
      rcases List.mem_append.1 h with h | h
      · exact Or.inl ⟨work, layout, hwork, h⟩
      · exact Or.inr h
  next => cases h

end Runs

/-- Runs keep to the named languages if the files that are read of the main language do. -/
lemma restricted_of_mainWork {p : ProjectTree} {s : Settings Float} (hlanguages : s.languages ≠ [])
    (hmain : ∀ w layout, p.mainWork .sound s = .ok (w, layout) → w.files ≠ [] →
      w.language.id ∈ s.languages) : p.Restricted s := by
  have hlearnWork : p.ReadsOnly s.languages (p.learnWork .sound s) := by
    intro w hw f hf
    obtain ⟨layout, hw⟩ := mem_learnWork.1 hw
    have hmem := hmain w layout hw (List.ne_nil_of_mem hf)
    exact ⟨w.language, languageOf?_of_mem_mainWork hw hf, hmem⟩
  have hlearn : ∀ now q, p.learn s now = .ok q → q.Carries → q.language ∈ s.languages := by
    intro now q hq hcarries
    obtain ⟨w, layout, hw, rfl⟩ := exists_mainWork hq
    refine hmain w layout hw fun hnil => ?_
    rw [Workload.analysis_of_nil hnil, Profile.learn_of_nil] at hcarries
    exact Profile.not_carries_unlearned _ _ hcarries
  refine ⟨hlearnWork, ?_, hlearn, ?_⟩
  · intro w hw f hf
    rcases mem_overviewWork hw with ⟨work, layout, hwork, hw⟩ | hw
    · obtain ⟨hactive, hlanguage⟩ := mem_activeLanguages_of_mem_allWork hwork hw
      rw [Settings.activeLanguages_eq hlanguages] at hactive
      exact ⟨w.language, hlanguage f hf, hactive⟩
    · exact hlearnWork w hw f hf
  · -- the profile of an overview is the one that is learned without it
    intro now o q ho hq hcarries
    have hprofile := primary_overviewWith (r := .sound) (p := p) (s := s) now now
    rw [overview] at ho
    rw [ho] at hprofile
    cases hq' : p.learnWith .sound s now with
    | error fault => simp [hq', Except.map] at hprofile
    | ok q' =>
      rw [hq'] at hprofile
      simp only [Except.map, hq, Except.ok.injEq, Option.some.injEq] at hprofile
      subst hprofile
      exact hlearn now q' hq' hcarries

/-- Runs keep to the named languages unless no named language has files, Python is not named, and
there are files of Python. -/
theorem restricted_iff {p : ProjectTree} {s : Settings Float} (hcheck : s.check = .ok ())
    (hlanguages : s.languages ≠ []) (hprimary : s.primaryLanguage = none) :
    ∃ x, s.exclusion = .ok x ∧ (p.Restricted s ↔
      (∃ name ∈ s.languages, 0 < (p.layout x).sourceFiles.get name) ∨
        Settings.fallbackLanguage ∈ s.languages ∨
          (p.layout x).sourceFiles.get Settings.fallbackLanguage = 0) := by
  have hsensible := Settings.sensible_of_check hcheck
  obtain ⟨x, hx⟩ := hsensible.exists_exclusion
  refine ⟨x, hx, fun h => ?_, fun hcovered => ?_⟩
  · by_contra hnot
    rw [not_or, not_or] at hnot
    obtain ⟨hnone, hpython, hcount⟩ := hnot
    -- no named language has files, so that Python is assumed and its files are read
    have hmain : Language.python.id = s.mainLanguage (p.layout x) := by
      rcases Settings.mainLanguage_spec (p.layout x) hlanguages hprimary with
        ⟨hmem, hpos⟩ | ⟨heq, -⟩
      · exact absurd ⟨_, hmem, hpos⟩ hnone
      · exact heq.symm
    have hpos : 0 < (p.layout x).sourceFiles.get Language.python.id := Nat.pos_of_ne_zero hcount
    have hwork := mainWork_of_files (r := .sound) hx hmain hpos rfl
    obtain ⟨f, hf⟩ := List.exists_mem_of_ne_nil _ (collect_ne_nil hpos hsensible.maxFiles)
    obtain ⟨l, hl, hmem⟩ := h.learnWork _ (mem_learnWork.2 ⟨_, hwork⟩) f hf
    rw [languageOf?_of_mem_collect hf] at hl
    obtain rfl := Option.some.inj hl
    exact hpython hmem
  · exact restricted_of_mainWork hlanguages fun w layout =>
      mem_languages_of_mainWork hx hlanguages hprimary hcovered

/-- A project with one file, of Python. -/
def onePython : ProjectTree := ⟨⟨"."⟩, [⟨["a.py"], some []⟩], []⟩

/-- Settings that name two other languages. -/
def goAndRust : Settings Float := { Settings.standard with languages := ["go", "rust"] }

theorem not_restricted_onePython :
    goAndRust.check = .ok () ∧ goAndRust.languages ≠ [] ∧ goAndRust.primaryLanguage = none ∧
      ¬ onePython.Restricted goAndRust := by
  refine ⟨rfl, by decide, rfl, fun h => ?_⟩
  obtain ⟨x, hx, hiff⟩ :=
    restricted_iff (p := onePython) (s := goAndRust) rfl (by decide) rfl
  have hlayout : (onePython.layout x).sourceFiles = Tally.ofLabels ["python"] := by
    obtain rfl := Except.ok.inj hx
    rfl
  rw [hlayout] at hiff
  rcases hiff.1 h with ⟨name, hname, hpos⟩ | hmem | hzero
  · revert name
    decide
  · revert hmem
    decide
  · revert hzero
    decide

end ProjectTree

end HouseStyle
