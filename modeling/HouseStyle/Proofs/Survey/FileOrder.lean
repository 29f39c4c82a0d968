import HouseStyle.Profile.Basic
import HouseStyle.Proofs.Json.WholeNumber
import HouseStyle.Proofs.Tally
import HouseStyle.Survey.Measure

/-!
# The order of files

What is known about a language is added up over its files.  Sums, greatest values and tallies do
not depend on the order in which this is done; only the lists of names do, and of these only the
order is seen in the end, in the names that are shown as examples of a style.  So two analyses of
the same files agree but for that (`Analysis.Reordered`), and so do the profiles that are learned
from them.
-/

namespace HouseStyle

/-! ### What does not depend on the order -/

/-- A convention without the examples that it owes to the order of the names. -/
def Convention.unillustrated {α : Type} (c : Convention α) : Convention α :=
  if c.kind = .naming then { c with examples := [] } else c

/-- The facts about a language without its names. -/
def LanguageFacts.unnamed (facts : LanguageFacts) : LanguageFacts := { facts with names := .empty }

/-- The measures of a language without the examples of its naming styles. -/
def LanguageMetrics.unillustrated {α : Type} (m : LanguageMetrics α) : LanguageMetrics α :=
  { m with conventions := m.conventions.map Convention.unillustrated }

/-- A profile without the examples of naming styles. -/
def Profile.unillustrated {α : Type} (p : Profile α) : Profile α :=
  { p with conventions := p.conventions.map Convention.unillustrated }

/-- Two analyses of the same files in different orders: they differ in the order of the files and
of the names of each kind, and in the examples of the naming styles. -/
structure Analysis.Reordered {α : Type} (a b : Analysis α) : Prop where
  language : a.language = b.language
  skipped : a.skippedFiles = b.skippedFiles
  files : a.files.Perm b.files
  names : ∀ kind, (a.facts.names.get kind).Perm (b.facts.names.get kind)
  facts : a.facts.unnamed = b.facts.unnamed
  metrics : a.metrics.unillustrated = b.metrics.unillustrated

/-! ### Sums -/

lemma QuoteCount.add_right_comm (q r s : QuoteCount) : q + r + s = q + s + r := by
  change QuoteCount.mk (_ + _ + _) (_ + _ + _) = QuoteCount.mk _ _
  rw [Nat.add_right_comm q.single, Nat.add_right_comm q.double]
  rfl

lemma Indentation.add_right_comm (i j k : Indentation) : i + j + k = i + k + j := by
  change Indentation.mk (_ + _ + _) (_ + _ + _) ((Tally.merge _ _).merge _) = Indentation.mk _ _ _
  rw [Nat.add_right_comm i.spaceLines, Nat.add_right_comm i.tabLines, Tally.merge_right_comm]
  rfl

lemma LineStats.add_right_comm (r s t : LineStats) : r + s + t = r + t + s := by
  have hmax : max (max r.maxLength s.maxLength) t.maxLength
      = max (max r.maxLength t.maxLength) s.maxLength := by omega
  change LineStats.mk (_ + _ + _) (_ + _ + _) (max (max _ _) _) = LineStats.mk _ _ _
  rw [hmax, Nat.add_right_comm r.lines, Nat.add_right_comm r.totalLength]
  rfl

lemma LineStats.sum_congr {l l' : List LineStats} (h : l.Perm l') :
    LineStats.sum l = LineStats.sum l' :=
  h.foldl_eq' (fun s _ t _ r => add_right_comm r s t) LineStats.none

/-! ### Facts -/

namespace LanguageFacts

variable {files files' : List FileFacts}

/-- The facts about two more files are the same in either order, but for the names. -/
lemma unnamed_addFile_right_comm (facts : LanguageFacts) (f g : FileFacts) :
    ((facts.addFile f).addFile g).unnamed = ((facts.addFile g).addFile f).unnamed := by
  dsimp only [unnamed, addFile]
  congr 1
  · exact QuoteCount.add_right_comm ..
  · exact Indentation.add_right_comm ..
  · exact Tally.merge_right_comm ..
  · exact Tally.merge_right_comm ..
  · exact Tally.merge_right_comm ..
  · exact Tally.merge_right_comm ..
  · exact Nat.add_right_comm ..
  · exact Nat.add_right_comm ..

/-- The names stay out of all other sums. -/
lemma unnamed_addFile_unnamed (facts : LanguageFacts) (f : FileFacts) :
    (facts.unnamed.addFile f).unnamed = (facts.addFile f).unnamed := rfl

lemma unnamed_foldl_addFile (facts : LanguageFacts) :
    (files.foldl addFile facts).unnamed
      = files.foldl (fun facts f => (facts.addFile f).unnamed) facts.unnamed := by
  induction files generalizing facts with
  | nil => rfl
  | cons f files ih => rw [List.foldl_cons, ih, List.foldl_cons, unnamed_addFile_unnamed]

/-- The order of the files makes no difference but for the names. -/
lemma unnamed_ofFiles_congr (h : files.Perm files') (language : String) (layout : Layout) :
    (ofFiles language files layout).unnamed = (ofFiles language files' layout).unnamed := by
  rw [ofFiles, ofFiles, unnamed_foldl_addFile, unnamed_foldl_addFile]
  refine h.foldl_eq' (fun f _ g _ facts => ?_) _
  rw [unnamed_addFile_unnamed, unnamed_addFile_unnamed, unnamed_addFile_right_comm]

/-- The names of all files follow each other. -/
lemma get_names_ofFiles (files : List FileFacts) (language : String) (layout : Layout)
    (kind : NameKind) : (ofFiles language files layout).names.get kind
      = files.flatMap fun f => f.names.get kind := by
  have hfold (facts : LanguageFacts) : (files.foldl addFile facts).names.get kind
      = facts.names.get kind ++ files.flatMap fun f => f.names.get kind := by
    induction files generalizing facts with
    | nil => simp
    | cons f files ih =>
      rw [List.foldl_cons, ih, List.flatMap_cons, ← List.append_assoc]
      congr 1
      exact Names.get_ofKinds _ kind
  rw [ofFiles, hfold]
  exact congrArg (· ++ _) (Names.get_empty kind)

end LanguageFacts

/-! ### Conventions -/

lemma Names.styleTally_congr {names names' : List String} (h : names.Perm names') :
    styleTally names = styleTally names' :=
  Tally.ofLabels_congr ((h.filterMap _).map _)

namespace Convention

@[simp] lemma confidence_unillustrated {α : Type} (c : Convention α) :
    c.unillustrated.confidence = c.confidence := by
  rw [unillustrated]
  split <;> rfl

variable {α : Type} [Scalar α] {accept : Acceptance α} {facts facts' : LanguageFacts}

/-- The examples have no influence on what a tally shows. -/
lemma unillustrated_ofTally? (name : String) (tally : Tally) (examples examples' : List String) :
    (ofTally? accept .naming name tally examples).map unillustrated
      = (ofTally? accept .naming name tally examples').map unillustrated := by
  rw [ofTally?, ofTally?]
  cases tally.dominant? with
  | none => rfl
  | some d =>
    dsimp only
    split_ifs <;> rfl

lemma unillustrated_ofNames? (kind : NameKind) {names names' : List String}
    (h : names.Perm names') : (ofNames? accept kind names).map unillustrated
      = (ofNames? accept kind names').map unillustrated := by
  rw [ofNames?, ofNames?, Names.styleTally_congr h]
  exact unillustrated_ofTally? ..

lemma unillustrated_naming
    (h : ∀ kind, (facts.names.get kind).Perm (facts'.names.get kind)) :
    (naming accept facts).map unillustrated = (naming accept facts').map unillustrated := by
  rw [naming, naming, List.map_filterMap, List.map_filterMap]
  congr 1
  funext kind
  exact unillustrated_ofNames? kind (h kind)

variable [NumberText α]

/-- Only the conventions about names depend on the names. -/
lemma observed_unnamed {kind : ConventionKind} (h : kind ≠ .naming) :
    observed kind accept facts.unnamed = observed kind accept facts := by
  cases kind
  · exact absurd rfl h
  all_goals rfl

lemma unillustrated_observed (kind : ConventionKind) (hfacts : facts.unnamed = facts'.unnamed)
    (hnames : ∀ kind, (facts.names.get kind).Perm (facts'.names.get kind)) :
    (observed kind accept facts).map unillustrated
      = (observed kind accept facts').map unillustrated := by
  by_cases hkind : kind = .naming
  · subst hkind
    have hfilter (l : List (Convention α)) :
        (l.filter fun c => Scalar.le accept.floor c.confidence).map unillustrated
          = (l.map unillustrated).filter fun c => Scalar.le accept.floor c.confidence := by
      rw [List.filter_map]
      simp only [Function.comp_def, confidence_unillustrated]
    rw [observed, observed, hfilter, hfilter, unillustrated_naming hnames]
  · rw [← observed_unnamed hkind, hfacts, observed_unnamed hkind]

lemma unillustrated_allObserved (hfacts : facts.unnamed = facts'.unnamed)
    (hnames : ∀ kind, (facts.names.get kind).Perm (facts'.names.get kind)) :
    (allObserved accept facts).map unillustrated
      = (allObserved accept facts').map unillustrated := by
  rw [allObserved, allObserved, List.map_flatMap, List.map_flatMap]
  congr 1
  funext kind
  exact unillustrated_observed kind hfacts hnames

end Convention

/-! ### Measures -/

section Measures

variable {α : Type} [Scalar α]

lemma LanguageMetrics.functionMean_congr {functions functions' : List FunctionFacts}
    (h : functions.Perm functions') (count : FunctionFacts → Nat) :
    (functionMean functions count : α) = functionMean functions' count := by
  rw [functionMean, functionMean, Count.sum_congr (h.map count), h.length_eq]

lemma LanguageMetrics.namingTallies_congr {facts facts' : LanguageFacts}
    (h : ∀ kind, (facts.names.get kind).Perm (facts'.names.get kind)) :
    namingTallies facts = namingTallies facts' := by
  rw [namingTallies, namingTallies]
  congr 1
  funext kind
  exact Names.styleTally_congr (h kind)

variable [NumberText α]

lemma LanguageMetrics.unillustrated_ofFiles {files files' : List FileFacts}
    {facts facts' : LanguageFacts} (h : files.Perm files') (hfacts : facts.unnamed = facts'.unnamed)
    (hnames : ∀ kind, (facts.names.get kind).Perm (facts'.names.get kind))
    (accept : Acceptance α) (language : String) :
    (ofFiles accept language files facts).unillustrated
      = (ofFiles accept language files' facts').unillustrated := by
  rw [ofFiles, ofFiles, h.isEmpty_eq]
  split
  · rfl
  · have hquotes : facts.unnamed.quotes = facts'.unnamed.quotes := by rw [hfacts]
    have hindentation : facts.unnamed.indentation = facts'.unnamed.indentation := by rw [hfacts]
    have hstyle : (agreement [facts.quotes.tally, facts.indentation.tally] : α)
        = agreement [facts'.quotes.tally, facts'.indentation.tally] := by
      change agreement [facts.unnamed.quotes.tally, facts.unnamed.indentation.tally] = _
      rw [hquotes, hindentation]
      rfl
    simp only [unillustrated, h.length_eq, Count.sum_congr (h.map FileFacts.totalLines),
      functionMean_congr (h.flatMap_right FileFacts.functions), namingTallies_congr hnames, hstyle,
      LineStats.sum_congr (h.map FileFacts.lineStats),
      Convention.unillustrated_allObserved hfacts hnames]

/-- The order of the files is seen in an analysis only where the names are listed or shown. -/
lemma Analysis.reordered_ofFiles {files files' : List FileFacts} (h : files.Perm files')
    (accept : Acceptance α) (language : String) (skipped : Nat) (layout : Layout) :
    Reordered (ofFiles accept language files skipped layout)
      (ofFiles accept language files' skipped layout) := by
  have hfacts := LanguageFacts.unnamed_ofFiles_congr h language layout
  have hnames (kind : NameKind) :
      ((LanguageFacts.ofFiles language files layout).names.get kind).Perm
        ((LanguageFacts.ofFiles language files' layout).names.get kind) := by
    rw [LanguageFacts.get_names_ofFiles, LanguageFacts.get_names_ofFiles]
    exact h.flatMap_right _
  exact ⟨rfl, rfl, h, hnames, hfacts,
    LanguageMetrics.unillustrated_ofFiles h hfacts hnames accept language⟩

end Measures

/-! ### Profiles -/

section Profiles

variable {α : Type} {a b : Analysis α}

namespace Analysis.Reordered

lemma avgComplexity (h : a.Reordered b) : a.metrics.avgComplexity = b.metrics.avgComplexity := by
  change a.metrics.unillustrated.avgComplexity = _
  rw [h.metrics]
  rfl

lemma lineStats (h : a.Reordered b) : a.metrics.lineStats = b.metrics.lineStats := by
  change a.metrics.unillustrated.lineStats = _
  rw [h.metrics]
  rfl

lemma hasData (h : a.Reordered b) : a.metrics.hasData = b.metrics.hasData := by
  change a.metrics.unillustrated.hasData = _
  rw [h.metrics]
  rfl

lemma conventions (h : a.Reordered b) : a.metrics.conventions.map Convention.unillustrated
    = b.metrics.conventions.map Convention.unillustrated :=
  congrArg LanguageMetrics.conventions h.metrics

lemma docFormats (h : a.Reordered b) : a.facts.docFormats = b.facts.docFormats := by
  change a.facts.unnamed.docFormats = _
  rw [h.facts]
  rfl

variable [Scalar α]

lemma documentationCoverage? (h : a.Reordered b) :
    (a.facts.documentationCoverage? : Option α) = b.facts.documentationCoverage? := by
  change a.facts.unnamed.documentationCoverage? = _
  rw [h.facts]
  rfl

lemma testFileRatio? (h : a.Reordered b) : a.testFileRatio? = b.testFileRatio? := by
  rw [Analysis.testFileRatio?, Analysis.testFileRatio?, h.files.isEmpty_eq, h.files.countP_eq,
    h.files.length_eq]

lemma wildcardRatio? (h : a.Reordered b) : a.wildcardRatio? = b.wildcardRatio? := by
  have himports : a.imports.Perm b.imports := h.files.flatMap_right _
  rw [Analysis.wildcardRatio?, Analysis.wildcardRatio?, himports.isEmpty_eq, himports.countP_eq,
    himports.length_eq]

/-- The axes of maturity measure the same. -/
lemma measure (h : a.Reordered b) (layout : Layout) :
    MaturityAxes.measure a layout = MaturityAxes.measure b layout := by
  have hany : (a.files.any fun f => !f.functions.isEmpty)
      = b.files.any fun f => !f.functions.isEmpty := h.files.any_eq
  rw [MaturityAxes.measure, MaturityAxes.measure, h.documentationCoverage?, h.testFileRatio?, hany,
    h.avgComplexity, h.files.isEmpty_eq, h.files.length_eq, h.wildcardRatio?]

/-- The team seems to prefer the same. -/
lemma preferencesOf (h : a.Reordered b) : Profile.preferencesOf a = Profile.preferencesOf b := by
  have hextensions : a.extensions = b.extensions := Tally.ofLabels_congr (h.files.filterMap _)
  have hframeworks : a.testFrameworks = b.testFrameworks := Tally.mergeAll_congr (h.files.map _)
  rw [Profile.preferencesOf, Profile.preferencesOf, hextensions, hframeworks, h.docFormats,
    h.hasData, h.avgComplexity]

/-- The same conventions are accepted, but for the examples. -/
lemma accepted (h : a.Reordered b) (least : α) :
    (Profile.accepted least a.metrics.conventions).map Convention.unillustrated
      = (Profile.accepted least b.metrics.conventions).map Convention.unillustrated := by
  have haccepted (l : List (Convention α)) :
      (Profile.accepted least l).map Convention.unillustrated
        = Profile.accepted least (l.map Convention.unillustrated) := by
    rw [Profile.accepted, Profile.accepted, List.filter_map]
    simp only [Function.comp_def, Convention.confidence_unillustrated]
  rw [haccepted, haccepted, h.conventions]

end Analysis.Reordered

variable [Scalar α]

/-- The mean confidence does not depend on the examples. -/
lemma Profile.meanConfidence_unillustrated (conventions : List (Convention α)) :
    meanConfidence (conventions.map Convention.unillustrated) = meanConfidence conventions := by
  rw [meanConfidence, meanConfidence, List.isEmpty_map, List.map_map]
  congr 3
  funext c
  exact Convention.confidence_unillustrated c

/-- Neither do the settings of the tools. -/
lemma Toolchain.settings_unillustrated (tools : Toolchain) (language : String) (c : Convention α) :
    tools.settings language c.unillustrated = tools.settings language c := by
  rw [Convention.unillustrated]
  split
  · cases tools <;> rfl
  · rfl

lemma Rules.derive_unillustrated (language : String) (conventions : List (Convention α))
    (lines : LineStats) : derive language (conventions.map Convention.unillustrated) lines
      = derive language conventions lines := by
  rw [derive, derive]
  cases Toolchain.ofLanguage? language with
  | none => rfl
  | some tools =>
    simp only [settingsOf, List.flatMap_map, Toolchain.settings_unillustrated]

/-- The same is learned from both, but for the examples. -/
lemma Analysis.Reordered.learn (h : a.Reordered b) (least now : α) (layout : Layout) :
    (Profile.learn least now a layout).unillustrated
      = (Profile.learn least now b layout).unillustrated := by
  have hmean : Profile.meanConfidence (Profile.accepted least a.metrics.conventions)
      = Profile.meanConfidence (Profile.accepted least b.metrics.conventions) := by
    rw [← Profile.meanConfidence_unillustrated, h.accepted, Profile.meanConfidence_unillustrated]
  have hrules (language : String) (lines : LineStats) :
      Rules.derive language (Profile.accepted least a.metrics.conventions) lines
        = Rules.derive language (Profile.accepted least b.metrics.conventions) lines := by
    rw [← Rules.derive_unillustrated, h.accepted, Rules.derive_unillustrated]
  simp only [Profile.unillustrated, Profile.learn, Profile.recommended, h.language, h.measure,
    hmean, h.accepted, hrules, h.lineStats, h.preferencesOf]

variable [NumberText α]

/-- The order of the files of a language makes no difference to what is known about the language
or learned from it, but for the order of its names and the examples of its naming styles. -/
theorem Analysis.ofFiles_congr {files files' : List FileFacts} (h : files.Perm files')
    (accept : Acceptance α) (language : String) (skipped : Nat) (layout : Layout) :
    Analysis.Reordered (.ofFiles accept language files skipped layout)
      (.ofFiles accept language files' skipped layout) ∧
    ∀ (least now : α) (project : Layout),
      (Profile.learn least now (.ofFiles accept language files skipped layout)
          project).unillustrated
        = (Profile.learn least now (.ofFiles accept language files' skipped layout)
          project).unillustrated := by
  have hreordered := Analysis.reordered_ofFiles h accept language skipped layout
  exact ⟨hreordered, hreordered.learn⟩

/-- A script with one function of some name. -/
def oneFunction (file function : String) : FileFacts :=
  Survey.fileFacts file "javascript" [] [.name ⟨.function, function⟩]

/-- The scripts `load.js` and `save.js` in both orders: all that differs is the order in which the
names of their functions are shown. -/
theorem Analysis.ofFiles_congr_load_save :
    let load := oneFunction "load.js" "loadUser"
    let save := oneFunction "save.js" "saveUser"
    let accept : Acceptance WholeNumber := ⟨⟨0⟩, ⟨0⟩⟩
    let one : Analysis WholeNumber := .ofFiles accept "javascript" [load, save] 0 .empty
    let other : Analysis WholeNumber := .ofFiles accept "javascript" [save, load] 0 .empty
    [load, save].Perm [save, load] ∧ one.Reordered other ∧
    (Profile.learn ⟨0⟩ ⟨0⟩ one .empty).unillustrated
      = (Profile.learn ⟨0⟩ ⟨0⟩ other .empty).unillustrated ∧
    one.metrics.conventions.map Convention.examples = [["loadUser", "saveUser"]] ∧
    other.metrics.conventions.map Convention.examples = [["saveUser", "loadUser"]] := by
  intro load save accept one other
  have hperm : [load, save].Perm [save, load] := .swap save load []
  obtain ⟨hreordered, hlearn⟩ := Analysis.ofFiles_congr hperm accept "javascript" 0 .empty
  exact ⟨hperm, hreordered, hlearn ⟨0⟩ ⟨0⟩ .empty, by decide +kernel, by decide +kernel⟩

end Profiles

end HouseStyle
