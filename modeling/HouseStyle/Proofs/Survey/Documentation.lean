import HouseStyle.Proofs.Number.Binary
import HouseStyle.Proofs.Settings.Check
import HouseStyle.Proofs.Survey.InStep
import HouseStyle.Proofs.Tally
import HouseStyle.Survey.LanguageFacts

/-!
# Doc comments are counted in step

A doc comment is counted three times: by how it begins, by its format, and by the function or type
that it documents.  What a reader notes is in step (`InStep`), so the counts of a file belong
together (`DocsInStep`), and adding up files keeps them together.
-/

namespace HouseStyle

open Survey

/-- Counts of doc comments that belong together: by how they begin and by their format there are
as many as functions and types with one, and these are not more than there are functions and
types. -/
structure DocsInStep (delimiters formats : Tally) (documented documentable : Nat) : Prop where
  delimiters_total : delimiters.total = documented
  formats_total : formats.total = documented
  documented_le : documented ≤ documentable

namespace DocsInStep

variable {delimiters formats delimiters' formats' : Tally}
variable {documented documentable documented' documentable' : Nat}

lemma nothing : DocsInStep .empty .empty 0 0 := ⟨rfl, rfl, Nat.le_refl 0⟩

/-- Counts that belong together are added up to such counts. -/
lemma merge (h : DocsInStep delimiters formats documented documentable)
    (h' : DocsInStep delimiters' formats' documented' documentable') :
    DocsInStep (delimiters.merge delimiters') (formats.merge formats')
      (documented + documented') (documentable + documentable') where
  delimiters_total := by rw [Tally.total_merge, h.delimiters_total, h'.delimiters_total]
  formats_total := by rw [Tally.total_merge, h.formats_total, h'.formats_total]
  documented_le := Nat.add_le_add h.documented_le h'.documented_le

end DocsInStep

/-! ## A file -/

/-- The counts of doc comments in a file belong together. -/
def FileFacts.DocsInStep (f : FileFacts) : Prop :=
  HouseStyle.DocsInStep f.docDelimiters f.docFormats f.documentedItems f.documentableItems

namespace Survey

variable {path : SourcePath} {language : String} {source : List Char} {found : List Finding}

/-- The documented functions and types of a file are those that were found. -/
lemma documentedItems_fileFacts : (fileFacts path language source found).documentedItems
    = found.countP Finding.isDocumented := by
  simp only [FileFacts.documentedItems, fileFacts]
  induction found with
  | nil => rfl
  | cons x found ih =>
    rw [List.countP_cons, ← ih]
    cases x with
    | function f =>
      have hfunctions : (.function f :: found).filterMap Finding.function?
        = f :: found.filterMap Finding.function? := rfl
      have htypes : (.function f :: found).filterMap Finding.type?
        = found.filterMap Finding.type? := rfl
      rw [hfunctions, htypes, List.countP_cons]
      exact Nat.add_right_comm ..
    | type t =>
      have hfunctions : (.type t :: found).filterMap Finding.function?
        = found.filterMap Finding.function? := rfl
      have htypes : (.type t :: found).filterMap Finding.type?
        = t :: found.filterMap Finding.type? := rfl
      rw [hfunctions, htypes, List.countP_cons]
      exact (Nat.add_assoc ..).symm
    | _ => rfl

/-- What is noted in step is counted in step. -/
lemma InStep.docsInStep (h : InStep found) : (fileFacts path language source found).DocsInStep where
  delimiters_total := by
    rw [documentedItems_fileFacts, ← h.delimiters, ← List.length_filterMap_eq_countP]
    exact Tally.total_ofLabels _
  formats_total := by
    rw [documentedItems_fileFacts, ← h.formats, ← List.length_filterMap_eq_countP,
      ← List.length_map (f := DocFormat.label)]
    exact Tally.total_ofLabels _
  documented_le := Nat.add_le_add List.countP_le_length List.countP_le_length

/-- Test frameworks have no doc comments. -/
lemma InStep.append_frameworks (h : InStep found) (labels : List String) :
    InStep (found ++ labels.map .framework) :=
  h.append (of_isAside (List.forall_mem_map.2 fun _ _ => rfl))

end Survey

lemma Grammar.Python.docsInStep_treeFacts (path : SourcePath) (source : List Char)
    (tree : PythonTree) : (treeFacts path source tree).DocsInStep :=
  ((Tree.inStep_search (inStep_visit source.toArray) [] .zero tree).append_frameworks _).docsInStep

lemma Grammar.Go.docsInStep_treeFacts (path : SourcePath) (source : List Char) (tree : GoTree) :
    (treeFacts path source tree).DocsInStep :=
  ((Tree.inStep_search (inStep_visit source.toArray) [] () tree).append_frameworks _).docsInStep

lemma Grammar.Rust.docsInStep_treeFacts (path : SourcePath) (source : List Char) (tree : RustTree) :
    (treeFacts path source tree).DocsInStep :=
  (Tree.inStep_search (inStep_visit source.toArray) [] () tree).docsInStep

lemma Script.docsInStep_read (dialect : Dialect) (language : String) (path : SourcePath)
    (source : List Char) : (read dialect language path source).DocsInStep := by
  have hquotes : Survey.InStep [.quotes (rescanned source).2] :=
    .of_isAside (List.forall_mem_singleton.2 rfl)
  exact (hquotes.append ((inStep_findings [] [] _).append_frameworks _)).docsInStep

/-! ### What is known about a file -/

namespace Survey

/-- What is known about a source file: what a reader says about its bytes or, where there is a
grammar, about a tree, whatever tree it is. -/
inductive Known : FileFacts → Prop where
  | source {language : Language} {path : SourcePath} {bytes : List UInt8} {f : FileFacts}
    (h : extract language path bytes = .ok f) : Known f
  | python (path : SourcePath) (source : List Char) (tree : Grammar.Python.PythonTree) :
    Known (Grammar.Python.treeFacts path source tree)
  | go (path : SourcePath) (source : List Char) (tree : Grammar.Go.GoTree) :
    Known (Grammar.Go.treeFacts path source tree)
  | rust (path : SourcePath) (source : List Char) (tree : Grammar.Rust.RustTree) :
    Known (Grammar.Rust.treeFacts path source tree)

/-- The doc comments of a file that can be read are counted in step, whichever reader it is. -/
lemma docsInStep_of_extract {language : Language} {path : SourcePath} {bytes : List UInt8}
    {f : FileFacts} (h : extract language path bytes = .ok f) : f.DocsInStep := by
  rw [extract] at h
  split at h
  · cases h
  next source _ =>
    split at h
    next hread =>
      obtain rfl := Except.ok.inj h
      cases language with
      | javascript | typescript =>
        obtain rfl := Option.some.inj hread
        exact Script.docsInStep_read ..
      | python =>
        obtain ⟨tree, rfl⟩ := Grammar.Python.exists_treeFacts hread
        exact Grammar.Python.docsInStep_treeFacts ..
      | go =>
        obtain ⟨tree, rfl⟩ := Grammar.Go.exists_treeFacts hread
        exact Grammar.Go.docsInStep_treeFacts ..
      | rust =>
        obtain ⟨tree, rfl⟩ := Grammar.Rust.exists_treeFacts hread
        exact Grammar.Rust.docsInStep_treeFacts ..
    next => cases h

lemma Known.docsInStep {f : FileFacts} (h : Known f) : f.DocsInStep := by
  cases h with
  | source h => exact docsInStep_of_extract h
  | python => exact Grammar.Python.docsInStep_treeFacts ..
  | go => exact Grammar.Go.docsInStep_treeFacts ..
  | rust => exact Grammar.Rust.docsInStep_treeFacts ..

end Survey

/-! ## All files of a language -/

namespace LanguageFacts

/-- The counts of doc comments in a language belong together. -/
def DocsInStep (facts : LanguageFacts) : Prop :=
  HouseStyle.DocsInStep facts.docDelimiters facts.docFormats facts.documentedItems
    facts.documentableItems

variable {facts : LanguageFacts} {language : String} {files : List FileFacts} {layout : Layout}

lemma DocsInStep.addFile (h : facts.DocsInStep) {f : FileFacts} (hf : f.DocsInStep) :
    (facts.addFile f).DocsInStep :=
  h.merge hf

lemma docsInStep_ofFiles (h : ∀ f ∈ files, f.DocsInStep) :
    (ofFiles language files layout).DocsInStep := by
  suffices hfold : ∀ facts : LanguageFacts, facts.DocsInStep →
      (files.foldl LanguageFacts.addFile facts).DocsInStep from
    hfold (empty language layout) HouseStyle.DocsInStep.nothing
  induction files with
  | nil => exact fun facts hfacts => hfacts
  | cons f files ih =>
    intro facts hfacts
    rw [List.forall_mem_cons] at h
    exact ih h.2 _ (hfacts.addFile h.1)

lemma documentableItems_ofFiles : (ofFiles language files layout).documentableItems
    = Count.sum (files.map FileFacts.documentableItems) := by
  rw [ofFiles, Count.foldl_eq_add LanguageFacts.documentableItems fun _ _ => rfl]
  exact Nat.zero_add _

lemma documentableItems_eq_zero_iff : (ofFiles language files layout).documentableItems = 0
    ↔ ∀ f ∈ files, f.functions = [] ∧ f.types = [] := by
  rw [documentableItems_ofFiles]
  induction files with
  | nil => simp
  | cons f files ih =>
    rw [List.map_cons, Count.sum_cons, Nat.add_eq_zero_iff, ih, List.forall_mem_cons,
      FileFacts.documentableItems, Nat.add_eq_zero_iff, List.length_eq_zero_iff,
      List.length_eq_zero_iff]

end LanguageFacts

/-- Doc comments are counted in step, in every file and in every list of files: by how they begin
and by their format there are as many as documented functions and types.  So the share of the
documented ones, which is missing where there are none at all, lies in the unit interval. -/
theorem docs_in_step {α : Type} [Scalar α] [LawfulScalar α] {files : List FileFacts}
    (h : ∀ f ∈ files, Survey.Known f) (language : String) (layout : Layout) :
    (∀ f ∈ files, f.DocsInStep) ∧
    (LanguageFacts.ofFiles language files layout).DocsInStep ∧
    ((LanguageFacts.ofFiles language files layout).documentationCoverage? = (none : Option α) ↔
      ∀ f ∈ files, f.functions = [] ∧ f.types = []) ∧
    ∀ coverage : α,
      (LanguageFacts.ofFiles language files layout).documentationCoverage? = some coverage →
        (LanguageFacts.ofFiles language files layout).documentableItems < Count.wordSize 64 →
          Scalar.FiniteWithin 0.0 1.0 coverage := by
  have hfiles : ∀ f ∈ files, f.DocsInStep := fun f hf => (h f hf).docsInStep
  have hmerged : (LanguageFacts.ofFiles language files layout).DocsInStep :=
    LanguageFacts.docsInStep_ofFiles hfiles
  refine ⟨hfiles, hmerged, ?_, fun coverage hcoverage hcount => ?_⟩
  · have hitems : (LanguageFacts.ofFiles language files layout).documentableItems = 0 ↔
        ∀ f ∈ files, f.functions = [] ∧ f.types = [] :=
      LanguageFacts.documentableItems_eq_zero_iff
    rw [← hitems, LanguageFacts.documentationCoverage?]
    split_ifs with hnone
    · simp [hnone]
    · simp [hnone]
  · rw [LanguageFacts.documentationCoverage?] at hcoverage
    split_ifs at hcoverage
    obtain rfl := Option.some.inj hcoverage
    exact Scalar.finiteWithin_share hmerged.documented_le (LawfulScalar.countsTo hcount)

/-- Two types below one doc comment, and a function without one. -/
def declaredPlaces : List UInt8 :=
  ("package places\n\n// Place is one.\ntype (\n  Place int\n  Street int\n)\n\n" ++
    "func f() \x7b\x7d\n").toUTF8.toList

/-- A function and a class with doc comments, and a function without one. -/
def scriptedPlaces : List UInt8 :=
  ("/** Adds. */\nfunction add(a, b) \x7b\n  return a + b\n\x7d\n\n" ++
    "// A place.\nclass Place \x7b\x7d\n\nfunction f() \x7b\x7d\n").toUTF8.toList

/-- Two types share a doc comment, which is counted for each of them. -/
theorem docs_in_step_places : ∃ declared scripted,
    Survey.extract .go "places.go" declaredPlaces = .ok declared ∧
    Survey.extract .javascript "places.js" scriptedPlaces = .ok scripted ∧
    (LanguageFacts.ofFiles "go" [declared, scripted] .empty).documentedItems = 4 ∧
    (LanguageFacts.ofFiles "go" [declared, scripted] .empty).docDelimiters.total = 4 ∧
    (LanguageFacts.ofFiles "go" [declared, scripted] .empty).docFormats.total = 4 ∧
    ∃ coverage : Float,
      (LanguageFacts.ofFiles "go" [declared, scripted] .empty).documentationCoverage?
        = some coverage ∧
      Scalar.FiniteWithin 0.0 1.0 coverage := by
  have hdeclared : ((Survey.extract .go "places.go" declaredPlaces).bind fun f =>
    .ok (f.documentedItems, f.documentableItems)) = .ok (2, 3) := by decide +kernel
  have hscripted : ((Survey.extract .javascript "places.js" scriptedPlaces).bind fun f =>
    .ok (f.documentedItems, f.documentableItems)) = .ok (2, 3) := by decide +kernel
  obtain ⟨declared, hd, hitems⟩ := exists_of_bind_eq_ok hdeclared
  obtain ⟨scripted, hs, hitems'⟩ := exists_of_bind_eq_ok hscripted
  rw [Except.ok.injEq, Prod.mk.injEq] at hitems hitems'
  have hknown : ∀ f ∈ [declared, scripted], Survey.Known f :=
    List.forall_mem_cons.2 ⟨.source hd, List.forall_mem_singleton.2 (.source hs)⟩
  obtain ⟨-, hmerged, -, hcoverage⟩ :=
    docs_in_step (α := Float) hknown "go" Layout.empty
  have hdocumented :
      (LanguageFacts.ofFiles "go" [declared, scripted] .empty).documentedItems = 4 := by
    have hsum : (LanguageFacts.ofFiles "go" [declared, scripted] .empty).documentedItems
      = 0 + declared.documentedItems + scripted.documentedItems := rfl
    omega
  have hdocumentable :
      (LanguageFacts.ofFiles "go" [declared, scripted] .empty).documentableItems = 6 := by
    have hsum : (LanguageFacts.ofFiles "go" [declared, scripted] .empty).documentableItems
      = 0 + declared.documentableItems + scripted.documentableItems := rfl
    omega
  have hcount : (LanguageFacts.ofFiles "go" [declared, scripted] .empty).documentableItems
      < Count.wordSize 64 := by
    rw [hdocumentable]
    decide
  refine ⟨declared, scripted, hd, hs, hdocumented, ?_, ?_, _, if_neg (by omega),
    hcoverage _ (if_neg (by omega)) hcount⟩
  · rw [hmerged.delimiters_total, hdocumented]
  · rw [hmerged.formats_total, hdocumented]

end HouseStyle
