import HouseStyle.Proofs.Project.Ignored
import HouseStyle.Proofs.Project.Inventory
import HouseStyle.Proofs.Snapshot.Save

/-!
# Files that are not read

What is learned of the main language of a project depends on its sources, the files that belong to
some language, and on the directories right below its root.  All other files are only counted, and
their number is not looked at (`ProjectTree.learnWith_sources`).

Neither a result nor its draft belongs to a language.  So nothing else is learned when a result has
been saved in a directory that was there before, whether or not this directory is a part of the
project (`Store.Published.learn_eq`).
-/

namespace HouseStyle

/-! ### The number of files -/

/-- The same layout with another number of files. -/
def Layout.recounted (n : Nat) (layout : Layout) : Layout := { layout with fileCount := n }

/-- The same facts about a project with another number of files. -/
def LanguageFacts.recounted (n : Nat) (facts : LanguageFacts) : LanguageFacts :=
  { facts with layout := facts.layout.recounted n }

lemma LanguageFacts.ofFiles_recounted (n : Nat) (language : String) (files : List FileFacts)
    (layout : Layout) :
    ofFiles language files (layout.recounted n) = (ofFiles language files layout).recounted n := by
  have hadd (facts : LanguageFacts) :
      files.foldl addFile (facts.recounted n) = (files.foldl addFile facts).recounted n := by
    induction files generalizing facts with
    | nil => rfl
    | cons f files ih => exact ih (facts.addFile f)
  exact hadd (empty language layout)

section Recounted

variable {α : Type} [Scalar α] [NumberText α]

/-- What is learned from some files of a project does not depend on how many others there are. -/
lemma Profile.learn_recounted (n : Nat) (accept : Acceptance α) (language : String)
    (files : List FileFacts) (skipped : Nat) (least now : α) (layout : Layout) :
    learn least now (.ofFiles accept language files skipped (layout.recounted n))
        (layout.recounted n)
      = learn least now (.ofFiles accept language files skipped layout) layout := by
  have hmetrics : LanguageMetrics.ofFiles accept language files
      ((LanguageFacts.ofFiles language files layout).recounted n)
      = LanguageMetrics.ofFiles accept language files (.ofFiles language files layout) := rfl
  rw [Analysis.ofFiles, Analysis.ofFiles, LanguageFacts.ofFiles_recounted, hmetrics]
  rfl

end Recounted

/-! ### Sources -/

namespace ProjectTree

/-- A project without the files that belong to no language. -/
def sources (p : ProjectTree) : ProjectTree :=
  { p with files := p.files.filter fun f => (p.languageOf? f).isSome }

variable {p : ProjectTree} {x : Exclusion} {l : Language}

lemma visible_sources :
    p.sources.visible x = (p.visible x).filter fun f => (p.languageOf? f).isSome :=
  List.filter_comm ..

/-- All files that are read are sources. -/
lemma collect_sources (limit : Option Nat) : p.sources.collect x limit l = p.collect x limit l := by
  have hsource (f : ProjectFile) :
      ((f.extension? p.root).any l.extensions.contains && (p.languageOf? f).isSome)
        = (f.extension? p.root).any l.extensions.contains := by
    cases hread : (f.extension? p.root).any l.extensions.contains with
    | false => rfl
    | true => rw [languageOf?_eq_some.2 hread]; rfl
  have hall : p.sources.collect x none l = p.collect x none l := by
    have hroot : p.sources.root = p.root := rfl
    rw [collect, collect, visible_sources, List.filter_filter, hroot]
    simp only [hsource]
  cases limit with
  | none => exact hall
  | some n => exact congrArg (List.take n) hall

lemma layout_sources :
    p.sources.layout x = (p.layout x).recounted (p.sources.visible x).length := by
  have hfiles : ((p.sources.visible x).filterMap fun f => (p.languageOf? f).map Language.id)
      = (p.visible x).filterMap fun f => (p.languageOf? f).map Language.id := by
    rw [visible_sources, List.filterMap_filter]
    congr 1
    funext f
    cases p.languageOf? f <;> rfl
  change (⟨_, Tally.ofLabels ((p.sources.visible x).filterMap fun f =>
    (p.languageOf? f).map Language.id), _⟩ : Layout) = _
  rw [hfiles]
  rfl

variable {α : Type} [Scalar α] [NumberText α]

/-- With a pattern that is none, nothing is learned from any project. -/
lemma learnWith_of_exclusion {r : Readers α} {s : Settings α} {fault : SettingsFault α}
    (hx : s.exclusion = .error fault) (now : α) :
    p.learnWith r s now = .error (.settings fault) := by
  rw [learnWith, analyzeMainWith, mainWork_of_error hx]
  rfl

/-- Only sources have an influence on what is learned of the main language. -/
theorem learnWith_sources (r : Readers α) (p : ProjectTree) (s : Settings α) (now : α) :
    p.sources.learnWith r s now = p.learnWith r s now := by
  cases hx : s.exclusion with
  | error fault => rw [learnWith_of_exclusion hx, learnWith_of_exclusion hx]
  | ok x =>
    have hwork : p.sources.mainWork r s = (p.mainWork r s).map fun w =>
        (w.1, w.2.recounted (p.sources.visible x).length) := by
      have hmain : s.mainLanguage ((p.layout x).recounted (p.sources.visible x).length)
          = s.mainLanguage (p.layout x) := rfl
      simp only [mainWork, hx, Except.mapError, bind, Except.bind, layout_sources, workload,
        collect_sources, hmain]
      cases Language.ofId? (s.mainLanguage (p.layout x)) with
      | none => rfl
      | some l =>
        change (if (p.layout x).sourceFiles.get (s.mainLanguage (p.layout x)) = 0 then _ else _) = _
        split_ifs
        · rfl
        · dsimp only
          cases r l <;> rfl
    rw [learnWith, learnWith, analyzeMainWith, analyzeMainWith, hwork]
    cases p.mainWork r s with
    | error fault => rfl
    | ok w => exact congrArg Except.ok (Profile.learn_recounted _ _ _ _ _ _ _ _)

/-! ### Projects on disks -/

/-- Projects look alike but for files of no language if the disks hold the same directories, and
the same entries with names of sources. -/
lemma alike_sources {d e : Disk} {root : Path} {place : DiskPlace} (hd : d.Listed) (he : e.Listed)
    (hdirs : ∀ q, e.get? q = some .directory ↔ d.get? q = some .directory)
    (hfiles : ∀ names ≠ [], ((PathPart.extension? (root.parts ++ names.map .entry)).bind
      Language.ofExtension?).isSome → e.get? (place ++ names) = d.get? (place ++ names))
    (x : Exclusion) :
    Alike x (ofDirectory d root place).sources (ofDirectory e root place).sources := by
  have hdistinct {d : Disk} (hd : d.Listed) :
      (((ofDirectory d root place).sources.visible x).map ProjectFile.names).Nodup :=
    (nodup_names_ofDirectory hd root place).sublist
      ((List.filter_sublist.trans List.filter_sublist).map _)
  refine ⟨rfl, ?_, hdistinct hd, fun name => ?_⟩
  · refine (List.perm_ext_iff_of_nodup (hdistinct hd).of_map (hdistinct he).of_map).2 fun f => ?_
    rw [visible_sources, visible_sources, List.mem_filter, List.mem_filter,
      mem_visible_ofDirectory hd, mem_visible_ofDirectory he]
    refine and_congr_left fun hsource => and_congr_right fun hnil => ?_
    rw [hfiles f.names hnil hsource]
  · change name ∈ (ofDirectory d root place).topDirs.filter x.admitsDir ↔
      name ∈ (ofDirectory e root place).topDirs.filter x.admitsDir
    rw [List.mem_filter, List.mem_filter, mem_topDirs_ofDirectory hd, mem_topDirs_ofDirectory he,
      hdirs]

end ProjectTree

/-- The extension of a path of names below a root is that of the last name. -/
lemma PathPart.extension?_concat (front : List PathPart) (name : EntryName) :
    extension? (front ++ [.entry name]) = name.extension? := by
  rw [extension?, fileName?, List.getLast?_concat]
  rfl

/-! ### Saving a result -/

namespace Store

variable {α β : Type} {t : Store} {format : SavedFormat α β} {text : String} {d e : Disk}
  {place : DiskPlace}

/-- Saving a result neither makes nor removes a directory. -/
lemma Published.get?_eq_directory_iff (h : t.Published format text d e place) (q : DiskPlace) :
    e.get? q = some .directory ↔ d.get? q = some .directory := by
  rw [h.get?]
  split_ifs with hresult hdraft
  · subst hresult
    simp [h.result]
  · subst hdraft
    simp [h.draft.ne_directory]
  · rfl

/-- Saving a result changes nothing at the names of sources. -/
lemma Published.get?_of_source (h : t.Published format text d e place)
    (hext : ∀ name ∈ [format.fileName, format.fileName ++ ".tmp"],
      (EntryName.text name).extension?.bind Language.ofExtension? = none)
    {root : Path} {q : DiskPlace} {names : List EntryName} (hnil : names ≠ [])
    (hsource : ((PathPart.extension? (root.parts ++ names.map .entry)).bind
      Language.ofExtension?).isSome) :
    e.get? (q ++ names) = d.get? (q ++ names) := by
  have hother : ∀ name ∈ [format.fileName, format.fileName ++ ".tmp"],
      q ++ names ≠ place ++ [.text name] := by
    intro name hmem heq
    obtain ⟨front, last, rfl⟩ := (List.eq_nil_or_concat names).resolve_left hnil
    rw [List.concat_eq_append, ← List.append_assoc] at heq
    obtain rfl : last = .text name := by simpa using (List.append_inj' heq rfl).2
    rw [List.concat_eq_append, List.map_append, ← List.append_assoc, List.map_singleton,
      PathPart.extension?_concat, hext name hmem] at hsource
    cases hsource
  rw [h.get?, if_neg (hother _ (by simp)), if_neg (hother _ (by simp))]

/-- Saving a result changes nothing in what is learned of the main language. -/
theorem Published.learn_eq [Scalar α] [NumberText α] (h : t.Published format text d e place)
    (hlisted : d.Listed) (hlisted' : e.Listed) (hend : d.DeadEnd place format.fileName)
    (hext : ∀ name ∈ [format.fileName, format.fileName ++ ".tmp"],
      (EntryName.text name).extension?.bind Language.ofExtension? = none)
    {root : Path} (hroot : d.isDirectory root = true) (s : Settings α) (now : α) :
    (e.project root).bind (fun p => p.learn s now)
      = (d.project root).bind fun p => p.learn s now := by
  obtain ⟨q, hleads⟩ := (Disk.isDirectory_iff d root).1 hroot
  rw [Disk.project_of_leads hleads, Disk.project_of_leads ((h.leads_iff hend).2 hleads)]
  change ProjectTree.learnWith .sound _ s now = ProjectTree.learnWith .sound _ s now
  cases hx : s.exclusion with
  | error fault =>
    rw [ProjectTree.learnWith_of_exclusion hx, ProjectTree.learnWith_of_exclusion hx]
  | ok x =>
    have halike : ProjectTree.Alike x (ProjectTree.ofDirectory d root q).sources
        (ProjectTree.ofDirectory e root q).sources :=
      ProjectTree.alike_sources hlisted hlisted' h.get?_eq_directory_iff
        (fun names hnil => h.get?_of_source hext hnil) x
    rw [← ProjectTree.learnWith_sources .sound (.ofDirectory d root q),
      ← ProjectTree.learnWith_sources .sound (.ofDirectory e root q)]
    exact (halike.learnWith hx .sound now).symm

end Store

end HouseStyle
