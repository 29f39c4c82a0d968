import HouseStyle.Proofs.Project.Listed
import HouseStyle.Proofs.Project.SharedScan
import HouseStyle.Proofs.Tally

/-!
# What is ignored has no influence

Hidden entries and excluded directories are left out with everything below them, links and files
with excluded paths by themselves.  All of this is decided by the names on the way to an entry and
by the kind of the entry (`Exclusion.keeps`), both for the files of a project and for its top
directories.

If two disks hold the same entries that are kept, then the layouts of the two projects are equal,
and so are the files to read of each language, after sorting and with the same limit.  These
determine everything that is learned (`sameFindings_of_sameBelow`).
-/

namespace HouseStyle

/-! ### Entries that are kept -/

namespace Exclusion

/-- Whether the entry at the end of some names is kept. -/
def keeps (x : Exclusion) (names : List EntryName) : DiskEntry → Bool
  | .directory => names.all x.admitsDir
  | .file _ _ => x.admits names
  | .link _ => false

/-- Whether two disks hold the same entries below two places, of those that are kept. -/
def SameBelow (x : Exclusion) (d : Disk) (place : DiskPlace) (d' : Disk) (place' : DiskPlace) :
    Prop :=
  ∀ names ≠ [], (d.get? (place ++ names)).filter (x.keeps names)
    = (d'.get? (place' ++ names)).filter (x.keeps names)

/-- What is listed under the text that is shown for its name belongs to the project. -/
lemma admitsDir_of_admitsTop (x : Exclusion) {name : EntryName}
    (h : x.admitsTop name.lossy = true) : x.admitsDir name = true := by
  cases name with
  | text name => exact h
  | raw name => exact (Bool.and_eq_true_iff.1 h).2

/-- Nothing at a hidden name or below it is kept. -/
lemma keeps_of_hidden (x : Exclusion) {names : List EntryName} {name : EntryName}
    (hmem : name ∈ names) (h : isHidden name = true) (e : DiskEntry) : x.keeps names e = false := by
  have hdir : x.admitsDir name = false := by rw [admitsDir, h]; rfl
  have hfile : x.admits names = false := by
    rcases List.eq_nil_or_concat names with rfl | ⟨front, last, rfl⟩
    · cases hmem
    · rw [List.concat_eq_append, List.mem_append, List.mem_singleton] at hmem
      rw [admits, List.concat_eq_append, List.dropLast_concat, List.getLast?_concat]
      rcases hmem with hmem | rfl
      · rw [List.all_eq_false.2 ⟨name, hmem, by simp [hdir]⟩, Bool.false_and, Bool.false_and]
      · simp [h]
  cases e with
  | directory => exact List.all_eq_false.2 ⟨name, hmem, by simp [hdir]⟩
  | link target => rfl
  | file bytes rights => exact hfile

/-- Entries on disks do not matter if one of the names on the way to them is hidden. -/
lemma sameBelow_of_shown (x : Exclusion) {d d' : Disk} {place place' : DiskPlace}
    (h : ∀ names, (∀ name ∈ names, isHidden name = false) →
      d'.get? (place' ++ names) = d.get? (place ++ names)) : x.SameBelow d place d' place' := by
  intro names _
  by_cases hshown : ∀ name ∈ names, isHidden name = false
  · rw [h names hshown]
  · push Not at hshown
    obtain ⟨name, hmem, hhidden⟩ := hshown
    have hnone : x.keeps names = fun _ => false := by
      funext e
      exact x.keeps_of_hidden hmem (by simpa using hhidden) e
    rw [hnone]
    simp

end Exclusion

namespace Layout

lemma get?_names (l : List String) (name : String) :
    (names l).get? name = if name ∈ l then some () else none := by
  split
  next h =>
    rw [names, SortedMap.get?_ofList, Option.map_eq_some_iff]
    have hfound : ((l.map fun name => (name, ())).reverse.find? fun e => e.1 == name).isSome := by
      rw [List.isSome_find?]
      simpa using h
    obtain ⟨e, he⟩ := Option.isSome_iff_exists.1 hfound
    exact ⟨e, he, rfl⟩
  next h =>
    refine Option.eq_none_iff_forall_ne_some.2 fun u hu => h ?_
    obtain ⟨name', hname, heq⟩ := List.mem_map.1 (SortedMap.mem_of_get?_ofList hu)
    rwa [← (Prod.mk.inj heq).1]

lemma names_congr {l l' : List String} (h : ∀ name, name ∈ l ↔ name ∈ l') : names l = names l' :=
  SortedMap.ext_get? fun name => by rw [get?_names, get?_names, if_congr (h name) rfl rfl]

end Layout

/-! ### Projects that look alike -/

namespace ProjectTree

/-- Whether two projects with the same root have the same visible files and top directories. -/
structure Alike (x : Exclusion) (p p' : ProjectTree) : Prop where
  root : p.root = p'.root
  files : (p.visible x).Perm (p'.visible x)
  distinct : ((p.visible x).map ProjectFile.names).Nodup
  dirs : ∀ name, name ∈ p.topDirs.filter x.admitsDir ↔ name ∈ p'.topDirs.filter x.admitsDir

section Alike

variable {x : Exclusion} {p p' : ProjectTree}

/-- The directories that are listed in the layout are among those that belong to the project. -/
lemma mem_listed_topDirs {text : String} :
    text ∈ (p.topDirs.map EntryName.lossy).filter x.admitsTop ↔
      x.admitsTop text = true ∧ ∃ name ∈ p.topDirs.filter x.admitsDir, name.lossy = text := by
  rw [List.mem_filter, List.mem_map]
  constructor
  · rintro ⟨⟨name, hname, rfl⟩, hadmits⟩
    exact ⟨hadmits, name, List.mem_filter.2 ⟨hname, x.admitsDir_of_admitsTop hadmits⟩, rfl⟩
  · rintro ⟨hadmits, name, hname, rfl⟩
    exact ⟨⟨name, (List.mem_filter.1 hname).1, rfl⟩, hadmits⟩

lemma Alike.layout (h : Alike x p p') : p.layout x = p'.layout x := by
  have hlanguage : p.languageOf? = p'.languageOf? := by
    funext f
    rw [languageOf?, languageOf?, h.root]
  have hdirs : ∀ text, text ∈ (p.topDirs.map EntryName.lossy).filter x.admitsTop ↔
      text ∈ (p'.topDirs.map EntryName.lossy).filter x.admitsTop := by
    intro text
    rw [mem_listed_topDirs, mem_listed_topDirs]
    simp only [h.dirs]
  rw [ProjectTree.layout, ProjectTree.layout, Layout.names_congr hdirs, h.files.length_eq,
    hlanguage, Tally.ofLabels_congr (h.files.filterMap _)]

/-- The limit is for the files that are left, so it leaves the same ones of them. -/
lemma Alike.collect (h : Alike x p p') (limit : Option Nat) (l : Language) :
    p.collect x limit l = p'.collect x limit l := by
  have hall : p.collect x none l = p'.collect x none l := by
    rw [ProjectTree.collect, ProjectTree.collect, h.root]
    refine ProjectFile.mergeSort_before_congr (h.files.filter _) ?_
    exact h.distinct.sublist (List.filter_sublist.map _)
  cases limit with
  | none => exact hall
  | some n => exact congrArg (List.take n) hall

variable {α : Type} {s : Settings α}

lemma Alike.mainWork (h : Alike x p p') (hx : s.exclusion = .ok x) (r : Readers α) :
    p.mainWork r s = p'.mainWork r s := by
  simp only [ProjectTree.mainWork, hx, Except.mapError, bind, Except.bind, h.layout, workload,
    h.collect]

lemma Alike.allWork (h : Alike x p p') (hx : s.exclusion = .ok x) (r : Readers α) :
    p.allWork r s = p'.allWork r s := by
  have hwork : p.workload x s.maxFiles = p'.workload x s.maxFiles := by
    funext l
    rw [workload, workload, h.collect]
  simp only [ProjectTree.allWork, hx, Except.mapError, bind, Except.bind, h.layout, hwork]

variable [Scalar α] [NumberText α]

lemma Alike.learnWith (h : Alike x p p') (hx : s.exclusion = .ok x) (r : Readers α) (now : α) :
    p.learnWith r s now = p'.learnWith r s now := by
  rw [ProjectTree.learnWith, ProjectTree.learnWith, analyzeMainWith, analyzeMainWith,
    h.mainWork hx]

lemma Alike.analyzeAllWith (h : Alike x p p') (hx : s.exclusion = .ok x) (r : Readers α) :
    p.analyzeAllWith r s = p'.analyzeAllWith r s := by
  rw [ProjectTree.analyzeAllWith, ProjectTree.analyzeAllWith, h.allWork hx]

end Alike

/-! ### Projects on disks -/

variable {x : Exclusion} {d d' : Disk} {root : Path} {place place' : DiskPlace}

/-- The visible files of a project are the ones that are kept. -/
lemma mem_visible_ofDirectory (hd : d.Listed) {f : ProjectFile} :
    f ∈ (ofDirectory d root place).visible x ↔ f.names ≠ [] ∧
      ∃ e, (d.get? (place ++ f.names)).filter (x.keeps f.names) = some e ∧
        ProjectFile.ofEntry? f.names e = some f := by
  have hkeeps {e : DiskEntry} (he : ProjectFile.ofEntry? f.names e = some f) :
      x.keeps f.names e = x.admits f.names := by
    cases e with
    | file bytes rights => rfl
    | directory | link target => cases he
  rw [visible, List.mem_filter, mem_files_ofDirectory hd]
  constructor
  · rintro ⟨⟨hnil, e, he, hf⟩, hadmits⟩
    exact ⟨hnil, e, Option.filter_eq_some_iff.2 ⟨he, (hkeeps hf).trans hadmits⟩, hf⟩
  · rintro ⟨hnil, e, he, hf⟩
    obtain ⟨he, hkept⟩ := Option.filter_eq_some_iff.1 he
    exact ⟨⟨hnil, e, he, hf⟩, (hkeeps hf).symm.trans hkept⟩

lemma mem_visible_topDirs_ofDirectory (hd : d.Listed) {name : EntryName} :
    name ∈ (ofDirectory d root place).topDirs.filter x.admitsDir ↔
      (d.get? (place ++ [name])).filter (x.keeps [name]) = some .directory := by
  rw [List.mem_filter, mem_topDirs_ofDirectory hd, Option.filter_eq_some_iff]
  simp [Exclusion.keeps]

/-- Projects look alike if the disks hold the same entries that are kept. -/
lemma alike_of_sameBelow (hd : d.Listed) (hd' : d'.Listed)
    (h : x.SameBelow d place d' place') (root : Path) :
    Alike x (ofDirectory d root place) (ofDirectory d' root place') := by
  have hdistinct {d : Disk} (hd : d.Listed) (place : DiskPlace) :
      (((ofDirectory d root place).visible x).map ProjectFile.names).Nodup :=
    (nodup_names_ofDirectory hd root place).sublist (List.filter_sublist.map _)
  refine ⟨rfl, ?_, hdistinct hd place, fun name => ?_⟩
  · refine (List.perm_ext_iff_of_nodup (hdistinct hd place).of_map
      (hdistinct hd' place').of_map).2 fun f => ?_
    rw [mem_visible_ofDirectory hd, mem_visible_ofDirectory hd']
    exact and_congr_right fun hnil => by rw [h f.names hnil]
  · rw [mem_visible_topDirs_ofDirectory hd, mem_visible_topDirs_ofDirectory hd',
      h [name] (by simp)]

end ProjectTree

/-! ### What is learned -/

/-- An overview that was made at another time. -/
def Overview.retimed {α : Type} (now : α) (o : Overview α) : Overview α :=
  { o with primary := o.primary.map fun q => { q with generatedAt := now }, generatedAt := now }

namespace ProjectTree

variable {α : Type} [Scalar α] [NumberText α]

/-- The time at which an overview is made is only noted in it and in its profile. -/
lemma overviewWith_now {r : Readers α} {p : ProjectTree} {s : Settings α} (now now' : α) :
    p.overviewWith r s now = (p.overviewWith r s now').map (Overview.retimed now) := by
  rw [overviewWith_eq, overviewWith_eq, learnWith_now now now']
  cases p.analyzeAllWith r s with
  | error fault => rfl
  | ok a => cases p.learnWith r s now' <;> rfl

end ProjectTree

/-- Whether everything that is learned from two disks is the same, but for the time. -/
structure Disk.SameFindings {α : Type} [Scalar α] [NumberText α] (s : Settings α) (root : Path)
    (d d' : Disk) : Prop where
  learn : ∀ now now' : α, ((d'.project root).bind fun p => p.learn s now')
    = ((d.project root).bind fun p => p.learn s now).map fun q => { q with generatedAt := now' }
  analyze : ((d'.project root).bind fun p => p.analyze s)
    = (d.project root).bind fun p => p.analyze s
  overview : ∀ now now' : α, ((d'.project root).bind fun p => p.overview s now')
    = ((d.project root).bind fun p => p.overview s now).map (Overview.retimed now')

lemma Disk.project_of_leads {α : Type} {d : Disk} {root : Path} {place : DiskPlace}
    (h : d.Leads root place) :
    (d.project root : Except (ProjectFault α) ProjectTree) = .ok (.ofDirectory d root place) := by
  rw [Disk.project, if_pos ((Disk.isDirectory_iff d root).2 ⟨place, h⟩),
    ProjectTree.ofDisk_of_leads h]

/-- What is not kept has no influence on what is learned. -/
theorem sameFindings_of_sameBelow {α : Type} [Scalar α] [NumberText α] {s : Settings α}
    {d d' : Disk} {root : Path} {place place' : DiskPlace} (hd : d.Listed) (hd' : d'.Listed)
    (h : d.Leads root place) (h' : d'.Leads root place')
    (hsame : ∀ x, s.exclusion = .ok x → x.SameBelow d place d' place') :
    d.SameFindings s root d' := by
  let p := ProjectTree.ofDirectory d root place
  let p' := ProjectTree.ofDirectory d' root place'
  obtain ⟨hlearn, hall⟩ : (∀ now : α, p'.learn s now = p.learn s now) ∧
      p'.analyzeAll s = p.analyzeAll s := by
    cases hx : s.exclusion with
    | error fault =>
      refine ⟨fun now => ?_, ?_⟩
      · rw [ProjectTree.learn, ProjectTree.learn, ProjectTree.learnWith, ProjectTree.learnWith,
          ProjectTree.analyzeMainWith, ProjectTree.analyzeMainWith,
          ProjectTree.mainWork_of_error hx, ProjectTree.mainWork_of_error hx]
      · rw [ProjectTree.analyzeAll, ProjectTree.analyzeAll, ProjectTree.analyzeAllWith,
          ProjectTree.analyzeAllWith, ProjectTree.allWork_of_error hx,
          ProjectTree.allWork_of_error hx]
    | ok x =>
      have halike := ProjectTree.alike_of_sameBelow hd hd' (hsame x hx) root
      exact ⟨fun now => (halike.learnWith hx .sound now).symm,
        (halike.analyzeAllWith hx .sound).symm⟩
  have hproject := Disk.project_of_leads (α := α) h
  have hproject' := Disk.project_of_leads (α := α) h'
  refine ⟨fun now now' => ?_, ?_, fun now now' => ?_⟩
  · rw [hproject, hproject']
    change p'.learn s now' = (p.learn s now).map _
    rw [hlearn]
    exact ProjectTree.learnWith_now now' now
  · rw [hproject, hproject']
    change p'.analyze s = p.analyze s
    rw [ProjectTree.analyze, ProjectTree.analyze, hall]
  · rw [hproject, hproject']
    change p'.overviewWith .sound s now' = (p.overviewWith .sound s now).map _
    rw [← ProjectTree.overviewWith_now, ProjectTree.overviewWith_eq, ProjectTree.overviewWith_eq]
    change (p'.analyzeAll s).bind (fun a => (p'.learn s now').map _) = _
    rw [hall, hlearn]
    rfl

end HouseStyle
