import HouseStyle.Proofs.EntryName
import HouseStyle.Proofs.Project.Listed
import HouseStyle.Proofs.Project.Restriction

/-!
# The files that are counted and the files that are read

The layout of a project counts its files by language, and for the analysis of a language its files
are collected.  Both look at the extensions, the layout in the table of all extensions and the
collection in that of the language (`Language.ofExtension?_eq_some`), so they agree about every
file.  Files are collected in the order of their paths, and therefore a limit on their number keeps
the first of them (`ProjectTree.Inventoried`).

A language without files in the layout is not read.  It is one of which nothing would be collected
(`ProjectTree.SkipsEmpty`).
-/

namespace HouseStyle

/-! ### The order of paths -/

namespace PathPart

lemma listBefore_self (as : List PathPart) : listBefore as as = false := by
  induction as with
  | nil => rfl
  | cons a as ih => rw [listBefore, if_pos rfl, ih]

lemma listBefore_append (front as bs : List PathPart) :
    listBefore (front ++ as) (front ++ bs) = listBefore as bs := by
  induction front with
  | nil => rfl
  | cons a front ih => rw [List.cons_append, List.cons_append, listBefore, if_pos rfl, ih]

end PathPart

/-- Below a root, the paths of two files are ordered as the names on the way to them. -/
lemma ProjectFile.listBefore_partsFrom (root : Path) (f g : ProjectFile) :
    PathPart.listBefore (f.partsFrom root) (g.partsFrom root) = f.before g :=
  PathPart.listBefore_append _ _ _

/-! ### Counting by extension -/

/-- As many files are counted for a language as have one of its extensions, whatever is taken for
the extension of a file. -/
lemma Language.count_ofExtension? {φ : Type} (extension? : φ → Option String) (files : List φ)
    (l : Language) :
    (files.filterMap fun f => ((extension? f).bind ofExtension?).map id).count l.id
      = (files.filter fun f => (extension? f).any l.extensions.contains).length := by
  induction files with
  | nil => rfl
  | cons f files ih =>
    have howner : (extension? f).any l.extensions.contains = true ↔
        (extension? f).bind ofExtension? = some l := by
      rw [Option.bind_eq_some_iff, Option.any_eq_true]
      simp only [ofExtension?_eq_some, List.contains_iff_mem]
    cases hl : (extension? f).bind ofExtension? with
    | none =>
      have hnot : ¬ (extension? f).any l.extensions.contains = true := by simp [howner, hl]
      simp only [List.filterMap_cons, hl, Option.map_none, List.filter_cons, if_neg hnot, ih]
    | some l' =>
      simp only [List.filterMap_cons, hl, Option.map_some]
      by_cases heq : l' = l
      · have hmem : (extension? f).any l.extensions.contains = true := by rw [howner, hl, heq]
        rw [heq, List.count_cons_self, ih, List.filter_cons, if_pos hmem, List.length_cons]
      · have hnot : ¬ (extension? f).any l.extensions.contains = true := by simp [howner, hl, heq]
        rw [List.count_cons_of_ne (fun h => heq (id_injective h)), ih, List.filter_cons,
          if_neg hnot]

namespace ProjectTree

/-- Whether the layout of a project and the lists of the files of its languages agree. -/
structure Inventoried (p : ProjectTree) (x : Exclusion) : Prop where
  /-- The layout counts the files that are listed without a limit. -/
  count : ∀ l : Language, (p.layout x).sourceFiles.get l.id = (p.collect x none l).length
  /-- No file is counted twice, and no file that is none of the project. -/
  total : (p.layout x).sourceFiles.total ≤ (p.layout x).fileCount
  /-- The files of a language are listed in the strict order of their paths. -/
  ascending : ∀ limit l, ((p.collect x limit l).map (·.partsFrom p.root)).Pairwise
    fun a b => PathPart.listBefore a b = true
  /-- The paths that are listed are different. -/
  distinct : ∀ limit l, ((p.collect x limit l).map (·.partsFrom p.root)).Nodup
  /-- A limit keeps the first files. -/
  first : ∀ n l, p.collect x (some n) l = (p.collect x none l).take n

/-- Whether with some settings a language is left out of the analysis exactly if a project has no
file of it: then there is nothing to read, and only otherwise does its reader matter. -/
structure SkipsEmpty {α : Type} (p : ProjectTree) (x : Exclusion) (r : Readers α)
    (s : Settings α) : Prop where
  main : ∀ l : Language, l.id = s.mainLanguage (p.layout x) →
    p.mainWork r s = if p.collect x none l = [] then .ok (⟨l, []⟩, p.layout x)
      else (r l).map fun _ => (p.workload x s.maxFiles l, p.layout x)
  all : p.allWork r s = .ok ((s.knownLanguages.filter fun l =>
    decide (p.collect x none l ≠ []) && (r l).isOk).map (p.workload x s.maxFiles), p.layout x)
  limited : s.maxFiles ≠ some 0 → ∀ l, p.collect x s.maxFiles l = [] ↔ p.collect x none l = []

variable {p : ProjectTree} {x : Exclusion} {l : Language}

lemma get_sourceFiles_id (p : ProjectTree) (x : Exclusion) (l : Language) :
    (p.layout x).sourceFiles.get l.id = (p.collect x none l).length := by
  rw [layout, Tally.get_ofLabels, collect, List.length_mergeSort]
  exact Language.count_ofExtension? (fun f => f.extension? p.root) (p.visible x) l

lemma total_sourceFiles_le (p : ProjectTree) (x : Exclusion) :
    (p.layout x).sourceFiles.total ≤ (p.layout x).fileCount := by
  rw [layout, Tally.total_ofLabels]
  exact List.length_filterMap_le _ _

lemma sourceFiles_eq_zero_iff :
    (p.layout x).sourceFiles.get l.id = 0 ↔ p.collect x none l = [] := by
  rw [get_sourceFiles_id, List.length_eq_zero_iff]

/-! ### The order of the files that are read -/

/-- The files of a language are listed in the strict order of the names on the way to them. -/
lemma pairwise_collect_none (hnames : (p.files.map ProjectFile.names).Nodup) :
    (p.collect x none l).Pairwise fun f g => f.before g = true := by
  have hsorted : (p.collect x none l).Pairwise fun f g => (!g.before f) = true := by
    refine List.pairwise_mergeSort (fun a b c hab hbc => ?_) (fun a b => ?_) _
    · rw [ProjectFile.not_before_iff] at hab hbc ⊢
      exact List.le_trans hab hbc
    · rw [Bool.or_eq_true_iff, ProjectFile.not_before_iff, ProjectFile.not_before_iff]
      exact List.le_total _ _
  have hdistinct : (p.collect x none l).Pairwise fun f g => f.names ≠ g.names := by
    refine List.pairwise_map.1 (((List.mergeSort_perm _ _).map _).nodup_iff.2 ?_)
    exact hnames.sublist ((List.filter_sublist.trans List.filter_sublist).map _)
  refine (hsorted.and hdistinct).imp fun {f g} h => ?_
  by_contra hbefore
  exact h.2 (ProjectFile.names_eq_of_not_before (by simpa using hbefore) h.1)

/-- The files of a language are listed in the strict order of their paths. -/
lemma pairwise_collect {d : Disk} (hd : d.Listed) (root : Path) (x : Exclusion)
    (limit : Option Nat) (l : Language) :
    (((ofDisk d root).collect x limit l).map (·.partsFrom (ofDisk d root).root)).Pairwise
      fun a b => PathPart.listBefore a b = true := by
  have hall : ((ofDisk d root).collect x none l).Pairwise fun f g => f.before g = true :=
    pairwise_collect_none (nodup_names hd root)
  rw [List.pairwise_map]
  simp only [ProjectFile.listBefore_partsFrom]
  cases limit with
  | none => exact hall
  | some n =>
    rw [collect_some]
    exact hall.sublist (List.take_sublist _ _)

lemma inventoried_ofDisk {d : Disk} (hd : d.Listed) (root : Path) (x : Exclusion) :
    (ofDisk d root).Inventoried x where
  count := get_sourceFiles_id _ x
  total := total_sourceFiles_le _ x
  ascending := pairwise_collect hd root x
  distinct limit l := by
    refine (pairwise_collect hd root x limit l).imp fun {a b} hbefore heq => ?_
    rw [heq, PathPart.listBefore_self] at hbefore
    cases hbefore
  first n l := collect_some n

/-! ### Languages that are not read -/

lemma skipsEmpty {α : Type} {s : Settings α} (p : ProjectTree) (hx : s.exclusion = .ok x)
    (r : Readers α) : p.SkipsEmpty x r s where
  main l hl := by
    simp only [mainWork, hx, Except.mapError, bind, Except.bind, ← hl, Language.ofId?_id,
      sourceFiles_eq_zero_iff]
    split_ifs
    · rfl
    · cases r l <;> rfl
  all := by
    have hpresent (l : Language) : decide (0 < (p.layout x).sourceFiles.get l.id)
        = decide (p.collect x none l ≠ []) := by
      rw [decide_eq_decide, Nat.pos_iff_ne_zero, ne_eq, sourceFiles_eq_zero_iff]
    simp only [allWork, hx, Except.mapError, bind, Except.bind, hpresent]
  limited hlimit l := by
    refine ⟨fun hnil => ?_, fun hnil => ?_⟩
    · by_contra hne
      refine collect_ne_nil (Nat.pos_of_ne_zero ?_) hlimit hnil
      rwa [ne_eq, sourceFiles_eq_zero_iff]
    · cases hmax : s.maxFiles with
      | none => exact hnil
      | some n => rw [collect_some, hnil, List.take_nil]

/-- The layout of a project and what is read of it agree: each extension belongs to one language at
most, the layout counts the files that are listed, they are listed in the order of their paths, and
the languages that are not read are those without files. -/
theorem layout_agrees_collect {α : Type} {d : Disk} (hd : d.Listed) (root : Path)
    (x : Exclusion) :
    (∀ e l, Language.ofExtension? e = some l ↔ e ∈ l.extensions) ∧
      (ofDisk d root).Inventoried x ∧
        ∀ (s : Settings α) (r : Readers α), s.exclusion = .ok x →
          (ofDisk d root).SkipsEmpty x r s :=
  ⟨fun _ _ => Language.ofExtension?_eq_some, inventoried_ofDisk hd root x,
    fun _ r hx => skipsEmpty _ hx r⟩

/-- A disk with names that have no extension, several dots, or nothing before the dot, and with
names that are no texts: one that starts with a dot, and one whose extension is no text. -/
def dotted : Disk :=
  ⟨[(["b.test.py"], .file (Text.encode "x = 1\n") .all), (["README"], .file [] .all),
    (["py"], .file [] .all), ([".py"], .file [] .all), (["lib"], .directory),
    (["lib", "a.pyi"], .file [] ⟨false, true⟩), (["lib", "a.d.ts"], .file [] .all),
    ([rawDotted], .file [] .all),
    ([.raw ⟨[0x61, 0x2E, 0x70, 0x79, 0xFF], by decide⟩], .file [] .all)], [], .none⟩

theorem layout_agrees_collect_dotted :
    let p := ofDisk dotted ⟨"."⟩
    let x : Exclusion := ⟨Settings.neverSources, []⟩
    dotted.Listed ∧ (Settings.standard : Settings Float).exclusion = .ok x ∧
      p.Inventoried x ∧ p.SkipsEmpty x .sound (Settings.standard : Settings Float) ∧
        (p.collect x none .python).length = 3 ∧ (p.collect x none .typescript).length = 1 ∧
          p.collect x none .go = [] := by
  intro p x
  have hlisted : dotted.Listed := by decide
  obtain ⟨-, hagree, hskip⟩ :=
    layout_agrees_collect (α := Float) hlisted ⟨"."⟩ ⟨Settings.neverSources, []⟩
  have hcount (l : Language) : (p.collect x none l).length
      = (((ofDirectory dotted ⟨"."⟩ []).layout x).sourceFiles.get l.id) := by
    rw [← hagree.count l, ofDisk_of_leads (Disk.leads_here dotted)]
    rfl
  have hgo : (p.collect x none .go).length = 0 := by rw [hcount]; decide +kernel
  refine ⟨hlisted, rfl, hagree, hskip _ _ rfl, ?_, ?_, List.length_eq_zero_iff.1 hgo⟩
  · rw [hcount]
    decide +kernel
  · rw [hcount]
    decide +kernel

end ProjectTree

end HouseStyle
