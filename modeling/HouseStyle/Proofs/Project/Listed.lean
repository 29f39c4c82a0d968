import HouseStyle.Project.Tree
import HouseStyle.Proofs.EntryName
import HouseStyle.Proofs.Project.Place
import Mathlib.Data.List.Nodup

/-!
# The files of a project, one by one

A disk lists each place once.  So the files of a project have different names on the way to them,
and different paths (`nodup_paths`).  If all these names are texts, then the paths look different
too (`nodup_texts`).  What belongs to a project is found by looking at the places of the disk
(`mem_files_ofDirectory`, `mem_topDirs_ofDirectory`), and a list of its files in the order of their
paths is determined by its members (`mergeSort_before_congr`).
-/

namespace HouseStyle

/-- Whether a name is a text: not empty, without a slash, and not made of dots that have a
meaning. -/
def EntryName.IsText : EntryName → Prop
  | text name => Path.IsName name
  | raw _ => False

instance (name : EntryName) : Decidable name.IsText :=
  match name with
  | .text name => inferInstanceAs (Decidable (Path.IsName name))
  | .raw _ => inferInstanceAs (Decidable False)

/-! ### Disks that list each place once -/

namespace Disk

/-- Whether each place is listed once. -/
def Listed (d : Disk) : Prop := d.entries.Pairwise fun a b => a.1 ≠ b.1

/-- Whether all names of entries are texts. -/
def Textual (d : Disk) : Prop := ∀ x ∈ d.entries, ∀ name ∈ x.1, name.IsText

instance (d : Disk) : Decidable d.Listed := inferInstanceAs (Decidable (List.Pairwise _ _))

instance (d : Disk) : Decidable d.Textual :=
  inferInstanceAs (Decidable (∀ x ∈ d.entries, ∀ name ∈ x.1, name.IsText))

variable {d : Disk} {place : DiskPlace} {entry : DiskEntry}

lemma Listed.mem_entries_iff (h : d.Listed) (hplace : place ≠ []) :
    (place, entry) ∈ d.entries ↔ d.get? place = some entry := by
  refine ⟨fun hmem => ?_, mem_entries_of_get? hplace⟩
  rw [get?, if_neg (by simpa using hplace), List.lookup_eq_some_iff]
  obtain ⟨before, behind, hentries⟩ := List.append_of_mem hmem
  refine ⟨before, behind, hentries, fun x hx => ?_⟩
  rw [Listed, hentries, List.pairwise_append] at h
  simpa using (h.2.2 x hx _ List.mem_cons_self).symm

lemma Listed.set (h : d.Listed) (place : DiskPlace) (entry : DiskEntry) :
    (d.set place entry).Listed := by
  refine List.pairwise_cons.2 ⟨fun x hx => ?_, h.filter _⟩
  simpa using (bne_iff_ne.1 (List.mem_filter.1 hx).2).symm

lemma Listed.erase (h : d.Listed) (place : DiskPlace) : (d.erase place).Listed := h.filter _

lemma unlessRefused_snd {p : Disk → Prop} (hd : p d) {act : DiskAct} {change : DiskChange}
    (h : p change.2) : p (d.unlessRefused act change).2 := by
  rw [unlessRefused]
  split
  · exact hd
  · exact h

lemma Listed.write (hd : d.Listed) (p : Path) (bytes : List UInt8) :
    (d.write p bytes).2.Listed := by
  have hfill (q : DiskPlace) (rights : FileRights) : (d.fill q bytes rights).2.Listed := by
    rw [Disk.fill]
    split
    · exact hd.set _ _
    · exact hd.set _ _
  rw [Disk.write]
  split
  · exact hd
  · split
    · exact hd
    · exact hd
    · exact hd
    · split
      · exact unlessRefused_snd hd (hfill _ _)
      · exact hd
    · exact unlessRefused_snd hd (hfill _ _)

lemma Listed.rename (hd : d.Listed) (source target : Path) :
    (d.rename source target).2.Listed := by
  rw [Disk.rename]
  split
  · exact hd
  · exact hd
  · exact hd
  · exact hd
  · exact hd
  · exact unlessRefused_snd (p := Listed) hd ((hd.erase _).set _ _)

end Disk

/-! ### Paths of names -/

namespace Path

lemma splitAt_join {names : List String} (hnil : names ≠ [])
    (hnames : ∀ name ∈ names, IsName name) :
    Text.splitAt '/' (Text.join "/" names).toList = names.map String.toList := by
  rw [Text.join]
  induction names with
  | nil => exact absurd rfl hnil
  | cons name rest ih =>
    rw [List.forall_mem_cons] at hnames
    have hname := Text.splitAt_of_not_mem hnames.1.2.1
    cases rest with
    | nil => simpa using hname
    | cons next rest =>
      have hjoin : ("/".intercalate (name :: next :: rest)).toList
          = name.toList ++ '/' :: ("/".intercalate (next :: rest)).toList := by
        simp
      rw [hjoin, Text.splitAt_append, hname, ih (by simp) hnames.2]
      rfl

/-- Names can be read off the text of a path that is made of them. -/
lemma join_inj {names names' : List String} (hnames : ∀ name ∈ names, IsName name)
    (hnames' : ∀ name ∈ names', IsName name) (h : Text.join "/" names = Text.join "/" names') :
    names = names' := by
  have hempty {ns : List String} (hns : ∀ name ∈ ns, IsName name)
      (heq : Text.join "/" ns = Text.join "/" []) : ns = [] := by
    by_contra hnil
    have hsplit := splitAt_join hnil hns
    rw [heq] at hsplit
    obtain ⟨name, rest, rfl⟩ := List.exists_cons_of_ne_nil hnil
    rw [List.forall_mem_cons] at hns
    exact hns.1.1 (List.cons.inj hsplit).1.symm
  by_cases hnil : names = []
  · subst hnil
    exact (hempty hnames' h.symm).symm
  · by_cases hnil' : names' = []
    · subst hnil'
      exact hempty hnames h
    · have hsplit := splitAt_join hnil hnames
      rw [h, splitAt_join hnil' hnames'] at hsplit
      exact (List.map_inj_right fun _ _ => String.toList_inj.1).1 hsplit.symm

end Path

/-- Names that are texts can be read off what is shown for a path that is made of them. -/
lemma SourcePath.ofNames_text_inj {names names' : List EntryName}
    (hnames : ∀ name ∈ names, name.IsText) (hnames' : ∀ name ∈ names', name.IsText)
    (h : (ofNames names).text = (ofNames names').text) : names = names' := by
  have htexts {ns : List EntryName} (hns : ∀ name ∈ ns, name.IsText) :
      (∀ name ∈ ns.map EntryName.lossy, Path.IsName name) ∧
        (ns.map EntryName.lossy).map EntryName.text = ns := by
    induction ns with
    | nil => exact ⟨nofun, rfl⟩
    | cons name ns ih =>
      rw [List.forall_mem_cons] at hns
      cases name with
      | text name =>
        obtain ⟨hrest, heq⟩ := ih hns.2
        exact ⟨List.forall_mem_cons.2 ⟨hns.1, hrest⟩, congrArg (EntryName.text name :: ·) heq⟩
      | raw name => exact hns.1.elim
  rw [← (htexts hnames).2, ← (htexts hnames').2,
    Path.join_inj (htexts hnames).1 (htexts hnames').1 h]

/-! ### The order of files -/

/-- A sorted list is determined by its members, if the order tells any two of them apart. -/
lemma mergeSort_congr {γ : Type} {le : γ → γ → Bool} {l l' : List γ}
    (htrans : ∀ a b c, le a b = true → le b c = true → le a c = true)
    (htotal : ∀ a b, le a b = true ∨ le b a = true) (h : l.Perm l')
    (hantisymm : ∀ a ∈ l, ∀ b ∈ l, le a b = true → le b a = true → a = b) :
    l.mergeSort le = l'.mergeSort le := by
  have hsorted (l : List γ) : (l.mergeSort le).Pairwise fun a b => le a b = true :=
    List.pairwise_mergeSort htrans (fun a b => Bool.or_eq_true_iff.2 (htotal a b)) l
  have hperm := (l.mergeSort_perm le).trans (h.trans (l'.mergeSort_perm le).symm)
  refine hperm.eq_of_pairwise (fun a b ha hb => ?_) (hsorted l) (hsorted l')
  exact hantisymm a (List.mem_mergeSort.1 ha) b (h.mem_iff.2 (List.mem_mergeSort.1 hb))

namespace ProjectFile

variable {f g : ProjectFile}

/-- The order of files is the order of the bytes of the names on the way to them. -/
lemma before_iff :
    f.before g = true ↔ f.names.map EntryName.bytes < g.names.map EntryName.bytes := by
  rw [before]
  generalize f.names = ns
  generalize g.names = ms
  induction ns generalizing ms with
  | nil => cases ms <;> simp [PathPart.listBefore]
  | cons n ns ih =>
    cases ms with
    | nil => simp [PathPart.listBefore]
    | cons m ms =>
      rw [List.map_cons, List.map_cons, List.map_cons, List.map_cons, List.cons_lt_cons_iff,
        PathPart.listBefore]
      by_cases h : n = m
      · simp [h, ih, List.lt_irrefl]
      · simp [h, PathPart.before, EntryName.bytes_injective.eq_iff]

lemma not_before_iff : (!f.before g) = true ↔
    g.names.map EntryName.bytes ≤ f.names.map EntryName.bytes := by
  rw [Bool.not_eq_true', Bool.eq_false_iff, ne_eq, before_iff, List.not_lt]

lemma names_eq_of_not_before (h : (!f.before g) = true) (h' : (!g.before f) = true) :
    f.names = g.names := by
  rw [not_before_iff] at h h'
  exact (List.map_inj_right fun _ _ => EntryName.bytes_injective.eq_iff.1).1 (List.le_antisymm h' h)

/-- A list of files with different names is determined by its members if it is in order. -/
lemma mergeSort_before_congr {l l' : List ProjectFile} (h : l.Perm l')
    (hl : (l.map names).Nodup) :
    l.mergeSort (fun f g => !g.before f) = l'.mergeSort fun f g => !g.before f := by
  refine mergeSort_congr ?_ ?_ h fun f hf g hg hfg hgf => ?_
  · intro a b c hab hbc
    rw [not_before_iff] at hab hbc ⊢
    exact List.le_trans hab hbc
  · intro a b
    rw [not_before_iff, not_before_iff]
    exact List.le_total _ _
  · exact List.inj_on_of_nodup_map hl hf hg (names_eq_of_not_before hgf hfg)

lemma names_of_ofEntry? {names : List EntryName} {e : DiskEntry} (h : ofEntry? names e = some f) :
    f.names = names := by
  cases e with
  | file bytes rights => rw [← Option.some.inj h]
  | directory | link target => cases h

end ProjectFile

/-! ### What belongs to a project -/

namespace ProjectTree

variable {d : Disk} {root : Path} {place : DiskPlace}

lemma namesBelow?_eq_some {e : DiskPlace × DiskEntry} {names : List EntryName} {entry : DiskEntry} :
    namesBelow? place e = some (names, entry) ↔ names ≠ [] ∧ e = (place ++ names, entry) := by
  rw [namesBelow?]
  constructor
  · intro h
    split at h
    next hbelow =>
      obtain ⟨hpre, hlength⟩ := Bool.and_eq_true_iff.1 hbelow
      obtain ⟨rest, hrest⟩ := List.isPrefixOf_iff_prefix.1 hpre
      obtain ⟨rfl, rfl⟩ := Prod.mk.inj (Option.some.inj h)
      rw [← hrest, List.length_append, decide_eq_true_eq] at hlength
      rw [← hrest, List.drop_left]
      refine ⟨List.ne_nil_of_length_pos (by omega), ?_⟩
      rw [hrest]
    next => cases h
  · rintro ⟨hnames, rfl⟩
    simp [List.length_pos_iff.2 hnames]

/-- The files of a project are the files below its root. -/
lemma mem_files_ofDirectory (hd : d.Listed) {f : ProjectFile} :
    f ∈ (ofDirectory d root place).files ↔ f.names ≠ [] ∧
      ∃ e, d.get? (place ++ f.names) = some e ∧ ProjectFile.ofEntry? f.names e = some f := by
  simp only [ofDirectory, List.mem_filterMap]
  constructor
  · rintro ⟨⟨names, e⟩, ⟨x, hx, hbelow⟩, hf⟩
    obtain ⟨hnil, rfl⟩ := namesBelow?_eq_some.1 hbelow
    obtain rfl := ProjectFile.names_of_ofEntry? hf
    exact ⟨hnil, e, (hd.mem_entries_iff (by simp [hnil])).1 hx, hf⟩
  · rintro ⟨hnil, e, he, hf⟩
    exact ⟨(f.names, e), ⟨_, (hd.mem_entries_iff (by simp [hnil])).2 he,
      namesBelow?_eq_some.2 ⟨hnil, rfl⟩⟩, hf⟩

/-- The directories right below the root of a project. -/
lemma mem_topDirs_ofDirectory (hd : d.Listed) {name : EntryName} :
    name ∈ (ofDirectory d root place).topDirs ↔ d.get? (place ++ [name]) = some .directory := by
  simp only [ofDirectory, List.mem_filterMap]
  constructor
  · rintro ⟨⟨names, e⟩, ⟨x, hx, hbelow⟩, hname⟩
    obtain ⟨-, rfl⟩ := namesBelow?_eq_some.1 hbelow
    split at hname
    next heq =>
      obtain ⟨rfl, rfl⟩ := Prod.mk.inj heq
      obtain rfl := Option.some.inj hname
      exact (hd.mem_entries_iff (by simp)).1 hx
    next => cases hname
  · intro h
    exact ⟨([name], .directory), ⟨_, (hd.mem_entries_iff (by simp)).2 h,
      namesBelow?_eq_some.2 ⟨by simp, rfl⟩⟩, rfl⟩

lemma nodup_names_ofDirectory (hd : d.Listed) (root : Path) (place : DiskPlace) :
    ((ofDirectory d root place).files.map ProjectFile.names).Nodup := by
  have hbelow : (d.entries.filterMap (namesBelow? place)).Pairwise fun a b => a.1 ≠ b.1 := by
    refine hd.filterMap _ fun a a' haa b hb b' hb' hnames => haa ?_
    obtain ⟨-, rfl⟩ := namesBelow?_eq_some.1 hb
    obtain ⟨-, rfl⟩ := namesBelow?_eq_some.1 hb'
    rw [hnames]
  refine List.pairwise_map.2 (hbelow.filterMap _ fun a a' haa f hf g hg => ?_)
  rwa [ProjectFile.names_of_ofEntry? hf, ProjectFile.names_of_ofEntry? hg]

/-- A path to a directory is the root of what lies below it. -/
lemma ofDisk_of_leads (h : d.Leads root place) : ofDisk d root = ofDirectory d root place := by
  rw [ofDisk, h.target]

/-- A project is what lies below a directory, or has at most one file, without names. -/
lemma ofDisk_cases (d : Disk) (root : Path) :
    (∃ place, ofDisk d root = ofDirectory d root place) ∨
      ∃ f? : Option ProjectFile, (∀ f ∈ f?, f.names = []) ∧
        ofDisk d root = ⟨root, f?.toList, []⟩ := by
  rw [ofDisk]
  split
  · exact Or.inl ⟨_, rfl⟩
  · split
    next e _ => exact Or.inr ⟨_, fun f hf => ProjectFile.names_of_ofEntry? hf, rfl⟩
    next => exact Or.inr ⟨none, nofun, rfl⟩

/-- The files of a project have different names on the way to them. -/
lemma nodup_names (hd : d.Listed) (root : Path) :
    ((ofDisk d root).files.map ProjectFile.names).Nodup := by
  rcases ofDisk_cases d root with ⟨place, h⟩ | ⟨f?, -, h⟩
  · rw [h]
    exact nodup_names_ofDirectory hd root place
  · rw [h]
    cases f? <;> simp

/-- The files of a project have different paths. -/
lemma nodup_paths (hd : d.Listed) (root : Path) :
    ((ofDisk d root).files.map ProjectFile.path).Nodup := by
  refine List.pairwise_map.2 ((List.pairwise_map.1 (nodup_names hd root)).imp fun hne heq => hne ?_)
  have hparts := congrArg SourcePath.parts heq
  exact (List.map_inj_right fun _ _ => PathPart.entry.inj).1 hparts

lemma isText_of_mem_files (hd : d.Listed) (htextual : d.Textual) {f : ProjectFile}
    (hf : f ∈ (ofDisk d root).files) : ∀ name ∈ f.names, name.IsText := by
  rcases ofDisk_cases d root with ⟨place, h⟩ | ⟨f?, hnil, h⟩
  · rw [h] at hf
    obtain ⟨hnil, e, he, -⟩ := (mem_files_ofDirectory hd).1 hf
    have hmem := (hd.mem_entries_iff (by simp [hnil])).2 he
    exact fun name hname => htextual _ hmem name (List.mem_append_right _ hname)
  · rw [h] at hf
    rw [hnil f (Option.mem_toList.1 hf)]
    exact nofun

/-- If all names are texts, then the paths of the files of a project look different. -/
lemma nodup_texts (hd : d.Listed) (htextual : d.Textual) (root : Path) :
    ((ofDisk d root).files.map fun f => f.path.text).Nodup := by
  refine List.pairwise_map.2 ((List.pairwise_map.1 (nodup_names hd root)).imp_of_mem
    fun hf hg hne heq => hne ?_)
  exact SourcePath.ofNames_text_inj (isText_of_mem_files hd htextual hf)
    (isText_of_mem_files hd htextual hg) heq

end ProjectTree

end HouseStyle
