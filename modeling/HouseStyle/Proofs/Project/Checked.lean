import HouseStyle.Proofs.Number.Capped
import HouseStyle.Proofs.Project.Listed
import HouseStyle.Proofs.Project.Outcome
import HouseStyle.Proofs.Project.SharedScan

/-!
# Settings that pass the check fail no run

The settings are read in several places: by the check, for what is left out, for the languages that
are looked at, and for the main language.  All of them agree about settings that pass the check.  So
nothing in the settings makes a run fail, and the only fault that is left is that of a reader that
does not work.
-/

namespace HouseStyle

/-- Names that are known are those of the languages that they stand for. -/
lemma Language.map_id_filterMap_ofId? {names : List String} (h : ∀ name ∈ names, name ∈ ids) :
    (names.filterMap ofId?).map id = names := by
  induction names with
  | nil => rfl
  | cons name names ih =>
    rw [List.forall_mem_cons] at h
    obtain ⟨l, hl⟩ := exists_ofId? h.1
    rw [List.filterMap_cons_some hl, List.map_cons, id_of_ofId? hl, ih h.2]

/-- There is a reader for each language that is to be looked at, and no other. -/
lemma Settings.Sensible.map_id_knownLanguages {α : Type} [Scalar α] {s : Settings α}
    (h : s.Sensible) : s.knownLanguages.map Language.id = s.activeLanguages :=
  Language.map_id_filterMap_ofId? fun _ hname => h.activeLanguages hname

namespace ProjectTree

variable {α : Type} {r : Readers α} {p : ProjectTree} {s : Settings α} {x : Exclusion}
variable {fault : ProjectFault α}

/-- Reading a main language that is known fails if and only if it has files and its reader does
not work. -/
lemma mainWork_eq_error_iff {l : Language} (hx : s.exclusion = .ok x)
    (hl : Language.ofId? (s.mainLanguage (p.layout x)) = some l) :
    p.mainWork r s = .error fault ↔
      0 < (p.layout x).sourceFiles.get l.id ∧ r l = .error fault := by
  simp only [mainWork, hx, Except.mapError, bind, Except.bind, hl, Language.id_of_ofId? hl]
  split_ifs with hcount
  · simp [hcount]
  · cases hr : r l with
    | error fault' => simp [Nat.pos_of_ne_zero hcount]
    | ok u => simp

variable [Scalar α] [NumberText α]

lemma learnWith_eq_error_iff {now : α} :
    p.learnWith r s now = .error fault ↔ p.mainWork r s = .error fault := by
  rw [learnWith, analyzeMainWith]
  cases p.mainWork r s <;> simp [Except.map]

/-- An overview fails as learning does. -/
lemma overviewWith_eq_error_iff {now : α} :
    p.overviewWith r s now = .error fault ↔ p.learnWith r s now = .error fault := by
  rw [overviewWith_eq]
  cases hall : p.analyzeAllWith r s with
  | error fault' => simp [learnWith_of_error hall now, Except.bind]
  | ok a =>
    -- with the analyses at hand only learning can fail
    cases p.learnWith r s now <;> simp [Except.bind, Except.map]

end ProjectTree

/-- Settings that pass the check fail no run in a directory that is there.  What to leave out is
clear, each language that is to be looked at has its reader, and so has the main language, whatever
the layout is.  A profile is learned and an overview is made, unless the main language has files and
its reader does not work; then the fault is that of the reader. -/
theorem runs_of_check {α : Type} [Scalar α] [NumberText α] {s : Settings α} {d : Disk} {root : Path}
    (hs : s.check = .ok ()) (hroot : d.isDirectory root = true) :
    ∃ x p, s.exclusion = .ok x ∧ d.project root = (.ok p : Except (ProjectFault α) ProjectTree) ∧
      s.knownLanguages.map Language.id = s.activeLanguages ∧
      (∀ layout, ∃ l, Language.ofId? (s.mainLanguage layout) = some l) ∧
      (∀ now : α, ∃ q o, p.learn s now = .ok q ∧ p.overview s now = .ok o) ∧
      ∀ (r : Readers α) (now : α) (fault : ProjectFault α),
        (p.learnWith r s now = .error fault ↔ p.overviewWith r s now = .error fault) ∧
        (p.learnWith r s now = .error fault ↔ ∃ l, l.id = s.mainLanguage (p.layout x) ∧
          0 < (p.layout x).sourceFiles.get l.id ∧ r l = .error fault) := by
  have hsensible := Settings.sensible_of_check hs
  obtain ⟨x, hx⟩ := hsensible.exists_exclusion
  have hmain (layout : Layout) : ∃ l, Language.ofId? (s.mainLanguage layout) = some l :=
    Language.exists_ofId? (hsensible.mainLanguage layout)
  refine ⟨x, .ofDisk d root, hx, if_pos hroot, hsensible.map_id_knownLanguages, hmain,
    fun now => ?_, fun r now fault => ⟨ProjectTree.overviewWith_eq_error_iff.symm, ?_⟩⟩
  · obtain ⟨q, hq⟩ := ProjectTree.exists_learn hsensible (.ofDisk d root) now
    obtain ⟨o, -, ho, -⟩ := ProjectTree.exists_overview hsensible (.ofDisk d root) now
    exact ⟨q, o, hq, ho⟩
  · obtain ⟨l, hl⟩ := hmain ((ProjectTree.ofDisk d root).layout x)
    rw [ProjectTree.learnWith_eq_error_iff, ProjectTree.mainWork_eq_error_iff hx hl]
    constructor
    · exact fun h => ⟨l, Language.id_of_ofId? hl, h⟩
    · rintro ⟨l', hl', h⟩
      obtain rfl : l' = l := by
        rw [← hl', Language.ofId?_id] at hl
        exact Option.some.inj hl
      exact h

/-- Settings with a language named twice and a pattern of paths to leave out. -/
def twoLanguages : Settings CappedNumber :=
  { Settings.standard with
    languages := ["rust", "go", "rust"]
    excludedPaths := ["**/generated/**"] }

/-- A disk with a Go file, and with Rust files in a directory that is left out. -/
def mostlyGenerated : Disk :=
  ⟨[(["a.go"], .file [] .all), (["generated"], .directory), (["generated", "b.rs"], .file [] .all),
    (["generated", "c.rs"], .file [] .all)], [], .none⟩

theorem runs_of_check_twoLanguages :
    twoLanguages.check = .ok () ∧ mostlyGenerated.isDirectory ⟨"."⟩ = true ∧
      twoLanguages.knownLanguages = [.rust, .go, .rust] ∧
      (∃ q o, (ProjectTree.ofDisk mostlyGenerated ⟨"."⟩).learn twoLanguages 0.0 = .ok q ∧
        (ProjectTree.ofDisk mostlyGenerated ⟨"."⟩).overview twoLanguages 0.0 = .ok o) ∧
      ∀ (r : Readers CappedNumber) (fault : ProjectFault CappedNumber),
        (ProjectTree.ofDisk mostlyGenerated ⟨"."⟩).overviewWith r twoLanguages 0.0 = .error fault ↔
          r .go = .error fault := by
  have hcheck : twoLanguages.check = .ok () := rfl
  have hleads : mostlyGenerated.Leads ⟨"."⟩ [] := Disk.leads_here _
  have hroot : mostlyGenerated.isDirectory ⟨"."⟩ = true :=
    (Disk.isDirectory_iff _ _).2 ⟨[], hleads⟩
  obtain ⟨x, p, hx, hp, -, -, hruns, hfault⟩ := runs_of_check hcheck hroot
  obtain rfl : .ofDisk mostlyGenerated ⟨"."⟩ = p := by
    rw [Disk.project, if_pos hroot] at hp
    exact Except.ok.inj hp
  refine ⟨hcheck, hroot, by decide +kernel, hruns 0.0, fun r fault => ?_⟩
  rw [← (hfault r 0.0 fault).1, (hfault r 0.0 fault).2, ProjectTree.ofDisk_of_leads hleads]
  -- without the pattern there would be more Rust files than Go files
  have hmain : twoLanguages.exclusion.toOption.map (fun x =>
      (twoLanguages.mainLanguage
        ((ProjectTree.ofDirectory mostlyGenerated ⟨"."⟩ []).layout x),
        ((ProjectTree.ofDirectory mostlyGenerated ⟨"."⟩ []).layout x).sourceFiles.get "go"))
      = some (Language.go.id, 1) := by decide +kernel
  rw [hx] at hmain
  obtain ⟨hname, hcount⟩ := Prod.mk.inj (Option.some.inj hmain)
  rw [hname]
  constructor
  · rintro ⟨l, hl, -, hr⟩
    obtain rfl : l = .go := Option.some.inj (by rw [← Language.ofId?_id, hl, Language.ofId?_id])
    exact hr
  · exact fun hr => ⟨.go, rfl, Nat.lt_of_lt_of_eq Nat.one_pos hcount.symm, hr⟩

end HouseStyle
