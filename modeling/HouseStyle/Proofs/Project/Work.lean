import HouseStyle.Project.Learn
import HouseStyle.Proofs.SortedMap

/-!
# What is read of a project

Whatever is learned about a project is learned from the files of some of its languages.  What is
read of the main language and of all languages depends on the settings, the layout and the readers
only, and is described here once for each of the two.
-/

namespace HouseStyle

namespace Language

lemma ofId?_id (l : Language) : ofId? l.id = some l := by
  cases l <;> decide

lemma id_of_ofId? {name : String} {l : Language} (h : ofId? name = some l) : l.id = name := by
  simpa using List.find?_some h

lemma id_injective : Function.Injective id := by
  intro l l' h
  rw [← Option.some_inj, ← ofId?_id l, h, ofId?_id]

lemma id_ne_empty (l : Language) : l.id ≠ "" := by
  cases l <;> decide

end Language

lemma Workload.survey_of_nil {w : Workload} (h : w.files = []) : w.survey = ([], 0) := by
  rw [Workload.survey, h]
  simp [Survey.gather]

lemma Workload.analysis_of_nil {α : Type} [Scalar α] [NumberText α] {w : Workload}
    (h : w.files = []) (s : Settings α) (layout : Layout) :
    w.analysis s layout = Analysis.ofFiles s.acceptance w.language.id [] 0 layout := by
  rw [analysis, survey_of_nil h]

namespace ProjectTree

variable {α : Type} {r : Readers α} {p : ProjectTree} {s : Settings α}

/-- Nothing is read with a pattern that is none. -/
lemma mainWork_of_error {fault : SettingsFault α} (hx : s.exclusion = .error fault) :
    p.mainWork r s = .error (.settings fault) := by
  simp [mainWork, hx, Except.mapError, bind, Except.bind]

lemma allWork_of_error {fault : SettingsFault α} (hx : s.exclusion = .error fault) :
    p.allWork r s = .error (.settings fault) := by
  simp [allWork, hx, Except.mapError, bind, Except.bind]

/-- Of the main language all files are read, by a reader that works, or none if there are none. -/
lemma mainWork_spec {x : Exclusion} {w : Workload} {layout : Layout} (hx : s.exclusion = .ok x)
    (h : p.mainWork r s = .ok (w, layout)) :
    layout = p.layout x ∧ w.language.id = s.mainLanguage layout ∧
      (layout.sourceFiles.get w.language.id = 0 ∧ w.files = [] ∨
        0 < layout.sourceFiles.get w.language.id ∧ r w.language = .ok () ∧
          w = p.workload x s.maxFiles w.language) := by
  simp only [mainWork, hx, Except.mapError, bind, Except.bind] at h
  cases hl : Language.ofId? (s.mainLanguage (p.layout x)) with
  | none => simp [hl] at h
  | some l =>
    have hid := Language.id_of_ofId? hl
    simp only [hl] at h
    split_ifs at h with hcount
    · obtain ⟨rfl, rfl⟩ := Prod.mk.inj (Except.ok.inj h)
      exact ⟨rfl, hid, Or.inl ⟨hid ▸ hcount, rfl⟩⟩
    · cases hr : r l with
      | error fault => simp [hr] at h
      | ok u =>
        simp only [hr] at h
        obtain ⟨rfl, rfl⟩ := Prod.mk.inj (Except.ok.inj h)
        exact ⟨rfl, hid, Or.inr ⟨Nat.pos_of_ne_zero (hid ▸ hcount), hr, rfl⟩⟩

/-- The files of a main language that has files are read, if its reader works. -/
lemma mainWork_of_files {x : Exclusion} {l : Language} (hx : s.exclusion = .ok x)
    (hl : l.id = s.mainLanguage (p.layout x)) (hfiles : 0 < (p.layout x).sourceFiles.get l.id)
    (hr : r l = .ok ()) : p.mainWork r s = .ok (p.workload x s.maxFiles l, p.layout x) := by
  simp [mainWork, hx, Except.mapError, bind, Except.bind, ← hl, Language.ofId?_id,
    Nat.ne_of_gt hfiles, hr]

/-- Of all languages those are read that are to be looked at, have files, and have a reader that
works. -/
lemma allWork_spec {x : Exclusion} {work : List Workload} {layout : Layout}
    (hx : s.exclusion = .ok x) (h : p.allWork r s = .ok (work, layout)) :
    layout = p.layout x ∧ ∀ w ∈ work, w.language.id ∈ s.activeLanguages ∧
      0 < layout.sourceFiles.get w.language.id ∧ r w.language = .ok () ∧
        w = p.workload x s.maxFiles w.language := by
  simp only [allWork, hx, Except.mapError, bind, Except.bind, Except.ok.injEq, Prod.mk.injEq] at h
  obtain ⟨rfl, rfl⟩ := h
  refine ⟨rfl, fun w hw => ?_⟩
  obtain ⟨l, hl, rfl⟩ := List.mem_map.1 hw
  obtain ⟨hknown, hpresent⟩ := List.mem_filter.1 hl
  obtain ⟨hcount, hready⟩ : 0 < (p.layout x).sourceFiles.get l.id ∧ (r l).isOk = true := by
    simpa using hpresent
  obtain ⟨name, hname, hid⟩ := List.mem_filterMap.1 hknown
  have hok : r l = .ok () := by
    cases hr : r l with
    | ok u => rfl
    | error fault => simp [hr, Except.isOk, Except.toBool] at hready
  exact ⟨Language.id_of_ofId? hid ▸ hname, hcount, hok, rfl⟩

variable [Scalar α] [NumberText α]

/-- An analysis is that of something that was read, and there is a file in it. -/
lemma get?_analysesOf {work : List Workload} {layout : Layout} {name : String} {a : Analysis α}
    (h : (analysesOf s work layout).get? name = some a) :
    a.metrics.hasData = true ∧ ∃ w ∈ work, w.language.id = name ∧ w.analysis s layout = a := by
  have hmem := SortedMap.mem_of_get?_ofList h
  obtain ⟨a', ha', heq⟩ := List.mem_map.1 hmem
  obtain ⟨rfl, rfl⟩ := Prod.mk.inj heq
  obtain ⟨hwork, hdata⟩ := List.mem_filter.1 ha'
  obtain ⟨w, hw, rfl⟩ := List.mem_map.1 hwork
  exact ⟨hdata, w, hw, rfl, rfl⟩

/-- A profile is learned from the analysis of what is read of the main language. -/
lemma exists_mainWork {now : α} {q : Profile α} (h : p.learnWith r s now = .ok q) :
    ∃ w layout, p.mainWork r s = .ok (w, layout) ∧
      q = Profile.learn s.leastConfidence now (w.analysis s layout) layout := by
  rw [learnWith, analyzeMainWith] at h
  cases hmain : p.mainWork r s with
  | error fault => simp [hmain, Except.map] at h
  | ok main =>
    simp only [hmain, Except.map, Except.ok.injEq] at h
    exact ⟨main.1, main.2, rfl, h.symm⟩

end ProjectTree

end HouseStyle
