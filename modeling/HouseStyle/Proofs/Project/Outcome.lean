import HouseStyle.Proofs.Project.Work
import HouseStyle.Proofs.Settings.Check
import HouseStyle.Proofs.Tally

/-!
# Every project has a profile and an overview

With settings that make sense nothing goes wrong in learning: the main language is known, whether
it is named or found by counting files, and the readers of the program all work.
-/

namespace HouseStyle

/-- A project that is found is the tree at its root. -/
lemma Disk.eq_of_project {α : Type} {d : Disk} {root : Path} {tree : ProjectTree}
    (h : (d.project root : Except (ProjectFault α) _) = .ok tree) : tree = .ofDisk d root := by
  rw [project] at h
  split at h
  · exact (Except.ok.inj h).symm
  · cases h

namespace Settings

variable {α : Type} [Scalar α] {s : Settings α}

lemma Sensible.activeLanguages (h : s.Sensible) {name : String} (hname : name ∈ s.activeLanguages) :
    name ∈ Language.ids := by
  rw [Settings.activeLanguages] at hname
  split at hname
  · exact hname
  · exact h.languages name (List.mem_append_left _ hname)

/-- The main language is a known one. -/
lemma Sensible.mainLanguage (h : s.Sensible) (layout : Layout) :
    s.mainLanguage layout ∈ Language.ids := by
  cases hprimary : s.primaryLanguage with
  | some name =>
    simp only [Settings.mainLanguage, hprimary]
    exact h.languages name (List.mem_append_right _ (by simp [hprimary]))
  | none =>
    cases hdominant : (Tally.ofCounts (layout.sourceFiles.counts.entries.filter fun e =>
        s.activeLanguages.contains e.1)).dominant? with
    | none =>
      simp only [Settings.mainLanguage, hprimary, hdominant]
      decide
    | some e =>
      simp only [Settings.mainLanguage, hprimary, hdominant]
      -- the dominant label is one of those that were counted
      obtain ⟨hpos, hget⟩ := Tally.mem_entries_iff.1 (Tally.mem_of_dominant? hdominant)
      obtain ⟨e', he', hname, -⟩ := Tally.get_ofCounts_pos.1 (hget ▸ hpos)
      have hcontains := (List.mem_filter.1 he').2
      rw [List.contains_iff_mem, hname] at hcontains
      exact h.activeLanguages hcontains

end Settings

lemma Language.exists_ofId? {name : String} (h : name ∈ ids) : ∃ l, ofId? name = some l := by
  obtain ⟨l, -, rfl⟩ := List.mem_map.1 h
  exact ⟨l, ofId?_id l⟩

namespace ProjectTree

variable {α : Type} [Scalar α] [NumberText α] {s : Settings α}

/-- There is a profile of every project. -/
theorem exists_learn (hs : s.Sensible) (p : ProjectTree) (now : α) :
    ∃ q, p.learn s now = .ok q := by
  obtain ⟨x, hx⟩ := hs.exists_exclusion
  obtain ⟨l, hl⟩ := Language.exists_ofId? (hs.mainLanguage (p.layout x))
  have hwork : ∃ w, p.mainWork (Readers.sound : Readers α) s = .ok w := by
    simp only [mainWork, hx, Except.mapError, bind, Except.bind, hl, Readers.sound]
    split <;> exact ⟨_, rfl⟩
  obtain ⟨w, hw⟩ := hwork
  rw [learn, learnWith, analyzeMainWith, hw]
  exact ⟨_, rfl⟩

/-- There is an overview of every project, with a profile in it. -/
theorem exists_overview (hs : s.Sensible) (p : ProjectTree) (now : α) :
    ∃ o q, p.overview s now = .ok o ∧ o.primary = some q := by
  obtain ⟨x, hx⟩ := hs.exists_exclusion
  obtain ⟨q, hq⟩ := exists_learn hs p now
  have hwork : ∃ work layout, p.allWork (Readers.sound : Readers α) s = .ok (work, layout) := by
    simp only [allWork, hx, Except.mapError, bind, Except.bind]
    exact ⟨_, _, rfl⟩
  obtain ⟨work, layout, hwork⟩ := hwork
  rw [learn] at hq
  simp only [overview, overviewWith, analyzeAllWith, hwork, Except.map, bind, Except.bind]
  cases (analysesOf s work layout).get? (s.mainLanguage layout) with
  | some a => exact ⟨_, _, rfl, rfl⟩
  | none =>
    simp only [hq]
    exact ⟨_, _, rfl, rfl⟩

end ProjectTree

end HouseStyle
