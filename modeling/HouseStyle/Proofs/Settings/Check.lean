import HouseStyle.Project.Learn
import Mathlib.Tactic.Common

/-!
# What settings that make sense promise

Settings are checked before a run.  What the check has let pass holds for the whole run: there is
a file to look at, every language is known, and every pattern of paths to leave out is one.
-/

namespace HouseStyle

/-- A step of a computation that has succeeded has succeeded. -/
lemma exists_of_bind_eq_ok {ε β γ : Type} {x : Except ε β} {f : β → Except ε γ} {c : γ}
    (h : x.bind f = .ok c) : ∃ b, x = .ok b ∧ f b = .ok c := by
  cases x with
  | error e => cases h
  | ok b => exact ⟨b, rfl, h⟩

lemma exists_of_map_eq_ok {ε β γ : Type} {x : Except ε β} {f : β → γ} {c : γ}
    (h : x.map f = .ok c) : ∃ b, x = .ok b ∧ f b = c := by
  cases x with
  | error e => cases h
  | ok b => exact ⟨b, rfl, Except.ok.inj h⟩

lemma ok_of_mapError {β ε φ : Type} {f : ε → φ} {r : Except ε β} {value : β}
    (h : r.mapError f = .ok value) : r = .ok value := by
  cases r with
  | error fault => cases h
  | ok found => cases h; rfl

namespace Settings

variable {α : Type} [Scalar α] {s : Settings α}

/-- The settings that make sense. -/
structure Sensible (s : Settings α) : Prop where
  leastConfidence : Scalar.within 0.0 1.0 s.leastConfidence = true
  floor : Scalar.within 0.0 1.0 s.floor = true
  adaptationRate : Scalar.within 0.0 1.0 s.adaptationRate = true
  steepness : (Scalar.lt 0.0 s.steepness && Scalar.isFinite s.steepness) = true
  maxFiles : s.maxFiles ≠ some 0
  stateDir : Text.allBlank s.stateDir.toList = false
  languages : ∀ name ∈ s.languages ++ s.primaryLanguage.toList, name ∈ Language.ids
  patterns : ∃ patterns, s.globs = .ok patterns

lemma checkShare_eq_ok {name : String} {x : α} (h : checkShare name x = .ok ()) :
    Scalar.within 0.0 1.0 x = true := by
  rw [checkShare] at h
  split at h
  · assumption
  · cases h

omit [Scalar α] in
lemma mem_ids_of_forM {names : List String}
    (h : names.forM checkLanguage = (.ok () : Except (SettingsFault α) Unit)) :
    ∀ name ∈ names, name ∈ Language.ids := by
  induction names with
  | nil => simp
  | cons name names ih =>
    obtain ⟨_, hname, hnames⟩ := exists_of_bind_eq_ok h
    rintro n hn
    rcases List.mem_cons.1 hn with rfl | hn
    · rw [checkLanguage] at hname
      split at hname
      next hcontains => exact List.contains_iff_mem.1 hcontains
      next => cases hname
    · exact ih hnames n hn

/-- Settings that pass the check make sense. -/
theorem sensible_of_check (h : s.check = .ok ()) : s.Sensible := by
  simp only [check, bind] at h
  obtain ⟨_, h1, h⟩ := exists_of_bind_eq_ok h
  obtain ⟨_, h2, h⟩ := exists_of_bind_eq_ok h
  obtain ⟨_, h3, h⟩ := exists_of_bind_eq_ok h
  split at h
  · cases h
  next hsteepness =>
    split at h
    · cases h
    next hfiles =>
      split at h
      · cases h
      next hdir =>
        obtain ⟨_, h4, h⟩ := exists_of_bind_eq_ok h
        obtain ⟨patterns, h5, -⟩ := exists_of_bind_eq_ok h
        exact ⟨checkShare_eq_ok h1, checkShare_eq_ok h2, checkShare_eq_ok h3,
          by simpa using hsteepness, hfiles, by simpa using hdir, mem_ids_of_forM h4,
          patterns, h5⟩

lemma Sensible.exists_exclusion (h : s.Sensible) : ∃ x, s.exclusion = .ok x := by
  obtain ⟨patterns, hpatterns⟩ := h.patterns
  exact ⟨⟨s.excludedDirs, patterns⟩, by rw [exclusion, hpatterns]; rfl⟩

end Settings

end HouseStyle
