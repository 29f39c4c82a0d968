import HouseStyle.CommandLine.Run
import HouseStyle.Proofs.EntryName
import HouseStyle.Proofs.Json.WholeNumber
import HouseStyle.Proofs.Project.Outcome
import HouseStyle.Proofs.Snapshot.Kept

/-!
# Commands that fail

Whatever a command does before it saves leaves the disk alone, and saving a single result either
succeeds or leaves the results alone.  So a command that learns and fails leaves both results as
they were.  A command that compares all languages saves two results, the profile first, and does
not take the profile back if the overview cannot be saved.
-/

namespace HouseStyle

lemma Path.join_text_ne {p q : Path} (h : q.text ≠ "") : (p.join q).text ≠ "" := by
  rw [join]
  split_ifs
  · exact h
  · simp [h]
  · simp

namespace Store

variable {α β : Type} {s : Store} {d e : Disk} [NumberText α]

/-- What saving a result makes of a disk on which results can be told from anything else. -/
lemma saveFor_cases (h : s.Tidy d) (hdir : s.dir.text ≠ "") (root : Path)
    {format : SavedFormat α β} (hname : Path.IsName format.fileName) (value : β) :
    ∃ made, d.Makes made ∧ d.Unseen made (Disk.trunk s.dir) ∧ (∀ name, s.NoLink made name) ∧
      ((∃ fault e, s.saveFor root format value d = (.error fault, e) ∧ s.Drafted format made e ∧
        (d.isDirectory root = true → ∀ place, d.Leads s.dir place →
          d.limits = .none →
            Disk.Writable (d.get? (place ++ [.text (format.fileName ++ ".tmp")])) →
              d.get? (place ++ [.text format.fileName]) = some .directory)) ∨
      ∃ path e place, s.saveFor root format value d = (.ok path, e) ∧
        s.Published format (format.encode value) made e place) := by
  rw [saveFor]
  split
  next hroot =>
    refine ⟨_, Disk.makeDirectories_makes d s.dir, h.unseen hdir, h.noLink_made hdir, ?_⟩
    rcases save_cases value h.wellFormed hdir hname (h.noLink_made hdir _) with
      ⟨fault, e, hsave, hdraft, hwhy⟩ | ⟨e, place, hsave, hpub⟩
    · exact Or.inl ⟨_, e, hsave, hdraft, fun _ => hwhy⟩
    · exact Or.inr ⟨_, e, place, hsave, hpub⟩
  next hroot =>
    exact ⟨d, .refl, Or.inl rfl, h.noLink, Or.inl ⟨_, d, rfl, .same, fun hyes => absurd hyes hroot⟩⟩

/-- A result that cannot be saved leaves the results alone. -/
lemma saveFor_error (h : s.Tidy d) (hdir : s.dir.text ≠ "") {root : Path}
    {format : SavedFormat α β} (hformat : format.fileName ∈ resultNames) {value : β}
    {why : ProjectFault α} (hsave : s.saveFor root format value d = (.error why, e)) :
    s.SameTexts d e := by
  rw [saveFor] at hsave
  split at hsave
  · exact save_error h hdir hformat hsave
  · cases hsave
    exact fun _ _ => rfl

/-- A result that is saved takes the place of the earlier one, and the next one can be saved. -/
lemma saveFor_ok (h : s.Tidy d) (hdir : s.dir.text ≠ "") {root : Path} {format : SavedFormat α β}
    (hformat : format.fileName ∈ resultNames) {value : β} {path : Path}
    (hsave : s.saveFor root format value d = (.ok path, e)) :
    s.Tidy e ∧ s.Replaced format (format.encode value) d e := by
  rw [saveFor] at hsave
  split at hsave
  · exact save_ok h hdir hformat hsave
  · cases hsave

end Store

/-- Without a settings file the standard settings are taken. -/
lemma Settings.loadFor_standard {α : Type} [Scalar α] [NumberText α] {d : Disk}
    (hcheck : (standard : Settings α).check = .ok ())
    (h : ∀ name ∈ fileNames, d.get? (d.home ++ [.text name]) = none) :
    loadFor d ⟨"."⟩ none = .ok (standard : Settings α) := by
  have hnames : ∀ name ∈ fileNames, Path.IsName name := by decide
  have hdiscover : discover? d ⟨"."⟩ = none := by
    rw [discover?, List.find?_eq_none]
    intro path hpath
    obtain ⟨name, hname, rfl⟩ := List.mem_map.1 hpath
    have hthing := (Disk.leads_here d).thingAt?_join (hnames name hname) (by simp [h name hname])
    simp [Disk.isFile, Disk.holds, hthing, h name hname]
  simp only [loadFor, hdiscover, Option.none_or, bind, Except.bind, hcheck]

/-- The settings in the first settings file are taken, if they make sense. -/
lemma Settings.loadFor_found {α : Type} [Scalar α] [NumberText α] {d : Disk} {text : String}
    {s : Settings α} (hfile : d.get? (d.home ++ [.text "stylelearn.yaml"])
      = some (.file (Text.encode text) .all))
    (hsettings : (Yaml.parse? text.toList).bind ofYaml? = some s) (hcheck : s.check = .ok ()) :
    loadFor d ⟨"."⟩ none = .ok s := by
  have hname : Path.IsName "stylelearn.yaml" := by decide
  have hhere := Disk.leads_here d
  have hthing := hhere.thingAt?_join hname (by simp [hfile])
  have htext := Disk.readText_file hhere hname hfile rfl
  have hdiscover : discover? d ⟨"."⟩ = some (Path.join ⟨"."⟩ ⟨"stylelearn.yaml"⟩) := by
    rw [hfile] at hthing
    simp [discover?, fileNames, Disk.isFile, Disk.holds, Disk.isDirectory, hthing]
  simp only [loadFor, hdiscover, Option.none_or, ofFile, htext, hsettings, bind, Except.bind,
    hcheck]

/-- Settings that make sense name a directory for the results. -/
lemma Settings.dir_text_ne {α : Type} [Scalar α] {s : Settings α} (h : s.check = .ok ())
    (root : Path) : (s.store root).dir.text ≠ "" := by
  refine Path.join_text_ne fun (hempty : s.stateDir = "") => ?_
  have hblank := (sensible_of_check h).stateDir
  rw [hempty] at hblank
  cases hblank

namespace CommandLine

variable {α : Type} [Scalar α] [NumberText α] {o : LearnOrder} {s : Settings α} {d e : Disk}

namespace LearnOrder

lemma check_of_settings (h : o.settings d = .ok s) : s.check = .ok () := by
  obtain ⟨found, -, h⟩ := exists_of_bind_eq_ok h
  dsimp only at h
  split at h
  next hcheck =>
    obtain rfl := Except.ok.inj h
    exact hcheck
  next => cases h

lemma dir_text_ne (h : o.settings d = .ok s) : (s.store o.root).dir.text ≠ "" :=
  Settings.dir_text_ne (check_of_settings h) o.root

omit [Scalar α] [NumberText α] in
/-- How a command ends: without a result, with one that is not to be saved, or with saving it. -/
lemma finish_cases {β : Type} {result : Except (RunFault α) β}
    {save : β → Disk → Except (ProjectFault α) Path × Disk} {present : β → Report}
    {report : Except (RunFault α) Report} (h : o.finish d result save present = (report, e)) :
    (∃ fault, result = .error fault ∧ report = .error fault ∧ e = d) ∨
      ∃ value, result = .ok value ∧
        (o.saves = false ∧ report = .ok (present value) ∧ e = d ∨
        o.saves = true ∧
          ((∃ path, save value d = (.ok path, e) ∧ report = .ok (present value)) ∨
          ∃ why, save value d = (.error why, e) ∧ report = .error (.project why))) := by
  cases result with
  | error fault =>
    cases h
    exact Or.inl ⟨fault, rfl, rfl, rfl⟩
  | ok value =>
    refine Or.inr ⟨value, rfl, ?_⟩
    rw [finish] at h
    split at h
    next hsaves =>
      refine Or.inr ⟨hsaves, ?_⟩
      split at h
      next path rest hsave =>
        cases h
        exact Or.inl ⟨path, hsave, rfl⟩
      next why rest hsave =>
        cases h
        exact Or.inr ⟨why, hsave, rfl⟩
    next hsaves =>
      cases h
      exact Or.inl ⟨by simpa using hsaves, rfl, rfl⟩

omit [Scalar α] [NumberText α] in
/-- A command that fails either has not changed the disk or could not save a result. -/
lemma finish_error {β : Type} {result : Except (RunFault α) β}
    {save : β → Disk → Except (ProjectFault α) Path × Disk} {present : β → Report}
    {fault : RunFault α} (h : o.finish d result save present = (.error fault, e)) :
    e = d ∨ ∃ value why, result = .ok value ∧ o.saves = true ∧ save value d = (.error why, e) := by
  rcases finish_cases h with ⟨_, -, -, hsame⟩ | ⟨value, hvalue, ⟨-, -, hsame⟩ |
    ⟨hsaves, ⟨path, -, hreport⟩ | ⟨why, hsave, -⟩⟩⟩
  · exact Or.inl hsame
  · exact Or.inl hsame
  · cases hreport
  · exact Or.inr ⟨value, why, hvalue, hsaves, hsave⟩

omit [Scalar α] [NumberText α] in
/-- A command that succeeds has a result, and has saved it if that is ordered. -/
lemma finish_ok {β : Type} {result : Except (RunFault α) β}
    {save : β → Disk → Except (ProjectFault α) Path × Disk} {present : β → Report}
    {report : Report} (h : o.finish d result save present = (.ok report, e)) :
    ∃ value, result = .ok value ∧ report = present value ∧
      (o.saves = false ∧ e = d ∨ o.saves = true ∧ ∃ path, save value d = (.ok path, e)) := by
  rcases finish_cases h with ⟨fault, -, hreport, -⟩ | ⟨value, hvalue, ⟨hsaves, hreport, hsame⟩ |
    ⟨hsaves, ⟨path, hsave, hreport⟩ | ⟨why, -, hreport⟩⟩⟩
  · cases hreport
  · exact ⟨value, hvalue, Except.ok.inj hreport, Or.inl ⟨hsaves, hsame⟩⟩
  · exact ⟨value, hvalue, Except.ok.inj hreport, Or.inr ⟨hsaves, path, hsave⟩⟩
  · cases hreport

lemma settings_of_prepare {p : Presentation} (h : o.prepare d = .ok (p, s)) :
    o.settings d = .ok s := by
  obtain ⟨_, -, h⟩ := exists_of_bind_eq_ok h
  obtain ⟨found, hfound, h⟩ := exists_of_bind_eq_ok h
  cases h
  exact ok_of_mapError hfound

lemma learn_error {now : α} {fault : RunFault α} (h : o.learn now d = (.error fault, e)) :
    e = d ∨ ∃ s p why, o.settings d = .ok s ∧ o.profile s now d = .ok p ∧ o.saves = true ∧
      o.saveProfile s p d = (.error why, e) := by
  rw [learn] at h
  split at h
  next => cases h; exact Or.inl rfl
  next p s hprepare =>
    rcases finish_error h with hsame | ⟨value, why, hresult, hsaves, hsave⟩
    · exact Or.inl hsame
    · exact Or.inr ⟨s, value, why, settings_of_prepare hprepare, ok_of_mapError hresult, hsaves,
        hsave⟩

lemma integrate_error {now : α} {fault : RunFault α} (h : o.integrate now d = (.error fault, e)) :
    e = d ∨ ∃ s v why, o.settings d = .ok s ∧ o.overview s now d = .ok v ∧ o.saves = true ∧
      o.saveOverview s v d = (.error why, e) := by
  rw [integrate] at h
  split at h
  next => cases h; exact Or.inl rfl
  next p s hprepare =>
    rcases finish_error h with hsame | ⟨value, why, hresult, hsaves, hsave⟩
    · exact Or.inl hsame
    · exact Or.inr ⟨s, value, why, settings_of_prepare hprepare, ok_of_mapError hresult, hsaves,
        hsave⟩

/-- An overview that cannot be saved leaves the results alone, but for the profile in it.  The text
of that can be read unless it was written over a draft that cannot. -/
lemma saveOverview_error {v : Overview α} {why : ProjectFault α}
    (hdir : (s.store o.root).dir.text ≠ "") (h : (s.store o.root).Tidy d)
    (hsave : o.saveOverview s v d = (.error why, e)) :
    (s.store o.root).SameTexts d e ∨
      e.readText ((s.store o.root).pathOf (Overview.format : SavedFormat α _))
          = d.readText ((s.store o.root).pathOf (Overview.format : SavedFormat α _)) ∧
      ∃ p, v.primary = some p ∧
        ((s.store o.root).ReadableDraft (Profile.format : SavedFormat α _) d →
          e.readText ((s.store o.root).pathOf (Profile.format : SavedFormat α _))
            = .ok (Profile.format.encode p).toList) := by
  rw [saveOverview] at hsave
  cases hprimary : v.primary with
  | none =>
    rw [hprimary] at hsave
    exact Or.inl (Store.saveFor_error h hdir (Overview.fileName_mem α) hsave)
  | some p =>
    rw [hprimary] at hsave
    simp only at hsave
    split at hsave
    next path e' hprofile =>
      obtain ⟨htidy, hreplaced⟩ := Store.saveFor_ok h hdir (Profile.fileName_mem α) hprofile
      have hsame := Store.saveFor_error htidy hdir (Overview.fileName_mem α) hsave
      refine Or.inr ⟨?_, p, rfl, fun hread =>
        (hsame _ (Profile.fileName_mem α)).trans (hreplaced.text hread)⟩
      exact (hsame _ (Overview.fileName_mem α)).trans
        (hreplaced.others _ (Overview.fileName_mem α) (by simp [Profile.format, Overview.format]))
    next fault e' hprofile =>
      cases hsave
      exact Or.inl (Store.saveFor_error h hdir (Profile.fileName_mem α) hprofile)

/-- A project that is there has a profile and an overview, if no earlier profile is asked for. -/
lemma exists_results (hs : o.settings d = .ok s) (hroot : d.isDirectory o.root = true)
    (hadapts : o.adapts = false) (now : α) : (∃ p, o.profile s now d = .ok p) ∧
      ∃ v q, o.overview s now d = .ok v ∧ v.primary = some q := by
  have hsensible := Settings.sensible_of_check (check_of_settings hs)
  obtain ⟨p, hp⟩ := ProjectTree.exists_learn hsensible (.ofDisk d o.root) now
  obtain ⟨v, q, hv, hq⟩ := ProjectTree.exists_overview hsensible (.ofDisk d o.root) now
  refine ⟨⟨adapted s none p, ?_⟩, ⟨{ v with primary := v.primary.map (adapted s none) },
    adapted s none q, ?_, by simp [hq]⟩⟩
  · simp only [profile, Disk.project, hroot, if_true, bind, Except.bind, hp, previous?, hadapts]
    rfl
  · simp only [overview, Disk.project, hroot, if_true, bind, Except.bind, hv, previous?, hadapts]
    rfl

/-- A comparison whose overview cannot be saved, because there is a directory in the stead of it,
has saved its profile. -/
theorem integrate_of_blocked {now : α} {p : Presentation} {v : Overview α} {q : Profile α}
    {place : DiskPlace} (htidy : (s.store o.root).Tidy d) (hroot : d.isDirectory o.root = true)
    (hleads : d.Leads (s.store o.root).dir place) (hlimits : d.limits = .none)
    (hdraft : Disk.Writable (d.get? (place ++ [.text "learning_result.json.tmp"])))
    (hread : (s.store o.root).ReadableDraft (Profile.format : SavedFormat α _) d)
    (hresult : d.get? (place ++ [.text "learning_result.json"]) ≠ some .directory)
    (hblocked : d.get? (place ++ [.text "integrated_learning_result.json"]) = some .directory)
    (hprepare : o.prepare d = .ok (p, s)) (hv : o.overview s now d = .ok v)
    (hq : v.primary = some q) (hsaves : o.saves = true) :
    ∃ fault e, o.integrate now d = (.error fault, e) ∧
      e.readText ((s.store o.root).pathOf (Profile.format : SavedFormat α _))
        = .ok (Profile.format.encode q).toList := by
  have hdir := dir_text_ne (settings_of_prepare hprepare)
  simp only [integrate, hprepare, finish, hv, Except.mapError, hsaves, if_true, saveOverview, hq,
    saveProfile]
  obtain ⟨made, hmakes, -, hlink, ⟨fault, e, -, -, hwhy⟩ | ⟨path, e, place', hsave, hpub⟩⟩ :=
    Store.saveFor_cases htidy hdir o.root (Store.isName_of_mem (Profile.fileName_mem α)) q
  · exact absurd (hwhy hroot place hleads hlimits hdraft) hresult
  · obtain ⟨htidy', hreplaced⟩ := Store.saveFor_ok htidy hdir (Profile.fileName_mem α) hsave
    simp only [hsave]
    -- the directory in the stead of the overview is still there
    obtain rfl := (hleads.mono hmakes.grown.keeps).unique hpub.leads
    have hleads' := hpub.leads.mono (hpub.keeps (hlink _))
    have hblocked' : e.get? (place ++ [.text "integrated_learning_result.json"])
        = some .directory := by
      rw [hpub.get?, if_neg (by simp [Profile.format]), if_neg (by simp [Profile.format])]
      exact hmakes.grown.keeps.get? hblocked (Or.inl rfl)
    obtain ⟨made', hmakes', -, -, ⟨fault, e', hsave', -⟩ | ⟨path', e', place', -, hpub'⟩⟩ :=
      Store.saveFor_cases htidy' hdir o.root (Store.isName_of_mem (Overview.fileName_mem α)) v
    · have hsame := Store.saveFor_error htidy' hdir (Overview.fileName_mem α) hsave'
      simp only [hsave']
      exact ⟨_, e', rfl, (hsame _ (Profile.fileName_mem α)).trans (hreplaced.text hread)⟩
    · obtain rfl := (hleads'.mono hmakes'.grown.keeps).unique hpub'.leads
      exact absurd (hmakes'.grown.keeps.get? hblocked' (Or.inl rfl)) hpub'.result

end LearnOrder

/-- A command that learns and fails leaves the results in its store as they were.  A command that
compares all languages and fails leaves the overview as it was, and the profile unless it has just
saved the one it made, which can be read unless it was written over a draft that cannot. -/
theorem results_of_failure {o : LearnOrder} {d : Disk} {t : Store} (now : α) (coloured : Bool)
    (htidy : t.Tidy d) (ht : ∀ s : Settings α, o.settings d = .ok s → s.store o.root = t) :
    (((Outcome.ofResult coloured ((Command.learn o).run now d).1).code = failureCode →
      t.SameResults α d ((Command.learn o).run now d).2) ∧
    ((Outcome.ofResult coloured ((Command.integrate o).run now d).1).code = failureCode →
      t.SameResults α d ((Command.integrate o).run now d).2 ∨
      (t.load Overview.format ((Command.integrate o).run now d).2 : Except (ProjectFault α) _)
          = t.load Overview.format d ∧
        o.saves = true ∧ ∃ (s : Settings α) (v : Overview α) (p : Profile α),
          o.settings d = .ok s ∧ o.overview s now d = .ok v ∧ v.primary = some p ∧
          (t.ReadableDraft (Profile.format : SavedFormat α _) d →
            ((Command.integrate o).run now d).2.readText
                (t.pathOf (Profile.format : SavedFormat α _))
              = .ok (Profile.format.encode p).toList))) := by
  have hfault {r : Except (RunFault α) Report}
      (h : (Outcome.ofResult coloured r).code = failureCode) : ∃ fault, r = .error fault := by
    cases r with
    | error fault => exact ⟨fault, rfl⟩
    | ok report => cases h
  have hsame : t.SameTexts d d := fun _ _ => rfl
  constructor
  · rcases hrun : (Command.learn o).run now d with ⟨result, e⟩
    intro h
    obtain ⟨fault, rfl⟩ := hfault h
    rcases LearnOrder.learn_error hrun with rfl | ⟨s, p, why, hs, -, -, hsave⟩
    · exact hsame.results
    · have hdir := LearnOrder.dir_text_ne hs
      rw [ht s hs] at hdir
      rw [LearnOrder.saveProfile, ht s hs] at hsave
      exact (Store.saveFor_error htidy hdir (Profile.fileName_mem α) hsave).results
  · rcases hrun : (Command.integrate o).run now d with ⟨result, e⟩
    intro h
    obtain ⟨fault, rfl⟩ := hfault h
    rcases LearnOrder.integrate_error hrun with rfl | ⟨s, v, why, hs, hv, hsaves, hsave⟩
    · exact Or.inl hsame.results
    · obtain rfl := ht s hs
      rcases LearnOrder.saveOverview_error (LearnOrder.dir_text_ne hs) htidy hsave with
        htexts | ⟨hoverview, p, hp, hprofile⟩
      · exact Or.inl htexts.results
      · exact Or.inr ⟨Store.load_congr hoverview, hsaves, s, v, p, hs, hv, hp, hprofile⟩

/-! ### Commands that fail and have changed a result -/

/-- An order to save what is learned about the directory of the program. -/
def LearnOrder.saving : LearnOrder := ⟨⟨"."⟩, none, [], [], "json", true, false⟩

/-- A disk with a directory in the stead of the overview. -/
def blocked : Disk :=
  ⟨[([".analysis-state"], .directory),
    ([".analysis-state", "integrated_learning_result.json"], .directory)], [], .none⟩

/-- A disk on which the path of the results goes up from a directory that is missing, with a result
and with a directory in the stead of its draft. -/
def detour : Disk :=
  ⟨[(["stylelearn.yaml"], .file (Text.encode "state_dir: x/../real\n") .all),
    (["real"], .directory),
    (["real", "learning_result.json"], .file (Text.encode "") .all),
    (["real", "learning_result.json.tmp"], .directory)], [], .none⟩

lemma wellFormed_blocked : blocked.WellFormed :=
  Disk.wellFormed_of_entries rfl (by decide)

lemma wellFormed_detour : detour.WellFormed :=
  Disk.wellFormed_of_entries rfl (by simp [detour, Disk.get?, List.lookup_cons])

lemma leads_blocked : blocked.Leads ⟨"./.analysis-state"⟩ [".analysis-state"] := by
  refine ⟨by decide, Disk.linkLimit, ?_⟩
  exact .head (.here _ _ _) (.single (.down _ [] rfl))

lemma settings_blocked : (LearnOrder.saving.settings blocked : Except _ (Settings WholeNumber))
    = .ok .standard := by
  have hcheck : (Settings.standard : Settings WholeNumber).check = .ok () := rfl
  have hnone : ∀ name ∈ Settings.fileNames, blocked.get? [.text name] = none := by decide
  simp only [LearnOrder.settings, LearnOrder.saving, Settings.loadFor_standard hcheck hnone]
  rfl

lemma settings_detour : ∃ s : Settings WholeNumber,
    LearnOrder.saving.settings detour = .ok s ∧ s.stateDir = "x/../real" := by
  have hfile : detour.get? (detour.home ++ [.text "stylelearn.yaml"])
      = some (.file (Text.encode "state_dir: x/../real\n") .all) := rfl
  have hloaded : (Settings.loadFor detour ⟨"."⟩ none : Except _ (Settings WholeNumber))
      = .ok { Settings.standard with stateDir := "x/../real" } :=
    Settings.loadFor_found hfile rfl rfl
  simp only [LearnOrder.settings, LearnOrder.saving, hloaded]
  exact ⟨_, rfl, rfl⟩

lemma detour_detour : detour.Detour := ⟨rfl, rfl, rfl, rfl, rfl, rfl⟩

lemma leads_detour : (detour.set ["x"] .directory).Leads ⟨"./x/../real"⟩ ["real"] :=
  detour_detour.leads

lemma readText_detour : detour.readText ((⟨⟨"./x/../real"⟩⟩ : Store).pathOf
    (Profile.format : SavedFormat WholeNumber _)) = .error .missing := detour_detour.readText_before

lemma save_detour (p : Profile WholeNumber) :
    ∃ fault, (⟨⟨"./x/../real"⟩⟩ : Store).save Profile.format p detour
      = (.error fault, detour.set ["x"] .directory) := by
  obtain ⟨fault, hsave⟩ := detour_detour.save p
  exact ⟨_, hsave⟩

lemma run_detour : ∃ (s : Settings WholeNumber) (fault : ProjectFault WholeNumber),
    LearnOrder.saving.settings detour = .ok s ∧
      s.store LearnOrder.saving.root = ⟨⟨"./x/../real"⟩⟩ ∧
      (Command.learn .saving).run (⟨0⟩ : WholeNumber) detour
        = (.error (.project fault), detour.set ["x"] .directory) := by
  obtain ⟨s, hs, hstate⟩ := settings_detour
  have hstore : s.store LearnOrder.saving.root = ⟨⟨"./x/../real"⟩⟩ := by
    rw [Settings.store, Settings.stateDirFor, hstate]
    rfl
  have hroot : detour.isDirectory LearnOrder.saving.root = true :=
    (Disk.isDirectory_iff _ _).2 ⟨[], Disk.leads_here _⟩
  obtain ⟨⟨p, hp⟩, -⟩ := LearnOrder.exists_results hs hroot rfl ⟨0⟩
  have hprepare : LearnOrder.saving.prepare detour = .ok (.json, s) := by
    rw [LearnOrder.prepare, hs]
    rfl
  obtain ⟨fault, hsave⟩ := save_detour p
  refine ⟨s, fault, hs, hstore, ?_⟩
  simp only [Command.run, LearnOrder.learn, hprepare, LearnOrder.finish, hp, Except.mapError,
    LearnOrder.saveProfile, hstore, Store.saveFor, hroot, if_true, hsave]
  rfl

lemma store_blocked : (Settings.standard : Settings WholeNumber).store LearnOrder.saving.root
    = ⟨⟨"./.analysis-state"⟩⟩ := by decide

lemma tidy_blocked : (⟨⟨"./.analysis-state"⟩⟩ : Store).Tidy blocked :=
  ⟨wellFormed_blocked, leads_blocked.settled, Store.noLink_of_entries (by simp [blocked])⟩

lemma run_blocked : ∃ fault e text,
    (Command.integrate .saving).run (⟨0⟩ : WholeNumber) blocked = (.error fault, e) ∧
      e.readText ((⟨⟨"./.analysis-state"⟩⟩ : Store).pathOf
        (Profile.format : SavedFormat WholeNumber _)) = .ok text := by
  have hroot : blocked.isDirectory ⟨"."⟩ = true :=
    (Disk.isDirectory_iff _ _).2 ⟨[], Disk.leads_here _⟩
  obtain ⟨-, v, q, hv, hq⟩ := LearnOrder.exists_results settings_blocked hroot rfl ⟨0⟩
  have hprepare : LearnOrder.saving.prepare blocked
      = .ok (.json, (Settings.standard : Settings WholeNumber)) := by
    rw [LearnOrder.prepare, settings_blocked]
    rfl
  have hleads : blocked.Leads ((Settings.standard : Settings WholeNumber).store
      LearnOrder.saving.root).dir [".analysis-state"] := by
    rw [store_blocked]
    exact leads_blocked
  have hdraft : Disk.Writable
      (blocked.get? ([.text ".analysis-state"] ++ [.text "learning_result.json.tmp"])) := .none
  have hread : ((Settings.standard : Settings WholeNumber).store
      LearnOrder.saving.root).ReadableDraft
        (Profile.format : SavedFormat WholeNumber _) blocked := by
    intro place hreaches
    obtain rfl := Disk.Leads.unique ⟨hleads.nonempty, hreaches⟩ hleads
    rfl
  obtain ⟨fault, e, hrun, htext⟩ := LearnOrder.integrate_of_blocked (store_blocked ▸ tidy_blocked)
    hroot hleads rfl hdraft hread (by decide) rfl hprepare hv hq rfl
  rw [store_blocked] at htext
  exact ⟨fault, e, _, hrun, htext⟩

/-- The overview of the disk with a directory in the stead of it is kept by a comparison that
fails. -/
theorem overview_kept_blocked :
    (⟨⟨"./.analysis-state"⟩⟩ : Store).Tidy blocked ∧
      (Outcome.ofResult false
        ((Command.integrate .saving).run (⟨0⟩ : WholeNumber) blocked).1).code = failureCode ∧
      ((⟨⟨"./.analysis-state"⟩⟩ : Store).load Overview.format
        ((Command.integrate .saving).run (⟨0⟩ : WholeNumber) blocked).2
          : Except (ProjectFault WholeNumber) _)
        = (⟨⟨"./.analysis-state"⟩⟩ : Store).load Overview.format blocked := by
  obtain ⟨fault, e, text, hrun, -⟩ := run_blocked
  have hcode : (Outcome.ofResult false
      ((Command.integrate .saving).run (⟨0⟩ : WholeNumber) blocked).1).code = failureCode := by
    rw [hrun]
    rfl
  have hstore (s : Settings WholeNumber) (hs : LearnOrder.saving.settings blocked = .ok s) :
      s.store LearnOrder.saving.root = ⟨⟨"./.analysis-state"⟩⟩ := by
    obtain rfl := Except.ok.inj (hs.symm.trans settings_blocked)
    exact store_blocked
  refine ⟨tidy_blocked, hcode, ?_⟩
  rcases (results_of_failure (⟨0⟩ : WholeNumber) false tidy_blocked hstore).2 hcode with
    hsame | ⟨hsame, -⟩
  · exact hsame.overview
  · exact hsame

/-- The same is not true of a comparison that has saved its profile, nor of a command that makes a
directory from which the path of the results goes up. -/
theorem results_not_kept :
    ((⟨⟨"./.analysis-state"⟩⟩ : Store).Tidy blocked ∧
      (∃ s : Settings WholeNumber, LearnOrder.saving.settings blocked = .ok s ∧
        s.store LearnOrder.saving.root = ⟨⟨"./.analysis-state"⟩⟩) ∧
      (Outcome.ofResult false
        ((Command.integrate .saving).run (⟨0⟩ : WholeNumber) blocked).1).code = failureCode ∧
      ¬ (⟨⟨"./.analysis-state"⟩⟩ : Store).SameResults WholeNumber blocked
        ((Command.integrate .saving).run (⟨0⟩ : WholeNumber) blocked).2) ∧
    (detour.WellFormed ∧ (∀ name, (⟨⟨"./x/../real"⟩⟩ : Store).NoLink detour name) ∧
      (∃ s : Settings WholeNumber, LearnOrder.saving.settings detour = .ok s ∧
        s.store LearnOrder.saving.root = ⟨⟨"./x/../real"⟩⟩) ∧
      (Outcome.ofResult false
        ((Command.learn .saving).run (⟨0⟩ : WholeNumber) detour).1).code = failureCode ∧
      ¬ (⟨⟨"./x/../real"⟩⟩ : Store).SameResults WholeNumber detour
        ((Command.learn .saving).run (⟨0⟩ : WholeNumber) detour).2) := by
  constructor
  · obtain ⟨fault, e, text, hrun, htext⟩ := run_blocked
    have hname : Path.IsName "learning_result.json" := by decide
    have hbefore := Disk.readText_none leads_blocked hname rfl
    rw [hrun]
    refine ⟨tidy_blocked, ⟨_, settings_blocked, store_blocked⟩, rfl, fun hsame => ?_⟩
    exact Store.load_ne_notSaved htext _ (hsame.profile.trans (Store.load_of_missing hbefore))
  · have hnoLink (name : String) : (⟨⟨"./x/../real"⟩⟩ : Store).NoLink detour name :=
      Store.noLink_of_entries (by simp [detour]) name
    obtain ⟨s, fault, hs, hstore, hrun⟩ := run_detour
    rw [hrun]
    refine ⟨wellFormed_detour, hnoLink, ⟨s, hs, hstore⟩, rfl, fun hsame => ?_⟩
    have hfile : (detour.set ["x"] .directory).get?
        ([.text "real"] ++ [.text "learning_result.json"])
          = some (.file (Text.encode "") .all) := by
      rw [Disk.get?_set (by simp), if_neg (by simp)]
      rfl
    have hafter : (detour.set ["x"] .directory).readText ((⟨⟨"./x/../real"⟩⟩ : Store).pathOf
        (Profile.format : SavedFormat WholeNumber _)) = .ok "".toList :=
      Disk.readText_file leads_detour (Store.isName_of_mem (Profile.fileName_mem _)) hfile
        rfl
    exact Store.load_ne_notSaved hafter _
      (hsame.profile.trans (Store.load_of_missing readText_detour))

end CommandLine

end HouseStyle
