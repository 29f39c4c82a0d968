import HouseStyle.Proofs.Number.Capped
import HouseStyle.Proofs.Number.Exact
import HouseStyle.Proofs.Overview.Bounds
import HouseStyle.Proofs.Project.Listed
import HouseStyle.Proofs.Project.Outcome
import HouseStyle.Proofs.Project.SharedScan
import HouseStyle.Proofs.Snapshot.Contents
import Mathlib.Analysis.SpecialFunctions.Exp

/-!
# What is learned can be loaded again

Every result that is learned from a project with settings that make sense has only finite numbers
and lies in its ranges, also after its strictness was moved.  So its text spells it, its check
passes, and it is loaded where it was saved.
-/

namespace HouseStyle

variable {α : Type} [Scalar α]

/-! ### Finite results whose counts fit into 64 bits -/

/-- Measures whose counts fit into 64 bits, as do those of their conventions. -/
structure LanguageMetrics.Counted (m : LanguageMetrics α) : Prop where
  fileCount : m.fileCount < Count.wordSize 64
  totalLines : m.totalLines < Count.wordSize 64
  lineStats : m.lineStats.Storable
  conventions : ∀ c ∈ m.conventions, c.frequency < Count.wordSize 64

/-- A profile whose counts fit into 64 bits. -/
def Profile.Counted (p : Profile α) : Prop :=
  ∀ c ∈ p.conventions, c.frequency < Count.wordSize 64

/-- An overview whose counts fit into 64 bits. -/
structure Overview.Counted (o : Overview α) : Prop where
  primary : ∀ p, o.primary = some p → p.Counted
  metrics : ∀ e ∈ o.metrics.entries, e.2.Counted

omit [Scalar α] in
instance (m : LanguageMetrics α) : Decidable m.Counted :=
  decidable_of_iff (m.fileCount < Count.wordSize 64 ∧ m.totalLines < Count.wordSize 64 ∧
      m.lineStats.Storable ∧ ∀ c ∈ m.conventions, c.frequency < Count.wordSize 64)
    ⟨fun ⟨hf, ht, hl, hc⟩ => ⟨hf, ht, hl, hc⟩, fun ⟨hf, ht, hl, hc⟩ => ⟨hf, ht, hl, hc⟩⟩

instance (p : Profile α) : Decidable p.Counted :=
  inferInstanceAs (Decidable (∀ c ∈ p.conventions, c.frequency < Count.wordSize 64))

instance (o : Overview α) : Decidable o.Counted :=
  decidable_of_iff ((∀ p ∈ o.primary, p.Counted) ∧ ∀ e ∈ o.metrics.entries, e.2.Counted)
    ⟨fun ⟨hp, hm⟩ => ⟨hp, hm⟩, fun ⟨hp, hm⟩ => ⟨hp, hm⟩⟩

lemma Convention.Finite.storable {c : Convention α} (h : c.Finite)
    (hcount : c.frequency < Count.wordSize 64) : c.Storable :=
  ⟨h.value, h.confidence, hcount⟩

lemma LanguageMetrics.Finite.storable {m : LanguageMetrics α} (h : m.Finite) (hcount : m.Counted) :
    m.Storable :=
  ⟨hcount.fileCount, hcount.totalLines, h.avgFunctionSize, h.avgComplexity, h.namingConsistency,
    h.styleConsistency, hcount.lineStats,
    fun c hc => (h.conventions c hc).storable (hcount.conventions c hc)⟩

lemma Profile.Finite.storable {room : Nat} {p : Profile α} (h : p.Finite room)
    (hcount : p.Counted) : p.Storable room :=
  ⟨h.strictness, fun c hc => (h.conventions c hc).storable (hcount c hc), h.rules, h.preferences,
    h.generatedAt⟩

lemma Overview.Finite.storable {room : Nat} {o : Overview α} (h : o.Finite room)
    (hcount : o.Counted) : o.Storable room :=
  ⟨fun p hp => (h.primary p hp).storable (hcount.primary p hp),
    fun e he => (h.metrics e he).storable (hcount.metrics e he), h.comparisons, h.strictness,
    h.rules, h.generatedAt⟩

/-! ### Loading behind saving -/

/-- Whether a result is loaded wherever its text is found, and so behind saving it where no links
have the names of the result and its draft.  Only if it was written over a draft that cannot be read
it cannot be read either. -/
structure SavedFormat.Recovers {β : Type} [NumberText α] (format : SavedFormat α β) (value : β) :
    Prop where
  of_text : ∀ (t : Store) (d : Disk),
    d.readText (t.pathOf format) = .ok (format.encode value).toList → t.load format d = .ok value
  of_save : ∀ (t : Store) (d e : Disk) (path : Path), t.dir.text ≠ "" → d.WellFormed →
    t.NoLink (d.makeDirectories t.dir).2 format.fileName →
      t.NoLink (d.makeDirectories t.dir).2 (format.fileName ++ ".tmp") →
        t.save format value d = (.ok path, e) → t.load format e = .ok value ∨
          ¬ t.ReadableDraft format (d.makeDirectories t.dir).2 ∧
            t.load format e = .error (.disk .denied)

omit [Scalar α] in
lemma SavedFormat.Legible.recovers {β : Type} [NumberText α] {format : SavedFormat α β} {value : β}
    (h : format.Legible value) (hname : Path.IsName format.fileName) : format.Recovers value := by
  have htext (t : Store) (d : Disk)
      (hread : d.readText (t.pathOf format) = .ok (format.encode value).toList) :
      t.load format d = .ok value := Store.load_eq_ok_iff_check.2 ⟨_, hread, h.decode, h.check⟩
  refine ⟨htext, fun t d e path hdir hd hresult hdraft hsave => ?_⟩
  rcases Store.save_cases value hd hdir hname hdraft with ⟨fault, e', hfailed, -⟩ |
    ⟨e', place, hsaved, hpub⟩
  · rw [hfailed] at hsave
    cases hsave
  · rw [hsaved] at hsave
    obtain ⟨-, rfl⟩ := Prod.mk.inj hsave
    cases hread : (Store.draftRights format (d.makeDirectories t.dir).2 place).readable with
    | true => exact Or.inl (htext t _ (hpub.readText hname hresult hread))
    | false =>
      refine Or.inr ⟨fun hall => ?_, Store.load_of_fault nofun
        (hpub.readText_denied hname hresult hread)⟩
      rw [hall place hpub.leads.reaches] at hread
      cases hread

lemma Profile.Sound.legible [NumberText α] [LawfulNumberText α] {p : Profile α}
    (h : p.Sound Document.depthLimit) (hcount : p.Counted) : Profile.format.Legible p where
  decode := SavedFormat.decode?_of_spelled
    (Profile.ofDocument?_spelled (h.finite.storable hcount))
  check := Profile.check_eq_ok_iff.2 h.inRange

lemma Overview.Sound.legible [NumberText α] [LawfulNumberText α] {o : Overview α}
    (h : o.Sound Document.depthLimit) (hcount : o.Counted) : Overview.format.Legible o where
  decode := SavedFormat.decode?_of_spelled
    (Overview.ofDocument?_spelled (h.finite.storable hcount))
  check := Overview.check_eq_ok_iff.2 h.inRange

/-- A profile with finite numbers that passes its check, and is loaded where its text is saved. -/
structure Profile.Loadable [NumberText α] (p : Profile α) : Prop where
  finite : p.Finite Document.depthLimit
  check : p.check = .ok ()
  recovers : ∀ [LawfulNumberText α], p.Counted → Profile.format.Recovers p

/-- An overview with finite numbers that passes its check, and is loaded where its text is saved. -/
structure Overview.Loadable [NumberText α] (o : Overview α) : Prop where
  finite : o.Finite Document.depthLimit
  check : o.check = .ok ()
  recovers : ∀ [LawfulNumberText α], o.Counted → Overview.format.Recovers o

lemma Profile.Sound.loadable [NumberText α] {p : Profile α} (h : p.Sound Document.depthLimit) :
    p.Loadable := by
  have hname : Path.IsName "learning_result.json" := by decide
  exact ⟨h.finite, Profile.check_eq_ok_iff.2 h.inRange,
    fun hcount => (h.legible hcount).recovers hname⟩

lemma Overview.Sound.loadable [NumberText α] {o : Overview α} (h : o.Sound Document.depthLimit) :
    o.Loadable := by
  have hname : Path.IsName "integrated_learning_result.json" := by decide
  exact ⟨h.finite, Overview.check_eq_ok_iff.2 h.inRange,
    fun hcount => (h.legible hcount).recovers hname⟩

/-! ### What is learned -/

namespace ProjectTree

/-- Whether everything that is counted in a project has a property, whatever language is looked at
with some settings. -/
def Counts (fits : Nat → Prop) (p : ProjectTree) (s : Settings α) : Prop :=
  ∀ x, s.exclusion = .ok x → ∀ language : Language,
    (p.workload x s.maxFiles language).Counts fits (p.layout x)

omit [Scalar α] in
lemma counts_true (p : ProjectTree) (s : Settings α) : p.Counts (fun _ => True) s :=
  fun _ _ _ => LanguageMetrics.counts_true _ _

variable [LawfulScalar α] [NumberText α] {fits : Nat → Prop} {p : ProjectTree} {s : Settings α}
  {now : α}

lemma sound_of_learn (hfits : Scalar.Handles α fits) (hcounts : p.Counts fits s) (hnow : InTime now)
    {q : Profile α} (h : p.learn s now = .ok q) {room : Nat} : q.Sound (room + 6) := by
  obtain ⟨w, layout, hwork, rfl⟩ := exists_mainWork h
  cases hx : s.exclusion with
  | error fault =>
    rw [mainWork_of_error hx] at hwork
    cases hwork
  | ok x =>
    obtain ⟨rfl, -, hfiles⟩ := mainWork_spec hx hwork
    refine Profile.sound_learn (Workload.sound_analysis hfits s fun hne => ?_) hnow _
    rcases hfiles with ⟨-, hnil⟩ | ⟨-, -, hw⟩
    · exact absurd hnil hne
    · rw [hw]
      exact hcounts x hx _

omit [LawfulScalar α] in
lemma mem_metricsOf {work : List Workload} {layout : Layout} {e : String × LanguageMetrics α}
    (h : e ∈ (metricsOf (analysesOf s work layout)).entries) :
    ∃ w ∈ work, e.2 = (w.analysis s layout).metrics.withoutLayout := by
  obtain ⟨a, ha, rfl⟩ := List.mem_map.1 h
  obtain ⟨-, w, hmem, -, hw⟩ := get?_analysesOf (SortedMap.mem_entries_iff.1 ha)
  exact ⟨w, hmem, by rw [hw]⟩

omit [LawfulScalar α] in
/-- An overview is made of the profile that is learned from the project and of all analyses. -/
lemma exists_parts_of_overview {o : Overview α} (h : p.overview s now = .ok o) :
    ∃ x work layout q, s.exclusion = .ok x ∧ p.allWork .sound s = .ok (work, layout) ∧
      p.learn s now = .ok q ∧
      o = Overview.integrate now (some q) (metricsOf (analysesOf s work layout)) := by
  rw [overview, overviewWith_eq] at h
  obtain ⟨⟨analyses, layout⟩, hall, hrest⟩ := exists_of_bind_eq_ok h
  obtain ⟨x, work, hx, hwork, rfl⟩ := exists_allWork hall
  cases hlearn : p.learnWith .sound s now with
  | error fault =>
    rw [hlearn] at hrest
    cases hrest
  | ok q =>
    rw [hlearn] at hrest
    exact ⟨x, work, layout, q, hx, hwork, hlearn, (Except.ok.inj hrest).symm⟩

lemma sound_of_overview (hfits : Scalar.Handles α fits) (hcounts : p.Counts fits s)
    (hnow : InTime now) {o : Overview α} (h : p.overview s now = .ok o) {room : Nat} :
    o.Sound (room + 7) := by
  obtain ⟨x, work, layout, q, hx, hall, hlearn, rfl⟩ := exists_parts_of_overview h
  obtain ⟨rfl, hwork⟩ := allWork_spec hx hall
  refine Overview.sound_integrate hnow (fun q' hq => ?_) fun e he => ?_
  · obtain rfl := Option.some.inj hq
    exact sound_of_learn hfits hcounts hnow hlearn
  · obtain ⟨w, hmem, hw⟩ := mem_metricsOf he
    have hsound := Workload.sound_analysis hfits s fun _ => (hwork w hmem).2.2.2 ▸ hcounts x hx _
    exact hw ▸ hsound.withoutLayout

/-- Of every project there are a profile and an overview, and they can be loaded again, as they are
and adapted to any earlier profile. -/
theorem loadable_results [ExactCounts α] (hs : s.check = .ok ()) (hnow : InTime now)
    (p : ProjectTree) (previous : Profile α) :
    ∃ q o, p.learn s now = .ok q ∧ p.overview s now = .ok o ∧
      q.Loadable ∧ (Profile.adapt s.adaptationRate previous q).Loadable ∧
      o.Loadable ∧ (o.adaptPrimary s.adaptationRate previous).Loadable := by
  obtain ⟨q, hq⟩ := exists_learn (Settings.sensible_of_check hs) p now
  obtain ⟨o, -, ho, -⟩ := exists_overview (Settings.sensible_of_check hs) p now
  have hprofile : q.Sound Document.depthLimit :=
    sound_of_learn Scalar.handles_all (p.counts_true s) hnow hq
  have hoverview : o.Sound Document.depthLimit :=
    sound_of_overview Scalar.handles_all (p.counts_true s) hnow ho
  exact ⟨q, o, hq, ho, hprofile.loadable, (hprofile.adapt _ _).loadable, hoverview.loadable,
    (hoverview.adaptPrimary _ _).loadable⟩

end ProjectTree

/-! ### A project of two languages -/

/-- A script with one function and its documentation. -/
def workshopScript : String :=
  "\"\"\"Shop.\"\"\"\nimport os\n\n\ndef load_user(name):\n    \"\"\"Load.\"\"\"\n    return name\n"

/-- A script with one function in another language. -/
def workshopPart : String :=
  "const maxSize = 3;\nfunction loadUser(a) \x7b\n  return a;\n\x7d\n"

/-- The settings of the project, as a file. -/
def workshopSettings : String :=
  "languages: [javascript, python]\nprimary_language: python\nadaptation_rate: 0.5\nmax_files: 4\n"

/-- A disk with files of two languages and settings, and with a file that is left out. -/
def workshop : Disk :=
  { entries := [(["stylelearn.yaml"], .file (Text.encode workshopSettings) .all),
      (["a.py"], .file (Text.encode workshopScript) .all), (["lib"], .directory),
      (["lib", "b.js"], .file (Text.encode workshopPart) .all), (["vendor"], .directory),
      (["vendor", "c.py"], .file [] ⟨false, true⟩)]
    home := []
    limits := .none }

/-- The settings of the project. -/
def Settings.workshop : Settings α :=
  { standard with
    adaptationRate := 0.5
    languages := ["javascript", "python"]
    primaryLanguage := some "python"
    maxFiles := some 4 }

lemma Settings.check_workshop [LawfulScalar α] (hsteep : Scalar.lt (0.0 : α) 10.0 = true) :
    (workshop : Settings α).check = .ok () := by
  have hshare {n : Nat} (hn : n ≤ 10) : Scalar.within (0.0 : α) 1.0
      (OfScientific.ofScientific n true 1) = true :=
    (Scalar.finiteWithin_tenths (Nat.zero_le n) hn (by decide)).within
  have hsteepness : Scalar.isFinite (10.0 : α) = true := LawfulScalar.isFinite_tenths (by decide)
  have hdir : Text.allBlank ".analysis-state".toList = false := by decide
  simp only [check, workshop, standard, checkShare, hshare (n := 7) (by decide),
    hshare (n := 6) (by decide), hshare (n := 5) (by decide), hsteep, hsteepness, hdir]
  rfl

lemma Settings.store_workshop :
    (workshop : Settings α).store ⟨"."⟩ = ⟨⟨"./.analysis-state"⟩⟩ := by
  have hdir : Path.join ⟨"."⟩ ⟨".analysis-state"⟩ = ⟨"./.analysis-state"⟩ := by decide
  rw [store, stateDirFor, workshop, standard, hdir]

/-- A time after the start of 1970. -/
lemma inTime_two [LawfulScalar α] : InTime (2.0 : α) :=
  Bool.and_eq_true_iff.2
    ⟨LawfulScalar.isFinite_tenths (by decide), LawfulScalar.le_tenths (by decide) (by decide)⟩

/-- An earlier profile of the project. -/
def Profile.earlier : Profile α :=
  { language := "python"
    maturity := .expert
    strictness := 0.9
    conventions := [⟨.naming, "function_naming", .text "snake_case", 0.8, 12, ["load_user"]⟩]
    rules := .empty
    preferences := SortedMap.empty.insert "quotes" (.text "double")
    generatedAt := 1.0 }

lemma Profile.check_earlier [LawfulScalar α] : (earlier : Profile α).check = .ok () := by
  refine Profile.check_eq_ok_iff.2 ⟨?_, ?_, fun c hc => ?_⟩
  · exact (Scalar.finiteWithin_tenths (by decide) (by decide) (by decide)).within
  · exact Bool.and_eq_true_iff.2
      ⟨LawfulScalar.isFinite_tenths (by decide), LawfulScalar.le_tenths (by decide) (by decide)⟩
  · obtain rfl := List.mem_singleton.1 hc
    exact ⟨(Scalar.finiteWithin_tenths (Nat.zero_le 8) (by decide) (by decide)).within,
      by simp [Convention.maxExamples]⟩

namespace ProjectTree

/-- What is learned from the project, and whether its counts fit into 64 bits. -/
lemma counted_workshop {q : Profile CappedNumber}
    (h : (ofDisk workshop ⟨"."⟩).learn .workshop 2.0 = .ok q) :
    q.language = "python" ∧ q.conventions ≠ [] ∧ q.Counted := by
  have hall : ((ofDirectory workshop ⟨"."⟩ []).learn (.workshop : Settings CappedNumber)
      2.0).toOption.all (fun q => q.language == "python" && !q.conventions.isEmpty &&
        decide q.Counted) = true := by
    decide +kernel
  have hhere : workshop.Leads ⟨"."⟩ [] := Disk.leads_here workshop
  rw [← ofDisk_of_leads hhere, h] at hall
  simpa [Except.toOption, and_assoc] using hall

/-- The results about a project, in exact numbers and in numbers that have a text.  The second ones
are loaded behind saving them beside the files of the project. -/
theorem loadable_workshop :
    ((Settings.workshop : Settings (ExactNumber Real.exp)).check = .ok () ∧
      InTime (2.0 : ExactNumber Real.exp) ∧
      (Profile.earlier : Profile (ExactNumber Real.exp)).check = .ok () ∧
      ∃ q o, (ofDisk workshop ⟨"."⟩).learn .workshop (2.0 : ExactNumber Real.exp) = .ok q ∧
        (ofDisk workshop ⟨"."⟩).overview .workshop (2.0 : ExactNumber Real.exp) = .ok o ∧
        q.Loadable ∧ (Profile.adapt 0.5 .earlier q).Loadable ∧
        o.Loadable ∧ (o.adaptPrimary 0.5 .earlier).Loadable) ∧
    ((Settings.workshop : Settings CappedNumber).check = .ok () ∧ InTime (2.0 : CappedNumber) ∧
      (Profile.earlier : Profile CappedNumber).check = .ok () ∧
      ∃ q path e, (ofDisk workshop ⟨"."⟩).learn .workshop (2.0 : CappedNumber) = .ok q ∧
        q.language = "python" ∧ q.conventions ≠ [] ∧
        (⟨⟨"."⟩⟩ : Store).save Profile.format (.adapt 0.5 .earlier q) workshop = (.ok path, e) ∧
        (⟨⟨"."⟩⟩ : Store).load Profile.format e = .ok (Profile.adapt 0.5 .earlier q)) := by
  constructor
  · have hcheck : (Settings.workshop : Settings (ExactNumber Real.exp)).check = .ok () := by
      refine Settings.check_workshop ?_
      rw [ExactNumber.zero_eq, ExactNumber.tenths, ExactNumber.lt_some]
      norm_num
    exact ⟨hcheck, inTime_two, Profile.check_earlier,
      loadable_results hcheck inTime_two (ofDisk workshop ⟨"."⟩) .earlier⟩
  · have hcheck : (Settings.workshop : Settings CappedNumber).check = .ok () :=
      Settings.check_workshop rfl
    obtain ⟨q, o, hq, -, -, hadapted, -⟩ :=
      loadable_results hcheck inTime_two (ofDisk workshop ⟨"."⟩) .earlier
    obtain ⟨hlanguage, hconventions, hcounted⟩ := counted_workshop hq
    have hwell : workshop.WellFormed := Disk.wellFormed_of_entries rfl (by decide)
    have hhere : workshop.Leads ⟨"."⟩ [] := Disk.leads_here _
    have hmade : (workshop.makeDirectories ⟨"."⟩).2 = workshop := by
      rw [Disk.makeDirectories_of_leads hhere]
    have hlink (name : String) :
        (⟨⟨"."⟩⟩ : Store).NoLink (workshop.makeDirectories ⟨"."⟩).2 name := by
      rw [hmade]
      exact Store.noLink_of_entries (by simp [workshop]) name
    have hname : Path.IsName (Profile.format (α := CappedNumber)).fileName := by decide
    obtain ⟨e, hsave, -⟩ := Store.exists_published (s := ⟨⟨"."⟩⟩) Profile.format
      (.adapt 0.5 .earlier q) hwell (Disk.makeDirectories_of_leads hhere) hhere hname rfl .none
      (by decide)
    refine ⟨hcheck, inTime_two, Profile.check_earlier, q, _, e, hq, hlanguage, hconventions, hsave,
      ((hadapted.recovers hcounted).of_save _ _ _ _ (by decide) hwell (hlink _) (hlink _)
        hsave).resolve_right fun hsealed => hsealed.1 fun place hreaches => ?_⟩
    -- no draft was left
    rw [hmade] at hreaches
    obtain rfl := Disk.Leads.unique ⟨by decide, hreaches⟩ hhere
    rw [Disk.makeDirectories_of_leads hhere]
    rfl

end ProjectTree

end HouseStyle
