import HouseStyle.Proofs.EntryName
import HouseStyle.Proofs.Number.Capped
import HouseStyle.Proofs.Project.Along
import HouseStyle.Proofs.Project.Ignored
import HouseStyle.Proofs.Project.Outcome
import HouseStyle.Proofs.Snapshot.Save

/-!
# Results in a hidden directory

Saving a result makes directories, a draft and the result itself.  If the path of the store goes
from the root of a project along names only, and no link is met there, then all of this lies at
these names below the root (`save_sameOutside`).  So if the first of the names is hidden, what is
saved is ignored by whatever is learned later (`findings_ignore`).

A path that goes up again behind a hidden name, or through a link with a hidden name, ends
elsewhere, and what is saved there can be seen.  A name that is no text can be seen too, even if it
starts with a dot (`findings_change`).
-/

namespace HouseStyle

namespace Store

variable {α β : Type} [NumberText α] {d : Disk}

lemma listed_step (s : Store) (format : SavedFormat α β) (hd : d.Listed) (value : β)
    (step : SaveStep) :
    (s.step format value d step).2.Listed := by
  cases step with
  | makeDirectory => exact (Disk.makeDirectories_makes d s.dir).listed hd
  | writeDraft => exact hd.write _ _
  | publish => exact hd.rename _ _

lemma listed_takeSteps (s : Store) (format : SavedFormat α β) (hd : d.Listed) (value : β)
    (steps : List SaveStep) :
    (s.takeSteps format value d steps).2.Listed := by
  induction steps generalizing d with
  | nil => exact hd
  | cons step steps ih =>
    have hstep := listed_step s format hd value step
    rw [takeSteps]
    split
    next e heq => exact ih (by rwa [heq] at hstep)
    next fault e heq => rwa [heq] at hstep

lemma listed_save (s : Store) (format : SavedFormat α β) (hd : d.Listed) (value : β) :
    (s.save format value d).2.Listed := by
  have hsteps := listed_takeSteps s format hd value steps
  rw [save]
  split
  next e heq => rwa [heq] at hsteps
  next fault e heq => rwa [heq] at hsteps

/-- Saving along names below a directory changes nothing but what is below the first name, and the
directory is where it was. -/
theorem save_sameOutside {s : Store} {format : SavedFormat α β} {root q : Path}
    {place : DiskPlace} {name : EntryName} {names : List EntryName} (value : β) (hd : d.WellFormed)
    (hdir : s.dir = root.join q) (hleads : d.Leads root place)
    (hq : q.parts = (name :: names).map .entry) (hname : Path.IsName format.fileName)
    (hresult : d.ClearAlong place (name :: names ++ [.text format.fileName]))
    (hdraft : d.ClearAlong place (name :: names ++ [.text (format.fileName ++ ".tmp")])) :
    d.SameOutside (s.save format value d).2 (place ++ [name]) ∧
      (s.save format value d).2.Leads root place := by
  have hnil := List.cons_ne_nil name names
  have hclear := hresult.front (List.prefix_append _ _)
  have halong := Disk.makeDirectories_along hd hleads hq hnil hclear
  have htext := (Disk.parts_join hleads.nonempty hq hnil).1
  rw [← hdir] at halong htext
  have hgrown := halong.makes.grown
  have hmade : (d.makeDirectories s.dir).2.Leads root place := hleads.mono hgrown.keeps
  have hplace {target : DiskPlace} (h : (d.makeDirectories s.dir).2.Leads s.dir target) :
      target = place ++ (name :: names) :=
    Disk.Leads.place_join (hdir ▸ h) hmade hq hnil (hgrown.clearAlong hclear)
  have hlink {file : String} (h : d.ClearAlong place (name :: names ++ [.text file])) :
      s.NoLink (d.makeDirectories s.dir).2 file := by
    intro target htarget
    rw [hplace htarget, List.append_assoc]
    exact hgrown.clearAlong h _ (by simp) List.prefix_rfl
  have hbelow {target : DiskPlace} (h : (d.makeDirectories s.dir).2.Leads s.dir target)
      (file : String) : place ++ [name] <+: target ++ [.text file] := by
    rw [hplace h, List.append_assoc]
    exact (List.prefix_append_right_inj place).2 (by simp)
  rcases save_cases value hd htext hname (hlink hdraft) with
    ⟨fault, e, hsave, hdrafted, -⟩ | ⟨e, target, hsave, hpub⟩
  · rw [hsave]
    refine ⟨halong.sameOutside.trans ?_, hmade.mono hdrafted.keeps⟩
    cases hdrafted with
    | same => exact .refl _ _
    | draft htarget _ bytes rights =>
      refine ⟨rfl, fun r hr => ?_⟩
      rw [Disk.get?_set (by simp), if_neg]
      rintro rfl
      exact hr (hbelow htarget _)
  · rw [hsave]
    refine ⟨halong.sameOutside.trans ⟨hpub.home, fun r hr => ?_⟩,
      hmade.mono (hpub.keeps (hlink hresult))⟩
    rw [hpub.get?, if_neg, if_neg]
    · rintro rfl
      exact hr (hbelow hpub.leads _)
    · rintro rfl
      exact hr (hbelow hpub.leads _)

end Store

/-! ### What is learned behind saving -/

/-- Content that is left out has no influence on what is learned: hidden entries and directories
that are left out, with everything below them, links, and files with paths that are left out.  Nor
has saving a result, if the path of the store goes along names, of which the first is hidden, and
no link is met on the way to the result or its draft. -/
theorem findings_ignore {α : Type} [Scalar α] [NumberText α] {s : Settings α}
    (hs : s.check = .ok ()) :
    ∃ x, s.exclusion = .ok x ∧
      (∀ (d d' : Disk) (root : Path) (place place' : DiskPlace), d.Listed → d'.Listed →
        d.Leads root place → d'.Leads root place' → x.SameBelow d place d' place' →
          d.SameFindings s root d') ∧
      ∀ (β : Type) (format : SavedFormat α β) (value : β) (d : Disk) (root : Path)
        (place : DiskPlace) (name : EntryName) (names : List EntryName) (later : Settings α),
        d.Listed → d.WellFormed → d.Leads root place →
          Path.parts ⟨s.stateDir⟩ = (name :: names).map .entry → Exclusion.isHidden name = true →
          Path.IsName format.fileName →
          d.ClearAlong place (name :: names ++ [.text format.fileName]) →
          d.ClearAlong place (name :: names ++ [.text (format.fileName ++ ".tmp")]) →
            d.SameFindings later root ((s.store root).saveFor root format value d).2 := by
  obtain ⟨x, hx⟩ := (Settings.sensible_of_check hs).exists_exclusion
  refine ⟨x, hx, fun d d' root place place' hd hd' h h' hsame => ?_,
    fun β format value d root place name names later hlisted hd hleads hparts hhidden hname hresult
      hdraft => ?_⟩
  · refine sameFindings_of_sameBelow hd hd' h h' fun x' hx' => ?_
    rwa [Except.ok.inj (hx'.symm.trans hx)]
  · have hroot : d.isDirectory root = true := (Disk.isDirectory_iff d root).2 ⟨place, hleads⟩
    rw [Store.saveFor, if_pos hroot]
    obtain ⟨hsame, hleads'⟩ := Store.save_sameOutside (s := s.store root) value hd rfl hleads
      hparts hname hresult hdraft
    refine sameFindings_of_sameBelow hlisted (Store.listed_save _ _ hlisted value) hleads hleads'
      fun x' _ => x'.sameBelow_of_shown fun shown hshown => hsame.get? _ fun hbelow => ?_
    have hfirst := (List.prefix_append_right_inj place).1 hbelow
    have hmem : name ∈ shown := hfirst.subset (List.mem_singleton_self name)
    rw [hshown name hmem] at hhidden
    cases hhidden

/-- A disk with one script. -/
def script : Disk := ⟨[(["a.py"], .file (Text.encode "x = 1\n") .all)], [], .none⟩

/-- The same disk with a hidden file, a directory that is left out and a link. -/
def litteredScript : Disk :=
  { script with
    entries := [(["a.py"], .file (Text.encode "x = 1\n") .all),
      ([".b.py"], .file (Text.encode "y = 2\n") .all), (["vendor"], .directory),
      (["vendor", "c.py"], .file [] ⟨false, true⟩), (["d.py"], .link [.entry "a.py"])] }

lemma sameBelow_littered :
    (⟨Settings.neverSources, []⟩ : Exclusion).SameBelow script [] litteredScript [] := by
  intro names hnames
  rw [Disk.get?, Disk.get?, if_neg (by simpa using hnames), if_neg (by simpa using hnames)]
  simp only [script, litteredScript, List.nil_append, List.lookup_cons, List.lookup_nil]
  cases ha : names == [.text "a.py"]
  · cases hb : names == [.text ".b.py"]
    · cases hv : names == [.text "vendor"]
      · cases hc : names == [.text "vendor", .text "c.py"]
        · cases hd : names == [.text "d.py"]
          · rfl
          · rfl
        · obtain rfl := eq_of_beq hc
          decide +kernel
      · obtain rfl := eq_of_beq hv
        decide +kernel
    · obtain rfl := eq_of_beq hb
      decide +kernel
  · rfl

theorem findings_ignore_littered :
    (Settings.standard : Settings CappedNumber).check = .ok () ∧
    script.SameFindings (Settings.standard : Settings CappedNumber) ⟨"."⟩ litteredScript ∧
    ∀ q : Profile CappedNumber,
      litteredScript.SameFindings (.standard : Settings CappedNumber) ⟨"."⟩
        (((.standard : Settings CappedNumber).store ⟨"."⟩).saveFor ⟨"."⟩ Profile.format q
          litteredScript).2 := by
  have hcheck : (Settings.standard : Settings CappedNumber).check = .ok () := rfl
  have hlisted : litteredScript.Listed := by decide
  have hwell : litteredScript.WellFormed := Disk.wellFormed_of_entries rfl (by decide)
  have hclear (file : String) :
      litteredScript.ClearAlong [] (.text ".analysis-state" :: [] ++ [.text file]) := by
    intro front hnil hfront target hlink
    have hmem := Disk.mem_entries_of_get? (by simpa using hnil) hlink
    have hlast : front = [.text "d.py"] := by simp_all [litteredScript, script]
    simp [hlast] at hfront
  obtain ⟨x, hx, hsame, hsave⟩ := findings_ignore hcheck
  obtain rfl : (⟨Settings.neverSources, []⟩ : Exclusion) = x := Except.ok.inj hx
  refine ⟨hcheck, hsame _ _ _ _ _ (by decide) hlisted (Disk.leads_here _) (Disk.leads_here _)
    sameBelow_littered, fun q => ?_⟩
  exact hsave _ _ q _ _ _ _ _ _ hlisted hwell (Disk.leads_here _) (by decide) (by decide)
    (by decide) (hclear _) (hclear _)

/-! ### Paths that leave the hidden directory -/

/-- Settings where nothing is set. -/
def plainSettings : Settings CappedNumber := .standard

/-- Settings with a path for results. -/
def storingAt (dir : String) : Settings CappedNumber := { plainSettings with stateDir := dir }

/-- Whether something else is learned from a disk when what is learned from it has been saved. -/
def Settings.Unsettles (s : Settings CappedNumber) (d : Disk) : Prop :=
  ∃ q path e, (d.project ⟨"."⟩).bind (fun p => p.learn s 0.0) = .ok q ∧
    (s.store ⟨"."⟩).saveFor ⟨"."⟩ Profile.format q d = (.ok path, e) ∧
    (e.project ⟨"."⟩).bind (fun p => p.learn s 0.0) ≠ .ok q

/-- Whether a profile that is learned from a disk says that there is a directory of sources. -/
def learnsSources (d : Disk) : Option Bool :=
  ((d.project ⟨"."⟩).bind fun p => p.learn plainSettings 0.0).toOption.map fun q =>
    q.conventions.any fun c => c.name == "has_source_directory"

lemma learnsSources_of_leads {d : Disk} (h : d.Leads ⟨"."⟩ []) :
    learnsSources d
      = ((ProjectTree.ofDirectory d ⟨"."⟩ []).learn plainSettings 0.0).toOption.map fun q =>
        q.conventions.any fun c => c.name == "has_source_directory" := by
  rw [learnsSources, Disk.project_of_leads h]
  rfl

/-- The disk with one script, and with a directory of sources. -/
def sourcesScript : Disk := script.set ["src"] .directory

lemma learnsSources_sourcesScript : learnsSources sourcesScript = some true := by
  rw [learnsSources_of_leads (Disk.leads_here _)]
  decide +kernel

/-- Of a result in a hidden directory of the sources, the directory of the sources can be seen. -/
lemma unsettles_of_sources {dir : String} {d made : Disk} (hlisted : d.Listed)
    (hleads : d.Leads ⟨"."⟩ []) (hbefore : learnsSources d = some false) (hwell : made.WellFormed)
    (hmade : d.makeDirectories ((storingAt dir).store ⟨"."⟩).dir = (.ok (), made))
    (hstore : made.Leads ((storingAt dir).store ⟨"."⟩).dir ["src", ".state"])
    (hhome : made.home = []) (hlimits : made.limits = .none)
    (hfree : ∀ file : String, made.get? ["src", ".state", .text file] = none)
    (hshown : ∀ names, .text ".state" ∉ names → made.get? names = sourcesScript.get? names) :
    (storingAt dir).Unsettles d := by
  have hroot : d.isDirectory ⟨"."⟩ = true := (Disk.isDirectory_iff _ _).2 ⟨[], hleads⟩
  obtain ⟨q, hq⟩ := ProjectTree.exists_learn
    (Settings.sensible_of_check (show plainSettings.check = .ok () from rfl))
    (.ofDirectory d ⟨"."⟩ []) 0.0
  have hroom (file : String) :
      Disk.Writable (made.get? ([.text "src", .text ".state"] ++ [.text file])) := by
    rw [List.cons_append, List.cons_append, List.nil_append, hfree]
    exact .none
  obtain ⟨e, hsave, hpub⟩ := Store.exists_published Profile.format q hwell hmade hstore
    (by decide) hlimits (hroom _) (hroom _).ne_directory
  have hlearned : (d.project ⟨"."⟩).bind (fun p => p.learn (storingAt dir) 0.0) = .ok q := by
    rw [Disk.project_of_leads hleads]
    exact hq
  refine ⟨q, _, e, hlearned, by rw [Store.saveFor, if_pos hroot, hsave], fun hlater => ?_⟩
  -- the saved result has the name of the hidden directory on the way to it
  have hlisted' : e.Listed := by
    have hsaved := Store.listed_save ((storingAt dir).store ⟨"."⟩) Profile.format hlisted q
    rwa [hsave] at hsaved
  have hafter : sourcesScript.SameFindings plainSettings ⟨"."⟩ e := by
    have hleads' : e.Leads ⟨"."⟩ [] := (hpub.home.trans hhome) ▸ Disk.leads_here e
    have hsources : sourcesScript.Leads ⟨"."⟩ [] := Disk.leads_here _
    refine sameFindings_of_sameBelow (by decide) hlisted' hsources hleads'
      fun x _ => x.sameBelow_of_shown fun names hnames => ?_
    have hstate : .text ".state" ∉ names := fun hmem => absurd (hnames _ hmem) (by decide)
    have hne (file : String) : names ≠ [.text "src", .text ".state"] ++ [.text file] := by
      rintro rfl
      simp at hstate
    rw [List.nil_append, hpub.get?, if_neg (hne _), if_neg (hne _), hshown names hstate]
  have hsame : learnsSources e = learnsSources d := by
    have hlater' : (e.project ⟨"."⟩).bind (fun p => p.learn plainSettings 0.0)
        = (d.project ⟨"."⟩).bind fun p => p.learn plainSettings 0.0 := hlater.trans hlearned.symm
    rw [learnsSources, hlater', learnsSources]
  have hsources : learnsSources e = learnsSources sourcesScript := by
    rw [learnsSources, learnsSources, hafter.learn 0.0 0.0]
    cases (sourcesScript.project ⟨"."⟩).bind fun p => p.learn plainSettings 0.0 <;> rfl
  rw [hsources, learnsSources_sourcesScript, hbefore] at hsame
  cases hsame

/-- The disk with one script, and with a link that has a hidden name. -/
def linkedScript : Disk := script.set [".state"] (.link [.here])

lemma unsettles_script : (storingAt ".state/../src/.state").Unsettles script := by
  let made := ((script.set [".state"] .directory).set ["src"] .directory).set ["src", ".state"]
    .directory
  have hmade : script.makeDirectories ⟨"./.state/../src/.state"⟩ = (.ok (), made) := by
    have hway : Disk.wayToName ⟨"./.state/../src/.state"⟩
        = [.here, .entry ".state", .up, .entry "src", .entry ".state"] := by decide
    have hparts : Path.parts ⟨"./.state/../src/.state"⟩
        = [.here, .entry ".state", .up, .entry "src", .entry ".state"] := by decide
    rw [Disk.makeDirectories, hway, hparts]
    simp [Disk.makeDirectoriesUp, Disk.ensureBelow, Disk.ensureDirectory, Disk.makeDirectory,
      Disk.targetOf, Disk.follow, Disk.get?, Disk.unlessRefused, DiskLimits.none, script, made,
      Disk.set, List.lookup_cons]
  have hstore : made.Leads ⟨"./.state/../src/.state"⟩ ["src", ".state"] := by
    refine ⟨by decide, Disk.linkLimit, ?_⟩
    exact .head (.here _ _ _) (.head (.down _ _ rfl) (.head (.up _ _ _)
      (.head (.down _ _ rfl) (.single (.down _ [] rfl)))))
  have hbefore : learnsSources script = some false := by
    rw [learnsSources_of_leads (Disk.leads_here _)]
    decide +kernel
  refine unsettles_of_sources (by decide) (Disk.leads_here _) hbefore
    (Disk.wellFormed_of_entries rfl (by decide)) hmade hstore rfl rfl (fun file => ?_)
    fun names hstate => ?_
  · simp [made, script, Disk.get?, Disk.set, List.lookup_cons]
  · have hne {place : DiskPlace} (h : .text ".state" ∈ place) : names ≠ place := by
      rintro rfl
      exact hstate h
    have hfirst : names ≠ [.text ".state"] := hne (by simp)
    rw [Disk.get?_set (by simp), if_neg (hne (by simp)), Disk.get?_set (by simp),
      Disk.get?_set (by simp), if_neg hfirst, sourcesScript, Disk.get?_set (by simp)]

lemma unsettles_linkedScript : (storingAt ".state/src/.state").Unsettles linkedScript := by
  let made := (linkedScript.set ["src"] .directory).set ["src", ".state"] .directory
  have hmade : linkedScript.makeDirectories ⟨"./.state/src/.state"⟩ = (.ok (), made) := by
    have hway : Disk.wayToName ⟨"./.state/src/.state"⟩
        = [.here, .entry ".state", .entry "src", .entry ".state"] := by decide
    have hparts : Path.parts ⟨"./.state/src/.state"⟩
        = [.here, .entry ".state", .entry "src", .entry ".state"] := by decide
    rw [Disk.makeDirectories, hway, hparts]
    simp [Disk.makeDirectoriesUp, Disk.ensureBelow, Disk.ensureDirectory, Disk.makeDirectory,
      Disk.targetOf, Disk.follow, Disk.get?, Disk.unlessRefused, DiskLimits.none, script,
      linkedScript, made, Disk.set, List.lookup_cons, Disk.linkLimit]
  have hstore : made.Leads ⟨"./.state/src/.state"⟩ ["src", ".state"] := by
    refine ⟨by decide, Disk.linkLimit - 1, ?_⟩
    exact .head (.here _ _ _) (.head (.link _ _ rfl) (.head (.here _ _ _)
      (.head (.down _ _ rfl) (.single (.down _ [] rfl)))))
  have hbefore : learnsSources linkedScript = some false := by
    rw [learnsSources_of_leads (Disk.leads_here _)]
    decide +kernel
  refine unsettles_of_sources (by decide) (Disk.leads_here _) hbefore
    (Disk.wellFormed_of_entries rfl (by decide)) hmade hstore rfl rfl (fun file => ?_)
    fun names hstate => ?_
  · simp [made, script, linkedScript, Disk.get?, Disk.set, List.lookup_cons]
  · have hne {place : DiskPlace} (h : .text ".state" ∈ place) : names ≠ place := by
      rintro rfl
      exact hstate h
    have hlink : names ≠ [.text ".state"] := hne (by simp)
    rw [Disk.get?_set (by simp), if_neg (hne (by simp)), Disk.get?_set (by simp), linkedScript,
      Disk.get?_set (by simp), if_neg hlink, sourcesScript, Disk.get?_set (by simp)]

/-! ### Names that are no texts -/

/-- A disk with one script, under a name that is no text. -/
def dottedScript : Disk := (Disk.empty []).set [rawDotted] (.file (Text.encode "y = 2\n") .all)

/-- The number of files of a language that are measured. -/
def measuredFiles (d : Disk) (language : Language) : Option Nat :=
  ((d.project ⟨"."⟩).bind fun p => p.analyze plainSettings).toOption.bind fun m =>
    (m.get? language.id).map LanguageMetrics.fileCount

lemma measuredFiles_of_leads {d : Disk} (h : d.Leads ⟨"."⟩ []) (language : Language) :
    measuredFiles d language
      = ((ProjectTree.ofDirectory d ⟨"."⟩ []).analyze plainSettings).toOption.bind fun m =>
        (m.get? language.id).map LanguageMetrics.fileCount := by
  rw [measuredFiles, Disk.project_of_leads h]
  rfl

/-- A file under a name that is no text is measured. -/
lemma not_sameFindings_dotted :
    ¬ (Disk.empty []).SameFindings plainSettings ⟨"."⟩ dottedScript := by
  intro hsame
  have hnone : measuredFiles (Disk.empty []) .python = none := by
    rw [measuredFiles_of_leads (Disk.leads_here _)]
    decide +kernel
  have hone : measuredFiles dottedScript .python = some 1 := by
    rw [measuredFiles_of_leads (Disk.leads_here _)]
    decide +kernel
  have heq : measuredFiles dottedScript .python = measuredFiles (Disk.empty []) .python := by
    rw [measuredFiles, hsame.analyze, measuredFiles]
  rw [hnone, hone] at heq
  cases heq

/-- A name that starts with a dot is not hidden if it is no text.  A hidden name at the start of
the path does not keep results hidden if the path goes up again behind it, or if the name is that
of a link. -/
theorem findings_change :
    (rawDotted.bytes.head? = some 0x2E ∧ Exclusion.isHidden rawDotted = false ∧
      (Disk.empty []).Listed ∧ dottedScript.Listed ∧
      (Disk.empty []).Leads ⟨"."⟩ [] ∧ dottedScript.Leads ⟨"."⟩ [] ∧
      (∀ place, place ≠ [rawDotted] → dottedScript.get? place = (Disk.empty []).get? place) ∧
      ¬ (Disk.empty []).SameFindings plainSettings ⟨"."⟩ dottedScript) ∧
    Exclusion.isHidden ".state" = true ∧
    ((storingAt ".state/../src/.state").check = .ok () ∧
      (Path.parts ⟨(storingAt ".state/../src/.state").stateDir⟩).head? = some (.entry ".state") ∧
      script.Listed ∧ script.WellFormed ∧ script.Leads ⟨"."⟩ [] ∧
      (storingAt ".state/../src/.state").Unsettles script) ∧
    ((storingAt ".state/src/.state").check = .ok () ∧
      Path.parts ⟨(storingAt ".state/src/.state").stateDir⟩
        = ([".state", "src", ".state"] : List EntryName).map .entry ∧
      linkedScript.Listed ∧ linkedScript.WellFormed ∧ linkedScript.Leads ⟨"."⟩ [] ∧
      (storingAt ".state/src/.state").Unsettles linkedScript) :=
  ⟨⟨by decide, by decide, by decide, by decide, Disk.leads_here _, Disk.leads_here _,
      fun _ hne => (Disk.get?_set (by simp) _ _).trans (if_neg hne), not_sameFindings_dotted⟩,
    by decide,
    ⟨rfl, by decide, by decide, Disk.wellFormed_of_entries rfl (by decide), Disk.leads_here _,
      unsettles_script⟩,
    ⟨rfl, by decide, by decide, Disk.wellFormed_of_entries rfl (by decide), Disk.leads_here _,
      unsettles_linkedScript⟩⟩

end HouseStyle
