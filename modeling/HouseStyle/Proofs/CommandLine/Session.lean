import HouseStyle.Proofs.CommandLine.Slots
import HouseStyle.Proofs.Number.Capped
import HouseStyle.Proofs.Project.HiddenState

/-!
# Sessions

A session is a sequence of commands about one project, all of which succeed.  The project may change
between them, but nothing else touches the directory of the results.  Then that directory holds what
the machine with two slots says, however many commands there were.
-/

namespace HouseStyle

/-- Whether nothing stands in the way of saving a result in a store. -/
structure Store.Open (t : Store) (root : Path) (texts : String → Option String)
    (d : Disk) : Prop where
  files : t.Contains texts d
  drafts : ∀ name ∈ Store.resultNames, texts (name ++ ".tmp") = none
  root : d.isDirectory root = true
  there : ∃ place, d.Leads t.dir place
  limits : d.limits = .none

/-- Then every result can be saved, and another one after it. -/
lemma Store.Open.exists_saveFor {t : Store} {root : Path} {texts : String → Option String}
    {d : Disk} (h : t.Open root texts d) (hdir : t.dir.text ≠ "") {α β : Type} [NumberText α]
    {format : SavedFormat α β} (hformat : format.fileName ∈ resultNames) (value : β) :
    ∃ path e texts', t.saveFor root format value d = (.ok path, e) ∧ t.Open root texts' e := by
  obtain ⟨place, hleads⟩ := h.there
  obtain ⟨q, hroot⟩ := (Disk.isDirectory_iff _ _).1 h.root
  obtain ⟨e, hsave, hkeeps, hlimits⟩ := h.files.exists_save hdir (isName_of_mem hformat)
    (h.drafts _ hformat) hleads h.limits value
  have hfiles := h.files.save hdir (isName_of_mem hformat) (h.drafts _ hformat) hsave
  refine ⟨_, e, _, by rw [saveFor, if_pos h.root, hsave], hfiles, fun name hname => ?_,
    (Disk.isDirectory_iff _ _).2 ⟨q, hroot.mono hkeeps⟩, ⟨place, hleads.mono hkeeps⟩, hlimits⟩
  rw [Function.update_of_ne (ne_draft_of_mem hformat hname).symm]
  exact h.drafts name hname

namespace CommandLine

variable {α : Type} [Scalar α] [NumberText α]

/-- The commands of a session and the disk behind them.  The clock of a session shows a time, and
what is counted in the project and in what is learned of it fits into 64 bits. -/
inductive Session (c : Setup α) : List (Deed α) → Disk → Prop
  /-- At first nothing is saved. -/
  | start {d : Disk} (hempty : c.store.Contains (fun _ => none) d) : Session c [] d
  /-- The project changes. -/
  | change {history : List (Deed α)} {d e : Disk} (h : Session c history d)
      (hsame : c.store.Untouched d e) : Session c history e
  /-- The conventions of the main language are learned. -/
  | learn {history : List (Deed α)} {d e : Disk} {o : LearnOrder} {now : α} {fresh : Profile α}
      {report : Report} (h : Session c history d) (hfits : c.Fits o.root o.settingsFile? d)
      (hcounts : o.Counts (· < Count.wordSize 64) c.base d) (hnow : InTime now)
      (hfresh : o.freshProfile c.base now d = .ok fresh) (hcount : fresh.Counted)
      (hrun : (Command.learn o).run now d = (.ok report, e)) :
      Session c (history ++ [.learn o fresh]) e
  /-- All languages are compared. -/
  | integrate {history : List (Deed α)} {d e : Disk} {o : LearnOrder} {now : α} {fresh : Overview α}
      {report : Report} (h : Session c history d) (hfits : c.Fits o.root o.settingsFile? d)
      (hcounts : o.Counts (· < Count.wordSize 64) c.base d) (hnow : InTime now)
      (hfresh : o.freshOverview c.base now d = .ok fresh) (hcount : fresh.Counted)
      (hrun : (Command.integrate o).run now d = (.ok report, e)) :
      Session c (history ++ [.integrate o fresh]) e

/-- Whether the commands see some slots on a disk. -/
structure Setup.Shows (c : Setup α) (slots : Slots α) (d : Disk) : Prop where
  /-- The directory of the results holds the texts of the slots and nothing else. -/
  files : c.store.Contains slots.text? d
  /-- The profile in its slot is loaded. -/
  profile : ∀ q, c.store.load Profile.format d = .ok q ↔ slots.learned = some q
  /-- The overview in its slot is loaded. -/
  overview : ∀ v, c.store.load Overview.format d = .ok v ↔ slots.compared = some v
  /-- A profile that is learned starts from the one in the slot, if it is adapted. -/
  learn : ∀ {o : LearnOrder} {now : α} {report : Report} {e : Disk},
    c.Fits o.root o.settingsFile? d → (Command.learn o).run now d = (.ok report, e) →
      ∃ p fresh, Presentation.ofName? o.format = some p ∧
        o.freshProfile c.base now d = .ok fresh ∧
        report = p.profile c.root (c.profileOf slots o fresh) ∧ (o.saves = false → e = d)
  /-- So does the profile in an overview. -/
  integrate : ∀ {o : LearnOrder} {now : α} {report : Report} {e : Disk},
    c.Fits o.root o.settingsFile? d → (Command.integrate o).run now d = (.ok report, e) →
      ∃ p fresh, Presentation.ofName? o.format = some p ∧
        o.freshOverview c.base now d = .ok fresh ∧
        report = p.overview c.root (c.overviewOf slots o fresh) ∧ (o.saves = false → e = d)
  /-- The document of a slot is shown as it is saved. -/
  shown : ∀ {o : ShowOrder} {text : String} (coloured : Bool) (now : α),
    c.Fits o.root o.settingsFile? d → o.format = "json" → slots.shown? = some text →
      Outcome.ofResult coloured ((Command.display o).run now d).1 = ⟨0, text ++ "\n", ""⟩
  /-- If both slots are empty there is nothing to show. -/
  nothing : ∀ {o : ShowOrder} (coloured : Bool) (now : α),
    c.Fits o.root o.settingsFile? d → slots.shown? = none →
      (Outcome.ofResult coloured ((Command.display o).run now d).1).code = failureCode

/-- A whole session goes along with the machine. -/
lemma Session.keeps [LawfulScalar α] [FiniteReading α] [LawfulNumberText α] {c : Setup α}
    {history : List (Deed α)} {d : Disk} (h : Session c history d) :
    c.Keeps (c.slots history) d := by
  -- the invariant says of the values in the slots that they can be read back, for the next command
  -- may start from one
  induction h with
  | start hempty =>
    refine ⟨?_, nofun, nofun⟩
    rw [← Slots.text?_empty (α := α)] at hempty
    exact hempty
  | change _ hsame ih => exact ⟨ih.files.untouched hsame, ih.learned, ih.compared⟩
  | learn _ hfits hcounts hnow hfresh hcount hrun ih =>
    rw [Setup.slots, List.foldl_append]
    exact ih.learn hfits Scalar.handles_lt hcounts hnow hfresh hcount hrun
  | integrate _ hfits hcounts hnow hfresh hcount hrun ih =>
    rw [Setup.slots, List.foldl_append]
    exact ih.integrate hfits Scalar.handles_lt hcounts hnow hfresh hcount hrun

/-- Whatever the commands of a session are, the directory of the results holds what the machine with
two slots says, and the next command sees that. -/
theorem Session.shows [LawfulScalar α] [FiniteReading α] [LawfulNumberText α] {c : Setup α}
    {history : List (Deed α)} {d : Disk} (h : Session c history d) :
      c.Shows (c.slots history) d := by
  have hkeeps := h.keeps
  exact {
    files := hkeeps.files
    profile := hkeeps.load_profile
    overview := hkeeps.load_overview
    learn := fun hfits hrun => by
      obtain ⟨p, fresh, hname, hfresh, hreport, hend⟩ := hkeeps.learn_ok hfits hrun
      exact ⟨p, fresh, hname, hfresh, hreport, fun hsaves => by simpa [hsaves] using hend⟩
    integrate := fun hfits hrun => by
      obtain ⟨p, fresh, _, hname, hfresh, hreport, -, hend⟩ := hkeeps.integrate_ok hfits hrun
      exact ⟨p, fresh, hname, hfresh, hreport, fun hsaves => by simpa [hsaves] using hend⟩
    shown := fun coloured _ hfits hformat htext => hkeeps.shown hfits hformat htext coloured
    nothing := fun coloured _ hfits htext => hkeeps.nothing hfits htext coloured }

/-! ### Going on -/

/-- Whether nothing stands in the way of an order in a session. -/
structure Setup.Ready (c : Setup α) (o : LearnOrder) (d : Disk) : Prop where
  fits : c.Fits o.root o.settingsFile? d
  format : ∃ p, Presentation.ofName? o.format = some p
  check : (o.override c.base).check = .ok ()
  root : d.isDirectory c.root = true
  there : ∃ place, d.Leads c.store.dir place
  limits : d.limits = .none

section Ready

variable {c : Setup α} {slots : Slots α} {o : LearnOrder} {d : Disk}

omit [NumberText α] in
lemma Setup.store_override (hroot : o.root = c.root) :
    (o.override c.base).store o.root = c.store := by
  rw [hroot]
  rfl

lemma Setup.Ready.prepare (h : c.Ready o d) :
    ∃ p, o.prepare d = .ok (p, o.override c.base) := by
  obtain ⟨p, hp⟩ := h.format
  have hsettings : o.settings d = .ok (o.override c.base) := by
    simp only [LearnOrder.settings, h.fits.settings, bind, Except.bind, h.check]
  refine ⟨p, ?_⟩
  simp only [LearnOrder.prepare, presentationOf, hp, hsettings, Except.mapError, bind, Except.bind]
  rfl

lemma Setup.Ready.project (h : c.Ready o d) :
    (d.project o.root : Except (ProjectFault α) _) = .ok (.ofDisk d o.root) := by
  rw [Disk.project, h.fits.sameRoot, if_pos h.root]

/-- The main language can be learned where the earlier profile is found and any profile can be
saved. -/
lemma Setup.Ready.exists_learn (h : c.Ready o d) {previous : Option (Profile α)}
    (hprevious : o.previous? (o.override c.base) d = .ok previous)
    (hsave : ∀ q : Profile α, ∃ path e,
      c.store.saveFor o.root Profile.format q d = (.ok path, e)) (now : α) :
    ∃ fresh report e, o.freshProfile c.base now d = .ok fresh ∧
      (Command.learn o).run now d = (.ok report, e) := by
  obtain ⟨p, hprepare⟩ := h.prepare
  obtain ⟨fresh, hfresh⟩ := ProjectTree.exists_learn (Settings.sensible_of_check h.check)
    (.ofDisk d o.root) now
  have hprofile : o.profile (o.override c.base) now d
      = .ok (LearnOrder.adapted (o.override c.base) previous fresh) := by
    simp only [LearnOrder.profile, h.project, hfresh, hprevious, bind, Except.bind]
    rfl
  obtain ⟨path, e, hsaved⟩ := hsave (LearnOrder.adapted (o.override c.base) previous fresh)
  have hstore := store_override h.fits.sameRoot
  have hfresh' : o.freshProfile c.base now d = .ok fresh := by
    simp only [LearnOrder.freshProfile, h.project, bind, Except.bind, hfresh]
  simp only [Command.run, LearnOrder.learn, hprepare, hprofile, Except.mapError, LearnOrder.finish,
    LearnOrder.saveProfile, hstore, hsaved]
  split
  · exact ⟨fresh, _, _, hfresh', rfl⟩
  · exact ⟨fresh, _, _, hfresh', rfl⟩

namespace Setup.Keeps

lemma previous?_ok (h : c.Keeps slots d) (hready : c.Ready o d) :
    o.previous? (o.override c.base) d = .ok (slots.previous? o) := by
  obtain ⟨place, hleads⟩ := hready.there
  have hload := h.files.load?_of_leads hleads (Store.isName_of_mem (Profile.fileName_mem α))
    Slots.text?_profile h.load_profile
  rw [store, ← hready.fits.sameRoot] at hload
  rw [LearnOrder.previous?, Slots.previous?]
  split_ifs
  · exact hload
  · rfl

lemma opened (h : c.Keeps slots d) (hready : c.Ready o d) :
    c.store.Open o.root slots.text? d where
  files := h.files
  drafts := fun _ => Slots.text?_draft
  root := hready.fits.sameRoot ▸ hready.root
  there := hready.there
  limits := hready.limits

/-- The main language can be learned. -/
lemma exists_learn (h : c.Keeps slots d) (hready : c.Ready o d) (now : α) :
    ∃ fresh report e, o.freshProfile c.base now d = .ok fresh ∧
      (Command.learn o).run now d = (.ok report, e) := by
  refine hready.exists_learn (h.previous?_ok hready) (fun q => ?_) now
  obtain ⟨path, e, -, hsave, -⟩ := (h.opened hready).exists_saveFor
    (Settings.dir_text_ne c.check c.root) (Profile.fileName_mem α) q
  exact ⟨path, e, hsave⟩

/-- All languages can be compared. -/
lemma exists_integrate (h : c.Keeps slots d) (hready : c.Ready o d) (now : α) :
    ∃ fresh report e, o.freshOverview c.base now d = .ok fresh ∧
      (Command.integrate o).run now d = (.ok report, e) := by
  obtain ⟨p, hprepare⟩ := hready.prepare
  obtain ⟨fresh, q, hfresh, hq⟩ := ProjectTree.exists_overview
    (Settings.sensible_of_check hready.check) (.ofDisk d o.root) now
  have hdir := Settings.dir_text_ne c.check c.root
  -- the profile is saved first, and is not in the way of the overview
  obtain ⟨path, made, texts, hprofile, hopen⟩ := (h.opened hready).exists_saveFor hdir
    (Profile.fileName_mem α) (c.profileOf slots o q)
  obtain ⟨path', e, -, hwhole, -⟩ := hopen.exists_saveFor hdir (Overview.fileName_mem α)
    (c.overviewOf slots o fresh)
  have hprimary : (c.overviewOf slots o fresh).primary = some (c.profileOf slots o q) := by
    rw [overviewOf, hq]
    rfl
  have hoverview : o.overview (o.override c.base) now d = .ok (c.overviewOf slots o fresh) := by
    simp only [LearnOrder.overview, hready.project, hfresh, h.previous?_ok hready, bind,
      Except.bind]
    rfl
  have hstore := store_override hready.fits.sameRoot
  have hsaved : o.saveOverview (o.override c.base) (c.overviewOf slots o fresh) d
      = (.ok path', e) := by
    simp only [LearnOrder.saveOverview, hprimary, LearnOrder.saveProfile, hstore, hprofile, hwhole]
  have hfresh' : o.freshOverview c.base now d = .ok fresh := by
    simp only [LearnOrder.freshOverview, hready.project, bind, Except.bind, hfresh]
  simp only [Command.run, LearnOrder.integrate, hprepare, hoverview, Except.mapError,
    LearnOrder.finish, hsaved]
  split
  · exact ⟨fresh, _, _, hfresh', rfl⟩
  · exact ⟨fresh, _, _, hfresh', rfl⟩

end Setup.Keeps

end Ready

/-! ### A session about a workshop -/

/-- A disk with the workshop and a directory of results, both in the directory of the program. -/
structure Shelf (d : Disk) : Prop where
  home : d.home = []
  limits : d.limits = .none
  wellFormed : d.WellFormed
  listed : d.Listed
  directory : d.get? [".analysis-state"] = some .directory
  shown : ∀ names, (∀ name ∈ names, Exclusion.isHidden name = false) →
    d.get? names = workshop.get? names

/-- The workshop with an empty directory of results. -/
def shelf : Disk := workshop.set [".analysis-state"] .directory

namespace Shelf

variable {d e : Disk}

/-- A place behind the directory of the results is hidden. -/
lemma ne_of_shown {names rest : List EntryName}
    (h : ∀ name ∈ names, Exclusion.isHidden name = false) :
    names ≠ .text ".analysis-state" :: rest := by
  rintro rfl
  have hhidden : Exclusion.isHidden (.text ".analysis-state") = true := by decide
  rw [h _ List.mem_cons_self] at hhidden
  cases hhidden

lemma leads (h : Shelf d) : d.Leads ⟨"./.analysis-state"⟩ [".analysis-state"] := by
  refine ⟨by decide, Disk.linkLimit, ?_⟩
  rw [h.home]
  exact .head (.here _ _ _) (.single (.down _ [] h.directory))

/-- Anything may be put into the directory of the results, unless it is in the place of another
directory. -/
lemma set (h : Shelf d) {name : EntryName}
    (hplace : d.get? [.text ".analysis-state", name] ≠ some .directory) (entry : DiskEntry) :
    Shelf (d.set [.text ".analysis-state", name] entry) := by
  have hget (q : DiskPlace) : (d.set [.text ".analysis-state", name] entry).get? q
      = if q = [.text ".analysis-state", name] then some entry else d.get? q :=
        Disk.get?_set (by simp) _ q
  have hdirectory {q : DiskPlace} (hq : d.get? q = some .directory) :
      (d.set [.text ".analysis-state", name] entry).get? q = some .directory := by
    rw [hget, if_neg, hq]
    rintro rfl
    exact hplace hq
  refine ⟨h.home, h.limits, ⟨hdirectory h.wellFormed.home, fun q last hq => hdirectory ?_⟩,
    h.listed.set _ _, hdirectory h.directory, fun names hnames => ?_⟩
  · rw [hget] at hq
    split_ifs at hq with heq
    · obtain ⟨rfl, -⟩ : q = [.text ".analysis-state"] ∧ [last] = [name] := List.append_inj' heq rfl
      exact h.directory
    · exact h.wellFormed.above _ _ hq
  · rw [hget, if_neg (ne_of_shown hnames)]
    exact h.shown names hnames

/-- Saving a result on a shelf leaves a shelf, if its draft is no link. -/
lemma save {α β : Type} [NumberText α] {format : SavedFormat α β} {value : β} {path : Path}
    (h : Shelf d) (hformat : format.fileName ∈ Store.resultNames)
    (hdraft : (⟨⟨"./.analysis-state"⟩⟩ : Store).NoLink d (format.fileName ++ ".tmp"))
    (hsave : (⟨⟨"./.analysis-state"⟩⟩ : Store).save format value d = (.ok path, e)) : Shelf e := by
  have hmade : (d.makeDirectories ⟨"./.analysis-state"⟩).2 = d := by
    rw [Disk.makeDirectories_of_leads h.leads]
  have hlisted := Store.listed_save ⟨⟨"./.analysis-state"⟩⟩ format h.listed value
  have hcases := Store.save_cases (s := ⟨⟨"./.analysis-state"⟩⟩) value h.wellFormed (by decide)
    (Store.isName_of_mem hformat) (hmade.symm ▸ hdraft)
  rw [hmade] at hcases
  rw [hsave] at hlisted
  rcases hcases with ⟨fault, e', hfailed, -⟩ | ⟨e', place, hsaved, hpub⟩
  · rw [hfailed] at hsave
    cases hsave
  · rw [hsaved] at hsave
    obtain ⟨-, rfl⟩ := Prod.mk.inj hsave
    obtain rfl := hpub.leads.unique h.leads
    refine ⟨hpub.home.trans h.home, hpub.limits.trans h.limits, hpub.wellFormed h.wellFormed,
      hlisted, ?_, fun names hnames => ?_⟩
    · rw [hpub.get?, if_neg (by simp), if_neg (by simp), h.directory]
    · rw [hpub.get?, List.singleton_append, List.singleton_append, if_neg (ne_of_shown hnames),
        if_neg (ne_of_shown hnames), h.shown names hnames]

lemma sameBelow (h : Shelf d) (x : Exclusion) : x.SameBelow workshop [] d [] :=
  x.sameBelow_of_shown h.shown

/-- What is learned on a shelf is what is learned of the workshop. -/
lemma sameFindings {α : Type} [Scalar α] [NumberText α] (h : Shelf d) (s : Settings α) :
    workshop.SameFindings s ⟨"."⟩ d :=
  sameFindings_of_sameBelow (by decide) h.listed (Disk.leads_here workshop)
    (h.home ▸ Disk.leads_here d) fun x _ => h.sameBelow x

/-- So what is counted has the same properties. -/
lemma counts {α : Type} {fits : Nat → Prop} {s : Settings α} (h : Shelf d)
    (hcounts : (ProjectTree.ofDirectory workshop ⟨"."⟩ []).Counts fits s) :
    (ProjectTree.ofDisk d ⟨"."⟩).Counts fits s := by
  have hhere : d.Leads ⟨"."⟩ [] := h.home ▸ Disk.leads_here d
  rw [ProjectTree.ofDisk_of_leads hhere]
  intro x hx language
  have halike := ProjectTree.alike_of_sameBelow (by decide) h.listed (h.sameBelow x) ⟨"."⟩
  have hworkshop := hcounts x hx language
  rwa [ProjectTree.workload, halike.collect, halike.layout] at hworkshop

/-- The settings of the workshop are found on the shelf. -/
lemma loadFor {α : Type} [Scalar α] [NumberText α] (h : Shelf d)
    (hsettings : (Yaml.parse? workshopSettings.toList).bind Settings.ofYaml?
      = some (.workshop : Settings α))
    (hcheck : (.workshop : Settings α).check = .ok ()) :
    Settings.loadFor d ⟨"."⟩ none = .ok (.workshop : Settings α) := by
  refine Settings.loadFor_found ?_ hsettings hcheck
  rw [h.home]
  exact h.shown [.text "stylelearn.yaml"] (by decide)

end Shelf

lemma shelf_shelf : Shelf shelf := by
  have hget (q : DiskPlace) : shelf.get? q
      = if q = [.text ".analysis-state"] then some .directory else workshop.get? q :=
    Disk.get?_set (by simp) _ q
  refine ⟨rfl, rfl, Disk.wellFormed_of_entries rfl (by decide), by decide, rfl,
    fun names hnames => ?_⟩
  rw [hget, if_neg (Shelf.ne_of_shown hnames)]

/-- Orders about the workshop, with its settings. -/
def Setup.workshop : Setup CappedNumber :=
  ⟨⟨"."⟩, none, .workshop, Settings.check_workshop rfl⟩

/-- An order to save what is learned, and to start from what was saved. -/
def LearnOrder.adapting : LearnOrder := { LearnOrder.saving with adapts := true }

/-- Nothing is in the way of orders about the workshop on a shelf. -/
lemma Setup.ready_of_shelf {c : Setup α} {o : LearnOrder} {d : Disk} (hroot : c.root = ⟨"."⟩)
    (hfile : c.file? = none) (hbase : c.base = .workshop)
    (hsettings : (Yaml.parse? workshopSettings.toList).bind Settings.ofYaml?
      = some (.workshop : Settings α))
    (h : Shelf d) (ho : o = .saving ∨ o = .adapting) : c.Ready o d := by
  obtain ⟨root, file?, base, hcheck⟩ := c
  obtain rfl : root = ⟨"."⟩ := hroot
  obtain rfl : file? = none := hfile
  obtain rfl : base = .workshop := hbase
  have hfits : Fits ⟨⟨"."⟩, none, .workshop, hcheck⟩ ⟨"."⟩ none d :=
    ⟨rfl, rfl, h.loadFor hsettings hcheck⟩
  have hroot : d.isDirectory ⟨"."⟩ = true := (Disk.isDirectory_iff _ _).2 ⟨_, Disk.leads_here _⟩
  have hthere : ∃ place, d.Leads ((Settings.workshop : Settings α).store ⟨"."⟩).dir place := by
    rw [Settings.store_workshop]
    exact ⟨_, h.leads⟩
  rcases ho with rfl | rfl
  · exact ⟨hfits, ⟨.json, rfl⟩, hcheck, hroot, hthere, h.limits⟩
  · exact ⟨hfits, ⟨.json, rfl⟩, hcheck, hroot, hthere, h.limits⟩

lemma settings_workshop : (Yaml.parse? workshopSettings.toList).bind Settings.ofYaml?
    = some (.workshop : Settings CappedNumber) := by
  decide +kernel

/-- What an order learns on a shelf is what is learned of the workshop, but for the time. -/
lemma Shelf.exists_of_freshProfile {o : LearnOrder} {now : α} {d : Disk} {fresh : Profile α}
    (h : Shelf d) (ho : o = .saving ∨ o = .adapting)
    (hfresh : o.freshProfile .workshop now d = .ok fresh) : ∃ q,
      (ProjectTree.ofDisk workshop ⟨"."⟩).learn .workshop 2.0 = .ok q ∧
        fresh = { q with generatedAt := now } := by
  have hlearn : (d.project ⟨"."⟩).bind (fun p => p.learn (.workshop : Settings α) now)
      = .ok fresh := by
    rcases ho with rfl | rfl <;> exact hfresh
  rw [(h.sameFindings _).learn 2.0 now] at hlearn
  obtain ⟨q, hq, rfl⟩ := exists_of_map_eq_ok hlearn
  obtain ⟨tree, htree, hq⟩ := exists_of_bind_eq_ok hq
  obtain rfl := Disk.eq_of_project htree
  exact ⟨q, hq, rfl⟩

lemma Shelf.exists_of_freshOverview {o : LearnOrder} {now : α} {d : Disk} {fresh : Overview α}
    (h : Shelf d) (ho : o = .saving ∨ o = .adapting)
    (hfresh : o.freshOverview .workshop now d = .ok fresh) : ∃ v,
      (ProjectTree.ofDisk workshop ⟨"."⟩).overview .workshop 2.0 = .ok v ∧
        fresh = v.retimed now := by
  have hoverview : (d.project ⟨"."⟩).bind (fun p => p.overview (.workshop : Settings α) now)
      = .ok fresh := by
    rcases ho with rfl | rfl <;> exact hfresh
  rw [(h.sameFindings _).overview 2.0 now] at hoverview
  obtain ⟨v, hv, rfl⟩ := exists_of_map_eq_ok hoverview
  obtain ⟨tree, htree, hv⟩ := exists_of_bind_eq_ok hv
  obtain rfl := Disk.eq_of_project htree
  exact ⟨v, hv, rfl⟩

/-- Saving the result of an order on a shelf leaves a shelf. -/
lemma Shelf.of_learn {c : Setup α} {slots : Slots α} {o : LearnOrder} {now : α} {d e : Disk}
    {report : Report} (h : Shelf d) (hkeeps : c.Keeps slots d) (hready : c.Ready o d)
    (hstore : c.store = ⟨⟨"./.analysis-state"⟩⟩) (hsaves : o.saves = true)
    (hrun : o.learn now d = (.ok report, e)) : Shelf e := by
  obtain ⟨_, _, -, -, -, hend⟩ := hkeeps.learn_ok hready.fits hrun
  obtain ⟨-, path, hsave⟩ := hend.resolve_left (by simp [hsaves])
  have hdraft := hkeeps.files.noLink_made (Profile.format (α := α).fileName ++ ".tmp")
  rw [hstore] at hsave hdraft
  rw [Disk.makeDirectories_of_leads h.leads] at hdraft
  exact h.save (Profile.fileName_mem α) hdraft hsave

namespace Session

variable {history : List (Deed CappedNumber)} {d : Disk} {o : LearnOrder}

/-- What is counted in the workshop fits into 64 bits. -/
lemma counts_of_shelf (h : Shelf d) (ho : o = .saving ∨ o = .adapting) :
    o.Counts (· < Count.wordSize 64) (.workshop : Settings CappedNumber) d := by
  have hcounts : (ProjectTree.ofDirectory workshop ⟨"."⟩ []).Counts (· < Count.wordSize 64)
      (.workshop : Settings CappedNumber) := by
    have hall : ((Settings.workshop : Settings CappedNumber).exclusion.toOption.all fun x =>
        Language.all.all fun l => decide
          (((ProjectTree.ofDirectory workshop ⟨"."⟩ []).workload x (some 4) l).Counts
            (· < Count.wordSize 64) ((ProjectTree.ofDirectory workshop ⟨"."⟩ []).layout x)))
          = true := by
      decide +kernel
    intro x hx language
    rw [hx] at hall
    have hlanguage : language ∈ Language.all := by cases language <;> decide
    exact of_decide_eq_true (List.all_eq_true.1 hall language hlanguage)
  rcases ho with rfl | rfl <;> exact h.counts hcounts

/-- So does what is counted in its overview. -/
lemma counted_overview {v : Overview CappedNumber}
    (h : (ProjectTree.ofDisk workshop ⟨"."⟩).overview .workshop 2.0 = .ok v) : v.Counted := by
  have hall : ((ProjectTree.ofDirectory workshop ⟨"."⟩ []).overview
      (.workshop : Settings CappedNumber) 2.0).toOption.all (fun v => decide v.Counted) = true := by
    decide +kernel
  have hhere : workshop.Leads ⟨"."⟩ [] := Disk.leads_here workshop
  rw [← ProjectTree.ofDisk_of_leads hhere, h] at hall
  exact of_decide_eq_true hall

lemma ready (h : Shelf d) (ho : o = .saving ∨ o = .adapting) : Setup.workshop.Ready o d :=
  Setup.ready_of_shelf rfl rfl rfl settings_workshop h ho

lemma exists_learn (h : Session .workshop history d) (hd : Shelf d) :
    ∃ q e, Session .workshop (history ++ [.learn .saving q]) e ∧ Shelf e ∧
      q.language = "python" ∧ q.conventions ≠ [] := by
  have hready := ready hd (.inl rfl)
  obtain ⟨fresh, report, e, hfresh, hrun⟩ := h.keeps.exists_learn hready 2.0
  obtain ⟨q, hq, rfl⟩ := hd.exists_of_freshProfile (.inl rfl) hfresh
  obtain ⟨hlanguage, hconventions, hcount⟩ := ProjectTree.counted_workshop hq
  exact ⟨_, e, h.learn hready.fits (counts_of_shelf hd (.inl rfl)) inTime_two hfresh hcount hrun,
    hd.of_learn h.keeps hready Settings.store_workshop rfl hrun, hlanguage, hconventions⟩

lemma exists_integrate (h : Session .workshop history d) (hd : Shelf d) :
    ∃ v e, Session .workshop (history ++ [.integrate .adapting v]) e := by
  have hready := ready hd (.inr rfl)
  obtain ⟨fresh, report, e, hfresh, hrun⟩ := h.keeps.exists_integrate hready 2.0
  obtain ⟨v, hv, rfl⟩ := hd.exists_of_freshOverview (.inr rfl) hfresh
  have hcount : (v.retimed 2.0).Counted := by
    have hcounted := counted_overview hv
    refine ⟨fun p hp => ?_, hcounted.metrics⟩
    obtain ⟨q, hq, rfl⟩ := Option.map_eq_some_iff.1 hp
    exact hcounted.primary q hq
  exact ⟨_, e,
    h.integrate hready.fits (counts_of_shelf hd (.inr rfl)) inTime_two hfresh hcount hrun⟩

/-- Learning the main language of the workshop and then comparing all its languages, starting from
what was saved, fills both slots. -/
theorem shows_learned_compared :
    ∃ (q : Profile CappedNumber) (v : Overview CappedNumber) (d : Disk),
      q.language = "python" ∧ q.conventions ≠ [] ∧
      Session .workshop [.learn .saving q, .integrate .adapting v] d ∧
      Setup.workshop.Shows
        (Setup.workshop.slots [.learn .saving q, .integrate .adapting v]) d := by
  have hempty : Setup.workshop.store.Contains (fun _ => none) shelf := by
    have hstore : Setup.workshop.store = ⟨⟨"./.analysis-state"⟩⟩ := Settings.store_workshop
    rw [hstore]
    refine Store.contains_of_leads shelf_shelf.wellFormed shelf_shelf.leads fun name => ?_
    rw [Store.fileOf?_of_none fun _ => rfl]
    cases name <;> rfl
  obtain ⟨q, d, hlearn, hd, hlanguage, hconventions⟩ := exists_learn (.start hempty) shelf_shelf
  obtain ⟨v, e, hintegrate⟩ := exists_integrate hlearn hd
  exact ⟨q, v, e, hlanguage, hconventions, hintegrate, Session.shows hintegrate⟩

end Session

end CommandLine

end HouseStyle
