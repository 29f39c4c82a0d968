import HouseStyle.Proofs.CommandLine.Session
import HouseStyle.Proofs.Number.DecimalFraction
import HouseStyle.Proofs.Profile.Approach
import HouseStyle.Proofs.Project.HiddenState
import HouseStyle.Proofs.Project.Unread

/-!
# Adapting again and again

A command that adapts starts from the profile that is saved, and moves its strictness a share of the
way to the one that is learned afresh.  Saving a result does not change what is learned, so all
commands of a run learn the same, and whether they look at one language or at all of them, the
strictness that is saved comes closer by the same factor each time.
-/

namespace HouseStyle

/-! ### Orderly stores -/

namespace Store

/-- A disk that is listed as a tree of names, on which no result is a directory or leads to one, and
no draft is a link. -/
structure Orderly (t : Store) (d : Disk) : Prop where
  wellFormed : d.WellFormed
  listed : d.Listed
  results : ∀ name ∈ resultNames, ∀ place, d.Leads t.dir place → d.DeadEnd place (.text name)
  drafts : ∀ name ∈ resultNames, t.NoLink d (name ++ ".tmp")

/-- Neither results nor drafts belong to a language. -/
lemma language_of_mem {name : String} (h : name ∈ resultNames) :
    ∀ n ∈ [name, name ++ ".tmp"],
      (EntryName.text n).extension?.bind Language.ofExtension? = none := by
  have hall : ∀ name ∈ resultNames, ∀ n ∈ [name, name ++ ".tmp"],
      (EntryName.text n).extension?.bind Language.ofExtension? = none := by decide
  exact hall name h

namespace Orderly

variable {α β : Type} [NumberText α] {t : Store} {format : SavedFormat α β} {value : β}
  {d e : Disk} {place : DiskPlace} {path : Path}

/-- What saving a result changes. -/
lemma published (h : t.Orderly d) (hleads : d.Leads t.dir place)
    (hformat : format.fileName ∈ resultNames) (hsave : t.save format value d = (.ok path, e)) :
    t.Published format (format.encode value) d e place := by
  have hmade : (d.makeDirectories t.dir).2 = d := by rw [Disk.makeDirectories_of_leads hleads]
  have hcases := save_cases value h.wellFormed hleads.nonempty (isName_of_mem hformat)
    (hmade.symm ▸ h.drafts _ hformat)
  rw [hmade] at hcases
  rcases hcases with ⟨fault, e', hfailed, -⟩ | ⟨e', place', hsaved, hpub⟩
  · rw [hfailed] at hsave
    cases hsave
  · rw [hsaved] at hsave
    obtain ⟨-, rfl⟩ := Prod.mk.inj hsave
    rwa [hpub.leads.unique hleads] at hpub

/-- The next result can be saved in the same store. -/
lemma save (h : t.Orderly d) (hleads : d.Leads t.dir place)
    (hformat : format.fileName ∈ resultNames) (hsave : t.save format value d = (.ok path, e)) :
    t.Orderly e := by
  have hpub := h.published hleads hformat hsave
  have hlisted : e.Listed := by simpa [hsave] using t.listed_save format h.listed value
  have hway {p : Path} {q : DiskPlace} : e.Leads p q ↔ d.Leads p q :=
    hpub.leads_iff (h.results _ hformat place hleads)
  refine ⟨hpub.wellFormed h.wellFormed, hlisted,
    fun name hname q hq => hpub.deadEnd (h.results name hname q (hway.1 hq)),
    fun name hname q hq target => ?_⟩
  rw [hpub.get?]
  split_ifs
  · simp
  · simp
  · exact h.drafts name hname q (hway.1 hq) target

/-- The result is there. -/
lemma get?_save (h : t.Orderly d) (hleads : d.Leads t.dir place)
    (hformat : format.fileName ∈ resultNames) (hsave : t.save format value d = (.ok path, e)) :
    e.Leads t.dir place ∧ e.get? (place ++ [.text format.fileName])
      = some (.file (Text.encode (format.encode value)) (draftRights format d place)) := by
  have hpub := h.published hleads hformat hsave
  refine ⟨(hpub.leads_iff (h.results _ hformat place hleads)).2 hleads, ?_⟩
  rw [hpub.get?, if_pos rfl]

/-- The other result is left alone. -/
lemma readText_other (h : t.Orderly d) (hleads : d.Leads t.dir place)
    (hformat : format.fileName ∈ resultNames) (hsave : t.save format value d = (.ok path, e))
    {name : String} (hname : name ∈ resultNames) (hne : name ≠ format.fileName)
    (hlink : t.NoLink d name) :
    e.readText (t.dir.join ⟨name⟩) = d.readText (t.dir.join ⟨name⟩) := by
  have hpub := h.published hleads hformat hsave
  refine Disk.readText_congr (Disk.read_join_congr hleads
    (h.get?_save hleads hformat hsave).1 (isName_of_mem hname) (hlink place hleads) ?_)
  rw [hpub.get?, if_neg (by simpa using hne),
    if_neg (by simpa using ne_draft_of_mem hname hformat)]

/-- The same is learned as before. -/
lemma learn_eq [Scalar α] (h : t.Orderly d) (hleads : d.Leads t.dir place)
    (hformat : format.fileName ∈ resultNames) (hsave : t.save format value d = (.ok path, e))
    {root : Path} (hroot : d.isDirectory root = true) (s : Settings α) (now : α) :
    (e.project root).bind (fun p => p.learn s now)
      = (d.project root).bind fun p => p.learn s now :=
  (h.published hleads hformat hsave).learn_eq h.listed (h.save hleads hformat hsave).listed
    (h.results _ hformat place hleads) (language_of_mem hformat) hroot s now

/-- No draft of the result is left. -/
lemma readableDraft (h : t.Orderly d) (hleads : d.Leads t.dir place)
    (hformat : format.fileName ∈ resultNames) (hsave : t.save format value d = (.ok path, e)) :
    t.ReadableDraft format e := by
  intro q hq
  obtain rfl := Disk.Leads.unique ⟨hleads.nonempty, hq⟩ (h.get?_save hleads hformat hsave).1
  have hfree : e.get? (q ++ [.text (format.fileName ++ ".tmp")]) = none := by
    rw [(h.published hleads hformat hsave).get?,
      if_neg (by simp), if_pos rfl]
  rw [draftRights, hfree]
  rfl

/-- A draft of the other result is left alone. -/
lemma readableDraft_other {γ : Type} {other : SavedFormat α γ} (h : t.Orderly d)
    (hleads : d.Leads t.dir place) (hformat : format.fileName ∈ resultNames)
    (hother : other.fileName ∈ resultNames) (hne : other.fileName ≠ format.fileName)
    (hdraft : t.ReadableDraft other d) (hsave : t.save format value d = (.ok path, e)) :
    t.ReadableDraft other e := by
  intro q hq
  obtain rfl := Disk.Leads.unique ⟨hleads.nonempty, hq⟩ (h.get?_save hleads hformat hsave).1
  have hsame : e.get? (q ++ [.text (other.fileName ++ ".tmp")])
      = d.get? (q ++ [.text (other.fileName ++ ".tmp")]) := by
    rw [(h.published hleads hformat hsave).get?,
      if_neg (by simpa using (ne_draft_of_mem hformat hother).symm), if_neg (by simpa using hne)]
  rw [draftRights, hsame]
  exact hdraft q hleads.reaches

end Orderly

end Store

namespace CommandLine

open ExactScalar

variable {α : Type} [Scalar α] [NumberText α]

/-! ### Runs -/

/-- An order to adapt and to save, with some settings about a project. -/
structure LearnOrder.Adapts (o : LearnOrder) (s : Settings α) (root : Path) (d : Disk) : Prop where
  root : o.root = root
  settings : o.settings d = .ok s
  adapts : o.adapts = true
  saves : o.saves = true

/-- The disk behind some commands that adapt, all of which succeed and between which nothing else
happens.  The clock shows a time. -/
inductive Adapting (s : Settings α) (root : Path) (d : Disk) : ℕ → Disk → Prop
  /-- Nothing has been done. -/
  | start : Adapting s root d 0 d
  /-- One language is learned, or all of them are compared. -/
  | step {n : ℕ} {e e' : Disk} {o : LearnOrder} {c : Command} {now : α} {report : Report}
      (h : Adapting s root d n e) (ho : o.Adapts s root e) (hc : c = .learn o ∨ c = .integrate o)
      (hnow : InTime now) (hrun : c.run now e = (.ok report, e')) : Adapting s root d (n + 1) e'

/-- What a run starts from: a profile that is saved, and one that is learned.  A draft that was left
can be read, and what is counted fits into 64 bits. -/
structure Basis (s : Settings α) (root : Path) (saved fresh : Profile α) (d : Disk) : Prop where
  check : s.check = .ok ()
  orderly : (s.store root).Orderly d
  readable : (s.store root).ReadableDraft (Profile.format : SavedFormat α (Profile α)) d
  loads : (s.store root).load Profile.format d = .ok saved
  learns : ∃ now, (d.project root).bind (fun p => p.learn s now) = .ok fresh
  counted : fresh.Counted

namespace Basis

variable {s : Settings α} {root : Path} {saved fresh q : Profile α} {d e : Disk} {o : LearnOrder}
  {now : α}

lemma exists_leads (h : Basis s root saved fresh d) :
    ∃ place, d.Leads (s.store root).dir place := by
  obtain ⟨text, htext, -⟩ := Store.load_eq_ok_iff_check.1 h.loads
  exact Disk.exists_leads_of_readText (Settings.dir_text_ne h.check root)
    (Store.isName_of_mem (Profile.fileName_mem α)) htext

lemma isDirectory (h : Basis s root saved fresh d) : d.isDirectory root = true := by
  obtain ⟨_, hfresh⟩ := h.learns
  obtain ⟨tree, htree, -⟩ := exists_of_bind_eq_ok hfresh
  rw [Disk.project] at htree
  split at htree
  next hroot => exact hroot
  next => cases htree

/-- Whenever something is learned, only the time differs. -/
lemma learn_eq (h : Basis s root saved fresh d) (now : α) :
    (d.project root).bind (fun p => p.learn s now) = .ok { fresh with generatedAt := now } := by
  obtain ⟨now', hfresh⟩ := h.learns
  obtain ⟨tree, htree, hlearn⟩ := exists_of_bind_eq_ok hfresh
  have hsame : tree.learn s now = (tree.learn s now').map fun q => { q with generatedAt := now } :=
    ProjectTree.learnWith_now now now'
  change tree.learn s now' = .ok fresh at hlearn
  rw [htree]
  change tree.learn s now = _
  rw [hsame, hlearn]
  rfl

/-- The earlier profile that is asked for is the one that is saved. -/
lemma previous?_eq (h : Basis s root saved fresh d) (ho : o.Adapts s root d) :
    o.previous? s d = .ok (some saved) := by
  rw [LearnOrder.previous?, ho.root, if_pos ho.adapts]
  exact Store.load?_of_load h.loads

/-- Saving a profile puts it in the place of the one that was saved, which is no link then. -/
lemma saveProfile (h : Basis s root saved fresh d) (hq : Profile.format.Legible q) {path : Path}
    (hsave : (s.store root).save Profile.format q d = (.ok path, e)) :
    Basis s root q fresh e ∧
      (s.store root).NoLink e (Profile.format : SavedFormat α (Profile α)).fileName := by
  obtain ⟨place, hleads⟩ := h.exists_leads
  have hmem := Profile.fileName_mem α
  obtain ⟨hleads', hfile⟩ := h.orderly.get?_save hleads hmem hsave
  have htext := Disk.readText_file hleads' (Store.isName_of_mem hmem) hfile
    (h.readable place hleads.reaches)
  obtain ⟨now, hfresh⟩ := h.learns
  refine ⟨{
    check := h.check
    orderly := h.orderly.save hleads hmem hsave
    readable := h.orderly.readableDraft hleads hmem hsave
    loads := Store.load_eq_ok_iff_check.2 ⟨_, htext, hq.decode, hq.check⟩
    learns := ⟨now, (h.orderly.learn_eq hleads hmem hsave h.isDirectory s now).trans hfresh⟩
    counted := h.counted }, fun p hp target => ?_⟩
  rw [hp.unique hleads', hfile]
  simp

lemma saveOverview (h : Basis s root saved fresh d)
    (hlink : (s.store root).NoLink d (Profile.format : SavedFormat α (Profile α)).fileName)
    {v : Overview α} {path : Path}
    (hsave : (s.store root).save Overview.format v d = (.ok path, e)) :
    Basis s root saved fresh e := by
  obtain ⟨place, hleads⟩ := h.exists_leads
  have hmem := Overview.fileName_mem α
  have htext := h.orderly.readText_other hleads hmem hsave (Profile.fileName_mem α)
    (by simp [Profile.format, Overview.format]) hlink
  obtain ⟨now, hfresh⟩ := h.learns
  exact {
    check := h.check
    orderly := h.orderly.save hleads hmem hsave
    readable := h.orderly.readableDraft_other hleads hmem (Profile.fileName_mem α)
      (by simp [Profile.format, Overview.format]) h.readable hsave
    loads := (Store.load_congr htext).trans h.loads
    learns := ⟨now, (h.orderly.learn_eq hleads hmem hsave h.isDirectory s now).trans hfresh⟩
    counted := h.counted }

section Step

variable [LawfulScalar α] [ExactCounts α] [LawfulNumberText α]

/-- What a command makes of the profile that is saved can be loaded. -/
lemma legible (h : Basis s root saved fresh d) (hnow : InTime now) :
    Profile.format.Legible
      (Profile.adapt s.adaptationRate saved { fresh with generatedAt := now }) := by
  obtain ⟨tree, -, hlearn⟩ := exists_of_bind_eq_ok (h.learn_eq now)
  have hsound : ({ fresh with generatedAt := now } : Profile α).Sound Document.depthLimit :=
    ProjectTree.sound_of_learn Scalar.handles_all (tree.counts_true s) hnow hlearn
  exact (hsound.adapt _ _).legible h.counted

/-- One command: whether it looks at one language or at all of them, the profile that is saved is
adapted to the one that is learned. -/
lemma step (h : Basis s root saved fresh d) (ho : o.Adapts s root d) {c : Command}
    (hc : c = .learn o ∨ c = .integrate o) (hnow : InTime now) {report : Report}
    (hrun : c.run now d = (.ok report, e)) :
    Basis s root (Profile.adapt s.adaptationRate saved { fresh with generatedAt := now }) fresh
      e := by
  have hsettings {p : Presentation} {s' : Settings α} (hprepare : o.prepare d = .ok (p, s')) :
      s' = s :=
    Except.ok.inj ((LearnOrder.settings_of_prepare hprepare).symm.trans ho.settings)
  have hprevious {previous : Option (Profile α)} (hok : o.previous? s d = .ok previous) :
      previous = some saved := Except.ok.inj (hok.symm.trans (h.previous?_eq ho))
  have hlearned {q : Profile α}
      (hok : (d.project o.root).bind (fun p => p.learn s now) = .ok q) :
      q = { fresh with generatedAt := now } := by
    rw [ho.root] at hok
    exact Except.ok.inj (hok.symm.trans (h.learn_eq now))
  have hsaves : ¬ (o.saves = false ∧ e = d) := by simp [ho.saves]
  rcases hc with rfl | rfl
  · obtain ⟨p, s', fresh', previous, hprepare, hfresh, hpre, -, hend⟩ := LearnOrder.learn_eq_ok hrun
    obtain rfl := hsettings hprepare
    obtain rfl := hprevious hpre
    obtain rfl := hlearned hfresh
    obtain ⟨-, path, hsave⟩ := hend.resolve_left hsaves
    rw [ho.root] at hsave
    exact (h.saveProfile (h.legible hnow) hsave).1
  · -- the profile in the overview is the one that is learned by itself, and is saved first
    obtain ⟨p, s', v, fresh', previous, v', hprepare, -, -, hfresh, hpre, -, -, hend⟩ :=
      LearnOrder.integrate_eq_ok hrun
    obtain rfl := hsettings hprepare
    obtain rfl := hprevious hpre
    obtain rfl := hlearned hfresh
    obtain ⟨-, made, path, path', hprofile, hoverview⟩ := hend.resolve_left hsaves
    rw [ho.root] at hprofile hoverview
    obtain ⟨hmade, hlink⟩ := h.saveProfile (h.legible hnow) hprofile
    exact hmade.saveOverview hlink hoverview

omit [ExactCounts α] [LawfulNumberText α]

/-- A saved strictness lies within its bounds. -/
lemma finiteWithin_saved (h : Basis s root saved fresh d) :
    Scalar.FiniteWithin Strictness.least Strictness.greatest saved.strictness := by
  obtain ⟨_, -, -, hcheck⟩ := Store.load_eq_ok_iff_check.1 h.loads
  exact Scalar.finiteWithin_of_within (by decide) (by decide)
    (Profile.check_eq_ok_iff.1 hcheck).strictness

/-- So does one that is learned. -/
lemma finiteWithin_fresh (h : Basis s root saved fresh d) :
    Scalar.FiniteWithin Strictness.least Strictness.greatest fresh.strictness := by
  obtain ⟨_, hlearns⟩ := h.learns
  obtain ⟨tree, -, hlearn⟩ := exists_of_bind_eq_ok hlearns
  obtain ⟨_, _, -, rfl⟩ := ProjectTree.exists_mainWork hlearn
  exact Strictness.finiteWithin_clamp (by decide) _

lemma finiteWithin_rate (h : Basis s root saved fresh d) :
    Scalar.FiniteWithin 0.0 1.0 s.adaptationRate :=
  Scalar.finiteWithin_of_within (by decide) (by decide)
    (Settings.sensible_of_check h.check).adaptationRate

end Step

end Basis

/-! ### Coming closer -/

section Exact

variable [LawfulScalar α] [ExactCounts α] [LawfulNumberText α] [ExactScalar α]
  {s : Settings α} {root : Path} {saved fresh : Profile α} {d e : Disk} {n : ℕ}

/-- What a run leaves is what the next one can start from. -/
lemma Adapting.basis (h : Adapting s root d n e) (hd : Basis s root saved fresh d) :
    ∃ q, Basis s root q fresh e ∧
      value q.strictness = approach (value s.adaptationRate) (value saved.strictness)
        (value fresh.strictness) n ∧
      (0 < n → q = { fresh with strictness := q.strictness, generatedAt := q.generatedAt }) := by
  induction h with
  | start => exact ⟨saved, hd, (approach_zero _ _ _).symm, fun hn => absurd hn (lt_irrefl 0)⟩
  | step _ ho hc hnow hrun ih =>
    obtain ⟨q, hq, hvalue, -⟩ := ih
    have hadapt := Profile.value_adapt hq.finiteWithin_rate hq.finiteWithin_saved
      hq.finiteWithin_fresh
    refine ⟨_, hq.step ho hc hnow hrun, ?_, fun _ => rfl⟩
    rw [approach_succ, ← hvalue]
    exact hadapt.2

/-- Each command of a run leaves the same part of the way from the saved strictness to the one that
is learned.  So the saved strictness never leaves the interval between the two and never goes back,
and from the first command on it and the time are all in which the saved profile differs from the
one that is learned. -/
theorem Adapting.approaches (h : Adapting s root d n e) (hd : Basis s root saved fresh d) :
    ∃ q, (s.store root).load Profile.format e = .ok q ∧
      value q.strictness = value fresh.strictness
        + (1 - value s.adaptationRate) ^ n * (value saved.strictness - value fresh.strictness) ∧
      value q.strictness ∈ Set.uIcc (value saved.strictness) (value fresh.strictness) ∧
      (0 < n → q = { fresh with strictness := q.strictness, generatedAt := q.generatedAt }) ∧
      ∀ (m : ℕ) (e' : Disk), Adapting s root e m e' → ∃ q' : Profile α,
        (s.store root).load Profile.format e' = .ok q' ∧
        |value q'.strictness - value fresh.strictness|
          ≤ |value q.strictness - value fresh.strictness| := by
  obtain ⟨q, hq, hvalue, hparts⟩ := h.basis hd
  obtain ⟨-, hrate, hrate'⟩ :=
    (Scalar.finiteWithin_iff (by decide) (by decide)).1 hd.finiteWithin_rate
  norm_num at hrate hrate'
  refine ⟨q, hq.loads, hvalue, ?_, hparts, fun m e' hmore => ?_⟩
  · rw [hvalue]
    exact approach_mem_uIcc _ _ hrate hrate' n
  · obtain ⟨q', hq', hvalue', -⟩ := hmore.basis hq
    refine ⟨q', hq'.loads, ?_⟩
    rw [hvalue']
    exact abs_approach_sub_le _ _ hrate hrate' m

end Exact

/-! ### Adapting in a workshop -/

/-- Orders about the workshop, with its settings, in exact arithmetic. -/
def Setup.exact : Setup DecimalFraction :=
  ⟨⟨"."⟩, none, .workshop, Settings.check_workshop (by decide +kernel)⟩

lemma store_exact : Setup.exact.store = ⟨⟨"./.analysis-state"⟩⟩ := Settings.store_workshop

lemma settings_exact : (Yaml.parse? workshopSettings.toList).bind Settings.ofYaml?
    = some (.workshop : Settings DecimalFraction) := by
  decide +kernel

lemma legible_earlier : Profile.format.Legible (.earlier : Profile DecimalFraction) := by
  have hcheck : (.earlier : Profile DecimalFraction).check = .ok () := Profile.check_earlier
  have hsound : (.earlier : Profile DecimalFraction).Sound Document.depthLimit :=
    ⟨⟨rfl, fun c hc => ?_, nofun, fun e he => ?_, rfl⟩, Profile.check_eq_ok_iff.1 hcheck⟩
  · exact hsound.legible (by decide)
  · obtain rfl := List.mem_singleton.1 hc
    exact ⟨trivial, rfl⟩
  · obtain rfl := List.mem_singleton.1 he
    trivial

/-- The workshop with a profile that was saved earlier. -/
def earlierShelf : Disk :=
  shelf.set [.text ".analysis-state", .text "learning_result.json"]
    (.file (Text.encode (Profile.format.encode (.earlier : Profile DecimalFraction))) .all)

lemma shelf_earlier : Shelf earlierShelf := shelf_shelf.set (by decide) _

lemma get?_earlier (q : DiskPlace) : earlierShelf.get? q
    = if q = [.text ".analysis-state", .text "learning_result.json"] then
        some (.file (Text.encode (Profile.format.encode (.earlier : Profile DecimalFraction))) .all)
      else shelf.get? q :=
  Disk.get?_set (by simp) _ q

/-- The earlier profile in its slot. -/
def Slots.ofEarlier : Slots DecimalFraction := ⟨some .earlier, none⟩

lemma keeps_earlier : Setup.exact.Keeps Slots.ofEarlier earlierShelf where
  files := by
    rw [store_exact]
    refine Store.contains_of_leads shelf_earlier.wellFormed shelf_earlier.leads fun name => ?_
    rw [List.singleton_append, get?_earlier]
    cases name with
    | raw name => rfl
    | text name =>
      by_cases hname : name = "learning_result.json"
      · rw [hname]
        rfl
      · have htext : Slots.ofEarlier.text? name = none :=
          (if_neg hname : Slots.ofEarlier.text? name = _).trans (ite_self none)
        have hempty : shelf.get? [.text ".analysis-state", .text name] = none := by
          simp [shelf, workshop, Disk.set, Disk.get?, List.lookup_cons]
        rw [if_neg (by simpa using hname), hempty, Store.fileOf?, EntryName.text?, Option.bind_some,
          htext, Option.map_none]
  learned := by
    intro q hq
    obtain rfl := Option.some.inj hq
    exact legible_earlier
  compared := nofun

lemma leads_exact {d : Disk} (h : Shelf d) : d.Leads Setup.exact.store.dir [".analysis-state"] := by
  rw [store_exact]
  exact h.leads

lemma orderly_earlier : Setup.exact.store.Orderly earlierShelf where
  wellFormed := shelf_earlier.wellFormed
  listed := shelf_earlier.listed
  results := by
    intro name _ place hleads
    refine Disk.deadEnd_of_not_passable fun entry hentry => ?_
    rw [keeps_earlier.files.get? hleads] at hentry
    obtain ⟨_, _, -, -, rfl⟩ := Store.exists_of_fileOf? hentry
    exact Disk.file_not_passable
  drafts := fun name _ => by
    have hlink := keeps_earlier.files.noLink_made (name ++ ".tmp")
    rwa [Disk.makeDirectories_of_leads (leads_exact shelf_earlier)] at hlink

/-- No draft was left. -/
lemma readableDraft_earlier : Setup.exact.store.ReadableDraft
    (Profile.format : SavedFormat DecimalFraction (Profile DecimalFraction)) earlierShelf := by
  intro place hreaches
  obtain rfl := Disk.Leads.unique ⟨(leads_exact shelf_earlier).nonempty, hreaches⟩
    (leads_exact shelf_earlier)
  rfl

/-- An order that finds its settings adapts. -/
lemma Setup.Ready.adapts {c : Setup α} {d : Disk} (h : c.Ready .adapting d) :
    LearnOrder.adapting.Adapts (LearnOrder.adapting.override c.base) c.root d := by
  obtain ⟨p, hprepare⟩ := h.prepare
  exact ⟨h.fits.sameRoot, LearnOrder.settings_of_prepare hprepare, rfl, rfl⟩

lemma ready_exact {d : Disk} (h : Shelf d) : Setup.exact.Ready .adapting d :=
  Setup.ready_of_shelf rfl rfl rfl settings_exact h (.inr rfl)

/-- What is counted in what is learned of the workshop fits into 64 bits. -/
lemma counted_exact {d : Disk} (h : Shelf d) {fresh : Profile DecimalFraction}
    (hfresh : LearnOrder.adapting.freshProfile .workshop 2.0 d = .ok fresh) :
    fresh.language = "python" ∧ fresh.conventions ≠ [] ∧ fresh.Counted := by
  obtain ⟨q, hq, rfl⟩ := h.exists_of_freshProfile (.inr rfl) hfresh
  suffices hworkshop : q.language = "python" ∧ q.conventions ≠ [] ∧ q.Counted from hworkshop
  have hall : ((ProjectTree.ofDirectory workshop ⟨"."⟩ []).learn
      (.workshop : Settings DecimalFraction) 2.0).toOption.all (fun q =>
        q.language == "python" && !q.conventions.isEmpty && decide q.Counted) = true := by
    decide +kernel
  have hhere : workshop.Leads ⟨"."⟩ [] := Disk.leads_here workshop
  rw [← ProjectTree.ofDisk_of_leads hhere, hq] at hall
  simpa [Except.toOption, and_assoc] using hall

/-- The earlier profile is adapted by learning one language and then comparing all of them. -/
lemma exists_adapting : ∃ (fresh : Profile DecimalFraction) (d : Disk),
    fresh.language = "python" ∧ fresh.conventions ≠ [] ∧
      Basis .workshop ⟨"."⟩ .earlier fresh earlierShelf ∧
      Adapting (.workshop : Settings DecimalFraction) ⟨"."⟩ earlierShelf 2 d := by
  have hready := ready_exact shelf_earlier
  obtain ⟨fresh, report, d, hfresh, hrun⟩ := keeps_earlier.exists_learn hready 2.0
  obtain ⟨hlanguage, hconventions, hcount⟩ := counted_exact shelf_earlier hfresh
  have hbasis : Basis .workshop ⟨"."⟩ .earlier fresh earlierShelf :=
    ⟨Setup.exact.check, orderly_earlier, readableDraft_earlier,
      (keeps_earlier.load_profile _).2 rfl, ⟨_, hfresh⟩, hcount⟩
  have hshelf := shelf_earlier.of_learn keeps_earlier hready store_exact rfl hrun
  have hkeeps := keeps_earlier.learn hready.fits Scalar.handles_all
    ((ProjectTree.ofDisk earlierShelf ⟨"."⟩).counts_true _) inTime_two hfresh hcount hrun
  obtain ⟨_, report', e, -, hrun'⟩ := hkeeps.exists_integrate (ready_exact hshelf) 2.0
  have hlearn : Adapting (.workshop : Settings DecimalFraction) ⟨"."⟩ earlierShelf 1 d :=
    .step .start hready.adapts (.inl rfl) inTime_two hrun
  exact ⟨fresh, e, hlanguage, hconventions, hbasis,
    .step hlearn (ready_exact hshelf).adapts (.inr rfl) inTime_two hrun'⟩

/-- Two commands, each of which goes half of the way that is left, leave a strictness of nine tenths
with a quarter of its way. -/
theorem Adapting.approaches_twice : ∃ (fresh q : Profile DecimalFraction) (d : Disk),
    fresh.language = "python" ∧ fresh.conventions ≠ [] ∧
      Basis .workshop ⟨"."⟩ .earlier fresh earlierShelf ∧
      Adapting (.workshop : Settings DecimalFraction) ⟨"."⟩ earlierShelf 2 d ∧
      Setup.exact.store.load Profile.format d = .ok q ∧
      value q.strictness
        = value fresh.strictness + (1 / 2) ^ 2 * (9 / 10 - value fresh.strictness) := by
  obtain ⟨fresh, d, hlanguage, hconventions, hbasis, hrun⟩ := exists_adapting
  obtain ⟨q, hload, hvalue, -⟩ := Adapting.approaches hrun hbasis
  refine ⟨fresh, q, d, hlanguage, hconventions, hbasis, hrun, hload, ?_⟩
  have hrate : value (Settings.workshop : Settings DecimalFraction).adaptationRate = 5 / 10 :=
    value_tenths 5
  have hearlier : value (Profile.earlier : Profile DecimalFraction).strictness = 9 / 10 :=
    value_tenths 9
  rw [hvalue, hrate, hearlier]
  norm_num

/-! ### A draft in the way -/

/-- The same disk with a link to the profile in the stead of its draft. -/
def linkedShelf : Disk :=
  earlierShelf.set [.text ".analysis-state", .text "learning_result.json.tmp"]
    (.link [.entry (.text "learning_result.json")])

/-- The same disk with a draft that was left and cannot be read. -/
def sealedShelf : Disk :=
  earlierShelf.set [.text ".analysis-state", .text "learning_result.json.tmp"]
    (.file [] ⟨false, true⟩)

lemma shelf_linked : Shelf linkedShelf := shelf_earlier.set (by decide) _

lemma shelf_sealed : Shelf sealedShelf := shelf_earlier.set (by decide) _

/-- Whether every profile can be saved, and none is loaded afterwards. -/
def LosesProfiles (d : Disk) : Prop :=
  ∀ q : Profile DecimalFraction, ∃ path e,
    Setup.exact.store.save Profile.format q d = (.ok path, e) ∧
      ∀ q' : Profile DecimalFraction, Setup.exact.store.load Profile.format e ≠ .ok q'

lemma load_of_get? {d : Disk} (h : Shelf d)
    (hfile : d.get? ([.text ".analysis-state"] ++ [.text "learning_result.json"])
      = some (.file
        (Text.encode (Profile.format.encode (.earlier : Profile DecimalFraction))) .all)) :
    Setup.exact.store.load Profile.format d = .ok (.earlier : Profile DecimalFraction) := by
  have htext := Disk.readText_file (leads_exact h) (by decide) hfile rfl
  exact Store.load_eq_ok_iff_check.2 ⟨_, htext, legible_earlier.decode, legible_earlier.check⟩

/-- The link is moved over the profile and leads in a circle. -/
lemma losesProfiles_linked : LosesProfiles linkedShelf := by
  intro q
  have hresult : Disk.Writable (linkedShelf.get?
      ([.text ".analysis-state"] ++ [.text "learning_result.json"])) := .file _ rfl
  have hdraft : linkedShelf.get? ([.text ".analysis-state"] ++ [.text "learning_result.json.tmp"])
      = some (.link [.entry (.text "learning_result.json")]) := rfl
  obtain ⟨path, e, hsave, hcircle⟩ : ∃ path e,
      Setup.exact.store.save Profile.format q linkedShelf = (.ok path, e) ∧
        e.readText (Setup.exact.store.pathOf (Profile.format : SavedFormat DecimalFraction _))
          = .error .circle := by
    refine Store.save_of_linked_draft (Disk.linkLimit - 1) q shelf_linked.wellFormed
      (leads_exact shelf_linked).nonempty rfl (by decide) hdraft hresult fun e hhome hother => ?_
    have hstate : e.get? ([] ++ [.text ".analysis-state"]) = some .directory :=
      hother _ (by simp) (by simp)
    rw [store_exact]
    exact .head (.here _ _ _) (.single (.down _ [] hstate))
  refine ⟨path, e, hsave, fun q' hload => ?_⟩
  rw [Store.load_of_fault (by simp) hcircle] at hload
  cases hload

/-- The draft is moved over the profile with its rights. -/
lemma losesProfiles_sealed : LosesProfiles sealedShelf := by
  intro q
  have hdraft : Disk.Writable (sealedShelf.get?
      ([.text ".analysis-state"] ++ [.text "learning_result.json.tmp"])) := .file _ rfl
  have hleads := leads_exact shelf_sealed
  obtain ⟨e, hsave, hpub⟩ := Store.exists_published Profile.format q shelf_sealed.wellFormed
    (Disk.makeDirectories_of_leads hleads) hleads (by decide) rfl hdraft (by decide)
  have hlink : Setup.exact.store.NoLink sealedShelf "learning_result.json" := by
    intro place hplace target
    obtain rfl := hplace.unique hleads
    simp [sealedShelf, earlierShelf, Disk.set, Disk.get?, List.lookup_cons]
  refine ⟨_, e, hsave, fun q' hload => ?_⟩
  rw [Store.load_of_fault (by simp) (hpub.readText_denied (by decide) hlink rfl)] at hload
  cases hload

/-- Whether a command to adapt and save succeeds in the workshop, and no profile is loaded behind
it, though one was before. -/
structure EndsAdapting (d : Disk) : Prop where
  wellFormed : d.WellFormed
  listed : d.Listed
  loads : Setup.exact.store.load Profile.format d = .ok (.earlier : Profile DecimalFraction)
  ends : ∃ (fresh : Profile DecimalFraction) (e : Disk),
    (d.project ⟨"."⟩).bind (fun p => p.learn .workshop 2.0) = .ok fresh ∧ fresh.Counted ∧
      Adapting (.workshop : Settings DecimalFraction) ⟨"."⟩ d 1 e ∧
      ∀ q : Profile DecimalFraction, Setup.exact.store.load Profile.format e ≠ .ok q

lemma endsAdapting_of_losesProfiles {d : Disk} (h : Shelf d)
    (hload : Setup.exact.store.load Profile.format d = .ok (.earlier : Profile DecimalFraction))
    (hloses : LosesProfiles d) : EndsAdapting d := by
  have hready := ready_exact h
  have hprevious : LearnOrder.adapting.previous? (LearnOrder.adapting.override Setup.exact.base) d
      = .ok (some .earlier) := Store.load?_of_load hload
  obtain ⟨fresh, report, e, hfresh, hrun⟩ := hready.exists_learn hprevious (fun q => by
    obtain ⟨path, e, hsave, -⟩ := hloses q
    exact ⟨path, e, by rw [Store.saveFor, hready.fits.sameRoot, if_pos hready.root, hsave]⟩) 2.0
  have hrest : Adapting (.workshop : Settings DecimalFraction) ⟨"."⟩ d 1 e :=
    .step .start hready.adapts (.inl rfl) inTime_two hrun
  refine ⟨h.wellFormed, h.listed, hload, fresh, e, hfresh, (counted_exact h hfresh).2.2, hrest,
    fun q hq => ?_⟩
  obtain ⟨p, s, fresh', previous, hprepare, -, -, -, hend⟩ := LearnOrder.learn_eq_ok hrun
  obtain ⟨-, rfl⟩ := LearnOrder.of_prepare hready.fits hprepare
  obtain ⟨-, path, hsave⟩ := hend.resolve_left (by simp [LearnOrder.adapting, LearnOrder.saving])
  obtain ⟨path', e', hsaved, hlost⟩ := hloses (LearnOrder.adapted
    (LearnOrder.adapting.override Setup.exact.base) previous fresh')
  obtain ⟨-, rfl⟩ := Prod.mk.inj (hsaved.symm.trans hsave)
  exact hlost q hq

/-- With such a link or such a draft, no strictness is saved at all behind a command that
succeeds. -/
theorem Adapting.ends_at_draft :
    (Settings.workshop : Settings DecimalFraction).check = .ok () ∧
    (Settings.workshop : Settings DecimalFraction).stateDir = ".analysis-state" ∧
    Exclusion.isHidden (.text ".analysis-state") = true ∧
    EndsAdapting linkedShelf ∧ EndsAdapting sealedShelf :=
  ⟨Setup.exact.check, rfl, by decide,
    endsAdapting_of_losesProfiles shelf_linked (load_of_get? shelf_linked rfl)
      losesProfiles_linked,
    endsAdapting_of_losesProfiles shelf_sealed (load_of_get? shelf_sealed rfl)
      losesProfiles_sealed⟩

end CommandLine

end HouseStyle
