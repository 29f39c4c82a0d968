import HouseStyle.Proofs.CommandLine.Failure
import HouseStyle.Proofs.Project.Loadable

/-!
# Two slots

The directory of the results is a machine with two slots, one for a profile and one for an overview.
A command that succeeds and saves fills the slot of its result, or both; a command that adapts
starts from the profile in its slot; and what is shown is what is in the slots.
-/

namespace HouseStyle.CommandLine

variable {α : Type} [Scalar α]

/-! ### The machine with two slots -/

/-- What the commands of a session have in common. -/
structure Setup (α : Type) [Scalar α] where
  /-- The root of the project. -/
  root : Path
  /-- The settings file, if one is named. -/
  file? : Option Path
  /-- What is set. -/
  base : Settings α
  /-- The settings make sense. -/
  check : base.check = .ok ()

/-- The saved results. -/
structure Slots (α : Type) where
  /-- The profile. -/
  learned : Option (Profile α)
  /-- The overview. -/
  compared : Option (Overview α)

/-- A command that came to its end, and what it learned before that was adapted. -/
inductive Deed (α : Type) where
  /-- The main language was looked at. -/
  | learn (o : LearnOrder) (fresh : Profile α)
  /-- All languages were looked at. -/
  | integrate (o : LearnOrder) (fresh : Overview α)

/-- The profile from which an order starts. -/
def Slots.previous? (slots : Slots α) (o : LearnOrder) : Option (Profile α) :=
  if o.adapts then slots.learned else none

namespace Setup

/-- The store of the results. -/
def store (c : Setup α) : Store := c.base.store c.root

/-- The profile that an order makes of what it learned. -/
def profileOf (c : Setup α) (slots : Slots α) (o : LearnOrder) (fresh : Profile α) : Profile α :=
  LearnOrder.adapted c.base (slots.previous? o) fresh

/-- The overview that an order makes of what it learned. -/
def overviewOf (c : Setup α) (slots : Slots α) (o : LearnOrder) (fresh : Overview α) : Overview α :=
  { fresh with primary := fresh.primary.map (c.profileOf slots o) }

/-- What a command makes of the slots. -/
def after (c : Setup α) (slots : Slots α) : Deed α → Slots α
  | .learn o fresh =>
    if o.saves then { slots with learned := some (c.profileOf slots o fresh) } else slots
  | .integrate o fresh =>
    let v := c.overviewOf slots o fresh
    if o.saves then ⟨v.primary, some v⟩ else slots

/-- The slots behind some commands, of which none has saved anything before. -/
def slots (c : Setup α) (history : List (Deed α)) : Slots α := history.foldl c.after ⟨none, none⟩

end Setup

variable [NumberText α]

namespace Slots

/-- The text of the file with a name. -/
def text? (slots : Slots α) (name : String) : Option String :=
  if name = (Profile.format (α := α)).fileName then slots.learned.map Profile.format.encode
  else if name = (Overview.format (α := α)).fileName then slots.compared.map Overview.format.encode
  else none

/-- The text to show: of two results that of the overview. -/
def shown? (slots : Slots α) : Option String :=
  (slots.text? (Overview.format (α := α)).fileName).or
    (slots.text? (Profile.format (α := α)).fileName)

variable {slots : Slots α}

lemma text?_profile : slots.text? (Profile.format (α := α)).fileName
    = slots.learned.map Profile.format.encode := if_pos rfl

lemma text?_overview : slots.text? (Overview.format (α := α)).fileName
    = slots.compared.map Overview.format.encode := by
  rw [text?, if_neg (by simp [Profile.format, Overview.format]), if_pos rfl]

lemma text?_empty : (⟨none, none⟩ : Slots α).text? = fun _ => none := by
  funext name
  rw [text?]
  split_ifs <;> rfl

/-- No slot has the name of a draft. -/
lemma text?_draft {name : String} (h : name ∈ Store.resultNames) :
    slots.text? (name ++ ".tmp") = none := by
  rw [text?, if_neg (Store.ne_draft_of_mem (Profile.fileName_mem α) h).symm,
    if_neg (Store.ne_draft_of_mem (Overview.fileName_mem α) h).symm]

lemma update_profile (q : Profile α) :
    Function.update slots.text? (Profile.format (α := α)).fileName (some (Profile.format.encode q))
      = { slots with learned := some q : Slots α }.text? := by
  funext name
  simp only [Function.update_apply, text?]
  split_ifs <;> rfl

lemma update_overview (v : Overview α) :
    Function.update slots.text? (Overview.format (α := α)).fileName
        (some (Overview.format.encode v))
      = { slots with compared := some v : Slots α }.text? := by
  funext name
  simp only [Function.update_apply, text?]
  split_ifs with hoverview hprofile
  · rw [hoverview] at hprofile
    exact absurd hprofile (by simp [Profile.format, Overview.format])
  all_goals rfl

end Slots

/-! ### What a command does -/

/-- Whether a command with a root and maybe a settings file is about the project of a setup, and
finds its settings. -/
structure Setup.Fits (c : Setup α) (root : Path) (file? : Option Path) (d : Disk) : Prop where
  sameRoot : root = c.root
  sameFile : file? = c.file?
  settings : Settings.loadFor d root file? = .ok c.base

/-- What an order learns of the main language, before that is adapted. -/
def LearnOrder.freshProfile (o : LearnOrder) (base : Settings α) (now : α) (d : Disk) :
    Except (ProjectFault α) (Profile α) := do
  let tree ← d.project o.root
  tree.learn (o.override base) now

/-- What an order learns of all languages, before that is adapted. -/
def LearnOrder.freshOverview (o : LearnOrder) (base : Settings α) (now : α) (d : Disk) :
    Except (ProjectFault α) (Overview α) := do
  let tree ← d.project o.root
  tree.overview (o.override base) now

omit [Scalar α] in
lemma save_of_saveFor {β : Type} {t : Store} {root : Path} {format : SavedFormat α β} {value : β}
    {d e : Disk} {path : Path} (h : t.saveFor root format value d = (.ok path, e)) :
    t.save format value d = (.ok path, e) := by
  rw [Store.saveFor] at h
  split at h
  · exact h
  · cases h

namespace LearnOrder

variable {o : LearnOrder} {c : Setup α} {d e : Disk} {now : α}

omit [Scalar α] [NumberText α] in
lemma ofName?_of_presentationOf {name : String} {p : Presentation}
    (h : (presentationOf name : Except (RunFault α) _) = .ok p) :
    Presentation.ofName? name = some p := by
  rw [presentationOf] at h
  split at h
  next found hfound =>
    obtain rfl := Except.ok.inj h
    exact hfound
  next => cases h

/-- In a session an order has the settings of the session, but for what it says in their stead. -/
lemma of_prepare (hfits : c.Fits o.root o.settingsFile? d) {p : Presentation} {s : Settings α}
    (h : o.prepare d = .ok (p, s)) :
    Presentation.ofName? o.format = some p ∧ s = o.override c.base := by
  obtain ⟨found, hfound, hrest⟩ := exists_of_bind_eq_ok h
  obtain ⟨s', hs', hrest⟩ := exists_of_bind_eq_ok hrest
  cases hrest
  refine ⟨ofName?_of_presentationOf hfound, ?_⟩
  obtain ⟨base, hbase, hsettings⟩ := exists_of_bind_eq_ok (ok_of_mapError hs')
  obtain rfl := Except.ok.inj (hbase.symm.trans hfits.settings)
  dsimp only at hsettings
  split at hsettings
  · exact (Except.ok.inj hsettings).symm
  · cases hsettings

/-- What a profile that is ordered is made of. -/
lemma exists_fresh_of_profile {s : Settings α} {q : Profile α} (h : o.profile s now d = .ok q) :
    ∃ fresh previous, (d.project o.root).bind (fun tree => tree.learn s now) = .ok fresh ∧
      o.previous? s d = .ok previous ∧ q = adapted s previous fresh := by
  obtain ⟨tree, htree, hrest⟩ := exists_of_bind_eq_ok h
  obtain ⟨fresh, hfresh, hrest⟩ := exists_of_bind_eq_ok hrest
  obtain ⟨previous, hprevious, hrest⟩ := exists_of_bind_eq_ok hrest
  refine ⟨fresh, previous, ?_, hprevious, (Except.ok.inj hrest).symm⟩
  rw [htree]
  exact hfresh

/-- What an overview that is ordered is made of.  The profile in it is the one that is learned. -/
lemma exists_fresh_of_overview {s : Settings α} {v : Overview α}
    (h : o.overview s now d = .ok v) : ∃ fresh q previous,
      (d.project o.root).bind (fun tree => tree.overview s now) = .ok fresh ∧
      fresh.primary = some q ∧ (d.project o.root).bind (fun tree => tree.learn s now) = .ok q ∧
      o.previous? s d = .ok previous ∧
      v = { fresh with primary := fresh.primary.map (adapted s previous) } := by
  obtain ⟨tree, htree, hrest⟩ := exists_of_bind_eq_ok h
  obtain ⟨fresh, hfresh, hrest⟩ := exists_of_bind_eq_ok hrest
  obtain ⟨previous, hprevious, hrest⟩ := exists_of_bind_eq_ok hrest
  obtain ⟨_, _, _, q, -, -, hq, hparts⟩ := ProjectTree.exists_parts_of_overview hfresh
  refine ⟨fresh, q, previous, ?_, by rw [hparts]; rfl, ?_, hprevious, (Except.ok.inj hrest).symm⟩
  · rw [htree]
    exact hfresh
  · rw [htree]
    exact hq

/-- What has been done by an order that learned the conventions of the main language. -/
lemma learn_eq_ok {report : Report} (h : o.learn now d = (.ok report, e)) : ∃ p s fresh previous,
    o.prepare d = .ok (p, s) ∧
    (d.project o.root).bind (fun tree => tree.learn s now) = .ok fresh ∧
    o.previous? s d = .ok previous ∧ report = p.profile o.root (adapted s previous fresh) ∧
    (o.saves = false ∧ e = d ∨ o.saves = true ∧ ∃ path,
      (s.store o.root).save Profile.format (adapted s previous fresh) d = (.ok path, e)) := by
  rw [learn] at h
  split at h
  next => cases h
  next p s hprepare =>
    obtain ⟨q, hq, rfl, hend⟩ := finish_ok h
    obtain ⟨fresh, previous, hfresh, hprevious, rfl⟩ := exists_fresh_of_profile (ok_of_mapError hq)
    refine ⟨p, s, fresh, previous, hprepare, hfresh, hprevious, rfl, hend.imp_right ?_⟩
    rintro ⟨hsaves, path, hsave⟩
    exact ⟨hsaves, path, save_of_saveFor hsave⟩

/-- What has been done by an order that compared all languages. -/
lemma integrate_eq_ok {report : Report} (h : o.integrate now d = (.ok report, e)) :
    ∃ p s fresh q previous v, o.prepare d = .ok (p, s) ∧
      (d.project o.root).bind (fun tree => tree.overview s now) = .ok fresh ∧
      fresh.primary = some q ∧ (d.project o.root).bind (fun tree => tree.learn s now) = .ok q ∧
      o.previous? s d = .ok previous ∧
      v = { fresh with primary := fresh.primary.map (adapted s previous) } ∧
      report = p.overview o.root v ∧
      (o.saves = false ∧ e = d ∨ o.saves = true ∧ ∃ made path path',
        (s.store o.root).save Profile.format (adapted s previous q) d = (.ok path, made) ∧
        (s.store o.root).save Overview.format v made = (.ok path', e)) := by
  rw [integrate] at h
  split at h
  next => cases h
  next p s hprepare =>
    obtain ⟨v, hv, rfl, hend⟩ := finish_ok h
    obtain ⟨fresh, q, previous, hfresh, hq, hlearn, hprevious, hwhole⟩ :=
      exists_fresh_of_overview (ok_of_mapError hv)
    refine ⟨p, s, fresh, q, previous, v, hprepare, hfresh, hq, hlearn, hprevious, hwhole, rfl,
      hend.imp_right ?_⟩
    rintro ⟨hsaves, path, hsave⟩
    have hprimary : v.primary = some (adapted s previous q) := by rw [hwhole, hq]; rfl
    rw [saveOverview, hprimary] at hsave
    simp only [saveProfile] at hsave
    split at hsave
    next path' made hprofile =>
      exact ⟨hsaves, made, path', path, save_of_saveFor hprofile, save_of_saveFor hsave⟩
    next => cases hsave

end LearnOrder

/-! ### What the slots hold -/

/-- Whether the directory of the results holds some slots, and what is in them can be read back. -/
structure Setup.Keeps (c : Setup α) (slots : Slots α) (d : Disk) : Prop where
  files : c.store.Contains slots.text? d
  learned : ∀ q, slots.learned = some q → Profile.format.Legible q
  compared : ∀ v, slots.compared = some v → Overview.format.Legible v

namespace Setup.Keeps

variable {c : Setup α} {slots : Slots α} {d e : Disk} {o : LearnOrder} {now : α}

lemma load_profile (h : c.Keeps slots d) (q : Profile α) :
    c.store.load Profile.format d = .ok q ↔ slots.learned = some q :=
  h.files.load_iff_of_encode (Settings.dir_text_ne c.check c.root)
    (Store.isName_of_mem (Profile.fileName_mem α))
    Slots.text?_profile h.learned

lemma load_overview (h : c.Keeps slots d) (v : Overview α) :
    c.store.load Overview.format d = .ok v ↔ slots.compared = some v :=
  h.files.load_iff_of_encode (Settings.dir_text_ne c.check c.root)
    (Store.isName_of_mem (Overview.fileName_mem α))
    Slots.text?_overview h.compared

/-- An earlier profile that is asked for is the one in the slot. -/
lemma previous?_eq (h : c.Keeps slots d) (hroot : o.root = c.root) {previous : Option (Profile α)}
    (hok : o.previous? (o.override c.base) d = .ok previous) : previous = slots.previous? o := by
  rw [LearnOrder.previous?, hroot] at hok
  rw [Slots.previous?]
  split_ifs at hok ⊢
  · exact Store.load?_eq_ok h.load_profile hok
  · exact (Except.ok.inj hok).symm

/-- What learning the conventions of the main language does. -/
lemma learn_ok (h : c.Keeps slots d) (hfits : c.Fits o.root o.settingsFile? d) {report : Report}
    (hrun : o.learn now d = (.ok report, e)) : ∃ p fresh,
      Presentation.ofName? o.format = some p ∧ o.freshProfile c.base now d = .ok fresh ∧
      report = p.profile c.root (c.profileOf slots o fresh) ∧
      (o.saves = false ∧ e = d ∨ o.saves = true ∧ ∃ path,
        c.store.save Profile.format (c.profileOf slots o fresh) d = (.ok path, e)) := by
  obtain ⟨p, s, fresh, previous, hprepare, hfresh, hprevious, rfl, hend⟩ :=
    LearnOrder.learn_eq_ok hrun
  obtain ⟨hname, rfl⟩ := LearnOrder.of_prepare hfits hprepare
  obtain rfl := h.previous?_eq hfits.sameRoot hprevious
  rw [hfits.sameRoot] at hend ⊢
  exact ⟨p, fresh, hname, hfresh, rfl, hend⟩

/-- What comparing all languages does. -/
lemma integrate_ok (h : c.Keeps slots d) (hfits : c.Fits o.root o.settingsFile? d) {report : Report}
    (hrun : o.integrate now d = (.ok report, e)) : ∃ p fresh q,
      Presentation.ofName? o.format = some p ∧ o.freshOverview c.base now d = .ok fresh ∧
      report = p.overview c.root (c.overviewOf slots o fresh) ∧
      (c.overviewOf slots o fresh).primary = some q ∧
      (o.saves = false ∧ e = d ∨ o.saves = true ∧ ∃ made path path',
        c.store.save Profile.format q d = (.ok path, made) ∧
        c.store.save Overview.format (c.overviewOf slots o fresh) made = (.ok path', e)) := by
  obtain ⟨p, s, fresh, q, previous, v, hprepare, hfresh, hq, -, hprevious, rfl, rfl, hend⟩ :=
    LearnOrder.integrate_eq_ok hrun
  obtain ⟨hname, rfl⟩ := LearnOrder.of_prepare hfits hprepare
  obtain rfl := h.previous?_eq hfits.sameRoot hprevious
  have hprimary : (c.overviewOf slots o fresh).primary = some (c.profileOf slots o q) := by
    rw [overviewOf, hq]
    rfl
  rw [hfits.sameRoot] at hend ⊢
  exact ⟨p, fresh, _, hname, hfresh, rfl, hprimary, hend⟩

/-! ### One command -/

/-- Saving a profile fills its slot. -/
lemma saveProfile (h : c.Keeps slots d) {q : Profile α} (hq : Profile.format.Legible q)
    {path : Path} (hsave : c.store.save Profile.format q d = (.ok path, e)) :
    c.Keeps { slots with learned := some q } e where
  files := by
    have hmem := Profile.fileName_mem α
    rw [← Slots.update_profile]
    exact h.files.save (Settings.dir_text_ne c.check c.root) (Store.isName_of_mem hmem)
      (Slots.text?_draft hmem) hsave
  learned := fun r hr => Option.some.inj hr ▸ hq
  compared := h.compared

/-- Saving an overview fills its slot. -/
lemma saveOverview (h : c.Keeps slots d) {v : Overview α} (hv : Overview.format.Legible v)
    {path : Path} (hsave : c.store.save Overview.format v d = (.ok path, e)) :
    c.Keeps { slots with compared := some v } e where
  files := by
    have hmem := Overview.fileName_mem α
    rw [← Slots.update_overview]
    exact h.files.save (Settings.dir_text_ne c.check c.root) (Store.isName_of_mem hmem)
      (Slots.text?_draft hmem) hsave
  learned := h.learned
  compared := fun r hr => Option.some.inj hr ▸ hv

end Setup.Keeps

/-- Whether everything that is counted for an order has a property. -/
def LearnOrder.Counts (fits : Nat → Prop) (o : LearnOrder) (base : Settings α) (d : Disk) : Prop :=
  (ProjectTree.ofDisk d o.root).Counts fits (o.override base)

section Laws

variable [LawfulScalar α] {fits : Nat → Prop} {c : Setup α} {slots : Slots α} {d e : Disk}
  {o : LearnOrder} {now : α}

omit [NumberText α] [LawfulScalar α] in
/-- What an order learned is either left alone or adapted. -/
lemma Setup.profileOf_cases (c : Setup α) (slots : Slots α) (o : LearnOrder) :
    c.profileOf slots o = id ∨
      ∃ previous, c.profileOf slots o = Profile.adapt c.base.adaptationRate previous := by
  cases hprevious : slots.previous? o with
  | none =>
    refine Or.inl (funext fun fresh => ?_)
    rw [profileOf, hprevious]
    rfl
  | some previous =>
    refine Or.inr ⟨previous, funext fun fresh => ?_⟩
    rw [profileOf, hprevious]
    rfl

/-- A profile that an order makes keeps to its bounds. -/
lemma Setup.sound_profileOf (hfits : Scalar.Handles α fits) (hcounts : o.Counts fits c.base d)
    (hnow : InTime now) {fresh : Profile α} (hfresh : o.freshProfile c.base now d = .ok fresh)
    {room : Nat} : (c.profileOf slots o fresh).Sound (room + 6) := by
  obtain ⟨tree, htree, hlearn⟩ := exists_of_bind_eq_ok hfresh
  obtain rfl := Disk.eq_of_project htree
  have hsound : fresh.Sound (room + 6) := ProjectTree.sound_of_learn hfits hcounts hnow hlearn
  rcases profileOf_cases c slots o with hsame | ⟨previous, hadapt⟩
  · rw [hsame]
    exact hsound
  · rw [hadapt]
    exact hsound.adapt _ _

/-- So does an overview. -/
lemma Setup.sound_overviewOf (hfits : Scalar.Handles α fits) (hcounts : o.Counts fits c.base d)
    (hnow : InTime now) {fresh : Overview α} (hfresh : o.freshOverview c.base now d = .ok fresh)
    {room : Nat} : (c.overviewOf slots o fresh).Sound (room + 7) := by
  obtain ⟨tree, htree, hoverview⟩ := exists_of_bind_eq_ok hfresh
  obtain rfl := Disk.eq_of_project htree
  have hsound : fresh.Sound (room + 7) :=
    ProjectTree.sound_of_overview hfits hcounts hnow hoverview
  rcases profileOf_cases c slots o with hsame | ⟨previous, hadapt⟩
  · rw [overviewOf, hsame, Option.map_id]
    exact hsound
  · rw [overviewOf, hadapt]
    exact hsound.adaptPrimary _ _

omit [NumberText α] [LawfulScalar α] in
/-- To adapt a profile changes no count. -/
lemma Setup.counted_profileOf {fresh : Profile α} (h : fresh.Counted) :
    (c.profileOf slots o fresh).Counted := by
  rcases profileOf_cases c slots o with hsame | ⟨previous, hadapt⟩
  · rw [hsame]
    exact h
  · rw [hadapt]
    exact h

omit [NumberText α] [LawfulScalar α] in
lemma Setup.counted_overviewOf {fresh : Overview α} (h : fresh.Counted) :
    (c.overviewOf slots o fresh).Counted where
  primary := by
    intro p hp
    obtain ⟨q, hq, rfl⟩ := Option.map_eq_some_iff.1 hp
    exact counted_profileOf (h.primary q hq)
  metrics := h.metrics

namespace Setup.Keeps

variable [LawfulNumberText α]

/-- Learning the conventions of the main language goes along with the machine. -/
lemma learn (h : c.Keeps slots d) (hfits : c.Fits o.root o.settingsFile? d)
    (hhandles : Scalar.Handles α fits) (hcounts : o.Counts fits c.base d) (hnow : InTime now)
    {fresh : Profile α} (hfresh : o.freshProfile c.base now d = .ok fresh) (hcount : fresh.Counted)
    {report : Report} (hrun : o.learn now d = (.ok report, e)) :
    c.Keeps (c.after slots (.learn o fresh)) e := by
  obtain ⟨-, fresh', -, hfresh', -, hend⟩ := h.learn_ok hfits hrun
  obtain rfl := Except.ok.inj (hfresh'.symm.trans hfresh)
  rw [after]
  rcases hend with ⟨hsaves, rfl⟩ | ⟨hsaves, path, hsave⟩
  · simpa [hsaves] using h
  · have hsound : (c.profileOf slots o fresh').Sound Document.depthLimit :=
      sound_profileOf hhandles hcounts hnow hfresh
    rw [if_pos hsaves]
    exact h.saveProfile (hsound.legible (counted_profileOf hcount)) hsave

/-- So does comparing all languages, which fills one slot after the other. -/
lemma integrate (h : c.Keeps slots d) (hfits : c.Fits o.root o.settingsFile? d)
    (hhandles : Scalar.Handles α fits) (hcounts : o.Counts fits c.base d) (hnow : InTime now)
    {fresh : Overview α} (hfresh : o.freshOverview c.base now d = .ok fresh)
    (hcount : fresh.Counted) {report : Report} (hrun : o.integrate now d = (.ok report, e)) :
    c.Keeps (c.after slots (.integrate o fresh)) e := by
  obtain ⟨-, fresh', q, -, hfresh', -, hq, hend⟩ := h.integrate_ok hfits hrun
  obtain rfl := Except.ok.inj (hfresh'.symm.trans hfresh)
  rw [after]
  rcases hend with ⟨hsaves, rfl⟩ | ⟨hsaves, made, path, path', hprofile, hoverview⟩
  · simpa [hsaves] using h
  · have hcount' : (c.overviewOf slots o fresh').Counted := counted_overviewOf hcount
    have hsound : (c.overviewOf slots o fresh').Sound Document.depthLimit :=
      sound_overviewOf hhandles hcounts hnow hfresh
    -- the profile lies one level deeper in the overview than on its own
    have hdeep : (c.overviewOf slots o fresh').Sound (Document.depthLimit + 1) :=
      sound_overviewOf hhandles hcounts hnow hfresh
    have hprimary : q.Sound Document.depthLimit :=
      ⟨hdeep.finite.primary q hq, hdeep.inRange.primary q hq⟩
    have hmade := h.saveProfile (hprimary.legible (hcount'.primary q hq)) hprofile
    rw [if_pos hsaves, hq]
    exact hmade.saveOverview (hsound.legible hcount') hoverview

end Setup.Keeps

end Laws

/-! ### Showing what is saved -/

omit [Scalar α] [NumberText α] in
/-- A line without a style is written as it is. -/
lemma render_plainLine (coloured : Bool) (text : String) :
    (Report.plainLine text).render coloured = text ++ "\n" := by
  simp [Report.plainLine, Report.render, Piece.plain, Piece.render, Text.padEnd]

namespace Setup.Keeps

variable {c : Setup α} {slots : Slots α} {d : Disk} {o : ShowOrder}

/-- What is in the slots is found if there is anything in them. -/
lemma run_display (h : c.Keeps slots d) (hfits : c.Fits o.root o.settingsFile? d)
    (hformat : o.format = "json") {text : String} (htext : slots.shown? = some text) :
    (o.run d : Except (RunFault α) Report)
      = .ok (Presentation.json.saved o.root slots.learned slots.compared) := by
  -- a text in a slot tells that the directory is there, so an empty slot is a missing file
  have hthere : ∃ name, slots.text? name = some text := by
    rcases Option.or_eq_some_iff.1 htext with hoverview | ⟨-, hprofile⟩
    · exact ⟨_, hoverview⟩
    · exact ⟨_, hprofile⟩
  obtain ⟨name, hname⟩ := hthere
  obtain ⟨place, hleads⟩ := h.files.there hname
  have hprofile := h.files.load?_of_leads hleads (Store.isName_of_mem (Profile.fileName_mem α))
    Slots.text?_profile h.load_profile
  have hoverview := h.files.load?_of_leads hleads (Store.isName_of_mem (Overview.fileName_mem α))
    Slots.text?_overview h.load_overview
  have hfilled : (slots.learned.isNone && slots.compared.isNone) = false := by
    rw [Bool.eq_false_iff]
    intro hempty
    obtain ⟨hlearned, hcompared⟩ := Bool.and_eq_true_iff.1 hempty
    rw [Slots.shown?, Slots.text?_overview, Slots.text?_profile,
      Option.isNone_iff_eq_none.1 hlearned, Option.isNone_iff_eq_none.1 hcompared] at htext
    cases htext
  rw [store, ← hfits.sameRoot] at hprofile hoverview
  simp only [ShowOrder.run, hformat, presentationOf, Presentation.ofName?, hfits.settings, hprofile,
    hoverview, Except.mapError, bind, Except.bind, hfilled]
  rfl

/-- The document of a slot is shown as it is saved. -/
lemma shown (h : c.Keeps slots d) (hfits : c.Fits o.root o.settingsFile? d)
    (hformat : o.format = "json") {text : String} (htext : slots.shown? = some text)
    (coloured : Bool) :
    Outcome.ofResult coloured (o.run d : Except (RunFault α) Report) = ⟨0, text ++ "\n", ""⟩ := by
  rw [h.run_display hfits hformat htext, Outcome.ofResult]
  rw [Slots.shown?, Slots.text?_overview, Slots.text?_profile] at htext
  cases hcompared : slots.compared with
  | some v =>
    rw [hcompared] at htext
    obtain rfl := Option.some.inj htext
    simp only [Presentation.saved, Presentation.overview, Presentation.document, render_plainLine]
    rfl
  | none =>
    cases hlearned : slots.learned with
    | some q =>
      rw [hcompared, hlearned] at htext
      obtain rfl := Option.some.inj htext
      simp only [Presentation.saved, Option.map_some, Option.getD_some, Presentation.profile,
        Presentation.document, render_plainLine]
      rfl
    | none =>
      rw [hcompared, hlearned] at htext
      cases htext

/-- If both slots are empty nothing is shown. -/
lemma nothing (h : c.Keeps slots d) (hfits : c.Fits o.root o.settingsFile? d)
    (htext : slots.shown? = none) (coloured : Bool) :
    (Outcome.ofResult coloured (o.run d : Except (RunFault α) Report)).code = failureCode := by
  -- the directory may not even be there, so all that is known is what a success would mean
  cases hrun : (o.run d : Except (RunFault α) Report) with
  | error fault => rfl
  | ok report =>
    rw [Slots.shown?, Slots.text?_overview, Slots.text?_profile, Option.or_eq_none_iff,
      Option.map_eq_none_iff, Option.map_eq_none_iff] at htext
    obtain ⟨p, -, hrest⟩ := exists_of_bind_eq_ok hrun
    obtain ⟨s, hs, hrest⟩ := exists_of_bind_eq_ok hrest
    obtain ⟨learned, hlearned, hrest⟩ := exists_of_bind_eq_ok hrest
    obtain ⟨compared, hcompared, hrest⟩ := exists_of_bind_eq_ok hrest
    have hbase := (ok_of_mapError hs).symm.trans hfits.settings
    obtain rfl := Except.ok.inj hbase.symm
    rw [hfits.sameRoot] at hlearned hcompared
    obtain rfl := Store.load?_eq_ok h.load_profile (ok_of_mapError hlearned)
    obtain rfl := Store.load?_eq_ok h.load_overview (ok_of_mapError hcompared)
    simp only [htext.1, htext.2] at hrest
    cases hrest

end Setup.Keeps

end HouseStyle.CommandLine
