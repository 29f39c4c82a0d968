import HouseStyle.Proofs.EntryName
import HouseStyle.Proofs.Snapshot.Contents
import HouseStyle.Proofs.Snapshot.Race

/-!
# What two calls leave behind

In each stage of two calls that save at once the result is the earlier one or has the text of one
of the calls, and it is never a part of a text.  When both are done, it has the text of one of them.
But a call that finds its draft gone fails (`Race.whole_run`), and there is an order of the steps
for that (`Race.Ready.exists_fault`).  With links in the stead of the result or the draft, and with
a path that goes up from a directory that is missing, something else may be loaded on the way
(`Race.saves_interfere`).
-/

namespace HouseStyle

namespace Race

variable {α β : Type} [NumberText α] {s : Store} {format : SavedFormat α β} {values : Side → β}

/-! ### What is loaded on the way -/

/-- Whether the file of a result has the text of a value, which is loaded if it can be loaded at
all. -/
structure Shows (s : Store) (format : SavedFormat α β) (value : β) (d : Disk) : Prop where
  text : d.readText (s.pathOf format) = .ok (format.encode value).toList
  load : format.Legible value → s.load format d = .ok value

section Shows

variable {d made e : Disk} {place : DiskPlace} {text : Side} {draft : Draft}

lemma Holds.shows_text (h : Holds format values made place (some text) draft e)
    (hg : Ground s format values made place) : Shows s format (values text) e := by
  have htext : e.readText (s.pathOf format) = .ok (format.encode (values text)).toList :=
    Disk.readText_file (h.leads hg) hg.isName h.get?_result rfl
  exact ⟨htext, fun hlegible =>
    Store.load_eq_ok_iff_check.2 ⟨_, htext, hlegible.decode, hlegible.check⟩⟩

/-- As long as no call has moved the draft, the earlier result is loaded. -/
lemma Holds.load_eq (h : Holds format values made place none draft e)
    (hg : Ground s format values made place) : s.load format e = s.load format made :=
  Store.load_congr (Disk.readText_congr (Disk.read_join_congr hg.leads (h.leads hg) hg.isName
    (hg.noLink place hg.leads) h.get?_result))

/-- A disk on which each of two calls alone can save its result, where no links are in the stead of
the result and its draft, a draft that was left can be read, and the path of the store goes up from
no directory that is missing. -/
structure Ready (s : Store) (format : SavedFormat α β) (values : Side → β) (d : Disk) : Prop where
  wellFormed : d.WellFormed
  settled : d.Settled s.dir
  nonempty : s.dir.text ≠ ""
  isName : Path.IsName format.fileName
  noLink_result : s.NoLink d format.fileName
  noLink_draft : s.NoLink d (format.fileName ++ ".tmp")
  readable_draft : s.ReadableDraft format d
  alone : ∀ side, ∃ path e, s.save format (values side) d = (.ok path, e)

/-- Saving succeeds only if all of its steps do. -/
lemma exists_steps_of_save {value : β} {path : Path} (h : s.save format value d = (.ok path, e)) :
    ∃ made drafted, d.makeDirectories s.dir = (.ok (), made) ∧
      made.write (s.draftOf format) (Text.encode (format.encode value)) = (.ok (), drafted) ∧
      drafted.rename (s.draftOf format) (s.pathOf format) = (.ok (), e) := by
  simp only [Store.save, Store.steps, Store.takeSteps, Store.step] at h
  rcases hmade : d.makeDirectories s.dir with ⟨_ | _, made⟩
  · simp [hmade] at h
  rcases hwrite : made.write (s.draftOf format) (Text.encode (format.encode value))
    with ⟨_ | _, drafted⟩
  · simp [hmade, hwrite] at h
  rcases hrename : drafted.rename (s.draftOf format) (s.pathOf format) with ⟨_ | _, moved⟩
  · simp [hmade, hwrite, hrename] at h
  · simp only [hmade, hwrite, hrename] at h
    obtain ⟨-, rfl⟩ := Prod.mk.inj h
    exact ⟨made, drafted, rfl, hwrite, hrename⟩

/-- A disk on which a result was saved allows all that saving asks for. -/
lemma allowed_of_save {value : β} {path : Path} (hsave : s.save format value d = (.ok path, e))
    (hmade : d.makeDirectories s.dir = (.ok (), made)) (hleads : made.Leads s.dir place)
    (hname : Path.IsName format.fileName)
    (hopen : Disk.Writable (made.get? (place ++ [.text (format.fileName ++ ".tmp")])))
    (hresult : made.get? (place ++ [.text format.fileName]) ≠ some .directory) :
    made.Fits (place ++ [.text (format.fileName ++ ".tmp")]) (Text.encode (format.encode value)) ∧
      made.limits.refusal? (.rename (place ++ [.text (format.fileName ++ ".tmp")])
        (place ++ [.text format.fileName])) = none := by
  have hlink : ∀ target,
      made.get? (place ++ [.text (format.fileName ++ ".tmp")]) ≠ some (.link target) := by
    intro target hlink
    rw [hlink] at hopen
    cases hopen
  obtain ⟨_, drafted, heq, hwrite, hrename⟩ := exists_steps_of_save hsave
  obtain rfl := (Prod.mk.inj (hmade.symm.trans heq)).2
  have hfits := Disk.fits_of_write hleads hname.draft hlink hwrite
  refine ⟨hfits, ?_⟩
  -- the draft is moved over the result, so the disk does not refuse that
  obtain ⟨-, rfl⟩ := Prod.mk.inj
    (hwrite.symm.trans (Disk.write_join_of_fits hleads hname.draft hopen hfits))
  have hdrafted : s.Drafted format made (made.set _
      (.file (Text.encode (format.encode value)) (Store.draftRights format made place))) :=
    .draft hleads hopen _ _
  have hmoved := Disk.rename_join (hleads.mono hdrafted.keeps) hname.draft hname
    ((Disk.get?_set (by simp) _ _).trans (if_pos rfl)) nofun
    (by rwa [Disk.get?_set (by simp), if_neg (by simpa using (Path.draft_ne _).symm)])
  exact Disk.refusal?_of_ok (d := made.set _ _) (hmoved.symm.trans hrename)

/-- Where two calls are ready to save, the directory of the store can be made, and both can save
their results there. -/
lemma Ready.exists_ground (h : Ready s format values d) : ∃ made place,
    d.makeDirectories s.dir = (.ok (), made) ∧ Ground s format values made place := by
  have hlink := h.noLink_draft.made h.wellFormed h.nonempty h.settled
  have hpublished (side : Side) : ∃ place e,
      s.Published format (format.encode (values side)) (d.makeDirectories s.dir).2 e place := by
    obtain ⟨path, e, hsave⟩ := h.alone side
    rcases Store.save_cases (values side) h.wellFormed h.nonempty h.isName hlink with
      ⟨fault, e', heq, -⟩ | ⟨e', place, -, hpub⟩
    · rw [hsave] at heq
      cases heq
    · exact ⟨place, e', hpub⟩
  obtain ⟨place, e, hpub⟩ := hpublished .first
  obtain ⟨made, hmade⟩ : ∃ made, d.makeDirectories s.dir = (.ok (), made) := by
    obtain ⟨path, e, hsave⟩ := h.alone .first
    obtain ⟨made, drafted, hmade, -⟩ := exists_steps_of_save hsave
    exact ⟨made, hmade⟩
  have hallowed (side : Side) : made.Fits (place ++ [.text (format.fileName ++ ".tmp")])
        (Text.encode (format.encode (values side))) ∧
      made.limits.refusal? (.rename (place ++ [.text (format.fileName ++ ".tmp")])
        (place ++ [.text format.fileName])) = none := by
    obtain ⟨path, e, hsave⟩ := h.alone side
    rw [hmade] at hpub
    exact allowed_of_save hsave hmade hpub.leads h.isName hpub.draft hpub.result
  have hwell := (Disk.makeDirectories_makes d s.dir).wellFormed h.wellFormed
  have hnoLink := h.noLink_result.made h.wellFormed h.nonempty h.settled
  have hreadable := h.readable_draft.made h.wellFormed h.nonempty h.settled place
    hpub.leads.reaches
  rw [hmade] at hpub hwell hnoLink hreadable
  exact ⟨made, place, hmade, {
    wellFormed := hwell
    leads := hpub.leads
    isName := h.isName
    noLink := hnoLink
    draft := hpub.draft
    readable := hreadable
    result := hpub.result
    fits := fun side => (hallowed side).1
    moves := (hallowed .first).2 }⟩

/-- In every stage the earlier result is loaded, or that of one of the calls. -/
lemma Stage.loads {r : Race} {flag : Bool} (h : Stage format values d made place r flag)
    (hg : Ground s format values made place) (hmade : s.load format made = s.load format d) :
    s.load format r.disk = s.load format d ∨ ∃ side, Shows s format (values side) r.disk := by
  cases h with
  | fresh hdisk => exact Or.inl (by rw [hdisk])
  | waiting hdisk => exact Or.inl ((hdisk.load_eq hg).trans hmade)
  | drafted side hdisk => exact Or.inl ((hdisk.load_eq hg).trans hmade)
  | met side hdisk => exact Or.inl ((hdisk.load_eq hg).trans hmade)
  | published side text hdisk => exact Or.inr ⟨text, hdisk.shows_text hg⟩
  | following side text hdisk => exact Or.inr ⟨text, hdisk.shows_text hg⟩
  | beaten side text hdisk => exact Or.inr ⟨text, hdisk.shows_text hg⟩
  | won text hdisk => exact Or.inr ⟨text, hdisk.shows_text hg⟩
  | lost side text hdisk => exact Or.inr ⟨text, hdisk.shows_text hg⟩

/-- In the stages in which a call is done, the result is that of one of the calls. -/
lemma Stage.shows_of_done {r : Race} {flag : Bool} (h : Stage format values d made place r flag)
    (hg : Ground s format values made place) (hdone : ∃ side, r.left side = []) :
    ∃ side, Shows s format (values side) r.disk := by
  obtain ⟨turn, hturn⟩ := hdone
  cases h with
  | fresh hdisk hleft =>
    rw [hleft] at hturn
    cases hturn
  | waiting hdisk hleft => exact absurd hturn (hleft turn).ne_nil
  | drafted side hdisk hleft hother =>
    rcases side.eq_or_eq_other turn with rfl | rfl
    · rw [hleft] at hturn
      cases hturn
    · exact absurd hturn hother.ne_nil
  | met side hdisk hleft =>
    rw [hleft] at hturn
    cases hturn
  | published side text hdisk => exact ⟨text, hdisk.shows_text hg⟩
  | following side text hdisk => exact ⟨text, hdisk.shows_text hg⟩
  | beaten side text hdisk => exact ⟨text, hdisk.shows_text hg⟩
  | won text hdisk => exact ⟨text, hdisk.shows_text hg⟩
  | lost side text hdisk => exact ⟨text, hdisk.shows_text hg⟩

/-- A call fails only in the last stage. -/
lemma Stage.fault {r : Race} {flag : Bool} (h : Stage format values d made place r flag)
    {side : Side} {fault : DiskFault} (hside : r.fault? side = some fault) :
    fault = .missing ∧ (∀ turn, r.left turn = []) ∧ r.fault? side.other = none := by
  cases h with
  | fresh hdisk hleft hfault | waiting hdisk hleft hfault | met turn hdisk hleft hfault
  | won text hdisk hleft hfault =>
    rw [hfault] at hside
    cases hside
  | drafted turn hdisk hleft hother hfault | published turn text hdisk hleft hother hfault
  | following turn text hdisk hleft hother hfault | beaten turn text hdisk hleft hother hfault =>
    rw [hfault] at hside
    cases hside
  | lost turn text hdisk hleft hfault hother =>
    rcases turn.eq_or_eq_other side with rfl | rfl
    · rw [hfault] at hside
      cases hside
    · rw [hother] at hside
      obtain rfl := Option.some.inj hside
      rw [Side.other_other]
      exact ⟨rfl, hleft, hfault⟩

/-- When both calls are done, one has failed if they have met. -/
lemma Stage.fails_iff {r : Race} {flag : Bool} (h : Stage format values d made place r flag)
    (hdone : ∀ side, r.left side = []) : (∃ side, r.fault? side ≠ none) ↔ flag = true := by
  cases h with
  | fresh hdisk hleft => exact absurd (hdone .first) (by rw [hleft]; decide)
  | waiting hdisk hleft => exact absurd (hdone .first) (hleft _).ne_nil
  | drafted side hdisk hleft => exact absurd (hdone side) (by rw [hleft]; decide)
  | met side hdisk hleft => exact absurd (hdone side) (by rw [hleft]; decide)
  | published side text hdisk hleft hother => exact absurd (hdone _) hother.ne_nil
  | following side text hdisk hleft hother => exact absurd (hdone _) (by rw [hother]; decide)
  | beaten side text hdisk hleft hother => exact absurd (hdone _) (by rw [hother]; decide)
  | won text hdisk hleft hfault => simp [hfault]
  | lost side text hdisk hleft hfault hother =>
    refine ⟨fun _ => rfl, fun _ => ⟨side.other, ?_⟩⟩
    rw [hother]
    simp

/-! ### Whatever the order -/

/-- The calls meet when both have had two turns. -/
lemma met_run_iff (hg : Ground s format values made place)
    (hmade : d.makeDirectories s.dir = (.ok (), made)) (schedule : List Side) :
    ((start d).run s format values schedule).Met ↔ ∀ side, schedule.count side = 2 := by
  obtain ⟨flag, hstage, -⟩ := exists_stage_run hg hmade schedule
  have hleft (side : Side)
      (hnone : ((start d).run s format values schedule).fault? side = none) :
      ((start d).run s format values schedule).left side
        = Store.steps.drop (schedule.count side) := left_run schedule hnone
  constructor
  · intro hmet side
    have hnone : ((start d).run s format values schedule).fault? side = none := by
      by_contra hsome
      obtain ⟨fault, hfault⟩ := Option.ne_none_iff_exists'.1 hsome
      have hdone := (hstage.fault hfault).2.1 side
      rw [hmet side] at hdone
      cases hdone
    have hlength := congrArg List.length ((hmet side).symm.trans (hleft side hnone))
    have hthree : Store.steps.length = 3 := rfl
    rw [List.length_drop, hthree, List.length_singleton] at hlength
    omega
  · intro hcount side
    have hnone : ((start d).run s format values schedule).fault? side = none := by
      by_contra hsome
      obtain ⟨fault, hfault⟩ := Option.ne_none_iff_exists'.1 hsome
      obtain ⟨-, hdone, hother⟩ := hstage.fault hfault
      -- the other call has not failed, so it has not taken its last step
      have hlast := hleft _ hother
      rw [hdone, hcount] at hlast
      cases hlast
    rw [hleft side hnone, hcount]
    rfl

/-- What two calls come to that take their steps in the order of a schedule. -/
structure Whole (s : Store) (format : SavedFormat α β) (values : Side → β) (d : Disk)
    (schedule : List Side) (r : Race) : Prop where
  /-- The earlier result is loaded, or that of one of the calls. -/
  loads : s.load format r.disk = s.load format d ∨ ∃ side, Shows s format (values side) r.disk
  /-- As soon as a call is done, the result is that of one of the calls. -/
  shows_of_done : (∃ side, r.left side = []) → ∃ side, Shows s format (values side) r.disk
  /-- A call is done when it has had three turns. -/
  done : ∀ side, 3 ≤ schedule.count side → r.left side = []
  /-- A call fails only if it finds nothing to move, and then the other one has succeeded. -/
  fault : ∀ side fault, r.fault? side = some fault →
    fault = .missing ∧ (∀ turn, r.left turn = []) ∧ r.fault? side.other = none
  /-- When both calls are done, one has failed if at some time both had had two turns, so that both
  had written the draft and neither had moved it, and else both have succeeded. -/
  fails_iff : (∀ side, r.left side = []) → ((∃ side, r.fault? side ≠ none) ↔
    ∃ front, front <+: schedule ∧ ∀ side, front.count side = 2)

/-- Two calls that save at once keep the result whole, whatever the order of their steps, and both
succeed unless both write the draft before either moves it. -/
theorem whole_run (h : Ready s format values d) (schedule : List Side) :
    Whole s format values d schedule ((start d).run s format values schedule) := by
  obtain ⟨made, place, hmade, hg⟩ := h.exists_ground
  obtain ⟨flag, hstage, hflag⟩ := exists_stage_run hg hmade schedule
  have hearlier : s.load format made = s.load format d := by
    have hunseen := Disk.makeDirectories_unseen h.wellFormed h.nonempty h.settled
    rw [hmade] at hunseen
    exact Store.load_congr (Disk.readText_congr (hunseen.read h.nonempty h.isName))
  have hdone (side : Side) (hturns : 3 ≤ schedule.count side) :
      ((start d).run s format values schedule).left side = [] := by
    cases hfault : ((start d).run s format values schedule).fault? side with
    | none => exact (left_run schedule hfault).trans (List.drop_eq_nil_of_le hturns)
    | some fault => exact (hstage.fault hfault).2.1 side
  simp only [met_run_iff hg hmade] at hflag
  exact {
    loads := hstage.loads hg hearlier
    shows_of_done := hstage.shows_of_done hg
    done := hdone
    fault := fun side fault => hstage.fault
    fails_iff := fun hleft => (hstage.fails_iff hleft).trans hflag }

/-- There is an order in which one of the calls fails. -/
lemma Ready.exists_fault (h : Ready s format values d) :
    ∃ side, ((start d).run s format values
      [.first, .first, .second, .second, .second, .first]).fault? side = some .missing := by
  obtain ⟨made, place, hmade, hg⟩ := h.exists_ground
  obtain ⟨flag, hstage, hflag⟩ := exists_stage_run hg hmade
    [.first, .first, .second, .second, .second, .first]
  have hmet := (met_run_iff hg hmade [.first, .first, .second, .second]).2
    fun side => by cases side <;> rfl
  have hlost : flag = true := hflag.2 ⟨_, by decide, hmet⟩
  have hdone (side : Side) : ((start d).run s format values
      [.first, .first, .second, .second, .second, .first]).left side = [] := by
    cases hfault : ((start d).run s format values
        [.first, .first, .second, .second, .second, .first]).fault? side with
    | none =>
      rw [left_run _ hfault]
      cases side <;> rfl
    | some fault => exact (hstage.fault hfault).2.1 side
  obtain ⟨side, hsome⟩ := (hstage.fails_iff hdone).2 hlost
  obtain ⟨fault, hfault⟩ := Option.ne_none_iff_exists'.1 hsome
  exact ⟨side, hfault.trans (congrArg some (hstage.fault hfault).1)⟩

end Shows

/-! ### Two profiles -/

/-- The profiles that two calls save. -/
def profiles : Side → Profile WholeNumber
  | .first => .sample
  | .second => { Profile.sample with language := "go" }

/-- How the profiles are saved. -/
abbrev profileFormat : SavedFormat WholeNumber (Profile WholeNumber) := Profile.format

/-- A store in the directory of the program. -/
def stateStore : Store := ⟨⟨".state"⟩⟩

/-- A disk with the directory of the store. -/
def emptyState : Disk := ⟨[([".state"], .directory)], [], .none⟩

lemma leads_state {d : Disk} (hhome : d.home = []) (h : d.get? [".state"] = some .directory) :
    d.Leads ⟨".state"⟩ [".state"] := by
  refine ⟨by decide, Disk.linkLimit, ?_⟩
  rw [hhome]
  exact .single (.down _ [] h)

/-- Each call can save its profile where there is room for the draft and the result. -/
lemma exists_save {s : Store} {d made : Disk} {place : DiskPlace} (hd : made.WellFormed)
    (hmade : d.makeDirectories s.dir = (.ok (), made)) (hleads : made.Leads s.dir place)
    (hlimits : made.limits = .none)
    (hdraft : Disk.Writable (made.get? (place ++ [.text "learning_result.json.tmp"])))
    (hresult : made.get? (place ++ [.text "learning_result.json"]) ≠ some .directory)
    (side : Side) :
    ∃ path e, s.save profileFormat (profiles side) d = (.ok path, e) := by
  obtain ⟨e, hsave, -⟩ := Store.exists_published profileFormat (profiles side) hd hmade hleads
    (by decide) hlimits hdraft hresult
  exact ⟨_, e, hsave⟩

lemma ready_emptyState : Ready stateStore profileFormat profiles emptyState := by
  have hwell : emptyState.WellFormed := Disk.wellFormed_of_entries rfl (by decide)
  have hleads : emptyState.Leads stateStore.dir [".state"] := leads_state rfl rfl
  have hlink (name : String) : stateStore.NoLink emptyState name :=
    Store.noLink_of_entries (by simp [emptyState]) name
  exact {
    wellFormed := hwell
    settled := hleads.settled
    nonempty := by decide
    isName := by decide
    noLink_result := hlink _
    noLink_draft := hlink _
    readable_draft := fun place hreaches => by
      obtain rfl := Disk.Leads.unique ⟨hleads.nonempty, hreaches⟩ hleads
      rfl
    alone := exists_save hwell (Disk.makeDirectories_of_leads hleads) hleads rfl .none (by decide) }

theorem whole_run_emptyState :
    Ready stateStore profileFormat profiles emptyState ∧
      Whole stateStore profileFormat profiles emptyState [.first, .first, .second, .second, .second]
        ((start emptyState).run stateStore profileFormat profiles
          [.first, .first, .second, .second, .second]) :=
  ⟨ready_emptyState, whole_run ready_emptyState _⟩

/-! ### Other results on the way -/

/-- The same disk with a link that leads through the draft in the stead of the result. -/
def linkedResult : Disk :=
  emptyState.set [".state", "learning_result.json"]
    (.link [.entry "learning_result.json.tmp", .entry "x"])

/-- The same disk with a link to the result in the stead of the draft. -/
def linkedDraft : Disk :=
  emptyState.set [".state", "learning_result.json.tmp"] (.link [.entry "learning_result.json"])

/-- A disk on which a path to a directory with a result goes up from a directory that is missing. -/
def elsewhere : Disk :=
  ⟨[(["real"], .directory), (["real", "learning_result.json"], .file (Text.encode "") .all)], [],
    .none⟩

/-- Whether calls that could save alone come to a disk with neither the earlier profile nor that of
one of them. -/
def Strays (s : Store) (d : Disk) (schedule : List Side) : Prop :=
  (∀ side, ∃ path e, s.save profileFormat (profiles side) d = (.ok path, e)) ∧
    ¬ (s.load profileFormat ((start d).run s profileFormat profiles schedule).disk
          = s.load profileFormat d ∨
        ∃ side, Shows s profileFormat (profiles side)
          ((start d).run s profileFormat profiles schedule).disk)

lemma strays_of_readText {s : Store} {d e : Disk} {schedule : List Side}
    (hsave : ∀ side, ∃ path e, s.save profileFormat (profiles side) d = (.ok path, e))
    (hrun : ((start d).run s profileFormat profiles schedule).disk = e)
    (hbefore : d.readText (s.pathOf profileFormat) = .error .missing)
    (hmissing : e.readText (s.pathOf profileFormat) ≠ .error .missing)
    (hother : ∀ side, e.readText (s.pathOf profileFormat)
      ≠ .ok (profileFormat.encode (profiles side)).toList) : Strays s d schedule := by
  refine ⟨hsave, ?_⟩
  rw [hrun, Store.load_of_missing hbefore]
  rintro (hload | ⟨side, hshows⟩)
  · cases htext : e.readText (s.pathOf profileFormat) with
    | ok text => exact Store.load_ne_notSaved htext _ hload
    | error fault =>
      have hne : fault ≠ .missing := fun heq => hmissing (heq ▸ htext)
      rw [Store.load_of_fault hne htext] at hload
      cases hload
  · exact hother side hshows.text

lemma way_result : Disk.way (stateStore.pathOf profileFormat)
    = [.entry ".state", .entry "learning_result.json"] := by
  decide

/-- Behind a link in the stead of the result, the draft of a call bars the way. -/
lemma strays_linkedResult : Strays stateStore linkedResult [.first, .first] := by
  have hleads : linkedResult.Leads stateStore.dir [".state"] := leads_state rfl rfl
  have hmade : linkedResult.makeDirectories stateStore.dir = (.ok (), linkedResult) :=
    Disk.makeDirectories_of_leads hleads
  let drafted := linkedResult.set [".state", "learning_result.json.tmp"]
    (savedFile profileFormat (profiles .first))
  have hdraft : stateStore.step profileFormat (profiles .first) linkedResult .writeDraft
      = (.ok (), drafted) :=
    Disk.write_join_of_fits hleads (by decide) .none ⟨rfl, nofun⟩
  have hrun : ((start linkedResult).run stateStore profileFormat profiles
      [.first, .first]).disk = drafted := by
    have hone : (start linkedResult).advance stateStore profileFormat profiles .first = _ :=
      advance_ok rfl hmade
    rw [run, List.foldl_cons, hone, List.foldl_cons,
      advance_ok rfl hdraft, List.foldl_nil]
  have hbefore : linkedResult.readText (stateStore.pathOf profileFormat) = .error .missing := by
    simp [Disk.readText, Disk.read, Disk.target, Disk.targetOf, way_result, Disk.follow,
      Disk.linkLimit, linkedResult, emptyState, Disk.set, Disk.get?, List.lookup_cons]
    rfl
  have hafter : drafted.readText (stateStore.pathOf profileFormat) = .error .notDirectory := by
    simp [drafted, Disk.readText, Disk.read, Disk.target, Disk.targetOf, way_result,
      Disk.follow, Disk.linkLimit, linkedResult, emptyState, Disk.set, Disk.get?, List.lookup_cons,
      savedFile]
    rfl
  refine strays_of_readText (exists_save (Disk.wellFormed_of_entries rfl (by decide)) hmade hleads
    rfl .none (by decide)) hrun hbefore ?_ ?_
  · rw [hafter]
    simp
  · rw [hafter]
    simp

/-- Behind a link in the stead of the draft, a call moves the link over the result. -/
lemma strays_linkedDraft : Strays stateStore linkedDraft [.first, .first, .first] := by
  have hleads : linkedDraft.Leads stateStore.dir [".state"] := leads_state rfl rfl
  have hdraft : linkedDraft.get? ([.text ".state"] ++ [.text "learning_result.json.tmp"])
      = some (.link [.entry "learning_result.json"]) := rfl
  have hresult : Disk.Writable
      (linkedDraft.get? ([.text ".state"] ++ [.text "learning_result.json"])) := .none
  have hsave (side : Side) : ∃ path e,
      stateStore.save profileFormat (profiles side) linkedDraft = (.ok path, e) ∧
        e.readText (stateStore.pathOf profileFormat) = .error .circle := by
    refine Store.save_of_linked_draft (Disk.linkLimit - 1) _
      (Disk.wellFormed_of_entries rfl (by decide)) (by decide) rfl
      (by decide) hdraft hresult fun e hhome hother => ?_
    have hstate : e.get? ([] ++ [.text ".state"]) = some .directory :=
      hother _ (by decide) (by decide)
    exact .single (.down _ [] hstate)
  obtain ⟨path, e, hfirst, hcircle⟩ := hsave .first
  have hrun : ((start linkedDraft).run stateStore profileFormat profiles
      [.first, .first, .first]).disk = e := by
    have halone := save_eq_run stateStore profileFormat profiles .first linkedDraft
    rw [hfirst] at halone
    exact (congrArg Prod.snd halone).symm
  have hbefore : linkedDraft.readText (stateStore.pathOf profileFormat) = .error .missing :=
    Disk.readText_none hleads (by decide) rfl
  refine strays_of_readText (fun side => ?_) hrun hbefore ?_ ?_
  · obtain ⟨path, e, hside, -⟩ := hsave side
    exact ⟨path, e, hside⟩
  · rw [hcircle]
    simp
  · rw [hcircle]
    simp

/-- A saved profile does not have the empty text. -/
lemma encode_ne_nil (p : Profile WholeNumber) : (profileFormat.encode p).toList ≠ [] := by
  change (String.ofList (Json.layOut 0 p.toJson)).toList ≠ []
  rw [String.toList_ofList, Profile.toJson, Json.layOut]
  simp

/-- Where the path goes up from a directory that is missing, a call that makes the directory lets a
file be found. -/
lemma strays_elsewhere : Strays ⟨⟨"x/../real"⟩⟩ elsewhere [.first] := by
  let made := elsewhere.set ["x"] .directory
  have hmade : elsewhere.makeDirectories ⟨"x/../real"⟩ = (.ok (), made) := by
    have hway : Disk.wayToName ⟨"x/../real"⟩ = [.entry "x", .up, .entry "real"] := by decide
    have hparts : Path.parts ⟨"x/../real"⟩ = [.entry "x", .up, .entry "real"] := by decide
    rw [Disk.makeDirectories, hway, hparts]
    simp [Disk.makeDirectoriesUp, Disk.ensureBelow, Disk.ensureDirectory, Disk.makeDirectory,
      Disk.targetOf, Disk.follow, Disk.get?, elsewhere, made, Disk.set, List.lookup_cons,
      Disk.unlessRefused, DiskLimits.none]
  have hleads : made.Leads ⟨"x/../real"⟩ ["real"] := by
    refine ⟨by decide, Disk.linkLimit, ?_⟩
    exact .head (.down _ _ rfl) (.head (.up _ _ _) (.single (.down _ [] rfl)))
  have hrun : ((start elsewhere).run ⟨⟨"x/../real"⟩⟩ profileFormat profiles [.first]).disk
      = made := by
    have hone : (start elsewhere).advance ⟨⟨"x/../real"⟩⟩ profileFormat profiles .first = _ :=
      advance_ok rfl hmade
    rw [run, List.foldl_cons, hone, List.foldl_nil]
  have hname : Path.IsName "learning_result.json" := by decide
  have hbefore : elsewhere.readText ((⟨⟨"x/../real"⟩⟩ : Store).pathOf profileFormat)
      = .error .missing := by
    have hends : elsewhere.Ends (Disk.trunk ⟨"x/../real"⟩) Disk.linkLimit [] "x"
        [.up, .entry "real"] := ⟨.refl, trivial⟩
    have hfollow := hends.follow true [.entry "learning_result.json"] (Or.inl rfl)
    change elsewhere.readText (Path.join ⟨"x/../real"⟩ ⟨"learning_result.json"⟩) = .error .missing
    rw [Disk.readText, Disk.read, Disk.target, Disk.way_join (by decide) hname, Disk.targetOf,
      if_neg (by simp), hfollow]
    rfl
  have hfile : made.get? ([.text "real"] ++ [.text "learning_result.json"])
      = some (.file (Text.encode "") .all) := by
    rw [Disk.get?_set (by simp), if_neg (by simp)]
    rfl
  have hafter : made.readText ((⟨⟨"x/../real"⟩⟩ : Store).pathOf profileFormat) = .ok "".toList :=
    Disk.readText_file hleads hname hfile rfl
  have hwell : made.WellFormed :=
    Disk.wellFormed_of_entries rfl
      (by simp [made, elsewhere, Disk.set, Disk.get?, List.lookup_cons])
  refine strays_of_readText (exists_save hwell hmade hleads rfl .none (by decide)) hrun hbefore
    ?_ ?_
  · rw [hafter]
    simp
  · intro side
    rw [hafter]
    intro heq
    exact encode_ne_nil _ (Except.ok.inj heq).symm

/-- What else can come of two calls: one of them can fail, and with a link in the stead of the
result or the draft, or a path that goes up from a directory that is missing, something else may be
loaded between the steps. -/
theorem saves_interfere :
    (Ready stateStore profileFormat profiles emptyState ∧
      ∃ side, ((start emptyState).run stateStore profileFormat profiles
        [.first, .first, .second, .second, .second, .first]).fault? side = some .missing) ∧
    Strays stateStore linkedResult [.first, .first] ∧
    Strays stateStore linkedDraft [.first, .first, .first] ∧
    Strays ⟨⟨"x/../real"⟩⟩ elsewhere [.first] :=
  ⟨⟨ready_emptyState, ready_emptyState.exists_fault⟩, strays_linkedResult, strays_linkedDraft,
    strays_elsewhere⟩

end Race

end HouseStyle
