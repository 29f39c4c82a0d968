import HouseStyle.Proofs.Snapshot.Save
import Mathlib.Logic.Function.Basic

/-!
# Two calls that save at once

Two calls that save a result of one kind in one store take their steps in any order (`Race.run`).
Both write the same draft.  As long as a call moves the draft over the result before the other one
writes it again, nothing is lost.  If both have written before either has moved, the first one to
move takes the only draft away, whose text is that of the last one to write, and the other call
finds nothing to move (`Race.Met`).  The calls go through the same few stages in every order
(`Race.Stage`, `Race.exists_stage_run`).
-/

namespace HouseStyle

/-- One of two calls. -/
inductive Side where
  /-- The one. -/
  | first
  /-- The other. -/
  | second
deriving DecidableEq, Repr

namespace Side

/-- The other call. -/
def other : Side → Side
  | first => second
  | second => first

@[simp] lemma other_other (side : Side) : side.other.other = side := by cases side <;> rfl

@[simp] lemma other_ne (side : Side) : side.other ≠ side := by cases side <;> decide

@[simp] lemma ne_other (side : Side) : side ≠ side.other := side.other_ne.symm

lemma eq_or_eq_other (side turn : Side) : turn = side ∨ turn = side.other := by
  cases side <;> cases turn <;> decide

lemma forall_iff {P : Side → Prop} (side : Side) : (∀ turn, P turn) ↔ P side ∧ P side.other := by
  refine ⟨fun h => ⟨h _, h _⟩, fun h turn => ?_⟩
  rcases side.eq_or_eq_other turn with rfl | rfl
  · exact h.1
  · exact h.2

end Side

/-- Two calls that save a result each, on their way. -/
structure Race where
  /-- The disk. -/
  disk : Disk
  /-- The steps that a call has still to take. -/
  left : Side → List SaveStep
  /-- Why a call has failed, if it has. -/
  fault? : Side → Option DiskFault

namespace Race

variable {α β : Type} [NumberText α]

/-- Two calls that have not taken any step. -/
def start (d : Disk) : Race := ⟨d, fun _ => Store.steps, fun _ => none⟩

/-- A call takes its next step, if it has one left.  A step that the disk refuses is its last. -/
def advance (s : Store) (format : SavedFormat α β) (values : Side → β) (r : Race) (side : Side) :
    Race :=
  match r.left side with
  | [] => r
  | step :: more =>
    match s.step format (values side) r.disk step with
    | (.ok _, e) => { r with disk := e, left := Function.update r.left side more }
    | (.error fault, e) =>
      ⟨e, Function.update r.left side [], Function.update r.fault? side (some fault)⟩

/-- The calls take steps, one after another, in the order of a schedule. -/
def run (s : Store) (format : SavedFormat α β) (values : Side → β) (r : Race)
    (schedule : List Side) : Race :=
  schedule.foldl (advance s format values) r

/-- Whether both calls have written the draft and neither has moved it. -/
def Met (r : Race) : Prop := ∀ side, r.left side = [.publish]

variable {s : Store} {format : SavedFormat α β} {values : Side → β} {r : Race} {side : Side}

/-! ### One step -/

lemma advance_nil (h : r.left side = []) : r.advance s format values side = r := by
  rw [advance, h]

lemma advance_ok {step : SaveStep} {more : List SaveStep} {e : Disk}
    (h : r.left side = step :: more)
    (hstep : s.step format (values side) r.disk step = (.ok (), e)) :
    r.advance s format values side
      = { r with disk := e, left := Function.update r.left side more } := by
  rw [advance, h]
  simp only [hstep]

lemma advance_error {step : SaveStep} {more : List SaveStep} {fault : DiskFault} {e : Disk}
    (h : r.left side = step :: more)
    (hstep : s.step format (values side) r.disk step = (.error fault, e)) :
    r.advance s format values side
      = ⟨e, Function.update r.left side [], Function.update r.fault? side (some fault)⟩ := by
  rw [advance, h]
  simp only [hstep]

lemma run_concat (schedule : List Side) (side : Side) :
    r.run s format values (schedule ++ [side])
      = (r.run s format values schedule).advance s format values side := by
  rw [run, List.foldl_append]
  rfl

lemma left_advance_of_ne {turn : Side} (h : side ≠ turn) :
    (r.advance s format values turn).left side = r.left side := by
  rw [advance]
  split
  · rfl
  · split
    · exact Function.update_of_ne h _ _
    · exact Function.update_of_ne h _ _

lemma fault?_of_advance {turn : Side} (h : (r.advance s format values turn).fault? side = none) :
    r.fault? side = none := by
  rw [advance] at h
  split at h
  · exact h
  · split at h
    · exact h
    · by_cases heq : side = turn
      · rw [heq] at h
        cases (Function.update_self turn _ r.fault?).symm.trans h
      · exact (Function.update_of_ne heq _ r.fault?).symm.trans h

/-- A call that does not fail has a step less to take after its turn. -/
lemma left_advance_self (h : (r.advance s format values side).fault? side = none) :
    (r.advance s format values side).left side = (r.left side).tail := by
  rw [advance] at h ⊢
  split at h
  next hleft => rw [hleft, List.tail_nil]
  next step more hleft =>
    rw [hleft, List.tail_cons]
    split at h
    · exact Function.update_self side more r.left
    · cases (Function.update_self side _ r.fault?).symm.trans h

/-- With each turn a call that does not fail has a step less to take. -/
lemma left_run (schedule : List Side)
    (h : (r.run s format values schedule).fault? side = none) :
    (r.run s format values schedule).left side = (r.left side).drop (schedule.count side) := by
  induction schedule using List.reverseRecOn with
  | nil => rfl
  | append_singleton schedule turn ih =>
    rw [run_concat] at h ⊢
    have hbefore := ih (fault?_of_advance h)
    rw [List.count_append, List.count_singleton]
    by_cases heq : turn = side
    · subst heq
      rw [left_advance_self h, hbefore, List.tail_drop, beq_self_eq_true, if_pos rfl]
    · rw [left_advance_of_ne (Ne.symm heq), hbefore, if_neg (by simpa using heq), Nat.add_zero]

/-! ### A call alone -/

lemma run_of_nil (h : r.left side = []) (n : Nat) :
    r.run s format values (List.replicate n side) = r := by
  induction n with
  | zero => rfl
  | succ n ih => rw [List.replicate_succ, run, List.foldl_cons, advance_nil h, ← run, ih]

/-- A call alone takes its steps up to the first one that the disk refuses. -/
lemma run_alone (s : Store) (format : SavedFormat α β) (values : Side → β)
    {steps : List SaveStep} (h : r.left side = steps) :
    let e := r.run s format values (List.replicate steps.length side)
    let change := s.takeSteps format (values side) r.disk steps
    e.disk = change.2 ∧ e.left side = [] ∧
      e.fault? side = (match change.1 with
        | .ok _ => r.fault? side
        | .error fault => some fault) := by
  induction steps generalizing r with
  | nil => exact ⟨rfl, h, rfl⟩
  | cons step more ih =>
    intro e change
    have he : e = (r.advance s format values side).run s format values
        (List.replicate more.length side) := rfl
    cases hstep : s.step format (values side) r.disk step with
    | mk result next =>
      cases result with
      | ok u =>
        have hadvance := advance_ok h hstep
        have hleft : (r.advance s format values side).left side = more := by
          rw [hadvance]
          exact Function.update_self side more r.left
        have hrest := ih hleft
        have hchange : change = s.takeSteps format (values side) next more := by
          change s.takeSteps format (values side) r.disk (step :: more) = _
          rw [Store.takeSteps, hstep]
        rw [hchange, he]
        rw [hadvance] at hrest ⊢
        exact hrest
      | error fault =>
        have hadvance := advance_error h hstep
        have hleft : (r.advance s format values side).left side = [] := by
          rw [hadvance]
          exact Function.update_self side [] r.left
        have hchange : change = (.error fault, next) := by
          change s.takeSteps format (values side) r.disk (step :: more) = _
          rw [Store.takeSteps, hstep]
        rw [hchange, he, run_of_nil hleft, hadvance]
        exact ⟨rfl, Function.update_self side [] r.left,
          Function.update_self side (some fault) r.fault?⟩

/-- Saving is a call that is alone. -/
theorem save_eq_run (s : Store) (format : SavedFormat α β) (values : Side → β) (side : Side)
    (d : Disk) :
    let e := (start d).run s format values [side, side, side]
    s.save format (values side) d = ((match e.fault? side with
      | none => Except.ok (s.pathOf format)
      | some fault => Except.error (ProjectFault.disk fault)), e.disk) := by
  intro e
  have hleft : (start d).left side = Store.steps := rfl
  obtain ⟨hdisk, -, hfault⟩ := run_alone s format values hleft
  change e.disk = _ at hdisk
  change e.fault? side = _ at hfault
  rw [Store.save, hdisk, hfault]
  change _ = ((match (match (s.takeSteps format (values side) d Store.steps).1 with
    | .ok _ => none
    | .error fault => some fault) with
    | none => Except.ok (s.pathOf format)
    | some fault => Except.error (ProjectFault.disk fault)),
    (s.takeSteps format (values side) d Store.steps).2)
  rcases s.takeSteps format (values side) d Store.steps with ⟨_ | _, _⟩
  · rfl
  · rfl

/-! ### The disk between two steps -/

end Race

namespace Disk

variable {d : Disk} {p : Path} {place : DiskPlace} {name : String} {bytes : List UInt8}

/-- Whether a disk allows that some bytes are written to a place. -/
def Fits (d : Disk) (place : DiskPlace) (bytes : List UInt8) : Prop :=
  d.limits.refusal? (.write place) = none ∧
    ∀ n, d.limits.room? place = some n → bytes.length ≤ n

lemma unlessRefused_of_none {act : DiskAct} (h : d.limits.refusal? act = none)
    (change : DiskChange) : d.unlessRefused act change = change := by
  rw [unlessRefused, h]

lemma refusal?_of_ok {act : DiskAct} {change : DiskChange} {e : Disk}
    (h : d.unlessRefused act change = (.ok (), e)) : d.limits.refusal? act = none := by
  rw [unlessRefused] at h
  split at h
  · cases h
  · assumption

lemma put_of_fits (h : d.Fits place bytes) (rights : FileRights) :
    d.unlessRefused (.write place) (d.fill place bytes rights)
      = (.ok (), d.set place (.file bytes rights)) := by
  rw [unlessRefused_of_none h.1, fill]
  cases hroom : d.limits.room? place with
  | none => rfl
  | some n => simp [h.2 n hroom, List.take_of_length_le]

lemma fits_of_put {rights : FileRights} {e : Disk}
    (h : d.unlessRefused (.write place) (d.fill place bytes rights) = (.ok (), e)) :
    d.Fits place bytes := by
  have hallowed := refusal?_of_ok h
  refine ⟨hallowed, fun n hn => ?_⟩
  rw [unlessRefused_of_none hallowed, fill, hn] at h
  by_contra hlong
  simp [hlong] at h

/-- A file of a directory that was written has all its bytes. -/
lemma fits_of_write {e : Disk} (hleads : d.Leads p place) (hname : Path.IsName name)
    (hlink : ∀ target, d.get? (place ++ [.text name]) ≠ some (.link target))
    (h : d.write (p.join ⟨name⟩) bytes = (.ok (), e)) : d.Fits (place ++ [.text name]) bytes := by
  rw [write, Path.endsWith_join p hname, if_neg Bool.false_ne_true,
    hleads.target_join hname hlink] at h
  cases hentry : d.get? (place ++ [.text name]) with
  | none =>
    rw [hentry] at h
    exact fits_of_put h
  | some entry =>
    rw [hentry] at h
    cases entry with
    | directory => cases h
    | link target => exact absurd hentry (hlink target)
    | file old rights =>
      simp only at h
      split at h
      · exact fits_of_put h
      · cases h

lemma write_join_of_fits (h : d.Leads p place) (hname : Path.IsName name)
    (hopen : Writable (d.get? (place ++ [.text name])))
    (hfits : d.Fits (place ++ [.text name]) bytes) :
    d.write (p.join ⟨name⟩) bytes = (.ok (), d.set (place ++ [.text name])
      (.file bytes (rightsAt (d.get? (place ++ [.text name]))))) := by
  have hlink : ∀ target, d.get? (place ++ [.text name]) ≠ some (.link target) := by
    intro target hlink
    rw [hlink] at hopen
    cases hopen
  rw [write, Path.endsWith_join p hname, if_neg Bool.false_ne_true, h.target_join hname hlink]
  generalize d.get? (place ++ [.text name]) = thing at hopen
  cases hopen with
  | none => exact put_of_fits hfits _
  | file old hwrite => exact (if_pos hwrite).trans (put_of_fits hfits _)

end Disk

namespace Race

variable {α β : Type} [NumberText α] {s : Store} {format : SavedFormat α β} {values : Side → β}

/-- The file in which a result is saved. -/
def savedFile (format : SavedFormat α β) (value : β) : DiskEntry :=
  .file (Text.encode (format.encode value)) .all

/-- What has become of the draft. -/
inductive Draft where
  /-- No call has written it. -/
  | found
  /-- A call has written it. -/
  | written (side : Side)
  /-- A call has moved it over the result. -/
  | gone

/-- What is at the draft, if there was something before the calls. -/
def Draft.thing? (format : SavedFormat α β) (values : Side → β) (found : Option DiskEntry) :
    Draft → Option DiskEntry
  | .found => found
  | .written side => some (savedFile format (values side))
  | .gone => none

/-- What is at the result, if a call has moved the text of a call there. -/
def result? (format : SavedFormat α β) (values : Side → β) (found : Option DiskEntry) :
    Option Side → Option DiskEntry
  | none => found
  | some side => some (savedFile format (values side))

/-- A disk with the directory of a store at a place where calls can save their results. -/
structure Ground (s : Store) (format : SavedFormat α β) (values : Side → β) (made : Disk)
    (place : DiskPlace) : Prop where
  wellFormed : made.WellFormed
  leads : made.Leads s.dir place
  isName : Path.IsName format.fileName
  noLink : s.NoLink made format.fileName
  draft : Disk.Writable (made.get? (place ++ [.text (format.fileName ++ ".tmp")]))
  readable : (Store.draftRights format made place).readable = true
  result : made.get? (place ++ [.text format.fileName]) ≠ some .directory
  fits : ∀ side, made.Fits (place ++ [.text (format.fileName ++ ".tmp")])
    (Text.encode (format.encode (values side)))
  moves : made.limits.refusal? (.rename (place ++ [.text (format.fileName ++ ".tmp")])
    (place ++ [.text format.fileName])) = none

/-- A disk on which nothing but the result and the draft may have changed. -/
structure Holds (format : SavedFormat α β) (values : Side → β) (made : Disk) (place : DiskPlace)
    (published : Option Side) (draft : Draft) (e : Disk) : Prop where
  home : e.home = made.home
  limits : e.limits = made.limits
  get? : ∀ q, e.get? q =
    if q = place ++ [.text format.fileName] then result? format values (made.get? q) published
    else if q = place ++ [.text (format.fileName ++ ".tmp")] then
      draft.thing? format values (made.get? q)
    else made.get? q

section Disk

variable {made e : Disk} {place : DiskPlace} {published : Option Side} {draft : Draft}
  {side : Side}

lemma Holds.found (format : SavedFormat α β) (values : Side → β) (made : Disk)
    (place : DiskPlace) : Holds format values made place none .found made := by
  refine ⟨rfl, rfl, fun q => ?_⟩
  split_ifs <;> rfl

lemma Holds.get?_result (h : Holds format values made place published draft e) :
    e.get? (place ++ [.text format.fileName])
      = result? format values (made.get? (place ++ [.text format.fileName])) published := by
  rw [h.get?, if_pos rfl]

lemma Holds.get?_draft (h : Holds format values made place published draft e) :
    e.get? (place ++ [.text (format.fileName ++ ".tmp")])
      = draft.thing? format values (made.get? (place ++ [.text (format.fileName ++ ".tmp")])) := by
  rw [h.get?, if_neg (by simp), if_pos rfl]

lemma Ground.not_passable (hg : Ground s format values made place) {entry : DiskEntry}
    (h : made.get? (place ++ [.text format.fileName]) = some entry) : ¬ Disk.Passable entry := by
  rintro (rfl | ⟨target, rfl⟩)
  · exact hg.result h
  · exact hg.noLink place hg.leads target h

lemma Holds.keeps (h : Holds format values made place published draft e)
    (hg : Ground s format values made place) : made.Keeps e := by
  refine ⟨h.home, fun {q entry} hq hpass => ?_⟩
  rw [h.get?]
  split_ifs with hresult hdraft
  · subst hresult
    exact absurd hpass (hg.not_passable hq)
  · subst hdraft
    have hopen := hg.draft
    rw [hq] at hopen
    exact absurd hpass hopen.not_passable
  · exact hq

lemma Holds.leads (h : Holds format values made place published draft e)
    (hg : Ground s format values made place) : e.Leads s.dir place :=
  hg.leads.mono (h.keeps hg)

/-- The directory of the store is not made again. -/
lemma Holds.makeDirectory (h : Holds format values made place published draft e)
    (hg : Ground s format values made place) (value : β) :
    s.step format value e .makeDirectory = (.ok (), e) :=
  Disk.makeDirectories_of_leads (h.leads hg)

/-- The draft can be written over what is there. -/
lemma Holds.writeDraft (h : Holds format values made place published draft e)
    (hg : Ground s format values made place) (side : Side) :
    ∃ f, s.step format (values side) e .writeDraft = (.ok (), f) ∧
      Holds format values made place published (.written side) f := by
  obtain ⟨hopen, hread⟩ :
      Disk.Writable (e.get? (place ++ [.text (format.fileName ++ ".tmp")])) ∧
        (Disk.rightsAt (e.get? (place ++ [.text (format.fileName ++ ".tmp")]))).readable
          = true := by
    rw [h.get?_draft]
    cases draft with
    | found => exact ⟨hg.draft, hg.readable⟩
    | written side => exact ⟨.file _ rfl, rfl⟩
    | gone => exact ⟨.none, rfl⟩
  have hfits : e.Fits (place ++ [.text (format.fileName ++ ".tmp")])
      (Text.encode (format.encode (values side))) := by
    rw [Disk.Fits, h.limits]
    exact hg.fits side
  have hwrite := Disk.write_join_of_fits (h.leads hg) hg.isName.draft hopen hfits
  rw [hopen.rightsAt_eq hread] at hwrite
  refine ⟨_, hwrite, h.home, h.limits, fun q => ?_⟩
  rw [Disk.get?_set (by simp), h.get?]
  split_ifs with hdraft hresult
  · exact absurd (hdraft.symm.trans hresult) (by simp)
  · rfl
  · rfl
  · rfl

/-- What is at the result is not in the way of a draft. -/
lemma Holds.result_ne_directory (h : Holds format values made place published draft e)
    (hg : Ground s format values made place) :
    e.get? (place ++ [.text format.fileName]) ≠ some .directory := by
  rw [h.get?_result]
  cases published with
  | none => exact hg.result
  | some side => simp [result?, savedFile]

/-- A draft that a call has written is moved over the result. -/
lemma Holds.publish (h : Holds format values made place published (.written side) e)
    (hg : Ground s format values made place) (value : β) :
    ∃ f, s.step format value e .publish = (.ok (), f) ∧
      Holds format values made place (some side) .gone f := by
  have hdraft : e.get? (place ++ [.text (format.fileName ++ ".tmp")])
      = some (savedFile format (values side)) := h.get?_draft
  have hrename := Disk.rename_join (h.leads hg) hg.isName.draft hg.isName hdraft nofun
    (h.result_ne_directory hg)
  rw [Disk.unlessRefused_of_none (by rw [h.limits]; exact hg.moves)] at hrename
  refine ⟨_, hrename, h.home, h.limits, fun q => ?_⟩
  rw [Disk.get?_set (by simp), Disk.get?_erase (by simp)]
  split_ifs with hresult hbelow heq heq
  · rfl
  · rfl
  · -- nothing lies below the draft
    obtain ⟨names, rfl⟩ := hbelow
    exact (hg.wellFormed.get?_append hg.draft.ne_directory (by simpa using heq)).symm
  · exact absurd (heq ▸ List.prefix_rfl) hbelow
  · rw [h.get?, if_neg hresult, if_neg heq]

/-- There is nothing to move when the draft is gone. -/
lemma Holds.publish_gone (h : Holds format values made place published .gone e)
    (hg : Ground s format values made place) (value : β) :
    s.step format value e .publish = (.error .missing, e) := by
  have hdraft : e.get? (place ++ [.text (format.fileName ++ ".tmp")]) = none := h.get?_draft
  change e.rename (s.draftOf format) (s.pathOf format) = _
  rw [Disk.rename, Store.draftOf, Store.pathOf, (h.leads hg).targetItself_join hg.isName.draft,
    (h.leads hg).targetItself_join hg.isName, hdraft]

end Disk

/-! ### The stages of two calls -/

/-- Whether a call with some steps left has not written the draft. -/
def Unwritten (steps : List SaveStep) : Prop :=
  steps = Store.steps ∨ steps = [.writeDraft, .publish]

/-- The stages through which two calls go, from a disk and by way of one with the directory of the
store.  The flag tells whether both have written the draft before either has moved it. -/
inductive Stage (format : SavedFormat α β) (values : Side → β) (d made : Disk) (place : DiskPlace)
    (r : Race) : Bool → Prop
  /-- No call has taken a step. -/
  | fresh (hdisk : r.disk = d) (hleft : ∀ side, r.left side = Store.steps)
    (hfault : ∀ side, r.fault? side = none) : Stage format values d made place r false
  /-- No call has written the draft. -/
  | waiting (hdisk : Holds format values made place none .found r.disk)
    (hleft : ∀ side, Unwritten (r.left side)) (hfault : ∀ side, r.fault? side = none) :
    Stage format values d made place r false
  /-- One call has written the draft. -/
  | drafted (side : Side) (hdisk : Holds format values made place none (.written side) r.disk)
    (hleft : r.left side = [.publish]) (hother : Unwritten (r.left side.other))
    (hfault : ∀ side, r.fault? side = none) : Stage format values d made place r false
  /-- Both calls have written the draft, one of them last. -/
  | met (side : Side) (hdisk : Holds format values made place none (.written side) r.disk)
    (hleft : r.Met) (hfault : ∀ side, r.fault? side = none) :
    Stage format values d made place r true
  /-- One call is done, and the other one has not written the draft. -/
  | published (side text : Side) (hdisk : Holds format values made place (some text) .gone r.disk)
    (hleft : r.left side = []) (hother : Unwritten (r.left side.other))
    (hfault : ∀ side, r.fault? side = none) : Stage format values d made place r false
  /-- One call is done, and the other one has written the draft since. -/
  | following (side text : Side)
    (hdisk : Holds format values made place (some text) (.written side.other) r.disk)
    (hleft : r.left side = []) (hother : r.left side.other = [.publish])
    (hfault : ∀ side, r.fault? side = none) : Stage format values d made place r false
  /-- One call is done, and has moved what the other one is about to move. -/
  | beaten (side text : Side) (hdisk : Holds format values made place (some text) .gone r.disk)
    (hleft : r.left side = []) (hother : r.left side.other = [.publish])
    (hfault : ∀ side, r.fault? side = none) : Stage format values d made place r true
  /-- Both calls have succeeded. -/
  | won (text : Side) (hdisk : Holds format values made place (some text) .gone r.disk)
    (hleft : ∀ side, r.left side = []) (hfault : ∀ side, r.fault? side = none) :
    Stage format values d made place r false
  /-- One call has succeeded, and the other one has found nothing to move. -/
  | lost (side text : Side) (hdisk : Holds format values made place (some text) .gone r.disk)
    (hleft : ∀ side, r.left side = []) (hfault : r.fault? side = none)
    (hother : r.fault? side.other = some .missing) : Stage format values d made place r true

section Stages

variable {d made : Disk} {place : DiskPlace} {r : Race} {flag : Bool} {side turn : Side}

omit [NumberText α] in
lemma Unwritten.ne_publish {steps : List SaveStep} (h : Unwritten steps) :
    steps ≠ [.publish] := by
  rcases h with rfl | rfl
  · decide
  · decide

omit [NumberText α] in
lemma Unwritten.ne_nil {steps : List SaveStep} (h : Unwritten steps) : steps ≠ [] := by
  rcases h with rfl | rfl
  · decide
  · decide

lemma Stage.eq_true_of_met (h : Stage format values d made place r flag) (hmet : r.Met) :
    flag = true := by
  cases h with
  | fresh hdisk hleft => exact absurd (hmet .first) (by rw [hleft]; decide)
  | waiting hdisk hleft => exact absurd (hmet .first) (hleft _).ne_publish
  | drafted side hdisk hleft hother => exact absurd (hmet _) hother.ne_publish
  | met => rfl
  | published side text hdisk hleft => exact absurd (hmet side) (by rw [hleft]; decide)
  | following side text hdisk hleft => exact absurd (hmet side) (by rw [hleft]; decide)
  | beaten => rfl
  | won text hdisk hleft => exact absurd (hmet .first) (by rw [hleft]; decide)
  | lost => rfl

/-- A step of a call that has not written the draft leads on, when the directory is there. -/
lemma advance_unwritten {published : Option Side} {draft : Draft}
    (hg : Ground s format values made place)
    (hdisk : Holds format values made place published draft r.disk)
    (hleft : Unwritten (r.left turn)) :
    (r.advance s format values turn
        = { r with left := Function.update r.left turn [.writeDraft, .publish] }) ∨
      ∃ f, r.advance s format values turn
          = { r with disk := f, left := Function.update r.left turn [.publish] } ∧
        Holds format values made place published (.written turn) f := by
  rcases hleft with hleft | hleft
  · exact Or.inl (advance_ok hleft (hdisk.makeDirectory hg _))
  · obtain ⟨f, hstep, hf⟩ := hdisk.writeDraft hg turn
    exact Or.inr ⟨f, advance_ok hleft hstep, hf⟩

/-- With each step the calls stay in their stage or go on to a next one. -/
lemma Stage.advance (hg : Ground s format values made place)
    (hmade : d.makeDirectories s.dir = (.ok (), made))
    (h : Stage format values d made place r flag) (turn : Side) :
    ∃ next, Stage format values d made place (r.advance s format values turn) next ∧
      (flag = true → next = true) ∧
      (next = true → flag = true ∨ (r.advance s format values turn).Met) := by
  cases h with
  | fresh hdisk hleft hfault =>
    have hstep : s.step format (values turn) r.disk .makeDirectory = (.ok (), made) := by
      rw [hdisk]
      exact hmade
    rw [advance_ok (hleft turn) hstep]
    refine ⟨false, .waiting (.found format values made place) ?_ hfault, id, nofun⟩
    rw [turn.forall_iff]
    refine ⟨Or.inr (Function.update_self _ _ _), Or.inl ?_⟩
    exact (Function.update_of_ne turn.other_ne _ _).trans (hleft _)
  | waiting hdisk hleft hfault =>
    rcases advance_unwritten hg hdisk (hleft turn) with heq | ⟨f, heq, hf⟩
    · rw [heq]
      refine ⟨false, .waiting hdisk ?_ hfault, id, nofun⟩
      rw [turn.forall_iff]
      refine ⟨Or.inr (Function.update_self _ _ _), ?_⟩
      simpa [Function.update_of_ne] using hleft turn.other
    · rw [heq]
      refine ⟨false, .drafted turn hf (Function.update_self _ _ _) ?_ hfault, id, nofun⟩
      simpa [Function.update_of_ne] using hleft turn.other
  | drafted side hdisk hleft hother hfault =>
    rcases side.eq_or_eq_other turn with rfl | rfl
    · obtain ⟨f, hstep, hf⟩ := hdisk.publish hg (values turn)
      rw [advance_ok hleft hstep]
      refine ⟨false, .published turn turn hf (Function.update_self _ _ _) ?_ hfault, id, nofun⟩
      simpa [Function.update_of_ne] using hother
    · rcases advance_unwritten hg hdisk hother with heq | ⟨f, heq, hf⟩
      · rw [heq]
        refine ⟨false, .drafted side hdisk ?_ (Or.inr (Function.update_self _ _ _)) hfault, id,
          nofun⟩
        simpa [Function.update_of_ne] using hleft
      · rw [heq]
        have hmet : Met { r with
            disk := f, left := Function.update r.left side.other [.publish] } := by
          refine (side.forall_iff (P := fun turn =>
            Function.update r.left side.other [.publish] turn = [.publish])).2 ⟨?_, ?_⟩
          · simpa [Function.update_of_ne] using hleft
          · exact Function.update_self _ _ _
        exact ⟨true, .met side.other hf hmet hfault, nofun, fun _ => Or.inr hmet⟩
  | met side hdisk hleft hfault =>
    obtain ⟨f, hstep, hf⟩ := hdisk.publish hg (values turn)
    rw [advance_ok (hleft turn) hstep]
    refine ⟨true, .beaten turn side hf (Function.update_self _ _ _) ?_ hfault, id,
      fun _ => Or.inl rfl⟩
    simpa [Function.update_of_ne] using hleft turn.other
  | published side text hdisk hleft hother hfault =>
    rcases side.eq_or_eq_other turn with rfl | rfl
    · rw [advance_nil hleft]
      exact ⟨false, .published turn text hdisk hleft hother hfault, id, nofun⟩
    · rcases advance_unwritten hg hdisk hother with heq | ⟨f, heq, hf⟩
      · rw [heq]
        refine ⟨false, .published side text hdisk ?_ (Or.inr (Function.update_self _ _ _)) hfault,
          id, nofun⟩
        simpa [Function.update_of_ne] using hleft
      · rw [heq]
        refine ⟨false, .following side text hf ?_ (Function.update_self _ _ _) hfault, id, nofun⟩
        simpa [Function.update_of_ne] using hleft
  | following side text hdisk hleft hother hfault =>
    rcases side.eq_or_eq_other turn with rfl | rfl
    · rw [advance_nil hleft]
      exact ⟨false, .following turn text hdisk hleft hother hfault, id, nofun⟩
    · obtain ⟨f, hstep, hf⟩ := hdisk.publish hg (values side.other)
      rw [advance_ok hother hstep]
      refine ⟨false, .won side.other hf ?_ hfault, id, nofun⟩
      rw [side.forall_iff]
      refine ⟨?_, Function.update_self _ _ _⟩
      simpa [Function.update_of_ne] using hleft
  | beaten side text hdisk hleft hother hfault =>
    rcases side.eq_or_eq_other turn with rfl | rfl
    · rw [advance_nil hleft]
      exact ⟨true, .beaten turn text hdisk hleft hother hfault, id, fun _ => Or.inl rfl⟩
    · rw [advance_error hother (hdisk.publish_gone hg (values side.other))]
      refine ⟨true, .lost side text hdisk ?_ ?_ (Function.update_self _ _ _), id,
        fun _ => Or.inl rfl⟩
      · rw [side.forall_iff]
        refine ⟨?_, Function.update_self _ _ _⟩
        simpa [Function.update_of_ne] using hleft
      · simpa [Function.update_of_ne] using hfault side
  | won text hdisk hleft hfault =>
    rw [advance_nil (hleft turn)]
    exact ⟨false, .won text hdisk hleft hfault, id, nofun⟩
  | lost side text hdisk hleft hfault hother =>
    rw [advance_nil (hleft turn)]
    exact ⟨true, .lost side text hdisk hleft hfault hother, id, fun _ => Or.inl rfl⟩

/-- In every order of their steps the calls go through the stages, and they have met if they have
met at some time on their way. -/
lemma exists_stage_run (hg : Ground s format values made place)
    (hmade : d.makeDirectories s.dir = (.ok (), made)) (schedule : List Side) :
    ∃ flag, Stage format values d made place ((start d).run s format values schedule) flag ∧
      (flag = true ↔ ∃ front, front <+: schedule ∧ ((start d).run s format values front).Met) := by
  induction schedule using List.reverseRecOn with
  | nil =>
    refine ⟨false, .fresh rfl (fun _ => rfl) (fun _ => rfl), nofun, ?_⟩
    rintro ⟨front, hfront, hmet⟩
    rw [List.prefix_nil.1 hfront] at hmet
    exact absurd (hmet .first) (show Store.steps ≠ [.publish] by decide)
  | append_singleton schedule turn ih =>
    obtain ⟨flag, hstage, hflag⟩ := ih
    obtain ⟨next, hnext, hkeep, hmet⟩ := hstage.advance hg hmade turn
    rw [← run_concat] at hnext hmet
    refine ⟨next, hnext, fun h => ?_, ?_⟩
    · rcases hmet h with h | h
      · obtain ⟨front, hfront, hmet⟩ := hflag.1 h
        exact ⟨front, hfront.trans (List.prefix_append _ _), hmet⟩
      · exact ⟨_, List.prefix_rfl, h⟩
    · rintro ⟨front, hfront, h⟩
      rcases List.prefix_concat_iff.1 hfront with rfl | hfront
      · exact hnext.eq_true_of_met h
      · exact hkeep (hflag.2 ⟨front, hfront, h⟩)

end Stages

end Race

end HouseStyle
