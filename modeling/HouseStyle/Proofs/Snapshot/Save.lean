import HouseStyle.Proofs.Project.NewDirectories
import HouseStyle.Proofs.Text.Utf8
import HouseStyle.Snapshot.Store

/-!
# What saving leaves behind

Saving makes the directory of the store, writes a draft there and moves it over the result.  If it
fails, at most the draft is different (`Drafted`); if it succeeds, the draft is gone and the result
is the new one (`Published`).  Nothing else of the disk is touched, apart from directories that
were missing.

All of this is said of stores without links in the stead of results and drafts.  A draft that is a
link to its result is moved over the result, which is lost then (`save_of_linked_draft`).
-/

namespace HouseStyle

lemma Path.IsName.draft {name : String} (h : IsName name) : IsName (name ++ ".tmp") := by
  have hlong : 4 < (name ++ ".tmp").toList.length := by
    rw [String.toList_append, List.length_append]
    exact Nat.lt_add_of_pos_left (List.length_pos_iff.2 h.1)
  refine ⟨List.ne_nil_of_length_pos (by omega), ?_, ?_, ?_⟩
  · rw [String.toList_append, List.mem_append]
    exact fun hmem => hmem.elim h.2.1 (by decide)
  · intro heq
    rw [heq] at hlong
    simp at hlong
  · intro heq
    rw [heq] at hlong
    simp at hlong

lemma Path.draft_ne (name : String) : name ++ ".tmp" ≠ name := by
  intro heq
  have hlength := congrArg String.length heq
  simp at hlength

/-- The path of a name below another path does not end with a slash. -/
lemma Path.endsWith_join (p : Path) {name : String} (hname : IsName name) :
    Text.endsWith (p.join ⟨name⟩).text.toList "/" = false := by
  have htext : ∃ front, (p.join ⟨name⟩).text.toList = front ++ name.toList := by
    rw [join]
    split_ifs
    · exact ⟨[], rfl⟩
    · exact ⟨_, String.toList_append⟩
    · exact ⟨_, String.toList_append⟩
  obtain ⟨front, hfront⟩ := htext
  rw [Bool.eq_false_iff]
  intro hend
  obtain ⟨base, hbase⟩ := List.isSuffixOf_iff_suffix.1 hend
  rw [hfront] at hbase
  rcases List.eq_nil_or_concat name.toList with hnil | ⟨start, last, hlast⟩
  · exact hname.1 hnil
  · rw [hlast, List.concat_eq_append, ← List.append_assoc] at hbase
    obtain ⟨-, heq⟩ := List.append_inj' hbase rfl
    exact hname.2.1 (by rw [hlast, List.concat_eq_append, ← heq]; simp)

namespace Disk

variable {d e : Disk} {p : Path} {place : DiskPlace} {name : String}

/-- Whether a file can be put where something is. -/
inductive Writable : Option DiskEntry → Prop
  | none : Writable none
  | file (bytes : List UInt8) {rights : FileRights} (h : rights.writable = true) :
    Writable (some (.file bytes rights))

/-- The rights of a file that is put where something is. -/
def rightsAt : Option DiskEntry → FileRights
  | some (.file _ rights) => rights
  | _ => .all

/-- A disk without limits refuses nothing. -/
lemma unlessRefused_eq (h : d.limits = .none) (act : DiskAct) (change : DiskChange) :
    d.unlessRefused act change = change := by
  rw [unlessRefused, h]
  rfl

lemma unlessRefused_cases (d : Disk) (act : DiskAct) (change : DiskChange) :
    d.unlessRefused act change = change ∨
      d.limits ≠ .none ∧ ∃ fault, d.unlessRefused act change = (.error fault, d) := by
  by_cases hlimits : d.limits = .none
  · exact Or.inl (unlessRefused_eq hlimits act change)
  · rw [unlessRefused]
    split
    next reason => exact Or.inr ⟨hlimits, _, rfl⟩
    next => exact Or.inl rfl

/-- What becomes of a disk when some bytes are put into a file. -/
lemma put_cases (d : Disk) (q : DiskPlace) (bytes : List UInt8) (rights : FileRights) :
    let change := d.unlessRefused (.write q) (d.fill q bytes rights)
    (d.limits ≠ .none ∧ ∃ fault, change = (.error fault, d)) ∨
      change = (.ok (), d.set q (.file bytes rights)) ∨
      d.limits ≠ .none ∧ ∃ fault part, change = (.error fault, d.set q (.file part rights)) := by
  intro change
  rcases d.unlessRefused_cases (.write q) (d.fill q bytes rights) with heq | hrefused
  · refine Or.inr ?_
    simp only [change, heq, fill]
    cases hroom : d.limits.room? q with
    | none => exact Or.inl rfl
    | some n =>
      by_cases hlength : bytes.length ≤ n
      · exact Or.inl (by simp [hlength, List.take_of_length_le])
      · refine Or.inr ⟨fun hnone => ?_, .tooLarge, bytes.take n, by simp [hlength]⟩
        rw [hnone] at hroom
        cases hroom
  · exact Or.inl hrefused

/-- What becomes of a disk when a file in a directory is written. -/
lemma write_join_cases (h : d.Leads p place) (hname : Path.IsName name)
    (hlink : ∀ target, d.get? (place ++ [.text name]) ≠ some (.link target))
    (bytes : List UInt8) :
    let thing := d.get? (place ++ [.text name])
    ((d.limits = .none → ¬ Writable thing) ∧
      ∃ fault, d.write (p.join ⟨name⟩) bytes = (.error fault, d)) ∨
    Writable thing ∧
      (d.write (p.join ⟨name⟩) bytes
        = (.ok (), d.set (place ++ [.text name]) (.file bytes (rightsAt thing))) ∨
       d.limits ≠ .none ∧ ∃ fault part, d.write (p.join ⟨name⟩) bytes
        = (.error fault, d.set (place ++ [.text name]) (.file part (rightsAt thing)))) := by
  intro thing
  rw [write, Path.endsWith_join p hname, if_neg Bool.false_ne_true, h.target_join hname hlink]
  cases hentry : d.get? (place ++ [.text name]) with
  | none =>
    simp only [thing, hentry]
    rcases d.put_cases (place ++ [.text name]) bytes .all with ⟨hlimits, hrefused⟩ | hput
    · exact Or.inl ⟨fun hnone => absurd hnone hlimits, hrefused⟩
    · exact Or.inr ⟨.none, hput⟩
  | some entry =>
    simp only [thing, hentry]
    cases entry with
    | directory => exact Or.inl ⟨fun _ => nofun, _, rfl⟩
    | link target => exact absurd hentry (hlink target)
    | file old rights =>
      by_cases hopen : rights.writable = true
      · simp only [hopen, if_true]
        rcases d.put_cases (place ++ [.text name]) bytes rights with ⟨hlimits, hrefused⟩ | hput
        · exact Or.inl ⟨fun hnone => absurd hnone hlimits, hrefused⟩
        · exact Or.inr ⟨.file old hopen, hput⟩
      · refine Or.inl ⟨fun _ hwritable => ?_, .denied, if_neg hopen⟩
        cases hwritable with
        | file _ h => exact hopen h

/-- What becomes of a disk when an entry of a directory is moved over another one. -/
lemma rename_join (h : d.Leads p place) {other : String} (hname : Path.IsName name)
    (hother : Path.IsName other) {entry : DiskEntry}
    (hentry : d.get? (place ++ [.text name]) = some entry) (hne : entry ≠ .directory)
    (htarget : d.get? (place ++ [.text other]) ≠ some .directory) :
    d.rename (p.join ⟨name⟩) (p.join ⟨other⟩)
      = d.unlessRefused (.rename (place ++ [.text name]) (place ++ [.text other]))
        (.ok (), (d.erase (place ++ [.text name])).set (place ++ [.text other]) entry) := by
  rw [rename, h.targetItself_join hname, h.targetItself_join hother, hentry]
  cases hthing : d.get? (place ++ [.text other]) with
  | none =>
    cases entry with
    | directory => exact absurd rfl hne
    | file bytes rights | link way => rfl
  | some thing =>
    cases thing with
    | directory => exact absurd hthing htarget
    | file old others | link way =>
      cases entry with
      | directory => exact absurd rfl hne
      | file bytes rights | link way => rfl

/-- A file that is put at a place and moved to another one. -/
lemma get?_set_erase_set (hd : d.WellFormed) {a b : DiskPlace} (ha : a ≠ []) (hb : b ≠ [])
    (hentry : d.get? a ≠ some .directory) (entry : DiskEntry) (q : DiskPlace) :
    (((d.set a entry).erase a).set b entry).get? q =
      if q = b then some entry else if q = a then none else d.get? q := by
  rw [get?_set hb, get?_erase ha, get?_set ha]
  split_ifs with hqb hpre hqa hqa
  · rfl
  · rfl
  · obtain ⟨names, rfl⟩ := hpre
    exact (hd.get?_append hentry (by simpa using hqa)).symm
  · exact absurd (hqa ▸ List.prefix_rfl) hpre
  · rfl

lemma Writable.ne_directory {thing : Option DiskEntry} (h : Writable thing) :
    thing ≠ some .directory := by
  cases h <;> simp

/-- A file that can be read and written over has all rights. -/
lemma Writable.rightsAt_eq {thing : Option DiskEntry} (h : Writable thing)
    (hread : (rightsAt thing).readable = true) : rightsAt thing = .all := by
  cases h with
  | none => rfl
  | file bytes hwrite => exact congrArg₂ FileRights.mk hread hwrite

lemma file_not_passable {bytes : List UInt8} {rights : FileRights} :
    ¬ Passable (.file bytes rights) := by
  rintro (h | ⟨target, h⟩) <;> cases h

lemma Writable.not_passable {entry : DiskEntry} (h : Writable (some entry)) : ¬ Passable entry := by
  cases h
  exact file_not_passable

/-- What is read at a name in a directory depends on what is there. -/
lemma read_join_congr (h : d.Leads p place) (h' : e.Leads p place) (hname : Path.IsName name)
    (hlink : ∀ target, d.get? (place ++ [.text name]) ≠ some (.link target))
    (heq : e.get? (place ++ [.text name]) = d.get? (place ++ [.text name])) :
    e.read (p.join ⟨name⟩) = d.read (p.join ⟨name⟩) := by
  rw [read, read, h.target_join hname hlink, h'.target_join hname (by rwa [heq]), heq]

lemma readText_congr (h : e.read p = d.read p) : e.readText p = d.readText p := by
  rw [readText, readText, h]

lemma readText_file (h : d.Leads p place) (hname : Path.IsName name) {text : String}
    {rights : FileRights}
    (hfile : d.get? (place ++ [.text name]) = some (.file (Text.encode text) rights))
    (hread : rights.readable = true) :
    d.readText (p.join ⟨name⟩) = .ok text.toList := by
  have hbytes : d.read (p.join ⟨name⟩) = .ok (Text.encode text) := by
    rw [read, h.target_join hname (by rw [hfile]; simp), hfile]
    exact if_pos hread
  rw [readText, hbytes]
  simp only [bind, Except.bind, Text.decode_encode]

lemma readText_none (h : d.Leads p place) (hname : Path.IsName name)
    (hnone : d.get? (place ++ [.text name]) = none) :
    d.readText (p.join ⟨name⟩) = .error .missing := by
  have hread : d.read (p.join ⟨name⟩) = .error .missing := by
    rw [read, h.target_join hname (by rw [hnone]; simp), hnone]
    rfl
  rw [readText, hread]
  rfl

lemma Bare.read (h : d.Bare (trunk p)) (hp : p.text ≠ "") (hname : Path.IsName name) :
    d.read (p.join ⟨name⟩) = .error .missing := by
  rw [Disk.read]
  rcases h.target hp hname with htarget | ⟨q, htarget⟩ <;> rw [htarget] <;> rfl

lemma Unseen.read (h : d.Unseen e (trunk p)) (hp : p.text ≠ "") (hname : Path.IsName name) :
    e.read (p.join ⟨name⟩) = d.read (p.join ⟨name⟩) := by
  rcases h with rfl | ⟨hbefore, hafter⟩
  · rfl
  · rw [hbefore.read hp hname, hafter.read hp hname]

end Disk

namespace Store

variable {α β : Type}

/-- A disk with a draft of a result in a store, or with no change at all. -/
inductive Drafted (s : Store) (format : SavedFormat α β) (d : Disk) : Disk → Prop
  | same : Drafted s format d d
  | draft {place : DiskPlace} (hleads : d.Leads s.dir place)
    (hdraft : Disk.Writable (d.get? (place ++ [.text (format.fileName ++ ".tmp")])))
    (bytes : List UInt8) (rights : FileRights) :
    Drafted s format d
      (d.set (place ++ [.text (format.fileName ++ ".tmp")]) (.file bytes rights))

/-- The rights of the draft of a result in a directory: those of an earlier draft, if one was
left. -/
def draftRights (format : SavedFormat α β) (d : Disk) (place : DiskPlace) : FileRights :=
  Disk.rightsAt (d.get? (place ++ [.text (format.fileName ++ ".tmp")]))

/-- A disk on which a text is the result in a store, at a place, and the draft of it is gone. -/
structure Published (s : Store) (format : SavedFormat α β) (text : String) (d e : Disk)
    (place : DiskPlace) : Prop where
  leads : d.Leads s.dir place
  draft : Disk.Writable (d.get? (place ++ [.text (format.fileName ++ ".tmp")]))
  result : d.get? (place ++ [.text format.fileName]) ≠ some .directory
  home : e.home = d.home
  limits : e.limits = d.limits
  get? : ∀ q, e.get? q =
    if q = place ++ [.text format.fileName] then
      some (.file (Text.encode text) (draftRights format d place))
    else if q = place ++ [.text (format.fileName ++ ".tmp")] then none
    else d.get? q

variable {s : Store} {format : SavedFormat α β} {value : β} {d e : Disk} {place : DiskPlace}

/-- Whether there are no links with some name in the directory of a store. -/
def NoLink (s : Store) (d : Disk) (name : String) : Prop :=
  ∀ place, d.Leads s.dir place → ∀ target, d.get? (place ++ [.text name]) ≠ some (.link target)

/-- Whether a draft of a result that was left in the directory of a store can be read. -/
def ReadableDraft (s : Store) (format : SavedFormat α β) (d : Disk) : Prop :=
  ∀ place, d.Reaches (Disk.trunk s.dir) place → (draftRights format d place).readable = true

/-- Making the directory of a store puts no draft there. -/
lemma ReadableDraft.made (h : s.ReadableDraft format d) (hd : d.WellFormed)
    (hdir : s.dir.text ≠ "") (hsettled : d.Settled s.dir) :
    s.ReadableDraft format (d.makeDirectories s.dir).2 := by
  rcases Disk.makeDirectories_unseen hd hdir hsettled with heq | ⟨-, hbare⟩
  · rwa [heq]
  · intro place hreaches
    rw [draftRights, hbare.get? ⟨hdir, hreaches⟩]
    rfl

/-- Making the directory of a store puts no links there. -/
lemma NoLink.made {name : String} (h : s.NoLink d name) (hd : d.WellFormed)
    (hdir : s.dir.text ≠ "") (hsettled : d.Settled s.dir) :
    s.NoLink (d.makeDirectories s.dir).2 name := by
  rcases Disk.makeDirectories_unseen hd hdir hsettled with heq | ⟨-, hbare⟩
  · rwa [heq]
  · intro place hleads target
    rw [hbare.get? hleads]
    simp

lemma Drafted.keeps (h : s.Drafted format d e) : d.Keeps e := by
  cases h with
  | same => exact ⟨rfl, fun hq _ => hq⟩
  | draft hleads hdraft bytes rights =>
    refine ⟨rfl, fun {q entry} hq hpass => ?_⟩
    rw [Disk.get?_set (by simp)]
    split_ifs with hqd
    · rw [← hqd, hq] at hdraft
      exact absurd hpass hdraft.not_passable
    · exact hq

/-- What becomes of a disk when a draft is moved over the result. -/
lemma rename_draft_cases (hd : d.WellFormed) (hleads : d.Leads s.dir place)
    (hname : Path.IsName format.fileName)
    (hdraft : Disk.Writable (d.get? (place ++ [.text (format.fileName ++ ".tmp")])))
    (text : String) :
    let drafted := d.set (place ++ [.text (format.fileName ++ ".tmp")])
      (.file (Text.encode text) (draftRights format d place))
    ((d.limits = .none → d.get? (place ++ [.text format.fileName]) = some .directory) ∧
      (∃ fault, drafted.rename (s.draftOf format) (s.pathOf format) = (.error fault, drafted))) ∨
    ∃ e, drafted.rename (s.draftOf format) (s.pathOf format) = (.ok (), e) ∧
      s.Published format text d e place := by
  intro drafted
  let entry := DiskEntry.file (Text.encode text) (draftRights format d place)
  let moved := (drafted.erase (place ++ [.text (format.fileName ++ ".tmp")])).set
    (place ++ [.text format.fileName]) entry
  have hleads' : drafted.Leads s.dir place :=
    hleads.mono (Drafted.draft hleads hdraft (Text.encode text) _).keeps
  have hne : place ++ [.text format.fileName] ≠ place ++ [.text (format.fileName ++ ".tmp")] := by
    simpa using (Path.draft_ne format.fileName).symm
  have hget (q : DiskPlace) : drafted.get? q =
      if q = place ++ [.text (format.fileName ++ ".tmp")] then some entry else d.get? q :=
    Disk.get?_set (by simp) _ q
  by_cases hresult : d.get? (place ++ [.text format.fileName]) = some .directory
  · refine Or.inl ⟨fun _ => hresult, .isDirectory, ?_⟩
    rw [Disk.rename, draftOf, pathOf, hleads'.targetItself_join hname.draft,
      hleads'.targetItself_join hname, hget, hget, if_pos rfl, if_neg hne, hresult]
  · have hrename : drafted.rename (s.draftOf format) (s.pathOf format)
        = drafted.unlessRefused (.rename (place ++ [.text (format.fileName ++ ".tmp")])
          (place ++ [.text format.fileName])) (.ok (), moved) :=
      Disk.rename_join hleads' hname.draft hname (by rw [hget, if_pos rfl]) nofun
        (by rwa [hget, if_neg hne])
    rw [hrename]
    rcases drafted.unlessRefused_cases _ (.ok (), moved) with heq | ⟨hlimits, hrefused⟩
    · exact Or.inr ⟨moved, heq, hleads, hdraft, hresult, rfl, rfl,
        Disk.get?_set_erase_set hd (by simp) (by simp) hdraft.ne_directory _⟩
    · exact Or.inl ⟨fun hnone => absurd hnone hlimits, hrefused⟩

lemma noLink_of_entries (h : ∀ x ∈ d.entries, ∀ target, x.2 ≠ .link target) (name : String) :
    s.NoLink d name :=
  fun _ _ target hlink => h _ (Disk.mem_entries_of_get? (by simp) hlink) target rfl

/-- What saving makes of a disk, behind the making of the directory.  In a directory that is there,
with room for a draft and no limits, only a directory in the stead of the result makes it fail. -/
theorem save_cases [NumberText α] (value : β) (hd : d.WellFormed) (hdir : s.dir.text ≠ "")
    (hname : Path.IsName format.fileName)
    (hlink : s.NoLink (d.makeDirectories s.dir).2 (format.fileName ++ ".tmp")) :
    (∃ fault e, s.save format value d = (.error (.disk fault), e) ∧
      s.Drafted format (d.makeDirectories s.dir).2 e ∧
      (∀ place, d.Leads s.dir place → d.limits = .none →
        Disk.Writable (d.get? (place ++ [.text (format.fileName ++ ".tmp")])) →
          d.get? (place ++ [.text format.fileName]) = some .directory)) ∨
    ∃ e place, s.save format value d = (.ok (s.pathOf format), e) ∧
      s.Published format (format.encode value) (d.makeDirectories s.dir).2 e place := by
  have hwell := (Disk.makeDirectories_makes d s.dir).wellFormed hd
  simp only [save, steps, takeSteps, step]
  rcases hmade : d.makeDirectories s.dir with ⟨result, made⟩
  rw [hmade] at hlink hwell
  have hthere {q : DiskPlace} (hq : d.Leads s.dir q) : result = .ok () ∧ made = d := by
    rw [Disk.makeDirectories_of_leads hq] at hmade
    cases hmade
    exact ⟨rfl, rfl⟩
  cases result with
  | error fault =>
    refine Or.inl ⟨fault, made, rfl, .same, fun q hq => ?_⟩
    cases (hthere hq).1
  | ok =>
    obtain ⟨place, hleads⟩ := Disk.exists_leads_of_makeDirectories hdir hmade
    simp only [draftOf]
    rcases Disk.write_join_cases hleads hname.draft (hlink place hleads)
      (Text.encode (format.encode value)) with ⟨hclosed, fault, hwrite⟩ |
      ⟨hopen, hwrite | ⟨hlimits, fault, part, hwrite⟩⟩
    · rw [hwrite]
      refine Or.inl ⟨fault, made, rfl, .same, fun q hq hnone hfree => ?_⟩
      obtain ⟨-, rfl⟩ := hthere hq
      exact absurd (hq.unique hleads ▸ hfree) (hclosed hnone)
    · rw [hwrite]
      simp only
      rcases rename_draft_cases hwell hleads hname hopen (format.encode value) with
        ⟨hresult, fault, hrename⟩ | ⟨e, hrename, hpub⟩
      · simp only [draftOf, draftRights] at hrename
        rw [hrename]
        refine Or.inl ⟨fault, _, rfl, .draft hleads hopen _ _, fun q hq hnone _ => ?_⟩
        obtain ⟨-, rfl⟩ := hthere hq
        rw [hq.unique hleads, hresult hnone]
      · simp only [draftOf, draftRights] at hrename
        rw [hrename]
        exact Or.inr ⟨e, place, rfl, hpub⟩
    · rw [hwrite]
      refine Or.inl ⟨fault, _, rfl, .draft hleads hopen part _, fun q hq hnone => ?_⟩
      obtain ⟨-, rfl⟩ := hthere hq
      exact absurd hnone hlimits

/-- Saving succeeds in a directory with room for the draft and the result. -/
theorem exists_published [NumberText α] (format : SavedFormat α β) (value : β) {made : Disk}
    (hd : made.WellFormed) (hmade : d.makeDirectories s.dir = (.ok (), made))
    (hleads : made.Leads s.dir place) (hname : Path.IsName format.fileName)
    (hlimits : made.limits = .none)
    (hdraft : Disk.Writable (made.get? (place ++ [.text (format.fileName ++ ".tmp")])))
    (hresult : made.get? (place ++ [.text format.fileName]) ≠ some .directory) :
    ∃ e, s.save format value d = (.ok (s.pathOf format), e) ∧
      s.Published format (format.encode value) made e place := by
  have hlink (target : List PathPart) :
      made.get? (place ++ [.text (format.fileName ++ ".tmp")]) ≠ some (.link target) := by
    intro hlink
    rw [hlink] at hdraft
    cases hdraft
  simp only [save, steps, takeSteps, step, hmade, draftOf]
  rcases Disk.write_join_cases hleads hname.draft hlink (Text.encode (format.encode value)) with
    ⟨hclosed, -⟩ | ⟨-, hwrite | ⟨hfull, -⟩⟩
  · exact absurd hdraft (hclosed hlimits)
  · rcases rename_draft_cases hd hleads hname hdraft (format.encode value) with
      ⟨hdirectory, -⟩ | ⟨e, hrename, hpub⟩
    · exact absurd (hdirectory hlimits) hresult
    · simp only [draftOf, draftRights] at hrename
      rw [hwrite]
      simp only [hrename]
      exact ⟨e, rfl, hpub⟩
  · exact absurd hlimits hfull

/-! ### What is read behind it -/

lemma Published.keeps {text : String} (h : s.Published format text d e place)
    (hlink : s.NoLink d format.fileName) : d.Keeps e := by
  refine ⟨h.home, fun {q entry} hq hpass => ?_⟩
  rw [h.get?]
  split_ifs with hresult hdraft
  · rw [hresult] at hq
    rcases hpass with rfl | ⟨target, rfl⟩
    · exact absurd hq h.result
    · exact absurd hq (hlink place h.leads target)
  · have hopen := h.draft
    rw [← hdraft, hq] at hopen
    exact absurd hpass hopen.not_passable
  · exact hq

lemma Published.wellFormed {text : String} (h : s.Published format text d e place)
    (hd : d.WellFormed) : e.WellFormed := by
  have hdir {q : DiskPlace} (hq : d.get? q = some .directory) : e.get? q = some .directory := by
    rw [h.get?, if_neg, if_neg, hq]
    · rintro rfl
      exact h.draft.ne_directory hq
    · rintro rfl
      exact h.result hq
  refine ⟨by rw [h.home]; exact hdir hd.home, fun q name hq => ?_⟩
  rw [h.get?] at hq
  split_ifs at hq with hresult hdraft
  · obtain ⟨rfl, -⟩ := List.append_inj' hresult rfl
    exact hdir (hd.get?_leads h.leads)
  · exact absurd rfl hq
  · exact hdir (hd.above q name hq)

lemma Published.noLink {text : String} (h : s.Published format text d e place) {name : String}
    (hlink : s.NoLink d name) (hlink' : s.NoLink d format.fileName) : s.NoLink e name := by
  intro q hq target
  obtain rfl := hq.unique (h.leads.mono (h.keeps hlink'))
  rw [h.get?]
  split_ifs
  · simp
  · simp
  · exact hlink q h.leads target

/-- Saving a result changes only entries at which it leaves dead ends. -/
lemma Published.deadEnd_of_ne {text : String} (h : s.Published format text d e place)
    {q : DiskPlace} {name : EntryName} (hne : e.get? (q ++ [name]) ≠ d.get? (q ++ [name])) :
    e.DeadEnd q name := by
  refine Disk.deadEnd_of_not_passable fun entry hentry => ?_
  rw [h.get?] at hne hentry
  split_ifs at hne hentry
  · rw [← Option.some.inj hentry]
    exact Disk.file_not_passable
  · exact absurd rfl hne

/-- If the result was one before, the ways to directories are the same. -/
lemma Published.leads_iff {text : String} (h : s.Published format text d e place)
    (hend : d.DeadEnd place (.text format.fileName)) {p : Path} {q : DiskPlace} :
    e.Leads p q ↔ d.Leads p q := by
  refine ⟨fun hleads => hleads.around h.home.symm fun q name hne => h.deadEnd_of_ne hne.symm,
    fun hleads => hleads.around h.home fun q name hne => ?_⟩
  rw [h.get?] at hne
  split_ifs at hne with hresult hdraft
  · obtain ⟨rfl, rfl⟩ : q = place ∧ name = .text format.fileName := by
      simpa using List.append_inj' hresult rfl
    exact hend
  · refine Disk.deadEnd_of_not_passable fun entry hentry => ?_
    have hopen := h.draft
    rw [← hdraft, hentry] at hopen
    exact hopen.not_passable
  · exact absurd rfl hne

/-- A dead end stays one. -/
lemma Published.deadEnd {text : String} (h : s.Published format text d e place) {q : DiskPlace}
    {name : EntryName} (hend : d.DeadEnd q name) : e.DeadEnd q name := by
  intro links left target hwalk
  exact hend links left target (hwalk.around fun q' name' hne => h.deadEnd_of_ne hne.symm)

/-- A draft is not in the way of anything else in the store. -/
lemma Drafted.read_join (h : s.Drafted format d e) {name : String} (hname : Path.IsName name)
    (hne : name ≠ format.fileName ++ ".tmp") (hlink : s.NoLink d name) :
    e.read (s.dir.join ⟨name⟩) = d.read (s.dir.join ⟨name⟩) := by
  have hkeep := h.keeps
  cases h with
  | same => rfl
  | draft hleads hdraft bytes rights =>
    refine Disk.read_join_congr hleads (hleads.mono hkeep) hname (hlink _ hleads) ?_
    rw [Disk.get?_set (by simp), if_neg (by simpa using hne)]

/-- A result is not in the way of anything else in the store. -/
lemma Published.read_join {text : String} (h : s.Published format text d e place) {name : String}
    (hname : Path.IsName name) (hresult : name ≠ format.fileName)
    (hdraft : name ≠ format.fileName ++ ".tmp") (hlink : s.NoLink d name)
    (hlink' : s.NoLink d format.fileName) :
    e.read (s.dir.join ⟨name⟩) = d.read (s.dir.join ⟨name⟩) := by
  refine Disk.read_join_congr h.leads (h.leads.mono (h.keeps hlink')) hname (hlink _ h.leads) ?_
  rw [h.get?, if_neg (by simpa using hresult), if_neg (by simpa using hdraft)]

/-- A result that was saved is read, unless an earlier draft that cannot be read was left. -/
lemma Published.readText {text : String} (h : s.Published format text d e place)
    (hname : Path.IsName format.fileName) (hlink : s.NoLink d format.fileName)
    (hread : (draftRights format d place).readable = true) :
    e.readText (s.pathOf format) = .ok text.toList :=
  Disk.readText_file (h.leads.mono (h.keeps hlink)) hname (by rw [h.get?, if_pos rfl]) hread

/-- A result that was written over a draft that cannot be read cannot be read either. -/
lemma Published.readText_denied {text : String} (h : s.Published format text d e place)
    (hname : Path.IsName format.fileName) (hlink : s.NoLink d format.fileName)
    (hread : (draftRights format d place).readable = false) :
    e.readText (s.pathOf format) = .error .denied := by
  have hfile := (h.get? (place ++ [.text format.fileName])).trans (if_pos rfl)
  have hdenied : e.read (s.pathOf format) = .error .denied := by
    rw [Disk.read, pathOf, (h.leads.mono (h.keeps hlink)).target_join hname (by rw [hfile]; simp),
      hfile]
    simp only [bind, Except.bind, hread, Bool.false_eq_true, if_false]
  rw [Disk.readText, hdenied]
  rfl

lemma load_of_missing [NumberText α] (h : d.readText (s.pathOf format) = .error .missing) :
    s.load format d = .error (.notSaved (s.pathOf format)) := by
  unfold load
  dsimp only
  rw [h]

lemma load_of_fault [NumberText α] {fault : DiskFault} (hne : fault ≠ .missing)
    (h : d.readText (s.pathOf format) = .error fault) : s.load format d = .error (.disk fault) := by
  unfold load
  dsimp only
  rw [h]
  cases fault with
  | missing => exact absurd rfl hne
  | _ => rfl

/-- A text is not mistaken for nothing. -/
lemma load_ne_notSaved [NumberText α] {text : List Char}
    (h : d.readText (s.pathOf format) = .ok text) (path : Path) :
    s.load format d ≠ .error (.notSaved path) := by
  unfold load
  dsimp only
  rw [h]
  dsimp only
  split
  · simp
  · split <;> simp

lemma load_congr [NumberText α]
    (h : e.readText (s.pathOf format) = d.readText (s.pathOf format)) :
    s.load format e = s.load format d := by
  unfold load
  dsimp only
  rw [h]

end Store

/-! ### A link in the stead of the draft -/

/-- A link to its own name leads in a circle. -/
lemma Disk.follow_circle {d : Disk} {place : DiskPlace} {name : EntryName}
    (h : d.get? (place ++ [name]) = some (.link [.entry name])) (links : Nat) :
    d.follow true links place [.entry name] = .error .circle := by
  induction links with
  | zero =>
    rw [Disk.follow]
    simp [h]
  | succ links ih =>
    rw [Disk.follow]
    simpa [h] using ih

/-- A link to a file beside it leads to the file. -/
lemma Disk.follow_beside {d : Disk} {place : DiskPlace} {name other : EntryName}
    (hlink : d.get? (place ++ [other]) = some (.link [.entry name]))
    (hfile : Writable (d.get? (place ++ [name]))) (links : Nat) :
    d.follow true (links + 1) place [.entry other]
      = .ok ⟨place ++ [name], d.get? (place ++ [name])⟩ := by
  have hentry : d.follow true links place [.entry name]
      = .ok ⟨place ++ [name], d.get? (place ++ [name])⟩ := by
    rw [Disk.follow]
    generalize d.get? (place ++ [name]) = thing at hfile
    cases hfile <;> rfl
  rw [Disk.follow]
  simpa [hlink] using hentry

namespace Store

variable {α β : Type} {s : Store} {format : SavedFormat α β} {d : Disk} {place : DiskPlace}

/-- If the draft is a link to the result, the result is written and then the link is moved over it,
so that it leads in a circle.  The way to the store must not go through any of the two. -/
theorem save_of_linked_draft [NumberText α] (links : Nat) (value : β) (hd : d.WellFormed)
    (hdir : s.dir.text ≠ "") (hlimits : d.limits = .none) (hname : Path.IsName format.fileName)
    (hdraft : d.get? (place ++ [.text (format.fileName ++ ".tmp")])
      = some (.link [.entry (.text format.fileName)]))
    (hresult : Disk.Writable (d.get? (place ++ [.text format.fileName])))
    (hway : ∀ e : Disk, e.home = d.home → (∀ q, q ≠ place ++ [.text format.fileName] →
      q ≠ place ++ [.text (format.fileName ++ ".tmp")] → e.get? q = d.get? q) →
        e.Walks ⟨Disk.linkLimit, d.home, Disk.trunk s.dir⟩ ⟨links + 1, place, []⟩) :
    ∃ path e, s.save format value d = (.ok path, e) ∧
      e.readText (s.pathOf format) = .error .circle := by
  have hwalk := hway d rfl fun _ _ _ => rfl
  have hleads : d.Leads s.dir place := ⟨hdir, links + 1, hwalk⟩
  have hne : place ++ [.text (format.fileName ++ ".tmp")] ≠ place ++ [.text format.fileName] := by
    simp
  let written := d.set (place ++ [.text format.fileName]) (.file (Text.encode (format.encode value))
    (Disk.rightsAt (d.get? (place ++ [.text format.fileName]))))
  let moved := (written.erase (place ++ [.text (format.fileName ++ ".tmp")])).set
    (place ++ [.text format.fileName]) (.link [.entry (.text format.fileName)])
  have hwrite : d.write (s.draftOf format) (Text.encode (format.encode value))
      = (.ok (), written) := by
    have htarget : d.target (s.draftOf format)
        = .ok ⟨place ++ [.text format.fileName], d.get? (place ++ [.text format.fileName])⟩ := by
      rw [Disk.target, draftOf, Disk.way_join hdir hname.draft, Disk.targetOf, if_neg (by simp),
        hwalk.follow (Or.inl rfl)]
      exact Disk.follow_beside hdraft hresult links
    have hfill {bytes : List UInt8} (rights : FileRights) :
        d.unlessRefused (.write (place ++ [.text format.fileName]))
          (d.fill (place ++ [.text format.fileName]) bytes rights)
          = (.ok (), d.set (place ++ [.text format.fileName]) (.file bytes rights)) := by
      rw [Disk.unlessRefused_eq hlimits, Disk.fill, hlimits]
      rfl
    rw [Disk.write, htarget, draftOf, Path.endsWith_join _ hname.draft, if_neg Bool.false_ne_true]
    simp only [written]
    generalize d.get? (place ++ [.text format.fileName]) = thing at hresult
    cases hresult with
    | none => exact hfill _
    | file old hopen => exact (if_pos hopen).trans (hfill _)
  have hrename : written.rename (s.draftOf format) (s.pathOf format) = (.ok (), moved) := by
    have hwritten : written.Leads s.dir place := by
      refine ⟨hdir, links + 1, hway written rfl fun q hq _ => ?_⟩
      rw [Disk.get?_set (by simp), if_neg hq]
    have hentry : written.get? (place ++ [.text (format.fileName ++ ".tmp")])
        = some (.link [.entry (.text format.fileName)]) := by
      rw [Disk.get?_set (by simp), if_neg hne, hdraft]
    rw [draftOf, pathOf, Disk.rename_join hwritten hname.draft hname hentry (by simp)
      (by rw [Disk.get?_set (by simp), if_pos rfl]; simp)]
    exact Disk.unlessRefused_eq (d := written) hlimits _ _
  have hread : moved.readText (s.pathOf format) = .error .circle := by
    have hwalk' := hway moved rfl fun q hq hq' => by
      rw [Disk.get?_set (by simp), if_neg hq, Disk.get?_erase (by simp)]
      split
      next hbelow =>
        -- nothing lies below a link
        obtain ⟨names, rfl⟩ := hbelow
        have hnames : names ≠ [] := by
          rintro rfl
          simp at hq'
        exact (hd.get?_append (by rw [hdraft]; simp) hnames).symm
      next => rw [Disk.get?_set (by simp), if_neg hq]
    have hlink : moved.get? (place ++ [.text format.fileName])
        = some (.link [.entry (.text format.fileName)]) := by
      rw [Disk.get?_set (by simp), if_pos rfl]
    have htarget : moved.target (s.pathOf format) = .error .circle := by
      rw [Disk.target, pathOf, Disk.way_join hdir hname, Disk.targetOf, if_neg (by simp)]
      exact (hwalk'.follow (Or.inl rfl)).trans (Disk.follow_circle hlink _)
    rw [Disk.readText, Disk.read, htarget]
    rfl
  refine ⟨s.pathOf format, moved, ?_, hread⟩
  simp only [save, steps, takeSteps, step, Disk.makeDirectories_of_leads hleads, hwrite, hrename]

end Store

end HouseStyle
