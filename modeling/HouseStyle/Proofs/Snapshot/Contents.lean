import HouseStyle.Proofs.Snapshot.Ranges
import Mathlib.Logic.Function.Basic

/-!
# What a store holds

The directory of a store is described by the texts of its files, and there is nothing else in it.
A directory that is missing counts as empty, as it is empty once it is made.  Saving a result
changes one text, and what is loaded is what the texts spell.
-/

namespace HouseStyle

namespace Disk

variable {d : Disk} {p : Path} {name : String}

/-- A way goes through a directory if something lies behind it. -/
lemma exists_reaches_of_ne_nil {parts more : List PathPart} {t : DiskTarget} (hmore : more ≠ [])
    (h : d.follow true linkLimit d.home (parts ++ more) = .ok t) : ∃ q, d.Reaches parts q := by
  rcases reaches_or_ends d parts with hreaches | ⟨links, q, name, rest, hends⟩
  · exact hreaches
  · have hrest : rest ++ more ≠ [] := by simp [hmore]
    rw [hends.follow true more (Or.inl rfl)] at h
    cases hnext : d.get? (q ++ [name]) with
    | none =>
      rw [hnext] at h
      simp only [if_neg hrest] at h
      cases h
    | some entry =>
      rw [hnext] at h
      cases entry with
      | directory | file bytes rights =>
        simp only [if_neg hrest] at h
        cases h
      | link target => cases h

lemma exists_leads_of_readText (hp : p.text ≠ "") (hname : Path.IsName name) {cs : List Char}
    (h : d.readText (p.join ⟨name⟩) = .ok cs) : ∃ place, d.Leads p place := by
  obtain ⟨bytes, hread, -⟩ := exists_of_bind_eq_ok h
  obtain ⟨t, htarget, -⟩ := exists_of_bind_eq_ok hread
  rw [target, way_join hp hname, targetOf, if_neg (by simp)] at htarget
  obtain ⟨place, hreaches⟩ := exists_reaches_of_ne_nil (by simp) htarget
  exact ⟨place, hp, hreaches⟩

end Disk

/-- A result that is read back from its text and passes its check. -/
structure SavedFormat.Legible {α β : Type} [NumberText α] (format : SavedFormat α β) (value : β) :
    Prop where
  decode : format.decode? (format.encode value).toList = some value
  check : format.check value = .ok ()

namespace Store

/-- The file with a name, if there are files with some texts.  A name that is no text is none of
theirs. -/
def fileOf? (texts : String → Option String) (name : EntryName) : Option DiskEntry :=
  (name.text?.bind texts).map fun text => .file (Text.encode text) .all

/-- Whether the entries in the directory of a store, once it is made, are files with some texts. -/
structure Contains (t : Store) (texts : String → Option String) (d : Disk) : Prop where
  wellFormed : d.WellFormed
  there : ∀ {name text}, texts name = some text → ∃ place, d.Leads t.dir place
  entries : ∀ {place}, (d.makeDirectories t.dir).2.Leads t.dir place → ∀ name : EntryName,
    (d.makeDirectories t.dir).2.get? (place ++ [name]) = fileOf? texts name

/-- Whether a change of a disk leaves the directory of a store alone: one that is there stays with
what is in it, and one that is missing is still empty once it is made. -/
structure Untouched (t : Store) (d e : Disk) : Prop where
  wellFormed : e.WellFormed
  there : ∀ {place}, d.Leads t.dir place →
    ∃ q, e.Leads t.dir q ∧ ∀ name : EntryName, e.get? (q ++ [name]) = d.get? (place ++ [name])
  missing : (∀ place, ¬ d.Leads t.dir place) → ∀ {q}, (e.makeDirectories t.dir).2.Leads t.dir q →
    ∀ name : EntryName, (e.makeDirectories t.dir).2.get? (q ++ [name]) = none

variable {t : Store} {texts : String → Option String} {d e : Disk} {place : DiskPlace}
  {name : String}

lemma fileOf?_of_none (h : ∀ name, texts name = none) (name : EntryName) :
    fileOf? texts name = none := by
  cases name with
  | text name => rw [fileOf?, EntryName.text?, Option.bind_some, h, Option.map_none]
  | raw name => rfl

lemma exists_of_fileOf? {name : EntryName} {entry : DiskEntry}
    (h : fileOf? texts name = some entry) :
    ∃ n text, name = .text n ∧ texts n = some text ∧ entry = .file (Text.encode text) .all := by
  cases name with
  | text n =>
    obtain ⟨text, htext, rfl⟩ := Option.map_eq_some_iff.1 h
    exact ⟨n, text, rfl, htext, rfl⟩
  | raw name => cases h

lemma Contains.get? (h : t.Contains texts d) (hleads : d.Leads t.dir place) (name : EntryName) :
    d.get? (place ++ [name]) = fileOf? texts name := by
  have hmade := Disk.makeDirectories_of_leads hleads
  have hleads' : (d.makeDirectories t.dir).2.Leads t.dir place := by rwa [hmade]
  have hentries := h.entries hleads' name
  rwa [hmade] at hentries

lemma contains_of_leads (hd : d.WellFormed) (hleads : d.Leads t.dir place)
    (h : ∀ name : EntryName, d.get? (place ++ [name]) = fileOf? texts name) :
    t.Contains texts d := by
  refine ⟨hd, fun _ => ⟨place, hleads⟩, fun {q} hq => ?_⟩
  rw [Disk.makeDirectories_of_leads hleads] at hq ⊢
  obtain rfl := hq.unique hleads
  exact h

lemma Contains.noLink_made (h : t.Contains texts d) (name : String) :
    t.NoLink (d.makeDirectories t.dir).2 name := by
  intro place hleads target hlink
  rw [h.entries hleads] at hlink
  obtain ⟨_, _, -, -, hfile⟩ := exists_of_fileOf? hlink
  cases hfile

/-- A change that leaves the directory alone leaves the files in it alone. -/
lemma Contains.untouched (h : t.Contains texts d) (hchange : t.Untouched d e) :
    t.Contains texts e := by
  by_cases hleads : ∃ place, d.Leads t.dir place
  · obtain ⟨place, hleads⟩ := hleads
    obtain ⟨q, hq, hsame⟩ := hchange.there hleads
    exact contains_of_leads hchange.wellFormed hq fun name =>
      (hsame name).trans (h.get? hleads name)
  · have hnone (name : String) : texts name = none := by
      cases htext : texts name with
      | none => rfl
      | some text => exact absurd (h.there htext) hleads
    refine ⟨hchange.wellFormed, fun htext => ?_, fun hq name => ?_⟩
    · rw [hnone] at htext
      cases htext
    · rw [fileOf?_of_none hnone, hchange.missing (fun place hplace => hleads ⟨place, hplace⟩) hq]

/-! ### Reading -/

lemma Contains.readText_none (h : t.Contains texts d) (hleads : d.Leads t.dir place)
    (hname : Path.IsName name) (hnone : texts name = none) :
    d.readText (t.dir.join ⟨name⟩) = .error .missing :=
  Disk.readText_none hleads hname (by rw [h.get? hleads]; simp [fileOf?, EntryName.text?, hnone])

/-- What is read in the directory of a store is the text of a file in it. -/
lemma Contains.readText_iff (h : t.Contains texts d) (hdir : t.dir.text ≠ "")
    (hname : Path.IsName name) {cs : List Char} :
    d.readText (t.dir.join ⟨name⟩) = .ok cs
      ↔ ∃ text, texts name = some text ∧ text.toList = cs := by
  have hread {place : DiskPlace} (hleads : d.Leads t.dir place) {text : String}
      (htext : texts name = some text) : d.readText (t.dir.join ⟨name⟩) = .ok text.toList :=
    Disk.readText_file hleads hname
      (by rw [h.get? hleads]; simp [fileOf?, EntryName.text?, htext]; rfl) rfl
  constructor
  · intro hok
    obtain ⟨place, hleads⟩ := Disk.exists_leads_of_readText hdir hname hok
    cases htext : texts name with
    | none =>
      rw [h.readText_none hleads hname htext] at hok
      cases hok
    | some text => exact ⟨text, rfl, Except.ok.inj ((hread hleads htext).symm.trans hok)⟩
  · rintro ⟨text, htext, rfl⟩
    obtain ⟨place, hleads⟩ := h.there htext
    exact hread hleads htext

variable {α β : Type} [NumberText α] {format : SavedFormat α β} {value : β}

/-- What is loaded is what the text of the result spells, if that passes its check. -/
lemma Contains.load_iff (h : t.Contains texts d) (hdir : t.dir.text ≠ "")
    (hname : Path.IsName format.fileName) : t.load format d = .ok value ↔
      ∃ text, texts format.fileName = some text ∧ format.decode? text.toList = some value ∧
        format.check value = .ok () := by
  rw [load_eq_ok_iff_check]
  simp only [pathOf, h.readText_iff hdir hname]
  constructor
  · rintro ⟨_, ⟨text, htext, rfl⟩, hvalue⟩
    exact ⟨text, htext, hvalue⟩
  · rintro ⟨text, htext, hvalue⟩
    exact ⟨_, ⟨text, htext, rfl⟩, hvalue⟩

/-- Files that spell a result, or none, are loaded as it. -/
lemma Contains.load_iff_of_encode (h : t.Contains texts d) (hdir : t.dir.text ≠ "")
    (hname : Path.IsName format.fileName) {slot : Option β}
    (htext : texts format.fileName = slot.map format.encode)
    (hlegible : ∀ v, slot = some v → format.Legible v) :
    t.load format d = .ok value ↔ slot = some value := by
  rw [h.load_iff hdir hname, htext]
  constructor
  · rintro ⟨text, hslot, hdecode, -⟩
    obtain ⟨v, hv, rfl⟩ := Option.map_eq_some_iff.1 hslot
    exact hv.trans ((hlegible v hv).decode.symm.trans hdecode)
  · intro hslot
    exact ⟨_, by rw [hslot]; rfl, (hlegible value hslot).decode, (hlegible value hslot).check⟩

omit [NumberText α] in
lemma load?_of_load {v : β} (h : t.load format d = .ok v) : t.load? format d = .ok (some v) := by
  unfold load?
  rw [h]

omit [NumberText α] in
/-- What is found if anything can be found out. -/
lemma load?_eq_ok {slot : Option β} (hload : ∀ v, t.load format d = .ok v ↔ slot = some v)
    {found : Option β} (h : t.load? format d = .ok found) : found = slot := by
  unfold load? at h
  split at h
  next v hv =>
    obtain rfl := Except.ok.inj h
    exact ((hload v).1 hv).symm
  next path hmissing =>
    obtain rfl := Except.ok.inj h
    cases hslot : slot with
    | none => rfl
    | some v =>
      rw [(hload v).2 hslot] at hmissing
      cases hmissing
  next => cases h

lemma Contains.load?_of_leads (h : t.Contains texts d) (hleads : d.Leads t.dir place)
    (hname : Path.IsName format.fileName) {slot : Option β}
    (htext : texts format.fileName = slot.map format.encode)
    (hload : ∀ v, t.load format d = .ok v ↔ slot = some v) : t.load? format d = .ok slot := by
  cases hslot : slot with
  | none =>
    rw [hslot] at htext
    unfold load?
    rw [load_of_missing (h.readText_none hleads hname htext)]
  | some v => exact load?_of_load ((hload v).2 hslot)

/-! ### Saving -/

/-- Saving a result puts its text into the place of the earlier one, and leaves no draft. -/
lemma Contains.save (h : t.Contains texts d) (hdir : t.dir.text ≠ "")
    (hname : Path.IsName format.fileName) (hdraft : texts (format.fileName ++ ".tmp") = none)
    {path : Path} (hsave : t.save format value d = (.ok path, e)) :
    t.Contains (Function.update texts format.fileName (some (format.encode value))) e := by
  rcases save_cases value h.wellFormed hdir hname (h.noLink_made _) with
    ⟨fault, e', hfailed, -⟩ | ⟨e', place, hsaved, hpub⟩
  · rw [hfailed] at hsave
    cases hsave
  · rw [hsaved] at hsave
    obtain ⟨-, rfl⟩ := Prod.mk.inj hsave
    have hleads := hpub.leads.mono (hpub.keeps (h.noLink_made _))
    have hmade := (Disk.makeDirectories_makes d t.dir).wellFormed h.wellFormed
    refine contains_of_leads (hpub.wellFormed hmade) hleads fun name => ?_
    have hfree : (d.makeDirectories t.dir).2.get? (place ++ [.text (format.fileName ++ ".tmp")])
        = none := by
      rw [h.entries hpub.leads]
      simp [fileOf?, EntryName.text?, hdraft]
    cases name with
    | raw name =>
      simp only [hpub.get?, List.append_cancel_left_eq, List.singleton_inj, reduceCtorEq, if_false]
      exact h.entries hpub.leads (.raw name)
    | text name =>
      simp only [hpub.get?, List.append_cancel_left_eq, List.singleton_inj, EntryName.text.injEq,
        fileOf?, EntryName.text?, Option.bind_some, Function.update_apply]
      split_ifs with hresult htmp
      · rw [draftRights, hfree]
        rfl
      · rw [htmp, hdraft]
        rfl
      · exact h.entries hpub.leads name

/-- In a directory that is there, and on a disk that allows everything, every result can be saved.
-/
lemma Contains.exists_save (h : t.Contains texts d) (hdir : t.dir.text ≠ "")
    (hname : Path.IsName format.fileName) (hdraft : texts (format.fileName ++ ".tmp") = none)
    (hleads : d.Leads t.dir place) (hlimits : d.limits = .none) (value : β) :
    ∃ e, t.save format value d = (.ok (t.pathOf format), e) ∧ d.Keeps e ∧ e.limits = .none := by
  have hmade : (d.makeDirectories t.dir).2 = d := by rw [Disk.makeDirectories_of_leads hleads]
  rcases save_cases value h.wellFormed hdir hname (h.noLink_made _) with
    ⟨fault, e, -, -, hwhy⟩ | ⟨e, q, hsave, hpub⟩
  · have hfree : d.get? (place ++ [.text (format.fileName ++ ".tmp")]) = none := by
      rw [h.get? hleads]
      simp [fileOf?, EntryName.text?, hdraft]
    have hdirectory := hwhy place hleads hlimits (hfree ▸ .none)
    rw [h.get? hleads] at hdirectory
    obtain ⟨_, _, -, -, hfile⟩ := exists_of_fileOf? hdirectory
    cases hfile
  · have hkeeps := hpub.keeps (h.noLink_made _)
    have hsame := hpub.limits
    rw [hmade] at hkeeps hsame
    exact ⟨e, hsave, hkeeps, hsame.trans hlimits⟩

end Store

end HouseStyle
