import HouseStyle.Proofs.Snapshot.Contents

/-!
# Saving is all or nothing

A result that cannot be saved leaves both results as they were, and one that is saved takes the
place of the earlier one and leaves nothing else behind (`AllOrNothing`).  The directory of the
store may hold anything but links.  Its path must not go up from a directory that is missing: saving
makes that directory, and from then on the path may lead to other results than before
(`Disk.Detour`).  A draft that was left and cannot be read makes a result that cannot be read
(`exists_save_sealed`).
-/

namespace HouseStyle

lemma Disk.way_name {name : String} (hname : Path.IsName name) : way ⟨name⟩ = [.entry name] := by
  rw [way, Text.splitAt_of_not_mem hname.2.1]
  simp [hname.1, hname.2.2.1, hname.laterPart?]

namespace Store

variable {α β γ : Type} {s : Store} {d e : Disk}

/-- A disk on which the results of a store can be told from anything else: it is a tree, there are
no links in the directory of the store, and its path goes up from no directory that is missing. -/
structure Tidy (s : Store) (d : Disk) : Prop where
  wellFormed : d.WellFormed
  settled : d.Settled s.dir
  noLink : ∀ name, s.NoLink d name

lemma Tidy.unseen (h : s.Tidy d) (hdir : s.dir.text ≠ "") :
    d.Unseen (d.makeDirectories s.dir).2 (Disk.trunk s.dir) :=
  Disk.makeDirectories_unseen h.wellFormed hdir h.settled

lemma Tidy.noLink_made (h : s.Tidy d) (hdir : s.dir.text ≠ "") (name : String) :
    s.NoLink (d.makeDirectories s.dir).2 name :=
  (h.noLink name).made h.wellFormed hdir h.settled

/-- The names of results. -/
def resultNames : List String := ["learning_result.json", "integrated_learning_result.json"]

lemma isName_of_mem {name : String} (h : name ∈ resultNames) : Path.IsName name := by
  have hall : ∀ name ∈ resultNames, Path.IsName name := by decide
  exact hall name h

/-- No result has the name of a draft. -/
lemma ne_draft_of_mem {name other : String} (h : name ∈ resultNames) (h' : other ∈ resultNames) :
    name ≠ other ++ ".tmp" := by
  have hall : ∀ name ∈ resultNames, ∀ other ∈ resultNames, name ≠ other ++ ".tmp" := by decide
  exact hall name h other h'

/-- Whether the results in a store have the same texts on two disks. -/
def SameTexts (s : Store) (d e : Disk) : Prop :=
  ∀ name ∈ resultNames, e.readText (s.dir.join ⟨name⟩) = d.readText (s.dir.join ⟨name⟩)

/-- The same results in a store on two disks, or the same reasons why there are none. -/
structure SameResults (α : Type) [Scalar α] [NumberText α] (s : Store) (d e : Disk) : Prop where
  profile : (s.load Profile.format e : Except (ProjectFault α) _) = s.load Profile.format d
  overview : (s.load Overview.format e : Except (ProjectFault α) _) = s.load Overview.format d

lemma SameTexts.results [Scalar α] [NumberText α] (h : s.SameTexts d e) : s.SameResults α d e :=
  ⟨load_congr (h _ List.mem_cons_self),
    load_congr (h _ (List.mem_cons_of_mem _ List.mem_cons_self))⟩

variable [NumberText α]

/-! ### What saving makes of the results -/

/-- A disk on which a result has a text, which can be read unless it was written over a draft that
cannot, and nothing else of the results is different. -/
structure Replaced (s : Store) (format : SavedFormat α β) (text : String) (d e : Disk) : Prop where
  text : s.ReadableDraft format d → e.readText (s.pathOf format) = .ok text.toList
  others : ∀ name ∈ resultNames, name ≠ format.fileName →
    e.readText (s.dir.join ⟨name⟩) = d.readText (s.dir.join ⟨name⟩)
  noDraft : ∃ place, e.targetItself (s.draftOf format) = .ok ⟨place, none⟩

/-- A result that cannot be saved leaves the results alone. -/
lemma save_error (h : s.Tidy d) (hdir : s.dir.text ≠ "") {format : SavedFormat α β}
    (hformat : format.fileName ∈ resultNames) {value : β} {why : ProjectFault α}
    (hsave : s.save format value d = (.error why, e)) : s.SameTexts d e := by
  rcases save_cases value h.wellFormed hdir (isName_of_mem hformat) (h.noLink_made hdir _) with
    ⟨fault, e', heq, hdraft, -⟩ | ⟨e', place, heq, -⟩
  · obtain ⟨-, rfl⟩ : ProjectFault.disk fault = why ∧ e' = e := by simpa [heq] using hsave
    intro name hname
    exact Disk.readText_congr <|
      (hdraft.read_join (isName_of_mem hname) (ne_draft_of_mem hname hformat)
        (h.noLink_made hdir name)).trans ((h.unseen hdir).read hdir (isName_of_mem hname))
  · rw [heq] at hsave
    cases hsave

/-- A result that is saved takes the place of the earlier one, and the next one can be saved. -/
lemma save_ok (h : s.Tidy d) (hdir : s.dir.text ≠ "") {format : SavedFormat α β}
    (hformat : format.fileName ∈ resultNames) {value : β} {path : Path}
    (hsave : s.save format value d = (.ok path, e)) :
    s.Tidy e ∧ s.Replaced format (format.encode value) d e := by
  rcases save_cases value h.wellFormed hdir (isName_of_mem hformat) (h.noLink_made hdir _) with
    ⟨fault, e', heq, -⟩ | ⟨e', place, heq, hpub⟩
  · rw [heq] at hsave
    cases hsave
  · obtain ⟨-, rfl⟩ : s.pathOf format = path ∧ e' = e := by simpa [heq] using hsave
    have hlink := h.noLink_made hdir
    have hleads := hpub.leads.mono (hpub.keeps (hlink _))
    have hmade := (Disk.makeDirectories_makes d s.dir).wellFormed h.wellFormed
    refine ⟨⟨hpub.wellFormed hmade, hleads.settled, fun name => hpub.noLink (hlink name) (hlink _)⟩,
      fun hread => hpub.readText (isName_of_mem hformat) (hlink _)
        (hread.made h.wellFormed hdir h.settled place hpub.leads.reaches), fun name hname hne => ?_,
      place ++ [.text (format.fileName ++ ".tmp")], ?_⟩
    · exact Disk.readText_congr <|
        (hpub.read_join (isName_of_mem hname) hne (ne_draft_of_mem hname hformat) (hlink name)
          (hlink _)).trans ((h.unseen hdir).read hdir (isName_of_mem hname))
    · rw [draftOf, hleads.targetItself_join (isName_of_mem hformat).draft, hpub.get?, if_neg,
        if_pos rfl]
      simp

/-! ### Stores in the directory of the program -/

/-- The empty path is left out in front of a name, and a single dot there leads nowhere else. -/
lemma targetOf_here (d : Disk) (through : Bool) {name : String} (hname : Path.IsName name) :
    d.targetOf through (Disk.way (Path.join ⟨""⟩ ⟨name⟩))
      = d.targetOf through (Disk.way (Path.join ⟨"."⟩ ⟨name⟩)) := by
  have hjoin : Path.join ⟨""⟩ ⟨name⟩ = ⟨name⟩ := by simp [Path.join]
  have htrunk : Disk.trunk ⟨"."⟩ = [.here] := by decide
  rw [hjoin, Disk.way_name hname, Disk.way_join (by decide) hname, htrunk, Disk.targetOf,
    Disk.targetOf, if_neg (by simp), if_neg (by simp), List.singleton_append]
  exact (Disk.follow.eq_3 d through Disk.linkLimit d.home [.entry name]).symm

lemma readText_here (d : Disk) {name : String} (hname : Path.IsName name) :
    d.readText (Path.join ⟨""⟩ ⟨name⟩) = d.readText (Path.join ⟨"."⟩ ⟨name⟩) := by
  rw [Disk.readText, Disk.readText, Disk.read, Disk.read, Disk.target, Disk.target,
    targetOf_here d true hname]

lemma step_here {format : SavedFormat α β} (hname : Path.IsName format.fileName) (value : β)
    (d : Disk) (step : SaveStep) :
    (⟨⟨""⟩⟩ : Store).step format value d step = (⟨⟨"."⟩⟩ : Store).step format value d step := by
  cases step with
  | makeDirectory => exact (Disk.makeDirectories_of_leads (Disk.leads_here d)).symm
  | writeDraft =>
    simp only [Store.step, draftOf, Disk.write, Path.endsWith_join _ hname.draft, Disk.target,
      targetOf_here d true hname.draft]
  | publish =>
    simp only [Store.step, draftOf, pathOf, Disk.rename, Disk.targetItself,
      targetOf_here d false hname.draft, targetOf_here d false hname]

lemma takeSteps_here {format : SavedFormat α β} (hname : Path.IsName format.fileName) (value : β)
    (d : Disk) (steps : List SaveStep) :
    (⟨⟨""⟩⟩ : Store).takeSteps format value d steps
      = (⟨⟨"."⟩⟩ : Store).takeSteps format value d steps := by
  induction steps generalizing d with
  | nil => rfl
  | cons step more ih => simp only [takeSteps, step_here hname, ih]

lemma save_here {format : SavedFormat α β} (hname : Path.IsName format.fileName) (value : β)
    (d : Disk) : (⟨⟨""⟩⟩ : Store).save format value d
      = (((⟨⟨"."⟩⟩ : Store).save format value d).1.map fun _ => (⟨⟨""⟩⟩ : Store).pathOf format,
        ((⟨⟨"."⟩⟩ : Store).save format value d).2) := by
  rw [save, save, takeSteps_here hname]
  split <;> rfl

end Store

lemma Profile.fileName_mem (α : Type) [Scalar α] [NumberText α] :
    (format : SavedFormat α (Profile α)).fileName ∈ Store.resultNames := List.mem_cons_self

lemma Overview.fileName_mem (α : Type) [Scalar α] [NumberText α] :
    (format : SavedFormat α (Overview α)).fileName ∈ Store.resultNames :=
  List.mem_cons_of_mem _ List.mem_cons_self

/-! ### A result behind a directory that is missing -/

namespace Store

variable {α β : Type} [NumberText α] {s : Store} {d : Disk}

/-- With a directory in the stead of the draft nothing is saved. -/
lemma save_of_blocked_draft {format : SavedFormat α β} (hname : Path.IsName format.fileName)
    (value : β) {made : Disk} {place : DiskPlace} (hmade : d.makeDirectories s.dir = (.ok (), made))
    (hleads : made.Leads s.dir place)
    (hdraft : made.get? (place ++ [.text (format.fileName ++ ".tmp")]) = some .directory) :
    ∃ fault, s.save format value d = (.error (.disk fault), made) := by
  simp only [save, steps, takeSteps, step, hmade, draftOf]
  rcases Disk.write_join_cases hleads hname.draft (by rw [hdraft]; simp)
    (Text.encode (format.encode value)) with ⟨-, fault, hwrite⟩ | ⟨hopen, -⟩
  · rw [hwrite]
    exact ⟨fault, rfl⟩
  · exact absurd hdraft hopen.ne_directory

end Store

/-- A disk on which the path `./x/../real` leads to a result only when the directory `x` has been
made, with a directory in the stead of the draft. -/
structure Disk.Detour (d : Disk) : Prop where
  home : d.home = []
  limits : d.limits = .none
  missing : d.get? ["x"] = none
  directory : d.get? ["real"] = some .directory
  result : d.get? ["real", "learning_result.json"] = some (.file (Text.encode "") .all)
  draft : d.get? ["real", "learning_result.json.tmp"] = some .directory

namespace Disk.Detour

variable {d : Disk}

lemma get?_made_real (h : d.Detour) : (d.set ["x"] .directory).get? ["real"] = some .directory := by
  rw [get?_set (by simp), if_neg (by simp), h.directory]

lemma get?_made_x (d : Disk) : (d.set ["x"] .directory).get? ["x"] = some .directory := by
  rw [get?_set (by simp), if_pos rfl]

lemma home_made (h : d.Detour) : (d.set ["x"] .directory).home = [] := h.home

lemma made (h : d.Detour) :
    d.makeDirectories ⟨"./x/../real"⟩ = (.ok (), d.set ["x"] .directory) := by
  have hway : wayToName ⟨"./x/../real"⟩ = [.here, .entry "x", .up, .entry "real"] := by decide
  have hparts : Path.parts ⟨"./x/../real"⟩ = [.here, .entry "x", .up, .entry "real"] := by decide
  rw [makeDirectories, hway, hparts]
  simp [makeDirectoriesUp, ensureBelow, ensureDirectory, makeDirectory, targetOf, follow, h.home,
    h.missing, h.get?_made_real, get?_made_x d, h.home_made, unlessRefused_eq h.limits]

lemma leads (h : d.Detour) : (d.set ["x"] .directory).Leads ⟨"./x/../real"⟩ ["real"] := by
  refine ⟨by decide, linkLimit, ?_⟩
  rw [h.home_made]
  exact .head (.here _ _ _) (.head (.down _ _ (get?_made_x d)) (.head (.up _ _ _)
    (.single (.down _ [] h.get?_made_real))))

/-- Before the directory is made, there is no result. -/
lemma readText_before (h : d.Detour) :
    d.readText (Path.join ⟨"./x/../real"⟩ ⟨"learning_result.json"⟩) = .error .missing := by
  have hends : d.Ends (trunk ⟨"./x/../real"⟩) linkLimit [] "x" [.up, .entry "real"] := by
    refine ⟨?_, ?_⟩
    · rw [h.home]
      exact .single (.here _ _ _)
    · rw [Bars, List.nil_append, h.missing]
      trivial
  have hname : Path.IsName "learning_result.json" := by decide
  rw [readText, read, target, way_join (by decide) hname, targetOf, if_neg (by simp),
    hends.follow true [.entry "learning_result.json"] (Or.inl rfl), List.nil_append, h.missing]
  rfl

/-- Behind it, there is one. -/
lemma readText_made (h : d.Detour) : (d.set ["x"] .directory).readText
    (Path.join ⟨"./x/../real"⟩ ⟨"learning_result.json"⟩) = .ok "".toList := by
  have hfile : (d.set ["x"] .directory).get? ([.text "real"] ++ [.text "learning_result.json"])
      = some (.file (Text.encode "") .all) := by
    rw [get?_set (by simp), if_neg (by simp)]
    exact h.result
  exact readText_file h.leads (by decide) hfile rfl

variable {α : Type} [Scalar α] [NumberText α]

lemma save (h : d.Detour) (p : Profile α) :
    ∃ fault, (⟨⟨"./x/../real"⟩⟩ : Store).save Profile.format p d
      = (.error (.disk fault), d.set ["x"] .directory) := by
  refine Store.save_of_blocked_draft (Store.isName_of_mem (Profile.fileName_mem α)) p h.made
    h.leads ?_
  rw [get?_set (by simp), if_neg (by simp)]
  exact h.draft

lemma load_ne (h : d.Detour) :
    ((⟨⟨"./x/../real"⟩⟩ : Store).load Profile.format (d.set ["x"] .directory)
      : Except (ProjectFault α) _) ≠ (⟨⟨"./x/../real"⟩⟩ : Store).load Profile.format d := by
  have hpath : (⟨⟨"./x/../real"⟩⟩ : Store).pathOf (Profile.format : SavedFormat α _)
      = Path.join ⟨"./x/../real"⟩ ⟨"learning_result.json"⟩ := rfl
  have hbefore := h.readText_before
  have hmade := h.readText_made
  rw [← hpath] at hbefore hmade
  rw [Store.load_of_missing hbefore]
  exact Store.load_ne_notSaved hmade _

end Disk.Detour

/-! ### Values beyond the depth of documents -/

/-- Lists in each other, to some depth. -/
def Json.nest {α : Type} : Nat → Json α
  | 0 => .list []
  | n + 1 => .list [nest n]

/-- A profile with a preference that is nested more deeply than any document that is read. -/
def Profile.deep : Profile WholeNumber :=
  { Profile.sample with preferences := SortedMap.empty.insert "style" (Json.nest 130) }

lemma Json.storable_nest {α : Type} [Scalar α] {n room : Nat} (h : n < room) :
    (nest n : Json α).Storable room := by
  obtain ⟨room, rfl⟩ := Nat.exists_eq_succ_of_ne_zero (Nat.ne_of_gt (Nat.zero_lt_of_lt h))
  induction n generalizing room with
  | zero => simp [nest, Storable, StorableItems]
  | succ n ih =>
    obtain ⟨room, rfl⟩ := Nat.exists_eq_succ_of_ne_zero (n := room) (by omega)
    simpa [nest, Storable, StorableItems] using ih room (by omega)

/-- Everything else about the profile is as it should be. -/
lemma Profile.storable_deep : deep.Storable 200 := by
  have hsample : sample.Storable 200 := storable_sample (by decide)
  refine ⟨hsample.strictness, hsample.conventions, hsample.rules, ?_, hsample.generatedAt⟩
  intro e he
  simp [deep, SortedMap.insert, SortedMap.upsertEntry] at he
  subst he
  exact Json.storable_nest (by decide)

lemma Profile.decode?_deep : (format : SavedFormat WholeNumber _).decode?
    ((format : SavedFormat WholeNumber _).encode deep).toList = none := by
  have hnone : ((format : SavedFormat WholeNumber _).ofDocument? deep.toJson.spelled).isNone
      = true := by
    decide +kernel
  rw [SavedFormat.decode?, SavedFormat.encode, Json.prettyText, String.toList_ofList,
    Document.parse?_layOut]
  exact Option.isNone_iff_eq_none.1 hnone

/-! ### All or nothing -/

namespace Store

variable {α β γ : Type} [NumberText α] {s : Store} {d e : Disk}

/-- A disk that is a tree, with no links in the directory of a store, and from no directory that is
missing does the path of the store go up. -/
structure Plain (s : Store) (d : Disk) : Prop where
  wellFormed : d.WellFormed
  settled : d.Settled s.dir
  noLink : ∀ place, d.Reaches (Disk.trunk s.dir) place →
    ∀ (name : String) target, d.get? (place ++ [.text name]) ≠ some (.link target)

lemma Plain.tidy (h : s.Plain d) : s.Tidy d :=
  ⟨h.wellFormed, h.settled, fun name place hleads => h.noLink place hleads.reaches name⟩

lemma Plain.tidy_here (h : (⟨⟨""⟩⟩ : Store).Plain d) : (⟨⟨"."⟩⟩ : Store).Tidy d := by
  refine ⟨h.wellFormed, (Disk.leads_here d).settled, fun name place hleads => ?_⟩
  obtain rfl := hleads.unique (Disk.leads_here d)
  exact h.noLink _ ⟨Disk.linkLimit, .refl⟩ name

omit [NumberText α] in
lemma ReadableDraft.here {format : SavedFormat α β}
    (h : (⟨⟨""⟩⟩ : Store).ReadableDraft format d) : (⟨⟨"."⟩⟩ : Store).ReadableDraft format d := by
  intro place hreaches
  obtain rfl := Disk.Leads.unique ⟨by decide, hreaches⟩ (Disk.leads_here d)
  exact h _ ⟨Disk.linkLimit, .refl⟩

/-- Saving a result leaves the results alone, or replaces it. -/
lemma save_plain (h : s.Plain d) {format : SavedFormat α β}
    (hformat : format.fileName ∈ resultNames) (value : β) :
    (∃ why e, s.save format value d = (.error why, e) ∧ s.SameTexts d e) ∨
      ∃ path e, s.save format value d = (.ok path, e) ∧
        s.Replaced format (format.encode value) d e := by
  have hname := isName_of_mem hformat
  by_cases hdir : s.dir.text = ""
  · obtain ⟨⟨text⟩⟩ := s
    obtain rfl : text = "" := hdir
    rcases hsave : (⟨⟨"."⟩⟩ : Store).save format value d with ⟨why | path, e⟩
    · refine Or.inl ⟨why, e, by rw [save_here hname, hsave]; rfl, fun name hmem => ?_⟩
      rw [readText_here e (isName_of_mem hmem), readText_here d (isName_of_mem hmem)]
      exact save_error h.tidy_here (by decide) hformat hsave name hmem
    · obtain ⟨-, hreplaced⟩ := save_ok h.tidy_here (by decide) hformat hsave
      refine Or.inr ⟨_, e, by rw [save_here hname, hsave]; rfl, ?_, fun name hmem hne => ?_, ?_⟩
      · exact fun hread => (readText_here e hname).trans (hreplaced.text hread.here)
      · rw [readText_here e (isName_of_mem hmem), readText_here d (isName_of_mem hmem)]
        exact hreplaced.others name hmem hne
      · rw [draftOf, Disk.targetItself, targetOf_here e false hname.draft]
        exact hreplaced.noDraft
  · rcases hsave : s.save format value d with ⟨why | path, e⟩
    · exact Or.inl ⟨why, e, rfl, save_error h.tidy hdir hformat hsave⟩
    · exact Or.inr ⟨path, e, rfl, (save_ok h.tidy hdir hformat hsave).2⟩

/-- Saving a value either fails and every result is loaded as before, or the value is the result of
its kind: the other result is loaded as before, there is nothing at the path of the draft, and the
value is loaded if it can be stored and passes its check, unless it was written over a draft that
cannot be read. -/
structure AllOrNothing (s : Store) (format : SavedFormat α β) (other : SavedFormat α γ)
    (storable : Prop) (value : β) (d : Disk) : Prop where
  failed : ∀ {why e}, s.save format value d = (.error why, e) →
    s.load format e = s.load format d ∧ s.load other e = s.load other d
  saved : ∀ {path e}, s.save format value d = (.ok path, e) →
    s.load other e = s.load other d ∧ ∃ place, e.targetItself (s.draftOf format) = .ok ⟨place, none⟩
  loaded : ∀ {path e}, s.save format value d = (.ok path, e) → s.ReadableDraft format d →
    storable → format.check value = .ok () → s.load format e = .ok value

lemma allOrNothing_of_plain (h : s.Plain d) {format : SavedFormat α β} {other : SavedFormat α γ}
    (hformat : format.fileName ∈ resultNames) (hother : other.fileName ∈ resultNames)
    (hne : other.fileName ≠ format.fileName) {storable : Prop} {value : β}
    (hdecode : storable → format.decode? (format.encode value).toList = some value) :
    s.AllOrNothing format other storable value d := by
  rcases save_plain h hformat value with ⟨why, e, hsave, hsame⟩ | ⟨path, e, hsave, hreplaced⟩
  · refine ⟨fun heq => ?_, fun heq => ?_, fun heq => ?_⟩
    · obtain ⟨-, rfl⟩ := Prod.mk.inj (hsave.symm.trans heq)
      exact ⟨load_congr (hsame _ hformat), load_congr (hsame _ hother)⟩
    all_goals
      rw [hsave] at heq
      cases heq
  · refine ⟨fun heq => ?_, fun heq => ?_, fun heq hread hstorable hcheck => ?_⟩
    · rw [hsave] at heq
      cases heq
    · obtain ⟨-, rfl⟩ := Prod.mk.inj (hsave.symm.trans heq)
      exact ⟨load_congr (hreplaced.others _ hother hne), hreplaced.noDraft⟩
    · obtain ⟨-, rfl⟩ := Prod.mk.inj (hsave.symm.trans heq)
      exact load_eq_ok_iff_check.2 ⟨_, hreplaced.text hread, hdecode hstorable, hcheck⟩

end Store

/-- Saving a profile or an overview is all or nothing, whatever there is in the directory of the
store apart from links.  What is saved is loaded unless its settings are nested more deeply than the
reader of documents goes. -/
theorem Store.save_all_or_nothing {α : Type} [Scalar α] [NumberText α] [LawfulNumberText α]
    {s : Store} {d : Disk} (h : s.Plain d) :
    (∀ p : Profile α, s.AllOrNothing Profile.format (Overview.format : SavedFormat α _)
      (p.Storable Document.depthLimit) p d) ∧
    ∀ o : Overview α, s.AllOrNothing Overview.format (Profile.format : SavedFormat α _)
      (o.Storable Document.depthLimit) o d := by
  have hne : (Overview.format : SavedFormat α _).fileName
      ≠ (Profile.format : SavedFormat α _).fileName := by
    simp [Overview.format, Profile.format]
  exact ⟨fun p => allOrNothing_of_plain h (Profile.fileName_mem α) (Overview.fileName_mem α) hne
      fun hp => SavedFormat.decode?_of_spelled (Profile.ofDocument?_spelled hp),
    fun o => allOrNothing_of_plain h (Overview.fileName_mem α) (Profile.fileName_mem α) hne.symm
      fun ho => SavedFormat.decode?_of_spelled (Overview.ofDocument?_spelled ho)⟩

/-- A disk with a directory in the stead of the draft of an overview. -/
def jammed : Disk :=
  ⟨[([".state"], .directory), ([".state", "integrated_learning_result.json.tmp"], .directory)], [],
    .none⟩

lemma wellFormed_jammed : jammed.WellFormed := Disk.wellFormed_of_entries rfl (by decide)

lemma leads_jammed : jammed.Leads ⟨"./.state"⟩ [".state"] := by
  refine ⟨by decide, Disk.linkLimit, ?_⟩
  exact .head (.here _ _ _) (.single (.down _ [] rfl))

lemma plain_jammed : (⟨⟨"./.state"⟩⟩ : Store).Plain jammed :=
  ⟨wellFormed_jammed, leads_jammed.settled,
    fun place hreaches name => Store.noLink_of_entries (s := ⟨⟨"./.state"⟩⟩)
      (by simp [jammed]) name place ⟨by decide, hreaches⟩⟩

lemma readableDraft_jammed : (⟨⟨"./.state"⟩⟩ : Store).ReadableDraft
    (Profile.format : SavedFormat WholeNumber _) jammed := by
  intro place hreaches
  obtain rfl := Disk.Leads.unique ⟨by decide, hreaches⟩ leads_jammed
  rfl

lemma exists_save_jammed (p : Profile WholeNumber) : ∃ path e,
    (⟨⟨"./.state"⟩⟩ : Store).save Profile.format p jammed = (.ok path, e) ∧
      (e.readText ((⟨⟨"./.state"⟩⟩ : Store).pathOf (Profile.format : SavedFormat WholeNumber _))
        = .ok (Profile.format.encode p).toList) := by
  have hname := Store.isName_of_mem (Profile.fileName_mem WholeNumber)
  obtain ⟨e, hsave, hpub⟩ := Store.exists_published (s := ⟨⟨"./.state"⟩⟩) Profile.format p
    wellFormed_jammed (Disk.makeDirectories_of_leads leads_jammed) leads_jammed hname rfl .none
    (by decide)
  exact ⟨_, e, hsave, hpub.readText hname (plain_jammed.tidy.noLink _) rfl⟩

/-- On this disk an overview cannot be saved and a profile can. -/
theorem save_all_or_nothing_jammed :
    let store : Store := ⟨⟨"./.state"⟩⟩
    store.Plain jammed ∧
    (∃ why e, store.save Overview.format Overview.sample jammed = (.error why, e) ∧
      (store.load Overview.format e : Except (ProjectFault WholeNumber) _)
        = store.load Overview.format jammed) ∧
    ∃ path e, store.save Profile.format Profile.sample jammed = (.ok path, e) ∧
      store.load Profile.format e = .ok Profile.sample := by
  intro store
  obtain ⟨hprofiles, hoverviews⟩ := Store.save_all_or_nothing (α := WholeNumber) plain_jammed
  obtain ⟨fault, hfailed⟩ := Store.save_of_blocked_draft (s := store)
    (Store.isName_of_mem (Overview.fileName_mem WholeNumber)) Overview.sample
    (Disk.makeDirectories_of_leads leads_jammed) leads_jammed rfl
  obtain ⟨path, e, hsaved, -⟩ := exists_save_jammed .sample
  exact ⟨plain_jammed, ⟨_, _, hfailed, ((hoverviews _).failed hfailed).1⟩, path, e, hsaved,
    (hprofiles _).loaded hsaved readableDraft_jammed (Profile.storable_sample (by decide)) rfl⟩

/-- A disk with a result in a directory, and a directory in the stead of the draft there. -/
def sidestepped : Disk :=
  ⟨[(["real"], .directory), (["real", "learning_result.json"], .file (Text.encode "") .all),
    (["real", "learning_result.json.tmp"], .directory)], [], .none⟩

/-- A disk with a draft that was left and can be written over, but not be read. -/
def draftSealed : Disk :=
  ⟨[([".state"], .directory), ([".state", "learning_result.json.tmp"], .file [] ⟨false, true⟩)], [],
    .none⟩

lemma leads_sealed : draftSealed.Leads ⟨"./.state"⟩ [".state"] := by
  refine ⟨by decide, Disk.linkLimit, ?_⟩
  exact .head (.here _ _ _) (.single (.down _ [] rfl))

lemma plain_sealed : (⟨⟨"./.state"⟩⟩ : Store).Plain draftSealed :=
  ⟨Disk.wellFormed_of_entries rfl (by decide), leads_sealed.settled,
    fun place hreaches name => Store.noLink_of_entries (s := ⟨⟨"./.state"⟩⟩)
      (by simp [draftSealed]) name place ⟨by decide, hreaches⟩⟩

/-- The draft is written over and moved, and what it is moved to cannot be read either. -/
lemma exists_save_sealed (p : Profile WholeNumber) : ∃ path e,
    (⟨⟨"./.state"⟩⟩ : Store).save Profile.format p draftSealed = (.ok path, e) ∧
      ((⟨⟨"./.state"⟩⟩ : Store).load Profile.format e
        : Except (ProjectFault WholeNumber) (Profile WholeNumber)) = .error (.disk .denied) := by
  have hname := Store.isName_of_mem (Profile.fileName_mem WholeNumber)
  obtain ⟨e, hsave, hpub⟩ := Store.exists_published (s := ⟨⟨"./.state"⟩⟩) Profile.format p
    plain_sealed.wellFormed (Disk.makeDirectories_of_leads leads_sealed) leads_sealed hname rfl
    (.file [] rfl) (by decide)
  exact ⟨_, e, hsave, Store.load_of_fault nofun
    (hpub.readText_denied hname (plain_sealed.tidy.noLink _) rfl)⟩

/-- The results are not left alone where the path of the store goes up from a directory that is
missing.  A value that is nested too deeply is saved and cannot be loaded, nor can any that is saved
over a draft that cannot be read. -/
theorem not_all_or_nothing :
    (sidestepped.WellFormed ∧ (∀ x ∈ sidestepped.entries, ∀ target, x.2 ≠ .link target) ∧
      Profile.sample.Storable Document.depthLimit ∧ Profile.sample.check = .ok () ∧
      ∃ why e, (⟨⟨"./x/../real"⟩⟩ : Store).save Profile.format .sample sidestepped
        = (.error why, e) ∧
        ((⟨⟨"./x/../real"⟩⟩ : Store).load Profile.format e : Except (ProjectFault WholeNumber) _)
          ≠ (⟨⟨"./x/../real"⟩⟩ : Store).load Profile.format sidestepped) ∧
    ((⟨⟨"./.state"⟩⟩ : Store).Plain jammed ∧ Profile.deep.Storable 200 ∧
      Profile.deep.check = .ok () ∧
      ∃ path e, (⟨⟨"./.state"⟩⟩ : Store).save Profile.format .deep jammed = (.ok path, e) ∧
        (⟨⟨"./.state"⟩⟩ : Store).load Profile.format e ≠ .ok Profile.deep) ∧
    (⟨⟨"./.state"⟩⟩ : Store).Plain draftSealed ∧
      ∃ path e,
        (⟨⟨"./.state"⟩⟩ : Store).save Profile.format .sample draftSealed = (.ok path, e) ∧
        (⟨⟨"./.state"⟩⟩ : Store).load Profile.format e ≠ .ok Profile.sample := by
  have hdetour : sidestepped.Detour := ⟨rfl, rfl, rfl, rfl, rfl, rfl⟩
  refine ⟨⟨Disk.wellFormed_of_entries rfl (by decide), by simp [sidestepped],
    Profile.storable_sample (by decide), rfl, ?_⟩, ⟨plain_jammed, Profile.storable_deep, rfl, ?_⟩,
    plain_sealed, ?_⟩
  · obtain ⟨fault, hsave⟩ := hdetour.save Profile.sample
    exact ⟨_, _, hsave, hdetour.load_ne⟩
  · obtain ⟨path, e, hsave, htext⟩ := exists_save_jammed .deep
    refine ⟨path, e, hsave, fun hload => ?_⟩
    obtain ⟨text, htext', hdecode, -⟩ := Store.load_eq_ok_iff_check.1 hload
    obtain rfl := Except.ok.inj (htext.symm.trans htext')
    rw [Profile.decode?_deep] at hdecode
    cases hdecode
  · obtain ⟨path, e, hsave, hload⟩ := exists_save_sealed .sample
    refine ⟨path, e, hsave, ?_⟩
    rw [hload]
    simp

end HouseStyle
