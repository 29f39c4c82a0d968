import HouseStyle.Proofs.Project.Listed
import HouseStyle.Proofs.Project.NewDirectories

/-!
# Directories along names

A path may go from a directory along names only.  If no link is met there, it ends at the place of
these names below the directory, and all directories that are made for it lie on the way to this
place (`makeDirectories_along`).  So nothing is changed but what is at the first name and below it
(`MakesAlong.sameOutside`).
-/

namespace HouseStyle

namespace Disk

variable {d e : Disk} {place : DiskPlace} {names : List EntryName}

/-- Whether no link is met along some names below a place. -/
def ClearAlong (d : Disk) (place : DiskPlace) (names : List EntryName) : Prop :=
  ∀ front ≠ [], front <+: names → ∀ target, d.get? (place ++ front) ≠ some (.link target)

/-- Whether two disks are the same but for what is at a place and below it. -/
structure SameOutside (d e : Disk) (place : DiskPlace) : Prop where
  home : e.home = d.home
  get? : ∀ q, ¬ place <+: q → e.get? q = d.get? q

lemma SameOutside.refl (d : Disk) (place : DiskPlace) : d.SameOutside d place :=
  ⟨rfl, fun _ _ => rfl⟩

lemma SameOutside.trans {f : Disk} (h : d.SameOutside e place) (h' : e.SameOutside f place) :
    d.SameOutside f place :=
  ⟨h'.home.trans h.home, fun q hq => (h'.get? q hq).trans (h.get? q hq)⟩

lemma ClearAlong.front {front : List EntryName} (h : d.ClearAlong place names)
    (hfront : front <+: names) : d.ClearAlong place front :=
  fun f hf hpre => h f hf (hpre.trans hfront)

lemma ClearAlong.tail {name : EntryName} (h : d.ClearAlong place (name :: names)) :
    d.ClearAlong (place ++ [name]) names := by
  intro front _ hfront target
  have := h (name :: front) (List.cons_ne_nil _ _) ((List.prefix_cons_inj name).2 hfront) target
  rwa [List.append_cons] at this

/-! ### Ways along names -/

/-- Along names without links a way ends at the names. -/
lemma place_of_follow {through : Bool} {links : Nat} {steps : List PathPart} {t : DiskTarget}
    (hclear : d.ClearAlong place names) (hsteps : steps.filter (· ≠ .here) = names.map .entry)
    (h : d.follow through links place steps = .ok t) : t.place = place ++ names := by
  induction steps generalizing place names with
  | nil =>
    obtain rfl : names = [] := by simpa using hsteps.symm
    rw [Disk.follow] at h
    rw [← Except.ok.inj h, List.append_nil]
  | cons part steps ih =>
    cases part with
    | here =>
      rw [Disk.follow] at h
      exact ih hclear (by simpa using hsteps) h
    | root | up => cases names <;> simp at hsteps
    | entry name =>
      obtain ⟨rest, rfl, hrest⟩ : ∃ rest, names = name :: rest ∧
          steps.filter (· ≠ .here) = rest.map .entry := by
        cases names with
        | nil => simp at hsteps
        | cons first rest =>
          rw [List.filter_cons_of_pos (by simp), List.map_cons, List.cons.injEq] at hsteps
          exact ⟨rest, by rw [PathPart.entry.inj hsteps.1], hsteps.2⟩
      have hlast : steps = [] → rest = [] := by
        rintro rfl
        simpa using hrest.symm
      have hnext := hclear [name] (List.cons_ne_nil _ _) (by simp)
      rw [Disk.follow] at h
      cases hentry : d.get? (place ++ [name]) with
      | none =>
        rw [hentry] at h
        simp only [List.isEmpty_iff] at h
        split at h
        next hnil => rw [← Except.ok.inj h, hlast hnil]
        next => cases h
      | some entry =>
        rw [hentry] at h
        cases entry with
        | directory =>
          rw [List.append_cons]
          exact ih hclear.tail hrest h
        | link target => exact absurd hentry (hnext target)
        | file bytes rights =>
          simp only [List.isEmpty_iff] at h
          split at h
          next hnil => rw [← Except.ok.inj h, hlast hnil]
          next => cases h

/-- The components of a path lead to the same directory as its way. -/
lemma Leads.reaches_parts {p : Path} (h : d.Leads p place) : d.Reaches p.parts place := by
  obtain ⟨first, later, htrunk, hparts, -⟩ := exists_trunk h.nonempty
  have hfollow : d.follow true linkLimit d.home (p.parts ++ [.here])
      = .ok ⟨place, some .directory⟩ := by
    have hway := h.follow_trunk (Or.inr rfl)
    rw [targetOf, if_neg (by simp), htrunk, ← List.singleton_append] at hway
    rw [hparts, ← List.singleton_append, follow_filter d true (by simp)]
    exact hway
  obtain ⟨q, hq⟩ := exists_reaches_of_follow hfollow
  obtain ⟨links, hrest⟩ := hq.follow
  rw [hrest true _ (Or.inl rfl), Disk.follow, Disk.follow] at hfollow
  rwa [← (DiskTarget.mk.inj (Except.ok.inj hfollow)).1]

/-! ### Directories along names -/

/-- A way to a directory, from where some names can be followed without meeting a link. -/
structure Opens (d : Disk) (way : List PathPart) (place : DiskPlace) (names : List EntryName) :
    Prop where
  reaches : d.Reaches way place
  directory : d.get? place = some .directory
  clear : d.ClearAlong place names

/-- A disk to which directories are added one after another, each of them along some names. -/
abbrev MakesAlong (d : Disk) (place : DiskPlace) (names : List EntryName) : Disk → Prop :=
  Relation.ReflTransGen (fun d e => ∃ parts q name, d.Made e parts q name ∧
    ∃ front ≠ [], front <+: names ∧ q ++ [name] = place ++ front) d

lemma MakesAlong.makes (h : d.MakesAlong place names e) : d.Makes e := by
  induction h with
  | refl => exact .refl
  | tail _ hstep ih =>
    obtain ⟨parts, q, name, hmade, -⟩ := hstep
    exact ih.tail ⟨parts, q, name, hmade⟩

lemma Grown.clearAlong (h : d.Grown e) (hclear : d.ClearAlong place names) :
    e.ClearAlong place names := by
  intro front hnil hfront target
  rcases h.get? (place ++ front) with heq | ⟨-, hdir⟩
  · rw [heq]
    exact hclear front hnil hfront target
  · rw [hdir]
    simp

lemma Opens.mono {way : List PathPart} (h : d.Opens way place names) (hgrown : d.Grown e) :
    e.Opens way place names :=
  ⟨h.reaches.mono hgrown.keeps, hgrown.keeps.get? h.directory (Or.inl rfl),
    hgrown.clearAlong h.clear⟩

/-- A directory that is made at the end of some names is there. -/
lemma Made.place_eq {way steps : List PathPart} {q : DiskPlace} {name : EntryName}
    {front : List EntryName} (h : d.Made e (way ++ steps) q name) (hopens : d.Opens way place names)
    (hsteps : steps.filter (· ≠ .here) = front.map .entry) (hfront : front <+: names) :
    front ≠ [] ∧ q ++ [name] = place ++ front := by
  obtain ⟨links, hends⟩ := h.ends
  obtain ⟨links', hway⟩ := hopens.reaches.follow
  have hfollow := hends.follow true [] (Or.inl rfl)
  rw [h.free, List.append_nil, List.append_nil, if_pos rfl, hway true _ (Or.inl rfl)] at hfollow
  have hplace := place_of_follow (hopens.clear.front hfront) hsteps hfollow
  refine ⟨?_, hplace⟩
  rintro rfl
  have hfree := h.free
  rw [show q ++ [name] = place ++ [] from hplace, List.append_nil, hopens.directory] at hfree
  cases hfree

lemma ensureDirectory_along {way steps : List PathPart} {front : List EntryName}
    (hopens : d.Opens way place names) (hsteps : steps.filter (· ≠ .here) = front.map .entry)
    (hfront : front <+: names) :
    d.MakesAlong place names (d.ensureDirectory (way ++ steps)).2 := by
  rcases ensureDirectory_cases d (way ++ steps) with ⟨q, -, h⟩ | ⟨fault, -, h⟩ |
    ⟨e, q, name, hmade, h⟩
  · rw [h]
  · rw [h]
  · rw [h]
    obtain ⟨hnil, hplace⟩ := hmade.place_eq hopens hsteps hfront
    exact .single ⟨_, q, name, hmade, front, hnil, hfront, hplace⟩

lemma ensureBelow_along {way steps : List PathPart} {front : List EntryName}
    {above : Disk → DiskChange} (hopens : d.Opens way place names)
    (hsteps : steps.filter (· ≠ .here) = front.map .entry) (hfront : front <+: names)
    (habove : d.MakesAlong place names (above d).2) :
    d.MakesAlong place names (d.ensureBelow (way ++ steps) above).2 := by
  rcases ensureBelow_cases d (way ++ steps) above with heq | ⟨fault, -, heq⟩ | heq
  · rw [heq]
    exact ensureDirectory_along hopens hsteps hfront
  · rw [heq]
    exact habove
  · rw [heq]
    exact habove.trans
      (ensureDirectory_along (hopens.mono habove.makes.grown) hsteps hfront)

lemma filter_entries (front : List EntryName) :
    (front.map PathPart.entry).filter (· ≠ .here) = front.map .entry :=
  List.filter_eq_self.2 (by simp)

lemma makeDirectoriesUp_along {way : List PathPart} (hopens : d.Opens way place names)
    {front : List EntryName} (hfront : front <+: names) :
    d.MakesAlong place names (makeDirectoriesUp (way ++ front.map PathPart.entry).reverse d).2 := by
  -- the induction is from the directory that is there to the last one
  induction front using List.reverseRecOn with
  | nil =>
    rw [makeDirectoriesUp_of_reaches (q := place)]
    simpa using hopens.reaches
  | append_singleton front name ih =>
    have habove := ih ((List.prefix_append _ _).trans hfront)
    have hreverse : (way ++ (front ++ [name]).map PathPart.entry).reverse
        = .entry name :: (way ++ front.map PathPart.entry).reverse := by simp
    have hway : (PathPart.entry name :: (way ++ front.map PathPart.entry).reverse).reverse
        = way ++ (front ++ [name]).map PathPart.entry := by simp
    rw [hreverse, makeDirectoriesUp, hway]
    exact ensureBelow_along hopens (filter_entries _) hfront habove

/-- The directories that are made for a path of names below a directory are along these names. -/
theorem makeDirectories_along {root q : Path} (hd : d.WellFormed) (hleads : d.Leads root place)
    (hq : q.parts = names.map .entry) (hnil : names ≠ []) (hclear : d.ClearAlong place names) :
    d.MakesAlong place names (d.makeDirectories (root.join q)).2 := by
  obtain ⟨-, hparts, hsteps⟩ := parts_join hleads.nonempty hq hnil
  have hdirectory := hd.get?_leads hleads
  have htrunk : d.Opens (trunk root) place names := ⟨hleads.reaches, hdirectory, hclear⟩
  have hroot : d.Opens root.parts place names := ⟨hleads.reaches_parts, hdirectory, hclear⟩
  have habove : d.MakesAlong place names
      (makeDirectoriesUp (root.join q).parts.reverse.tail d).2 := by
    have htail : (root.join q).parts.reverse.tail
        = (root.parts ++ names.dropLast.map PathPart.entry).reverse := by
      rw [hparts, hq, List.tail_reverse, List.dropLast_append_of_ne_nil (by simpa using hnil),
        List.map_dropLast]
    rw [htail]
    exact makeDirectoriesUp_along hroot (List.dropLast_prefix names)
  have hway : ∃ steps, wayToName (root.join q) = trunk root ++ steps ∧
      steps.filter (· ≠ .here) = names.map .entry := by
    have htrunk := trunk_join hleads.nonempty hq hnil
    rcases wayToName_eq_trunk (root.join q) with heq | heq
    · exact ⟨trunk q, by rw [heq, htrunk], hsteps.trans hq⟩
    · refine ⟨trunk q ++ [.here], by rw [heq, htrunk, List.append_assoc], ?_⟩
      rw [List.filter_append, hsteps, hq]
      simp
  obtain ⟨steps, hway, hsteps⟩ := hway
  have hne : ¬ (root.join q).parts.isEmpty = true := by
    rw [hparts, hq]
    simpa using fun _ => hnil
  rw [makeDirectories, if_neg hne, hway]
  exact ensureBelow_along htrunk hsteps List.prefix_rfl habove

lemma MakesAlong.sameOutside {name : EntryName} (h : d.MakesAlong place (name :: names) e) :
    d.SameOutside e (place ++ [name]) := by
  induction h with
  | refl => exact .refl _ _
  | tail _ hstep ih =>
    obtain ⟨parts, q, last, hmade, front, hnil, hfront, hplace⟩ := hstep
    refine ih.trans ⟨hmade.grown.home, fun r hr => ?_⟩
    rw [hmade.get?, if_neg]
    rintro rfl
    obtain ⟨first, rest, rfl⟩ := List.exists_cons_of_ne_nil hnil
    obtain ⟨rfl, -⟩ := List.cons_prefix_cons.1 hfront
    exact hr (hplace ▸ (List.prefix_append_right_inj place).2 (by simp))

/-- A path of names below a directory leads to the place at the names. -/
lemma Leads.place_join {root q : Path} {target : DiskPlace} (h : d.Leads (root.join q) target)
    (hleads : d.Leads root place) (hq : q.parts = names.map .entry) (hnil : names ≠ [])
    (hclear : d.ClearAlong place names) : target = place ++ names := by
  obtain ⟨-, -, hsteps⟩ := parts_join hleads.nonempty hq hnil
  obtain ⟨links, hfollow⟩ := hleads.reaches.follow
  have htarget := h.reaches.follow_nil
  rw [trunk_join hleads.nonempty hq hnil, hfollow true _ (Or.inl rfl)] at htarget
  exact place_of_follow hclear (hsteps.trans hq) htarget

lemma Makes.listed (h : d.Makes e) (hd : d.Listed) : e.Listed := by
  induction h with
  | refl => exact hd
  | tail _ hmade ih =>
    obtain ⟨parts, q, name, hmade⟩ := hmade
    rw [hmade.eq_set]
    exact ih.set _ _

end Disk

end HouseStyle
