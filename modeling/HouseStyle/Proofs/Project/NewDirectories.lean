import HouseStyle.Proofs.Project.Place

/-!
# Making directories

To make a directory with all directories above it is to make one directory after another, each at
the end of a way that led to nothing (`Made`, `Makes`).  Nothing that was there is changed, so the
disk is `Grown`.  If the path leads to a directory already, nothing is made at all.

What is made does not come into the way of what is read.  Unless the path goes up from a directory
that is missing, a disk on which directories are made for the path had nothing at any entry of the
directory at its end, and has nothing there afterwards (`makeDirectories_bare`).
-/

namespace HouseStyle

namespace Disk

variable {d e f : Disk} {parts : List PathPart}

/-! ### One directory -/

/-- A disk with one more directory, at the end of a way that led to nothing. -/
structure Made (d e : Disk) (parts : List PathPart) (place : DiskPlace) (name : EntryName) :
    Prop where
  ends : ∃ links, d.Ends parts links place name []
  free : d.get? (place ++ [name]) = none
  eq_set : e = d.set (place ++ [name]) .directory

/-- A disk to which directories are added. -/
structure Grown (d e : Disk) : Prop where
  home : e.home = d.home
  limits : e.limits = d.limits
  get? : ∀ q, e.get? q = d.get? q ∨ d.get? q = none ∧ e.get? q = some .directory

lemma Grown.keeps (h : d.Grown e) : d.Keeps e := by
  refine ⟨h.home, fun {q} entry hq _ => ?_⟩
  rcases h.get? q with heq | ⟨hnone, -⟩
  · rw [heq, hq]
  · rw [hnone] at hq
    cases hq

variable {place : DiskPlace} {name : EntryName}

lemma Made.get? (h : d.Made e parts place name) (q : DiskPlace) :
    e.get? q = if q = place ++ [name] then some .directory else d.get? q := by
  rw [h.eq_set, get?_set (by simp)]

lemma Made.grown (h : d.Made e parts place name) : d.Grown e := by
  refine ⟨by rw [h.eq_set]; rfl, by rw [h.eq_set]; rfl, fun q => ?_⟩
  rw [h.get?]
  split_ifs with hq
  · exact Or.inr ⟨hq ▸ h.free, rfl⟩
  · exact Or.inl rfl

lemma Made.wellFormed (h : d.Made e parts place name) (hd : d.WellFormed) : e.WellFormed := by
  obtain ⟨links, hwalk, -⟩ := h.ends
  have hplace : d.get? place = some .directory := hd.walks hwalk hd.home
  have hkeep := h.grown.keeps
  refine ⟨?_, fun q n hq => ?_⟩
  · rw [hkeep.home]
    exact hkeep.get? hd.home (Or.inl rfl)
  · refine hkeep.get? ?_ (Or.inl rfl)
    rw [h.get?] at hq
    split_ifs at hq with heq
    · obtain ⟨rfl, -⟩ := List.append_inj' heq rfl
      exact hplace
    · exact hd.above q n hq

lemma Made.reaches (h : d.Made e parts place name) : e.Reaches parts (place ++ [name]) := by
  obtain ⟨links, hwalk, -⟩ := h.ends
  have hlast : e.Step ⟨links, place, [.entry name]⟩ ⟨links, place ++ [name], []⟩ :=
    .down links [] (by rw [h.get?, if_pos rfl])
  refine ⟨links, ?_⟩
  rw [h.grown.home]
  exact (hwalk.mono h.grown.keeps).tail hlast

/-- What becomes of a disk when a directory is to be at the end of a way. -/
lemma ensureDirectory_cases (d : Disk) (parts : List PathPart) :
    (∃ q, d.targetOf true parts = .ok ⟨q, some .directory⟩ ∧
      d.ensureDirectory parts = (.ok (), d)) ∨
    (∃ fault, (∀ q, d.targetOf true parts ≠ .ok ⟨q, some .directory⟩) ∧
      d.ensureDirectory parts = (.error fault, d)) ∨
    ∃ e place name, d.Made e parts place name ∧ d.ensureDirectory parts = (.ok (), e) := by
  rw [ensureDirectory, makeDirectory]
  cases hitself : d.targetOf false parts with
  | error fault =>
    simp only
    split
    next q hq => exact Or.inl ⟨q, hq, rfl⟩
    next hne => exact Or.inr (Or.inl ⟨fault, hne, rfl⟩)
  | ok t =>
    obtain ⟨q, thing⟩ := t
    cases thing with
    | some entry =>
      simp only
      split
      next q hq => exact Or.inl ⟨q, hq, rfl⟩
      next hne => exact Or.inr (Or.inl ⟨_, hne, rfl⟩)
    | none =>
      have hfollow : d.follow false linkLimit d.home parts = .ok ⟨q, none⟩ := by
        rw [targetOf] at hitself
        split at hitself
        · cases hitself
        · exact hitself
      have hthrough := follow_through (fun q target => by rw [hfollow]; simp)
      obtain ⟨links, place, name, hends, rfl, hfree⟩ :=
        exists_ends_of_follow (hthrough.trans hfollow)
      cases hrefused : d.limits.refusal? (.makeDirectory (place ++ [name])) with
      | none =>
        simp only [unlessRefused, hrefused]
        exact Or.inr (Or.inr ⟨_, place, name, ⟨⟨links, hends⟩, hfree, rfl⟩, rfl⟩)
      | some reason =>
        simp only [unlessRefused, hrefused]
        split
        next q hq => exact Or.inl ⟨q, hq, rfl⟩
        next hne => exact Or.inr (Or.inl ⟨_, hne, rfl⟩)

/-- Where there is a directory already, nothing is made. -/
lemma ensureDirectory_of_target {q : DiskPlace}
    (h : d.targetOf true parts = .ok ⟨q, some .directory⟩) :
    d.ensureDirectory parts = (.ok (), d) := by
  rcases ensureDirectory_cases d parts with ⟨_, -, heq⟩ | ⟨fault, hne, -⟩ |
    ⟨e, place, name, hmade, -⟩
  · exact heq
  · exact absurd h (hne q)
  · obtain ⟨links, hends⟩ := hmade.ends
    have hfollow := hends.follow true [] (Or.inl rfl)
    rw [hmade.free, List.append_nil, targetOf] at *
    split at h
    · cases h
    · rw [hfollow] at h
      cases h

lemma ensureDirectory_ok (h : d.ensureDirectory parts = (.ok (), e)) :
    ∃ q, e.targetOf true parts = .ok ⟨q, some .directory⟩ := by
  rcases ensureDirectory_cases d parts with ⟨q, hq, heq⟩ | ⟨fault, -, heq⟩ |
    ⟨e', place, name, hmade, heq⟩
  · rw [h] at heq
    cases heq
    exact ⟨q, hq⟩
  · rw [h] at heq
    cases heq
  · rw [h] at heq
    cases heq
    refine ⟨place ++ [name], ?_⟩
    rw [targetOf, if_neg, hmade.reaches.follow_nil]
    rw [List.isEmpty_iff]
    rintro rfl
    obtain ⟨links, hwalk, -⟩ := hmade.ends
    rcases Relation.ReflTransGen.cases_head hwalk with heq | ⟨w, hstep, -⟩
    · cases heq
    · cases hstep

/-! ### One directory after another -/

/-- A disk to which directories are added one after another. -/
abbrev Makes : Disk → Disk → Prop :=
  Relation.ReflTransGen fun d e => ∃ parts place name, d.Made e parts place name

lemma Makes.grown (h : d.Makes e) : d.Grown e := by
  induction h with
  | refl => exact ⟨rfl, rfl, fun _ => Or.inl rfl⟩
  | tail _ hmade ih =>
    obtain ⟨parts, place, name, hmade⟩ := hmade
    have hgrown := hmade.grown
    refine ⟨hgrown.home.trans ih.home, hgrown.limits.trans ih.limits, fun q => ?_⟩
    rcases hgrown.get? q with heq | ⟨hnone, hdir⟩
    · rw [heq]
      exact ih.get? q
    · rcases ih.get? q with heq | ⟨-, hdir'⟩
      · exact Or.inr ⟨heq ▸ hnone, hdir⟩
      · rw [hnone] at hdir'
        cases hdir'

lemma Makes.wellFormed (h : d.Makes e) (hd : d.WellFormed) : e.WellFormed := by
  induction h with
  | refl => exact hd
  | tail _ hmade ih =>
    obtain ⟨parts, place, name, hmade⟩ := hmade
    exact hmade.wellFormed ih

lemma ensureDirectory_makes (d : Disk) (parts : List PathPart) :
    d.Makes (d.ensureDirectory parts).2 := by
  rcases ensureDirectory_cases d parts with ⟨q, -, h⟩ | ⟨fault, -, h⟩ |
    ⟨e, place, name, hmade, h⟩
  · rw [h]
  · rw [h]
  · rw [h]
    exact .single ⟨parts, place, name, hmade⟩

/-- What becomes of a disk when the directories above may have to be made as well. -/
lemma ensureBelow_cases (d : Disk) (parts : List PathPart) (above : Disk → DiskChange) :
    d.ensureBelow parts above = d.ensureDirectory parts ∨
    (∃ fault, (above d).1 = .error fault ∧ d.ensureBelow parts above
      = (.error fault, (above d).2)) ∨
    d.ensureBelow parts above = (above d).2.ensureDirectory parts := by
  rw [ensureBelow]
  rcases ensureDirectory_cases d parts with ⟨q, -, h⟩ | ⟨fault, -, h⟩ |
    ⟨e, place, name, hmade, h⟩
  · rw [h]
    exact Or.inl rfl
  · rw [h]
    cases fault with
    | missing =>
      simp only
      split
      next e habove => exact Or.inr (Or.inr (by rw [habove]))
      next fault e habove => exact Or.inr (Or.inl ⟨fault, by rw [habove], by rw [habove]⟩)
    | _ => exact Or.inl rfl
  · rw [h]
    exact Or.inl rfl

lemma ensureBelow_makes {above : Disk → DiskChange} (h : d.Makes (above d).2) :
    d.Makes (d.ensureBelow parts above).2 := by
  rcases ensureBelow_cases d parts above with heq | ⟨fault, -, heq⟩ | heq
  · rw [heq]
    exact ensureDirectory_makes d parts
  · rw [heq]
    exact h
  · rw [heq]
    exact h.trans (ensureDirectory_makes _ parts)

lemma makeDirectoriesUp_makes (parts : List PathPart) (d : Disk) :
    d.Makes (makeDirectoriesUp parts d).2 := by
  induction parts with
  | nil => exact .refl
  | cons last above ih => exact ensureBelow_makes ih

lemma makeDirectories_makes (d : Disk) (p : Path) : d.Makes (d.makeDirectories p).2 := by
  rw [makeDirectories]
  split
  · exact .refl
  · exact ensureBelow_makes (makeDirectoriesUp_makes _ d)

lemma ensureBelow_of_target {above : Disk → DiskChange} {q : DiskPlace}
    (h : d.targetOf true parts = .ok ⟨q, some .directory⟩) :
    d.ensureBelow parts above = (.ok (), d) := by
  rw [ensureBelow, ensureDirectory_of_target h]

/-- The directory at the end of a path need not be made. -/
theorem makeDirectories_of_leads {p : Path} (h : d.Leads p place) :
    d.makeDirectories p = (.ok (), d) := by
  rw [makeDirectories]
  split
  · rfl
  · exact ensureBelow_of_target (h.follow_trunk (wayToName_eq_trunk p))

/-- A path for which directories were made leads to a directory. -/
theorem exists_leads_of_makeDirectories {p : Path} (hp : p.text ≠ "")
    (h : d.makeDirectories p = (.ok (), e)) : ∃ place, e.Leads p place := by
  obtain ⟨first, later, -, hparts, -⟩ := exists_trunk hp
  rw [makeDirectories, if_neg (by rw [hparts]; simp)] at h
  obtain ⟨q, hq⟩ : ∃ q, e.targetOf true (wayToName p) = .ok ⟨q, some .directory⟩ := by
    rcases ensureBelow_cases d (wayToName p) (makeDirectoriesUp p.parts.reverse.tail)
      with heq | ⟨fault, -, heq⟩ | heq
    · exact ensureDirectory_ok (heq.symm.trans h)
    · rw [h] at heq
      cases heq
    · exact ensureDirectory_ok (heq.symm.trans h)
  exact exists_leads_of_targetOf hp (wayToName_eq_trunk p) hq

/-! ### Ways to directories without entries -/

/-- Whether a way leads to nothing. -/
def Vacant (d : Disk) (parts : List PathPart) : Prop :=
  d.follow false linkLimit d.home parts = .error .missing ∨
    ∃ q, d.follow false linkLimit d.home parts = .ok ⟨q, none⟩

/-- Whether all entries of the directory at the end of a way are missing. -/
def Bare (d : Disk) (parts : List PathPart) : Prop := ∀ name, d.Vacant (parts ++ [.entry name])

lemma Vacant.follow_true (h : d.Vacant parts) :
    d.follow true linkLimit d.home parts = d.follow false linkLimit d.home parts := by
  refine follow_through fun q target heq => ?_
  rcases h with h | ⟨q', h⟩
  · rw [h] at heq
    cases heq
  · rw [h] at heq
    cases heq

lemma Vacant.append (h : d.Vacant parts) {rest : List PathPart} (hrest : rest ≠ []) :
    d.follow false linkLimit d.home (parts ++ rest) = .error .missing := by
  have htrue := h.follow_true
  rcases reaches_or_ends d parts with ⟨q, hreaches⟩ | ⟨links, place, name, left, hends⟩
  · rw [hreaches.follow_nil] at htrue
    rcases h with h | ⟨q', h⟩ <;> rw [h] at htrue <;> cases htrue
  · have hend := hends.follow true [] (Or.inl rfl)
    rw [List.append_nil, htrue] at hend
    rw [hends.follow false rest (Or.inr hrest)]
    cases hnext : d.get? (place ++ [name]) with
    | none => simp [hrest]
    | some entry =>
      rw [hnext] at hend
      exfalso
      rcases h with h | ⟨q', h⟩ <;> rw [h] at hend <;> cases entry <;> simp only at hend <;>
        first
        | cases hend
        | (split at hend <;> cases hend)

lemma follow_here {links : Nat} {through : Bool} {rest : List PathPart} (hrest : rest ≠ []) :
    d.follow through links place (parts ++ .here :: rest)
      = d.follow through links place (parts ++ rest) := by
  induction links, place, parts using Disk.follow.induct d true with
  | case1 links place => rw [List.nil_append, Disk.follow, List.nil_append]
  | case2 links place more ih | case3 links place more ih | case4 links place more ih =>
    rw [List.cons_append, Disk.follow, ih, List.cons_append, Disk.follow]
  | case5 links place name more next hnext hmore | case6 links place name more next hnext hmore =>
    rw [List.cons_append, Disk.follow, List.cons_append, Disk.follow, hnext]
    simp [hrest]
  | case7 links place name more next hnext ih =>
    rw [List.cons_append, Disk.follow, List.cons_append, Disk.follow, hnext]
    exact ih
  | case8 links place name more next target hnext hend => simp at hend
  | case9 place name more next target hnext hend =>
    rw [List.cons_append, Disk.follow, List.cons_append, Disk.follow, hnext]
    simp [hrest]
  | case10 place name more next target hnext hend links ih =>
    rw [List.append_assoc, List.append_assoc] at ih
    rw [List.cons_append, Disk.follow, List.cons_append, Disk.follow, hnext]
    simpa [hrest] using ih
  | case11 links place name more next entry hdir hlink hnext hmore
  | case12 links place name more next entry hdir hlink hnext hmore =>
    rw [List.cons_append, Disk.follow, List.cons_append, Disk.follow, hnext]
    cases entry with
    | directory => exact absurd rfl hdir
    | link target => exact absurd rfl (hlink target)
    | file bytes rights => simp [hrest]

/-- Dots on the way make no difference. -/
lemma follow_filter (d : Disk) (through : Bool) {rest : List PathPart} (hrest : rest ≠ [])
    (parts later : List PathPart) :
    d.follow through linkLimit d.home (parts ++ later.filter (· ≠ .here) ++ rest)
      = d.follow through linkLimit d.home (parts ++ later ++ rest) := by
  induction later generalizing parts with
  | nil => rfl
  | cons part later ih =>
    by_cases hpart : part = .here
    · rw [List.filter_cons_of_neg (by simpa using hpart), ih parts, hpart, List.append_assoc,
        List.append_assoc, List.cons_append, follow_here (by simp [hrest])]
    · rw [List.filter_cons_of_pos (by simpa using hpart), List.append_cons parts, ih,
        ← List.append_cons parts]

lemma bare_filter (parts later : List PathPart) :
    d.Bare (parts ++ later.filter (· ≠ .here)) ↔ d.Bare (parts ++ later) := by
  have hfollow (name : EntryName) := d.follow_filter false
    (List.cons_ne_nil (PathPart.entry name) []) parts later
  simp only [Bare, Vacant, hfollow]

lemma Bare.concat (h : d.Bare parts) {part : PathPart}
    (hpart : (∃ name, part = .entry name) ∨ part = .here) : d.Bare (parts ++ [part]) := by
  rcases hpart with ⟨name, rfl⟩ | rfl
  · exact fun _ => Or.inl ((h name).append (List.cons_ne_nil _ _))
  · exact (bare_filter parts [.here]).1 (by simpa using h)

/-- A way to a directory that was just made. -/
lemma Made.bare (h : d.Made e parts place name) (hd : d.WellFormed) :
    d.Bare parts ∧ e.Bare parts := by
  have hfree : d.get? (place ++ [name]) ≠ some .directory := by
    rw [h.free]
    simp
  constructor
  · obtain ⟨links, hends⟩ := h.ends
    intro n
    refine Or.inl ?_
    rw [hends.follow false _ (Or.inr (List.cons_ne_nil _ _)), h.free]
    simp
  · obtain ⟨links, hfollow⟩ := h.reaches.follow
    intro n
    refine Or.inr ⟨place ++ [name] ++ [n], ?_⟩
    rw [hfollow false _ (Or.inr (List.cons_ne_nil _ _)), follow_entry, h.get?, if_neg (by simp),
      hd.get?_append hfree (List.cons_ne_nil _ _)]

/-- Nothing was changed, or nothing can be seen of it at the end of a way. -/
def Unseen (d e : Disk) (parts : List PathPart) : Prop := e = d ∨ d.Bare parts ∧ e.Bare parts

lemma ensureDirectory_unseen (hd : d.WellFormed) (parts : List PathPart) :
    d.Unseen (d.ensureDirectory parts).2 parts := by
  rcases ensureDirectory_cases d parts with ⟨q, -, h⟩ | ⟨fault, -, h⟩ |
    ⟨e, place, name, hmade, h⟩
  · rw [h]
    exact Or.inl rfl
  · rw [h]
    exact Or.inl rfl
  · rw [h]
    exact Or.inr (hmade.bare hd)

lemma ensureBelow_unseen (hd : d.WellFormed) (parts : List PathPart) {above : Disk → DiskChange}
    (hmakes : d.Makes (above d).2) (habove : d.Unseen (above d).2 parts) :
    d.Unseen (d.ensureBelow parts above).2 parts := by
  rcases ensureBelow_cases d parts above with heq | ⟨fault, -, heq⟩ | heq
  · rw [heq]
    exact ensureDirectory_unseen hd parts
  · rw [heq]
    exact habove
  · rw [heq]
    have hlast := ensureDirectory_unseen (hmakes.wellFormed hd) parts
    rcases habove with hsame | ⟨hbefore, hafter⟩
    · rw [hsame] at hlast ⊢
      exact hlast
    · rcases hlast with hsame | ⟨-, hlast⟩
      · rw [hsame]
        exact Or.inr ⟨hbefore, hafter⟩
      · exact Or.inr ⟨hbefore, hlast⟩

/-- Whether a way only goes on to entries from where it leads to no directory. -/
def SettledWay (d : Disk) (parts : List PathPart) : Prop :=
  ∀ front part back, parts = front ++ part :: back →
    ((∃ name, part = .entry name) ∨ part = .here) ∨ ∃ q, d.Reaches front q

lemma SettledWay.front {front back : List PathPart} (h : d.SettledWay (front ++ back)) :
    d.SettledWay front := by
  rintro start part rest rfl
  exact h start part (rest ++ back) (by simp)

lemma makeDirectoriesUp_of_reaches {q : DiskPlace} (h : d.Reaches parts.reverse q) :
    (makeDirectoriesUp parts d).2 = d := by
  cases parts with
  | nil => rfl
  | cons last above =>
    rw [makeDirectoriesUp, ensureBelow_of_target (q := q)]
    rw [targetOf, if_neg (by simp), h.follow_nil]

/-- The step from the directories above to the next one. -/
lemma Unseen.concat {above : List PathPart} {last : PathPart}
    (h : d.Unseen (makeDirectoriesUp above d).2 above.reverse)
    (hs : d.SettledWay (above.reverse ++ [last])) :
    d.Unseen (makeDirectoriesUp above d).2 (above.reverse ++ [last]) := by
  rcases hs above.reverse last [] rfl with hlast | ⟨q, hreaches⟩
  · rcases h with hsame | ⟨hbefore, hafter⟩
    · exact Or.inl hsame
    · exact Or.inr ⟨hbefore.concat hlast, hafter.concat hlast⟩
  · exact Or.inl (makeDirectoriesUp_of_reaches hreaches)

lemma makeDirectoriesUp_unseen (hd : d.WellFormed) (parts : List PathPart)
    (hs : d.SettledWay parts.reverse) :
    d.Unseen (makeDirectoriesUp parts d).2 parts.reverse := by
  induction parts with
  | nil => exact Or.inl rfl
  | cons last above ih =>
    rw [List.reverse_cons] at hs ⊢
    rw [makeDirectoriesUp, List.reverse_cons]
    exact ensureBelow_unseen hd _ (makeDirectoriesUp_makes above d) ((ih hs.front).concat hs)

/-- Whether each directory is there from which a path goes up. -/
def Settled (d : Disk) (p : Path) : Prop :=
  ∀ front back, p.parts = front ++ .up :: back → ∃ q, d.Reaches front q

lemma Settled.way {p : Path} (h : d.Settled p) (hp : p.text ≠ "") : d.SettledWay p.parts := by
  obtain ⟨first, later, -, hparts, hroot⟩ := exists_trunk hp
  intro front part back heq
  cases part with
  | entry name => exact Or.inl (Or.inl ⟨name, rfl⟩)
  | here => exact Or.inl (Or.inr rfl)
  | up => exact Or.inr (h front back heq)
  | root =>
    -- only the first component can be the root
    cases front with
    | nil => exact Or.inr ⟨d.home, linkLimit, .refl⟩
    | cons start front =>
      rw [hparts, List.cons_append, List.cons.injEq] at heq
      have hmem : PathPart.root ∈ later.filter (· ≠ .here) := by
        rw [heq.2]
        simp
      exact absurd (List.mem_filter.1 hmem).1 hroot

/-- A path to a directory only goes up from directories. -/
lemma Leads.settled {p : Path} (h : d.Leads p place) : d.Settled p := by
  obtain ⟨first, later, htrunk, hparts, -⟩ := exists_trunk h.nonempty
  have hfollow := h.follow_trunk (Or.inr rfl)
  rw [targetOf, if_neg (by simp), htrunk, ← List.singleton_append, ← follow_filter d true (by simp),
    List.singleton_append, ← hparts] at hfollow
  intro front back heq
  rw [heq, List.append_assoc] at hfollow
  exact exists_reaches_of_follow hfollow

/-- Nothing can be seen of the directories that are made for a path, unless it goes up from one of
them. -/
theorem makeDirectories_unseen (hd : d.WellFormed) {p : Path} (hp : p.text ≠ "")
    (hs : d.Settled p) : d.Unseen (d.makeDirectories p).2 (trunk p) := by
  obtain ⟨first, later, htrunk, hparts, -⟩ := exists_trunk hp
  have hs := hs.way hp
  have hnil : p.parts ≠ [] := by
    rw [hparts]
    exact List.cons_ne_nil _ _
  rw [makeDirectories, if_neg (by simpa using hnil)]
  obtain ⟨above, last, hlast⟩ : ∃ above last, p.parts.reverse = last :: above := by
    obtain ⟨last, above, h⟩ :=
      List.exists_cons_of_ne_nil (l := p.parts.reverse) (by simpa using hnil)
    exact ⟨above, last, h⟩
  have hsplit : p.parts = above.reverse ++ [last] := by
    rw [← List.reverse_cons, ← hlast, List.reverse_reverse]
  rw [hsplit] at hs
  have habove := (makeDirectoriesUp_unseen hd above hs.front).concat hs
  -- the parts of a path have fewer dots in them than its way
  have htrunk' : ∀ f : Disk, f.Bare (above.reverse ++ [last]) ↔ f.Bare (trunk p) := by
    intro f
    rw [← hsplit, hparts, htrunk]
    exact bare_filter [first] later
  have hname : ∀ f : Disk, f.Bare (wayToName p) ↔ f.Bare (trunk p) := by
    intro f
    rcases wayToName_eq_trunk p with heq | heq
    · rw [heq]
    · rw [heq, ← bare_filter]
      simp
  rw [hlast, List.tail_cons]
  rw [Unseen, htrunk', htrunk'] at habove
  have hbelow := ensureBelow_unseen hd (wayToName p) (makeDirectoriesUp_makes above d)
    (by rw [Unseen, hname, hname]; exact habove)
  rwa [Unseen, hname, hname] at hbelow

/-! ### Reading where nothing is -/

variable {p : Path}

lemma Bare.target (h : d.Bare (trunk p)) (hp : p.text ≠ "") {name : String}
    (hname : Path.IsName name) :
    d.target (p.join ⟨name⟩) = .error .missing ∨ ∃ q, d.target (p.join ⟨name⟩) = .ok ⟨q, none⟩ := by
  rw [Disk.target, way_join hp hname, targetOf, if_neg (by simp), (h (.text name)).follow_true]
  exact h (.text name)

lemma Bare.get? (h : d.Bare (trunk p)) (hleads : d.Leads p place) (name : EntryName) :
    d.get? (place ++ [name]) = none := by
  obtain ⟨links, hfollow⟩ := hleads.reaches.follow
  have hentry := hfollow false [.entry name] (Or.inr (List.cons_ne_nil _ _))
  rw [follow_entry] at hentry
  rcases h name with hname | ⟨q, hname⟩
  · rw [hentry] at hname
    cases hname
  · rw [hentry] at hname
    injection hname with htarget
    injection htarget

end Disk

end HouseStyle
