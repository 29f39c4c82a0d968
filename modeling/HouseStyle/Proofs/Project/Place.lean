import HouseStyle.Proofs.Project.Walk
import HouseStyle.Proofs.Project.Way
import Mathlib.Data.List.Induction

/-!
# The directory at the end of a path

A way that is walked to its end reaches a directory.  A path of which the way reaches a directory
leads there with or without slashes at its end, and a path with a name behind it finds what has
that name in the directory.
-/

namespace HouseStyle

namespace Disk

variable {d e : Disk}

/-! ### What is at a place -/

lemma lookup_filter {κ ν : Type} [BEq κ] [LawfulBEq κ] (keep : κ → Bool) (key : κ)
    (l : List (κ × ν)) :
    (l.filter fun x => keep x.1).lookup key = if keep key then l.lookup key else none := by
  induction l with
  | nil => split <;> rfl
  | cons x l ih =>
    obtain ⟨first, value⟩ := x
    by_cases hkey : key = first
    · subst hkey
      by_cases hx : keep key = true
      · simp [hx]
      · rw [List.filter_cons_of_neg (by simpa using hx), ih, if_neg hx, if_neg hx]
    · have hbeq : (key == first) = false := beq_eq_false_iff_ne.2 hkey
      by_cases hx : keep first = true
      · rw [List.filter_cons_of_pos (by simpa using hx), List.lookup_cons, List.lookup_cons, hbeq]
        exact ih
      · rw [List.filter_cons_of_neg (by simpa using hx), ih, List.lookup_cons, hbeq]

lemma get?_set {place : DiskPlace} (hplace : place ≠ []) (entry : DiskEntry) (q : DiskPlace) :
    (d.set place entry).get? q = if q = place then some entry else d.get? q := by
  cases q with
  | nil => rw [if_neg hplace.symm]; rfl
  | cons name q =>
    simp only [get?, set, List.isEmpty_cons, Bool.false_eq_true, if_false, List.lookup_cons]
    by_cases h : name :: q = place
    · simp [h]
    · have hbeq : (name :: q == place) = false := beq_eq_false_iff_ne.2 h
      rw [hbeq, if_neg h]
      simp only [lookup_filter (· != place)]
      rw [if_pos (by simpa using h)]

lemma get?_erase {place : DiskPlace} (hplace : place ≠ []) (q : DiskPlace) :
    (d.erase place).get? q = if place <+: q then none else d.get? q := by
  cases q with
  | nil => rw [if_neg (by simpa using hplace)]; rfl
  | cons name q =>
    simp only [get?, erase, List.isEmpty_cons, Bool.false_eq_true, if_false]
    simp only [lookup_filter fun k => !place.isPrefixOf k]
    by_cases h : place <+: name :: q
    · rw [if_pos h, if_neg]
      simpa using List.isPrefixOf_iff_prefix.2 h
    · rw [if_neg h, if_pos]
      rw [Bool.not_eq_true', Bool.eq_false_iff]
      exact fun hpre => h (List.isPrefixOf_iff_prefix.1 hpre)

/-- A disk on which everything lies in a directory, and the program was started in one. -/
structure WellFormed (d : Disk) : Prop where
  home : d.get? d.home = some .directory
  above : ∀ place name, d.get? (place ++ [name]) ≠ none → d.get? place = some .directory

lemma mem_entries_of_get? {place : DiskPlace} {entry : DiskEntry} (hplace : place ≠ [])
    (h : d.get? place = some entry) : (place, entry) ∈ d.entries := by
  rw [get?, if_neg (by simpa using hplace)] at h
  obtain ⟨before, behind, hentries, -⟩ := List.lookup_eq_some_iff.1 h
  rw [hentries]
  exact List.mem_append_right _ List.mem_cons_self

lemma wellFormed_of_entries (hhome : d.get? d.home = some .directory)
    (h : ∀ x ∈ d.entries, d.get? x.1.dropLast = some .directory) : d.WellFormed := by
  refine ⟨hhome, fun place name hsome => ?_⟩
  obtain ⟨entry, hentry⟩ := Option.ne_none_iff_exists'.1 hsome
  simpa using h _ (mem_entries_of_get? (by simp) hentry)

/-- There is nothing below something that is no directory. -/
lemma WellFormed.get?_append (hd : d.WellFormed) {place : DiskPlace}
    (h : d.get? place ≠ some .directory) {names : List EntryName} (hnames : names ≠ []) :
    d.get? (place ++ names) = none := by
  induction names using List.reverseRecOn with
  | nil => exact absurd rfl hnames
  | append_singleton names name ih =>
    by_contra hsome
    have habove := hd.above (place ++ names) name (by rwa [List.append_assoc])
    by_cases hnil : names = []
    · rw [hnil, List.append_nil] at habove
      exact h habove
    · rw [ih hnil] at habove
      cases habove

lemma WellFormed.dropLast (hd : d.WellFormed) {place : DiskPlace}
    (h : d.get? place = some .directory) : d.get? place.dropLast = some .directory := by
  rcases List.eq_nil_or_concat place with rfl | ⟨above, name, rfl⟩
  · exact h
  · rw [List.concat_eq_append] at h ⊢
    rw [List.dropLast_concat]
    exact hd.above above name (by rw [h]; exact Option.some_ne_none _)

/-- A walk keeps to directories. -/
lemma WellFormed.walks (hd : d.WellFormed) {v w : Walker} (h : d.Walks v w)
    (hv : d.get? v.place = some .directory) : d.get? w.place = some .directory := by
  induction h with
  | refl => exact hv
  | tail _ hstep ih =>
    cases hstep with
    | root => rfl
    | here => exact ih
    | up => exact hd.dropLast ih
    | down _ _ h => exact h
    | link => exact ih

/-! ### Where a way ends -/

/-- Whether a way reaches the directory at a place. -/
def Reaches (d : Disk) (parts : List PathPart) (place : DiskPlace) : Prop :=
  ∃ links, d.Walks ⟨linkLimit, d.home, parts⟩ ⟨links, place, []⟩

/-- Whether a way ends at an entry that bars it, with some of the way left behind the entry. -/
def Ends (d : Disk) (parts : List PathPart) (links : Nat) (place : DiskPlace) (name : EntryName)
    (rest : List PathPart) : Prop :=
  d.Walks ⟨linkLimit, d.home, parts⟩ ⟨links, place, .entry name :: rest⟩ ∧
    d.Bars links (place ++ [name])

lemma reaches_or_ends (d : Disk) (parts : List PathPart) :
    (∃ place, d.Reaches parts place) ∨
      ∃ links place name rest, d.Ends parts links place name rest := by
  obtain ⟨w, hwalk, hstop⟩ := exists_stopped d ⟨linkLimit, d.home, parts⟩
  cases hstop with
  | arrived links place => exact Or.inl ⟨place, links, hwalk⟩
  | barred rest h => exact Or.inr ⟨_, _, _, rest, hwalk, h⟩

lemma Reaches.mono {parts : List PathPart} {place : DiskPlace} (h : d.Reaches parts place)
    (hkeep : d.Keeps e) : e.Reaches parts place := by
  obtain ⟨links, hwalk⟩ := h
  exact ⟨links, by rw [hkeep.home]; exact hwalk.mono hkeep⟩

/-- What follows a way that reaches a directory starts there. -/
lemma Reaches.follow {parts : List PathPart} {place : DiskPlace} (h : d.Reaches parts place) :
    ∃ links, ∀ through rest, through = true ∨ rest ≠ [] →
      d.follow through linkLimit d.home (parts ++ rest) = d.follow through links place rest := by
  obtain ⟨links, hwalk⟩ := h
  exact ⟨links, fun through rest hrest => hwalk.follow hrest⟩

lemma Reaches.follow_nil {parts : List PathPart} {place : DiskPlace} (h : d.Reaches parts place) :
    d.follow true linkLimit d.home parts = .ok ⟨place, some .directory⟩ := by
  obtain ⟨links, hfollow⟩ := h.follow
  have := hfollow true [] (Or.inl rfl)
  rwa [List.append_nil, Disk.follow] at this

/-- The entry of a directory, a link being the entry itself. -/
lemma follow_entry (d : Disk) (links : Nat) (place : DiskPlace) (name : EntryName) :
    d.follow false links place [.entry name] = .ok ⟨place ++ [name], d.get? (place ++ [name])⟩ := by
  rw [Disk.follow]
  cases h : d.get? (place ++ [name]) with
  | none => rfl
  | some entry =>
    cases entry with
    | directory => exact Disk.follow.eq_1 d false links (place ++ [name])
    | file bytes rights => rfl
    | link target => rfl

/-- A link at the end of a way makes all the difference between the two ways to follow it. -/
lemma follow_through {links : Nat} {place : DiskPlace} {parts : List PathPart}
    (h : ∀ q target, d.follow false links place parts ≠ .ok ⟨q, some (.link target)⟩) :
    d.follow true links place parts = d.follow false links place parts := by
  induction links, place, parts using Disk.follow.induct d false with
  | case1 links place => rw [Disk.follow, Disk.follow]
  | case2 links place rest ih | case3 links place rest ih | case4 links place rest ih =>
    rw [Disk.follow] at h
    rw [Disk.follow, Disk.follow]
    exact ih h
  | case5 links place name rest next hnext hrest | case6 links place name rest next hnext hrest =>
    rw [Disk.follow, Disk.follow, hnext]
  | case7 links place name rest next hnext ih =>
    rw [Disk.follow, hnext] at h
    rw [Disk.follow, Disk.follow, hnext]
    exact ih h
  | case8 links place name rest next target hnext hend =>
    rw [Disk.follow, hnext] at h
    simp only [hend, if_true] at h
    exact absurd rfl (h _ _)
  | case9 place name rest next target hnext hend =>
    have hrest : rest ≠ [] := by simpa using hend
    rw [Disk.follow, Disk.follow, hnext]
    simp [hrest]
  | case10 place name rest next target hnext hend links ih =>
    have hend' : (rest.isEmpty && !true) = false := by simp
    rw [Disk.follow, hnext] at h
    rw [Disk.follow, Disk.follow, hnext]
    simp only [hend, hend', Bool.false_eq_true, if_false] at h ⊢
    exact ih h
  | case11 links place name rest next entry hdir hlink hnext hrest
  | case12 links place name rest next entry hdir hlink hnext hrest =>
    rw [Disk.follow, Disk.follow, hnext]
    cases entry with
    | directory => exact absurd rfl hdir
    | link target => exact absurd rfl (hlink target)
    | file bytes rights => rfl

/-- Where something bars the way, and what is behind it. -/
lemma Ends.follow {parts rest : List PathPart} {links : Nat} {place : DiskPlace} {name : EntryName}
    (h : d.Ends parts links place name rest) (through : Bool) (more : List PathPart)
    (hmore : through = true ∨ more ≠ []) :
    d.follow through linkLimit d.home (parts ++ more) =
      match d.get? (place ++ [name]) with
      | none => if rest ++ more = [] then .ok ⟨place ++ [name], none⟩ else .error .missing
      | some (.link _) => .error .circle
      | some entry =>
        if rest ++ more = [] then .ok ⟨place ++ [name], some entry⟩ else .error .notDirectory := by
  obtain ⟨hwalk, hbars⟩ := h
  rw [hwalk.follow hmore, List.cons_append, Disk.follow]
  rw [Bars] at hbars
  cases hnext : d.get? (place ++ [name]) with
  | none => simp
  | some entry =>
    rw [hnext] at hbars
    cases entry with
    | directory => exact absurd hbars not_false
    | file bytes rights => simp
    | link target =>
      subst hbars
      have hend : ((rest ++ more).isEmpty && !through) = false := by
        rcases hmore with rfl | hmore
        · simp
        · simp [hmore]
      simp only [hend, Bool.false_eq_true, if_false]

/-- A way reaches a directory if a longer one does. -/
lemma exists_walks_of_follow {links : Nat} {start place : DiskPlace} {parts more : List PathPart}
    (h : d.follow true links start (parts ++ more) = .ok ⟨place, some .directory⟩) :
    ∃ left q, d.Walks ⟨links, start, parts⟩ ⟨left, q, []⟩ := by
  obtain ⟨w, hwalk, hstop⟩ := exists_stopped d ⟨links, start, parts⟩
  cases hstop with
  | arrived left q => exact ⟨left, q, hwalk⟩
  | @barred left q name rest hbars =>
    rw [hwalk.follow (Or.inl rfl), List.cons_append, Disk.follow] at h
    rw [Bars] at hbars
    cases hnext : d.get? (q ++ [name]) with
    | none => rw [hnext] at h; simp only at h; split at h <;> cases h
    | some entry =>
      rw [hnext] at h hbars
      cases entry with
      | directory => exact absurd hbars not_false
      | file bytes rights => simp only at h; split at h <;> cases h
      | link target =>
        subst hbars
        simp at h

lemma exists_reaches_of_follow {parts more : List PathPart} {place : DiskPlace}
    (h : d.follow true linkLimit d.home (parts ++ more) = .ok ⟨place, some .directory⟩) :
    ∃ q, d.Reaches parts q := by
  obtain ⟨left, q, hwalk⟩ := exists_walks_of_follow h
  exact ⟨q, left, hwalk⟩

/-- A way to nothing goes to the end of it, in a directory. -/
lemma exists_ends_of_follow {parts : List PathPart} {place : DiskPlace}
    (h : d.follow true linkLimit d.home parts = .ok ⟨place, none⟩) :
    ∃ links q name, d.Ends parts links q name [] ∧ place = q ++ [name] ∧ d.get? place = none := by
  rcases reaches_or_ends d parts with ⟨q, hreaches⟩ | ⟨links, q, name, rest, hends⟩
  · rw [hreaches.follow_nil] at h
    cases h
  · have hfollow := hends.follow true [] (Or.inl rfl)
    rw [List.append_nil, List.append_nil, h] at hfollow
    cases hnext : d.get? (q ++ [name]) with
    | none =>
      rw [hnext] at hfollow
      simp only at hfollow
      split at hfollow
      next hrest =>
        subst hrest
        obtain ⟨rfl⟩ : place = q ++ [name] := by simpa using hfollow
        exact ⟨links, q, name, hends, rfl, hnext⟩
      next => cases hfollow
    | some entry =>
      rw [hnext] at hfollow
      cases entry with
      | directory | file bytes rights => simp only at hfollow; split at hfollow <;> cases hfollow
      | link target => cases hfollow

/-! ### Dead ends -/

/-- Whether no way goes on to a directory along an entry. -/
def DeadEnd (d : Disk) (place : DiskPlace) (name : EntryName) : Prop :=
  ∀ links left q, ¬ d.Walks ⟨links, place, [.entry name]⟩ ⟨left, q, []⟩

lemma deadEnd_of_not_passable {place : DiskPlace} {name : EntryName}
    (h : ∀ entry, d.get? (place ++ [name]) = some entry → ¬ Passable entry) :
    d.DeadEnd place name := by
  intro links left q hwalk
  rcases hwalk.cases_head with heq | ⟨w, hstep, -⟩
  · cases heq
  · cases hstep with
    | down _ _ hentry => exact h _ hentry (Or.inl rfl)
    | link _ _ hentry => exact h _ hentry (Or.inr ⟨_, rfl⟩)

/-- The first part of a way to a directory is one. -/
lemma Walks.front {links left : Nat} {start place : DiskPlace} {parts more : List PathPart}
    (h : d.Walks ⟨links, start, parts ++ more⟩ ⟨left, place, []⟩) :
    ∃ rest q, d.Walks ⟨links, start, parts⟩ ⟨rest, q, []⟩ := by
  have hfollow : d.follow true links start (parts ++ more ++ [])
      = d.follow true left place ([] ++ []) := h.follow (Or.inl rfl)
  rw [List.append_nil, List.append_nil, Disk.follow.eq_1] at hfollow
  exact exists_walks_of_follow hfollow

/-- A way to a directory does not change where the disk changes at dead ends only. -/
lemma Walks.around {v : Walker} {left : Nat} {place : DiskPlace} (h : d.Walks v ⟨left, place, []⟩)
    (hsame : ∀ q name, e.get? (q ++ [name]) ≠ d.get? (q ++ [name]) → d.DeadEnd q name) :
    e.Walks v ⟨left, place, []⟩ := by
  induction h using Relation.ReflTransGen.head_induction_on with
  | refl => exact .refl
  | head hstep hrest ih =>
    have hentry {links : Nat} {q : DiskPlace} {name : EntryName} {rest : List PathPart}
        (hwalk : d.Walks ⟨links, q, .entry name :: rest⟩ ⟨left, place, []⟩) :
        e.get? (q ++ [name]) = d.get? (q ++ [name]) := by
      by_contra hne
      obtain ⟨left', q', hfront⟩ :
          ∃ left' q', d.Walks ⟨links, q, [.entry name]⟩ ⟨left', q', []⟩ := Walks.front hwalk
      exact hsame q name hne _ _ _ hfront
    have hwalk := Relation.ReflTransGen.head hstep hrest
    refine ih.head ?_
    cases hstep with
    | root links q rest => exact .root links q rest
    | here links q rest => exact .here links q rest
    | up links q rest => exact .up links q rest
    | down links rest h => exact .down links rest ((hentry hwalk).trans h)
    | link links rest h => exact .link links rest ((hentry hwalk).trans h)

/-! ### Paths to directories -/

/-- Whether a path leads to the directory at a place. -/
structure Leads (d : Disk) (p : Path) (place : DiskPlace) : Prop where
  nonempty : p.text ≠ ""
  reaches : d.Reaches (trunk p) place

/-- A single dot leads to the directory of the program. -/
lemma leads_here (d : Disk) : d.Leads ⟨"."⟩ d.home :=
  ⟨by decide, Disk.linkLimit, .single (.here _ _ _)⟩

lemma Leads.mono {p : Path} {place : DiskPlace} (h : d.Leads p place) (hkeep : d.Keeps e) :
    e.Leads p place := ⟨h.nonempty, h.reaches.mono hkeep⟩

lemma Leads.around {p : Path} {place : DiskPlace} (h : d.Leads p place) (hhome : e.home = d.home)
    (hsame : ∀ q name, e.get? (q ++ [name]) ≠ d.get? (q ++ [name]) → d.DeadEnd q name) :
    e.Leads p place := by
  obtain ⟨links, hwalk⟩ := h.reaches
  exact ⟨h.nonempty, links, by rw [hhome]; exact hwalk.around hsame⟩

lemma Leads.follow_trunk {p : Path} {place : DiskPlace} (h : d.Leads p place)
    {parts : List PathPart} (hparts : parts = trunk p ∨ parts = trunk p ++ [.here]) :
    d.targetOf true parts = .ok ⟨place, some .directory⟩ := by
  have hne : parts.isEmpty = false := by
    rcases hparts with rfl | rfl
    · simpa using trunk_ne_nil h.nonempty
    · simp
  obtain ⟨links, hfollow⟩ := h.reaches.follow
  rw [targetOf, hne, if_neg Bool.false_ne_true]
  rcases hparts with rfl | rfl
  · exact h.reaches.follow_nil
  · rw [hfollow true _ (Or.inl rfl), Disk.follow, Disk.follow]

lemma Leads.target {p : Path} {place : DiskPlace} (h : d.Leads p place) :
    d.target p = .ok ⟨place, some .directory⟩ := h.follow_trunk (way_eq_trunk p)

lemma Leads.unique {p : Path} {place q : DiskPlace} (h : d.Leads p place) (h' : d.Leads p q) :
    place = q := by
  have := h.target.symm.trans h'.target
  simpa using this

lemma WellFormed.get?_leads (hd : d.WellFormed) {p : Path} {place : DiskPlace}
    (h : d.Leads p place) : d.get? place = some .directory := by
  obtain ⟨links, hwalk⟩ := h.reaches
  exact hd.walks hwalk hd.home

lemma exists_leads_of_targetOf {p : Path} {parts : List PathPart} {place : DiskPlace}
    (hp : p.text ≠ "") (hparts : parts = trunk p ∨ parts = trunk p ++ [.here])
    (h : d.targetOf true parts = .ok ⟨place, some .directory⟩) : ∃ q, d.Leads p q := by
  rw [targetOf] at h
  split at h
  · cases h
  · have hmore : ∃ more, parts = trunk p ++ more := by
      rcases hparts with rfl | rfl
      · exact ⟨[], (List.append_nil _).symm⟩
      · exact ⟨_, rfl⟩
    obtain ⟨more, rfl⟩ := hmore
    obtain ⟨q, hq⟩ := exists_reaches_of_follow h
    exact ⟨q, hp, hq⟩

/-- A path leads to a directory if and only if there is a directory at its end. -/
theorem isDirectory_iff (d : Disk) (p : Path) :
    d.isDirectory p = true ↔ ∃ place, d.Leads p place := by
  constructor
  · intro h
    rw [isDirectory, thingAt?] at h
    split at h
    next t ht =>
      obtain ⟨place, thing⟩ := t
      obtain rfl : thing = some .directory := by simpa using h
      have hp : p.text ≠ "" := by
        intro hempty
        rw [Disk.target, way, hempty] at ht
        cases ht
      exact exists_leads_of_targetOf hp (way_eq_trunk p) ht
    next => simp at h
  · rintro ⟨place, h⟩
    rw [isDirectory, thingAt?, h.target]
    rfl

variable {p : Path} {place : DiskPlace} {name : String}

/-- What has a name in a directory. -/
lemma Leads.targetItself_join (h : d.Leads p place) (hname : Path.IsName name) :
    d.targetItself (p.join ⟨name⟩)
      = .ok ⟨place ++ [.text name], d.get? (place ++ [.text name])⟩ := by
  obtain ⟨links, hfollow⟩ := h.reaches.follow
  rw [targetItself, way_join h.nonempty hname, targetOf, if_neg (by simp),
    hfollow false _ (Or.inr (List.cons_ne_nil _ _)), follow_entry]

/-- What has a name in a directory, unless it is a link. -/
lemma Leads.target_join (h : d.Leads p place) (hname : Path.IsName name)
    (hlink : ∀ target, d.get? (place ++ [.text name]) ≠ some (.link target)) :
    d.target (p.join ⟨name⟩) = .ok ⟨place ++ [.text name], d.get? (place ++ [.text name])⟩ := by
  obtain ⟨links, hfollow⟩ := h.reaches.follow
  rw [Disk.target, way_join h.nonempty hname, targetOf, if_neg (by simp),
    hfollow true _ (Or.inl rfl), follow_through, follow_entry]
  intro q target heq
  rw [follow_entry] at heq
  obtain ⟨rfl, htarget⟩ :
      place ++ [.text name] = q ∧ d.get? (place ++ [.text name]) = some (.link target) := by
    simpa using heq
  exact hlink target htarget

lemma Leads.thingAt?_join (h : d.Leads p place) (hname : Path.IsName name)
    (hlink : ∀ target, d.get? (place ++ [.text name]) ≠ some (.link target)) :
    d.thingAt? (p.join ⟨name⟩) = d.get? (place ++ [.text name]) := by
  rw [thingAt?, h.target_join hname hlink]

end Disk

end HouseStyle
