import HouseStyle.Project.Disk
import Mathlib.Logic.Relation
import Mathlib.Tactic.Common

/-!
# Walking along a path

To follow a path is to walk along it: a walker stands in a directory, may take some links, and has
a way ahead.  Each step leaves the rest of the way alone, so a way can be walked in parts, and a
disk on which the directories and links of the way are as before is walked in the same way
(`Walks.follow`, `Walks.mono`).  Where a walk stops is where following the way ends.
-/

namespace HouseStyle

/-- Someone who follows a path. -/
structure Walker where
  /-- The number of links that may still be taken. -/
  links : Nat
  /-- The directory that was reached. -/
  place : DiskPlace
  /-- The way ahead. -/
  ahead : List PathPart

namespace Disk

variable {d e : Disk}

/-- A step of a walker. -/
inductive Step (d : Disk) : Walker → Walker → Prop
  /-- To the root of all directories. -/
  | root (links : Nat) (place : DiskPlace) (rest : List PathPart) :
    Step d ⟨links, place, .root :: rest⟩ ⟨links, [], rest⟩
  /-- To the same directory. -/
  | here (links : Nat) (place : DiskPlace) (rest : List PathPart) :
    Step d ⟨links, place, .here :: rest⟩ ⟨links, place, rest⟩
  /-- To the directory above. -/
  | up (links : Nat) (place : DiskPlace) (rest : List PathPart) :
    Step d ⟨links, place, .up :: rest⟩ ⟨links, place.dropLast, rest⟩
  /-- To a directory below. -/
  | down (links : Nat) {place : DiskPlace} {name : EntryName} (rest : List PathPart)
    (h : d.get? (place ++ [name]) = some .directory) :
    Step d ⟨links, place, .entry name :: rest⟩ ⟨links, place ++ [name], rest⟩
  /-- Along a link. -/
  | link (links : Nat) {place : DiskPlace} {name : EntryName} {target : List PathPart}
    (rest : List PathPart) (h : d.get? (place ++ [name]) = some (.link target)) :
    Step d ⟨links + 1, place, .entry name :: rest⟩ ⟨links, place, target ++ rest⟩

/-- Whether a way can go on behind an entry. -/
def Passable (entry : DiskEntry) : Prop := entry = .directory ∨ ∃ target, entry = .link target

/-- A disk keeps another one if all directories and links of it are still there. -/
structure Keeps (d e : Disk) : Prop where
  home : e.home = d.home
  get? : ∀ {place entry}, d.get? place = some entry → Passable entry → e.get? place = some entry

/-- Any number of steps. -/
abbrev Walks (d : Disk) : Walker → Walker → Prop := Relation.ReflTransGen d.Step

/-- Whether a walker with some links left cannot go on to a place. -/
def Bars (d : Disk) (links : Nat) (place : DiskPlace) : Prop :=
  match d.get? place with
  | some .directory => False
  | some (.link _) => links = 0
  | _ => True

/-- A walker that has arrived or is held up. -/
inductive Stopped (d : Disk) : Walker → Prop
  /-- Nothing is ahead. -/
  | arrived (links : Nat) (place : DiskPlace) : Stopped d ⟨links, place, []⟩
  /-- The next entry bars the way. -/
  | barred {links : Nat} {place : DiskPlace} {name : EntryName} (rest : List PathPart)
    (h : d.Bars links (place ++ [name])) : Stopped d ⟨links, place, .entry name :: rest⟩

/-! ### One step -/

/-- A step does not change where a way leads to, whatever is behind it.  A link at the very end is
not stepped over unless it is followed. -/
lemma Step.follow {v w : Walker} (h : d.Step v w) {through : Bool} {rest : List PathPart}
    (hrest : through = true ∨ rest ≠ []) :
    d.follow through v.links v.place (v.ahead ++ rest)
      = d.follow through w.links w.place (w.ahead ++ rest) := by
  cases h with
  | root => rw [List.cons_append, Disk.follow]
  | here => rw [List.cons_append, Disk.follow]
  | up => rw [List.cons_append, Disk.follow]
  | down _ _ h => rw [List.cons_append, Disk.follow, h]
  | link links ahead h =>
    have hcond : ((ahead ++ rest).isEmpty && !through) = false := by
      rcases hrest with rfl | hrest
      · simp
      · cases rest with
        | nil => exact absurd rfl hrest
        | cons part rest => cases ahead <;> rfl
    rw [List.cons_append, Disk.follow, h]
    simp [hcond]

lemma Step.mono {v w : Walker} (h : d.Step v w) (hkeep : d.Keeps e) : e.Step v w := by
  cases h with
  | root links place rest => exact .root links place rest
  | here links place rest => exact .here links place rest
  | up links place rest => exact .up links place rest
  | down links rest h => exact .down links rest (hkeep.get? h (Or.inl rfl))
  | link links rest h => exact .link links rest (hkeep.get? h (Or.inr ⟨_, rfl⟩))

/-! ### Whole walks -/

lemma Walks.follow {v w : Walker} (h : d.Walks v w) {through : Bool} {rest : List PathPart}
    (hrest : through = true ∨ rest ≠ []) :
    d.follow through v.links v.place (v.ahead ++ rest)
      = d.follow through w.links w.place (w.ahead ++ rest) := by
  induction h with
  | refl => rfl
  | tail _ hstep ih => rw [ih, hstep.follow hrest]

lemma Walks.mono {v w : Walker} (h : d.Walks v w) (hkeep : d.Keeps e) : e.Walks v w := by
  induction h with
  | refl => exact .refl
  | tail _ hstep ih => exact ih.tail (hstep.mono hkeep)

/-- Every walk ends somewhere. -/
lemma exists_stopped (d : Disk) (v : Walker) : ∃ w, d.Walks v w ∧ d.Stopped w := by
  obtain ⟨links, place, ahead⟩ := v
  induction links, place, ahead using Disk.follow.induct d true with
  | case1 links place => exact ⟨_, .refl, .arrived links place⟩
  | case2 links place rest ih =>
    obtain ⟨w, hwalk, hstop⟩ := ih
    exact ⟨w, .head (.root links place rest) hwalk, hstop⟩
  | case3 links place rest ih =>
    obtain ⟨w, hwalk, hstop⟩ := ih
    exact ⟨w, .head (.here links place rest) hwalk, hstop⟩
  | case4 links place rest ih =>
    obtain ⟨w, hwalk, hstop⟩ := ih
    exact ⟨w, .head (.up links place rest) hwalk, hstop⟩
  | case5 links place name rest next h | case6 links place name rest next h =>
    exact ⟨_, .refl, .barred rest (by simp [Bars, h, next])⟩
  | case7 links place name rest next h ih =>
    obtain ⟨w, hwalk, hstop⟩ := ih
    exact ⟨w, .head (.down links rest h) hwalk, hstop⟩
  | case8 links place name rest next target h hend => simp at hend
  | case9 place name rest next target h hend =>
    exact ⟨_, .refl, .barred rest (by simp [Bars, h, next])⟩
  | case10 place name rest next target h hend links ih =>
    obtain ⟨w, hwalk, hstop⟩ := ih
    exact ⟨w, .head (.link links rest h) hwalk, hstop⟩
  | case11 links place name rest next entry hdir hlink h
  | case12 links place name rest next entry hdir hlink h =>
    refine ⟨_, .refl, .barred rest ?_⟩
    cases entry with
    | directory => exact absurd rfl hdir
    | link target => exact absurd rfl (hlink target)
    | file bytes rights => simp [Bars, h, next]

end Disk

end HouseStyle
