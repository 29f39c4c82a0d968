import HouseStyle.Count
import HouseStyle.SortedMap

/-!
# Tallies of observed labels

What occurs in source files is counted by label: quotes by their kind, names by their style,
files by their language.  A tally holds every label that was observed with the number of its
observations, and no other label.  Its dominant label has the most observations, and of several
such labels it is the first in ascending order.
-/

namespace HouseStyle

/-- The observed labels and how often each was observed. -/
structure Tally where
  /-- The number of observations by label. -/
  counts : SortedMap Nat
  /-- Only observed labels are listed. -/
  positive : ∀ e ∈ counts.entries, 0 < e.2
deriving DecidableEq

namespace Tally

theorem mem_upsertEntry {β : Type u} {key : String} {f : Option β → β} {l : List (String × β)}
    {e : String × β} (h : e ∈ SortedMap.upsertEntry key f l) : e ∈ l ∨ ∃ x, e = (key, f x) := by
  induction l with
  | nil => exact .inr ⟨none, by simpa [SortedMap.upsertEntry] using h⟩
  | cons a rest ih =>
    obtain ⟨k, v⟩ := a
    unfold SortedMap.upsertEntry at h
    split at h
    · rcases List.mem_cons.1 h with h | h
      · exact .inr ⟨none, h⟩
      · exact .inl h
    · split at h
      · rcases List.mem_cons.1 h with h | h
        · exact .inl (h ▸ List.mem_cons_self)
        · exact (ih h).imp_left (List.mem_cons_of_mem _)
      next h₁ h₂ =>
        rcases List.mem_cons.1 h with h | h
        · have hk : k = key := String.le_antisymm (String.not_lt.1 h₁) (String.not_lt.1 h₂)
          exact .inr ⟨some v, by rw [h, hk]⟩
        · exact .inl (List.mem_cons_of_mem _ h)

/-- Nothing was observed. -/
def empty : Tally := ⟨.empty, by simp⟩

instance : Inhabited Tally := ⟨empty⟩

/-- Observe a label a number of times. -/
def addTimes (t : Tally) (label : String) (n : Nat) : Tally :=
  if h : 0 < n then
    ⟨t.counts.upsert label fun seen => seen.getD 0 + n, fun e he => by
      rcases mem_upsertEntry he with he | ⟨x, rfl⟩
      · exact t.positive e he
      · exact Nat.lt_of_lt_of_le h (Nat.le_add_left n _)⟩
  else t

/-- Observe a label once. -/
def add (t : Tally) (label : String) : Tally := t.addTimes label 1

/-- The number of observations of a label. -/
def get (t : Tally) (label : String) : Nat := (t.counts.get? label).getD 0

/-- The number of all observations. -/
def total (t : Tally) : Nat := Count.sum t.counts.values

/-- Whether nothing was observed. -/
def isEmpty (t : Tally) : Bool := t.total == 0

/-- The observations of both tallies. -/
def merge (t other : Tally) : Tally :=
  other.counts.entries.foldl (fun acc e => acc.addTimes e.1 e.2) t

/-- The tally of a list of labels. -/
def ofLabels (labels : List String) : Tally := labels.foldl add empty

/-- The tally of a list of counts. -/
def ofCounts (counts : List (String × Nat)) : Tally :=
  counts.foldl (fun t e => t.addTimes e.1 e.2) empty

/-- The tally of the observations of a list of tallies. -/
def mergeAll (ts : List Tally) : Tally := ts.foldl merge empty

/-- The entry with the greater count, the first one when the counts are equal. -/
def leading (best : Option (String × Nat)) (e : String × Nat) : Option (String × Nat) :=
  match best with
  | some b => if e.2 ≤ b.2 then some b else some e
  | none => some e

/-- The dominant label and the number of its observations. -/
def dominant? (t : Tally) : Option (String × Nat) :=
  t.counts.entries.foldl leading none

/-- The number of observations of the dominant label, 0 when nothing was observed. -/
def dominantCount (t : Tally) : Nat := (t.dominant?.map Prod.snd).getD 0

end Tally

end HouseStyle
