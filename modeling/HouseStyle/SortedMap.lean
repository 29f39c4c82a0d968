/-!
# Maps from texts, kept in ascending order of their keys

Every table of the library (counts of labels, settings of a tool, metrics of a language) is
printed in the order of its keys.  A `SortedMap` is the list of its entries with the keys
strictly ascending, so two maps with the same entries are the same value, whatever the order
in which they were put in.
-/

namespace HouseStyle

/-- A finite map from texts to values: its entries, in strictly ascending order of the keys. -/
structure SortedMap (β : Type u) where
  /-- The entries of the map. -/
  entries : List (String × β)
  /-- The keys ascend, so no key occurs twice. -/
  ascending : entries.Pairwise (fun a b => a.1 < b.1)
deriving DecidableEq

namespace SortedMap

variable {β : Type u} {γ : Type v}

/-- Set the value at `key` to what `f` makes of the value there, in an ascending list. -/
def upsertEntry (key : String) (f : Option β → β) : List (String × β) → List (String × β)
  | [] => [(key, f none)]
  | (k, v) :: rest =>
    if key < k then (key, f none) :: (k, v) :: rest
    else if k < key then (k, v) :: upsertEntry key f rest
    else (k, f (some v)) :: rest

theorem mem_keys_upsertEntry {key k : String} {f : Option β → β} {l : List (String × β)}
    (h : k ∈ (upsertEntry key f l).map Prod.fst) : k = key ∨ k ∈ l.map Prod.fst := by
  induction l with
  | nil => simp_all [upsertEntry]
  | cons e rest ih =>
    obtain ⟨k', v'⟩ := e
    unfold upsertEntry at h
    split at h
    · simpa using h
    · split at h
      · simp only [List.map_cons, List.mem_cons] at h ⊢
        rcases h with h | h
        · exact .inr (.inl h)
        · exact (ih h).imp_right .inr
      · simp only [List.map_cons, List.mem_cons] at h ⊢
        exact .inr h

theorem pairwise_upsertEntry {key : String} {f : Option β → β} {l : List (String × β)}
    (h : l.Pairwise (fun a b => a.1 < b.1)) :
    (upsertEntry key f l).Pairwise (fun a b => a.1 < b.1) := by
  induction l with
  | nil => simp [upsertEntry]
  | cons e rest ih =>
    obtain ⟨k', v'⟩ := e
    have hrest := (List.pairwise_cons.1 h).2
    have hhead := (List.pairwise_cons.1 h).1
    unfold upsertEntry
    split
    next hlt =>
      refine List.pairwise_cons.2 ⟨fun e' he' => ?_, h⟩
      rcases List.mem_cons.1 he' with rfl | he'
      · exact hlt
      · exact String.lt_trans hlt (hhead e' he')
    next =>
      split
      next hgt =>
        refine List.pairwise_cons.2 ⟨fun e' he' => ?_, ih hrest⟩
        rcases mem_keys_upsertEntry (List.mem_map_of_mem he') with hk | hk
        · exact hk ▸ hgt
        · obtain ⟨e'', he'', hk⟩ := List.mem_map.1 hk
          exact hk ▸ hhead e'' he''
      next =>
        exact List.pairwise_cons.2 ⟨hhead, hrest⟩

/-- The map with no entries. -/
def empty : SortedMap β := ⟨[], .nil⟩

instance : Inhabited (SortedMap β) := ⟨empty⟩

/-- Set the value at `key` to what `f` makes of the value there, if any. -/
def upsert (m : SortedMap β) (key : String) (f : Option β → β) : SortedMap β :=
  ⟨upsertEntry key f m.entries, pairwise_upsertEntry m.ascending⟩

/-- Set the value at `key`. -/
def insert (m : SortedMap β) (key : String) (value : β) : SortedMap β :=
  m.upsert key fun _ => value

/-- The map of a list of entries; of entries with one key the last one counts. -/
def ofList (l : List (String × β)) : SortedMap β :=
  l.foldl (fun m e => m.insert e.1 e.2) empty

/-- The value at `key`, if there is one. -/
def get? (m : SortedMap β) (key : String) : Option β :=
  (m.entries.find? fun e => e.1 == key).map Prod.snd

/-- Whether there is a value at `key`. -/
def contains (m : SortedMap β) (key : String) : Bool :=
  m.entries.any fun e => e.1 == key

/-- The keys, ascending. -/
def keys (m : SortedMap β) : List String := m.entries.map Prod.fst

/-- The values, in the order of their keys. -/
def values (m : SortedMap β) : List β := m.entries.map Prod.snd

/-- The number of entries. -/
def size (m : SortedMap β) : Nat := m.entries.length

/-- Whether there is no entry. -/
def isEmpty (m : SortedMap β) : Bool := m.entries.isEmpty

/-- The entries that satisfy `p`. -/
def filter (m : SortedMap β) (p : String → β → Bool) : SortedMap β :=
  ⟨m.entries.filter fun e => p e.1 e.2, m.ascending.filter _⟩

/-- The map with every value replaced by what `f` makes of the entry. -/
def map (m : SortedMap β) (f : String → β → γ) : SortedMap γ :=
  ⟨m.entries.map fun e => (e.1, f e.1 e.2), by
    rw [List.pairwise_map]
    exact m.ascending⟩

/-- Put in every entry of `other`; where both have a key, the value of `other` counts. -/
def union (m other : SortedMap β) : SortedMap β :=
  other.entries.foldl (fun acc e => acc.insert e.1 e.2) m

@[simp] theorem entries_empty : (empty : SortedMap β).entries = [] := rfl

@[simp] theorem entries_upsert (m : SortedMap β) (key : String) (f : Option β → β) :
    (m.upsert key f).entries = upsertEntry key f m.entries := rfl

end SortedMap

end HouseStyle
