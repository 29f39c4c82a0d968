import HouseStyle.SortedMap
import Mathlib.Data.List.Forall2
import Mathlib.Data.List.Induction
import Mathlib.Tactic.Common

/-!
# What a sorted map holds

A map is determined by the values at its keys, since its entries stand in the order of the keys.
So the operations are described by what `get?` gives behind them, and two maps are shown equal by
comparing their values key by key (`SortedMap.ext_get?`).
-/

namespace HouseStyle

namespace SortedMap

variable {β : Type u} {γ : Type v}

lemma ext_entries {m n : SortedMap β} (h : m.entries = n.entries) : m = n := by
  cases m
  cases n
  simpa using h

/-! ### The entry of a key -/

/-- Where no key occurs twice, the entry of a key is the only one that can be found. -/
lemma find?_key_eq_some {l : List (String × β)} (h : l.Pairwise fun a b => a.1 ≠ b.1)
    {key : String} {e : String × β} :
    l.find? (fun e => e.1 == key) = some e ↔ e ∈ l ∧ e.1 = key := by
  constructor
  · intro hfind
    exact ⟨List.mem_of_find?_eq_some hfind, by simpa using List.find?_some hfind⟩
  · rintro ⟨hmem, rfl⟩
    induction l with
    | nil => simp at hmem
    | cons a rest ih =>
      obtain ⟨hhead, hrest⟩ := List.pairwise_cons.1 h
      rcases List.mem_cons.1 hmem with rfl | hmem
      · simp
      · simpa [hhead e hmem] using ih hrest hmem

lemma keys_ne (m : SortedMap β) : m.entries.Pairwise fun a b => a.1 ≠ b.1 := by
  refine m.ascending.imp ?_
  intro a b hab heq
  rw [heq] at hab
  exact String.lt_irrefl b.1 hab

lemma mem_entries_iff {m : SortedMap β} {e : String × β} :
    e ∈ m.entries ↔ m.get? e.1 = some e.2 := by
  constructor
  · intro h
    rw [get?, (find?_key_eq_some m.keys_ne).2 ⟨h, rfl⟩]
    rfl
  · intro h
    obtain ⟨e', hfind, hv⟩ := Option.map_eq_some_iff.1 h
    obtain ⟨hmem, hk⟩ := (find?_key_eq_some m.keys_ne).1 hfind
    obtain rfl : e' = e := Prod.ext hk hv
    exact hmem

lemma find?_upsertEntry_of_ne {key k : String} (h : k ≠ key) (f : Option β → β)
    (l : List (String × β)) :
    (upsertEntry key f l).find? (fun e => e.1 == k) = l.find? fun e => e.1 == k := by
  induction l with
  | nil => simp [upsertEntry, h.symm]
  | cons e rest ih =>
    obtain ⟨k', v⟩ := e
    unfold upsertEntry
    split
    · rw [List.find?_cons_of_neg]
      simpa using h.symm
    · split
      · simp only [List.find?_cons, ih]
      next h₁ h₂ =>
        have hk : k' = key := String.le_antisymm (String.not_lt.1 h₁) (String.not_lt.1 h₂)
        simp [hk, h.symm]

lemma find?_upsertEntry_self {key : String} (f : Option β → β) {l : List (String × β)}
    (hl : l.Pairwise fun a b => a.1 < b.1) :
    ((upsertEntry key f l).find? fun e => e.1 == key).map Prod.snd
      = some (f ((l.find? fun e => e.1 == key).map Prod.snd)) := by
  induction l with
  | nil => simp [upsertEntry]
  | cons e rest ih =>
    obtain ⟨k', v⟩ := e
    have hhead := (List.pairwise_cons.1 hl).1
    unfold upsertEntry
    split
    next hlt =>
      -- all keys from here on are greater, so the key was not there
      have hnone : ((k', v) :: rest).find? (fun e => e.1 == key) = none := by
        rw [List.find?_eq_none]
        intro e he heq
        have hkey : key < e.1 := by
          rcases List.mem_cons.1 he with rfl | he
          · exact hlt
          · exact String.lt_trans hlt (hhead e he)
        rw [beq_iff_eq.1 heq] at hkey
        exact String.lt_irrefl key hkey
      simp [hnone]
    next =>
      split
      next hgt =>
        have hne : ¬ k' = key := by
          rintro rfl
          exact String.lt_irrefl k' hgt
        simpa [hne] using ih (List.pairwise_cons.1 hl).2
      next h₁ h₂ =>
        have hk : k' = key := String.le_antisymm (String.not_lt.1 h₁) (String.not_lt.1 h₂)
        simp [hk]

/-- Behind a change at a key the value there is the new one, and all others are as before. -/
lemma get?_upsert (m : SortedMap β) (key k : String) (f : Option β → β) :
    (m.upsert key f).get? k = if k = key then some (f (m.get? key)) else m.get? k := by
  by_cases h : k = key
  · subst h
    rw [if_pos rfl]
    exact find?_upsertEntry_self f m.ascending
  · rw [if_neg h, get?, entries_upsert, find?_upsertEntry_of_ne h]
    rfl

@[simp] lemma get?_empty (key : String) : (empty : SortedMap β).get? key = none := rfl

lemma get?_insert (m : SortedMap β) (key k : String) (v : β) :
    (m.insert key v).get? k = if k = key then some v else m.get? k :=
  get?_upsert m key k fun _ => v

lemma contains_eq (m : SortedMap β) (key : String) : m.contains key = (m.get? key).isSome := by
  rw [contains, get?, Option.isSome_map, List.isSome_find?]

lemma get?_map (m : SortedMap β) (f : String → β → γ) (key : String) :
    (m.map f).get? key = (m.get? key).map (f key) := by
  have hfind : (m.map f).get? key
      = ((m.entries.find? fun e => e.1 == key).map fun e => f e.1 e.2) := by
    rw [get?, map, List.find?_map, Option.map_map]
    rfl
  rw [hfind, get?, Option.map_map]
  cases h : m.entries.find? fun e => e.1 == key with
  | none => rfl
  | some e =>
    obtain rfl : e.1 = key := by simpa using List.find?_some h
    rfl

lemma get?_filter (m : SortedMap β) (p : String → β → Bool) (key : String) :
    (m.filter p).get? key = (m.get? key).filter (p key) := by
  ext v
  have hfilter := mem_entries_iff (m := m.filter p) (e := (key, v))
  have hentries := mem_entries_iff (m := m) (e := (key, v))
  rw [← hfilter, Option.filter_eq_some_iff, ← hentries]
  exact List.mem_filter

/-- A map has two entries if two keys have a value. -/
lemma two_le_size_iff {m : SortedMap β} :
    2 ≤ m.size ↔ ∃ k k', k ≠ k' ∧ (m.get? k).isSome ∧ (m.get? k').isSome := by
  have hsome {e : String × β} (he : e ∈ m.entries) : (m.get? e.1).isSome :=
    Option.isSome_of_eq_some (mem_entries_iff.1 he)
  have hmem {k : String} (h : (m.get? k).isSome) : ∃ v, (k, v) ∈ m.entries := by
    obtain ⟨v, hv⟩ := Option.isSome_iff_exists.1 h
    exact ⟨v, mem_entries_iff.2 hv⟩
  have hkeys := m.keys_ne
  rw [size]
  rcases hentries : m.entries with _ | ⟨a, _ | ⟨b, rest⟩⟩
  · refine ⟨fun h => absurd h (by simp), ?_⟩
    rintro ⟨k, -, -, hk, -⟩
    obtain ⟨v, hv⟩ := hmem hk
    simp [hentries] at hv
  · refine ⟨fun h => absurd h (by simp), ?_⟩
    rintro ⟨k, k', hne, hk, hk'⟩
    obtain ⟨v, hv⟩ := hmem hk
    obtain ⟨v', hv'⟩ := hmem hk'
    -- both keys are the key of the only entry
    rw [hentries, List.mem_singleton] at hv hv'
    exact absurd (congrArg Prod.fst (hv.trans hv'.symm)) hne
  · rw [hentries] at hkeys hsome
    refine ⟨fun _ => ⟨a.1, b.1, ?_, hsome (by simp), hsome (by simp)⟩, fun _ => by simp⟩
    exact (List.pairwise_cons.1 hkeys).1 b (by simp)

/-! ### Maps with the same values -/

/-- Two maps are equal if they have the same value at each key. -/
theorem ext_get? {m n : SortedMap β} (h : ∀ key, m.get? key = n.get? key) : m = n := by
  -- both lists of entries are sorted, and they have the same members
  have hnodup : ∀ m : SortedMap β, m.entries.Nodup := by
    refine fun m => m.keys_ne.imp ?_
    rintro a b hab rfl
    exact hab rfl
  have hmem : ∀ e, e ∈ m.entries ↔ e ∈ n.entries := by
    intro e
    rw [mem_entries_iff, mem_entries_iff, h]
  have hperm : m.entries.Perm n.entries :=
    (List.perm_ext_iff_of_nodup (hnodup m) (hnodup n)).2 hmem
  refine ext_entries (hperm.eq_of_pairwise ?_ m.ascending n.ascending)
  intro a b _ _ hab hba
  exact absurd (String.lt_trans hab hba) (String.lt_irrefl a.1)

/-- Maps that have values at the same keys have the same keys. -/
lemma keys_eq {m : SortedMap β} {n : SortedMap γ}
    (h : ∀ key, (m.get? key).isSome = (n.get? key).isSome) : m.keys = n.keys := by
  have hunits : m.map (fun _ _ => ()) = n.map fun _ _ => () := by
    refine ext_get? fun key => ?_
    have hkey := h key
    rw [get?_map, get?_map]
    cases hm : m.get? key <;> cases hn : n.get? key <;> simp_all
  have hkeys := congrArg SortedMap.keys hunits
  simp only [keys, map, List.map_map] at hkeys
  exact hkeys

/-- The values of two maps are related one by one if the values at each key are. -/
lemma forall₂_values {r : β → γ → Prop} {m : SortedMap β} {n : SortedMap γ}
    (h : ∀ key, Option.Rel r (m.get? key) (n.get? key)) : List.Forall₂ r m.values n.values := by
  have hkeys : m.keys = n.keys := by
    refine keys_eq fun key => ?_
    have hkey := h key
    generalize m.get? key = v, n.get? key = w at hkey
    cases hkey <;> rfl
  have hlength : m.entries.length = n.entries.length := by
    simpa [keys] using congrArg List.length hkeys
  rw [values, values, List.forall₂_map_left_iff, List.forall₂_map_right_iff, List.forall₂_iff_get]
  refine ⟨hlength, fun i hi hi' => ?_⟩
  have hkey : (m.entries[i]).1 = (n.entries[i]).1 := by
    simpa [keys, hi, hi'] using congrArg (·[i]?) hkeys
  have hvalues := h (m.entries[i]).1
  rw [mem_entries_iff.1 (List.getElem_mem hi), hkey, mem_entries_iff.1 (List.getElem_mem hi')]
    at hvalues
  cases hvalues with
  | some hvalue => exact hvalue

/-! ### Maps of lists -/

/-- Of the entries that are put into a map the last one with a key counts. -/
lemma get?_foldl_insert (l : List (String × β)) (m : SortedMap β) (key : String) :
    (l.foldl (fun m e => m.insert e.1 e.2) m).get? key
      = ((l.reverse.find? fun e => e.1 == key).map Prod.snd).or (m.get? key) := by
  induction l using List.reverseRecOn with
  | nil => rfl
  | append_singleton l e ih =>
    rw [List.foldl_append, List.reverse_concat, List.find?_cons]
    change ((l.foldl _ m).insert e.1 e.2).get? key = _
    rw [get?_insert]
    by_cases h : key = e.1
    · simp [h]
    · have hne : (e.1 == key) = false := by simpa using fun h' => h h'.symm
      rw [if_neg h, hne]
      exact ih

/-- Of the entries of a list the last one with a key counts. -/
lemma get?_ofList (l : List (String × β)) (key : String) :
    (ofList l).get? key = (l.reverse.find? fun e => e.1 == key).map Prod.snd := by
  rw [ofList, get?_foldl_insert, get?_empty, Option.or_none]

lemma mem_of_get?_ofList {l : List (String × β)} {key : String} {v : β}
    (h : (ofList l).get? key = some v) : (key, v) ∈ l := by
  rw [get?_ofList, Option.map_eq_some_iff] at h
  obtain ⟨e, hfind, rfl⟩ := h
  obtain rfl : e.1 = key := by simpa using List.find?_some hfind
  exact List.mem_reverse.1 (List.mem_of_find?_eq_some hfind)

/-- Where no key occurs twice, every entry of a list counts. -/
lemma get?_ofList_eq_some {l : List (String × β)} (h : l.Pairwise fun a b => a.1 ≠ b.1)
    {key : String} {v : β} : (ofList l).get? key = some v ↔ (key, v) ∈ l := by
  have hreverse : l.reverse.Pairwise fun a b => a.1 ≠ b.1 := by
    rw [List.pairwise_reverse]
    exact h.imp fun hab => hab.symm
  rw [get?_ofList, Option.map_eq_some_iff]
  constructor
  · rintro ⟨e, hfind, rfl⟩
    obtain ⟨hmem, rfl⟩ := (find?_key_eq_some hreverse).1 hfind
    exact List.mem_reverse.1 hmem
  · intro hmem
    exact ⟨_, (find?_key_eq_some hreverse).2 ⟨List.mem_reverse.2 hmem, rfl⟩, rfl⟩

/-- A map is the map of its entries. -/
@[simp] lemma ofList_entries (m : SortedMap β) : ofList m.entries = m := by
  refine ext_get? fun key => ?_
  ext v
  rw [get?_ofList_eq_some m.keys_ne, mem_entries_iff]

/-- Where two maps have a key, the value of the second one counts. -/
lemma get?_union (m n : SortedMap β) (key : String) :
    (m.union n).get? key = (n.get? key).or (m.get? key) := by
  rw [union, get?_foldl_insert, ← get?_ofList, ofList_entries]

/-! ### Maps of maps -/

/-- Behind a change at two keys the value there is the new one, and all others are as before. -/
lemma get?_bind_upsert_insert (m : SortedMap (SortedMap β)) (outer inner : String) (v : β)
    (k k' : String) :
    ((m.upsert outer fun old => (old.getD .empty).insert inner v).get? k).bind (·.get? k')
      = if k = outer ∧ k' = inner then some v else (m.get? k).bind (·.get? k') := by
  rw [get?_upsert]
  by_cases houter : k = outer
  · subst houter
    rw [if_pos rfl, Option.bind_some, get?_insert]
    by_cases hinner : k' = inner
    · simp [hinner]
    · rw [if_neg hinner, if_neg fun h => hinner h.2]
      cases m.get? k <;> simp
  · rw [if_neg houter, if_neg fun h => houter h.1]

/-- Whether each map in a map of maps has an entry. -/
def Filled (m : SortedMap (SortedMap β)) : Prop :=
  ∀ outer inner, m.get? outer = some inner → ∃ key, (inner.get? key).isSome

lemma filled_empty : Filled (empty : SortedMap (SortedMap β)) := by
  intro outer inner h
  simp at h

lemma Filled.upsert_insert {m : SortedMap (SortedMap β)} (h : Filled m) (outer inner : String)
    (v : β) : Filled (m.upsert outer fun old => (old.getD .empty).insert inner v) := by
  intro k values hvalues
  rw [get?_upsert] at hvalues
  split at hvalues
  · obtain rfl := Option.some.inj hvalues
    exact ⟨inner, by rw [get?_insert, if_pos rfl]; rfl⟩
  · exact h k values hvalues

/-- Two maps of maps without empty maps in them are equal if they have the same value at each two
keys. -/
theorem Filled.ext {m n : SortedMap (SortedMap β)} (hm : Filled m) (hn : Filled n)
    (h : ∀ k k', (m.get? k).bind (·.get? k') = (n.get? k).bind (·.get? k')) : m = n := by
  -- a key of one map is a key of the other, as there is a value behind it
  have hsome : ∀ {m n : SortedMap (SortedMap β)}, Filled m →
      (∀ k k', (m.get? k).bind (·.get? k') = (n.get? k).bind (·.get? k')) →
      ∀ k inner, m.get? k = some inner → ∃ inner', n.get? k = some inner' := by
    intro m n hm h k inner hinner
    obtain ⟨k', hk'⟩ := hm k inner hinner
    have hmn := h k k'
    rw [hinner, Option.bind_some] at hmn
    cases hn : n.get? k with
    | some inner' => exact ⟨inner', rfl⟩
    | none =>
      rw [hn, Option.bind_none] at hmn
      simp [hmn] at hk'
  refine ext_get? fun k => ?_
  cases hk : m.get? k with
  | none =>
    cases hk' : n.get? k with
    | none => rfl
    | some inner =>
      obtain ⟨inner', hinner'⟩ := hsome hn (fun k k' => (h k k').symm) k inner hk'
      simp [hk] at hinner'
  | some inner =>
    obtain ⟨inner', hinner'⟩ := hsome hm h k inner hk
    rw [hinner']
    congr 1
    refine ext_get? fun k' => ?_
    have hvalue := h k k'
    rw [hk, hinner'] at hvalue
    exact hvalue

/-! ### What every entry satisfies -/

variable {P : String × β → Prop} {m : SortedMap β} {key : String}

lemma forall_upsert {f : Option β → β} (hm : ∀ e ∈ m.entries, P e)
    (hf : P (key, f (m.get? key))) : ∀ e ∈ (m.upsert key f).entries, P e := by
  intro e he
  rw [mem_entries_iff, get?_upsert] at he
  split at he
  next hkey =>
    have hvalue := Option.some.inj he
    rw [hvalue, ← hkey] at hf
    exact hf
  next => exact hm e (mem_entries_iff.2 he)

lemma forall_insert {v : β} (hm : ∀ e ∈ m.entries, P e) (hv : P (key, v)) :
    ∀ e ∈ (m.insert key v).entries, P e :=
  forall_upsert hm hv

lemma forall_union {other : SortedMap β} (hm : ∀ e ∈ m.entries, P e)
    (hother : ∀ e ∈ other.entries, P e) : ∀ e ∈ (m.union other).entries, P e := by
  -- the induction is on the entries that are put in, for any map that they are put into
  suffices h : ∀ (l : List (String × β)) (m : SortedMap β), (∀ e ∈ m.entries, P e) →
      (∀ e ∈ l, P e) → ∀ e ∈ (l.foldl (fun acc e => acc.insert e.1 e.2) m).entries, P e from
    h other.entries m hm hother
  intro l
  induction l with
  | nil => exact fun m hm _ => hm
  | cons a l ih =>
    intro m hm hl
    rw [List.forall_mem_cons] at hl
    exact ih _ (forall_insert hm hl.1) hl.2

lemma forall_ofList {l : List (String × β)} (hl : ∀ e ∈ l, P e) :
    ∀ e ∈ (ofList l).entries, P e :=
  fun e he => hl e (mem_of_get?_ofList (mem_entries_iff.1 he))

end SortedMap

end HouseStyle
