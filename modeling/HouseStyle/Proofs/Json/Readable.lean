import HouseStyle.Proofs.Json.Shape
import HouseStyle.Proofs.Number.Capped

/-!
# What readers give

However a document spells a value, what a reader makes of it is one of the values that are written
without loss: its counts fit into 64 bits, its numbers are finite, and a value of any shape is
`Json.Storable`.  For this no numeral may be read as a number that is not finite
(`FiniteNumerals`); a numeral beyond the largest number is refused instead.

Each reader of a container passes on what is known about the values inside.
-/

namespace HouseStyle

/-- Whether only finite numbers are read. -/
class FiniteNumerals (α : Type) [Scalar α] [NumberText α] : Prop where
  /-- The number nearest to a decimal is finite, if there is one. -/
  isFinite_ofDecimal? : ∀ {m : Nat} {k : Int} {x : α}, NumberText.ofDecimal? m k = some x →
    Scalar.isFinite x = true
  /-- A finite number with the other sign is finite. -/
  isFinite_neg : ∀ {x : α}, Scalar.isFinite x = true → Scalar.isFinite (-x) = true

instance : FiniteNumerals WholeNumber where
  isFinite_ofDecimal? _ := rfl
  isFinite_neg _ := rfl

instance : FiniteNumerals CappedNumber where
  isFinite_ofDecimal? _ := rfl
  isFinite_neg _ := rfl

namespace Numeral

variable {α : Type} [Scalar α] [NumberText α] [FiniteNumerals α] {n : Numeral}

lemma isFinite_of_real? {x : α} (h : n.real? = some x) : Scalar.isFinite x = true := by
  rw [real?, Option.map_eq_some_iff] at h
  obtain ⟨y, hy, rfl⟩ := h
  have hfinite := FiniteNumerals.isFinite_ofDecimal? hy
  split_ifs
  · exact FiniteNumerals.isFinite_neg hfinite
  · exact hfinite

lemma lt_of_count? {k : Nat} (h : n.count? = some k) : k < Count.wordSize 64 := by
  unfold count? at h
  split at h
  next k' _ =>
    split at h
    next hlt =>
      obtain rfl := Option.some.inj h
      exact hlt
    next => cases h
  next => cases h

/-- A numeral is a whole number of 64 bits or else a finite number. -/
lemma storable_of_json? {v : Json α} {room : Nat} (h : n.json? = some v) : v.Storable room := by
  have hreal (h : n.real?.map Json.real = some v) : v.Storable room := by
    obtain ⟨x, hx, rfl⟩ := Option.map_eq_some_iff.1 h
    exact isFinite_of_real? hx
  unfold json? at h
  split at h
  next k _ =>
    split at h
    next hrange =>
      obtain rfl := Option.some.inj h
      exact hrange
    next => exact hreal h
  next => exact hreal h

end Numeral

namespace Document

/-! ### Lists, tables and fields -/

section Containers

variable {β : Type} {read : Document → Option β} {P : β → Prop} {d : Document}

lemma forall_of_mapM {γ : Type} {f : γ → Option β} (hf : ∀ c b, f c = some b → P b) {cs : List γ}
    {bs : List β} (h : cs.mapM f = some bs) : ∀ b ∈ bs, P b := by
  induction cs generalizing bs with
  | nil =>
    obtain rfl := Option.some.inj h
    exact fun b hb => absurd hb List.not_mem_nil
  | cons c cs ih =>
    rw [List.mapM_cons] at h
    simp only [bind, Option.bind_eq_some_iff, pure, Option.some.injEq] at h
    obtain ⟨b, hb, rest, hrest, rfl⟩ := h
    rw [List.forall_mem_cons]
    exact ⟨hf c b hb, ih hrest⟩

/-- What holds of everything that is read holds of the items of a list. -/
lemma forall_of_list? (hread : ∀ d b, read d = some b → P b) {l : List β}
    (h : d.list? read = some l) : ∀ b ∈ l, P b := by
  unfold list? at h
  split at h
  · exact forall_of_mapM hread h
  · cases h

/-- What holds of everything that is read holds of the entries of a table. -/
lemma forall_of_table? (hread : ∀ d b, read d = some b → P b) {m : SortedMap β}
    (h : d.table? read = some m) : ∀ e ∈ m.entries, P e.2 := by
  unfold table? at h
  split at h
  · obtain ⟨entries, hentries, rfl⟩ := Option.map_eq_some_iff.1 h
    refine SortedMap.forall_ofList (forall_of_mapM (fun member e he => ?_) hentries)
    simp only [bind, Option.bind_eq_some_iff, pure, Option.some.injEq] at he
    obtain ⟨key, -, b, hb, rfl⟩ := he
    exact hread member.2 b hb
  · cases h

lemma forall_of_optional? (hread : ∀ d b, read d = some b → P b) {x : Option β}
    (h : d.optional? read = some x) : ∀ b, x = some b → P b := by
  unfold optional? at h
  split at h
  · obtain rfl := Option.some.inj h
    exact nofun
  · obtain ⟨b, hb, rfl⟩ := Option.map_eq_some_iff.1 h
    intro b' hb'
    obtain rfl := Option.some.inj hb'
    exact hread _ b hb

/-- What holds of everything that is read, and of what stands in for it, holds of a field that may
be left out. -/
lemma of_orElse? (hread : ∀ d b, read d = some b → P b) {given : Option Document}
    {fallback b : β} (hfallback : P fallback) (h : orElse? given fallback read = some b) :
    P b := by
  cases given with
  | none =>
    obtain rfl := Option.some.inj h
    exact hfallback
  | some d => exact hread d b h

end Containers

/-! ### Single values -/

lemma lt_of_count? {d : Document} {k : Nat} (h : d.count? = some k) : k < Count.wordSize 64 := by
  unfold count? at h
  split at h
  · exact Numeral.lt_of_count? h
  · cases h

variable {α : Type} [Scalar α] [NumberText α]

lemma isFinite_of_real? [FiniteNumerals α] {d : Document} {x : α} (h : d.real? = some x) :
    Scalar.isFinite x = true := by
  unfold real? at h
  split at h
  · exact Numeral.isFinite_of_real? h
  · cases h

/-! ### Values of any shape -/

omit [NumberText α] in
lemma storableMembers_iff {room : Nat} {members : List (String × Json α)} :
    Json.StorableMembers room members ↔ ∀ m ∈ members, m.2.Storable room := by
  induction members with
  | nil => simp [Json.StorableMembers]
  | cons m members ih => rw [Json.StorableMembers, ih, List.forall_mem_cons]

mutual

/-- A value of any shape that is read can be stored. -/
theorem storable_of_json? [FiniteNumerals α] : ∀ (d : Document) {room : Nat} {v : Json α},
    d.json? room = some v → v.Storable room
  | .null, _, v, h => by
    rw [json?] at h
    obtain rfl := Option.some.inj h
    trivial
  | .flag b, _, v, h => by
    rw [json?] at h
    obtain rfl := Option.some.inj h
    trivial
  | .number n, _, v, h => by
    rw [json?] at h
    exact Numeral.storable_of_json? h
  | .text s, _, v, h => by
    rw [json?] at h
    obtain ⟨t, -, rfl⟩ := Option.map_eq_some_iff.1 h
    trivial
  | .list items, 0, v, h => by
    rw [json?] at h
    cases h
  | .list items, room + 1, v, h => by
    rw [json?] at h
    obtain ⟨vs, hvs, rfl⟩ := Option.map_eq_some_iff.1 h
    exact storableItems_of_jsonItems? items hvs
  | .record members, 0, v, h => by
    rw [json?] at h
    cases h
  | .record members, room + 1, v, h => by
    rw [json?] at h
    obtain ⟨ms, hms, rfl⟩ := Option.map_eq_some_iff.1 h
    -- of members with one name the last one is kept, and all are put in order
    refine ⟨(SortedMap.ofList ms).ascending, storableMembers_iff.2 (SortedMap.forall_ofList ?_)⟩
    exact storable_of_mem_jsonMembers? members hms

/-- Items of any shape that are read can be stored. -/
theorem storableItems_of_jsonItems? [FiniteNumerals α] : ∀ (items : List Document) {room : Nat}
    {vs : List (Json α)}, jsonItems? room items = some vs → Json.StorableItems room vs
  | [], _, vs, h => by
    rw [jsonItems?] at h
    obtain rfl := Option.some.inj h
    trivial
  | item :: items, _, vs, h => by
    rw [jsonItems?] at h
    simp only [bind, Option.bind_eq_some_iff, pure, Option.some.injEq] at h
    obtain ⟨w, hw, ws, hws, rfl⟩ := h
    exact ⟨storable_of_json? item hw, storableItems_of_jsonItems? items hws⟩

/-- Members of any shape that are read can be stored. -/
theorem storable_of_mem_jsonMembers? [FiniteNumerals α] :
    ∀ (members : List (Option String × Document)) {room : Nat} {ms : List (String × Json α)},
      jsonMembers? room members = some ms → ∀ m ∈ ms, m.2.Storable room
  | [], _, ms, h => by
    rw [jsonMembers?] at h
    obtain rfl := Option.some.inj h
    exact fun m hm => absurd hm List.not_mem_nil
  | (name, d) :: members, _, ms, h => by
    rw [jsonMembers?] at h
    simp only [bind, Option.bind_eq_some_iff, pure, Option.some.injEq] at h
    obtain ⟨key, -, w, hw, ws, hws, rfl⟩ := h
    rw [List.forall_mem_cons]
    exact ⟨storable_of_json? d hw, storable_of_mem_jsonMembers? members hws⟩

end

end Document

end HouseStyle
