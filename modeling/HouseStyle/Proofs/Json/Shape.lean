import HouseStyle.Profile.Saved
import HouseStyle.Proofs.Json.Spelling
import HouseStyle.Proofs.SortedMap

/-!
# Reading back what was spelled

A value that was written spells a document, and each reader of a shape finds in it what the value
was made from: texts, counts below `2 ^ 64` and finite numbers, lists and tables of them, and the
fields of a record.  A value of any shape comes back too, if it is one that a reader can give: its
whole numbers fit into 64 bits, its fractional ones are finite, the members of its records ascend,
and its containers are nested no deeper than the reader goes (`Json.Storable`).
-/

namespace HouseStyle

namespace Json

variable {α : Type} [Scalar α]

mutual

/-- A value that comes back from a document with room for some levels of containers. -/
def Storable (room : Nat) : Json α → Prop
  | whole n => -(Count.wordSize 63 : Int) ≤ n ∧ n < Count.wordSize 64
  | real x => Scalar.isFinite x = true
  | list items =>
    match room with
    | 0 => False
    | room + 1 => StorableItems room items
  | record members =>
    match room with
    | 0 => False
    | room + 1 => members.Pairwise (fun a b => a.1 < b.1) ∧ StorableMembers room members
  | _ => True

/-- Items of which each comes back. -/
def StorableItems (room : Nat) : List (Json α) → Prop
  | [] => True
  | item :: items => item.Storable room ∧ StorableItems room items

/-- Members of which each comes back. -/
def StorableMembers (room : Nat) : List (String × Json α) → Prop
  | [] => True
  | (_, value) :: members => value.Storable room ∧ StorableMembers room members

end

variable [NumberText α] [LawfulNumberText α]

/-- A finite number spells a numeral that is not whole and that it is the nearest number of. -/
lemma exists_numeral_of_isFinite {x : α} (h : Scalar.isFinite x = true) :
    ∃ n, spelledReal x = .number n ∧ n.integral = false ∧ n.real? = some x := by
  obtain ⟨s, n, hs, hn, hx⟩ := LawfulNumberText.reads_back x h
  obtain ⟨n', hn', hintegral⟩ := LawfulNumberText.spells x s hs
  obtain rfl : n = n' := by
    rw [hn] at hn'
    exact (Prod.mk.inj (Option.some.inj hn')).1
  refine ⟨n, ?_, hintegral, hx⟩
  simp [spelledReal, hs, hn]

end Json

namespace Document

variable {α : Type} [NumberText α]

/-! ### Single values -/

@[simp] lemma text?_spelled (s : String) : (Json.text s : Json α).spelled.text? = some s := by
  rw [Json.spelled, text?]

@[simp] lemma word?_spelled (s : String) : (Json.text s : Json α).spelled.word? = some s := by
  rw [Json.spelled, word?]

lemma count?_spelled {n : Nat} (h : n < Count.wordSize 64) :
    (Json.count n : Json α).spelled.count? = some n := by
  rw [Json.count, Json.spelled, count?, Numeral.count?, Numeral.int?_ofInt]
  exact if_pos h

lemma real?_spelled [Scalar α] [LawfulNumberText α] {x : α} (h : Scalar.isFinite x = true) :
    (Json.real x).spelled.real? = some x := by
  obtain ⟨n, hn, -, hx⟩ := Json.exists_numeral_of_isFinite h
  rw [Json.spelled, hn, real?, hx]

/-! ### Lists, tables and records -/

variable {β : Type}

/-- A list of values that are read back is read back. -/
lemma list?_spelled {read : Document → Option β} {write : β → Json α} {l : List β}
    (h : ∀ b ∈ l, read (write b).spelled = some b) :
    (Json.list (l.map write)).spelled.list? read = some l := by
  rw [Json.spelled, list?, Json.spelledItems_eq, List.map_map]
  induction l with
  | nil => rfl
  | cons b l ih =>
    have hb := h b List.mem_cons_self
    have hl := ih fun b' hb' => h b' (List.mem_cons_of_mem b hb')
    rw [List.map_cons, List.mapM_cons, hl, Function.comp_apply, hb]
    rfl

lemma texts?_spelled (l : List String) :
    (Json.list (l.map Json.text) : Json α).spelled.list? text? = some l :=
  list?_spelled fun s _ => text?_spelled s

/-- A table of values that are read back is read back. -/
lemma table?_spelled {read : Document → Option β} {write : β → Json α} {m : SortedMap β}
    (h : ∀ e ∈ m.entries, read (write e.2).spelled = some e.2) :
    (m.toJson write).spelled.table? read = some m := by
  have hmapM : ∀ l : List (String × β), (∀ e ∈ l, read (write e.2).spelled = some e.2) →
      ((l.map fun e => (e.1, write e.2)).map fun e => (some e.1, e.2.spelled)).mapM
        (fun e : Option String × Document => do
          let key ← e.1
          let value ← read e.2
          pure (key, value)) = some l := by
    intro l hl
    induction l with
    | nil => rfl
    | cons e l ih =>
      have he := hl e List.mem_cons_self
      have hrest := ih fun e' he' => hl e' (List.mem_cons_of_mem e he')
      rw [List.map_cons, List.map_cons, List.mapM_cons, hrest, he]
      rfl
  rw [SortedMap.toJson, Json.spelled, table?, Json.spelledMembers_eq, hmapM m.entries h]
  simp

/-- Where no name occurs twice, a name is looked up where it stands. -/
lemma lookup_of_mem {l : List (String × β)} (h : (l.map Prod.fst).Nodup) {m : String × β}
    (hm : m ∈ l) : l.lookup m.1 = some m.2 := by
  induction l with
  | nil => simp at hm
  | cons a rest ih =>
    obtain ⟨key, value⟩ := a
    rw [List.map_cons, List.nodup_cons] at h
    rcases List.mem_cons.1 hm with rfl | hm
    · exact List.lookup_cons_self
    · have hne : (m.1 == key) = false := by
        rw [beq_eq_false_iff_ne]
        rintro heq
        exact h.1 (List.mem_map.2 ⟨m, hm, heq⟩)
      rw [List.lookup_cons, hne]
      exact ih h.2 hm

lemma mapM_lookup {known members : List (String × Document)} {shape : List (String × Presence)}
    (hnames : members.map Prod.fst = shape.map Prod.fst)
    (hknown : ∀ m ∈ members, known.lookup m.1 = some m.2) :
    (shape.mapM fun field =>
      match known.lookup field.1 with
      | some d => some (some d)
      | none => if field.2.mayBeAbsent then some none else none)
        = some (members.map fun m => some m.2) := by
  induction shape generalizing members with
  | nil =>
    obtain rfl : members = [] := by simpa using hnames
    rfl
  | cons field shape ih =>
    cases members with
    | nil => simp at hnames
    | cons m members =>
      simp only [List.map_cons, List.cons.injEq] at hnames
      have hm := hknown m List.mem_cons_self
      have hrest := ih hnames.2 fun m' hm' => hknown m' (List.mem_cons_of_mem m hm')
      rw [List.mapM_cons, hrest, ← hnames.1, hm]
      rfl

/-- A record with one member for each field is read field by field. -/
lemma fields?_spelled (shape : List (String × Presence)) {members : List (String × Json α)}
    (hnames : members.map Prod.fst = shape.map Prod.fst) (hnodup : (shape.map Prod.fst).Nodup) :
    (Json.record members).spelled.fields? shape = some (members.map fun m => some m.2.spelled) := by
  let known := members.map fun m => (m.1, m.2.spelled)
  have hfst : known.map Prod.fst = shape.map Prod.fst := by
    rw [← hnames, List.map_map]
    rfl
  -- every written name is a text, so no member is dropped for its name
  have hnamed : ∀ ms : List (String × Json α),
      (ms.map fun m => (some m.1, m.2.spelled)).mapM
        (fun m : Option String × Document => m.1.map fun name => (name, m.2))
          = some (ms.map fun m => (m.1, m.2.spelled)) := by
    intro ms
    induction ms with
    | nil => rfl
    | cons m ms ih =>
      rw [List.map_cons, List.mapM_cons, ih]
      rfl
  -- and every member is one of the shape
  have hfilter : known.filter (fun m => (shape.map Prod.fst).contains m.1) = known := by
    rw [List.filter_eq_self]
    intro m hm
    rw [List.contains_iff_mem, ← hfst]
    exact List.mem_map_of_mem hm
  have hmembers : knownMembers? (shape.map Prod.fst)
      (members.map fun m => (some m.1, m.2.spelled)) = some known := by
    rw [knownMembers?, hnamed]
    simp only [Option.bind_eq_bind, Option.bind_some]
    rw [hfilter, hfst, guard, if_pos hnodup]
    rfl
  have hlookup := mapM_lookup hfst fun m hm => lookup_of_mem (hfst ▸ hnodup) hm
  rw [Json.spelled, Json.spelledMembers_eq, fields?, hmembers, Option.bind_eq_bind,
    Option.bind_some]
  refine hlookup.trans ?_
  rw [List.map_map]
  rfl

/-- What may be nothing is read back, if what is something does not look like nothing. -/
lemma optional?_spelled {read : Document → Option β} {write : β → Json α} {x : Option β}
    (h : ∀ b, x = some b → read (write b).spelled = some b)
    (hnull : ∀ b, (write b).spelled ≠ .null) :
    (Json.optional (x.map write)).spelled.optional? read = some x := by
  cases x with
  | none => rfl
  | some b =>
    have hb := h b rfl
    have hne := hnull b
    change (write b).spelled.optional? read = some (some b)
    generalize (write b).spelled = d at hb hne
    rw [optional?]
    · rw [hb]
      rfl
    · exact hne

/-! ### Values of any shape -/

mutual

/-- A value that a reader can give is read back. -/
theorem json?_spelled [Scalar α] [LawfulNumberText α] : ∀ (v : Json α) {room : Nat},
    v.Storable room → v.spelled.json? room = some v
  | .null, _, _ => by rw [Json.spelled, json?]
  | .flag b, _, _ => by rw [Json.spelled, json?]
  | .whole n, _, h => by
    rw [Json.spelled, json?, Numeral.json?, Numeral.int?_ofInt]
    exact if_pos h
  | .real x, _, h => by
    obtain ⟨n, hn, hintegral, hx⟩ := Json.exists_numeral_of_isFinite h
    -- the numeral has a point or an exponent, so it is not read as a whole number
    have hint : n.int? = none := by simp [Numeral.int?, hintegral]
    rw [Json.spelled, hn, json?, Numeral.json?, hint]
    simp [hx]
  | .text s, _, _ => by
    rw [Json.spelled, json?]
    rfl
  | .list items, 0, h => h.elim
  | .list items, room + 1, h => by
    have hitems := jsonItems?_spelled items h
    rw [Json.spelled, json?, hitems]
    rfl
  | .record members, 0, h => h.elim
  | .record members, room + 1, h => by
    have hmembers := jsonMembers?_spelled members h.2
    have hentries := SortedMap.ofList_entries ⟨members, h.1⟩
    rw [Json.spelled, json?, hmembers, Option.map_some, hentries]

/-- Items that a reader can give are read back. -/
theorem jsonItems?_spelled [Scalar α] [LawfulNumberText α] : ∀ (items : List (Json α)) {room : Nat},
    Json.StorableItems room items → jsonItems? room (Json.spelledItems items) = some items
  | [], _, _ => by rw [Json.spelledItems, jsonItems?]
  | item :: items, _, h => by
    have hitem := json?_spelled item h.1
    have hitems := jsonItems?_spelled items h.2
    rw [Json.spelledItems, jsonItems?, hitem, hitems]
    rfl

/-- Members that a reader can give are read back. -/
theorem jsonMembers?_spelled [Scalar α] [LawfulNumberText α] :
    ∀ (members : List (String × Json α)) {room : Nat}, Json.StorableMembers room members →
      jsonMembers? room (Json.spelledMembers members) = some members
  | [], _, _ => by rw [Json.spelledMembers, jsonMembers?]
  | (name, value) :: members, _, h => by
    have hvalue := json?_spelled value h.1
    have hmembers := jsonMembers?_spelled members h.2
    rw [Json.spelledMembers, jsonMembers?, hvalue, hmembers]
    rfl

end

end Document

end HouseStyle
