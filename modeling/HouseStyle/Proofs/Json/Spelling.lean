import HouseStyle.Proofs.Json.Numeral
import HouseStyle.Proofs.Json.Quoted

/-!
# Written values are documents

The laid out text of a value is a document again, whatever the value is: every number in it has a
text that spells a number, or is written as nothing.  The document that is read has the same shape
as the value, so it can be computed from the value (`Json.spelled`), and reading what was written
becomes a matter of trees (`Document.parse?_layOut`).

The proof follows the two readers along the text.  They look at one character beyond a value, and
what follows a value inside a document is never a character with which a number would go on.
-/

namespace HouseStyle

/-- What the text of a finite number in a document says about it: the text is a number with a
point or an exponent, of which the number is the nearest one. -/
class LawfulNumberText (α : Type) [Scalar α] [NumberText α] : Prop where
  /-- Every text is a number with a point or an exponent. -/
  spells : ∀ (x : α) (s : String), NumberText.document x = some s →
    ∃ n, Document.signed? s.toList = some (n, []) ∧ n.integral = false
  /-- A finite number has a text, and is read back from it. -/
  reads_back : ∀ x : α, Scalar.isFinite x = true →
    ∃ s n, NumberText.document x = some s ∧ Document.signed? s.toList = some (n, []) ∧
      n.real? = some x

namespace Json

variable {α : Type} [NumberText α]

/-- The document that the text of a fractional number spells. -/
def spelledReal (x : α) : Document :=
  match (NumberText.document x).bind fun s => Document.signed? s.toList with
  | some (n, _) => .number n
  | none => .null

mutual

/-- The document that the text of a value spells. -/
def spelled : Json α → Document
  | null => .null
  | flag b => .flag b
  | whole n => .number (.ofInt n)
  | real x => spelledReal x
  | text s => .text (some s)
  | list items => .list (spelledItems items)
  | record members => .record (spelledMembers members)

/-- The documents that the texts of some items spell. -/
def spelledItems : List (Json α) → List Document
  | [] => []
  | item :: items => item.spelled :: spelledItems items

/-- The members that the texts of some members spell. -/
def spelledMembers : List (String × Json α) → List (Option String × Document)
  | [] => []
  | (name, value) :: members => (some name, value.spelled) :: spelledMembers members

end

lemma spelledItems_eq (items : List (Json α)) : spelledItems items = items.map spelled := by
  induction items with
  | nil => rfl
  | cons item items ih => rw [spelledItems, ih, List.map_cons]

lemma spelledMembers_eq (members : List (String × Json α)) :
    spelledMembers members = members.map fun m => (some m.1, m.2.spelled) := by
  induction members with
  | nil => rfl
  | cons m members ih =>
    obtain ⟨name, value⟩ := m
    rw [spelledMembers, ih, List.map_cons]

end Json

namespace Document

/-! ### Blanks -/

lemma skip_of_head {c : Char} (h : isSpace c = false) (cs : List Char) :
    skip (c :: cs) = c :: cs := by
  simp [skip, h]

lemma skip_newLine (level : Nat) (cs : List Char) : skip (Json.newLine level ++ cs) = skip cs := by
  have hblanks : ∀ n, skip (List.replicate n ' ' ++ cs) = skip cs := by
    intro n
    induction n with
    | zero => rfl
    | succ n ih =>
      rw [List.replicate_succ, List.cons_append, ← ih]
      simp [skip, isSpace]
  rw [Json.newLine, List.cons_append, ← hblanks (2 * level)]
  simp [skip, isSpace]

lemma skip_space (cs : List Char) : skip (' ' :: cs) = skip cs := by
  simp [skip, isSpace]

lemma value?_congr {cs cs' : List Char} (h : skip cs = skip cs') (fuel : Nat) :
    value? fuel cs = value? fuel cs' := by
  cases fuel with
  | zero => rfl
  | succ fuel => simp only [value?, h]

lemma items?_congr {cs cs' : List Char} (h : skip cs = skip cs') (fuel : Nat) :
    items? fuel cs = items? fuel cs' := by
  cases fuel with
  | zero => rfl
  | succ fuel => rw [items?, items?, value?_congr h]

lemma members?_congr {cs cs' : List Char} (h : skip cs = skip cs') (fuel : Nat) :
    members? fuel cs = members? fuel cs' := by
  cases fuel with
  | zero => rfl
  | succ fuel => rw [members?, members?, h]

/-! ### Single values -/

lemma ne_of_isDigit {c d : Char} (hc : c.isDigit = true) (hd : d.isDigit = false) : c ≠ d := by
  rintro rfl
  simp [hc] at hd

lemma isSpace_of_isDigit {c : Char} (h : c.isDigit = true) : isSpace c = false := by
  simp [isSpace, ne_of_isDigit h (d := ' ') rfl, ne_of_isDigit h (d := '\n') rfl,
    ne_of_isDigit h (d := '\t') rfl, ne_of_isDigit h (d := '\r') rfl]

/-- A number is read as a value. -/
lemma value?_of_signed? {cs r : List Char} {n : Numeral} (h : signed? cs = some (n, r))
    (fuel : Nat) : value? (fuel + 1) cs = some (.number n, r) := by
  obtain ⟨c, rest, rfl, hminus | hdigit⟩ := exists_head_of_signed? h
  · subst hminus
    have hn : numeral? true rest = some (n, r) := h
    rw [value?, skip_of_head (by decide)]
    simp [hn]
  · have hn : numeral? false (c :: rest) = some (n, r) := by
      rw [← h, signed?_of_head]
      rintro d hd rfl
      exact ne_of_isDigit hdigit (d := '-') rfl (by simpa using hd)
    have hc : ∀ d r, d.isDigit = false → c :: rest ≠ d :: r :=
      fun d r hd heq => ne_of_isDigit hdigit hd (List.cons.inj heq).1
    rw [value?, skip_of_head (isSpace_of_isDigit hdigit)]
    -- every other kind of value starts with a character that is no digit
    split
    case h_8 =>
      rw [hn]
      rfl
    all_goals
      rename_i heq
      exact absurd heq (hc _ _ rfl)

/-- A text in quotes is read as a value. -/
lemma value?_quote (s : String) (rest : List Char) (fuel : Nat) :
    value? (fuel + 1) (Json.quote s ++ rest) = some (.text (some s), rest) := by
  have hbody := textBody?_quote s rest
  rw [value?, Json.quote, List.cons_append, List.cons_append, skip_of_head (by decide)]
  simp [hbody]

section Texts

variable {α : Type} [NumberText α]

lemma afterNumber_layOutItems (level : Nat) (items : List (Json α)) (rest : List Char) :
    AfterNumber (Json.layOutItems level items ++ rest) := by
  cases items <;> exact afterNumber_cons (by decide) (by decide) (by decide) (by decide)

lemma afterNumber_layOutMembers (level : Nat) (members : List (String × Json α))
    (rest : List Char) : AfterNumber (Json.layOutMembers level members ++ rest) := by
  cases members <;> exact afterNumber_cons (by decide) (by decide) (by decide) (by decide)

variable [Scalar α] [LawfulNumberText α]

/-- The text of a fractional number is read as the document that it spells. -/
lemma value?_realText (x : α) {rest : List Char} (hrest : AfterNumber rest) (fuel : Nat) :
    value? (fuel + 1) (Json.realText x ++ rest) = some (Json.spelledReal x, rest) := by
  cases hx : NumberText.document x with
  | none => simp [Json.realText, Json.spelledReal, hx, value?, skip, isSpace]
  | some s =>
    obtain ⟨n, hn, -⟩ := LawfulNumberText.spells x s hx
    have happend := signed?_append hrest hn
    simp only [Json.realText, Json.spelledReal, hx, Option.bind_some, hn]
    exact value?_of_signed? happend fuel

/-- The text of a value starts neither with a blank nor with the end of a list. -/
lemma exists_head_layOut (v : Json α) (level : Nat) :
    ∃ c cs, v.layOut level = c :: cs ∧ isSpace c = false ∧ c ≠ ']' := by
  have hnumber : ∀ {cs : List Char} {n : Numeral}, signed? cs = some (n, []) →
      ∃ c rest, cs = c :: rest ∧ isSpace c = false ∧ c ≠ ']' := by
    intro cs n h
    obtain ⟨c, rest, rfl, rfl | hdigit⟩ := exists_head_of_signed? h
    · exact ⟨_, _, rfl, by decide, by decide⟩
    · exact ⟨_, _, rfl, isSpace_of_isDigit hdigit, ne_of_isDigit hdigit rfl⟩
  match v with
  | .null => exact ⟨_, _, rfl, by decide, by decide⟩
  | .flag true => exact ⟨_, _, rfl, by decide, by decide⟩
  | .flag false => exact ⟨_, _, rfl, by decide, by decide⟩
  | .whole n => exact hnumber (Numeral.signed?_wholeText n)
  | .real x =>
    cases hx : NumberText.document x with
    | none =>
      exact ⟨'n', "ull".toList, by simp [Json.layOut, Json.realText, hx], by decide, by decide⟩
    | some s =>
      obtain ⟨n, hn, -⟩ := LawfulNumberText.spells x s hx
      rw [Json.layOut, Json.realText, hx]
      exact hnumber hn
  | .text s => exact ⟨_, _, rfl, by decide, by decide⟩
  | .list [] => exact ⟨_, _, rfl, by decide, by decide⟩
  | .list (item :: items) => exact ⟨_, _, rfl, by decide, by decide⟩
  | .record [] => exact ⟨_, _, rfl, by decide, by decide⟩
  | .record ((name, value) :: members) => exact ⟨_, _, rfl, by decide, by decide⟩

/-! ### Whole documents -/

lemma value?_list {cs cs' : List Char} {c : Char} (h : skip cs = c :: cs')
    (hspace : isSpace c = false) (hc : c ≠ ']') (fuel : Nat) :
    value? (fuel + 1) ('[' :: cs) = (items? fuel cs).map fun r => (.list r.1, r.2) := by
  have hskip : skip (c :: cs') = skip cs := by rw [skip_of_head hspace, h]
  rw [value?, skip_of_head (by decide)]
  simp only [h]
  rw [← items?_congr hskip]
  split
  next heq => exact absurd (List.cons.inj heq).1 hc
  next => rfl

lemma value?_record {cs cs' : List Char} (h : skip cs = '\x22' :: cs') (fuel : Nat) :
    value? (fuel + 1) ('\x7b' :: cs) = (members? fuel cs).map fun r => (.record r.1, r.2) := by
  have hskip : skip ('\x22' :: cs') = skip cs := by rw [skip_of_head (by decide), h]
  rw [value?, skip_of_head (by decide)]
  simp only [h]
  rw [← members?_congr hskip]
  split
  next heq => simp at heq
  next => rfl

lemma members?_quote (name : String) {cs r : List Char} {d : Document} {fuel : Nat}
    (h : value? fuel cs = some (d, r)) :
    members? (fuel + 1) (Json.quote name ++ ':' :: cs) =
      match skip r with
      | ',' :: rest => (members? fuel rest).map fun ms => ((some name, d) :: ms.1, ms.2)
      | '\x7d' :: rest => some ([(some name, d)], rest)
      | _ => none := by
  have hbody := textBody?_quote name (':' :: cs)
  have hquote : skip (Json.quote name ++ ':' :: cs)
      = '\x22' :: (name.toList.flatMap Json.escapeChar ++ '\x22' :: ':' :: cs) := by
    rw [Json.quote, List.cons_append, List.cons_append, List.append_assoc]
    exact skip_of_head (by decide) _
  have hcolon : skip (':' :: cs) = ':' :: cs := skip_of_head (by decide) cs
  rw [members?, hquote]
  simp only [hbody, Option.bind_eq_bind, Option.bind_some, hcolon, h]
  generalize skip r = after
  split
  next =>
    simp only [Option.map_eq_bind, Function.comp_def]
    rfl
  next => rfl
  next => simp_all

lemma length_newLine_pos (level : Nat) : 0 < (Json.newLine level).length := by
  simp [Json.newLine]

end Texts

-- The fuel is at least the length of the text.  Each bracket, comma or quote uses up one character
-- of the text and one unit of the fuel, so the induction is on the values and never on the fuel.
mutual

/-- The laid out text of a value is read as the document that the value spells. -/
theorem value?_layOut {α : Type} [Scalar α] [NumberText α] [LawfulNumberText α] (level : Nat) :
    ∀ (v : Json α) {rest : List Char} (fuel : Nat),
    AfterNumber rest → (v.layOut level).length ≤ fuel →
      value? fuel (v.layOut level ++ rest) = some (v.spelled, rest)
  | v, rest, 0, _, hfuel => by
    obtain ⟨c, cs, hcs, -⟩ := exists_head_layOut v level
    simp [hcs] at hfuel
  | .null, rest, fuel + 1, _, _ => by
    simp [Json.layOut, Json.spelled, value?, skip, isSpace]
  | .flag true, rest, fuel + 1, _, _ => by
    simp [Json.layOut, Json.spelled, value?, skip, isSpace]
  | .flag false, rest, fuel + 1, _, _ => by
    simp [Json.layOut, Json.spelled, value?, skip, isSpace]
  | .whole n, rest, fuel + 1, hrest, _ =>
    value?_of_signed? (signed?_append hrest (Numeral.signed?_wholeText n)) fuel
  | .real x, rest, fuel + 1, hrest, _ => value?_realText x hrest fuel
  | .text s, rest, fuel + 1, _, _ => value?_quote s rest fuel
  | .list [], rest, fuel + 1, _, _ => by
    simp [Json.layOut, Json.spelled, Json.spelledItems, value?, skip, isSpace]
  | .list (item :: items), rest, fuel + 1, _, hfuel => by
    obtain ⟨c, cs, hcs, hspace, hc⟩ := exists_head_layOut item (level + 1)
    simp only [Json.layOut, List.length_append, List.length_cons] at hfuel
    -- the new line behind the bracket pays for the step from the value to its items
    have hpos := length_newLine_pos (level + 1)
    have hitems := items?_layOut level item items rest fuel (by omega)
    have hhead : skip (Json.newLine (level + 1) ++ (item.layOut (level + 1) ++
        (Json.layOutItems level items ++ rest)))
          = c :: (cs ++ (Json.layOutItems level items ++ rest)) := by
      rw [skip_newLine, hcs, List.cons_append, skip_of_head hspace]
    simp only [Json.layOut, List.cons_append, List.append_assoc]
    rw [value?_list hhead hspace hc, items?_congr (skip_newLine _ _), hitems]
    rfl
  | .record [], rest, fuel + 1, _, _ => by
    simp [Json.layOut, Json.spelled, Json.spelledMembers, value?, skip, isSpace]
  | .record ((name, value) :: members), rest, fuel + 1, _, hfuel => by
    simp only [Json.layOut, List.length_append, List.length_cons] at hfuel
    have hmembers := members?_layOut level name value members rest fuel
      (by omega)
    have hhead : ∀ tail, skip (Json.newLine (level + 1) ++ (Json.quote name ++ tail))
        = Json.quote name ++ tail := by
      intro tail
      rw [skip_newLine]
      exact skip_of_head (by decide) _
    simp only [Json.layOut, List.cons_append, List.append_assoc]
    rw [value?_record (hhead _), members?_congr (skip_newLine _ _), hmembers]
    rfl
termination_by v => sizeOf v

/-- The items of a list are read up to its end. -/
theorem items?_layOut {α : Type} [Scalar α] [NumberText α] [LawfulNumberText α] (level : Nat) :
    ∀ (item : Json α) (items : List (Json α)) (rest : List Char) (fuel : Nat),
    (item.layOut (level + 1)).length + (Json.layOutItems level items).length ≤ fuel →
      items? fuel (item.layOut (level + 1) ++ (Json.layOutItems level items ++ rest))
        = some (item.spelled :: Json.spelledItems items, rest)
  | item, items, rest, 0, hfuel => by
    obtain ⟨c, cs, hcs, -⟩ := exists_head_layOut item (level + 1)
    simp [hcs] at hfuel
  | item, [], rest, fuel + 1, hfuel => by
    have hpos := length_newLine_pos level
    simp only [Json.layOutItems, List.length_append] at hfuel
    have hitem := value?_layOut (level + 1) item fuel
      (afterNumber_layOutItems level ([] : List (Json α)) rest) (by omega)
    have hend : skip (Json.layOutItems level ([] : List (Json α)) ++ rest) = ']' :: rest := by
      rw [Json.layOutItems, List.append_assoc, skip_newLine]
      exact skip_of_head (by decide) rest
    rw [items?, hitem]
    simp [hend, Json.spelledItems]
  | item, next :: items, rest, fuel + 1, hfuel => by
    simp only [Json.layOutItems, List.length_append, List.length_cons] at hfuel
    have hitem := value?_layOut (level + 1) item fuel
      (afterNumber_layOutItems level (next :: items) rest) (by omega)
    have hitems := items?_layOut level next items rest fuel (by omega)
    have hcomma : skip (Json.layOutItems level (next :: items) ++ rest)
        = ',' :: (Json.newLine (level + 1) ++ (next.layOut (level + 1) ++
            (Json.layOutItems level items ++ rest))) := by
      simp only [Json.layOutItems, List.cons_append, List.append_assoc]
      exact skip_of_head (by decide) _
    rw [items?, hitem]
    simp only [Option.bind_eq_bind, Option.bind_some, hcomma]
    rw [items?_congr (skip_newLine _ _), hitems]
    rfl
termination_by item items => sizeOf item + sizeOf items + 1

/-- The members of a record are read up to its end. -/
theorem members?_layOut {α : Type} [Scalar α] [NumberText α] [LawfulNumberText α] (level : Nat) :
    ∀ (name : String) (value : Json α) (members : List (String × Json α)) (rest : List Char)
    (fuel : Nat),
    (Json.quote name).length + (value.layOut (level + 1)).length
      + (Json.layOutMembers level members).length ≤ fuel →
      members? fuel (Json.quote name ++ ':' :: ' ' :: (value.layOut (level + 1) ++
        (Json.layOutMembers level members ++ rest)))
        = some ((some name, value.spelled) :: Json.spelledMembers members, rest)
  | name, value, members, rest, 0, hfuel => by
    simp [Json.quote] at hfuel
  | name, value, [], rest, fuel + 1, hfuel => by
    have hpos := length_newLine_pos level
    have hquote : 0 < (Json.quote name).length := by simp [Json.quote]
    have hvalue := value?_layOut (level + 1) value fuel
      (afterNumber_layOutMembers level ([] : List (String × Json α)) rest) (by omega)
    rw [← value?_congr (skip_space _)] at hvalue
    have hend : skip (Json.layOutMembers level ([] : List (String × Json α)) ++ rest)
        = '\x7d' :: rest := by
      rw [Json.layOutMembers, List.append_assoc, skip_newLine]
      exact skip_of_head (by decide) rest
    rw [members?_quote name hvalue, hend]
    rfl
  | name, value, (next, following) :: members, rest, fuel + 1, hfuel => by
    simp only [Json.layOutMembers, List.length_append, List.length_cons] at hfuel
    have hvalue := value?_layOut (level + 1) value fuel
      (afterNumber_layOutMembers level ((next, following) :: members) rest) (by omega)
    rw [← value?_congr (skip_space _)] at hvalue
    have hmembers := members?_layOut level next following members rest fuel
      (by omega)
    have hcomma : skip (Json.layOutMembers level ((next, following) :: members) ++ rest)
        = ',' :: (Json.newLine (level + 1) ++ (Json.quote next ++ ':' :: ' ' ::
            (following.layOut (level + 1) ++ (Json.layOutMembers level members ++ rest)))) := by
      simp only [Json.layOutMembers, List.cons_append, List.append_assoc]
      exact skip_of_head (by decide) _
    rw [members?_quote name hvalue, hcomma]
    simp only [members?_congr (skip_newLine _ _), hmembers]
    rfl
termination_by _ value members => sizeOf value + sizeOf members + 1

end

/-- Whatever is written is a document, and spells what its value spells. -/
theorem parse?_layOut {α : Type} [Scalar α] [NumberText α] [LawfulNumberText α] (v : Json α) :
    parse? (v.layOut 0) = some v.spelled := by
  have hvalue : value? ((v.layOut 0).length + 1) (v.layOut 0) = some (v.spelled, []) := by
    have h := value?_layOut 0 v ((v.layOut 0).length + 1) afterNumber_nil (Nat.le_succ _)
    rwa [List.append_nil] at h
  rw [parse?, hvalue]
  rfl

end Document

end HouseStyle
