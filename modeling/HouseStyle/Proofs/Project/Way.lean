import HouseStyle.Project.Disk
import Mathlib.Data.List.TakeWhile
import Mathlib.Tactic.Common

/-!
# The way to an entry of a directory

A path is a text, and a path below it is made by putting a slash and a name behind it.  The way that
such a path describes is the way of the directory with one more component, however the directory is
written: slashes at its end, which ask for a directory, make no difference (`way_join`).
-/

namespace HouseStyle

namespace Text

lemma splitAt_ne_nil (mark : Char) (cs : List Char) : splitAt mark cs ≠ [] := by
  cases cs with
  | nil => simp [splitAt]
  | cons c cs =>
    rw [splitAt]
    split
    · simp
    · split <;> simp

/-- The parts before a mark and behind it. -/
lemma splitAt_append (mark : Char) (as bs : List Char) :
    splitAt mark (as ++ mark :: bs) = splitAt mark as ++ splitAt mark bs := by
  induction as with
  | nil =>
    obtain ⟨part, more, h⟩ := List.exists_cons_of_ne_nil (splitAt_ne_nil mark bs)
    simp [splitAt, h]
  | cons a as ih =>
    obtain ⟨part, more, h⟩ := List.exists_cons_of_ne_nil (splitAt_ne_nil mark as)
    rw [List.cons_append, splitAt, ih, splitAt, h]
    simp only [List.cons_append]
    split_ifs <;> rfl

lemma splitAt_of_not_mem {mark : Char} {cs : List Char} (h : mark ∉ cs) :
    splitAt mark cs = [cs] := by
  induction cs with
  | nil => rfl
  | cons c cs ih =>
    rw [List.mem_cons, not_or] at h
    rw [splitAt, ih h.2]
    exact if_neg fun hc => h.1 hc.symm

/-- Only the empty text has nothing but one empty part. -/
lemma splitAt_eq_singleton_nil {mark : Char} {cs : List Char} (h : splitAt mark cs = [[]]) :
    cs = [] := by
  cases cs with
  | nil => rfl
  | cons c cs =>
    obtain ⟨part, more, hparts⟩ := List.exists_cons_of_ne_nil (splitAt_ne_nil mark cs)
    rw [splitAt, hparts] at h
    simp only at h
    split_ifs at h <;> simp at h

end Text

/-- The name of an entry: not empty, without a slash, and not made of dots that have a meaning. -/
def Path.IsName (name : String) : Prop :=
  name.toList ≠ [] ∧ '/' ∉ name.toList ∧ name.toList ≠ ['.'] ∧ name.toList ≠ ['.', '.']

instance (name : String) : Decidable (Path.IsName name) :=
  inferInstanceAs (Decidable (_ ∧ _))

lemma Path.IsName.laterPart? {name : String} (h : IsName name) :
    Path.laterPart? name.toList = some (.entry (.text name)) := by
  obtain ⟨hnil, -, hdot, hdots⟩ := h
  simp [Path.laterPart?, hnil, hdot, hdots]

namespace Disk

/-- The component of a part between slashes that is not the first one; a single dot is one. -/
def laterStep? (part : List Char) : Option PathPart :=
  if part = [] then none else if part = ['.'] then some .here else Path.laterPart? part

/-- The components of the parts between slashes, where an empty part at the end says nothing. -/
def trunkOf : List (List Char) → List PathPart
  | [] => []
  | first :: rest =>
    if first = [] then (if rest = [] then [] else .root :: rest.filterMap laterStep?)
    else if first = ['.'] then .here :: rest.filterMap laterStep?
    else (Path.laterPart? first).toList ++ rest.filterMap laterStep?

/-- The way that a path describes, but for slashes at its end. -/
def trunk (p : Path) : List PathPart := trunkOf (Text.splitAt '/' p.text.toList)

/-- A slash at the end of a path asks for a directory. -/
lemma way_eq (p : Path) : way p = trunk p ++
    if (Text.splitAt '/' p.text.toList).tail.getLast? = some [] then [.here] else [] := by
  have hstep : (fun part => if part = [] then none else if part = ['.'] then some PathPart.here
      else Path.laterPart? part) = laterStep? := rfl
  rw [way, trunk]
  cases Text.splitAt '/' p.text.toList with
  | nil => rfl
  | cons first rest =>
    simp only [trunkOf, hstep, List.tail_cons]
    split_ifs <;> simp_all

lemma way_eq_trunk (p : Path) : way p = trunk p ∨ way p = trunk p ++ [.here] := by
  rw [way_eq]
  split_ifs
  · exact Or.inr rfl
  · exact Or.inl (List.append_nil _)

lemma trunkOf_append {parts : List (List Char)} (hnil : parts ≠ []) (hempty : parts ≠ [[]])
    (more : List (List Char)) :
    trunkOf (parts ++ more) = trunkOf parts ++ more.filterMap laterStep? := by
  obtain ⟨first, rest, rfl⟩ := List.exists_cons_of_ne_nil hnil
  by_cases hfirst : first = []
  · have hrest : rest ≠ [] := by
      rintro rfl
      exact hempty (by rw [hfirst])
    simp [trunkOf, hfirst, hrest]
  · simp only [trunkOf, List.cons_append, if_neg hfirst, List.filterMap_append]
    split_ifs <;> simp

lemma trunkOf_concat {parts : List (List Char)} (hnil : parts ≠ []) (hempty : parts ≠ [[]])
    (part : List Char) : trunkOf (parts ++ [part]) = trunkOf parts ++ (laterStep? part).toList := by
  rw [trunkOf_append hnil hempty]
  cases h : laterStep? part <;> simp [h]

/-- What follows a slash at the end of a path. -/
lemma trunkOf_append_of_slash {parts more : List (List Char)} (hnil : parts ≠ [])
    (hmore : more ≠ []) :
    trunkOf (parts ++ more) = trunkOf (parts ++ [[]]) ++ more.filterMap laterStep? := by
  by_cases hempty : parts = [[]]
  · simp [hempty, trunkOf, hmore, laterStep?]
  · rw [trunkOf_append hnil hempty, trunkOf_append hnil hempty]
    simp [laterStep?]

lemma laterStep?_of_isName {name : String} (h : Path.IsName name) :
    laterStep? name.toList = some (.entry (.text name)) := by
  rw [laterStep?, if_neg h.1, if_neg h.2.2.1, h.laterPart?]

lemma trunkOf_concat_nil {parts : List (List Char)} (hnil : parts ≠ []) {name : String}
    (hname : Path.IsName name) :
    trunkOf (parts ++ [name.toList]) = trunkOf (parts ++ [[]]) ++ [.entry (.text name)] := by
  rw [trunkOf_append_of_slash hnil (List.cons_ne_nil _ _)]
  simp [laterStep?_of_isName hname]

lemma filterMap_laterPart? (parts : List (List Char)) :
    parts.filterMap Path.laterPart? = (parts.filterMap laterStep?).filter (· ≠ .here) := by
  induction parts with
  | nil => rfl
  | cons part parts ih =>
    by_cases hnil : part = []
    · simp [hnil, laterStep?, Path.laterPart?, ih]
    · by_cases hdot : part = ['.']
      · simp [hdot, laterStep?, Path.laterPart?, ih]
      · have hstep : laterStep? part = Path.laterPart? part := by simp [laterStep?, hnil, hdot]
        by_cases hup : part = ['.', '.']
        · simp [hup, laterStep?, Path.laterPart?, ih]
        · have hentry : Path.laterPart? part
            = some (.entry (.text (String.ofList part))) := by
            simp [Path.laterPart?, hnil, hdot, hup]
          simp [hstep, hentry, ih]

lemma root_notMem_laterSteps (parts : List (List Char)) :
    PathPart.root ∉ parts.filterMap laterStep? := by
  rw [List.mem_filterMap]
  rintro ⟨part, -, hpart⟩
  rw [laterStep?, Path.laterPart?] at hpart
  split_ifs at hpart <;> simp at hpart

/-- A path has the components of its way, less the dots behind the first component. -/
lemma exists_trunk {p : Path} (hp : p.text ≠ "") : ∃ first later, trunk p = first :: later ∧
    p.parts = first :: later.filter (· ≠ .here) ∧ .root ∉ later := by
  have hchars : p.text.toList ≠ [] := fun h => hp (String.toList_eq_nil_iff.1 h)
  obtain ⟨first, rest, hparts⟩ :=
    List.exists_cons_of_ne_nil (Text.splitAt_ne_nil '/' p.text.toList)
  rw [trunk, Path.parts, hparts, trunkOf]
  simp only [filterMap_laterPart?]
  by_cases hfirst : first = []
  · by_cases hrest : rest = []
    · exact absurd (Text.splitAt_eq_singleton_nil (by rw [hparts, hfirst, hrest])) hchars
    · exact ⟨.root, _, by simp [hfirst, hrest], by simp [hfirst, hrest],
        root_notMem_laterSteps rest⟩
  · by_cases hdot : first = ['.']
    · exact ⟨.here, _, by simp [hdot], by simp [hdot], root_notMem_laterSteps rest⟩
    · obtain ⟨part, hpart⟩ : ∃ part, Path.laterPart? first = some part := by
        rw [Path.laterPart?, if_neg (by simp [hfirst, hdot])]
        split_ifs <;> exact ⟨_, rfl⟩
      exact ⟨part, _, by simp [hfirst, hdot, hpart], by simp [hfirst, hdot, hpart],
        root_notMem_laterSteps rest⟩

lemma trunk_ne_nil {p : Path} (hp : p.text ≠ "") : trunk p ≠ [] := by
  obtain ⟨first, later, htrunk, -⟩ := exists_trunk hp
  rw [htrunk]
  exact List.cons_ne_nil _ _

/-- Slashes at the end of a path do not change its way otherwise. -/
lemma trunkOf_slashes {cs : List Char} (h : cs ≠ []) (n : Nat) :
    trunkOf (Text.splitAt '/' (cs ++ List.replicate n '/')) = trunkOf (Text.splitAt '/' cs) := by
  induction n with
  | zero => rw [List.replicate_zero, List.append_nil]
  | succ n ih =>
    have hparts : Text.splitAt '/' (cs ++ List.replicate (n + 1) '/')
        = Text.splitAt '/' (cs ++ List.replicate n '/') ++ [[]] := by
      rw [List.replicate_succ', ← List.append_assoc]
      exact Text.splitAt_append '/' _ []
    have hempty : Text.splitAt '/' (cs ++ List.replicate n '/') ≠ [[]] := by
      intro hnil
      exact h (List.append_eq_nil_iff.1 (Text.splitAt_eq_singleton_nil hnil)).1
    rw [hparts, trunkOf_concat (Text.splitAt_ne_nil _ _) hempty, ih]
    exact List.append_nil _

lemma wayToName_eq_trunk (p : Path) :
    wayToName p = trunk p ∨ wayToName p = trunk p ++ [.here] := by
  let slashes := p.text.toList.reverse.takeWhile (· == '/')
  let name := (p.text.toList.reverse.dropWhile (· == '/')).reverse
  have hname : name ++ slashes.reverse = p.text.toList := by
    rw [← List.reverse_append, List.takeWhile_append_dropWhile, List.reverse_reverse]
  by_cases hnil : name = []
  · have hway : wayToName p = way p := by
      rw [wayToName]
      simp only [name] at hnil
      rw [hnil]
    rw [hway]
    exact way_eq_trunk p
  · have hway : wayToName p = way ⟨String.ofList name⟩ := by
      rw [wayToName]
      split
      next h => exact absurd h hnil
      next => rfl
    have hslashes : slashes.reverse = List.replicate slashes.length '/' := by
      rw [List.eq_replicate_iff]
      refine ⟨List.length_reverse, fun c hc => ?_⟩
      simpa using List.mem_takeWhile_imp (List.mem_reverse.1 hc)
    have htrunk : trunk ⟨String.ofList name⟩ = trunk p := by
      rw [trunk, trunk, ← hname, hslashes, trunkOf_slashes hnil, String.toList_ofList]
    rw [hway, ← htrunk]
    exact way_eq_trunk _

/-- The way to an entry of a directory is the way to the directory and one step further. -/
theorem way_join {p : Path} (hp : p.text ≠ "") {name : String} (hname : Path.IsName name) :
    way (p.join ⟨name⟩) = trunk p ++ [.entry (.text name)] := by
  have hchars : p.text.toList ≠ [] := fun h => hp (String.toList_eq_nil_iff.1 h)
  have hstart : Text.startsWith name.toList "/" = false := by
    rw [Bool.eq_false_iff]
    intro h
    obtain ⟨rest, hrest⟩ := List.isPrefixOf_iff_prefix.1 h
    exact hname.2.1 (hrest ▸ List.mem_append_left rest (by decide))
  have hname' := Text.splitAt_of_not_mem hname.2.1
  -- a path with a name behind some parts does not end with a slash
  have hway : ∀ q : Path, ∀ parts, parts ≠ [] → Text.splitAt '/' q.text.toList
      = parts ++ [name.toList] → way q = trunkOf (parts ++ [name.toList]) := by
    intro q parts hparts hq
    obtain ⟨first, rest, rfl⟩ := List.exists_cons_of_ne_nil hparts
    rw [way_eq, trunk, hq]
    simp [hname.1]
  by_cases hend : Text.endsWith p.text.toList "/" = true
  · obtain ⟨base, hbase⟩ := List.isSuffixOf_iff_suffix.1 hend
    have hp' : Text.splitAt '/' p.text.toList = Text.splitAt '/' base ++ [[]] := by
      rw [← hbase]
      exact Text.splitAt_append '/' base []
    have hjoin : Text.splitAt '/' (p.join ⟨name⟩).text.toList
        = Text.splitAt '/' base ++ [name.toList] := by
      have htext : (p.join ⟨name⟩).text = p.text ++ name := by
        simp [Path.join, hstart, hp, hend]
      rw [htext, String.toList_append, ← hbase, List.append_assoc, ← hname']
      exact Text.splitAt_append '/' base name.toList
    rw [hway _ _ (Text.splitAt_ne_nil _ _) hjoin, trunk, hp']
    exact trunkOf_concat_nil (Text.splitAt_ne_nil _ _) hname
  · have hjoin : Text.splitAt '/' (p.join ⟨name⟩).text.toList
        = Text.splitAt '/' p.text.toList ++ [name.toList] := by
      have htext : (p.join ⟨name⟩).text = p.text ++ "/" ++ name := by
        simp [Path.join, hstart, hp, hend]
      rw [htext, String.toList_append, String.toList_append, List.append_assoc, ← hname']
      exact Text.splitAt_append '/' p.text.toList name.toList
    rw [hway _ _ (Text.splitAt_ne_nil _ _) hjoin, trunkOf_concat (Text.splitAt_ne_nil _ _)
      (fun h => hchars (Text.splitAt_eq_singleton_nil h)), laterStep?_of_isName hname]
    rfl

/-! ### Paths of entries -/

/-- A path of entries goes from one entry to the next, and may rest on the way. -/
lemma trunk_of_entries {q : Path} {names : List EntryName} (hq : q.parts = names.map .entry)
    (hnil : names ≠ []) :
    trunk q = (Text.splitAt '/' q.text.toList).filterMap laterStep? ∧
      Text.startsWith q.text.toList "/" = false := by
  obtain ⟨first, rest, hsplit⟩ :=
    List.exists_cons_of_ne_nil (Text.splitAt_ne_nil '/' q.text.toList)
  obtain ⟨name, more, rfl⟩ := List.exists_cons_of_ne_nil hnil
  rw [Path.parts, hsplit] at hq
  simp only at hq
  have hfirst : first ≠ [] := by
    rintro rfl
    rw [if_pos rfl] at hq
    split_ifs at hq <;> simp at hq
  have hdot : first ≠ ['.'] := by
    rintro rfl
    simp at hq
  refine ⟨?_, Bool.eq_false_iff.2 fun hstart => hfirst ?_⟩
  · have hstep : laterStep? first = Path.laterPart? first := by simp [laterStep?, hfirst, hdot]
    rw [trunk, hsplit, trunkOf, if_neg hfirst, if_neg hdot, List.filterMap_cons, hstep]
    cases Path.laterPart? first <;> rfl
  · obtain ⟨more, hmore⟩ := List.isPrefixOf_iff_prefix.1 hstart
    have hslash : q.text.toList = [] ++ '/' :: more := hmore.symm
    rw [hslash, Text.splitAt_append] at hsplit
    exact (List.cons.inj hsplit).1.symm

/-- The way to a place below a directory is the way to the directory and goes on from there. -/
theorem trunk_join {p q : Path} (hp : p.text ≠ "") {names : List EntryName}
    (hq : q.parts = names.map .entry) (hnil : names ≠ []) :
    trunk (p.join q) = trunk p ++ trunk q := by
  obtain ⟨htrunk, hstart⟩ := trunk_of_entries hq hnil
  have hne := Text.splitAt_ne_nil '/' q.text.toList
  rw [htrunk]
  by_cases hend : Text.endsWith p.text.toList "/" = true
  · obtain ⟨base, hbase⟩ := List.isSuffixOf_iff_suffix.1 hend
    have hjoin : (p.join q).text = p.text ++ q.text := by simp [Path.join, hstart, hp, hend]
    have hslash : base ++ "/".toList = base ++ '/' :: [] := rfl
    rw [trunk, trunk, hjoin, String.toList_append, ← hbase, hslash, List.append_assoc]
    change trunkOf (Text.splitAt '/' (base ++ '/' :: q.text.toList)) = _
    rw [Text.splitAt_append, Text.splitAt_append,
      trunkOf_append_of_slash (Text.splitAt_ne_nil _ _) hne]
    rfl
  · have hjoin : (p.join q).text.toList = p.text.toList ++ '/' :: q.text.toList := by
      simp [Path.join, hstart, hp, hend]
    have hempty : Text.splitAt '/' p.text.toList ≠ [[]] := fun h =>
      hp (String.toList_eq_nil_iff.1 (Text.splitAt_eq_singleton_nil h))
    rw [trunk, trunk, hjoin, Text.splitAt_append, trunkOf_append (Text.splitAt_ne_nil _ _) hempty]

/-- The components of a path below another one. -/
theorem parts_join {p q : Path} (hp : p.text ≠ "") {names : List EntryName}
    (hq : q.parts = names.map .entry) (hnil : names ≠ []) :
    (p.join q).text ≠ "" ∧ (p.join q).parts = p.parts ++ q.parts ∧
      (trunk q).filter (· ≠ .here) = q.parts := by
  have htrunk := trunk_join hp hq hnil
  obtain ⟨first, later, hfirst, hparts, -⟩ := exists_trunk hp
  have hjoined : (p.join q).text ≠ "" := by
    intro hempty
    rw [hfirst, trunk, hempty] at htrunk
    simp [Text.splitAt, trunkOf] at htrunk
  have hq' : q.text ≠ "" := by
    intro hempty
    obtain ⟨name, more, rfl⟩ := List.exists_cons_of_ne_nil hnil
    rw [Path.parts, hempty] at hq
    simp [Text.splitAt] at hq
  obtain ⟨first', later', hfirst', hparts', -⟩ := exists_trunk hjoined
  obtain ⟨start, more, hstart, hstarts, -⟩ := exists_trunk hq'
  have hentry : start ≠ .here := by
    rintro rfl
    rw [hstarts] at hq
    obtain ⟨name, rest, rfl⟩ := List.exists_cons_of_ne_nil hnil
    cases (List.cons.inj hq).1
  have hfilter : (trunk q).filter (· ≠ .here) = q.parts := by
    rw [hstart, hstarts, List.filter_cons_of_pos (by simpa using hentry)]
  refine ⟨hjoined, ?_, hfilter⟩
  rw [hfirst', hfirst, List.cons_append] at htrunk
  obtain ⟨rfl, rfl⟩ := List.cons.inj htrunk
  rw [hparts', hparts, List.filter_append, hfilter, List.cons_append]

end Disk

end HouseStyle
