import HouseStyle.Proofs.Script.Recorded
import Mathlib.Data.List.Pairwise
import Mathlib.Data.List.Range
import Mathlib.Tactic.Common

/-!
# Which lines stand in the body of a class

The reader keeps a stack of the depths at which the bodies of classes stand.  A body is taken from
the stack only when a line that is not blank is met outside of it.  So a depth is on the stack
exactly if a class above opened a body there and no line since then that is not blank stands as
shallow as the class (`mem_bodiesAfter`), whatever the depths of the lines are.

Methods are looked for on the lines whose depth is on top of the stack: those that stand directly in
the body of a class (`InClassBody`).
-/

namespace HouseStyle.Script

open Text Survey

variable {dialect : Dialect}

/-! ### The stack -/

/-- Whether a line opens the body of a class. -/
def Line.opensClass (dialect : Dialect) (l : Line) : Bool :=
  !l.isBlank && (typeName? dialect l.code).isSome && holds (trimStart l.code) "class "

/-- The depths of the bodies of the classes that are open below some lines. -/
def bodiesAfter (dialect : Dialect) (before : List Line) : List Nat :=
  before.foldl (bodiesBelow dialect) []

lemma bodiesAfter_concat (before : List Line) (l : Line) :
    bodiesAfter dialect (before ++ [l]) = bodiesBelow dialect (bodiesAfter dialect before) l := by
  rw [bodiesAfter, List.foldl_append]
  rfl

section Stack

variable {bodies : List Nat} {l : Line}

/-- The bodies in which a line of a depth does not stand are on top of the stack. -/
lemma mem_openBodies (h : bodies.Pairwise (· > ·)) {d depth : Nat} :
    d ∈ openBodies depth bodies ↔ d ∈ bodies ∧ d ≤ depth := by
  induction bodies with
  | nil => simp [openBodies]
  | cons b bodies ih =>
    obtain ⟨hb, hbodies⟩ := List.pairwise_cons.1 h
    rw [openBodies, List.dropWhile_cons]
    by_cases hdepth : depth < b
    · rw [if_pos (decide_eq_true hdepth)]
      refine (ih hbodies).trans ?_
      rw [List.mem_cons]
      constructor
      · rintro ⟨hd, hle⟩
        exact ⟨.inr hd, hle⟩
      · rintro ⟨rfl | hd, hle⟩
        · omega
        · exact ⟨hd, hle⟩
    · rw [if_neg (by simpa using hdepth)]
      refine ⟨fun hd => ⟨hd, ?_⟩, And.left⟩
      rcases List.mem_cons.1 hd with rfl | hd
      · omega
      · have hlt := hb d hd
        omega

lemma pairwise_openBodies (h : bodies.Pairwise (· > ·)) (depth : Nat) :
    (openBodies depth bodies).Pairwise (· > ·) :=
  h.sublist (List.dropWhile_sublist _)

/-- The body that is on top for a line is the one in which it stands directly. -/
lemma head?_openBodies (h : bodies.Pairwise (· > ·)) {depth : Nat} :
    (openBodies depth bodies).head? = some depth ↔ depth ∈ bodies := by
  constructor
  · intro hhead
    exact ((mem_openBodies h).1 (List.mem_of_head? hhead)).1
  · intro hmem
    have hopen : depth ∈ openBodies depth bodies := (mem_openBodies h).2 ⟨hmem, Nat.le_refl _⟩
    have hordered := pairwise_openBodies h depth
    have hle : ∀ d ∈ openBodies depth bodies, d ≤ depth := fun d hd => ((mem_openBodies h).1 hd).2
    cases hbodies : openBodies depth bodies with
    | nil =>
      rw [hbodies] at hopen
      cases hopen
    | cons b more =>
      rw [hbodies] at hopen hordered hle
      rcases List.mem_cons.1 hopen with rfl | hmore
      · rfl
      · have hlt := (List.pairwise_cons.1 hordered).1 depth hmore
        have hle := hle b List.mem_cons_self
        omega

/-- A line keeps the bodies in which it stands and may open one more. -/
lemma mem_bodiesBelow (h : bodies.Pairwise (· > ·)) {d : Nat} :
    d ∈ bodiesBelow dialect bodies l ↔
      d ∈ bodies ∧ (l.isBlank = false → d ≤ l.depth) ∨
        l.opensClass dialect = true ∧ d = l.depth + 1 := by
  rw [bodiesBelow, Line.opensClass]
  cases l.isBlank with
  | true => simp
  | false =>
    cases hopens : (typeName? dialect l.code).isSome && holds (trimStart l.code) "class " with
    | true => simp [hopens, mem_openBodies h, or_comm]
    | false => simp [hopens, mem_openBodies h]

/-- The bodies on the stack stand inside each other. -/
lemma pairwise_bodiesBelow (h : bodies.Pairwise (· > ·)) (l : Line) :
    (bodiesBelow dialect bodies l).Pairwise (· > ·) := by
  have hopen := pairwise_openBodies h l.depth
  rw [bodiesBelow]
  split_ifs
  · exact h
  · refine List.pairwise_cons.2 ⟨fun d hd => ?_, hopen⟩
    exact Nat.lt_succ_of_le ((mem_openBodies h).1 hd).2
  · exact hopen

end Stack

lemma pairwise_bodiesAfter (before : List Line) :
    (bodiesAfter dialect before).Pairwise (· > ·) := by
  induction before using List.reverseRecOn with
  | nil => exact .nil
  | append_singleton before l ih =>
    rw [bodiesAfter_concat]
    exact pairwise_bodiesBelow ih l

/-! ### What the stack says about the lines above -/

/-- Whether a line above opened the body of a class at a depth, and none since then that is not
blank stands outside of it. -/
def BodyOpen (dialect : Dialect) (before : List Line) (d : Nat) : Prop :=
  ∃ front m between, before = front ++ m :: between ∧ m.opensClass dialect = true ∧
    d = m.depth + 1 ∧ ∀ n ∈ between, n.isBlank = false → d ≤ n.depth

lemma bodyOpen_concat {before : List Line} {l : Line} {d : Nat} :
    BodyOpen dialect (before ++ [l]) d ↔
      BodyOpen dialect before d ∧ (l.isBlank = false → d ≤ l.depth) ∨
        l.opensClass dialect = true ∧ d = l.depth + 1 := by
  constructor
  · rintro ⟨front, m, between, hsplit, hopens, hd, hbetween⟩
    rcases List.eq_nil_or_concat between with rfl | ⟨between, last, rfl⟩
    · -- the last line opened the body itself
      obtain ⟨rfl, hm⟩ := List.append_inj' hsplit rfl
      obtain rfl := (List.cons.inj hm).1
      exact .inr ⟨hopens, hd⟩
    · rw [List.concat_eq_append, ← List.cons_append, ← List.append_assoc] at hsplit
      obtain ⟨rfl, hl⟩ := List.append_inj' hsplit rfl
      obtain rfl := (List.cons.inj hl).1
      simp only [List.concat_eq_append, List.forall_mem_append, List.forall_mem_singleton]
        at hbetween
      exact .inl ⟨⟨front, m, between, rfl, hopens, hd, hbetween.1⟩, hbetween.2⟩
  · rintro (⟨⟨front, m, between, rfl, hopens, hd, hbetween⟩, hl⟩ | ⟨hopens, hd⟩)
    · refine ⟨front, m, between ++ [l], by simp, hopens, hd, ?_⟩
      exact List.forall_mem_append.2 ⟨hbetween, List.forall_mem_singleton.2 hl⟩
    · exact ⟨before, l, [], rfl, hopens, hd, List.forall_mem_nil _⟩

/-- The stack holds the depths of the bodies that are open. -/
lemma mem_bodiesAfter {before : List Line} {d : Nat} :
    d ∈ bodiesAfter dialect before ↔ BodyOpen dialect before d := by
  induction before using List.reverseRecOn with
  | nil =>
    refine iff_of_false List.not_mem_nil ?_
    rintro ⟨front, m, between, hsplit, -⟩
    simp at hsplit
  | append_singleton before l ih =>
    rw [bodiesAfter_concat, mem_bodiesBelow (pairwise_bodiesAfter before), bodyOpen_concat, ih]

/-! ### What is found on a line -/

/-- What is found on the line of a number. -/
def foundOn (dialect : Dialect) (ls : List Line) (i : Nat) : List Finding :=
  match ls.drop i with
  | [] => []
  | l :: below =>
    lineFindings dialect (bodiesAfter dialect (ls.take i)) (ls.take i).reverse l below

lemma foundOn_append (before : List Line) (l : Line) (below : List Line) :
    foundOn dialect (before ++ l :: below) before.length
      = lineFindings dialect (bodiesAfter dialect before) before.reverse l below := by
  rw [foundOn, List.drop_left, List.take_left]

lemma findings_append (before rest : List Line) :
    findings dialect (bodiesAfter dialect before) before.reverse rest
      = (List.range' before.length rest.length).flatMap (foundOn dialect (before ++ rest)) := by
  induction rest generalizing before with
  | nil => rfl
  | cons l below ih =>
    have hbelow := ih (before ++ [l])
    rw [bodiesAfter_concat, List.reverse_append, List.append_assoc, List.length_append]
      at hbelow
    rw [findings_cons, List.length_cons, List.range'_succ, List.flatMap_cons, foundOn_append]
    exact congrArg _ hbelow

/-- What is found in a script is what is found on its lines, one after the other. -/
lemma findings_eq (ls : List Line) :
    findings dialect [] [] ls = (List.range ls.length).flatMap (foundOn dialect ls) := by
  rw [List.range_eq_range']
  exact findings_append [] ls

lemma lt_length_of_mem_foundOn {ls : List Line} {i : Nat} {x : Finding}
    (h : x ∈ foundOn dialect ls i) : i < ls.length := by
  by_contra hle
  rw [foundOn, List.drop_of_length_le (Nat.le_of_not_lt hle)] at h
  cases h

/-- A type is found on a line exactly if the line declares one. -/
lemma exists_type_mem_lineFindings (bodies : List Nat) (above : List Line) (l : Line)
    (below : List Line) :
    (∃ t, .type t ∈ lineFindings dialect bodies above l below) ↔
      l.isBlank = false ∧ (typeName? dialect l.code).isSome = true := by
  constructor
  · rintro ⟨t, ht⟩
    rw [lineFindings] at ht
    split at ht
    · cases ht
    next hfilled =>
      refine ⟨by simpa using hfilled, ?_⟩
      rcases List.mem_append.1 ht with ht | ht
      · obtain ⟨i, -, hi⟩ := List.mem_map.1 ht
        cases hi
      · split at ht
        next htype => rw [htype, Option.isSome_some]
        next =>
          -- neither a function nor a variable is found as a type
          split at ht
          · cases hdoc : docAbove? above <;>
              simp [functionFindings, hdoc] at ht
          · obtain ⟨p, -, hp⟩ := List.mem_map.1 ht
            cases hp
  · rintro ⟨hfilled, hname⟩
    obtain ⟨name, hname⟩ := Option.isSome_iff_exists.1 hname
    refine ⟨⟨String.ofList name, above.length + 1, (docAbove? above).isSome⟩, ?_⟩
    rw [lineFindings, hfilled, if_neg Bool.false_ne_true, hname]
    refine List.mem_append_right _ (List.mem_append_right _ ?_)
    exact List.mem_cons_of_mem _ List.mem_cons_self

section Recorded

variable {language : String} {path : SourcePath} {source : List Char}
variable {front rest : List Line} {m : Line}

/-- The declarations of types that are recorded are the lines that declare one. -/
lemma recorded_iff (hm : (rescanned source).1 = front ++ m :: rest) :
    (∃ t ∈ (read dialect language path source).types, t.startLine = front.length + 1) ↔
      m.isBlank = false ∧ (typeName? dialect m.code).isSome = true := by
  rw [← exists_type_mem_lineFindings (bodiesAfter dialect front) front.reverse m rest,
    ← foundOn_append, types_read, findings_eq, hm]
  constructor
  · rintro ⟨t, ht, hstart⟩
    simp only [List.mem_filterMap, List.mem_flatMap] at ht
    obtain ⟨x, ⟨i, -, hx⟩, hu⟩ := ht
    have hi := lt_length_of_mem_foundOn hx
    obtain ⟨l, below, hdrop⟩ : ∃ l below, (front ++ m :: rest).drop i = l :: below :=
      ⟨_, _, List.drop_eq_getElem_cons hi⟩
    cases x with
    | type v =>
      obtain rfl := Option.some.inj hu
      have hon := hx
      rw [foundOn, hdrop] at hon
      cases onLine_of_mem hon with
      | type hbelow =>
        -- the number of the line tells which one it is
        have hplace := hbelow.startLine
        rw [List.length_reverse, List.length_take_of_le (Nat.le_of_lt hi)] at hplace
        have heq : i = front.length := Nat.succ.inj (hplace.symm.trans hstart)
        exact ⟨v, heq ▸ hx⟩
    | _ => cases hu
  · rintro ⟨t, ht⟩
    have hi := lt_length_of_mem_foundOn ht
    have hon := ht
    rw [foundOn_append] at hon
    refine ⟨t, ?_, ?_⟩
    · refine List.mem_filterMap.2 ⟨.type t, ?_, rfl⟩
      exact List.mem_flatMap.2 ⟨front.length, List.mem_range.2 hi, ht⟩
    · cases onLine_of_mem hon with
      | type hbelow => simpa using hbelow.startLine

end Recorded

/-! ### Directly in the body of a class -/

/-- Whether a line stands directly in the body of a class: above it a declaration is recorded on a
line with the word for a class, the line stands deeper than that one by one, and no line from there
to it that is not blank stands as shallow. -/
def InClassBody (facts : FileFacts) (before : List Line) (l : Line) : Prop :=
  ∃ front m between, before = front ++ m :: between ∧
    (∃ t ∈ facts.types, t.startLine = front.length + 1) ∧ holds m.code "class " = true ∧
    l.depth = m.depth + 1 ∧ ∀ n ∈ between ++ [l], n.isBlank = false → m.depth < n.depth

/-- The blanks at the start do not matter to a word that does not start with one. -/
lemma holds_trimStart {word : String} {w : Char} {ws : List Char} (hword : word.toList = w :: ws)
    (hw : isBlank w = false) (cs : List Char) : holds (trimStart cs) word = holds cs word := by
  rw [holds, holds, hword]
  induction cs with
  | nil => rfl
  | cons c cs ih =>
    rw [trimStart, List.dropWhile_cons]
    split
    next hc =>
      have hne : w ≠ c := by
        rintro rfl
        simp [hw] at hc
      rw [← trimStart, ih, contains, List.isPrefixOf, beq_false_of_ne hne, Bool.false_and,
        Bool.false_or]
    next => rfl

section InClassBody

variable {source : List Char} {before below : List Line} {l : Line}

lemma bodyOpen_iff (language : String) (path : SourcePath)
    (hl : (rescanned source).1 = before ++ l :: below) :
    BodyOpen dialect before l.depth ↔
      InClassBody (read dialect language path source) before l := by
  refine exists_congr fun front => exists_congr fun m => exists_congr fun between =>
    and_congr_right fun hsplit => ?_
  have hm : (rescanned source).1 = front ++ m :: (between ++ l :: below) := by
    rw [hl, hsplit, List.append_assoc, List.cons_append]
  have hclass : m.opensClass dialect = true ↔
      (∃ t ∈ (read dialect language path source).types, t.startLine = front.length + 1) ∧
        holds m.code "class " = true := by
    rw [recorded_iff hm, Line.opensClass, holds_trimStart rfl (by decide), Bool.and_eq_true,
      Bool.and_eq_true, Bool.not_eq_true']
  rw [hclass, and_assoc, List.forall_mem_append, List.forall_mem_singleton]
  refine and_congr_right fun _ => and_congr_right fun _ => and_congr_right fun hdepth => ?_
  rw [hdepth]
  exact ⟨fun h => ⟨h, fun _ => Nat.lt_succ_self _⟩, And.left⟩

/-- A function that is no member of a class is declared as such. -/
lemma functionName?_cases {inClass : Bool} {code name : List Char}
    (h : functionName? inClass code = some name) :
    declared? Forms.functionDeclaration code = some name ∨
      declared? Forms.functionVariable code = some name ∨
      inClass = true ∧ member? code = some name := by
  rw [functionName?] at h
  split at h
  next hdeclared => exact .inl (hdeclared.trans h)
  next =>
    split at h
    next hvariable => exact .inr (.inl (hvariable.trans h))
    next =>
      split at h
      next hclass => exact .inr (.inr ⟨hclass, h⟩)
      next => cases h

/-- On every line of a script that is not blank and declares no type, the depths on the stack go up
from the lowest one, and the depth of the line is on top exactly if the line stands directly in the
body of a class.  So members of classes are found on such lines only. -/
theorem members_in_class_bodies (language : String) (path : SourcePath)
    (hl : (rescanned source).1 = before ++ l :: below)
    (hfilled : l.isBlank = false) (hother : typeName? dialect l.code = none) :
    let stack := openBodies l.depth (bodiesAfter dialect before)
    let inClass := stack.head? == some l.depth
    let InBody := InClassBody (read dialect language path source) before l
    findings dialect [] [] (rescanned source).1
        = (List.range (rescanned source).1.length).flatMap (foundOn dialect (rescanned source).1) ∧
      foundOn dialect (rescanned source).1 before.length
        = (imports (before.length + 1) l).map Finding.imported ++
          (match functionName? inClass l.code with
          | some name => functionFindings dialect before.reverse l below name
          | none => variableFindings l) ∧
      stack.Pairwise (· > ·) ∧ (inClass = true ↔ InBody) ∧
      ∀ name, functionName? inClass l.code = some name →
        declared? Forms.functionDeclaration l.code = some name ∨
          declared? Forms.functionVariable l.code = some name ∨
          InBody ∧ member? l.code = some name := by
  intro stack inClass InBody
  have hsorted : (bodiesAfter dialect before).Pairwise (· > ·) := pairwise_bodiesAfter before
  have htop : inClass = true ↔ InBody := by
    rw [beq_iff_eq, head?_openBodies hsorted, mem_bodiesAfter]
    exact bodyOpen_iff language path hl
  refine ⟨findings_eq _, ?_, pairwise_openBodies hsorted _, htop, fun name hname => ?_⟩
  · rw [hl, foundOn_append, lineFindings, hfilled, if_neg Bool.false_ne_true, hother]
    exact congrArg (fun n => (imports (n + 1) l).map Finding.imported ++ _) List.length_reverse
  · rcases functionName?_cases hname with h | h | ⟨hclass, h⟩
    · exact .inl h
    · exact .inr (.inl h)
    · exact .inr (.inr ⟨htop.1 hclass, h⟩)

/-- A line without texts and comments. -/
def bareLine (text : String) (depth : Nat) : Line := ⟨text.toList, text.toList, depth⟩

/-- A script with a class in a class. -/
def nested : List Char :=
  ("class A \x7b\n  make() \x7b\n    class B \x7b\n      one() \x7b\x7d\n    \x7d\n\n  \x7d\n" ++
    "  two() \x7b\x7d\n\x7d\n").toList

/-- The lines above the last method, which are those of the method with the class inside. -/
def aboveTwo : List Line :=
  [bareLine "class A \x7b" 0, bareLine "  make() \x7b" 1, bareLine "    class B \x7b" 2,
    bareLine "      one() \x7b\x7d" 3, bareLine "    \x7d" 3, bareLine "" 2, bareLine "  \x7d" 2]

/-- The line of the last method. -/
def two : Line := bareLine "  two() \x7b\x7d" 1

theorem members_in_class_bodies_nested :
    (rescanned nested).1 = aboveTwo ++ two :: [bareLine "\x7d" 1] ∧ two.isBlank = false ∧
      typeName? .plain two.code = none ∧ member? two.code = some "two".toList ∧
      InClassBody (read .plain "javascript" "a.js" nested) aboveTwo two := by
  have hl : (rescanned nested).1 = aboveTwo ++ two :: [bareLine "\x7d" 1] := by decide +kernel
  have hfilled : two.isBlank = false := by decide +kernel
  have hother : typeName? .plain two.code = none := by decide +kernel
  have hname : functionName? ((openBodies two.depth (bodiesAfter .plain aboveTwo)).head?
      == some two.depth) two.code = some "two".toList := by decide +kernel
  have hdeclared : declared? Forms.functionDeclaration two.code = none ∧
      declared? Forms.functionVariable two.code = none := by decide +kernel
  obtain ⟨-, -, -, -, hmember⟩ :=
    members_in_class_bodies "javascript" "a.js" hl hfilled hother
  rcases hmember _ hname with h | h | ⟨hbody, h⟩
  · rw [hdeclared.1] at h
    cases h
  · rw [hdeclared.2] at h
    cases h
  · exact ⟨hl, hfilled, hother, h, hbody⟩

end InClassBody

end HouseStyle.Script
