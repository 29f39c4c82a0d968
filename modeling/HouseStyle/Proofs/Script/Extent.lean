import HouseStyle.Proofs.Count
import HouseStyle.Proofs.Script.Recorded
import Mathlib.Data.List.Chain
import Mathlib.Tactic.Common

/-!
# How far the functions of a script reach

A function reaches to the line on which the braces that were opened since its first line are closed
again.  The depth of every line is what the code above it leaves open, so these are the lines below
its first brace that stand deeper than its first line.

A function whose first line has no brace may have its body further down.  A brace is looked for on
three lines, whosever brace it is, and where the file ends before, all lines that are left are
taken.  So functions with braces on their first lines lie apart or inside each other, but one
without may take in a function below it.
-/

namespace HouseStyle

/-- The last line of a function, counted from 1. -/
def FunctionFacts.lastLine (f : FunctionFacts) : Nat := f.startLine + f.lineCount - 1

namespace ControlFlow

/-- Whether there are at most as many decisions of each kind as in others. -/
structure AtMost (a b : ControlFlow) : Prop where
  branches : a.branches ≤ b.branches
  loops : a.loops ≤ b.loops
  cases : a.cases ≤ b.cases
  handlers : a.handlers ≤ b.handlers
  conditionals : a.conditionals ≤ b.conditionals
  junctions : a.junctions ≤ b.junctions

lemma count_sum {count : ControlFlow → Nat} (hnone : count none = 0)
    (hadd : ∀ a b : ControlFlow, count (a + b) = count a + count b) (l : List ControlFlow) :
    count (sum l) = Count.sum (l.map count) := by
  rw [sum, Count.foldl_eq_add count hadd, hnone, Nat.zero_add]

/-- There are no more decisions on some lines than on all of them. -/
lemma atMost_sum {l l' : List ControlFlow} (h : l.Sublist l') : (sum l).AtMost (sum l') := by
  have hcount {count : ControlFlow → Nat} (hnone : count none = 0)
      (hadd : ∀ a b : ControlFlow, count (a + b) = count a + count b) :
      count (sum l) ≤ count (sum l') := by
    rw [count_sum hnone hadd, count_sum hnone hadd]
    exact Count.sum_le_of_sublist (h.map count)
  exact ⟨hcount rfl fun _ _ => rfl, hcount rfl fun _ _ => rfl, hcount rfl fun _ _ => rfl,
    hcount rfl fun _ _ => rfl, hcount rfl fun _ _ => rfl, hcount rfl fun _ _ => rfl⟩

end ControlFlow

namespace Script

/-! ### Depths -/

/-- Whether the depth of each line is what the code of the line above it leaves open. -/
def Running (ls : List Line) : Prop :=
  ls.IsChain fun l m => m.depth = depthAfter l.depth l.code

lemma running_rescanFrom (s : Carried) (depth : Nat) (raws : List (List Char)) :
    Running (rescanFrom s depth raws).1 ∧
      ∀ l ∈ (rescanFrom s depth raws).1.head?, l.depth = depth := by
  induction raws generalizing s depth with
  | nil => exact ⟨.nil, nofun⟩
  | cons raw more ih =>
    obtain ⟨hmore, hhead⟩ := ih (rescan s raw).carried (depthAfter depth (rescan s raw).code)
    exact ⟨List.isChain_cons.2 ⟨hhead, hmore⟩, by simp [rescanFrom]⟩

/-- The lines of a file stand as deep as the code above them leaves open. -/
lemma running_rescanned (source : List Char) : Running (rescanned source).1 :=
  (running_rescanFrom _ _ _).1

lemma Running.drop {ls : List Line} (h : Running ls) (n : Nat) : Running (ls.drop n) :=
  List.IsChain.suffix h (List.drop_suffix n ls)

/-- The number of lines before the first one that stands no deeper than a depth. -/
def deeperLines (base : Nat) (ls : List Line) : Nat := ls.findIdx fun m => decide (m.depth ≤ base)

lemma deeperLines_cons (base : Nat) (m : Line) (ls : List Line) :
    deeperLines base (m :: ls) = if m.depth ≤ base then 0 else deeperLines base ls + 1 := by
  by_cases h : m.depth ≤ base <;> simp [deeperLines, List.findIdx_cons, h]

/-- A line that stands no deeper ends the deeper ones. -/
lemma deeperLines_le {base t : Nat} {ls : List Line} {m : Line} (hm : ls[t]? = some m)
    (hdepth : m.depth ≤ base) : deeperLines base ls ≤ t := by
  obtain ⟨ht, rfl⟩ := List.getElem?_eq_some_iff.1 hm
  by_contra hlt
  exact absurd hdepth (by simpa using List.not_of_lt_findIdx (Nat.lt_of_not_le hlt))

/-- The lines that are deeper than a depth from one of them on are among the deeper ones. -/
lemma add_deeperLines_drop_le {base base' t : Nat} {ls : List Line} (hbase : base ≤ base')
    (ht : t ≤ deeperLines base ls) : t + deeperLines base' (ls.drop t) ≤ deeperLines base ls := by
  induction ls generalizing t with
  | nil => simpa [deeperLines] using ht
  | cons m ls ih =>
    rw [deeperLines_cons] at ht ⊢
    cases t with
    | zero =>
      have h := ih (Nat.zero_le _)
      rw [List.drop_zero, deeperLines_cons]
      rw [List.drop_zero] at h
      split_ifs <;> omega
    | succ t =>
      split_ifs at ht ⊢ with hdepth
      · omega
      · have h := ih (Nat.le_of_succ_le_succ ht)
        rw [List.drop_succ_cons]
        omega

/-! ### The lines of a function -/

/-- Whether a brace is opened on a line. -/
def Line.opensBrace (l : Line) : Bool := l.code.contains '\x7b'

lemma opens_pos_iff {l : Line} : 0 < opens l.code ↔ l.opensBrace = true := by
  rw [opens, List.count_pos_iff, Line.opensBrace, List.contains_iff_mem]

/-- Below an opened brace a function goes on for as long as the lines stand deeper than its first
one. -/
lemma bodyLines_opened (base before : Nat) {l : Line} {more : List Line}
    (hrun : Running (l :: more)) :
    bodyLines base l.depth true before (l :: more) = before + 1 + deeperLines base more := by
  induction more generalizing l before with
  | nil => simp [bodyLines, deeperLines]
  | cons m rest ih =>
    obtain ⟨hdepth, hrest⟩ := List.isChain_cons_cons.1 hrun
    rw [bodyLines, Bool.true_or, ← hdepth, deeperLines_cons]
    by_cases hclosed : m.depth ≤ base
    · simp [hclosed]
    · simp only [hclosed, ih (before + 1) hrest]
      simp
      omega

/-- A brace is looked for on three lines, those before a place included.  From the first brace on a
function goes on for as long as the lines stand deeper than its first one; without a brace it is its
first line, or all lines if there are less than three. -/
lemma bodyLines_unopened (base : Nat) {before depth : Nat} {ls : List Line} (hbefore : before ≤ 2)
    (hrun : Running ls) (hdepth : ∀ l ∈ ls.head?, l.depth = depth) :
    bodyLines base depth false before ls =
      match (ls.take (3 - before)).findIdx? Line.opensBrace with
      | some k => before + k + 1 + deeperLines base (ls.drop (k + 1))
      | none => if 3 - before ≤ ls.length then 1 else before + ls.length := by
  induction ls generalizing before depth with
  | nil =>
    have hmore : ¬ 3 - before ≤ 0 := by omega
    simp [bodyLines, hmore]
  | cons l more ih =>
    obtain rfl : l.depth = depth := hdepth l rfl
    obtain ⟨hnext, hmore⟩ := List.isChain_cons.1 hrun
    have htake : 3 - before = (2 - before) + 1 := by omega
    rw [htake, List.take_succ_cons, List.findIdx?_cons]
    by_cases hbrace : l.opensBrace = true
    · -- with the brace on the line the flag makes no difference
      have hopened : bodyLines base l.depth false before (l :: more)
          = bodyLines base l.depth true before (l :: more) := by
        simp [bodyLines, opens_pos_iff.2 hbrace]
      rw [if_pos hbrace, hopened, bodyLines_opened base before hrun]
      simp
    · have hclosed : ¬ 0 < opens l.code := fun h => hbrace (opens_pos_iff.1 h)
      rw [if_neg hbrace, bodyLines]
      simp only [hclosed, decide_false, Bool.or_false, Bool.false_and, Bool.not_false,
        Bool.true_and, decide_eq_true_eq, Bool.false_eq_true, if_false]
      by_cases hlast : before = 2
      · subst hlast
        simp
      · rw [if_neg (by omega), ih (by omega) hmore hnext]
        have hsub : 3 - (before + 1) = 2 - before := by omega
        rw [hsub]
        cases (more.take (2 - before)).findIdx? Line.opensBrace with
        | some k =>
          have hk : before + 1 + k = before + (k + 1) := by omega
          simp only [Option.map_some, List.drop_succ_cons, hk]
        | none =>
          have hlength : before + 1 + more.length = before + (more.length + 1) := by omega
          simp only [Option.map_none, List.length_cons, Nat.add_le_add_iff_right, hlength]

/-- Whether the first line of a function has no brace and ends with a semicolon. -/
def Line.endsConcisely (l : Line) : Bool := !l.opensBrace && Text.endsWith (Text.trimEnd l.code) ";"

/-- The number of lines of a function. -/
lemma extent_eq {l : Line} {below : List Line} (hrun : Running (l :: below)) :
    extent (l :: below) =
      if l.endsConcisely then 1
      else
        match ((l :: below).take 3).findIdx? Line.opensBrace with
        | some k => k + 1 + deeperLines l.depth ((l :: below).drop (k + 1))
        | none => if 3 ≤ (l :: below).length then 1 else (l :: below).length := by
  have hhead : ∀ m ∈ (l :: below).head?, m.depth = l.depth := by simp
  have hbody := bodyLines_unopened l.depth (Nat.zero_le 2) hrun hhead
  simp only [Nat.zero_add, Nat.sub_zero] at hbody
  rw [extent, hbody]
  rfl

/-- A function with a brace on its first line goes on for as long as the lines stand deeper. -/
lemma extent_of_opensBrace {l : Line} {below : List Line} (hrun : Running (l :: below))
    (hbrace : l.opensBrace = true) : extent (l :: below) = 1 + deeperLines l.depth below := by
  simp [extent_eq hrun, Line.endsConcisely, hbrace, List.findIdx?_cons]

/-- A function with a brace on its first line ends before a line below it, or that line stands
deeper and the lines from there on that stand deeper still are lines of the function. -/
lemma extent_add_le {offset : Nat} {l m : Line} {below after : List Line}
    (hrun : Running (l :: below)) (hl : l.opensBrace = true) (hm : m.opensBrace = true)
    (hafter : below.drop offset = m :: after) (hreach : offset + 1 < extent (l :: below)) :
    l.depth < m.depth ∧ offset + 1 + extent (m :: after) ≤ extent (l :: below) := by
  have hat : below[offset]? = some m := by rw [← List.head?_drop, hafter, List.head?_cons]
  have hrun' : Running (m :: after) := by
    have h := hrun.drop (offset + 1)
    rwa [List.drop_succ_cons, hafter] at h
  rw [extent_of_opensBrace hrun hl] at hreach ⊢
  rw [extent_of_opensBrace hrun' hm]
  have hdepth : l.depth < m.depth := by
    by_contra hle
    have h := deeperLines_le hat (Nat.le_of_not_lt hle)
    omega
  have hnext : below.drop (offset + 1) = after := by
    rw [← List.drop_drop, hafter, List.drop_succ_cons, List.drop_zero]
  have hdeeper := add_deeperLines_drop_le (Nat.le_of_lt hdepth)
    (show offset + 1 ≤ deeperLines l.depth below by omega)
  rw [hnext] at hdeeper
  exact ⟨hdepth, by omega⟩

/-- Whether the search for the end of a function, given the lines from its first one on, passes over
the line of a number: neither a semicolon nor a brace before that line ends it, and there is a brace
on that line or a later one of the first three lines, or there are less than three lines. -/
structure PassesOver (offset : Nat) (ls : List Line) : Prop where
  unended : ∀ l ∈ ls.head?, l.endsConcisely = false
  unopened : ∀ l ∈ ls.take offset, l.opensBrace = false
  sought : (∃ l ∈ (ls.take 3).drop offset, l.opensBrace = true) ∨ ls.length < 3

/-- Without a brace on the first three lines the search passes over a line only at the end of a
file. -/
lemma passesOver_iff_of_none {offset : Nat} {ls : List Line}
    (hk : (ls.take 3).findIdx? Line.opensBrace = none) :
    PassesOver offset ls ↔ (∀ l ∈ ls.head?, l.endsConcisely = false) ∧ ls.length < 3 := by
  rw [List.findIdx?_eq_none_iff] at hk
  constructor
  · rintro ⟨hunended, -, ⟨x, hx, hbrace⟩ | hshort⟩
    · rw [hk x (List.mem_of_mem_drop hx)] at hbrace
      cases hbrace
    · exact ⟨hunended, hshort⟩
  · rintro ⟨hunended, hshort⟩
    refine ⟨hunended, fun x hx => hk x ?_, .inr hshort⟩
    rw [List.take_of_length_le (Nat.le_of_lt hshort)]
    exact List.mem_of_mem_take hx

/-- The search passes over the lines up to the first one of the three that has a brace. -/
lemma passesOver_iff_of_some {offset k : Nat} {ls : List Line}
    (hk : (ls.take 3).findIdx? Line.opensBrace = some k) :
    PassesOver offset ls ↔ (∀ l ∈ ls.head?, l.endsConcisely = false) ∧ offset ≤ k := by
  obtain ⟨hlt, hbrace, hfirst⟩ := List.findIdx?_eq_some_iff_getElem.1 hk
  constructor
  · intro h
    refine ⟨h.unended, Nat.le_of_not_lt fun hbefore => ?_⟩
    have hlength : k < ls.length := Nat.lt_of_lt_of_le hlt (List.length_take_le' 3 ls)
    have hmem : (ls.take 3)[k] ∈ ls.take offset :=
      List.mem_take_iff_getElem.2 ⟨k, by omega, List.getElem_take.symm⟩
    rw [h.unopened _ hmem] at hbrace
    cases hbrace
  · rintro ⟨hunended, hfrom⟩
    refine ⟨hunended, fun x hx => ?_, .inl ⟨_, ?_, hbrace⟩⟩
    · obtain ⟨n, hn, rfl⟩ := List.mem_take_iff_getElem.1 hx
      have h := hfirst n (by omega)
      rwa [List.getElem_take, Bool.not_eq_true] at h
    · exact List.mem_drop_iff_getElem.2
        ⟨k - offset, by omega, by simp only [Nat.add_sub_cancel' hfrom]⟩

/-- A function reaches a line below its first one that stands no deeper exactly if the search for
its end passes over that line. -/
lemma lt_extent_iff {offset : Nat} {l m : Line} {below : List Line} (hrun : Running (l :: below))
    (hoffset : 0 < offset) (hm : (l :: below)[offset]? = some m) (hdepth : m.depth ≤ l.depth) :
    offset < extent (l :: below) ↔ PassesOver offset (l :: below) := by
  obtain ⟨hlength, -⟩ := List.getElem?_eq_some_iff.1 hm
  by_cases hconcise : l.endsConcisely = true
  · -- the function is its first line
    have hextent : extent (l :: below) = 1 := by rw [extent_eq hrun, if_pos hconcise]
    rw [hextent]
    refine ⟨fun h => by omega, fun h => ?_⟩
    simp [h.unended l rfl] at hconcise
  have hunended : ∀ n ∈ (l :: below).head?, n.endsConcisely = false := by simpa using hconcise
  cases hk : ((l :: below).take 3).findIdx? Line.opensBrace with
  | none =>
    have hextent : extent (l :: below)
        = if 3 ≤ (l :: below).length then 1 else (l :: below).length := by
      rw [extent_eq hrun, if_neg hconcise, hk]
    rw [passesOver_iff_of_none hk, and_iff_right hunended, hextent]
    split_ifs <;> omega
  | some k =>
    have hextent : extent (l :: below)
        = k + 1 + deeperLines l.depth ((l :: below).drop (k + 1)) := by
      rw [extent_eq hrun, if_neg hconcise, hk]
    rw [passesOver_iff_of_some hk, and_iff_right hunended, hextent]
    refine ⟨fun h => Nat.le_of_not_lt fun hbefore => ?_, fun h => by omega⟩
    -- the braces that were opened before the line are closed before it
    have hat : ((l :: below).drop (k + 1))[offset - (k + 1)]? = some m := by
      rw [List.getElem?_drop, Nat.add_sub_cancel' hbefore, hm]
    have hdeeper := deeperLines_le hat hdepth
    omega

/-! ### Two functions of a script -/

section Pair

variable {dialect : Dialect} {language : String} {path : SourcePath} {source : List Char}
  {f g : FunctionFacts}

/-- Of two functions of a script the later one starts on a line below the first line of the
other. -/
lemma exists_pair (hf : f ∈ (read dialect language path source).functions)
    (hg : g ∈ (read dialect language path source).functions) (hstart : f.startLine < g.startLine) :
    ∃ l below m after, (rescanned source).1.drop (f.startLine - 1) = l :: below ∧
      (rescanned source).1.drop (g.startLine - 1) = m :: after ∧
      below.drop (g.startLine - f.startLine - 1) = m :: after ∧ 0 < f.startLine ∧
      Spans f l below ∧ Spans g m after := by
  obtain ⟨l, below, hl, hpos, hfspan⟩ := exists_spans hf
  obtain ⟨m, after, hm, -, hgspan⟩ := exists_spans hg
  refine ⟨l, below, m, after, hl, hm, ?_, hpos, hfspan, hgspan⟩
  have hplace : g.startLine - 1 = f.startLine - 1 + (g.startLine - f.startLine - 1 + 1) := by omega
  rw [hplace, ← List.drop_drop, hl, List.drop_succ_cons] at hm
  exact hm

/-- Of two functions with braces on their first lines, the later one lies behind the earlier one or
inside it. -/
theorem extents_nest (hf : f ∈ (read dialect language path source).functions)
    (hg : g ∈ (read dialect language path source).functions) (hstart : f.startLine < g.startLine) :
    ∃ l m, (rescanned source).1[f.startLine - 1]? = some l ∧
      (rescanned source).1[g.startLine - 1]? = some m ∧
      (l.opensBrace = true → m.opensBrace = true →
        f.lastLine < g.startLine ∨
          g.lastLine ≤ f.lastLine ∧ l.depth < m.depth ∧ g.controlFlow.AtMost f.controlFlow) := by
  obtain ⟨l, below, m, after, hl, hm, hafter, hpos, hfspan, hgspan⟩ := exists_pair hf hg hstart
  refine ⟨l, m, by rw [← List.head?_drop, hl, List.head?_cons],
    by rw [← List.head?_drop, hm, List.head?_cons], fun hbrace hbrace' => ?_⟩
  have hrun : Running (l :: below) := hl ▸ (running_rescanned source).drop _
  rcases Nat.lt_or_ge f.lastLine g.startLine with hapart | hinside
  · exact .inl hapart
  -- the lines of the later function are among those of the earlier one, and so are its decisions
  rw [FunctionFacts.lastLine, hfspan.lineCount] at hinside
  obtain ⟨hdepth, hextent⟩ := extent_add_le hrun hbrace hbrace' hafter (by omega)
  refine .inr ⟨?_, hdepth, ?_⟩
  · rw [FunctionFacts.lastLine, FunctionFacts.lastLine, hfspan.lineCount, hgspan.lineCount]
    omega
  · rw [hfspan.controlFlow, hgspan.controlFlow, hfspan.lineCount, hgspan.lineCount]
    refine ControlFlow.atMost_sum (List.Sublist.map _ ?_)
    have hlines : ((l :: below).take (extent (l :: below))).drop (g.startLine - f.startLine)
        = (m :: after).take (extent (l :: below) - (g.startLine - f.startLine)) := by
      have hoffset : g.startLine - f.startLine = g.startLine - f.startLine - 1 + 1 := by omega
      rw [List.drop_take, hoffset, List.drop_succ_cons, hafter]
    have hwithin : ((m :: after).take (extent (m :: after))).Sublist
        (((l :: below).take (extent (l :: below))).drop (g.startLine - f.startLine)) := by
      rw [hlines]
      exact List.take_sublist_take_left (by omega)
    exact hwithin.trans (List.drop_sublist _ _)

/-- A script with a function inside another one. -/
def inwards : List Char :=
  ("function outer(a) \x7b\n  function inner(b) \x7b\n    return b ? a : b;\n  \x7d\n" ++
    "  return inner(a);\n\x7d\n").toList

/-- The function around the other one. -/
def outer : FunctionFacts := ⟨"outer", 1, 6, ⟨0, 0, 0, 0, 1, 0⟩, false, none⟩

/-- The function inside the other one. -/
def inner : FunctionFacts := ⟨"inner", 2, 3, ⟨0, 0, 0, 0, 1, 0⟩, false, none⟩

theorem extents_nest_inwards :
    outer ∈ (read .plain "javascript" "a.js" inwards).functions ∧
      inner ∈ (read .plain "javascript" "a.js" inwards).functions ∧
      outer.startLine < inner.startLine ∧
      ∃ l m, (rescanned inwards).1[outer.startLine - 1]? = some l ∧
        (rescanned inwards).1[inner.startLine - 1]? = some m ∧
        l.opensBrace = true ∧ m.opensBrace = true ∧
        inner.lastLine ≤ outer.lastLine ∧ l.depth < m.depth ∧
          inner.controlFlow.AtMost outer.controlFlow := by
  have hfunctions : (read .plain "javascript" "a.js" inwards).functions = [outer, inner] := by
    decide +kernel
  have houter : outer ∈ (read .plain "javascript" "a.js" inwards).functions := by
    simp [hfunctions]
  have hinner : inner ∈ (read .plain "javascript" "a.js" inwards).functions := by
    simp [hfunctions]
  have hbraces : (∀ l ∈ (rescanned inwards).1[0]?, l.opensBrace = true) ∧
      ∀ m ∈ (rescanned inwards).1[1]?, m.opensBrace = true := by decide +kernel
  obtain ⟨l, m, hl, hm, hnest⟩ := extents_nest houter hinner (by decide)
  have hlbrace := hbraces.1 l hl
  have hmbrace := hbraces.2 m hm
  refine ⟨houter, hinner, by decide, l, m, hl, hm, hlbrace, hmbrace, ?_⟩
  rcases hnest hlbrace hmbrace with hapart | hinside
  · exact absurd hapart (by decide)
  · exact hinside

/-- A function comes to reach over a later one that stands no deeper exactly if the search for its
end passes over the first line of the later one, and it has the decisions of all lines that it
reaches. -/
theorem reaches_iff (hf : f ∈ (read dialect language path source).functions)
    (hg : g ∈ (read dialect language path source).functions) (hstart : f.startLine < g.startLine) :
    ∃ l m, (rescanned source).1[f.startLine - 1]? = some l ∧
      (rescanned source).1[g.startLine - 1]? = some m ∧
      (m.depth ≤ l.depth → (g.startLine ≤ f.lastLine ↔
        PassesOver (g.startLine - f.startLine) ((rescanned source).1.drop (f.startLine - 1)))) ∧
      f.controlFlow = ControlFlow.sum
        ((((rescanned source).1.drop (f.startLine - 1)).take f.lineCount).map
          fun n => lineFlow n.code) := by
  obtain ⟨l, below, m, after, hl, hm, hafter, hpos, hfspan, -⟩ := exists_pair hf hg hstart
  refine ⟨l, m, by rw [← List.head?_drop, hl, List.head?_cons],
    by rw [← List.head?_drop, hm, List.head?_cons], fun hdepth => ?_, hl ▸ hfspan.controlFlow⟩
  have hrun : Running (l :: below) := hl ▸ (running_rescanned source).drop _
  have hat : (l :: below)[g.startLine - f.startLine]? = some m := by
    have hoffset : g.startLine - f.startLine = g.startLine - f.startLine - 1 + 1 := by omega
    rw [hoffset, List.getElem?_cons_succ, ← List.head?_drop, hafter, List.head?_cons]
  rw [hl, ← lt_extent_iff hrun (by omega) hat hdepth, FunctionFacts.lastLine, hfspan.lineCount]
  omega

/-- A script with two functions without braces, one below the other. -/
def arrows : List Char := "const next = x => x + 1\nconst pick = y => y ? 2 : 3\n".toList

/-- The upper function. -/
def next : FunctionFacts := ⟨"next", 1, 2, ⟨0, 0, 0, 0, 1, 0⟩, false, none⟩

/-- The lower function. -/
def pick : FunctionFacts := ⟨"pick", 2, 1, ⟨0, 0, 0, 0, 1, 0⟩, false, none⟩

theorem reaches_arrows :
    next ∈ (read .plain "javascript" "a.js" arrows).functions ∧
      pick ∈ (read .plain "javascript" "a.js" arrows).functions ∧
      next.startLine < pick.startLine ∧
      ∃ l m, (rescanned arrows).1[next.startLine - 1]? = some l ∧
        (rescanned arrows).1[pick.startLine - 1]? = some m ∧ m.depth ≤ l.depth ∧
        pick.startLine ≤ next.lastLine := by
  have hfunctions : (read .plain "javascript" "a.js" arrows).functions = [next, pick] := by
    decide +kernel
  have hnext : next ∈ (read .plain "javascript" "a.js" arrows).functions := by simp [hfunctions]
  have hpick : pick ∈ (read .plain "javascript" "a.js" arrows).functions := by simp [hfunctions]
  have hdepths : (∀ l ∈ (rescanned arrows).1[0]?, l.depth = 0) ∧
      ∀ m ∈ (rescanned arrows).1[1]?, m.depth = 0 := by decide +kernel
  have hpasses : PassesOver (pick.startLine - next.startLine)
      ((rescanned arrows).1.drop (next.startLine - 1)) :=
    ⟨by decide +kernel, by decide +kernel, .inr (by decide +kernel)⟩
  obtain ⟨l, m, hl, hm, hreach, -⟩ := reaches_iff hnext hpick (by decide)
  have hdepth : m.depth ≤ l.depth := by rw [hdepths.1 l hl, hdepths.2 m hm]
  exact ⟨hnext, hpick, by decide, l, m, hl, hm, hdepth, (hreach hdepth).2 hpasses⟩

end Pair

end Script

end HouseStyle
