import HouseStyle.Proofs.Tally
import HouseStyle.Proofs.Text.Lines
import HouseStyle.Survey.LanguageFacts
import HouseStyle.Survey.Measure
import Mathlib.Data.List.DropRight
import Mathlib.Logic.Relation
import Mathlib.Tactic.Common

/-!
# What the measures of a text see

A text is measured by the lines that are not blank, without the blanks at their ends
(`filled_joined`).  So nothing changes where blank lines come in or go, where blanks are put at the
end of a line, or where lines end with a carriage return (`Relaid`).

The numbers that are measured bound each other (`Measured`), and they still do when the measures of
several files are added up.
-/

namespace HouseStyle

/-! ### Bounds -/

/-- The lengths of some lines: the greatest one is not more than all of them together, and these are
not more than as many lines of the greatest length. -/
structure LineStats.Bounded (s : LineStats) : Prop where
  max_le : s.maxLength ≤ s.totalLength
  total_le : s.totalLength ≤ s.lines * s.maxLength

namespace LineStats

variable {r s : LineStats}

lemma bounded_none : none.Bounded := ⟨Nat.le_refl 0, Nat.le_refl 0⟩

lemma bounded_ofLength (n : Nat) : (ofLength n).Bounded := ⟨Nat.le_refl n, (Nat.one_mul n).ge⟩

lemma Bounded.add (hr : r.Bounded) (hs : s.Bounded) : (r + s).Bounded where
  max_le := Nat.max_le.2
    ⟨hr.max_le.trans (Nat.le_add_right _ _), hs.max_le.trans (Nat.le_add_left _ _)⟩
  total_le :=
    calc r.totalLength + s.totalLength
      _ ≤ r.lines * r.maxLength + s.lines * s.maxLength := Nat.add_le_add hr.total_le hs.total_le
      _ ≤ r.lines * max r.maxLength s.maxLength + s.lines * max r.maxLength s.maxLength :=
        Nat.add_le_add (Nat.mul_le_mul_left _ (Nat.le_max_left _ _))
          (Nat.mul_le_mul_left _ (Nat.le_max_right _ _))
      _ = (r.lines + s.lines) * max r.maxLength s.maxLength := (Nat.add_mul _ _ _).symm

/-- Lengths that are added up keep their bounds. -/
lemma Bounded.foldl {l : List LineStats} (hr : r.Bounded) (hl : ∀ s ∈ l, s.Bounded) :
    (l.foldl (· + ·) r).Bounded := by
  induction l generalizing r with
  | nil => exact hr
  | cons s l ih =>
    obtain ⟨hs, hl⟩ := List.forall_mem_cons.1 hl
    exact ih (hr.add hs) hl

lemma bounded_sum {l : List LineStats} (h : ∀ s ∈ l, s.Bounded) : (sum l).Bounded :=
  bounded_none.foldl h

lemma lines_sum (l : List LineStats) : (sum l).lines = Count.sum (l.map LineStats.lines) := by
  rw [sum, Count.foldl_eq_add LineStats.lines fun _ _ => rfl]
  exact Nat.zero_add _

end LineStats

/-- The measures of some lines: those that are indented are among those that are not blank, these
are not more than there are lines, and a step is counted on a line that starts with a space. -/
structure Measured (count : Nat) (i : Indentation) (s : LineStats) : Prop where
  indented_le : i.spaceLines + i.tabLines ≤ s.lines
  lines_le : s.lines ≤ count
  steps_le : i.steps.total ≤ i.spaceLines
  lengths : s.Bounded

namespace Measured

variable {count count' : Nat} {i i' : Indentation} {s s' : LineStats}

lemma nothing : Measured 0 .none .none :=
  ⟨Nat.le_refl 0, Nat.le_refl 0, Nat.le_refl 0, LineStats.bounded_none⟩

lemma add (h : Measured count i s) (h' : Measured count' i' s') :
    Measured (count + count') (i + i') (s + s') where
  indented_le := by
    have hadd := Nat.add_le_add h.indented_le h'.indented_le
    change i.spaceLines + i'.spaceLines + (i.tabLines + i'.tabLines) ≤ s.lines + s'.lines
    omega
  lines_le := Nat.add_le_add h.lines_le h'.lines_le
  steps_le := by
    change (i.steps.merge i'.steps).total ≤ i.spaceLines + i'.spaceLines
    rw [Tally.total_merge]
    exact Nat.add_le_add h.steps_le h'.steps_le
  lengths := h.lengths.add h'.lengths

end Measured

/-- The measures of a file belong together. -/
def FileFacts.Measured (f : FileFacts) : Prop :=
  HouseStyle.Measured f.totalLines f.indentation f.lineStats

namespace Survey

open Text

/-! ### The lines that are measured -/

section Blanks

variable {cs blanks : List Char}

lemma trimEnd_append_blanks (cs : List Char) (h : allBlank blanks = true) :
    trimEnd (cs ++ blanks) = trimEnd cs := by
  have hreverse : ∀ c ∈ blanks.reverse, isBlank c = true := fun c hc =>
    List.all_eq_true.1 h c (List.mem_reverse.1 hc)
  rw [trimEnd, trimEnd, List.reverse_append, List.dropWhile_append_of_pos hreverse]

/-- Only blanks stand behind the end of a text. -/
lemma exists_trimEnd_append (cs : List Char) :
    ∃ blanks, allBlank blanks = true ∧ trimEnd cs ++ blanks = cs := by
  refine ⟨(cs.reverse.takeWhile isBlank).reverse, ?_, ?_⟩
  · rw [allBlank, List.all_reverse]
    exact List.all_eq_true.2 fun c => List.mem_takeWhile_imp
  · rw [trimEnd, ← List.reverse_append, List.takeWhile_append_dropWhile, List.reverse_reverse]

lemma allBlank_trimEnd (cs : List Char) : allBlank (trimEnd cs) = allBlank cs := by
  obtain ⟨blanks, hblanks, happend⟩ := exists_trimEnd_append cs
  have h := congrArg allBlank happend
  rwa [allBlank_append, hblanks, Bool.and_true] at h

/-- Nothing is left of a text exactly if it holds blanks only. -/
lemma isEmpty_trim (cs : List Char) : (trim cs).isEmpty = allBlank cs := by
  have hstart : allBlank (cs.takeWhile isBlank) = true := List.all_takeWhile
  have hrest : allBlank (trimStart cs) = allBlank cs := by
    have h := congrArg allBlank (List.takeWhile_append_dropWhile (p := isBlank) (l := cs))
    rwa [allBlank_append, hstart, Bool.true_and] at h
  rw [← hrest, Bool.eq_iff_iff, List.isEmpty_iff, trim, trimEnd, List.reverse_eq_nil_iff,
    List.dropWhile_eq_nil_iff, allBlank, List.all_eq_true]
  simp

lemma isBlank_of_isIndent {c : Char} (h : isIndent c = true) : isBlank c = true := by
  rw [isIndent, Bool.or_eq_true, beq_iff_eq, beq_iff_eq] at h
  rcases h with rfl | rfl <;> decide

/-- What stands before the first character of a line does not depend on its end. -/
lemma margin_append_blanks (hcs : allBlank cs = false) (blanks : List Char) :
    margin (cs ++ blanks) = margin cs := by
  obtain ⟨c, hc, hblank⟩ := List.all_eq_false.1 hcs
  have hindent : ¬isIndent c = true := fun h => hblank (isBlank_of_isIndent h)
  have hlength : (cs.takeWhile isIndent).length ≠ cs.length := by
    intro hlength
    have hall := (List.takeWhile_prefix isIndent).eq_of_length hlength
    exact hindent (List.takeWhile_eq_self_iff.1 hall c hc)
  rw [margin, margin, List.takeWhile_append, if_neg hlength]

end Blanks

/-- What is measured of a line. -/
def filled (line : List Char) : List (List Char) :=
  if allBlank line then [] else [trimEnd line]

lemma filled_append_blanks {blanks : List Char} (line : List Char)
    (h : allBlank blanks = true) : filled (line ++ blanks) = filled line := by
  rw [filled, filled, allBlank_append, h, Bool.and_true, trimEnd_append_blanks line h]

lemma filled_of_allBlank {line : List Char} (h : allBlank line = true) : filled line = [] :=
  if_pos h

/-- A line has a length exactly if it is not blank. -/
lemma endedLines_eq (source : List Char) :
    endedLines source = (filledLines source).map trimEnd := by
  rw [endedLines, filledLines, List.filter_map]
  refine congrArg _ (List.filter_congr fun line _ => ?_)
  rw [Function.comp_apply, isEmpty_trim, allBlank_trimEnd]

/-- What is measured of a text. -/
def measuredLines (source : List Char) : List (List Char) := (lines source).flatMap filled

lemma map_trimEnd_filledLines (source : List Char) :
    (filledLines source).map trimEnd = measuredLines source := by
  rw [filledLines, measuredLines]
  induction lines source with
  | nil => rfl
  | cons line more ih =>
    rw [List.filter_cons, List.flatMap_cons, filled, ← ih]
    cases allBlank line <;> rfl

/-- The blanks at the ends of lines do not count for their lengths. -/
lemma lineStats_eq (source : List Char) :
    lineStats source = LineStats.sum ((measuredLines source).map fun l => .ofLength l.length) := by
  rw [lineStats, endedLines_eq, map_trimEnd_filledLines]

/-- The blanks at the ends of lines do not count for the indentation. -/
lemma indentation_eq (source : List Char) :
    indentation source = marginsIndentation 0 ((measuredLines source).map margin) := by
  have hmargins : ∀ line ∈ filledLines source, margin line = margin (trimEnd line) := by
    intro line hline
    obtain ⟨blanks, hblanks, happend⟩ := exists_trimEnd_append line
    have hfilled : allBlank line = false := by simpa using (List.mem_filter.1 hline).2
    rw [← happend, allBlank_append, hblanks, Bool.and_true] at hfilled
    rw [← margin_append_blanks hfilled blanks, happend]
  rw [indentation, ← map_trimEnd_filledLines, List.map_map, List.map_congr_left hmargins]
  rfl

/-! ### Line ends -/

/-- The text of some lines, with a line feed between two of them. -/
def joined (ls : List (List Char)) : List Char := List.intercalate ['\n'] ls

/-- Every text is one of lines without line feeds. -/
lemma exists_joined (source : List Char) :
    ∃ ls : List (List Char), (∀ line ∈ ls, '\n' ∉ line) ∧ joined ls = source := by
  suffices h : ∃ line ls, (∀ l ∈ line :: ls, '\n' ∉ l) ∧ joined (line :: ls) = source by
    obtain ⟨line, ls, h⟩ := h
    exact ⟨line :: ls, h⟩
  induction source with
  | nil => exact ⟨[], [], by simp, rfl⟩
  | cons c source ih =>
    obtain ⟨line, ls, hlines, rfl⟩ := ih
    by_cases hc : c = '\n'
    · refine ⟨[], line :: ls, List.forall_mem_cons.2 ⟨List.not_mem_nil, hlines⟩, ?_⟩
      rw [joined, List.intercalate_cons_cons, hc]
      rfl
    · obtain ⟨hline, hls⟩ := List.forall_mem_cons.1 hlines
      have hfirst : '\n' ∉ c :: line := by
        rw [List.mem_cons]
        exact not_or.2 ⟨Ne.symm hc, hline⟩
      refine ⟨c :: line, ls, List.forall_mem_cons.2 ⟨hfirst, hls⟩, ?_⟩
      cases ls with
      | nil => rfl
      | cons next ls =>
        rw [joined, joined, List.intercalate_cons_cons, List.intercalate_cons_cons]
        rfl

section Feeds

variable {line blanks : List Char}

/-- A text goes on after a line feed with further lines.  A carriage return right before the line
feed belongs to no line. -/
lemma lines_append_feed (h : '\n' ∉ line) (rest : List Char) :
    ∃ first, lines (line ++ '\n' :: rest) = first :: lines rest ∧
      (line = first ∨ line = first ++ ['\r']) := by
  induction line with
  | nil => exact ⟨[], rfl, .inl rfl⟩
  | cons c line ih =>
    obtain ⟨hc, hline⟩ := not_or.1 (mt List.mem_cons.2 h)
    obtain ⟨first, hfirst, hcut⟩ := ih hline
    by_cases hreturn : c = '\r' ∧ line = []
    · obtain ⟨rfl, rfl⟩ := hreturn
      exact ⟨[], rfl, .inr rfl⟩
    · have hlast : ∀ tail, c = '\r' → line ++ '\n' :: rest = '\n' :: tail → False := by
        intro tail hr htail
        cases line with
        | nil => exact hreturn ⟨hr, rfl⟩
        | cons d line =>
          have hd : d = '\n' := (List.cons.inj htail).1
          exact hline (hd ▸ List.mem_cons_self)
      refine ⟨c :: first, ?_, ?_⟩
      · rw [List.cons_append, lines_cons (Ne.symm hc) hlast, hfirst]
        rfl
      · rcases hcut with rfl | rfl
        · exact .inl rfl
        · exact .inr rfl

lemma measuredLines_append_feed (h : '\n' ∉ line) (rest : List Char) :
    measuredLines (line ++ '\n' :: rest) = filled line ++ measuredLines rest := by
  obtain ⟨first, hlines, hfirst⟩ := lines_append_feed h rest
  have hfilled : filled line = filled first := by
    rcases hfirst with rfl | rfl
    · rfl
    · exact filled_append_blanks first rfl
  rw [measuredLines, hlines, List.flatMap_cons, hfilled, measuredLines]

/-- A text without a line feed is one line. -/
lemma measuredLines_of_notMem (h : '\n' ∉ line) : measuredLines line = filled line := by
  have hlines : line ≠ [] → lines line = [line] := by
    induction line with
    | nil => exact fun hne => absurd rfl hne
    | cons c line ih =>
      intro _
      obtain ⟨hc, hline⟩ := not_or.1 (mt List.mem_cons.2 h)
      have hlast : ∀ tail, c = '\r' → line = '\n' :: tail → False := by
        rintro tail - rfl
        exact hline List.mem_cons_self
      rw [lines_cons (Ne.symm hc) hlast]
      cases line with
      | nil => rfl
      | cons d line =>
        rw [ih hline (List.cons_ne_nil d line)]
        rfl
  cases line with
  | nil => rfl
  | cons c line => rw [measuredLines, hlines (List.cons_ne_nil c line), List.flatMap_singleton]

/-- A text is measured line by line, and blanks before the line feeds do not count. -/
lemma measuredLines_intercalate {ls : List (List Char)} (h : ∀ line ∈ ls, '\n' ∉ line)
    (hfeed : '\n' ∉ blanks) (hblanks : allBlank blanks = true) :
    measuredLines (List.intercalate (blanks ++ ['\n']) ls) = ls.flatMap filled := by
  induction ls with
  | nil => rfl
  | cons line ls ih =>
    obtain ⟨hline, hls⟩ := List.forall_mem_cons.1 h
    cases ls with
    | nil =>
      rw [List.intercalate_singleton, List.flatMap_singleton, measuredLines_of_notMem hline]
    | cons next ls =>
      have hends : '\n' ∉ line ++ blanks := by
        rw [List.mem_append]
        exact not_or.2 ⟨hline, hfeed⟩
      rw [List.intercalate_cons_cons, List.flatMap_cons, ← ih hls,
        ← filled_append_blanks line hblanks, ← measuredLines_append_feed hends]
      simp only [List.append_assoc, List.cons_append, List.nil_append]

lemma measuredLines_joined {ls : List (List Char)} (h : ∀ line ∈ ls, '\n' ∉ line) :
    measuredLines (joined ls) = ls.flatMap filled :=
  measuredLines_intercalate h List.not_mem_nil rfl

end Feeds

/-! ### Changes that are not seen -/

/-- Changes of a text in what is not measured. -/
inductive Relaid : List Char → List Char → Prop
  /-- A blank line comes in between lines, before all of them or after them. -/
  | blankLine {front back : List (List Char)} {blanks : List Char}
      (hlines : ∀ line ∈ front ++ blanks :: back, '\n' ∉ line) (hblanks : allBlank blanks = true) :
      Relaid (joined (front ++ back)) (joined (front ++ blanks :: back))
  /-- Blanks are put at the end of a line. -/
  | trailing {front back : List (List Char)} {line blanks : List Char}
      (hlines : ∀ l ∈ front ++ (line ++ blanks) :: back, '\n' ∉ l)
      (hblanks : allBlank blanks = true) :
      Relaid (joined (front ++ line :: back)) (joined (front ++ (line ++ blanks) :: back))
  /-- Every line ends with a carriage return before the line feed. -/
  | returns {ls : List (List Char)} (hlines : ∀ line ∈ ls, '\n' ∉ line) :
      Relaid (joined ls) (List.intercalate ['\r', '\n'] ls)

lemma Relaid.measuredLines_eq {source changed : List Char} (h : Relaid source changed) :
    measuredLines changed = measuredLines source := by
  cases h with
  | @blankLine front back blanks hlines hblanks =>
    have hsource : ∀ line ∈ front ++ back, '\n' ∉ line := fun line hline =>
      hlines line (((List.sublist_cons_self blanks back).append_left front).subset hline)
    rw [measuredLines_joined hlines, measuredLines_joined hsource, List.flatMap_append,
      List.flatMap_append, List.flatMap_cons, filled_of_allBlank hblanks, List.nil_append]
  | @trailing front back line blanks hlines hblanks =>
    obtain ⟨hfront, hrest⟩ := List.forall_mem_append.1 hlines
    obtain ⟨hline, hback⟩ := List.forall_mem_cons.1 hrest
    have hsource : ∀ l ∈ front ++ line :: back, '\n' ∉ l :=
      List.forall_mem_append.2 ⟨hfront, List.forall_mem_cons.2
        ⟨fun hfeed => hline (List.mem_append_left _ hfeed), hback⟩⟩
    rw [measuredLines_joined hlines, measuredLines_joined hsource, List.flatMap_append,
      List.flatMap_append, List.flatMap_cons, List.flatMap_cons, filled_append_blanks line hblanks]
  | returns hlines =>
    have hreturn : '\n' ∉ ['\r'] := by decide
    rw [measuredLines_joined hlines]
    exact measuredLines_intercalate hlines hreturn rfl

/-- No number of such changes is seen, in either direction. -/
lemma measuredLines_relaid {source changed : List Char}
    (h : Relation.EqvGen Relaid source changed) :
    measuredLines changed = measuredLines source := by
  induction h with
  | rel _ _ h => exact h.measuredLines_eq
  | refl => rfl
  | symm _ _ _ ih => exact ih.symm
  | trans _ _ _ _ _ ih ih' => exact ih'.trans ih

/-! ### The measures of a text -/

lemma marginsIndentation_bounds (previous : Nat) (margins : List (List Char)) :
    (marginsIndentation previous margins).spaceLines +
      (marginsIndentation previous margins).tabLines
        ≤ margins.length ∧
      (marginsIndentation previous margins).steps.total
        ≤ (marginsIndentation previous margins).spaceLines := by
  induction margins generalizing previous with
  | nil => exact ⟨Nat.le_refl 0, Nat.le_refl 0⟩
  | cons m rest ih =>
    obtain ⟨hlines, hsteps⟩ := ih (column m)
    unfold marginsIndentation
    -- the line starts with a space, with a tab, or with neither of them
    split
    · dsimp only
      split_ifs
      · rw [Tally.total_add, List.length_cons]
        omega
      · rw [List.length_cons]
        omega
    · dsimp only
      rw [List.length_cons]
      omega
    · dsimp only
      rw [List.length_cons]
      omega

lemma lines_lineStats (source : List Char) :
    (lineStats source).lines = (filledLines source).length := by
  have hone (l : List (List Char)) : Count.sum (l.map fun _ => 1) = l.length := by
    simp [Count.sum_eq_sum]
  rw [lineStats, LineStats.lines_sum, List.map_map, endedLines_eq, List.map_map, ← hone]
  rfl

/-- The measures of a text bound each other. -/
lemma measured (source : List Char) :
    Measured (lines source).length (indentation source) (lineStats source) where
  indented_le := by
    rw [lines_lineStats, ← List.length_map (f := margin)]
    exact (marginsIndentation_bounds _ _).1
  lines_le := by
    rw [lines_lineStats]
    exact List.length_filter_le _ _
  steps_le := (marginsIndentation_bounds _ _).2
  lengths := LineStats.bounded_sum (List.forall_mem_map.2 fun _ _ => LineStats.bounded_ofLength _)

end Survey

/-! ### Several files -/

/-- The measures of some files, added up. -/
lemma LanguageFacts.measured_ofFiles {files : List FileFacts} (h : ∀ f ∈ files, f.Measured)
    (language : String) (layout : Layout) :
    Measured (Count.sum (files.map (·.totalLines))) (ofFiles language files layout).indentation
      (LineStats.sum (files.map (·.lineStats))) := by
  have hfold {count : Nat} {s : LineStats} (facts : LanguageFacts)
      (hstart : Measured count facts.indentation s) :
      Measured (count + Count.sum (files.map (·.totalLines)))
        (files.foldl addFile facts).indentation
        ((files.map (·.lineStats)).foldl (· + ·) s) := by
    induction files generalizing count facts s with
    | nil => exact hstart
    | cons f files ih =>
      obtain ⟨hf, hfiles⟩ := List.forall_mem_cons.1 h
      have hnext := ih hfiles (facts.addFile f) (hstart.add hf)
      rwa [Nat.add_assoc] at hnext
  rw [← Nat.zero_add (Count.sum _)]
  exact hfold (empty language layout) Measured.nothing

namespace Survey

open Text

/-- Every text is one of lines, and blank lines, blanks at the ends of lines and carriage returns
before line feeds are not seen by its measures.  The measures bound each other, and lengths of lines
that are added up keep their bounds, as do the measures of any files. -/
theorem measures_relaid {source changed : List Char} (h : Relation.EqvGen Relaid source changed)
    {stats : List LineStats} (hstats : ∀ s ∈ stats, s.Bounded) {files : List FileFacts}
    (hfiles : ∀ f ∈ files, f.Measured) (language : String) (layout : Layout) :
    (∃ ls : List (List Char), (∀ line ∈ ls, '\n' ∉ line) ∧ joined ls = source) ∧
      (indentation changed = indentation source ∧ lineStats changed = lineStats source) ∧
      Measured (lines source).length (indentation source) (lineStats source) ∧
      (LineStats.sum stats).Bounded ∧
      Measured (Count.sum (files.map (·.totalLines)))
        (LanguageFacts.ofFiles language files layout).indentation
        (LineStats.sum (files.map (·.lineStats))) := by
  have hlines := measuredLines_relaid h
  refine ⟨exists_joined source, ⟨?_, ?_⟩, measured source, LineStats.bounded_sum hstats,
    LanguageFacts.measured_ofFiles hfiles language layout⟩
  · rw [indentation_eq, indentation_eq, hlines]
  · rw [lineStats_eq, lineStats_eq, hlines]

/-- The lines of a text without blank lines. -/
def denseLines : List (List Char) := ["if a:".toList, "    b = 1".toList, "\tc = 2".toList, []]

/-- The same lines with a blank line, and with blanks at the end of a line. -/
def airyLines : List (List Char) :=
  [" \t".toList, "if a:  ".toList, "    b = 1".toList, "\tc = 2".toList, []]

/-- The text of these lines with carriage returns. -/
def airy : List Char := List.intercalate ['\r', '\n'] airyLines

theorem measures_relaid_airy :
    Relation.EqvGen Relaid (joined denseLines) airy ∧
      (∀ s ∈ [lineStats airy, ⟨1, 9, 9⟩], s.Bounded) ∧
      (∀ f ∈ [fileFacts "a.py" "python" airy []], f.Measured) ∧
      indentation airy = ⟨1, 1, Tally.ofLabels ["4"]⟩ ∧ lineStats airy = ⟨3, 20, 9⟩ ∧
      (LineStats.sum [lineStats airy, ⟨1, 9, 9⟩]).Bounded := by
  have hblank : Relaid (joined denseLines) (joined (" \t".toList :: denseLines)) :=
    @Relaid.blankLine [] denseLines " \t".toList (by decide) rfl
  have htrailing : Relaid (joined (" \t".toList :: denseLines)) (joined airyLines) :=
    @Relaid.trailing [" \t".toList] denseLines.tail "if a:".toList "  ".toList (by decide) rfl
  have hreturns : Relaid (joined airyLines) airy := .returns (by decide)
  have hrelaid : Relation.EqvGen Relaid (joined denseLines) airy :=
    .trans _ _ _ (.rel _ _ hblank) (.trans _ _ _ (.rel _ _ htrailing) (.rel _ _ hreturns))
  have hstats : ∀ s ∈ [lineStats airy, ⟨1, 9, 9⟩], s.Bounded :=
    List.forall_mem_cons.2 ⟨(measured airy).lengths,
      List.forall_mem_singleton.2 (LineStats.bounded_ofLength 9)⟩
  have hfiles : ∀ f ∈ [fileFacts "a.py" "python" airy []], f.Measured :=
    List.forall_mem_singleton.2 (measured airy)
  obtain ⟨-, ⟨hindentation, hlengths⟩, -, hsum, -⟩ :=
    measures_relaid hrelaid hstats hfiles "python" .empty
  refine ⟨hrelaid, hstats, hfiles, ?_, ?_, hsum⟩
  · rw [hindentation]
    decide +kernel
  · rw [hlengths]
    decide +kernel

end Survey

end HouseStyle
