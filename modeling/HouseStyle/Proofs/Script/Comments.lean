import HouseStyle.Proofs.Script.OnePass
import HouseStyle.Proofs.Text.Lines
import HouseStyle.Script.Reader
import Mathlib.Data.List.Forall2
import Mathlib.Tactic.Common

/-!
# A script without the comments behind its lines

A line comment goes on to the end of its line.  Without these comments a script has the same code on
the same lines (`shortened_rescanned`), with two exceptions at the ends of lines.  A carriage return
right before a comment becomes part of the line end, and a last line that is nothing but a comment
and has no line end is no line any more.
-/

namespace HouseStyle.Script

open Text

/-! ### The comment behind a line -/

/-- The text of a line that starts in a mode, up to the line comment if there is one. -/
def uncommented : Mode → List Char → List Char
  | _, [] => []
  | .comment, '*' :: '/' :: rest => '*' :: '/' :: uncommented .code rest
  | .comment, c :: rest => c :: uncommented .comment rest
  | .code, '/' :: '/' :: _ => []
  | .code, '/' :: '*' :: rest => '/' :: '*' :: uncommented .comment rest
  | .code, c :: rest => c :: uncommented ((Mode.opened? c).getD .code) rest
  | literal, '\\' :: c :: rest => '\\' :: c :: uncommented literal rest
  | literal, c :: rest =>
    if literal.delimiter? = some c then c :: uncommented .code rest
    else c :: uncommented literal rest

/-- What is left out starts with two slashes. -/
lemma exists_comment (mode : Mode) (cs : List Char) :
    ∃ comment, cs = uncommented mode cs ++ comment ∧
      (comment = [] ∨ ∃ text, comment = '/' :: '/' :: text) := by
  fun_induction uncommented mode cs with
  | case1 => exact ⟨[], rfl, .inl rfl⟩
  | case4 text => exact ⟨_, rfl, .inr ⟨text, rfl⟩⟩
  | case2 rest ih | case5 rest ih | case7 _ _ rest _ _ ih =>
    obtain ⟨comment, hcs, hcomment⟩ := ih
    exact ⟨comment, by rw [List.cons_append, List.cons_append, ← hcs], hcomment⟩
  | case3 c rest _ ih | case6 c rest _ _ ih | case8 _ c rest _ _ _ _ _ _ _ ih
  | case9 _ c rest _ _ _ _ _ _ _ ih =>
    obtain ⟨comment, hcs, hcomment⟩ := ih
    exact ⟨comment, by rw [List.cons_append, ← hcs], hcomment⟩

/-- A character with something certain behind it has it behind it also with the comment. -/
lemma not_cons_uncommented {mode : Mode} {c d e : Char} {rest : List Char}
    (h : ∀ tail, c = d → rest = e :: tail → False) :
    ∀ tail, c = d → uncommented mode rest = e :: tail → False := by
  intro tail hc htail
  obtain ⟨comment, hrest, -⟩ := exists_comment mode rest
  rw [htail, List.cons_append] at hrest
  exact h _ hc hrest

/-- The code of a line does not change when the comment behind it is left out. -/
lemma scanLine_uncommented (mode : Mode) (cs : List Char) :
    scanLine mode (uncommented mode cs) = scanLine mode cs := by
  fun_induction uncommented mode cs with
  | case1 => rfl
  | case2 rest ih => rw [scanLine, scanLine, ih]
  | case3 c rest hend ih =>
    rw [scanLine_comment_cons (not_cons_uncommented hend), scanLine_comment_cons hend, ih]
  | case4 text => rfl
  | case5 rest ih => rw [scanLine, scanLine, ih]
  | case6 c rest hslashes hstart ih =>
    rw [scanLine_code_cons (not_cons_uncommented hslashes) (not_cons_uncommented hstart),
      scanLine_code_cons hslashes hstart, ih]
  | case7 literal d rest hcomment hcode ih =>
    rw [scanLine_escape hcomment hcode, scanLine_escape hcomment hcode, ih]
  | case8 literal c rest _ hcomment _ _ hcode hescape hquote ih =>
    have hback (d : Char) (tail : List Char) (hc : c = '\\') :
        uncommented .code rest = d :: tail → False := absurd hc (delimiter?_eq_some hquote).2
    rw [scanLine_literal hcomment hcode hback, scanLine_literal hcomment hcode hescape,
      if_pos hquote, if_pos hquote, ih]
  | case9 literal c rest _ hcomment _ _ hcode hescape hquote ih =>
    rw [scanLine_literal hcomment hcode fun d => not_cons_uncommented (hescape d),
      scanLine_literal hcomment hcode hescape, if_neg hquote, if_neg hquote, ih]

/-- A character with something certain behind it has it behind it without a carriage return at the
end. -/
lemma not_cons_concat_return {c d e : Char} {rest : List Char}
    (h : ∀ tail, c = d → rest = e :: tail → False) (he : e ≠ '\r') :
    ∀ tail, c = d → rest ++ ['\r'] = e :: tail → False := by
  intro tail hc htail
  cases rest with
  | nil => exact he (List.cons.inj htail).1.symm
  | cons f rest =>
    obtain ⟨rfl, -⟩ := List.cons.inj htail
    exact h rest hc rfl

/-- Whether a scanned line is another one with blanks behind its code. -/
def Scanned.Trails (s s' : Scanned) : Prop :=
  ∃ blanks, allBlank blanks = true ∧ s' = { s with code := s.code ++ blanks }

lemma Scanned.Trails.emit {s s' : Scanned} (h : s.Trails s') (c : Char) :
    (s.emit c).Trails (s'.emit c) := by
  obtain ⟨blanks, hblanks, rfl⟩ := h
  exact ⟨blanks, hblanks, rfl⟩

lemma Scanned.Trails.count {s s' : Scanned} (h : s.Trails s') (q : QuoteCount) :
    (s.count q).Trails (s'.count q) := by
  obtain ⟨blanks, hblanks, rfl⟩ := h
  exact ⟨blanks, hblanks, rfl⟩

/-- A carriage return at the end of a line adds a blank to its code, if anything. -/
lemma scanLine_concat_return (mode : Mode) (cs : List Char) :
    (scanLine mode cs).Trails (scanLine mode (cs ++ ['\r'])) := by
  fun_induction scanLine mode cs with
  | case1 mode =>
    cases mode with
    | comment => exact ⟨[], rfl, rfl⟩
    | code => exact ⟨['\r'], by decide, rfl⟩
    | single | double | template => exact ⟨[' '], by decide, rfl⟩
  | case2 rest ih =>
    rw [List.cons_append, List.cons_append, scanLine]
    exact ih.emit ' '
  | case3 c rest hend ih =>
    rw [List.cons_append, scanLine_comment_cons (not_cons_concat_return hend (by decide))]
    exact ih
  | case4 text => exact ⟨[], rfl, rfl⟩
  | case5 rest ih =>
    rw [List.cons_append, List.cons_append, scanLine]
    exact ih
  | case6 c rest hslashes hstart literal hliteral ih =>
    rw [List.cons_append, scanLine_code_cons (not_cons_concat_return hslashes (by decide))
      (not_cons_concat_return hstart (by decide)), hliteral]
    exact (ih.emit c).count literal.counted
  | case7 c rest hslashes hstart hnone ih =>
    rw [List.cons_append, scanLine_code_cons (not_cons_concat_return hslashes (by decide))
      (not_cons_concat_return hstart (by decide)), hnone, Option.map_none, Option.getD_none,
      Option.getD_none, Scanned.count_none]
    exact ih.emit c
  | case8 literal d rest hcomment hcode ih =>
    rw [List.cons_append, List.cons_append, scanLine_escape hcomment hcode]
    exact (ih.emit ' ').emit ' '
  | case9 literal c rest _ hcomment _ _ hcode hescape hquote ih =>
    have hback (d : Char) (tail : List Char) (hc : c = '\\') :
        rest ++ ['\r'] = d :: tail → False := absurd hc (delimiter?_eq_some hquote).2
    rw [List.cons_append, scanLine_literal hcomment hcode hback, if_pos hquote]
    exact ih.emit c
  | case10 literal c rest _ hcomment _ _ hcode hescape hquote ih =>
    by_cases hc : c = '\\'
    · -- a backslash at the end of the line now has something behind it
      obtain rfl : rest = [] := by
        cases rest with
        | nil => rfl
        | cons d rest => exact (hescape d rest hc rfl).elim
      rw [hc, List.cons_append, List.nil_append, scanLine_escape hcomment hcode]
      exact ⟨[' '], by decide, rfl⟩
    · have hback (d : Char) (tail : List Char) (hc' : c = '\\') :
          rest ++ ['\r'] = d :: tail → False := absurd hc' hc
      rw [List.cons_append, scanLine_literal hcomment hcode hback, if_neg hquote]
      exact ih.emit ' '

/-! ### The comments of a script -/

/-- The numbers of characters before the line comments, on lines the first of which starts in a
mode. -/
def keptFrom (mode : Mode) : List (List Char) → List Nat
  | [] => []
  | raw :: more => (uncommented mode raw).length :: keptFrom (scanLine mode raw).mode.atLineEnd more

/-- A script without the comments behind its lines. -/
def withoutComments (source : List Char) : List Char :=
  keepOn (keptFrom .code (lines source)) source

lemma keptFrom_le (mode : Mode) (raws : List (List Char)) :
    List.Forall₂ (fun count raw => count ≤ raw.length) (keptFrom mode raws) raws := by
  induction raws generalizing mode with
  | nil => exact .nil
  | cons raw more ih =>
    obtain ⟨comment, hraw, -⟩ := exists_comment mode raw
    refine .cons ?_ (ih _)
    rw [congrArg List.length hraw, List.length_append]
    exact Nat.le_add_right _ _

/-- What becomes of a line when the comment behind it is left out: what is missing does not go on
with a word, and only blanks are missing from the code. -/
structure Shortened (l l' : Line) : Prop where
  raw : ∃ tail, l.raw = l'.raw ++ tail ∧ (tail.head?.map isWord).getD false = false
  code : ∃ blanks, l.code = l'.code ++ blanks ∧ allBlank blanks = true

lemma Shortened.isBlank_eq {l l' : Line} (h : Shortened l l') : l.isBlank = l'.isBlank := by
  obtain ⟨blanks, hcode, hblanks⟩ := h.code
  rw [Line.isBlank, Line.isBlank, hcode, allBlank_append, hblanks, Bool.and_true]

lemma take_uncommented (mode : Mode) (raw : List Char) :
    raw.take (uncommented mode raw).length = uncommented mode raw := by
  obtain ⟨comment, hraw, -⟩ := exists_comment mode raw
  exact List.prefix_iff_eq_take.1 ⟨comment, hraw.symm⟩ |>.symm

/-- A line is shortened to what stands before its comment, or before a carriage return there. -/
lemma shortened_of_cut {mode : Mode} {raw raw' : List Char}
    (h : uncommented mode raw = raw' ∨
      uncommented mode raw = raw' ++ ['\r'] ∧ (uncommented mode raw).length < raw.length)
    (depth depth' : Nat) :
    (scanLine mode raw').mode = (scanLine mode raw).mode ∧
      Shortened ⟨raw, (scanLine mode raw).code, depth⟩
        ⟨raw', (scanLine mode raw').code, depth'⟩ := by
  obtain ⟨comment, hraw, hcomment⟩ := exists_comment mode raw
  rcases h with rfl | ⟨hreturn, hlt⟩
  · rw [scanLine_uncommented]
    refine ⟨rfl, ⟨comment, hraw, ?_⟩, ⟨[], (List.append_nil _).symm, rfl⟩⟩
    rcases hcomment with rfl | ⟨text, rfl⟩
    · rfl
    · exact show isWord '/' = false by decide
  · obtain ⟨blanks, hblanks, hscan⟩ := scanLine_concat_return mode raw'
    rw [← hreturn, scanLine_uncommented] at hscan
    rw [hscan]
    refine ⟨rfl, ⟨'\r' :: comment, ?_, show isWord '\r' = false by decide⟩, ⟨blanks, rfl, hblanks⟩⟩
    rw [hreturn, List.append_assoc] at hraw
    exact hraw

/-- The lines of a script without the comments behind its lines, and lines that were nothing but a
comment. -/
lemma scanFrom_cut {mode : Mode} {raws raws' : List (List Char)}
    (h : Cut (keptFrom mode raws) raws raws') (depth depth' : Nat) :
    ∃ kept dropped, (scanFrom mode depth raws).1 = kept ++ dropped ∧
      List.Forall₂ Shortened kept (scanFrom mode depth' raws').1 ∧
      ∀ l ∈ dropped, l.isBlank = true := by
  induction raws generalizing mode depth depth' raws' with
  | nil =>
    cases h
    exact ⟨[], [], rfl, .nil, by simp⟩
  | cons raw more ih =>
    rw [keptFrom] at h
    generalize hcount : (uncommented mode raw).length = count at h
    generalize hcounts : keptFrom _ more = counts at h
    cases h with
    | last =>
      -- the line is nothing but a comment
      have hcode : (scanLine mode raw).code = [] := by
        rw [← scanLine_uncommented, List.length_eq_zero_iff.1 hcount, scanLine]
      refine ⟨[], _, rfl, .nil, ?_⟩
      simp [Line.isBlank, hcode, allBlank]
    | @cons _ _ _ raw' _ more' hcut hcuts =>
      rw [← hcount, take_uncommented] at hcut
      obtain ⟨hmode, hshort⟩ := shortened_of_cut hcut depth depth'
      obtain ⟨kept, dropped, hlines, hkept, hdropped⟩ := ih (hcounts.symm ▸ hcuts)
        (depthAfter depth (scanLine mode raw).code) (depthAfter depth' (scanLine mode raw').code)
      rw [← hmode] at hkept
      refine ⟨_, dropped, ?_, .cons hshort hkept, hdropped⟩
      rw [List.cons_append, ← hlines]
      rfl

/-- The lines of a script are scanned as they are written. -/
lemma raw_rescanned (source : List Char) : (rescanned source).1.map Line.raw = lines source := by
  have hraw (mode : Mode) (depth : Nat) (raws : List (List Char)) :
      (scanFrom mode depth raws).1.map Line.raw = raws := by
    induction raws generalizing mode depth with
    | nil => rfl
    | cons raw more ih => exact congrArg (raw :: ·) (ih _ _)
  rw [rescanned_eq_scanFrom, hraw]

/-- Without the comments behind its lines a script has the same code on the same lines, but for
blanks at the ends of lines and blank lines at the end. -/
lemma shortened_rescanned (source : List Char) :
    ∃ kept dropped, (rescanned source).1 = kept ++ dropped ∧
      List.Forall₂ Shortened kept (rescanned (withoutComments source)).1 ∧
      ∀ l ∈ dropped, l.isBlank = true := by
  rw [rescanned_eq_scanFrom, rescanned_eq_scanFrom]
  exact scanFrom_cut (cut_lines (keptFrom_le .code _)) 0 0

end HouseStyle.Script
