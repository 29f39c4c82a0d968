import HouseStyle.Count
import HouseStyle.Script.Scanner

/-!
# Scanning lines by looking ahead

Files are read by a scanner that takes a line in two phases.  The first one blanks out the texts
on the line as if there were no block comments.  If a block comment starts in what is left, the
part of the line before it is scanned once more by itself, the comment is skipped, and the line
goes on behind it in the same way.

A place in the blanked line is a number of characters, and a place in the line is a number of
bytes, which are more where characters take several bytes.
-/

namespace HouseStyle.Script

/-- What is left of a line, block comments not being known. -/
structure Blanked where
  /-- The code. -/
  code : List Char
  /-- The literals that were opened. -/
  quotes : QuoteCount
  /-- Whether a template literal is open at the end. -/
  openTemplate : Bool
deriving DecidableEq, Repr

namespace Blanked

/-- Put a character in front of the code. -/
def emit (c : Char) (b : Blanked) : Blanked := { b with code := c :: b.code }

/-- Count a literal. -/
def count (q : QuoteCount) (b : Blanked) : Blanked := { b with quotes := q + b.quotes }

end Blanked

/-- Blank out the texts on a line, given the quote of the literal that is open and whether the
character before was a backslash inside it. -/
def blank (literal : Option Char) (escaped : Bool) : List Char → Blanked
  | [] => ⟨[], .none, literal = some '\x60'⟩
  | c :: rest =>
    match literal with
    | some quote =>
      if escaped then (blank literal false rest).emit ' '
      else if c = '\\' then (blank literal true rest).emit ' '
      else if c = quote then (blank none false rest).emit c
      else (blank literal false rest).emit ' '
    | none =>
      if c = '/' ∧ rest.head? = some '/' then ⟨[], .none, false⟩
      else if c = '\x27' then ((blank (some c) false rest).emit c).count ⟨1, 0⟩
      else if c = '\x22' then ((blank (some c) false rest).emit c).count ⟨0, 1⟩
      else if c = '\x60' then (blank (some c) false rest).emit c
      else (blank none false rest).emit c

/-- Blank out the texts on a line that may start inside a template literal. -/
def blankLine (inTemplate : Bool) (cs : List Char) : Blanked :=
  blank (if inTemplate then some '\x60' else none) false cs

/-- The number of characters before the first start of a block comment. -/
def commentStart? : List Char → Option Nat
  | '/' :: '*' :: _ => some 0
  | _ :: rest => (commentStart? rest).map (· + 1)
  | [] => none

/-- What follows the first end of a block comment. -/
def afterComment? : List Char → Option (List Char)
  | '*' :: '/' :: rest => some rest
  | _ :: rest => afterComment? rest
  | [] => none

/-! ## Places in bytes -/

/-- The number of bytes of a text. -/
def byteLength (cs : List Char) : Nat := Count.sum (cs.map Char.utf8Size)

/-- The place in bytes of the character of a number, or the end if there are not so many. -/
def bytePlace (cs : List Char) (index : Nat) : Nat := byteLength (cs.take index)

/-- A text cut at a place in bytes, if a character starts there or the text ends there. -/
def cutAtByte? : (place : Nat) → List Char → Option (List Char × List Char)
  | 0, cs => some ([], cs)
  | _ + 1, [] => none
  | place + 1, c :: cs =>
    if c.utf8Size ≤ place + 1 then
      (cutAtByte? (place + 1 - c.utf8Size) cs).map fun r => (c :: r.1, r.2)
    else none

/-- The text before a place in bytes. -/
def beforeByte (place : Nat) (cs : List Char) : List Char :=
  ((cutAtByte? place cs).map Prod.fst).getD []

/-- The text from a place in bytes on. -/
def fromByte (place : Nat) (cs : List Char) : List Char :=
  ((cutAtByte? place cs).map Prod.snd).getD []

/-! ## Lines -/

/-- What a line starts inside of. -/
structure Carried where
  /-- Whether it is a template literal. -/
  inTemplate : Bool
  /-- Whether it is a block comment. -/
  inComment : Bool
deriving DecidableEq, Repr

/-- What is left of a line. -/
structure Rescanned where
  /-- The code. -/
  code : List Char
  /-- The literals that were opened. -/
  quotes : QuoteCount
  /-- What the next line starts inside of. -/
  carried : Carried
deriving DecidableEq, Repr

/-- The code of a line, with what was found before it. -/
def Rescanned.behind (code : List Char) (quotes : QuoteCount) (r : Rescanned) : Rescanned :=
  { r with code := code ++ r.code, quotes := quotes + r.quotes }

theorem length_of_afterComment? {cs rest : List Char} (h : afterComment? cs = some rest) :
    rest.length ≤ cs.length := by
  fun_induction afterComment? cs with
  | case1 r =>
    obtain rfl := Option.some.inj h
    simp only [List.length_cons]
    omega
  | case2 c r _ ih =>
    have hr := ih h
    simp only [List.length_cons]
    omega
  | case3 => simp at h

theorem length_of_cutAtByte? {place : Nat} {cs : List Char} {r : List Char × List Char}
    (h : cutAtByte? place cs = some r) : r.2.length ≤ cs.length := by
  fun_induction cutAtByte? place cs generalizing r with
  | case1 cs =>
    obtain rfl := Option.some.inj h
    exact Nat.le_refl _
  | case2 => simp at h
  | case3 place c cs hc ih =>
    obtain ⟨r', hr', rfl⟩ := Option.map_eq_some_iff.1 h
    have hr := ih hr'
    simp only [List.length_cons]
    omega
  | case4 => simp at h

theorem length_fromByte_lt (place : Nat) {cs : List Char} (h : cs ≠ []) :
    (fromByte (place + 1) cs).length < cs.length := by
  cases cs with
  | nil => exact absurd rfl h
  | cons c cs =>
    rw [fromByte, cutAtByte?]
    split
    · cases hr : cutAtByte? (place + 1 - c.utf8Size) cs with
      | none => simp
      | some r =>
        have hlength := length_of_cutAtByte? hr
        simp only [Option.map_some, Option.getD_some, List.length_cons]
        omega
    · simp

/-- Scan a line or the rest of it up to the start of a block comment, and what follows that start,
if there is one. -/
def rescanStep (s : Carried) (cs : List Char) : Rescanned × Option (List Char) :=
  match if s.inComment then afterComment? cs else some cs with
  | none => (⟨[], .none, s⟩, none)
  | some rest =>
    let gap := if s.inComment then [' '] else []
    let blanked := blankLine s.inTemplate rest
    match commentStart? blanked.code with
    | none => (⟨gap ++ blanked.code, blanked.quotes, ⟨blanked.openTemplate, false⟩⟩, none)
    | some index =>
      let place := bytePlace rest index
      let head := blankLine s.inTemplate (beforeByte place rest)
      (⟨gap ++ head.code, head.quotes, ⟨head.openTemplate, true⟩⟩, some (fromByte (place + 2) rest))

theorem length_rescanStep {s : Carried} {cs rest : List Char} {r : Rescanned}
    (h : rescanStep s cs = (r, some rest)) : rest.length < cs.length := by
  rw [rescanStep] at h
  split at h
  · simp at h
  next code hcode =>
    have hlength : code.length ≤ cs.length := by
      split at hcode
      · exact length_of_afterComment? hcode
      · exact Nat.le_of_eq (by rw [Option.some.inj hcode])
    cases hindex : commentStart? (blankLine s.inTemplate code).code with
    | none => simp [hindex] at h
    | some index =>
      have hne : code ≠ [] := by
        intro hnil
        simp [hnil, blankLine, blank, commentStart?] at hindex
      simp only [hindex, Prod.mk.injEq, Option.some.injEq] at h
      exact h.2 ▸ Nat.lt_of_lt_of_le (length_fromByte_lt _ hne) hlength

/-- Scan a line or the rest of it, which starts inside of something. -/
def rescan (s : Carried) (cs : List Char) : Rescanned :=
  match _h : rescanStep s cs with
  | (r, none) => r
  | (r, some rest) => (rescan r.carried rest).behind r.code r.quotes
termination_by cs.length
decreasing_by exact length_rescanStep ‹_›

/-- Scan lines, the first of which starts inside of something and at a depth. -/
def rescanFrom (s : Carried) (depth : Nat) : List (List Char) → List Line × QuoteCount
  | [] => ([], .none)
  | raw :: more =>
    let r := rescan s raw
    let (lines, quotes) := rescanFrom r.carried (depthAfter depth r.code) more
    (⟨raw, r.code, depth⟩ :: lines, r.quotes + quotes)

/-- The lines of a file and its literals, as files are read. -/
def rescanned (source : List Char) : List Line × QuoteCount :=
  rescanFrom ⟨false, false⟩ 0 (Text.lines source)

end HouseStyle.Script
