import HouseStyle.Path
import HouseStyle.Text.Expression
import HouseStyle.Text.Quoted
import HouseStyle.Text.Utf8

/-!
# Patterns of paths

Paths to leave out are given by patterns with stars, question marks, classes of characters and
alternatives.  A star also crosses directories.  Two stars that stand alone between slashes are
any number of directories.  A pattern is matched against the bytes of the whole path, so a
question mark is one byte.
-/

namespace HouseStyle

open Text (Expression Place)

/-- A part of a pattern of paths. -/
inductive GlobPart where
  /-- A character. -/
  | char (c : Char)
  /-- Any byte. -/
  | any
  /-- Any bytes. -/
  | star
  /-- Any number of directories at the start. -/
  | leading
  /-- Something below a directory at the end. -/
  | trailing
  /-- Any number of directories between two others. -/
  | between
  /-- A character of some ranges, or of none of them. -/
  | oneOf (negated : Bool) (ranges : List (Char × Char))
  /-- One of some patterns. -/
  | branches (alternatives : List (List GlobPart))

/-- Why a text is no pattern. -/
inductive GlobFault where
  /-- A class without an end. -/
  | unclosedClass
  /-- A range whose end comes before its start. -/
  | invalidRange (first last : Char)
  /-- Alternatives without an end. -/
  | unclosedBranches
  /-- The end of alternatives that have no start. -/
  | unopenedBranches
  /-- A backslash at the end. -/
  | danglingEscape
deriving DecidableEq, Repr

namespace GlobFault

/-- A fault in words. -/
def reason : GlobFault → String
  | unclosedClass => "unclosed character class; missing ']'"
  | invalidRange first last =>
    "invalid range; '" ++ first.toString ++ "' > '" ++ last.toString ++ "'"
  | unclosedBranches =>
    "unclosed alternate group; missing '\x7d' (maybe escape '\x7b' with '[\x7b]'?)"
  | unopenedBranches =>
    "unopened alternate group; missing '\x7b' (maybe escape '\x7d' with '[\x7d]'?)"
  | danglingEscape => "dangling '\\'"

/-- A fault of a pattern of paths to leave out. -/
def message (pattern : String) (fault : GlobFault) : String :=
  "invalid excluded_paths pattern " ++ Text.quoted pattern ++ ": error parsing glob '" ++ pattern
    ++ "': " ++ fault.reason

end GlobFault

namespace Glob

/-- Extend the last range of a class to a character. -/
def extendLast (ranges : List (Char × Char)) (c : Char) :
    Except GlobFault (List (Char × Char)) :=
  match ranges.reverse with
  | [] => .ok [(c, c)]
  | (low, _) :: before =>
    if c < low then .error (.invalidRange low c) else .ok (before.reverse ++ [(low, c)])

/-- The ranges of a class from some character on, and what follows the class.  `inRange` says
that a hyphen has just opened a range. -/
def classBody (first inRange : Bool) (ranges : List (Char × Char)) :
    List Char → Except GlobFault (List (Char × Char) × List Char)
  | [] => .error .unclosedClass
  | c :: rest =>
    if c = ']' ∧ ¬first then .ok (if inRange then ranges ++ [('-', '-')] else ranges, rest)
    else if c = '-' ∧ ¬first ∧ ¬inRange then classBody false true ranges rest
    else if inRange ∧ c ≠ ']' then do
      let ranges ← extendLast ranges c
      classBody false false ranges rest
    else classBody false false (ranges ++ [(c, c)]) rest

/-- The start of a class: whether it is negated, and what follows. -/
def classStart : List Char → Bool × List Char
  | '!' :: rest => (true, rest)
  | '^' :: rest => (true, rest)
  | rest => (false, rest)

/-- Alternatives that are still open: what stands before them, in reverse, and the finished
alternatives. -/
structure OpenBranches where
  /-- The parts before the alternatives, the last one first. -/
  outer : List GlobPart
  /-- The finished alternatives. -/
  done : List (List GlobPart)

/-- What two stars stand for, given the character before them and the parts before them in
reverse; the result replaces those parts, and `rest` is what follows. -/
def doubleStar (inBranches : Bool) (before : Option Char) (parts : List GlobPart)
    (rest : List Char) : List GlobPart × List Char :=
  let plain := (GlobPart.star :: .star :: parts, rest)
  match parts with
  | [] =>
    match rest with
    | [] => ([.leading], [])
    | '/' :: rest => ([.leading], rest)
    | _ => plain
  | last :: earlier =>
    if before ≠ some '/' ∧ (!inBranches || (before ≠ some ',' ∧ before ≠ some '\x7b')) then plain
    else
      let replace (part : GlobPart) : List GlobPart :=
        match last with
        | .leading => .leading :: earlier
        | .trailing => .trailing :: earlier
        | _ => part :: earlier
      match rest with
      | [] => (replace .trailing, [])
      | '/' :: rest => (replace .between, rest)
      | c :: _ =>
        if inBranches ∧ (c = ',' ∨ c = '\x7d') then (replace .trailing, rest) else plain

/-- The parts of a pattern.  `parts` are the parts so far, the last one first. -/
def scan : (fuel : Nat) → (before : Option Char) → (parts : List GlobPart) →
    (opened : List OpenBranches) → List Char → Except GlobFault (List GlobPart)
  | 0, _, parts, _, _ => .ok parts.reverse
  | _ + 1, _, parts, opened, [] =>
    if opened.isEmpty then .ok parts.reverse else .error .unclosedBranches
  | fuel + 1, before, parts, opened, c :: rest =>
    if c = '?' then scan fuel (some c) (.any :: parts) opened rest
    else if c = '*' then
      match rest with
      | '*' :: rest =>
        let (parts, after) := doubleStar (!opened.isEmpty) before parts rest
        scan fuel (some (if after.length < rest.length then '/' else '*')) parts opened after
      | _ => scan fuel (some c) (.star :: parts) opened rest
    else if c = '[' then do
      let (negated, body) := classStart rest
      let (ranges, after) ← classBody true false [] body
      scan fuel (some ']') (.oneOf negated ranges :: parts) opened after
    else if c = '\x7b' then scan fuel (some c) [] (⟨parts, []⟩ :: opened) rest
    else if c = '\x7d' then
      match opened with
      | [] => .error .unopenedBranches
      | frame :: opened =>
        let all := frame.done ++ [parts.reverse]
        scan fuel (some c) (.branches all :: frame.outer) opened rest
    else if c = ',' then
      match opened with
      | [] => scan fuel (some c) (.char c :: parts) [] rest
      | frame :: opened =>
        scan fuel (some c) [] (⟨frame.outer, frame.done ++ [parts.reverse]⟩ :: opened) rest
    else if c = '\\' then
      match rest with
      | [] => .error .danglingEscape
      | d :: rest => scan fuel (some d) (.char d :: parts) opened rest
    else scan fuel (some c) (.char c :: parts) opened rest

/-- The parts of a pattern. -/
def parse (pattern : String) : Except GlobFault (List GlobPart) :=
  scan (pattern.length + 1) none [] [] pattern.toList

/-- Some bytes, each as the character of its number. -/
def byteChars (bytes : List UInt8) : List Char := bytes.map fun b => Char.ofNat b.toNat

/-- The bytes of a character, each as the character of its number. -/
def charBytes (c : Char) : List Char := byteChars (Text.encode (String.ofList [c]))

/-- The byte ranges of the ranges of a class. -/
def byteRanges (ranges : List (Char × Char)) : List (Char × Char) :=
  ranges.flatMap fun r =>
    if r.1 = r.2 then (charBytes r.1).map fun b => (b, b)
    else
      let low := charBytes r.1
      let high := charBytes r.2
      (low.dropLast.map fun b => (b, b))
        ++ (low.getLast?.toList.flatMap fun a => high.head?.toList.map fun b => (a, b))
        ++ (high.drop 1).map fun b => (b, b)

/-- Whether a byte lies in one of some ranges. -/
def inRanges (ranges : List (Char × Char)) (b : Char) : Bool :=
  ranges.any fun r => r.1 ≤ b && b ≤ r.2

/-- Any bytes. -/
def anything : Expression := .star (.one fun _ => true)

/-- A slash. -/
def slash : Expression := .text "/"

mutual

/-- Whether a part of a pattern says nothing. -/
def partVoid : GlobPart → Bool
  | .branches alternatives => allVoid alternatives
  | _ => false

/-- Whether a pattern says nothing. -/
def partsVoid : List GlobPart → Bool
  | [] => true
  | p :: ps => partVoid p && partsVoid ps

/-- Whether none of some patterns says anything. -/
def allVoid : List (List GlobPart) → Bool
  | [] => true
  | ps :: rest => partsVoid ps && allVoid rest

end

mutual

/-- The expression of a part. -/
def partExpression : GlobPart → Expression
  | .char c => .text (String.ofList (charBytes c))
  | .any => .one fun _ => true
  | .star => anything
  | .leading => .either (.optional slash) (.seq anything slash)
  | .trailing => .seq slash anything
  | .between => .either slash (.all [slash, anything, slash])
  | .oneOf negated ranges =>
    let bytes := byteRanges ranges
    .one fun b => inRanges bytes b != negated
  | .branches alternatives =>
    if allVoid alternatives then .nothing else branchesExpression alternatives

/-- The expression of a pattern. -/
def partsExpression : List GlobPart → Expression
  | [] => .nothing
  | p :: ps => .seq (partExpression p) (partsExpression ps)

/-- The expression of alternatives; those that say nothing do not count. -/
def branchesExpression : List (List GlobPart) → Expression
  | [] => .one fun _ => false
  | ps :: rest =>
    if partsVoid ps then branchesExpression rest
    else .either (partsExpression ps) (branchesExpression rest)

end

/-- The expression of a whole pattern. -/
def expression : List GlobPart → Expression
  | [.leading] => anything
  | parts => partsExpression parts

/-- Whether the bytes of a path below a project match a pattern. -/
def isMatch (parts : List GlobPart) (path : List UInt8) : Bool :=
  ((expression parts).run (Place.start (byteChars path)) fun p =>
    if p.rest.isEmpty then some () else none).isSome

end Glob

end HouseStyle
