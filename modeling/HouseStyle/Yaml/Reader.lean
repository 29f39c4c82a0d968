import HouseStyle.Text.Lines
import HouseStyle.Yaml.Value

/-!
# Reading configuration files

A file is read line by line.  The lines of a block start in one column; those of a value start
further right, except that the items of a list may start in the column of its key.  A value may
also be written inside brackets, which may go on over several lines.  Comments start with a
hash at the start of a line or after a blank.
-/

namespace HouseStyle.Yaml

open HouseStyle.Text

/-- A line that is neither empty nor a comment: its column and what stands there. -/
structure Line where
  /-- The number of spaces before the text. -/
  column : Nat
  /-- The text. -/
  text : List Char
deriving Repr

/-- Whether a character separates words. -/
def isGap (c : Char) : Bool := c == ' ' || c == '\t'

/-- Whether a text has ended, or goes on with a blank. -/
def atGap : List Char → Bool
  | [] => true
  | c :: _ => isGap c

/-- Skip blanks. -/
def skipGap (cs : List Char) : List Char := cs.dropWhile isGap

/-- Whether only a comment follows. -/
def atEnd (cs : List Char) : Bool :=
  match skipGap cs with
  | [] => true
  | '#' :: _ => atGap cs
  | _ => false

/-- The line of a text, unless it is empty, a comment, or indented with a tab. -/
def line? (cs : List Char) : Option Line :=
  let rest := cs.dropWhile (· == ' ')
  if atEnd rest || rest.head? == some '#' then none
  else some ⟨cs.length - rest.length, trimEnd rest⟩

/-- Whether a line is indented with a tab. -/
def tabbed (l : Line) : Bool := l.text.head? == some '\t'

/-- Whether a character has a meaning inside brackets. -/
def isFlowMark (c : Char) : Bool :=
  c == ',' || c == '[' || c == ']' || c == '\x7b' || c == '\x7d'

/-- Whether a plain scalar can start with a character, followed by some text. -/
def startsPlain (inFlow : Bool) (c : Char) (rest : List Char) : Bool :=
  if c == '-' || c == '?' || c == ':' then
    match rest with
    | [] => false
    | d :: _ => !isGap d && !(inFlow && isFlowMark d)
  else
    !(isFlowMark c || c == '#' || c == '&' || c == '*' || c == '!' || c == '|' || c == '>'
      || c == '\x27' || c == '\x22' || c == '%' || c == '@' || c == '\x60')

/-- The characters of a plain scalar, and what follows it. -/
def plainBody (inFlow : Bool) : List Char → List Char × List Char
  | [] => ([], [])
  | c :: rest =>
    if (isGap c ∧ (skipGap rest).head? = some '#') ∨ (inFlow ∧ isFlowMark c)
        ∨ (c = ':' ∧ (atGap rest ∨ (inFlow ∧ (rest.head?.map isFlowMark).getD false))) then
      ([], c :: rest)
    else
      let (body, after) := plainBody inFlow rest
      (c :: body, after)

/-- The characters between single quotes, where a quote is written twice, and what follows. -/
def singleBody? : List Char → Option (List Char × List Char)
  | [] => none
  | '\x27' :: '\x27' :: rest => (singleBody? rest).map fun r => ('\x27' :: r.1, r.2)
  | c :: rest =>
    if c = '\x27' then some ([], rest) else (singleBody? rest).map fun r => (c :: r.1, r.2)

/-- The character of a one letter escape. -/
def escape? (c : Char) : Option Char :=
  [('n', '\n'), ('t', '\t'), ('r', '\r'), ('0', '\x00'), ('\\', '\\'), ('\x22', '\x22'),
    ('/', '/'), (' ', ' '), ('a', '\x07'), ('b', '\x08'), ('e', '\x1b'), ('f', '\x0c'),
    ('v', '\x0b')].lookup c

/-- The characters between double quotes, and what follows. -/
def doubleBody? : List Char → Option (List Char × List Char)
  | [] => none
  | '\\' :: c :: rest => do
    let c ← escape? c
    let (body, after) ← doubleBody? rest
    pure (c :: body, after)
  | c :: rest =>
    if c = '\x22' then some ([], rest) else (doubleBody? rest).map fun r => (c :: r.1, r.2)

/-- A scalar at the start of a text, and what follows it. -/
def scalar? (inFlow : Bool) : List Char → Option (Yaml × List Char)
  | [] => none
  | c :: rest =>
    if c = '\x27' then
      (singleBody? rest).map fun r => (.scalar false (String.ofList r.1), r.2)
    else if c = '\x22' then
      (doubleBody? rest).map fun r => (.scalar false (String.ofList r.1), r.2)
    else if startsPlain inFlow c rest then
      let (body, after) := plainBody inFlow rest
      some (.scalar true (String.ofList (c :: trimEnd body)), after)
    else none

/-- Whether a character separates the parts of a value in brackets. -/
def isFlowGap (c : Char) : Bool := isGap c || c == '\n'

/-- Skip blanks, line ends and comments inside brackets; `count` bounds the number of comments. -/
def skipFlow : (count : Nat) → List Char → List Char
  | 0, cs => cs
  | count + 1, cs =>
    match cs.dropWhile isFlowGap with
    | '#' :: rest =>
      if (cs.head?.map isFlowGap).getD true then skipFlow count (rest.dropWhile (· != '\n'))
      else '#' :: rest
    | rest => rest

mutual

/-- A value inside brackets, and what follows it. -/
def flow? : (fuel : Nat) → List Char → Option (Yaml × List Char)
  | 0, _ => none
  | fuel + 1, cs =>
    match skipFlow cs.length cs with
    | '[' :: rest => (flowItems? fuel rest).map fun r => (.list r.1, r.2)
    | '\x7b' :: rest => (flowEntries? fuel rest).map fun r => (.table r.1, r.2)
    | rest => scalar? true rest

/-- The items of a list in brackets, and what follows the list. -/
def flowItems? : (fuel : Nat) → List Char → Option (List Yaml × List Char)
  | 0, _ => none
  | fuel + 1, cs =>
    match skipFlow cs.length cs with
    | ']' :: rest => some ([], rest)
    | rest => do
      let (item, rest) ← flow? fuel rest
      match skipFlow rest.length rest with
      | ',' :: rest => do
        let (items, rest) ← flowItems? fuel rest
        pure (item :: items, rest)
      | ']' :: rest => pure ([item], rest)
      | _ => none

/-- The entries of a table in brackets, and what follows the table. -/
def flowEntries? : (fuel : Nat) → List Char → Option (List (Yaml × Yaml) × List Char)
  | 0, _ => none
  | fuel + 1, cs =>
    match skipFlow cs.length cs with
    | '\x7d' :: rest => some ([], rest)
    | rest => do
      let (key, rest) ← flow? fuel rest
      let (value, rest) ← match skipFlow rest.length rest with
        | ':' :: rest =>
          match skipFlow rest.length rest with
          | ',' :: more => some (blank, ',' :: more)
          | '\x7d' :: more => some (blank, '\x7d' :: more)
          | more => flow? fuel more
        | rest => some (blank, rest)
      match skipFlow rest.length rest with
      | ',' :: rest => do
        let (entries, rest) ← flowEntries? fuel rest
        pure ((key, value) :: entries, rest)
      | '\x7d' :: rest => pure ([(key, value)], rest)
      | _ => none

end

/-- The text of some lines with their line ends. -/
def joinLines (ls : List Line) : List Char :=
  ls.flatMap fun l => '\n' :: l.text

/-- A value at the start of a line: the value, and the rest of the line. -/
def inline? (cs : List Char) : Option (Yaml × List Char) :=
  match cs with
  | '[' :: _ | '\x7b' :: _ => flow? (cs.length + 1) cs
  | _ => scalar? false cs

/-- The key at the start of a line, and what follows its colon. -/
def key? (cs : List Char) : Option (Yaml × List Char) := do
  let (key, rest) ← inline? cs
  match skipGap rest with
  | ':' :: rest => if atGap rest then some (key, skipGap rest) else none
  | _ => none

/-- Whether a line starts an item of a list. -/
def isItem (l : Line) : Bool :=
  match l.text with
  | '-' :: rest => atGap rest
  | _ => false

/-- Remove a comment that is all that follows a value. -/
def closed (cs : List Char) : List Char := if atEnd cs then [] else cs

/-- A value that starts on a line and may go on over the next lines, if it is in brackets. -/
def valueHere? (cs : List Char) (more : List Line) : Option (Yaml × List Line) :=
  match cs with
  | '[' :: _ | '\x7b' :: _ =>
    let all := cs ++ joinLines more
    match flow? (all.length + 1) all with
    | none => none
    | some (value, rest) =>
      let lineRest := rest.takeWhile (· != '\n')
      let used := ((all.take (all.length - rest.length)).filter (· == '\n')).length
      if atEnd lineRest then some (value, more.drop used) else none
  | _ =>
    match scalar? false cs with
    | some (value, rest) => if atEnd rest then some (value, more) else none
    | none => none

mutual

/-- The block whose first line is the next one, and the lines after it. -/
def block? : (fuel : Nat) → List Line → Option (Yaml × List Line)
  | 0, _ => none
  | _ + 1, [] => some (blank, [])
  | fuel + 1, l :: more =>
    if isItem l then (items? fuel l.column (l :: more)).map fun r => (.list r.1, r.2)
    else match key? l.text with
      | some _ => (entries? fuel l.column (l :: more)).map fun r => (.table r.1, r.2)
      | none => valueHere? l.text more

/-- The items of a list in a column, and the lines after it. -/
def items? : (fuel : Nat) → (column : Nat) → List Line → Option (List Yaml × List Line)
  | 0, _, _ => none
  | _ + 1, _, [] => some ([], [])
  | fuel + 1, column, l :: more =>
    if l.column < column then some ([], l :: more)
    else if l.column = column ∧ ¬isItem l then some ([], l :: more)
    else if column < l.column then none
    else do
      let rest := l.text.drop 1
      let text := skipGap rest
      let (item, more) ←
        if atEnd rest then nested? fuel (column + 1) more
        else block? fuel (⟨column + 1 + (rest.length - text.length), text⟩ :: more)
      let (items, more) ← items? fuel column more
      pure (item :: items, more)

/-- The entries of a table in a column, and the lines after it. -/
def entries? : (fuel : Nat) → (column : Nat) → List Line →
    Option (List (Yaml × Yaml) × List Line)
  | 0, _, _ => none
  | _ + 1, _, [] => some ([], [])
  | fuel + 1, column, l :: more =>
    if l.column < column then some ([], l :: more)
    else if column < l.column then none
    else do
      let (key, rest) ← key? l.text
      let (value, more) ←
        if atEnd rest then
          match more with
          | next :: _ =>
            if next.column = column ∧ isItem next then
              (items? fuel column more).map fun r => (Yaml.list r.1, r.2)
            else nested? fuel (column + 1) more
          | [] => some (blank, [])
        else valueHere? rest more
      let (entries, more) ← entries? fuel column more
      pure ((key, value) :: entries, more)

/-- The block below a line, if it starts in some column or further right. -/
def nested? : (fuel : Nat) → (column : Nat) → List Line → Option (Yaml × List Line)
  | 0, _, _ => none
  | _ + 1, _, [] => some (blank, [])
  | fuel + 1, column, l :: more =>
    if l.column < column then some (blank, l :: more) else block? fuel (l :: more)

end

/-- Whether a line marks the start of a document. -/
def isStartMark (l : Line) : Bool :=
  l.column = 0 ∧ startsWith l.text "---" ∧ atGap (l.text.drop 3)

/-- Whether a line marks the end of a document. -/
def isEndMark (l : Line) : Bool :=
  l.column = 0 ∧ startsWith l.text "..." ∧ atGap (l.text.drop 3)

/-- The lines of the only document of a file. -/
def documentLines (ls : List Line) : List Line :=
  let ls := match ls with
    | l :: more =>
      if isStartMark l then
        let rest := skipGap (l.text.drop 3)
        if atEnd rest then more else ⟨4, rest⟩ :: more
      else l :: more
    | [] => []
  match ls.reverse with
  | l :: before => if isEndMark l then before.reverse else ls
  | [] => []

/-- A file without the mark of its byte order. -/
def afterOrderMark : List Char → List Char
  | '\ufeff' :: rest => rest
  | source => source

/-- The value that a file spells, if it spells one. -/
def parse? (source : List Char) : Option Yaml := do
  let ls := (lines (afterOrderMark source)).filterMap line?
  guard (!ls.any tabbed)
  let ls := documentLines ls
  guard (!ls.any fun l => isStartMark l || isEndMark l)
  let (value, rest) ← block? (source.length + 2) ls
  guard rest.isEmpty
  pure value

end HouseStyle.Yaml
