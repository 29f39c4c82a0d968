import HouseStyle.Text.Lines
import HouseStyle.Yaml.Scalar

/-!
# Writing configuration files

A text is written without quotes if it reads back as the same text.  Otherwise it is put in
single quotes, or in double quotes if it holds characters that cannot be seen.  A text of
several lines is written below its key.
-/

namespace HouseStyle.Yaml

open HouseStyle.Text

/-- Whether a character has a meaning at the start of a scalar. -/
def isLeadingMark (c : Char) : Bool :=
  "#,[]&*!|>%@".toList.contains c || c == '\x7b' || c == '\x7d' || c == '\x27' || c == '\x22'
    || c == '\x60'

/-- Whether a mark inside a text would end it: a colon before a blank, or a hash after one. -/
def hasInnerMark (before : Char) : List Char → Bool
  | [] => false
  | c :: rest =>
    (c == ':' && (rest.isEmpty || (rest.head?.map isBlank).getD false))
      || (c == '#' && isBlank before) || hasInnerMark c rest

/-- Whether a character can be seen. -/
def isVisible (c : Char) : Bool :=
  (0x20 ≤ c.toNat && c.toNat ≤ 0x7E) || c.toNat == 0x85
    || (0xA0 ≤ c.toNat && c.toNat != 0xFEFF && c.toNat != 0xFFFE && c.toNat != 0xFFFF)

/-- Whether a text can stand without quotes. -/
def standsPlain (cs : List Char) : Bool :=
  match cs with
  | [] => false
  | c :: rest =>
    let gapNext := rest.isEmpty || rest.head? == some ' '
    !isLeadingMark c && !((c == '-' || c == '?' || c == ':') && gapNext)
      && !startsWith cs "---" && !startsWith cs "..."
      && c != ' ' && cs.getLast? != some ' ' && !hasInnerMark c rest

/-- A text in single quotes. -/
def singleQuoted (cs : List Char) : List Char :=
  '\x27' :: cs.flatMap (fun c => if c = '\x27' then [c, c] else [c]) ++ ['\x27']

/-- The escape of a character that cannot be seen. -/
def escaped (c : Char) : List Char :=
  match [('\x00', '0'), ('\x07', 'a'), ('\x08', 'b'), ('\t', 't'), ('\n', 'n'), ('\x0b', 'v'),
      ('\x0c', 'f'), ('\r', 'r'), ('\x1b', 'e'), ('\x22', '\x22'), ('\\', '\\')].lookup c with
  | some e => ['\\', e]
  | none =>
    if isVisible c then [c]
    else
      let digits := (Nat.toDigits 16 c.toNat).map Char.toUpper
      let (mark, width) := if c.toNat < 256 then ('x', 2) else ('u', 4)
      '\\' :: mark :: List.replicate (width - digits.length) '0' ++ digits

/-- A text in double quotes. -/
def doubleQuoted (cs : List Char) : List Char :=
  '\x22' :: cs.flatMap escaped ++ ['\x22']

/-- A text of several lines below its key. -/
def literal (cs : List Char) : List Char :=
  let ends := cs.reverse.takeWhile (· == '\n')
  let chomp := match ends.length with
    | 0 => ['-']
    | 1 => []
    | _ => ['+']
  let hint := if cs.head? = some ' ' ∨ cs.head? = some '\n' then ['2'] else []
  '|' :: hint ++ chomp ++ (lines cs).flatMap fun l => '\n' :: (if l.isEmpty then l else ' ' :: ' ' :: l)

/-- The way a text is written. -/
def scalarText (s : String) : List Char :=
  let cs := s.toList
  if cs.any (fun c => !isVisible c && c != '\n') then doubleQuoted cs
  else if cs.contains '\n' then literal cs
  else if readsOther s || !standsPlain cs then singleQuoted cs
  else cs

end HouseStyle.Yaml
