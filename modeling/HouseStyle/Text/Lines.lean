/-!
# Lines and blanks

Source text is measured line by line.  A line ends at a line feed, and a carriage return right
before the line feed belongs to the line end; after the last line end there is a further line
only if there is further text.  Blanks are the characters with the white space property.
-/

namespace HouseStyle.Text

/-- Whether a character has the white space property. -/
def isBlank (c : Char) : Bool :=
  (9 ≤ c.toNat && c.toNat ≤ 13) || c.toNat == 0x20 || c.toNat == 0x85 || c.toNat == 0xA0
    || c.toNat == 0x1680 || (0x2000 ≤ c.toNat && c.toNat ≤ 0x200A) || c.toNat == 0x2028
    || c.toNat == 0x2029 || c.toNat == 0x202F || c.toNat == 0x205F || c.toNat == 0x3000

/-- The lines of a text, without their ends. -/
def lines : List Char → List (List Char)
  | [] => []
  | '\n' :: rest => [] :: lines rest
  | '\r' :: '\n' :: rest => [] :: lines rest
  | c :: rest =>
    match lines rest with
    | [] => [[c]]
    | line :: more => (c :: line) :: more

/-- The text without the blanks at its start. -/
def trimStart (cs : List Char) : List Char :=
  cs.dropWhile isBlank

/-- The text without the blanks at its end. -/
def trimEnd (cs : List Char) : List Char :=
  (cs.reverse.dropWhile isBlank).reverse

/-- The text without the blanks at either end. -/
def trim (cs : List Char) : List Char :=
  trimEnd (trimStart cs)

/-- Whether a text holds blanks only. -/
def allBlank (cs : List Char) : Bool :=
  cs.all isBlank

/-- Whether `part` occurs in `cs`. -/
def contains (part : List Char) : List Char → Bool
  | [] => part.isEmpty
  | c :: rest => part.isPrefixOf (c :: rest) || contains part rest

/-- Whether the text `part` occurs in `cs`. -/
def holds (cs : List Char) (part : String) : Bool :=
  contains part.toList cs

/-- Whether `cs` starts with the text `part`. -/
def startsWith (cs : List Char) (part : String) : Bool :=
  part.toList.isPrefixOf cs

/-- Whether `cs` ends with the text `part`. -/
def endsWith (cs : List Char) (part : String) : Bool :=
  part.toList.isSuffixOf cs

/-- The parts of a text between the occurrences of `mark`. -/
def splitAt (mark : Char) : List Char → List (List Char)
  | [] => [[]]
  | c :: rest =>
    match splitAt mark rest with
    | [] => [[c]]
    | part :: more => if c = mark then [] :: part :: more else (c :: part) :: more

/-- The texts one after the other with `between` between two neighbours. -/
def join (between : String) (parts : List String) : String :=
  between.intercalate parts

/-- The text with blanks after it, up to `width` characters. -/
def padEnd (width : Nat) (s : String) : String :=
  s ++ String.ofList (List.replicate (width - s.length) ' ')

/-- The text with blanks before it, up to `width` characters. -/
def padStart (width : Nat) (s : String) : String :=
  String.ofList (List.replicate (width - s.length) ' ') ++ s

end HouseStyle.Text
