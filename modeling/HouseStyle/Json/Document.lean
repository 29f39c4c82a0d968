/-!
# Documents as they are written

Before a document is given a meaning it is read into a tree that keeps every spelling apart:
members in their order and with repetitions, numbers as their digits, and texts that may have
no value because an escape names half of a character.  Parts of a document that nothing reads
have to be well formed in this sense and no other.
-/

namespace HouseStyle

/-- The spelling of a number: `mantissa * 10 ^ exponent`, with its sign. -/
structure Numeral where
  /-- Whether there is a minus sign. -/
  negative : Bool
  /-- All digits before the exponent, read as one number. -/
  mantissa : Nat
  /-- The power of ten of the last of these digits. -/
  exponent : Int
  /-- Whether there is neither a point nor an exponent. -/
  integral : Bool
deriving DecidableEq, Repr

/-- A document as it is written. -/
inductive Document where
  /-- Nothing. -/
  | null
  /-- Yes or no. -/
  | flag (b : Bool)
  /-- A number. -/
  | number (n : Numeral)
  /-- A text, or `none` if an escape in it names half of a character. -/
  | text (s : Option String)
  /-- A list. -/
  | list (items : List Document)
  /-- A record: its members in order. -/
  | record (members : List (Option String × Document))

namespace Document

instance : Inhabited Document := ⟨null⟩

/-- Whether a character is a blank between the parts of a document. -/
def isSpace (c : Char) : Bool :=
  c == ' ' || c == '\n' || c == '\t' || c == '\r'

/-- Skip blanks. -/
def skip (cs : List Char) : List Char := cs.dropWhile isSpace

/-- The value of a hexadecimal digit. -/
def hexValue? (c : Char) : Option Nat :=
  if '0' ≤ c ∧ c ≤ '9' then some (c.toNat - 48)
  else if 'a' ≤ c ∧ c ≤ 'f' then some (c.toNat - 87)
  else if 'A' ≤ c ∧ c ≤ 'F' then some (c.toNat - 55)
  else none

/-- The value of four hexadecimal digits and the text after them. -/
def hexFour? : List Char → Option (Nat × List Char)
  | a :: b :: c :: d :: rest => do
    let a ← hexValue? a
    let b ← hexValue? b
    let c ← hexValue? c
    let d ← hexValue? d
    pure (((a * 16 + b) * 16 + c) * 16 + d, rest)
  | _ => none

/-- The character of a one letter escape. -/
def simpleEscape? (c : Char) : Option Char :=
  if c = '\x22' ∨ c = '\\' ∨ c = '/' then some c
  else if c = 'b' then some '\x08'
  else if c = 'f' then some '\x0c'
  else if c = 'n' then some '\n'
  else if c = 'r' then some '\r'
  else if c = 't' then some '\t'
  else none

/-- Whether a number is the first half of a character beyond the first 65536. -/
def isHighHalf (n : Nat) : Bool := 0xD800 ≤ n && n ≤ 0xDBFF

/-- Whether a number is the second half of a character beyond the first 65536. -/
def isLowHalf (n : Nat) : Bool := 0xDC00 ≤ n && n ≤ 0xDFFF

/-- The units of a text up to its closing quote, and what follows it.  A unit is a character, or
a number from an escape that may be half of one. -/
def units? : (fuel : Nat) → List Char → Option (List (Char ⊕ Nat) × List Char)
  | 0, _ => none
  | _ + 1, [] => none
  | fuel + 1, c :: rest =>
    if c = '\x22' then some ([], rest)
    else if c = '\\' then
      match rest with
      | 'u' :: more => do
        let (n, more) ← hexFour? more
        let (us, after) ← units? fuel more
        pure (.inr n :: us, after)
      | e :: more => do
        let e ← simpleEscape? e
        let (us, after) ← units? fuel more
        pure (.inl e :: us, after)
      | [] => none
    else if c.toNat < 32 then none
    else do
      let (us, after) ← units? fuel rest
      pure (.inl c :: us, after)

/-- The characters of the units of a text; `none` if half of a character stands alone. -/
def joinUnits? : List (Char ⊕ Nat) → Option (List Char)
  | [] => some []
  | .inl c :: rest => (joinUnits? rest).map (c :: ·)
  | .inr n :: rest =>
    if isHighHalf n then
      match rest with
      | .inr m :: rest =>
        if isLowHalf m then
          (joinUnits? rest).map (Char.ofNat (0x10000 + (n - 0xD800) * 0x400 + (m - 0xDC00)) :: ·)
        else none
      | _ => none
    else if isLowHalf n then none
    else (joinUnits? rest).map (Char.ofNat n :: ·)

/-- A text after its opening quote, and what follows it. -/
def textBody? (cs : List Char) : Option (Option String × List Char) := do
  let (us, rest) ← units? (cs.length + 1) cs
  pure ((joinUnits? us).map String.ofList, rest)

/-- The digits at the start of a text, and what follows them. -/
def digits (cs : List Char) : List Char × List Char :=
  (cs.takeWhile Char.isDigit, cs.dropWhile Char.isDigit)

/-- The number that digits denote. -/
def digitsValue (ds : List Char) : Nat :=
  ds.foldl (fun n d => n * 10 + (d.toNat - 48)) 0

/-- The digits after a point, and what follows them. -/
def fraction? : List Char → Option (List Char × List Char)
  | '.' :: rest =>
    let (ds, rest) := digits rest
    if ds.isEmpty then none else some (ds, rest)
  | rest => some ([], rest)

/-- The exponent, if there is one, and what follows it. -/
def exponent? : List Char → Option (Option Int × List Char)
  | c :: rest =>
    if c = 'e' ∨ c = 'E' then
      let (negative, rest) := match rest with
        | '-' :: rest => (true, rest)
        | '+' :: rest => (false, rest)
        | rest => (false, rest)
      let (ds, rest) := digits rest
      if ds.isEmpty then none
      else
        let n : Int := digitsValue ds
        some (some (if negative then -n else n), rest)
    else some (none, c :: rest)
  | [] => some (none, [])

/-- A number without its sign, and what follows it.  A zero at the start stands alone. -/
def numeral? (negative : Bool) (cs : List Char) : Option (Numeral × List Char) := do
  let (whole, rest) := digits cs
  guard (!whole.isEmpty)
  guard (whole.head? != some '0' || whole.length == 1)
  let (places, rest) ← fraction? rest
  let (power, rest) ← exponent? rest
  pure (⟨negative, digitsValue (whole ++ places), power.getD 0 - places.length,
    places.isEmpty && power.isNone⟩, rest)

mutual

/-- A value, and what follows it. -/
def value? : (fuel : Nat) → List Char → Option (Document × List Char)
  | 0, _ => none
  | fuel + 1, cs =>
    match skip cs with
    | 'n' :: 'u' :: 'l' :: 'l' :: rest => some (.null, rest)
    | 't' :: 'r' :: 'u' :: 'e' :: rest => some (.flag true, rest)
    | 'f' :: 'a' :: 'l' :: 's' :: 'e' :: rest => some (.flag false, rest)
    | '\x22' :: rest => (textBody? rest).map fun (s, rest) => (.text s, rest)
    | '-' :: rest => (numeral? true rest).map fun (n, rest) => (.number n, rest)
    | '[' :: rest =>
      match skip rest with
      | ']' :: rest => some (.list [], rest)
      | rest => (items? fuel rest).map fun (items, rest) => (.list items, rest)
    | '\x7b' :: rest =>
      match skip rest with
      | '\x7d' :: rest => some (.record [], rest)
      | rest => (members? fuel rest).map fun (members, rest) => (.record members, rest)
    | rest => (numeral? false rest).map fun (n, rest) => (.number n, rest)

/-- The items of a list from the next one on, and what follows the list. -/
def items? : (fuel : Nat) → List Char → Option (List Document × List Char)
  | 0, _ => none
  | fuel + 1, cs => do
    let (item, rest) ← value? fuel cs
    match skip rest with
    | ',' :: rest => do
      let (items, rest) ← items? fuel rest
      pure (item :: items, rest)
    | ']' :: rest => pure ([item], rest)
    | _ => none

/-- The members of a record from the next one on, and what follows the record. -/
def members? : (fuel : Nat) → List Char → Option (List (Option String × Document) × List Char)
  | 0, _ => none
  | fuel + 1, cs =>
    match skip cs with
    | '\x22' :: rest => do
      let (name, rest) ← textBody? rest
      match skip rest with
      | ':' :: rest => do
        let (value, rest) ← value? fuel rest
        match skip rest with
        | ',' :: rest => do
          let (members, rest) ← members? fuel rest
          pure ((name, value) :: members, rest)
        | '\x7d' :: rest => pure ([(name, value)], rest)
        | _ => none
      | _ => none
    | _ => none

end

/-- The document that a text spells, if it spells one and nothing else. -/
def parse? (s : List Char) : Option Document := do
  let (d, rest) ← value? (s.length + 1) s
  guard (skip rest).isEmpty
  pure d

end Document

end HouseStyle
