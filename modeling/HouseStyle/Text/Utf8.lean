import HouseStyle.Count

/-!
# Bytes as text

Source files are bytes.  They are text when they are a sequence of well formed encodings of
characters: the length follows from the first byte, the second byte is restricted after some
first bytes, and all further ones are continuation bytes.  Where this fails the fault records
how many bytes were well formed, and how many of the next ones belong together wrongly, or
that the bytes ended too early.  Bytes that are no text can still be shown, with a replacement
character for each such part of them.
-/

namespace HouseStyle.Text

/-- Why bytes are no text. -/
structure Utf8Fault where
  /-- The number of well formed bytes before the fault. -/
  offset : Nat
  /-- The number of bytes that are wrong; `none` when the bytes ended inside a character. -/
  wrong : Option Nat
deriving DecidableEq, Repr

/-- The fault in words. -/
def Utf8Fault.message (fault : Utf8Fault) : String :=
  match fault.wrong with
  | some n => "invalid utf-8 sequence of " ++ Nat.repr n ++ " bytes from index " ++ Nat.repr fault.offset
  | none => "incomplete utf-8 byte sequence from index " ++ Nat.repr fault.offset

/-- Whether a byte continues a character. -/
def isContinuation (b : UInt8) : Bool :=
  0x80 ≤ b && b ≤ 0xBF

/-- Whether `b` may follow the first byte `a` of a character of three bytes. -/
def secondOfThree (a b : UInt8) : Bool :=
  if a = 0xE0 then 0xA0 ≤ b && b ≤ 0xBF
  else if a = 0xED then 0x80 ≤ b && b ≤ 0x9F
  else isContinuation b

/-- Whether `b` may follow the first byte `a` of a character of four bytes. -/
def secondOfFour (a b : UInt8) : Bool :=
  if a = 0xF0 then 0x90 ≤ b && b ≤ 0xBF
  else if a = 0xF4 then 0x80 ≤ b && b ≤ 0x8F
  else isContinuation b

/-- The lower bits of a byte. -/
def lowBits (b : UInt8) (count : Nat) : Nat :=
  b.toNat % Count.wordSize count

/-- Put a decoded character in front of what the remaining bytes give. -/
def consChar (code : Nat) (rest : Except Utf8Fault (List Char)) : Except Utf8Fault (List Char) :=
  rest.map (Char.ofNat code :: ·)

/-- The characters of the bytes that start at `offset`. -/
def decodeFrom (offset : Nat) : List UInt8 → Except Utf8Fault (List Char)
  | [] => .ok []
  | a :: rest =>
    if a < 0x80 then consChar a.toNat (decodeFrom (offset + 1) rest)
    else if 0xC2 ≤ a && a ≤ 0xDF then
      match rest with
      | [] => .error ⟨offset, none⟩
      | b :: rest =>
        if !isContinuation b then .error ⟨offset, some 1⟩
        else consChar (lowBits a 5 * 64 + lowBits b 6) (decodeFrom (offset + 2) rest)
    else if 0xE0 ≤ a && a ≤ 0xEF then
      match rest with
      | [] => .error ⟨offset, none⟩
      | b :: rest =>
        if !secondOfThree a b then .error ⟨offset, some 1⟩
        else match rest with
          | [] => .error ⟨offset, none⟩
          | c :: rest =>
            if !isContinuation c then .error ⟨offset, some 2⟩
            else consChar ((lowBits a 4 * 64 + lowBits b 6) * 64 + lowBits c 6)
              (decodeFrom (offset + 3) rest)
    else if 0xF0 ≤ a && a ≤ 0xF4 then
      match rest with
      | [] => .error ⟨offset, none⟩
      | b :: rest =>
        if !secondOfFour a b then .error ⟨offset, some 1⟩
        else match rest with
          | [] => .error ⟨offset, none⟩
          | c :: rest =>
            if !isContinuation c then .error ⟨offset, some 2⟩
            else match rest with
              | [] => .error ⟨offset, none⟩
              | d :: rest =>
                if !isContinuation d then .error ⟨offset, some 3⟩
                else consChar
                  (((lowBits a 3 * 64 + lowBits b 6) * 64 + lowBits c 6) * 64 + lowBits d 6)
                  (decodeFrom (offset + 4) rest)
    else .error ⟨offset, some 1⟩

/-- The characters of a file, or why its bytes are no text. -/
def decode (bytes : List UInt8) : Except Utf8Fault (List Char) :=
  decodeFrom 0 bytes

/-- The character that is shown for bytes that are no text. -/
def replacement : Char := '\uFFFD'

/-- The characters of some bytes, where each wrong part is replaced; at most `parts` of them. -/
def replaceWrong : (parts : Nat) → List UInt8 → List Char
  | 0, _ => []
  | parts + 1, bytes =>
    match decode bytes with
    | .ok cs => cs
    | .error fault =>
      let front := (decode (bytes.take fault.offset)).toOption.getD []
      match fault.wrong with
      | none => front ++ [replacement]
      | some n => front ++ replacement :: replaceWrong parts (bytes.drop (fault.offset + n))

/-- The text that is shown for some bytes: a replacement for each part of them that is wrong. -/
def lossy (bytes : List UInt8) : String :=
  String.ofList (replaceWrong (bytes.length + 1) bytes)

/-- The bytes of a text. -/
def encode (s : String) : List UInt8 :=
  s.toUTF8.toList

end HouseStyle.Text
