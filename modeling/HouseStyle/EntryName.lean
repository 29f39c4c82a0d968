import HouseStyle.Text.Utf8

/-!
# Names of entries

The entries of a directory have names, and a name is any bytes without a slash.  Most names are
texts, but a name need not be one.  Such a name is hidden from whoever looks for a text, and it is
shown with a replacement character for all bytes that belong together wrongly, so different names
may look the same.  Names are ordered by their bytes.
-/

namespace HouseStyle

/-- Bytes that are no text. -/
structure RawBytes where
  /-- The bytes. -/
  bytes : List UInt8
  /-- They cannot be read as a text. -/
  no_text : (Text.decode bytes).isOk = false
deriving DecidableEq, Repr, Hashable

/-- The name of an entry. -/
inductive EntryName where
  /-- A name that is a text. -/
  | text (name : String)
  /-- A name that is none. -/
  | raw (name : RawBytes)
deriving DecidableEq, Repr, Hashable

namespace EntryName

instance : Coe String EntryName := ⟨text⟩

/-- The bytes of a name. -/
def bytes : EntryName → List UInt8
  | text name => Text.encode name
  | raw name => name.bytes

/-- The text of a name, if it is one. -/
def text? : EntryName → Option String
  | text name => some name
  | raw _ => none

/-- The text that is shown for a name. -/
def lossy : EntryName → String
  | text name => name
  | raw name => Text.lossy name.bytes

/-- The part of a name before its last dot and the part after it. -/
def splitLast {α : Type} [BEq α] (dot : α) (name : List α) : Option (List α × List α) :=
  let after := name.reverse.takeWhile (· != dot)
  match name.reverse.dropWhile (· != dot) with
  | [] => none
  | _ :: before => some (before.reverse, after.reverse)

/-- What follows the last dot of a name, unless that dot starts the name. -/
def afterLast? {α : Type} [BEq α] (dot : α) (name : List α) : Option (List α) :=
  match splitLast dot name with
  | some (_ :: _, after) => some after
  | _ => none

/-- The extension of a name, if that is a text. -/
def extension? : EntryName → Option String
  | text name => (afterLast? '.' name.toList).map String.ofList
  | raw name => (afterLast? 0x2E name.bytes).bind fun after =>
    (Text.decode after).toOption.map String.ofList

end EntryName

end HouseStyle
