import HouseStyle.Grammar.GoReader
import HouseStyle.Grammar.PythonReader
import HouseStyle.Grammar.RustReader
import HouseStyle.Language
import HouseStyle.Script.Reader
import HouseStyle.Text.Utf8

/-!
# Reading a source file

A source file is read in the way of its language.  Bytes that are no text, and texts that do not
follow the grammar of the language, are refused.
-/

namespace HouseStyle

/-- Why nothing is known about a source file. -/
inductive ExtractFault where
  /-- The bytes are no text. -/
  | encoding (path : SourcePath) (fault : Text.Utf8Fault)
  /-- The text does not follow the grammar. -/
  | grammar (path : SourcePath)
deriving DecidableEq, Repr

/-- The fault in words. -/
def ExtractFault.message : ExtractFault → String
  | encoding path fault => path.text ++ " is not valid UTF-8: " ++ fault.message
  | grammar path => "syntax errors in " ++ path.text

namespace Survey

/-- The facts about a text in a language, if it follows the grammar. -/
def readText? (language : Language) (path : SourcePath) (source : List Char) : Option FileFacts :=
  match language with
  | .javascript => some (Script.read .plain language.id path source)
  | .typescript => some (Script.read .typed language.id path source)
  | .python => Grammar.Python.read? language.id path source
  | .go => Grammar.Go.read? language.id path source
  | .rust => Grammar.Rust.read? language.id path source

/-- The facts about a source file. -/
def extract (language : Language) (path : SourcePath) (bytes : List UInt8) :
    Except ExtractFault FileFacts :=
  match Text.decode bytes with
  | .error fault => .error (.encoding path fault)
  | .ok source =>
    match readText? language path source with
    | some facts => .ok facts
    | none => .error (.grammar path)

end Survey

end HouseStyle
