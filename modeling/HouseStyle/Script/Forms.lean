import HouseStyle.Text.Expression
import HouseStyle.Text.Lines

/-!
# The forms of declarations in scripts

Functions, methods, classes, variables and imports are recognised by the words with which a
line starts.  Each form is an expression over the characters of a line; the name that is
declared, or the module that is imported, is kept as a group.
-/

namespace HouseStyle.Script.Forms

open HouseStyle.Text Expression

/-- A blank. -/
def blank : Expression := one isBlank

/-- Any blanks. -/
def blanks : Expression := star blank

/-- At least one blank. -/
def gap : Expression := plus blank

/-- A word and a blank, or nothing. -/
def word? (w : String) : Expression := optional (seq (text w) gap)

/-- A character that can start a name. -/
def startsName (c : Char) : Bool := c.isAlpha || c == '_' || c == '$'

/-- A character that can go on in a name. -/
def inName (c : Char) : Bool := isWord c || c == '$'

/-- A name. -/
def name : Expression := seq (one startsName) (star (one inName))

/-- A name, perhaps of a private member. -/
def memberName : Expression := seq (optional (text "#")) name

/-- One of some words and a blank, any number of times. -/
def modifiers (words : List String) : Expression :=
  star (seq (anyOf (words.map text)) gap)

/-- A type after a colon, or nothing. -/
def type? : Expression := optional (seq (text ":") (plus (one (· != '='))))

/-- A list in parentheses that are not nested. -/
def parens : Expression := all [text "(", star (one (· != ')')), text ")"]

/-- The parameters of an arrow function up to its arrow. -/
def arrow : Expression := all [either parens name, blanks, type?, text "=>"]

/-- A quote. -/
def quote : Expression := one fun c => c == '\x27' || c == '\x22'

/-- The name of a module between quotes, kept as a group. -/
def moduleName (number : Nat) : Expression :=
  all [quote, group number (plus (one fun c => c != '\x27' && c != '\x22')), quote]

/-- A declared function. -/
def functionDeclaration : Expression :=
  all [blanks, word? "export", word? "default", word? "async", text "function", blanks,
    optional (text "*"), blanks, group 1 name]

/-- A variable that is a function. -/
def functionVariable : Expression :=
  all [blanks, word? "export", anyOf [text "const", text "let", text "var"], gap, group 1 name,
    blanks, type?, text "=", blanks, word? "async",
    either (seq (text "function") boundary) arrow]

/-- A method. -/
def method : Expression :=
  all [blanks,
    modifiers ["public", "private", "protected", "static", "async", "readonly", "override",
      "abstract", "get", "set"],
    optional (text "*"), group 1 memberName, blanks,
    optional (all [text "<", star (one (· != '>')), text ">"]), blanks, text "("]

/-- A member of a class that is an arrow function. -/
def arrowMember : Expression :=
  all [blanks, modifiers ["public", "private", "protected", "static", "readonly"],
    group 1 memberName, blanks, type?, text "=", blanks, word? "async", arrow]

/-- A class. -/
def classDeclaration : Expression :=
  all [blanks, word? "export", word? "default", word? "abstract", text "class", gap,
    group 1 name]

/-- An interface or an enumeration. -/
def typeDeclaration : Expression :=
  all [blanks, word? "export", word? "declare", either (text "interface") (text "enum"), gap,
    group 1 name]

/-- A declared variable: the word, and the name. -/
def variableDeclaration : Expression :=
  all [boundary, group 1 (anyOf [text "const", text "let", text "var"]), gap, group 2 name]

/-- The name of a parameter. -/
def parameter : Expression := all [blanks, optional (text "..."), group 1 name]

/-- An import of names: the names, and the module. -/
def importFrom : Expression :=
  all [blanks, either (text "import") (text "export"), gap, word? "type",
    group 1 (many true (one (· != '\n'))), blanks, text "from", gap, moduleName 2]

/-- The last line of an import over several lines. -/
def importTail : Expression := all [blanks, text "\x7d", blanks, text "from", gap, moduleName 1]

/-- An import without names. -/
def importBare : Expression := all [blanks, text "import", gap, moduleName 1]

/-- A module that is required. -/
def required : Expression :=
  all [boundary, text "require(", blanks, moduleName 1, blanks, text ")"]

/-- A word that opens a branch. -/
def branch : Expression :=
  all [boundary, group 1 (anyOf (["if", "for", "while", "case", "catch"].map text)), boundary]

/-- An operator between the operands of a condition. -/
def junction : Expression := anyOf [text "&&", text "||", text "??"]

/-- The first mark of a conditional expression. -/
def conditional : Expression := all [blank, text "?", blank]

/-- The call of a test. -/
def testCall : Expression :=
  all [blanks, anyOf [text "describe", text "it", text "test"], blanks, text "("]

end HouseStyle.Script.Forms
