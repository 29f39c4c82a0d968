/-!
# Naming styles

The style of a name is read off its core, the name without the marks at its ends.  A word in
lower case fits two styles and shows neither; a name that mixes styles shows none.
-/

namespace HouseStyle

/-- A way to join the words of a name. -/
inductive NamingStyle where
  /-- Lower case words joined by underscores. -/
  | snakeCase
  /-- Capitalised words after the first one. -/
  | camelCase
  /-- Capitalised words. -/
  | pascalCase
  /-- Lower case words joined by hyphens. -/
  | kebabCase
  /-- Upper case words joined by underscores. -/
  | upperSnakeCase
deriving DecidableEq, Repr

namespace NamingStyle

/-- All styles. -/
def all : List NamingStyle := [snakeCase, camelCase, pascalCase, kebabCase, upperSnakeCase]

/-- The label of a style, written in that style. -/
def label : NamingStyle → String
  | snakeCase => "snake_case"
  | camelCase => "camelCase"
  | pascalCase => "PascalCase"
  | kebabCase => "kebab-case"
  | upperSnakeCase => "UPPER_SNAKE_CASE"

/-- The style of a label. -/
def ofLabel? (label : String) : Option NamingStyle :=
  all.find? fun style => style.label == label

/-- Whether a character is a mark that may stand at the ends of a name. -/
def isMark (c : Char) : Bool := c == '_' || c == '$' || c == '#'

/-- The core of a name. -/
def core (name : List Char) : List Char :=
  ((name.dropWhile isMark).reverse.dropWhile isMark).reverse

/-- The style of a core. -/
def ofCore? : List Char → Option NamingStyle
  | [] => none
  | first :: rest =>
    let cs := first :: rest
    let hasUpper := cs.any Char.isUpper
    let hasLower := cs.any Char.isLower
    let hasUnderscore := cs.contains '_'
    if !first.isAlpha then none
    else if !cs.all (fun c => c.isAlphanum || c == '_' || c == '-') then none
    else if cs.contains '-' then
      if hasUpper || hasUnderscore then none else some kebabCase
    else if hasUpper && !hasLower then
      if rest.isEmpty then none else some upperSnakeCase
    else if first.isLower then
      if hasUpper then (if hasUnderscore then none else some camelCase)
      else (if hasUnderscore then some snakeCase else none)
    else if hasUnderscore then none
    else some pascalCase

/-- The style of a name. -/
def classify? (name : String) : Option NamingStyle :=
  ofCore? (core name.toList)

end NamingStyle

end HouseStyle
