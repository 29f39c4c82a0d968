import HouseStyle.Grammar.Tree

/-!
# Tokens

The text of a file is cut into words, numbers, literals and marks.  Comments may stand between
any two of them and belong to the token that follows.  Languages whose lines matter also have
tokens without characters, for the end of a statement and for the start and end of a block.
-/

namespace HouseStyle.Grammar

/-- The shape of a token. -/
inductive Shape where
  /-- A word. -/
  | word
  /-- A number. -/
  | number
  /-- A literal that is not looked into. -/
  | literal
  /-- The start of a text literal. -/
  | textStart
  /-- The end of a text literal. -/
  | textStop
  /-- A mark. -/
  | mark
  /-- A label with an apostrophe in front. -/
  | label
  /-- The end of a statement. -/
  | lineEnd
  /-- The start of a block. -/
  | indent
  /-- The end of a block. -/
  | dedent
  /-- A comment. -/
  | comment
  /-- The end of the file. -/
  | fileEnd
deriving DecidableEq, Repr

/-- A token. -/
structure Token where
  /-- The shape. -/
  shape : Shape
  /-- The characters; empty where only the shape matters. -/
  text : String
  /-- Where it starts. -/
  start : Place
  /-- Where it stops. -/
  stop : Place
deriving DecidableEq, Repr

/-- A token with the comments before it, the nearest first. -/
structure Lexeme where
  /-- The comments. -/
  comments : List Token
  /-- The token. -/
  token : Token
deriving DecidableEq, Repr

/-- Give the comments of a list of tokens, after some earlier comments, to the tokens that
follow them. -/
def attachComments (earlier : List Token) : List Token → List Lexeme
  | [] => []
  | t :: rest =>
    if t.shape = .comment then attachComments (t :: earlier) rest
    else ⟨earlier, t⟩ :: attachComments [] rest

/-- A token that starts at a place and has some characters. -/
def Token.at (start : Place) (shape : Shape) (cs : List Char) : Token :=
  ⟨shape, String.ofList cs, start, start.afterAll cs⟩

/-- A token without characters. -/
def Token.empty (place : Place) (shape : Shape) : Token := ⟨shape, "", place, place⟩

/-- Whether a token is a certain word. -/
def Token.isWord (t : Token) (w : String) : Bool := t.shape == .word && t.text == w

/-- Whether a token is a certain mark. -/
def Token.isMark (t : Token) (m : String) : Bool := t.shape == .mark && t.text == m

/-- The first of some marks that a text starts with. -/
def mark? (marks : List (List Char)) (cs : List Char) : Option (List Char) :=
  marks.find? fun m => m.isPrefixOf cs

end HouseStyle.Grammar
