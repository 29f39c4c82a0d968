import HouseStyle.Grammar.Token

/-!
# Cutting a text into tokens

Where the next token depends only on the characters that follow, a text is cut from left to
right: blanks are passed over, and everything else is a token.  A reader for the next token says
how many characters it has after its first one, so every step takes something away.
-/

namespace HouseStyle.Grammar

/-- Whether a character only separates tokens. -/
def isSpace (c : Char) : Bool := ('\t' ≤ c && c ≤ '\r') || c == ' '

/-- The tokens of a text that starts at a place. -/
def cut? (next? : Char → List Char → Option (Shape × Nat)) (p : Place) :
    List Char → Option (List Token)
  | [] => some [Token.empty p .fileEnd]
  | c :: rest =>
    if isSpace c then cut? next? (p.after c) rest
    else
      match next? c rest with
      | none => none
      | some (shape, n) =>
        let t := Token.at p shape (c :: rest.take n)
        match cut? next? t.stop (rest.drop n) with
        | none => none
        | some more => some (t :: more)
termination_by cs => cs.length
decreasing_by all_goals simp_wf; try omega

/-- The number of characters up to and with the quote that closes a literal, in which a backslash
takes the next character with it. -/
def closedLength? (quote : Char) (manyLines : Bool) : List Char → Option Nat
  | [] => none
  | '\\' :: c :: rest =>
    if c = '\n' ∧ !manyLines then none else (closedLength? quote manyLines rest).map (· + 2)
  | c :: rest =>
    if c = quote then some 1
    else if c = '\n' ∧ !manyLines then none
    else (closedLength? quote manyLines rest).map (· + 1)

/-- The number of characters up to and with a mark that ends a literal. -/
def endLength? (stop : List Char) : List Char → Option Nat
  | [] => none
  | c :: rest =>
    if stop.isPrefixOf (c :: rest) then some stop.length
    else (endLength? stop rest).map (· + 1)

/-- The number of characters up to and with the end of a block comment.  Where such comments
nest, `depth` more of them are open than the innermost one. -/
def commentLength? (nests : Bool) (depth : Nat) : List Char → Option Nat
  | [] => none
  | '*' :: '/' :: rest =>
    match depth with
    | 0 => some 2
    | d + 1 => (commentLength? nests d rest).map (· + 2)
  | '/' :: '*' :: rest =>
    if nests then (commentLength? nests (depth + 1) rest).map (· + 2)
    else (commentLength? nests depth ('*' :: rest)).map (· + 1)
  | _ :: rest => (commentLength? nests depth rest).map (· + 1)

end HouseStyle.Grammar
