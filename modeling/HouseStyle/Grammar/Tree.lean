/-!
# Syntax trees

A syntax tree has nodes of the kinds of a language.  A node knows where it starts and stops and
which role it plays in the node above it.  Words and marks that say nothing by themselves are
nodes without a kind; they count as neighbours of a node but are passed over when a tree is
searched.

A tree is searched from the root downwards, a node before what is below it and what is below it
from left to right.  On the way down a scope is handed on, which says what a node lies inside.

The search says what is found in a tree.  Files are read by a walk that keeps a stack instead
(`Grammar/Walk`), with the same result.
-/

namespace HouseStyle.Grammar

/-- A place in a text. -/
structure Place where
  /-- The number of line ends before it. -/
  row : Nat
  /-- The number of characters before it. -/
  offset : Nat
deriving DecidableEq, Repr, Inhabited

namespace Place

/-- The place after a character. -/
def after (p : Place) (c : Char) : Place :=
  ⟨if c = '\n' then p.row + 1 else p.row, p.offset + 1⟩

/-- The place after some characters. -/
def afterAll (p : Place) (cs : List Char) : Place := cs.foldl after p

end Place

/-- The role of a node in the node above it. -/
inductive Role where
  /-- The name that is declared. -/
  | name
  /-- The body. -/
  | body
  /-- The parameters. -/
  | parameters
  /-- The type of the result. -/
  | result
  /-- The left side of an assignment. -/
  | left
  /-- The pattern that is bound. -/
  | pattern
  /-- What is imported. -/
  | module
  /-- The macro that is invoked. -/
  | invoked
deriving DecidableEq, Repr

/-- What a node says about itself. -/
structure Label (κ : Type) where
  /-- The kind, if it matters. -/
  kind : Option κ
  /-- Whether it is more than a word or a mark. -/
  named : Bool
  /-- The role in the node above. -/
  role : Option Role
  /-- Where it starts. -/
  start : Place
  /-- Where it stops. -/
  stop : Place
deriving DecidableEq, Repr

/-- A syntax tree. -/
inductive Tree (κ : Type) where
  /-- A node and what is below it. -/
  | node (label : Label κ) (children : List (Tree κ))

namespace Tree

variable {κ : Type}

/-- What the root says about itself. -/
def label : Tree κ → Label κ
  | node l _ => l

/-- What is right below the root. -/
def children : Tree κ → List (Tree κ)
  | node _ cs => cs

/-- The kind of the root. -/
def kind (t : Tree κ) : Option κ := t.label.kind

/-- Whether the root has a kind. -/
def isKind [BEq κ] (t : Tree κ) (k : κ) : Bool := t.kind == some k

/-- The nodes right below the root that are more than a word or a mark. -/
def namedChildren (t : Tree κ) : List (Tree κ) := t.children.filter fun c => c.label.named

/-- The nodes right below the root that play a role. -/
def inRole (t : Tree κ) (r : Role) : List (Tree κ) := t.children.filter fun c => c.label.role == some r

/-- The first node right below the root that plays a role. -/
def inRole? (t : Tree κ) (r : Role) : Option (Tree κ) := (t.inRole r).head?

/-- Whether a node right below the root has a kind. -/
def hasChild [BEq κ] (t : Tree κ) (k : κ) : Bool := t.children.any fun c => c.isKind k

/-- The line of the start, counted from 1. -/
def startLine (t : Tree κ) : Nat := t.label.start.row + 1

/-- The number of lines from the start to the stop. -/
def lineCount (t : Tree κ) : Nat := t.label.stop.row - t.label.start.row + 1

/-- The text of a node, out of the text of the file. -/
def text (source : Array Char) (t : Tree κ) : List Char :=
  (source.extract t.label.start.offset t.label.stop.offset).toList

/-- The text of a node as a name. -/
def name (source : Array Char) (t : Tree κ) : String := String.ofList (t.text source)

/-- Give the root a role, unless it has one. -/
def withRole (r : Role) : Tree κ → Tree κ
  | node l cs => node { l with role := if l.role.isSome then l.role else some r } cs

mutual

/-- What is found in a tree.  A visit to a node is given the nodes before it, the nearest first,
and the scope of the node; it says what is found there and what the scope below it is. -/
def search {σ β : Type} (visit : List (Tree κ) → σ → Tree κ → List β × σ)
    (before : List (Tree κ)) (scope : σ) : Tree κ → List β
  | node l cs =>
    let (found, inner) := visit before scope (node l cs)
    found ++ searchAll visit [] inner cs

/-- What is found in the named trees of a list. -/
def searchAll {σ β : Type} (visit : List (Tree κ) → σ → Tree κ → List β × σ)
    (before : List (Tree κ)) (scope : σ) : List (Tree κ) → List β
  | [] => []
  | c :: cs =>
    (if c.label.named then search visit before scope c else [])
      ++ searchAll visit (c :: before) scope cs

end

mutual

/-- The sum of what all nodes of a tree contribute. -/
def total {β : Type} (add : β → β → β) (value : Label κ → β) : Tree κ → β
  | node l cs => totalAll add value (value l) cs

/-- The sum of what all nodes of some trees contribute, added to what there is already. -/
def totalAll {β : Type} (add : β → β → β) (value : Label κ → β) (acc : β) : List (Tree κ) → β
  | [] => acc
  | c :: cs => totalAll add value (add acc (total add value c)) cs

end

end Tree

end HouseStyle.Grammar
