import HouseStyle.Grammar.Tree
import HouseStyle.Survey.Facts

/-!
# Reading facts from a tree

What the readers of all languages with a grammar have in common: the names in a target, the
decisions in a function and the comments right above a declaration.
-/

namespace HouseStyle.Grammar.Tree

variable {κ : Type} [BEq κ]

/-- The names in a target: the target itself if it is a name, else the names right below it. -/
def namesIn (identifier : κ) (source : Array Char) (t : Tree κ) : List String :=
  if t.isKind identifier then [t.name source]
  else (t.namedChildren.filter fun c => c.isKind identifier).map fun c => c.name source

omit [BEq κ] in
/-- The decisions in a tree, by the kinds of its nodes. -/
def controlFlow (decision : κ → ControlFlow) (t : Tree κ) : ControlFlow :=
  t.total (· + ·) fun l => (l.kind.map decision).getD .none

/-- The comments right above a line, in the order of the text, given the nodes before it, the
nearest first.  Nodes of the kinds in `between` may stand between them; a blank line may not. -/
def commentsAbove (comment : κ) (between : List κ) (row : Nat) :
    List (Tree κ) → List (Tree κ)
  | [] => []
  | t :: more =>
    let isComment := t.isKind comment
    if (isComment || between.any fun k => t.isKind k) && row ≤ t.label.stop.row + 1 then
      commentsAbove comment between t.label.start.row more ++ (if isComment then [t] else [])
    else []

end HouseStyle.Grammar.Tree
