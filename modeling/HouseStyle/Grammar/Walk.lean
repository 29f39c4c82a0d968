import HouseStyle.Count
import HouseStyle.Grammar.Tree

/-!
# Walking through a syntax tree

A walk visits the named nodes of a tree with the help of a stack.  On the stack are the nodes that
are still to be visited, each with its scope.  The node on top is visited, and the nodes right below
it take its place, with the scope that the visit gives to them.  A visit may fail, which is a matter
of the monad; the walk goes on only when the visit is done.
-/

namespace HouseStyle.Grammar

namespace Tree

variable {κ : Type}

mutual

/-- The number of nodes of a tree. -/
def size : Tree κ → Nat
  | node _ cs => sizeAll cs + 1

/-- The number of nodes of some trees. -/
def sizeAll : List (Tree κ) → Nat
  | [] => 0
  | c :: cs => size c + sizeAll cs

end

end Tree

/-- A node where it stands. -/
structure Site (κ : Type) where
  /-- The nodes before it below the same node, the nearest first. -/
  before : List (Tree κ)
  /-- The node. -/
  tree : Tree κ

namespace Site

variable {κ : Type}

/-- The named ones of some nodes that stand after others. -/
def namedAfter (before : List (Tree κ)) : List (Tree κ) → List (Site κ)
  | [] => []
  | c :: cs =>
    if c.label.named then ⟨before, c⟩ :: namedAfter (c :: before) cs
    else namedAfter (c :: before) cs

/-- The named nodes right below a node, from left to right. -/
def below (s : Site κ) : List (Site κ) := namedAfter [] s.tree.children

theorem sum_size_namedAfter (before cs : List (Tree κ)) :
    Count.sum ((namedAfter before cs).map fun s => s.tree.size) ≤ Tree.sizeAll cs := by
  induction cs generalizing before with
  | nil => exact Nat.zero_le _
  | cons c cs ih =>
    rw [namedAfter, Tree.sizeAll]
    split
    · exact Nat.add_le_add_left (ih _) _
    · exact Nat.le_add_left_of_le (ih _)

theorem sum_size_below_lt (s : Site κ) :
    Count.sum (s.below.map fun b => b.tree.size) < s.tree.size := by
  obtain ⟨before, l, cs⟩ := s
  rw [Tree.size]
  exact Nat.lt_succ_of_le (sum_size_namedAfter [] cs)

end Site

section Walk

variable {κ σ : Type} {m : Type → Type} [Monad m]

/-- A stack with further nodes of a scope on it.  The last one is put there first, so the first one
is on top. -/
def push (scope : σ) (sites : List (Site κ)) (stack : List (Site κ × σ)) : List (Site κ × σ) :=
  sites.reverse.foldl (fun stack s => (s, scope) :: stack) stack

theorem push_eq (scope : σ) (sites : List (Site κ)) (stack : List (Site κ × σ)) :
    push scope sites stack = sites.map (·, scope) ++ stack := by
  rw [push, List.foldl_reverse]
  induction sites with
  | nil => rfl
  | cons s sites ih => rw [List.foldr_cons, ih, List.map_cons, List.cons_append]

/-- The number of nodes that are on a stack or below it. -/
def stackSize (stack : List (Site κ × σ)) : Nat := Count.sum (stack.map fun e => e.1.tree.size)

theorem stackSize_push_lt (inner scope : σ) (site : Site κ) (stack : List (Site κ × σ)) :
    stackSize (push inner site.below stack) < stackSize ((site, scope) :: stack) := by
  rw [push_eq, stackSize, stackSize, List.map_append, Count.sum_append, List.map_map, List.map_cons,
    Count.sum_cons]
  exact Nat.add_lt_add_right site.sum_size_below_lt _

/-- Visit the nodes on a stack and everything below them. -/
def walkFrom (visit : Site κ → σ → m σ) : List (Site κ × σ) → m Unit
  | [] => pure ()
  | (site, scope) :: stack => do
    let inner ← visit site scope
    walkFrom visit (push inner site.below stack)
termination_by stack => stackSize stack
decreasing_by exact stackSize_push_lt inner scope site stack

/-- Visit the root of a tree, which has a scope, and everything below it. -/
def walk (visit : Site κ → σ → m σ) (start : σ) (root : Tree κ) : m Unit :=
  walkFrom visit [(⟨[], root⟩, start)]

end Walk

namespace Tree

variable {κ σ β : Type}

/-- Note what is found at a node, and go on with the scope below it. -/
def note (visit : List (Tree κ) → σ → Tree κ → List β × σ) (site : Site κ) (scope : σ) :
    StateM (Array β) σ := do
  let (found, inner) := visit site.before scope site.tree
  modify fun seen : Array β => seen ++ found
  pure inner

/-- What is found on a walk through a tree.  A visit to a node is given the nodes before it, the
nearest first, and the scope of the node; it says what is found there and what the scope below it
is. -/
def gather (visit : List (Tree κ) → σ → Tree κ → List β × σ) (start : σ) (t : Tree κ) : List β :=
  ((walk (note visit) start t).run #[]).2.toList

end Tree

end HouseStyle.Grammar
