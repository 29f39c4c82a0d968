import HouseStyle.Grammar.Walk
import Mathlib.Tactic.Common

/-!
# A walk is a recursion

A walk with a stack makes the same visits as a recursion that goes to a node before what is below it
and to what is below it from left to right (`walk_eq_preorder`).  The stack holds what the recursion
has still to do.  So a walk finds what a search finds (`gather_eq_search`).
-/

namespace HouseStyle.Grammar

/-! ### The recursion -/

section Recursion

variable {κ σ : Type} {m : Type → Type} [Monad m]

namespace Tree

mutual

/-- Visit a node that stands after others and has a scope, and then everything below it. -/
def preorder (visit : Site κ → σ → m σ) (before : List (Tree κ)) (scope : σ) : Tree κ → m Unit
  | node l cs => do
    let inner ← visit ⟨before, node l cs⟩ scope
    preorderAll visit [] inner cs

/-- Visit the named ones of some nodes, each with everything below it. -/
def preorderAll (visit : Site κ → σ → m σ) (before : List (Tree κ)) (scope : σ) :
    List (Tree κ) → m Unit
  | [] => pure ()
  | c :: cs => do
    if c.label.named then preorder visit before scope c
    preorderAll visit (c :: before) scope cs

end

end Tree

variable [LawfulMonad m] (visit : Site κ → σ → m σ)

mutual

/-- The node on top of the stack is visited with everything below it before the rest. -/
lemma walkFrom_cons (before : List (Tree κ)) (scope : σ) (stack : List (Site κ × σ)) :
    (t : Tree κ) → walkFrom visit ((⟨before, t⟩, scope) :: stack)
      = t.preorder visit before scope >>= fun _ => walkFrom visit stack
  | .node l cs => by
    rw [walkFrom, Tree.preorder, bind_assoc]
    refine bind_congr fun inner => ?_
    rw [push_eq]
    exact walkFrom_append [] inner stack cs

/-- The nodes on top of the stack are visited one after the other before the rest. -/
lemma walkFrom_append (before : List (Tree κ)) (scope : σ) (stack : List (Site κ × σ)) :
    (cs : List (Tree κ)) → walkFrom visit ((Site.namedAfter before cs).map (·, scope) ++ stack)
      = Tree.preorderAll visit before scope cs >>= fun _ => walkFrom visit stack
  | [] => by
    rw [Tree.preorderAll, pure_bind]
    rfl
  | c :: cs => by
    rw [Site.namedAfter, Tree.preorderAll]
    split
    · rw [List.map_cons, List.cons_append, walkFrom_cons before scope _ c, bind_assoc]
      exact bind_congr fun _ => walkFrom_append (c :: before) scope stack cs
    · exact walkFrom_append (c :: before) scope stack cs

end

/-- A walk with a stack is the recursion. -/
theorem walk_eq_preorder (start : σ) (root : Tree κ) :
    walk visit start root = root.preorder visit [] start := by
  rw [walk, walkFrom_cons, walkFrom]
  exact bind_pure_unit

end Recursion

/-! ### What is found on a walk -/

namespace Tree

section Gather

variable {κ σ β : Type} (visit : List (Tree κ) → σ → Tree κ → List β × σ)

mutual

lemma toList_preorder_note (before : List (Tree κ)) (scope : σ) (seen : Array β) :
    (t : Tree κ) → ((t.preorder (note visit) before scope).run seen).2.toList
      = seen.toList ++ t.search visit before scope
  | node l cs => by
    have hbelow := toList_preorderAll_note [] (visit before scope (node l cs)).2
      (seen ++ (visit before scope (node l cs)).1) cs
    rw [Array.toList_appendList, List.append_assoc] at hbelow
    exact hbelow

lemma toList_preorderAll_note (before : List (Tree κ)) (scope : σ) (seen : Array β) :
    (cs : List (Tree κ)) → ((preorderAll (note visit) before scope cs).run seen).2.toList
      = seen.toList ++ searchAll visit before scope cs
  | [] => (List.append_nil _).symm
  | c :: cs => by
    rw [preorderAll, searchAll]
    split
    · have hcs := toList_preorderAll_note (c :: before) scope
        ((c.preorder (note visit) before scope).run seen).2 cs
      rw [toList_preorder_note before scope seen c, List.append_assoc] at hcs
      exact hcs
    · exact toList_preorderAll_note (c :: before) scope seen cs

end

/-- A walk finds what the search finds. -/
theorem gather_eq_search (start : σ) (t : Tree κ) :
    t.gather visit start = t.search visit [] start := by
  rw [gather, walk_eq_preorder, toList_preorder_note]
  rfl

end Gather

end Tree

end HouseStyle.Grammar
