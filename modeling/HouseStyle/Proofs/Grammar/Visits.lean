import HouseStyle.Proofs.Grammar.Walk
import Mathlib.Data.List.Pairwise
import Mathlib.Logic.Function.Basic
import Mathlib.Tactic.Common

/-!
# The visits of a walk

A node that is reached through named nodes has a place: the numbers of the named nodes on the way
down to it.  The places of a tree in ascending order are those of its nodes from left to right, a
node before what is below it.

A walk makes one visit at each place, in this order, until one of them fails, and each visit is
given the scope that the visit right above it gave (`visits_walk`).
-/

namespace HouseStyle.Grammar

variable {κ : Type}

/-! ### Places -/

lemma Site.map_tree_namedAfter (before cs : List (Tree κ)) :
    (namedAfter before cs).map Site.tree = cs.filter fun c => c.label.named := by
  induction cs generalizing before with
  | nil => rfl
  | cons c cs ih =>
    rw [namedAfter, List.filter_cons]
    split
    · rw [List.map_cons, ih]
    · exact ih _

/-- The nodes below a node on a walk are its named ones, from left to right. -/
theorem Site.map_tree_below (s : Site κ) : s.below.map Site.tree = s.tree.namedChildren :=
  map_tree_namedAfter [] s.tree.children

/-- The node at a place below a node. -/
def Site.node? (s : Site κ) : List Nat → Option (Site κ)
  | [] => some s
  | i :: place => s.below[i]?.bind fun b => b.node? place

namespace Tree

/-- The node at a place of a tree. -/
def node? (t : Tree κ) (place : List Nat) : Option (Site κ) := (Site.mk [] t).node? place

mutual

/-- The places of a tree, a node before what is below it. -/
def places : Tree κ → List (List Nat)
  | node _ cs => [] :: placesFrom 0 cs

/-- The places in the named ones of some nodes that are numbered from a number on. -/
def placesFrom (i : Nat) : List (Tree κ) → List (List Nat)
  | [] => []
  | c :: cs =>
    if c.label.named then (places c).map (i :: ·) ++ placesFrom (i + 1) cs else placesFrom i cs

end

mutual

/-- The places of a tree are those where there is a node. -/
lemma mem_places (before : List (Tree κ)) {place : List Nat} :
    (t : Tree κ) → (place ∈ t.places ↔ ((Site.mk before t).node? place).isSome = true)
  | node l cs => by
    rw [places, List.mem_cons, mem_placesFrom [] cs]
    cases place with
    | nil => simp [Site.node?]
    | cons i place =>
      rw [Site.node?, Option.isSome_bind, Option.any_eq_true]
      constructor
      · rintro (h | ⟨j, q, b, hplace, hb, hnode⟩)
        · cases h
        · rw [Nat.zero_add] at hplace
          obtain ⟨rfl, rfl⟩ := List.cons.inj hplace
          exact ⟨b, hb, hnode⟩
      · rintro ⟨b, hb, hnode⟩
        exact .inr ⟨i, place, b, by rw [Nat.zero_add], hb, hnode⟩

lemma mem_placesFrom (before : List (Tree κ)) {i : Nat} {place : List Nat} :
    (cs : List (Tree κ)) → (place ∈ placesFrom i cs ↔ ∃ j q b, place = (i + j) :: q ∧
      (Site.namedAfter before cs)[j]? = some b ∧ (b.node? q).isSome = true)
  | [] => by simp [placesFrom, Site.namedAfter]
  | c :: cs => by
    rw [placesFrom, Site.namedAfter]
    split
    · rw [List.mem_append, List.mem_map, mem_placesFrom (c :: before) cs]
      constructor
      · rintro (⟨q, hq, rfl⟩ | ⟨j, q, b, rfl, hb, hnode⟩)
        · exact ⟨0, q, ⟨before, c⟩, rfl, rfl, (mem_places before c).1 hq⟩
        · exact ⟨j + 1, q, b, by rw [Nat.add_assoc, Nat.add_comm 1], hb, hnode⟩
      · rintro ⟨j, q, b, rfl, hb, hnode⟩
        cases j with
        | zero =>
          obtain rfl := Option.some.inj hb
          exact .inl ⟨q, (mem_places before c).2 hnode, rfl⟩
        | succ j => exact .inr ⟨j, q, b, by rw [Nat.add_assoc, Nat.add_comm 1], hb, hnode⟩
    · exact mem_placesFrom (c :: before) cs

end

mutual

/-- The places of a tree go up, and none occurs twice. -/
lemma pairwise_places : (t : Tree κ) → t.places.Pairwise (· < ·)
  | node l cs => by
    rw [places]
    refine List.pairwise_cons.2 ⟨fun place hplace => ?_, pairwise_placesFrom 0 cs⟩
    obtain ⟨j, q, -, rfl, -⟩ := (mem_placesFrom [] cs).1 hplace
    exact List.nil_lt_cons _ _

lemma pairwise_placesFrom (i : Nat) : (cs : List (Tree κ)) → (placesFrom i cs).Pairwise (· < ·)
  | [] => .nil
  | c :: cs => by
    rw [placesFrom]
    split
    · refine List.pairwise_append.2 ⟨?_, pairwise_placesFrom (i + 1) cs, ?_⟩
      · refine (pairwise_places c).map _ fun p q hlt => ?_
        exact List.cons_lt_cons_iff.2 (.inr ⟨rfl, hlt⟩)
      · intro p hp q hq
        obtain ⟨p, -, rfl⟩ := List.mem_map.1 hp
        obtain ⟨j, q, -, rfl, -⟩ := (mem_placesFrom [] cs).1 hq
        exact List.cons_lt_cons_iff.2 (.inl (by omega))
    · exact pairwise_placesFrom i cs

end

end Tree

/-! ### Visits -/

section Visits

variable {σ ε α : Type}

/-- The scope that is handed to a node at a place: that of the start at the root, and elsewhere what
the visit right above gave, as far as it was made. -/
def handed (start : σ) (given : List Nat → Option σ) (place : List Nat) : Option σ :=
  if place = [] then some start else given place.dropLast

/-- What comes of the visits at some places, one after the other.  The visits may change a state,
and the first one that fails is the last one. -/
inductive Visits (visit : Site κ → σ → ExceptT ε (StateM α) σ) (start : σ) (root : Tree κ) :
    (List Nat → Option σ) → List (List Nat) → α → Except ε Unit × α → Prop
  /-- All visits are made. -/
  | done {given : List Nat → Option σ} {a : α} : Visits visit start root given [] a (.ok (), a)
  /-- A visit gives a scope, and the further ones are made. -/
  | next {given : List Nat → Option σ} {place : List Nat} {places : List (List Nat)}
      {site : Site κ} {scope inner : σ} {a b : α} {result : Except ε Unit × α}
      (hsite : root.node? place = some site) (hscope : handed start given place = some scope)
      (hvisit : (visit site scope).run.run a = (.ok inner, b))
      (hmore : Visits visit start root (Function.update given place (some inner)) places b result) :
      Visits visit start root given (place :: places) a result
  /-- A visit fails, and no further one is made. -/
  | failed {given : List Nat → Option σ} {place : List Nat} {places : List (List Nat)}
      {site : Site κ} {scope : σ} {a b : α} {e : ε}
      (hsite : root.node? place = some site) (hscope : handed start given place = some scope)
      (hvisit : (visit site scope).run.run a = (.error e, b)) :
      Visits visit start root given (place :: places) a (.error e, b)

lemma handed_concat (start : σ) (given : List Nat → Option σ) (place : List Nat) (i : Nat) :
    handed start given (place ++ [i]) = given place := by
  rw [handed, if_neg (by simp), List.dropLast_concat]

lemma not_prefix_concat (place : List Nat) (i : Nat) : ¬place ++ [i] <+: place := by
  intro h
  have hle := h.length_le
  rw [List.length_append, List.length_singleton] at hle
  omega

/-- What is numbered from a number on as in a list, number by number. -/
lemma numbered_cons {β : Type} {f : Nat → Option β} {x : β} {l : List β} {i : Nat}
    (h : ∀ j, f (i + j) = (x :: l)[j]?) : f i = some x ∧ ∀ j, f (i + 1 + j) = l[j]? := by
  refine ⟨h 0, fun j => ?_⟩
  rw [Nat.add_assoc, Nat.add_comm 1]
  exact h (j + 1)

lemma run_bind_ok {β γ : Type} {x : ExceptT ε (StateM α) β} {f : β → ExceptT ε (StateM α) γ}
    {a b : α} {v : β} (h : x.run.run a = (.ok v, b)) : (x >>= f).run.run a = (f v).run.run b := by
  rw [ExceptT.run_bind, StateT.run_bind, h]
  rfl

lemma run_bind_error {β γ : Type} {x : ExceptT ε (StateM α) β} {f : β → ExceptT ε (StateM α) γ}
    {a b : α} {e : ε} (h : x.run.run a = (.error e, b)) :
    (x >>= f).run.run a = (.error e, b) := by
  rw [ExceptT.run_bind, StateT.run_bind, h]
  rfl

lemma Site.node?_append (s : Site κ) (place further : List Nat) :
    s.node? (place ++ further) = (s.node? place).bind fun b => b.node? further := by
  induction place generalizing s with
  | nil => rfl
  | cons i place ih =>
    rw [List.cons_append, Site.node?, Site.node?, Option.bind_assoc]
    exact congrArg _ (funext ih)

lemma Site.node?_singleton (s : Site κ) (i : Nat) : s.node? [i] = s.below[i]? := by
  rw [Site.node?]
  cases s.below[i]? <;> rfl

variable {visit : Site κ → σ → ExceptT ε (StateM α) σ} {start : σ} {root : Tree κ}

mutual

/-- The recursion below a node makes the visits at the places there.  What was given elsewhere is
left alone, so the visits at the places after them are handed the same as before. -/
lemma visits_preorder {before : List (Tree κ)} {scope : σ} {place : List Nat}
    {given : List Nat → Option σ} {more : List (List Nat)} {a : α} {result : Except ε Unit × α} :
    (t : Tree κ) → (hnode : root.node? place = some ⟨before, t⟩) →
      (hscope : handed start given place = some scope) →
      (hok : ∀ given' b, (t.preorder visit before scope).run.run a = (.ok (), b) →
        (∀ q, ¬place <+: q → given' q = given q) → Visits visit start root given' more b result) →
      (herror : ∀ e b, (t.preorder visit before scope).run.run a = (.error e, b) →
        result = (.error e, b)) →
      Visits visit start root given (t.places.map (place ++ ·) ++ more) a result
  | .node l cs, hnode, hscope, hok, herror => by
    rw [Tree.preorder] at hok herror
    rw [Tree.places, List.map_cons, List.append_nil, List.cons_append]
    rcases hvisit : (visit ⟨before, .node l cs⟩ scope).run.run a with ⟨e | inner, b⟩
    · rw [herror e b (run_bind_error hvisit)]
      exact .failed hnode hscope hvisit
    · rw [run_bind_ok hvisit] at hok herror
      refine .next hnode hscope hvisit (visits_preorderAll cs (fun j => ?_)
        (Function.update_self ..) (fun given' b' hrun hframe => ?_) herror)
      · rw [Tree.node?, Site.node?_append, ← Tree.node?, hnode, Nat.zero_add]
        exact Site.node?_singleton _ j
      · refine hok given' b' hrun fun q hq => ?_
        have hne : q ≠ place := by
          rintro rfl
          exact hq List.prefix_rfl
        rw [hframe q (.inl hq), Function.update_of_ne hne]

/-- The recursion below some nodes, which stand below a place from a number on, makes the visits at
the places there. -/
lemma visits_preorderAll {before : List (Tree κ)} {inner : σ} {place : List Nat} {i : Nat}
    {given : List Nat → Option σ} {more : List (List Nat)} {a : α} {result : Except ε Unit × α} :
    (cs : List (Tree κ)) →
      (hnodes : ∀ j, root.node? (place ++ [i + j]) = (Site.namedAfter before cs)[j]?) →
      (hinner : given place = some inner) →
      (hok : ∀ given' b, (Tree.preorderAll visit before inner cs).run.run a = (.ok (), b) →
        (∀ q, ¬place <+: q ∨ q = place → given' q = given q) →
        Visits visit start root given' more b result) →
      (herror : ∀ e b, (Tree.preorderAll visit before inner cs).run.run a = (.error e, b) →
        result = (.error e, b)) →
      Visits visit start root given ((Tree.placesFrom i cs).map (place ++ ·) ++ more) a result
  | [], _, _, hok, _ => hok given a rfl fun _ _ => rfl
  | c :: cs, hnodes, hinner, hok, herror => by
    rw [Tree.preorderAll] at hok herror
    rw [Tree.placesFrom]
    split at hok
    case isTrue hnamed =>
      rw [if_pos hnamed] at herror ⊢
      rw [Site.namedAfter, if_pos hnamed] at hnodes
      obtain ⟨hc, hcs⟩ := @numbered_cons _ (fun j => root.node? (place ++ [j])) _ _ _ hnodes
      have hscope : handed start given (place ++ [i]) = some inner :=
        (handed_concat ..).trans hinner
      have hplaces : (place ++ ·) ∘ (i :: ·) = ((place ++ [i]) ++ ·) := by
        funext q
        exact List.append_cons ..
      rw [List.map_append, List.append_assoc, List.map_map, hplaces]
      refine visits_preorder c hc hscope (fun given' b hrun hframe => ?_) (fun e b hrun => ?_)
      · rw [run_bind_ok hrun] at hok herror
        have hinner' : given' place = some inner :=
          (hframe place (not_prefix_concat place i)).trans hinner
        refine visits_preorderAll cs hcs hinner'
          (fun given'' b' hrun' hframe' => hok given'' b' hrun' fun q hq => ?_) herror
        rw [hframe' q hq, hframe q]
        intro h
        rcases hq with hq | rfl
        · exact hq ((List.prefix_append ..).trans h)
        · exact not_prefix_concat q i h
      · exact herror e b (run_bind_error hrun)
    case isFalse hnamed =>
      rw [if_neg hnamed] at herror ⊢
      rw [Site.namedAfter, if_neg hnamed] at hnodes
      exact visits_preorderAll cs hnodes hinner hok herror

end

/-- A walk makes one visit at each place, in ascending order, until one of them fails. -/
theorem visits_walk (visit : Site κ → σ → ExceptT ε (StateM α) σ) (start : σ) (root : Tree κ)
    (a : α) :
    Visits visit start root (fun _ => none) root.places a ((walk visit start root).run.run a) := by
  rw [walk_eq_preorder]
  -- At the root, with no place after those of the tree.
  have h : Visits visit start root (fun _ => none) (root.places.map ([] ++ ·) ++ []) a
      ((root.preorder visit [] start).run.run a) :=
    visits_preorder root rfl rfl (fun given b hrun _ => hrun ▸ .done) fun e b hrun => hrun
  rwa [List.append_nil, show (([] : List Nat) ++ ·) = id from rfl, List.map_id] at h

end Visits

end HouseStyle.Grammar
