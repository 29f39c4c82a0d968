import HouseStyle.Grammar.PythonReader
import HouseStyle.Proofs.Grammar.Visits
import Mathlib.Data.List.Infix
import Mathlib.Tactic.Common

/-!
# What a node lies inside

The nodes around a node are those on the way down to it.  Where the scope depends on these alone, a
search finds at each place what is found there by the nodes around it (`search_eq_flatMap`).

In a Python file the scope is the number of functions and the number of classes around a node.  So a
name that is assigned is a constant where no function or class is around the assignment, and a
variable elsewhere.
-/

namespace HouseStyle.Grammar

/-! ### The nodes around a node -/

section Around

variable {κ : Type}

/-- The nodes around the node at a place below a node, from the outside in. -/
def Site.around (s : Site κ) (place : List Nat) : List (Site κ) :=
  place.inits.dropLast.filterMap s.node?

/-- The nodes around the node at a place of a tree, from the outside in. -/
def Tree.around (t : Tree κ) (place : List Nat) : List (Site κ) := (Site.mk [] t).around place

@[simp] lemma Site.around_nil (s : Site κ) : s.around [] = [] := rfl

lemma Site.around_cons {s b : Site κ} {i : Nat} (h : s.below[i]? = some b) (place : List Nat) :
    s.around (i :: place) = s :: b.around place := by
  have hnode : s.node? ∘ (i :: ·) = b.node? := by
    funext q
    rw [Function.comp_apply, Site.node?, h, Option.bind_some]
  have hinits : place.inits.map (i :: ·) ≠ [] := by
    cases place <;> simp
  rw [Site.around, List.inits_cons, List.dropLast_cons_of_ne_nil hinits, ← List.map_dropLast,
    List.filterMap_cons_some (show s.node? [] = some s from rfl), List.filterMap_map, hnode]
  rfl

variable {σ β : Type}

/-- What there is at a place below a node, by the nodes around it and the node. -/
def Site.found (what : List (Site κ) → Site κ → List β) (s : Site κ) (place : List Nat) : List β :=
  ((s.node? place).map (what (s.around place))).getD []

/-- What there is at all places of a tree, by the nodes around them and the nodes. -/
def Tree.collect (what : List (Site κ) → Site κ → List β) (t : Tree κ) : List β :=
  t.places.flatMap ((Site.mk [] t).found what)

lemma Site.found_cons {s b : Site κ} {i : Nat} (h : s.below[i]? = some b)
    (what : List (Site κ) → Site κ → List β) (place : List Nat) :
    s.found what (i :: place) = b.found (fun around => what (s :: around)) place := by
  rw [Site.found, Site.found, Site.node?, h, Option.bind_some, Site.around_cons h]

lemma Tree.filterMap_collect {γ : Type} (f : β → Option γ) (what : List (Site κ) → Site κ → List β)
    (t : Tree κ) :
    (t.collect what).filterMap f = t.collect fun around s => (what around s).filterMap f := by
  rw [collect, collect, List.filterMap_flatMap]
  congr 1
  funext place
  rw [Site.found, Site.found]
  cases (Site.mk [] t).node? place <;> rfl

variable (visit : List (Tree κ) → σ → Tree κ → List β × σ) (scopeOf : List (Site κ) → σ)

/-- What a visit finds at a node when the scope depends on the nodes around it, of which some are
known already. -/
def visitAround (outer around : List (Site κ)) (s : Site κ) : List β :=
  (visit s.before (scopeOf (outer ++ around)) s.tree).1

variable {visit scopeOf}

lemma visitAround_cons (outer : List (Site κ)) (s : Site κ) :
    (fun around => visitAround visit scopeOf outer (s :: around))
      = visitAround visit scopeOf (outer ++ [s]) := by
  funext around n
  rw [visitAround, visitAround, List.append_assoc]
  rfl

mutual

/-- When the scope below a node is that of the node with the node itself added to those around it,
a search finds at each place what the visit finds there. -/
lemma search_eq_flatMap (hscope : ∀ outer s,
      (visit s.before (scopeOf outer) s.tree).2 = scopeOf (outer ++ [s]))
    (before : List (Tree κ)) (outer : List (Site κ)) : (t : Tree κ) →
      t.search visit before (scopeOf outer)
        = t.places.flatMap ((Site.mk before t).found (visitAround visit scopeOf outer))
  | .node l cs => by
    have hinner : (visit before (scopeOf outer) (.node l cs)).2 = _ :=
      hscope outer ⟨before, .node l cs⟩
    have hbelow (j : Nat) :
        (Site.mk before (.node l cs)).below[0 + j]? = (Site.namedAfter [] cs)[j]? := by
      rw [Nat.zero_add]
      rfl
    simp only [Tree.search, Tree.places, List.flatMap_cons]
    rw [hinner, searchAll_eq_flatMap hscope outer cs hbelow]
    congr 1
    simp [Site.found, Site.node?, visitAround]

/-- The same for the last nodes below a node. -/
lemma searchAll_eq_flatMap (hscope : ∀ outer s,
      (visit s.before (scopeOf outer) s.tree).2 = scopeOf (outer ++ [s]))
    {before : List (Tree κ)} {i : Nat} (outer : List (Site κ)) {s : Site κ} : (cs : List (Tree κ)) →
      (hbelow : ∀ j, s.below[i + j]? = (Site.namedAfter before cs)[j]?) →
      Tree.searchAll visit before (scopeOf (outer ++ [s])) cs
        = (Tree.placesFrom i cs).flatMap (s.found (visitAround visit scopeOf outer))
  | [], _ => rfl
  | c :: cs, hbelow => by
    rw [Tree.searchAll, Tree.placesFrom]
    rw [Site.namedAfter] at hbelow
    split
    case isTrue hnamed =>
      rw [if_pos hnamed] at hbelow
      obtain ⟨hc, hcs⟩ := @numbered_cons _ (fun j => s.below[j]?) _ _ _ hbelow
      rw [List.flatMap_append, List.flatMap_map, search_eq_flatMap hscope before _ c,
        searchAll_eq_flatMap hscope outer cs hcs]
      congr 2
      funext place
      rw [Site.found_cons hc, visitAround_cons]
    case isFalse hnamed =>
      rw [if_neg hnamed] at hbelow
      exact searchAll_eq_flatMap hscope outer cs hbelow

end

end Around

/-! ### Depths -/

namespace Python

open Survey

variable (source : Array Char)

/-- The depth of a node around which there are others. -/
def depth (around : List (Site Kind)) : Depth :=
  ⟨around.countP fun s => s.tree.isKind .function, around.countP fun s => s.tree.isKind .class_⟩

lemma isOutside_depth (around : List (Site Kind)) : (depth around).isOutside = true
    ↔ ∀ s ∈ around, s.tree.kind ≠ some .function ∧ s.tree.kind ≠ some .class_ := by
  simp [Depth.isOutside, depth, List.countP_eq_zero, Tree.isKind, forall_and]

lemma visit_snd (before : List PythonTree) (d : Depth) (t : PythonTree) :
    (visit source before d t).2 = match t.kind with
      | some .function => d.inFunction
      | some .class_ => d.inType
      | _ => d := by
  rw [visit]
  split <;> simp_all

/-- The depth below a node is that of the node, with the node itself. -/
lemma visit_depth (outer : List (Site Kind)) (s : Site Kind) :
    (visit source s.before (depth outer) s.tree).2 = depth (outer ++ [s]) := by
  rw [visit_snd]
  split
  next h => simp [depth, Depth.inFunction, Tree.isKind, h]
  next h => simp [depth, Depth.inType, Tree.isKind, h]
  next hfunction hclass =>
    simp only [depth, Tree.isKind, List.countP_append, List.countP_singleton, beq_iff_eq]
    rw [if_neg hfunction, if_neg hclass]
    rfl

/-- What is noted on a walk at the nodes and their depths is what there is at all nodes and their
depths. -/
theorem gather_eq_collect {β : Type} (what : Site Kind → Depth → List β) (t : PythonTree) :
    t.gather (fun before d t => (what ⟨before, t⟩ d, (visit source before d t).2)) .zero
      = t.collect fun around s => what s (depth around) := by
  rw [Tree.gather_eq_search]
  exact @search_eq_flatMap _ _ _
    (fun before d t => (what ⟨before, t⟩ d, (visit source before d t).2)) depth (visit_depth source)
    [] [] t

/-! ### Names -/

/-- The names that an assignment gives. -/
def assigned (t : PythonTree) : List String :=
  if t.isKind .assignment then
    ((t.inRole? .left).map fun left =>
      (left.namesIn .identifier source).filter (· ≠ "")).getD []
  else []

/-- The names of the parameters of a function. -/
def parameters (t : PythonTree) : List String :=
  if t.isKind .function then
    ((parametersOf t).filterMap (parameterName? source)).filter fun p =>
      !receivers.contains p && p ≠ ""
  else []

lemma assigned_of_kind_ne {t : PythonTree} (h : t.kind ≠ some .assignment) :
    assigned source t = [] := by
  rw [assigned, Tree.isKind, if_neg (by rwa [beq_iff_eq])]

lemma parameters_of_kind_ne {t : PythonTree} (h : t.kind ≠ some .function) :
    parameters source t = [] := by
  rw [parameters, Tree.isKind, if_neg (by rwa [beq_iff_eq])]

/-- The name that a finding gives to something of a kind. -/
def nameOf? (kind : NameKind) : Finding → Option String
  | .name n => if n.kind = kind ∧ n.name ≠ "" then some n.name else none
  | _ => none

lemma filterMap_nameOf?_map (kind kind' : NameKind) (names : List String) :
    (names.map fun name => Finding.name ⟨kind', name⟩).filterMap (nameOf? kind)
      = if kind' = kind then names.filter (· ≠ "") else [] := by
  induction names with
  | nil => simp
  | cons name names ih =>
    rw [List.map_cons, List.filterMap_cons, ih]
    by_cases hkind : kind' = kind <;> by_cases hname : name = "" <;> simp [nameOf?, hkind, hname]

lemma filterMap_nameOf?_assignmentFindings (kind : NameKind) (d : Depth) (t : PythonTree)
    (h : t.isKind .assignment = true) :
    (assignmentFindings source d t).filterMap (nameOf? kind)
      = if (if d.isOutside then .constant else .binding) = kind then assigned source t else [] := by
  rw [assignmentFindings, assigned, if_pos h]
  split
  next left hleft => rw [hleft, filterMap_nameOf?_map]; rfl
  next hleft => simp [hleft]

/-- What is noted about a doc comment gives no name. -/
lemma filterMap_nameOf?_doc (kind : NameKind) (doc : Option Doc) : (doc.toList.flatMap fun d =>
    [Finding.docDelimiter d.delimiter, .docFormat d.format]).filterMap (nameOf? kind) = [] := by
  cases doc <;> rfl

lemma filterMap_nameOf?_functionFindings (t : PythonTree) (h : t.isKind .function = true) :
    (functionFindings source t).filterMap (nameOf? .binding) = parameters source t := by
  simp only [functionFindings, List.filterMap_append, filterMap_nameOf?_doc, filterMap_nameOf?_map,
    parameters, if_pos h]
  simp [nameOf?, List.filter_filter, Bool.and_comm]

/-- Names are given by declarations and assignments. -/
lemma filterMap_nameOf?_visit (kind : NameKind) (before : List PythonTree) (d : Depth)
    (t : PythonTree) : (visit source before d t).1.filterMap (nameOf? kind) = (match t.kind with
      | some .function => functionFindings source t
      | some .class_ => classFindings source t
      | some .assignment => assignmentFindings source d t
      | _ => []).filterMap (nameOf? kind) := by
  rw [visit]
  split <;> simp only [*]
  case h_4 => simp [nameOf?, Function.comp_def]
  case h_5 => simp [nameOf?]
  case h_6 => split <;> simp [nameOf?]

/-- An assignment outside of all functions and classes gives constants. -/
lemma constants_visit (before : List PythonTree) (d : Depth) (t : PythonTree) :
    (visit source before d t).1.filterMap (nameOf? .constant)
      = if d.isOutside then assigned source t else [] := by
  rw [filterMap_nameOf?_visit]
  split
  next h =>
    simp only [functionFindings, List.filterMap_append, filterMap_nameOf?_doc]
    simp [nameOf?, assigned_of_kind_ne, h]
  next h =>
    simp only [classFindings, List.filterMap_append, filterMap_nameOf?_doc]
    simp [nameOf?, assigned_of_kind_ne, h]
  next h =>
    rw [filterMap_nameOf?_assignmentFindings source _ _ _ (by simp [Tree.isKind, h])]
    cases d.isOutside <;> simp
  next _ _ h => simp [assigned_of_kind_ne source h]

/-- A function gives variables, and so does an assignment in a function or a class. -/
lemma bindings_visit (before : List PythonTree) (d : Depth) (t : PythonTree) :
    (visit source before d t).1.filterMap (nameOf? .binding)
      = parameters source t ++ if d.isOutside then [] else assigned source t := by
  rw [filterMap_nameOf?_visit]
  split
  next h =>
    rw [filterMap_nameOf?_functionFindings source t (by simp [Tree.isKind, h])]
    simp [assigned_of_kind_ne, h]
  next h =>
    simp only [classFindings, List.filterMap_append, filterMap_nameOf?_doc]
    simp [nameOf?, parameters_of_kind_ne, assigned_of_kind_ne, h]
  next h =>
    rw [filterMap_nameOf?_assignmentFindings source _ _ _ (by simp [Tree.isKind, h])]
    cases d.isOutside <;> simp [parameters_of_kind_ne, h]
  next hfunction _ hassignment =>
    simp [parameters_of_kind_ne source hfunction, assigned_of_kind_ne source hassignment]

/-- The names of a kind in a file are those that are found, if they do not come from the file's own
name. -/
lemma get_names_fileFacts {kind : NameKind} (h : kind ≠ .file) (path : SourcePath)
    (language : String) (source : List Char) (found : List Finding) :
    (fileFacts path language source found).names.get kind = found.filterMap (nameOf? kind) := by
  have hfile : ((fileNames path).filter fun n => n.kind = kind ∧ n.name ≠ "") = [] := by
    rw [fileNames]
    split <;> simp [h.symm]
  simp only [fileFacts, Names.ofList, Names.get_ofKinds, List.filter_append, List.map_append, hfile]
  rw [List.map_nil, List.nil_append, List.filter_filterMap, List.map_filterMap]
  refine List.filterMap_congr fun x _ => ?_
  cases x with
  | name n =>
    by_cases hn : n.kind = kind ∧ n.name ≠ "" <;> simp [Finding.named?, nameOf?, -not_and, hn]
  | _ => rfl

/-- The tree of a Python file, if it follows the grammar. -/
def tree? (source : List Char) : Option PythonTree := (lex? source).bind (grammar.parse? .file)

lemma filterMap_nameOf?_frameworkFindings (kind : NameKind) (isTest : Bool) (found : List Finding) :
    (frameworkFindings isTest found).filterMap (nameOf? kind) = [] := by
  simp [frameworkFindings, List.filterMap_map, nameOf?, Function.comp_def]

/-- The names of a kind that a reader knows are those that the visits give. -/
lemma map_get_names_read? {kind : NameKind} (h : kind ≠ .file) (language : String)
    (path : SourcePath) (source : List Char) :
    (read? language path source).map (fun f => f.names.get kind)
      = (tree? source).map fun t => t.collect fun around s =>
        (visit source.toArray s.before (depth around) s.tree).1.filterMap (nameOf? kind) := by
  have hgather (t : PythonTree) : t.gather (visit source.toArray) .zero
      = t.collect fun around s => (visit source.toArray s.before (depth around) s.tree).1 :=
    gather_eq_collect source.toArray (fun s d => (visit source.toArray s.before d s.tree).1) t
  have hread : read? language path source = (tree? source).map fun t =>
      let found := t.gather (visit source.toArray) .zero
      fileFacts path language source (found ++ frameworkFindings path.isTest found) := by
    rw [read?, tree?, Option.map_bind]
    refine congrArg _ (funext fun tokens => ?_)
    rw [Function.comp_apply, Option.map_eq_bind]
    rfl
  rw [hread, Option.map_map]
  refine Option.map_congr fun t _ => ?_
  rw [Function.comp_apply, get_names_fileFacts h, List.filterMap_append,
    filterMap_nameOf?_frameworkFindings, List.append_nil, hgather]
  exact Tree.filterMap_collect ..

/-- Names that are assigned outside of all functions and classes are constants. -/
lemma map_constants_read? (language : String) (path : SourcePath) (source : List Char) :
    (read? language path source).map (fun f => f.names.constants)
      = (tree? source).map fun t => t.collect fun around s =>
        if ∀ a ∈ around, a.tree.kind ≠ some .function ∧ a.tree.kind ≠ some .class_ then
          assigned source.toArray s.tree
        else [] := by
  have h := @map_get_names_read? .constant (by decide) language path source
  simp only [constants_visit, isOutside_depth] at h
  exact h

/-- The parameters of functions and the other names that are assigned are variables. -/
lemma map_bindings_read? (language : String) (path : SourcePath) (source : List Char) :
    (read? language path source).map (fun f => f.names.bindings)
      = (tree? source).map fun t => t.collect fun around s => parameters source.toArray s.tree ++
        if ∀ a ∈ around, a.tree.kind ≠ some .function ∧ a.tree.kind ≠ some .class_ then []
        else assigned source.toArray s.tree := by
  have h := @map_get_names_read? .binding (by decide) language path source
  simp only [bindings_visit, isOutside_depth] at h
  exact h

example : (read? "python" "a.py" "x = 1\ndef f(p):\n    y = 2\n".toList).map
    (fun f => (f.names.constants, f.names.bindings)) = some (["x"], ["p", "y"]) := by decide +kernel

end Python

/-! ### A walk -/

/-- A walk is the recursion that goes to a node before what is below it.  It visits each node that
is reached through named nodes once, in the order of the text, stops at the first visit that fails,
and hands to each node the scope that the visit right above gave.  So in a Python file the scope
counts the functions and the classes around a node, and a name that is assigned is a constant where
there are none, and a variable elsewhere. -/
theorem walk_visits_in_order :
    (∀ (κ σ ε α : Type) (visit : Site κ → σ → ExceptT ε (StateM α) σ) (start : σ) (root : Tree κ)
        (a : α), walk visit start root = root.preorder visit [] start ∧
      Visits visit start root (fun _ => none) root.places a ((walk visit start root).run.run a)) ∧
    (∀ (κ : Type) (root : Tree κ), root.places.Pairwise (· < ·) ∧
      ∀ place, place ∈ root.places ↔ (root.node? place).isSome = true) ∧
    (∀ (κ : Type) (s : Site κ), s.below.map Site.tree = s.tree.namedChildren) ∧
    (∀ (β : Type) (what : Site Python.Kind → Python.Depth → List β) (source : Array Char)
        (t : Python.PythonTree),
      t.gather (fun before d t => (what ⟨before, t⟩ d, (Python.visit source before d t).2)) .zero
        = t.collect fun around s => what s (Python.depth around)) ∧
    ∀ (language : String) (path : SourcePath) (source : List Char),
      (Python.read? language path source).map (fun f => f.names.constants)
          = (Python.tree? source).map (fun t => t.collect fun around s =>
            if ∀ a ∈ around, a.tree.kind ≠ some .function ∧ a.tree.kind ≠ some .class_ then
              Python.assigned source.toArray s.tree
            else []) ∧
        (Python.read? language path source).map (fun f => f.names.bindings)
          = (Python.tree? source).map (fun t => t.collect fun around s =>
            Python.parameters source.toArray s.tree ++
              if ∀ a ∈ around, a.tree.kind ≠ some .function ∧ a.tree.kind ≠ some .class_ then []
              else Python.assigned source.toArray s.tree) := by
  refine ⟨fun κ σ ε α visit start root a => ⟨walk_eq_preorder .., visits_walk ..⟩,
    fun κ root => ⟨Tree.pairwise_places root, fun place => Tree.mem_places [] root⟩,
    fun κ s => s.map_tree_below, fun β what source t => Python.gather_eq_collect source what t,
    fun language path source => ⟨?_, ?_⟩⟩
  · exact Python.map_constants_read? language path source
  · exact Python.map_bindings_read? language path source

end HouseStyle.Grammar
