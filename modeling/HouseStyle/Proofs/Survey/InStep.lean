import HouseStyle.Proofs.Script.Recorded
import HouseStyle.Proofs.Survey.Found

/-!
# Doc comments are noted in step

A doc comment is noted three times: by how it begins, by its format, and by what is said about the
function or type that has it.  Each reader makes these notes where it records functions and where it
records types.  At each of these places as many of them are made of every sort (`InStep`), so they
are when a tree is searched or a script is gone through line by line.
-/

namespace HouseStyle

namespace Survey

/-- Whether a finding is a function or type with a doc comment. -/
def Finding.isDocumented : Finding → Bool
  | .function f => f.documented
  | .type t => t.documented
  | _ => false

/-- Whether a finding says nothing of a doc comment. -/
def Finding.isAside : Finding → Bool
  | .function f => !f.documented
  | .type t => !t.documented
  | .docDelimiter _ | .docFormat _ => false
  | _ => true

/-- Findings among which there are as many beginnings and as many formats of doc comments as
functions and types with one. -/
structure InStep (found : List Finding) : Prop where
  delimiters : found.countP (·.docDelimiter?.isSome) = found.countP Finding.isDocumented
  formats : found.countP (·.docFormat?.isSome) = found.countP Finding.isDocumented

namespace InStep

variable {found found' : List Finding}

lemma nil : InStep [] := ⟨rfl, rfl⟩

lemma append (h : InStep found) (h' : InStep found') : InStep (found ++ found') where
  delimiters := by rw [List.countP_append, List.countP_append, h.delimiters, h'.delimiters]
  formats := by rw [List.countP_append, List.countP_append, h.formats, h'.formats]

/-- What says nothing of doc comments is in step. -/
lemma of_isAside (h : ∀ x ∈ found, x.isAside = true) : InStep found := by
  have hnone : ∀ x ∈ found, x.docDelimiter?.isSome = false ∧ x.docFormat?.isSome = false ∧
      x.isDocumented = false := by
    intro x hx
    have haside := h x hx
    cases x with
    | function | type =>
      exact ⟨rfl, rfl, by simpa [Finding.isAside, Finding.isDocumented] using haside⟩
    | docDelimiter | docFormat => cases haside
    | name | imported | quotes | framework => exact ⟨rfl, rfl, rfl⟩
  have hdocumented : found.countP Finding.isDocumented = 0 :=
    List.countP_eq_zero.2 fun x hx => by simp [(hnone x hx).2.2]
  constructor
  · rw [hdocumented, List.countP_eq_zero]
    exact fun x hx => by simp [(hnone x hx).1]
  · rw [hdocumented, List.countP_eq_zero]
    exact fun x hx => by simp [(hnone x hx).2.1]

lemma flatMap {α : Type} {l : List α} {f : α → List Finding} (h : ∀ a ∈ l, InStep (f a)) :
    InStep (l.flatMap f) := by
  induction l with
  | nil => exact nil
  | cons a l ih =>
    obtain ⟨ha, hl⟩ := List.forall_mem_cons.1 h
    rw [List.flatMap_cons]
    exact ha.append (ih hl)

/-- A function or type is recorded in step if it is said to have a doc comment exactly where one is
noted before it. -/
lemma item {α : Type} (doc : Option α) (delimiter : α → String) (format : α → DocFormat)
    (hfound : ∀ x ∈ found, x.isAside = true) {x : Finding} (hx : x.isDocumented = doc.isSome)
    (hrest : x.isAside = !doc.isSome) :
    InStep ((doc.toList.flatMap fun d => [.docDelimiter (delimiter d), .docFormat (format d)])
      ++ found ++ [x]) := by
  cases doc with
  | none => exact (nil.append (of_isAside hfound)).append (of_isAside (by simpa using hrest))
  | some d =>
    have hfound := of_isAside hfound
    have hnone : x.docDelimiter?.isSome = false ∧ x.docFormat?.isSome = false := by
      cases x with
      | docDelimiter | docFormat => cases hx
      | _ => exact ⟨rfl, rfl⟩
    have hnotes : (Finding.docDelimiter (delimiter d)).isDocumented = false ∧
      (Finding.docFormat (format d)).isDocumented = false := ⟨rfl, rfl⟩
    change InStep (.docDelimiter (delimiter d) :: .docFormat (format d) :: (found ++ [x]))
    constructor
    · rw [List.countP_cons_of_pos rfl, List.countP_cons_of_neg (by simp [Finding.docDelimiter?]),
        List.countP_cons_of_neg (by simp [hnotes]), List.countP_cons_of_neg (by simp [hnotes]),
        List.countP_append, List.countP_append, hfound.delimiters, List.countP_singleton,
        List.countP_singleton, hx, hnone.1]
      rfl
    · rw [List.countP_cons_of_neg (by simp [Finding.docFormat?]), List.countP_cons_of_pos rfl,
        List.countP_cons_of_neg (by simp [hnotes]), List.countP_cons_of_neg (by simp [hnotes]),
        List.countP_append, List.countP_append, hfound.formats, List.countP_singleton,
        List.countP_singleton, hx, hnone.2]
      rfl

end InStep

end Survey

/-! ### Trees -/

namespace Grammar

open Survey

section Search

variable {κ σ : Type} {visit : List (Tree κ) → σ → Tree κ → List Finding × σ}

mutual

/-- What a search finds is in step if it is at each node. -/
lemma Tree.inStep_search (h : ∀ before scope t, InStep (visit before scope t).1)
    (before : List (Tree κ)) (scope : σ) : (t : Tree κ) → InStep (t.search visit before scope)
  | .node l cs => by
    rw [Tree.search]
    exact (h before scope (.node l cs)).append (Tree.inStep_searchAll h [] _ cs)

lemma Tree.inStep_searchAll (h : ∀ before scope t, InStep (visit before scope t).1)
    (before : List (Tree κ)) (scope : σ) :
    (cs : List (Tree κ)) → InStep (Tree.searchAll visit before scope cs)
  | [] => InStep.nil
  | c :: cs => by
    rw [Tree.searchAll]
    refine InStep.append ?_ (Tree.inStep_searchAll h (c :: before) scope cs)
    split
    · exact Tree.inStep_search h before scope c
    · exact InStep.nil

end

end Search

namespace Python

lemma inStep_functionFindings (source : Array Char) (t : PythonTree) :
    InStep (functionFindings source t) := by
  have hnames : ∀ x ∈ ((((parametersOf t).filterMap (parameterName? source)).filter fun p =>
      !receivers.contains p).map fun p => Finding.name ⟨.binding, p⟩)
        ++ [.name ⟨.function, declaredName source t⟩], x.isAside = true :=
    List.forall_mem_append.2 ⟨List.forall_mem_map.2 fun _ _ => rfl, List.forall_mem_singleton.2 rfl⟩
  have h := InStep.item (doc? source t) Doc.delimiter Doc.format hnames
    (x := .function ⟨declaredName source t, t.startLine, t.lineCount, t.controlFlow decision,
      (doc? source t).isSome, some (isAnnotated t)⟩) rfl rfl
  rw [← List.append_assoc, List.append_assoc] at h
  exact h

lemma inStep_classFindings (source : Array Char) (t : PythonTree) :
    InStep (classFindings source t) := by
  have hname : ∀ x ∈ [Finding.name ⟨.type, declaredName source t⟩], x.isAside = true :=
    List.forall_mem_singleton.2 rfl
  have h := InStep.item (doc? source t) Doc.delimiter Doc.format hname
    (x := .type ⟨declaredName source t, t.startLine, (doc? source t).isSome⟩) rfl rfl
  rw [List.append_assoc] at h
  exact h

lemma inStep_visit (source : Array Char) (before : List PythonTree) (depth : Depth)
    (t : PythonTree) : InStep (visit source before depth t).1 := by
  rw [visit]
  split
  · exact inStep_functionFindings source t
  · exact inStep_classFindings source t
  · refine InStep.of_isAside fun x hx => ?_
    rw [assignmentFindings] at hx
    split at hx
    · obtain ⟨name, -, rfl⟩ := List.mem_map.1 hx
      rfl
    · cases hx
  · exact InStep.of_isAside (List.forall_mem_map.2 fun _ _ => rfl)
  · exact InStep.of_isAside (List.forall_mem_singleton.2 rfl)
  · dsimp only
    split
    · exact InStep.of_isAside (List.forall_mem_singleton.2 rfl)
    · exact InStep.of_isAside (List.forall_mem_singleton.2 rfl)
    · exact InStep.nil
  · exact InStep.nil

end Python

namespace Go

lemma inStep_functionFindings (source : Array Char) (before : List GoTree) (t : GoTree) :
    InStep (functionFindings source before t) := by
  have hname : ∀ x ∈ [Finding.name ⟨.function, declaredName source t⟩], x.isAside = true :=
    List.forall_mem_singleton.2 rfl
  have h := InStep.item (docText? source before t) docDelimiter (formatFor (declaredName source t))
    hname (x := .function ⟨declaredName source t, t.startLine, t.lineCount, t.controlFlow decision,
      (docText? source before t).isSome, none⟩) rfl rfl
  rw [List.append_assoc] at h
  exact h

/-- The types of a declaration share its doc comment, which is noted for each of them. -/
lemma inStep_typeFindings (source : Array Char) (before : List GoTree) (t : GoTree) :
    InStep (typeFindings source before t) := by
  refine InStep.flatMap fun c _ => ?_
  have hname : ∀ x ∈ [Finding.name ⟨.type, declaredName source c⟩], x.isAside = true :=
    List.forall_mem_singleton.2 rfl
  have h := InStep.item (docText? source before t) docDelimiter (formatFor (declaredName source c))
    hname (x := .type ⟨declaredName source c, c.startLine, (docText? source before t).isSome⟩)
    rfl rfl
  rw [List.append_assoc] at h
  exact h

lemma inStep_visit (source : Array Char) (before : List GoTree) (scope : Unit) (t : GoTree) :
    InStep (visit source before scope t).1 := by
  dsimp only [visit]
  split
  · exact inStep_functionFindings source before t
  · exact inStep_typeFindings source before t
  · exact InStep.of_isAside (List.forall_mem_map.2 fun _ _ => rfl)
  · exact InStep.of_isAside (List.forall_mem_map.2 fun _ _ => rfl)
  · exact InStep.of_isAside (List.forall_mem_map.2 fun _ _ => rfl)
  · exact InStep.of_isAside (List.forall_mem_map.2 fun _ _ => rfl)
  · exact InStep.of_isAside (List.forall_mem_singleton.2 rfl)
  · exact InStep.nil

end Go

namespace Rust

/-- The beginning and the format of a doc comment are noted together, where there is one. -/
lemma exists_docFindings (source : Array Char) (before : List RustTree) (t : RustTree) :
    ∃ doc : Option (String × DocFormat), docFindings source before t
      = (doc.toList.flatMap fun d => [.docDelimiter d.1, .docFormat d.2], doc.isSome) := by
  rw [docFindings]
  dsimp only
  split
  · exact ⟨none, rfl⟩
  · exact ⟨some (_, _), rfl⟩

lemma inStep_functionFindings (source : Array Char) (before : List RustTree) (t : RustTree) :
    InStep (functionFindings source before t) := by
  obtain ⟨doc, hdoc⟩ := exists_docFindings source before t
  have hname : ∀ x ∈ [Finding.name ⟨.function, declaredName source t⟩], x.isAside = true :=
    List.forall_mem_singleton.2 rfl
  have h := InStep.item doc Prod.fst Prod.snd hname (x := .function ⟨declaredName source t,
    t.startLine, t.lineCount, t.controlFlow decision, doc.isSome, none⟩) rfl rfl
  rw [List.append_assoc] at h
  rw [functionFindings, hdoc]
  exact h

lemma inStep_typeFindings (source : Array Char) (before : List RustTree) (t : RustTree) :
    InStep (typeFindings source before t) := by
  obtain ⟨doc, hdoc⟩ := exists_docFindings source before t
  have hname : ∀ x ∈ [Finding.name ⟨.type, declaredName source t⟩], x.isAside = true :=
    List.forall_mem_singleton.2 rfl
  have h := InStep.item doc Prod.fst Prod.snd hname
    (x := .type ⟨declaredName source t, t.startLine, doc.isSome⟩) rfl rfl
  rw [List.append_assoc] at h
  rw [typeFindings, hdoc]
  exact h

lemma inStep_visit (source : Array Char) (before : List RustTree) (scope : Unit) (t : RustTree) :
    InStep (visit source before scope t).1 := by
  have hpattern : InStep (patternFindings source t) := by
    rw [patternFindings]
    split
    · exact InStep.of_isAside (List.forall_mem_map.2 fun _ _ => rfl)
    · exact InStep.nil
  dsimp only [visit]
  split
  · exact inStep_functionFindings source before t
  · exact inStep_typeFindings source before t
  · exact hpattern
  · exact hpattern
  · exact InStep.of_isAside (List.forall_mem_singleton.2 rfl)
  · cases t.inRole? .module with
    | none => exact InStep.nil
    | some m => exact InStep.of_isAside (List.forall_mem_singleton.2 rfl)
  · cases attributeFramework? (t.text source) with
    | none => exact InStep.nil
    | some label => exact InStep.of_isAside (List.forall_mem_singleton.2 rfl)
  · split
    · exact InStep.of_isAside (List.forall_mem_singleton.2 rfl)
    · exact InStep.nil
  · exact InStep.nil

end Rust

end Grammar

/-! ### Scripts -/

namespace Script

open Survey

variable {dialect : Dialect}

lemma inStep_functionFindings (above : List Line) (l : Line) (below : List Line)
    (name : List Char) : InStep (functionFindings dialect above l below name) := by
  have hnames : ∀ x ∈ ((parameterNames l.code).map fun p =>
        Finding.name ⟨.binding, String.ofList p⟩)
      ++ (if String.ofList (name.dropWhile (· == '#')) = "constructor" then []
        else [Finding.name ⟨.function, String.ofList (name.dropWhile (· == '#'))⟩]),
      x.isAside = true := by
    refine List.forall_mem_append.2 ⟨List.forall_mem_map.2 fun _ _ => rfl, ?_⟩
    split
    · exact List.forall_mem_nil _
    · exact List.forall_mem_singleton.2 rfl
  simp only [functionFindings]
  rw [List.append_assoc (List.flatMap _ _)]
  exact InStep.item (docAbove? above) Doc.delimiter Doc.format hnames rfl rfl

lemma inStep_typeFindings (above : List Line) (name : List Char) :
    InStep (typeFindings above name) := by
  have hname : ∀ x ∈ [Finding.name ⟨.type, String.ofList name⟩], x.isAside = true :=
    List.forall_mem_singleton.2 rfl
  have h := InStep.item (docAbove? above) Doc.delimiter Doc.format hname
    (x := .type ⟨String.ofList name, above.length + 1, (docAbove? above).isSome⟩) rfl rfl
  rw [List.append_assoc] at h
  exact h

lemma inStep_lineFindings (bodies : List Nat) (above : List Line) (l : Line) (below : List Line) :
    InStep (lineFindings dialect bodies above l below) := by
  rw [lineFindings]
  split
  · exact InStep.nil
  · refine InStep.append (InStep.of_isAside (List.forall_mem_map.2 fun _ _ => rfl)) ?_
    split
    · exact inStep_typeFindings above _
    · split
      · exact inStep_functionFindings above l below _
      · exact InStep.of_isAside (List.forall_mem_map.2 fun _ _ => rfl)

/-- What is found on some lines is in step if it is on each of them. -/
lemma inStep_findings (bodies : List Nat) (above ls : List Line) :
    InStep (findings dialect bodies above ls) := by
  induction ls generalizing bodies above with
  | nil => exact InStep.nil
  | cons l below ih =>
    rw [findings_cons]
    exact (inStep_lineFindings bodies above l below).append (ih _ _)

end Script

end HouseStyle
