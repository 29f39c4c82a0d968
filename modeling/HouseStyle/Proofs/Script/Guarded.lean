import HouseStyle.Proofs.Script.DocComment
import HouseStyle.Proofs.Script.Slices
import Mathlib.Tactic.Common

/-!
# Going through the lines of a script by number

The reader takes the lines of a script apart as a list, with the lines above a declaration the
nearest first.  Here the lines are asked for by their numbers, and the search for a doc comment and
the search for the end of a function move a number up and down.  A number that is no line is refused
(`lineAt`, `lineRange`), like the cuts in a line.  No step is refused, and what is found is what the
reader finds (`guardedRead_eq`).
-/

namespace HouseStyle.Script

open Text Survey

variable {dialect : Dialect} {ls : List Line}

/-- The line of a number. -/
def lineAt (ls : List Line) (i : Nat) : Except Breach Line :=
  match ls[i]? with
  | none => .error .line
  | some l => .ok l

/-- The lines from one number on, up to another one. -/
def lineRange (ls : List Line) (first last : Nat) : Except Breach (List Line) :=
  if first ≤ last ∧ last ≤ ls.length then .ok ((ls.take last).drop first) else .error .line

lemma lineAt_of_lt {i : Nat} (h : i < ls.length) : lineAt ls i = .ok ls[i] := by
  rw [lineAt, List.getElem?_eq_getElem h]

/-- The line above is the nearest one. -/
lemma reverse_take_succ {i : Nat} (h : i < ls.length) :
    (ls.take (i + 1)).reverse = ls[i] :: (ls.take i).reverse := by
  rw [List.take_succ_eq_append_getElem h, List.reverse_append, List.reverse_singleton,
    List.singleton_append]

lemma reverse_drop_take_succ {first i : Nat} (hfirst : first ≤ i) (h : i < ls.length) :
    ((ls.take (i + 1)).drop first).reverse = ls[i] :: ((ls.take i).drop first).reverse := by
  have hlength : first ≤ (ls.take i).length := by
    rw [List.length_take]
    omega
  rw [List.take_succ_eq_append_getElem h, List.drop_append_of_le_length hlength,
    List.reverse_append, List.reverse_singleton, List.singleton_append]

/-! ### Doc comments -/

/-- The number of lines above a declaration without the decorators right above it. -/
def belowDecorators (ls : List Line) : Nat → Except Breach Nat
  | 0 => .ok 0
  | i + 1 => do
    if (← lineAt ls i).isDecorator then belowDecorators ls i else .ok (i + 1)

/-- The line on which the block comment starts that ends on a line. -/
def blockTop (ls : List Line) : Nat → Except Breach Nat
  | 0 => .ok 0
  | top + 1 => do
    if (← lineAt ls (top + 1)).startsBlock then .ok (top + 1) else blockTop ls top

/-- The first of the comment lines right above a line. -/
def runTop (ls : List Line) : Nat → Except Breach Nat
  | 0 => .ok 0
  | top + 1 => do
    if startsWith (← lineAt ls top).start "//" then runTop ls top else .ok (top + 1)

/-- The doc comment of what is declared on a line. -/
def guardedDoc (ls : List Line) (start : Nat) : Except Breach (Option Doc) := do
  match ← belowDecorators ls start with
  | 0 => .ok none
  | last + 1 =>
    let l ← lineAt ls last
    if endsWith (trim l.raw) "*/" then
      let top ← blockTop ls last
      if startsWith (← lineAt ls top).start "/**" then
        .ok (some ⟨"/**", docFormat (joined (← lineRange ls top (last + 1)))⟩)
      else .ok none
    else if startsWith (trim l.raw) "//" then
      let top ← runTop ls last
      .ok (some ⟨"//", docFormat (joined (← lineRange ls top (last + 1)))⟩)
    else .ok none

lemma belowDecorators_eq {i : Nat} (h : i ≤ ls.length) :
    ∃ k ≤ i, belowDecorators ls i = .ok k ∧
      ((ls.take i).reverse.dropWhile fun l => startsWith l.start "@") = (ls.take k).reverse := by
  induction i with
  | zero => exact ⟨0, Nat.le_refl 0, rfl, rfl⟩
  | succ i ih =>
    rw [belowDecorators, lineAt_of_lt h, ok_bind, reverse_take_succ h, List.dropWhile_cons,
      ← Line.isDecorator]
    cases hdecorator : (ls[i]).isDecorator with
    | true =>
      obtain ⟨k, hk, hbelow, hdrop⟩ := ih (Nat.le_of_lt h)
      exact ⟨k, Nat.le_succ_of_le hk, by simpa using hbelow, by simpa using hdrop⟩
    | false => exact ⟨i + 1, Nat.le_refl _, rfl, by simp [reverse_take_succ h]⟩

/-- The search for the start of a block comment goes up to the line where the reader stops. -/
lemma blockTop_eq {i : Nat} (h : i < ls.length) :
    ∃ top l, top ≤ i ∧ blockTop ls i = .ok top ∧ ls[top]? = some l ∧
      blockUp (ls.take (i + 1)).reverse = ((ls.take (i + 1)).drop top).reverse ∧
      (blockUp (ls.take (i + 1)).reverse).getLast? = some l := by
  induction i with
  | zero =>
    refine ⟨0, ls[0], Nat.le_refl 0, rfl, List.getElem?_eq_getElem h, ?_⟩
    rw [reverse_take_succ h, blockUp, List.drop_zero, reverse_take_succ h]
    split <;> exact ⟨rfl, rfl⟩
  | succ i ih =>
    rw [blockTop, lineAt_of_lt h, ok_bind, reverse_take_succ h, blockUp, ← Line.startsBlock]
    cases hstart : (ls[i + 1]).startsBlock with
    | true =>
      refine ⟨i + 1, ls[i + 1], Nat.le_refl _, rfl, List.getElem?_eq_getElem h, ?_, rfl⟩
      rw [reverse_drop_take_succ (Nat.le_refl _) h]
      simp
    | false =>
      obtain ⟨top, l, htop, hblock, hl, hlines, hlast⟩ := ih (Nat.lt_of_succ_lt h)
      refine ⟨top, l, Nat.le_succ_of_le htop, by simpa using hblock, hl, ?_, ?_⟩
      · rw [reverse_drop_take_succ (Nat.le_succ_of_le htop) h, ← hlines]
        rfl
      · simp only [Bool.false_eq_true, if_false]
        rw [List.getLast?_cons, hlast, Option.getD_some]

lemma runTop_eq {i : Nat} (h : i ≤ ls.length) :
    ∃ top ≤ i, runTop ls i = .ok top ∧
      ((ls.take i).reverse.takeWhile fun l => startsWith l.start "//")
        = ((ls.take i).drop top).reverse := by
  induction i with
  | zero => exact ⟨0, Nat.le_refl 0, rfl, rfl⟩
  | succ i ih =>
    rw [runTop, lineAt_of_lt h, ok_bind, reverse_take_succ h, List.takeWhile_cons]
    cases hstart : startsWith (ls[i]).start "//" with
    | true =>
      obtain ⟨top, htop, hrun, htake⟩ := ih (Nat.le_of_lt h)
      refine ⟨top, Nat.le_succ_of_le htop, by simpa using hrun, ?_⟩
      rw [reverse_drop_take_succ htop h, ← htake]
      rfl
    | false =>
      refine ⟨i + 1, Nat.le_refl _, rfl, ?_⟩
      rw [List.drop_of_length_le (List.length_take_le _ _)]
      rfl

lemma lineRange_of_le {first last : Nat} (hfirst : first ≤ last) (hlast : last ≤ ls.length) :
    lineRange ls first last = .ok ((ls.take last).drop first) := if_pos ⟨hfirst, hlast⟩

/-- The text of lines that go upwards is that of the lines that go downwards. -/
lemma textUp_reverse (ls : List Line) : textUp ls.reverse = joined ls := by
  rw [textUp, List.reverse_reverse, joined]

lemma guardedDoc_eq {start : Nat} (h : start ≤ ls.length) :
    guardedDoc ls start = .ok (docAbove? (ls.take start).reverse) := by
  obtain ⟨k, hk, hbelow, hdrop⟩ := belowDecorators_eq h
  rw [guardedDoc, hbelow, ok_bind, docAbove?, hdrop]
  cases k with
  | zero => rfl
  | succ last =>
    have hlast : last < ls.length := Nat.lt_of_succ_le (Nat.le_trans hk h)
    obtain ⟨top, l, htop, hblock, hl, hlines, hfirst⟩ := blockTop_eq hlast
    obtain ⟨runs, hruns, hrun, htake⟩ := runTop_eq (Nat.le_of_lt hlast)
    have hline : lineAt ls top = .ok l := by rw [lineAt, hl]
    rw [hlines] at hfirst
    rw [reverse_take_succ hlast] at hlines ⊢
    simp only [lineAt_of_lt hlast, ok_bind, hblock, hrun, hline, hfirst, hlines, textUp_reverse,
      lineRange_of_le (Nat.le_succ_of_le htop) hlast, htake,
      lineRange_of_le (Nat.le_succ_of_le hruns) hlast, ← reverse_drop_take_succ hruns hlast]
    split_ifs <;> rfl

/-! ### Functions -/

/-- The last line of a function that was entered at depth `base` and starts on line `start` of
`total` lines, given its remaining lines, the first of which is `offset` lines below the first
one. -/
def endFrom (base start total depth : Nat) (opened : Bool) (offset : Nat) : List Line → Nat
  | [] => max (total - 1) start
  | l :: more =>
    let opened := opened || decide (0 < opens l.code)
    let depth := depthAfter depth l.code
    if opened && depth ≤ base then start + offset
    else if !opened && 2 ≤ offset then start
    else endFrom base start total depth opened (offset + 1) more

/-- The last line of the function that starts on a line. -/
def guardedEnd (ls : List Line) (start : Nat) : Except Breach Nat := do
  let l ← lineAt ls start
  if !l.code.contains '\x7b' && endsWith (trimEnd l.code) ";" then .ok start
  else .ok (endFrom l.depth start ls.length l.depth false 0 (← lineRange ls start ls.length))

/-- The decisions on a line. -/
def guardedFlow (code : List Char) : Except Breach ControlFlow := do
  let words ← (Forms.branch.matchesIn code).mapM fun p => group p 1
  .ok { ControlFlow.sum (words.map wordFlow) with
    junctions := (Forms.junction.matchesIn code).length
    conditionals := (Forms.conditional.matchesIn code).length }

/-- Whether a signature has types, where they are a matter of choice. -/
def guardedTypes (dialect : Dialect) (code : List Char) : Except Breach (Option Bool) :=
  match dialect with
  | .typed => (guardedAnnotated code).map some
  | .plain => .ok none

/-- What is found about a function that starts on a line. -/
def guardedFunction (dialect : Dialect) (ls : List Line) (start : Nat) (name : List Char) :
    Except Breach (List Finding) := do
  let last ← guardedEnd ls start
  let flows ← (← lineRange ls start (last + 1)).mapM fun m => guardedFlow m.code
  let doc ← guardedDoc ls start
  let code := (← lineAt ls start).code
  let parameters ← guardedParameters code
  let annotated ← guardedTypes dialect code
  let further ← minus last start
  let name := String.ofList (name.dropWhile (· == '#'))
  .ok ((doc.toList.flatMap fun d => [.docDelimiter d.delimiter, .docFormat d.format])
    ++ parameters.map (fun p => .name ⟨.binding, String.ofList p⟩)
    ++ (if name = "constructor" then [] else [.name ⟨.function, name⟩])
    ++ [.function ⟨name, start + 1, further + 1, ControlFlow.sum flows, doc.isSome, annotated⟩])

lemma bodyLines_pos {base depth : Nat} {opened : Bool} {before : Nat} {rest : List Line}
    (h : 0 < before + rest.length) : 0 < bodyLines base depth opened before rest := by
  induction rest generalizing depth opened before with
  | nil => exact h
  | cons l more ih =>
    rw [bodyLines]
    split_ifs
    · exact Nat.succ_pos before
    · exact Nat.one_pos
    · exact ih (by omega)

lemma bodyLines_le (base depth : Nat) (opened : Bool) (before : Nat) (rest : List Line) :
    bodyLines base depth opened before rest ≤ before + rest.length := by
  induction rest generalizing depth opened before with
  | nil => exact Nat.le_refl _
  | cons l more ih =>
    rw [bodyLines, List.length_cons]
    split_ifs
    · omega
    · omega
    · have hmore := ih (depthAfter depth l.code) (opened || decide (0 < opens l.code)) (before + 1)
      omega

/-- A function takes up at least its first line and at most the rest of the file. -/
lemma extent_bounds (l : Line) (below : List Line) :
    0 < extent (l :: below) ∧ extent (l :: below) ≤ (l :: below).length := by
  rw [extent]
  split
  · exact ⟨Nat.one_pos, Nat.succ_pos _⟩
  · refine ⟨bodyLines_pos (by simp), ?_⟩
    have hle := bodyLines_le l.depth l.depth false 0 (l :: below)
    omega

lemma endFrom_eq {base start total depth : Nat} {opened : Bool} {offset : Nat} {rest : List Line}
    (htotal : start + offset + rest.length = total) (hstart : start < total) :
    endFrom base start total depth opened offset rest + 1
      = start + bodyLines base depth opened offset rest := by
  induction rest generalizing depth opened offset with
  | nil =>
    rw [endFrom, bodyLines]
    rw [List.length_nil] at htotal
    omega
  | cons l more ih =>
    rw [endFrom, bodyLines]
    rw [List.length_cons] at htotal
    split_ifs
    · omega
    · rfl
    · exact ih (by omega)

/-- The last line of a function is as far below the first one as its number of lines says. -/
lemma guardedEnd_eq {start : Nat} {l : Line} {below : List Line} (h : ls.drop start = l :: below) :
    ∃ last, guardedEnd ls start = .ok last ∧ last + 1 = start + extent (l :: below) := by
  have hl : ls[start]? = some l := by rw [← List.head?_drop, h, List.head?_cons]
  obtain ⟨hstart, hget⟩ := List.getElem?_eq_some_iff.1 hl
  have hlength : start + 0 + (l :: below).length = ls.length := by
    rw [← h, List.length_drop]
    omega
  have hrange : lineRange ls start ls.length = .ok (l :: below) := by
    rw [lineRange_of_le (Nat.le_of_lt hstart) (Nat.le_refl _), List.take_length, h]
  rw [guardedEnd, lineAt_of_lt hstart, ok_bind, hget, hrange, ok_bind, extent]
  split
  · exact ⟨start, rfl, rfl⟩
  · exact ⟨_, rfl, endFrom_eq hlength hstart⟩

lemma guardedFlow_eq (code : List Char) : guardedFlow code = .ok (lineFlow code) := by
  have hwords : (Forms.branch.matchesIn code).mapM (fun p => group p 1)
      = .ok ((Forms.branch.matchesIn code).map fun p => p.kept 1) :=
    mapM_eq_ok fun p hp => group_of_mem_matchesIn rfl hp
  rw [guardedFlow, hwords, ok_bind, List.map_map, lineFlow]
  rfl

lemma guardedTypes_eq (code : List Char) : guardedTypes dialect code
    = .ok (match dialect with | .typed => some (isAnnotated code) | .plain => none) := by
  cases dialect with
  | typed => rw [guardedTypes, guardedAnnotated_eq, map_ok]
  | plain => rfl

lemma guardedFunction_eq {start : Nat} {l : Line} {below : List Line}
    (h : ls.drop start = l :: below) (name : List Char) :
    guardedFunction dialect ls start name
      = .ok (functionFindings dialect (ls.take start).reverse l below name) := by
  have hl : ls[start]? = some l := by rw [← List.head?_drop, h, List.head?_cons]
  obtain ⟨hstart, hget⟩ := List.getElem?_eq_some_iff.1 hl
  obtain ⟨last, hend, hextent⟩ := guardedEnd_eq h
  obtain ⟨hpos, hle⟩ := extent_bounds l below
  have hlength : (l :: below).length = ls.length - start := by rw [← h, List.length_drop]
  have hrange : lineRange ls start (last + 1) = .ok ((l :: below).take (extent (l :: below))) := by
    rw [lineRange_of_le (by omega) (by omega), List.drop_take, h]
    congr 2
    omega
  have hflows : ((l :: below).take (extent (l :: below))).mapM (fun m => guardedFlow m.code)
      = .ok (((l :: below).take (extent (l :: below))).map fun m => lineFlow m.code) :=
    mapM_eq_ok fun m _ => guardedFlow_eq m.code
  have hfurther : minus last start = .ok (extent (l :: below) - 1) := by
    rw [minus, if_pos (by omega)]
    congr 1
    omega
  have habove : (ls.take start).reverse.length = start := by
    rw [List.length_reverse, List.length_take_of_le (Nat.le_of_lt hstart)]
  rw [guardedFunction, hend, ok_bind, hrange, ok_bind, hflows, ok_bind,
    guardedDoc_eq (Nat.le_of_lt hstart), ok_bind, lineAt_of_lt hstart, ok_bind, hget]
  dsimp only
  rw [guardedParameters_eq, ok_bind, guardedTypes_eq, ok_bind, hfurther, ok_bind]
  cases dialect <;> simp only [functionFindings, habove, Nat.sub_add_cancel hpos]

/-! ### Names, variables and imports -/

/-- The name of the class or type that is declared on a line. -/
def guardedTypeName (dialect : Dialect) (code : List Char) :
    Except Breach (Option (List Char)) := do
  match ← guardedDeclared Forms.classDeclaration code with
  | some name => .ok (some name)
  | none =>
    match dialect with
    | .typed => guardedDeclared Forms.typeDeclaration code
    | .plain => .ok none

/-- The name of the member of a class that is declared on a line. -/
def guardedMember (code : List Char) : Except Breach (Option (List Char)) := do
  match ← guardedDeclared Forms.arrowMember code with
  | some name => .ok (some name)
  | none =>
    if endsWith (trimEnd code) ";" then .ok none
    else
      let name ← guardedDeclared Forms.method code
      .ok (name.filter fun name => !notMethods.contains (String.ofList name))

/-- The name of the function that is declared on a line. -/
def guardedFunctionName (inClass : Bool) (code : List Char) :
    Except Breach (Option (List Char)) := do
  match ← guardedDeclared Forms.functionDeclaration code with
  | some name => .ok (some name)
  | none =>
    match ← guardedDeclared Forms.functionVariable code with
    | some name => .ok (some name)
    | none => if inClass then guardedMember code else .ok none

/-- The variables that are declared on a line. -/
def guardedVariables (l : Line) : Except Breach (List Finding) :=
  (Forms.variableDeclaration.matchesIn l.code).mapM fun p => do
    let word ← group p 1
    let name ← group p 2
    let kind := if word = "const".toList ∧ l.depth = 0 then NameKind.constant else .binding
    .ok (.name ⟨kind, String.ofList name⟩)

/-- The module that a form imports on a line, without names. -/
def guardedModule (form : Expression) (number : Nat) (raw : List Char) :
    Except Breach (Option ImportFacts) := do
  .ok ((← guardedDeclared form raw).map fun module => imported number module false)

/-- The import statement on a line. -/
def guardedStatement (number : Nat) (l : Line) : Except Breach (Option ImportFacts) :=
  let code := trimStart l.code
  if startsWith code "import" || startsWith code "export" then
    match Forms.importFrom.matchStart? l.raw with
    | some p => do
      let names ← group p 1
      .ok (some (imported number (← group p 2) (startsWith (trim names) "*")))
    | none => guardedModule Forms.importBare number l.raw
  else if startsWith code "\x7d" then guardedModule Forms.importTail number l.raw
  else .ok none

/-- The imports on a line. -/
def guardedImports (number : Nat) (l : Line) : Except Breach (List ImportFacts) := do
  match ← guardedStatement number l with
  | some i => .ok [i]
  | none =>
    if holds l.code "require(" then
      (Forms.required.matchesIn l.raw).mapM fun p => do
        .ok (imported number (← group p 1) false)
    else .ok []

lemma guardedTypeName_eq (code : List Char) :
    guardedTypeName dialect code = .ok (typeName? dialect code) := by
  unfold guardedTypeName typeName?
  rw [guardedDeclared_eq rfl, ok_bind]
  cases declared? Forms.classDeclaration code with
  | some name => rfl
  | none =>
    cases dialect with
    | typed => exact guardedDeclared_eq rfl code
    | plain => rfl

lemma guardedMember_eq (code : List Char) : guardedMember code = .ok (member? code) := by
  rw [guardedMember, guardedDeclared_eq rfl, ok_bind, member?]
  cases declared? Forms.arrowMember code with
  | some name => rfl
  | none =>
    dsimp only
    rw [guardedDeclared_eq rfl, ok_bind]
    split <;> rfl

lemma guardedFunctionName_eq (inClass : Bool) (code : List Char) :
    guardedFunctionName inClass code = .ok (functionName? inClass code) := by
  rw [guardedFunctionName, guardedDeclared_eq rfl, ok_bind, functionName?]
  cases declared? Forms.functionDeclaration code with
  | some name => rfl
  | none =>
    dsimp only
    rw [guardedDeclared_eq rfl, ok_bind]
    cases declared? Forms.functionVariable code with
    | some name => rfl
    | none =>
      dsimp only
      rw [guardedMember_eq]
      split <;> rfl

lemma guardedVariables_eq (l : Line) : guardedVariables l = .ok (variableFindings l) :=
  mapM_eq_ok fun p hp => by
    rw [group_of_mem_matchesIn rfl hp, ok_bind, group_of_mem_matchesIn rfl hp, ok_bind]

lemma guardedModule_eq {form : Expression} (hbinds : form.binds 1 = true) (number : Nat)
    (raw : List Char) : guardedModule form number raw
      = .ok ((form.matchStart? raw).map fun p => imported number (p.kept 1) false) := by
  rw [guardedModule, guardedDeclared_eq hbinds, ok_bind, declared?, Option.map_map]
  rfl

lemma guardedStatement_eq (number : Nat) (l : Line) :
    guardedStatement number l = .ok (importStatement? number l) := by
  rw [guardedStatement, importStatement?, guardedModule_eq rfl, guardedModule_eq rfl]
  split
  · cases hp : Forms.importFrom.matchStart? l.raw with
    | none => rfl
    | some p =>
      dsimp only
      rw [group_of_matchStart? rfl hp, ok_bind, group_of_matchStart? rfl hp, ok_bind]
  · split <;> rfl

lemma guardedImports_eq (number : Nat) (l : Line) :
    guardedImports number l = .ok (imports number l) := by
  rw [guardedImports, guardedStatement_eq, ok_bind, imports, requiredModules]
  cases importStatement? number l with
  | some i => rfl
  | none =>
    dsimp only
    split
    · exact mapM_eq_ok fun p hp => by rw [group_of_mem_matchesIn rfl hp, ok_bind]
    · rfl

/-! ### A whole file -/

/-- What is found on the line of a number if it declares no type. -/
def guardedOthers (dialect : Dialect) (ls : List Line) (bodies : List Nat) (i : Nat) (l : Line) :
    Except Breach (List Finding) := do
  match ← guardedFunctionName ((openBodies l.depth bodies).head? == some l.depth) l.code with
  | some name => guardedFunction dialect ls i name
  | none => guardedVariables l

/-- What is found on the line of a number. -/
def guardedLine (dialect : Dialect) (ls : List Line) (bodies : List Nat) (i : Nat) (l : Line) :
    Except Breach (List Finding) := do
  if l.isBlank then .ok []
  else
    let found ← guardedImports (i + 1) l
    match ← guardedTypeName dialect l.code with
    | some name =>
      let doc ← guardedDoc ls i
      let name := String.ofList name
      .ok (found.map .imported
        ++ ((doc.toList.flatMap fun d => [.docDelimiter d.delimiter, .docFormat d.format])
          ++ [.name ⟨.type, name⟩, .type ⟨name, i + 1, doc.isSome⟩]))
    | none => .ok (found.map .imported ++ (← guardedOthers dialect ls bodies i l))

/-- What is found on the lines of a script from a number on. -/
def guardedFindings (dialect : Dialect) (ls : List Line) (bodies : List Nat) (i : Nat) :
    List Line → Except Breach (List Finding)
  | [] => .ok []
  | l :: below => do
    let here ← guardedLine dialect ls bodies i l
    let further ← guardedFindings dialect ls (bodiesBelow dialect bodies l) (i + 1) below
    .ok (here ++ further)

/-- The indentation of the margins of lines, the line before them standing at `previous`. -/
def guardedMargins (previous : Nat) : List (List Char) → Except Breach Indentation
  | [] => .ok .none
  | m :: rest => do
    let later ← guardedMargins (column m) rest
    match m with
    | ' ' :: _ =>
      let later := { later with spaceLines := later.spaceLines + 1 }
      if previous < m.length then
        .ok { later with steps := later.steps.add (Nat.repr (← minus m.length previous)) }
      else .ok later
    | '\t' :: _ => .ok { later with tabLines := later.tabLines + 1 }
    | _ => .ok later

/-- The facts about a script. -/
def guardedRead (dialect : Dialect) (language : String) (path : SourcePath) (source : List Char) :
    Except Breach FileFacts := do
  let (ls, quotes) ← guardedLines ⟨false, false⟩ 0 (lines source)
  let found ← guardedFindings dialect ls [] 0 ls
  let indentation ← guardedMargins 0 ((filledLines source).map margin)
  .ok { fileFacts path language source
      (.quotes quotes :: found ++ frameworkFindings path.isTest ls found) with indentation }

lemma guardedLine_eq (bodies : List Nat) {i : Nat} {l : Line} {below : List Line}
    (h : ls.drop i = l :: below) :
    guardedLine dialect ls bodies i l
      = .ok (lineFindings dialect bodies (ls.take i).reverse l below) := by
  have hl : ls[i]? = some l := by rw [← List.head?_drop, h, List.head?_cons]
  obtain ⟨hi, -⟩ := List.getElem?_eq_some_iff.1 hl
  have habove : (ls.take i).reverse.length = i := by
    rw [List.length_reverse, List.length_take_of_le (Nat.le_of_lt hi)]
  rw [guardedLine, lineFindings, guardedImports_eq, guardedTypeName_eq, ok_bind, ok_bind,
    guardedDoc_eq (Nat.le_of_lt hi), guardedOthers, guardedFunctionName_eq, ok_bind, habove]
  split
  · rfl
  · cases typeName? dialect l.code with
    | some name => simp only [typeFindings, habove, ok_bind]
    | none =>
      dsimp only
      cases functionName? ((openBodies l.depth bodies).head? == some l.depth) l.code with
      | some name =>
        dsimp only
        rw [guardedFunction_eq h, ok_bind]
      | none =>
        dsimp only
        rw [guardedVariables_eq, ok_bind]

lemma guardedFindings_eq (bodies : List Nat) {i : Nat} {rest : List Line} (h : ls.drop i = rest) :
    guardedFindings dialect ls bodies i rest
      = .ok (findings dialect bodies (ls.take i).reverse rest) := by
  induction rest generalizing bodies i with
  | nil => rfl
  | cons l below ih =>
    have hl : ls[i]? = some l := by rw [← List.head?_drop, h, List.head?_cons]
    obtain ⟨hi, hget⟩ := List.getElem?_eq_some_iff.1 hl
    have hbelow : ls.drop (i + 1) = below := by
      rw [← List.drop_drop, h, List.drop_succ_cons, List.drop_zero]
    have hfurther := ih (bodiesBelow dialect bodies l) hbelow
    rw [reverse_take_succ hi, hget] at hfurther
    rw [guardedFindings, guardedLine_eq bodies h, ok_bind, hfurther, ok_bind, findings_cons]

lemma guardedMargins_eq (previous : Nat) (margins : List (List Char)) :
    guardedMargins previous margins = .ok (marginsIndentation previous margins) := by
  induction margins generalizing previous with
  | nil => rfl
  | cons m rest ih =>
    rw [guardedMargins, ih, ok_bind]
    split
    next cs =>
      rw [marginsIndentation]
      by_cases hlt : previous < (' ' :: cs).length
      · rw [if_pos hlt, if_pos hlt, minus, if_pos (Nat.le_of_lt hlt), ok_bind]
      · rw [if_neg hlt, if_neg hlt]
    next => rw [marginsIndentation]
    next hspace htab =>
      rw [marginsIndentation]
      exacts [hspace, htab]

/-- A script is read without a step that is refused. -/
lemma guardedRead_eq (language : String) (path : SourcePath) (source : List Char) :
    guardedRead dialect language path source = .ok (read dialect language path source) := by
  have hfound : guardedFindings dialect (rescanned source).1 [] 0 (rescanned source).1
      = .ok (findings dialect [] [] (rescanned source).1) := guardedFindings_eq [] rfl
  rw [guardedRead, guardedLines_eq, ok_bind]
  change (guardedFindings dialect (rescanned source).1 [] 0 (rescanned source).1 >>= _) = _
  rw [hfound, ok_bind, guardedMargins_eq, ok_bind]
  rfl

end HouseStyle.Script
