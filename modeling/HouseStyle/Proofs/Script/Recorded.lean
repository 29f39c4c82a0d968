import HouseStyle.Proofs.Script.OnePass
import HouseStyle.Script.Reader
import Mathlib.Tactic.Common

/-!
# Where things are found in a script

Everything that is found in a script is found on one of its lines.  What is known about a function
is read off the line on which it starts, the lines above it and the lines below it.

What is found on a line depends on the lines above it only by their number, their text and the class
bodies that are open (`lineFindings`), and the lines add up what they have (`findings_cons`).
-/

namespace HouseStyle

namespace Script

open Survey

variable {dialect : Dialect}

/-! ### Line by line -/

/-- What is found on a line between the lines above it and those below it, given the depths of the
bodies of the classes that were open above it. -/
def lineFindings (dialect : Dialect) (bodies : List Nat) (above : List Line) (l : Line)
    (below : List Line) : List Finding :=
  if l.isBlank then []
  else
    (imports (above.length + 1) l).map Finding.imported ++
      match typeName? dialect l.code with
      | some name => typeFindings above name
      | none =>
        match functionName? ((openBodies l.depth bodies).head? == some l.depth) l.code with
        | some name => functionFindings dialect above l below name
        | none => variableFindings l

/-- The depths of the bodies of the classes that are open below a line. -/
def bodiesBelow (dialect : Dialect) (bodies : List Nat) (l : Line) : List Nat :=
  if l.isBlank then bodies
  else if (typeName? dialect l.code).isSome && Text.holds (Text.trimStart l.code) "class " then
    (l.depth + 1) :: openBodies l.depth bodies
  else openBodies l.depth bodies

/-- A line adds to what is found on the lines below it. -/
lemma findings_cons (bodies : List Nat) (above : List Line) (l : Line) (below : List Line) :
    findings dialect bodies above (l :: below) = lineFindings dialect bodies above l below
      ++ findings dialect (bodiesBelow dialect bodies l) (l :: above) below := by
  rw [findings, lineFindings, bodiesBelow]
  split
  · rfl
  · cases htype : typeName? dialect l.code with
    | some name => simp [List.append_assoc]
    | none => rfl

/-- What is found on some lines is found on one of them. -/
lemma exists_mem_lineFindings {bodies : List Nat} {above ls : List Line} {x : Finding}
    (h : x ∈ findings dialect bodies above ls) :
    ∃ before l below bodies', ls = before ++ l :: below ∧
      x ∈ lineFindings dialect bodies' (before.reverse ++ above) l below := by
  induction ls generalizing bodies above with
  | nil => cases h
  | cons l below ih =>
    rw [findings_cons, List.mem_append] at h
    rcases h with h | h
    · exact ⟨[], l, below, bodies, rfl, h⟩
    · -- what is found below has one more line above it
      obtain ⟨before, m, rest, bodies', rfl, hx⟩ := ih h
      exact ⟨l :: before, m, rest, bodies', rfl, by simpa using hx⟩

/-- What is known about a function that is found on a line, between the lines above it, the nearest
first, and those below it. -/
structure FoundOn (f : FunctionFacts) (above : List Line) (l : Line) (below : List Line) :
    Prop where
  startLine : f.startLine = above.length + 1
  lineCount : f.lineCount = extent (l :: below)
  controlFlow : f.controlFlow
    = ControlFlow.sum (((l :: below).take f.lineCount).map fun m => lineFlow m.code)
  documented : f.documented = (docAbove? above).isSome

/-- What is known about a type that is found below some lines, the nearest first. -/
structure FoundBelow (t : TypeFacts) (above : List Line) : Prop where
  startLine : t.startLine = above.length + 1
  documented : t.documented = (docAbove? above).isSome

/-- What can be found on a line. -/
inductive OnLine (above : List Line) (l : Line) (below : List Line) : Finding → Prop
  | imported {i : ImportFacts} (h : i ∈ imports (above.length + 1) l) :
      OnLine above l below (.imported i)
  | name (n : Named) : OnLine above l below (.name n)
  | docDelimiter {d : Doc} (h : docAbove? above = some d) :
      OnLine above l below (.docDelimiter d.delimiter)
  | docFormat {d : Doc} (h : docAbove? above = some d) : OnLine above l below (.docFormat d.format)
  | type {t : TypeFacts} (h : FoundBelow t above) : OnLine above l below (.type t)
  | function {f : FunctionFacts} (h : FoundOn f above l below) : OnLine above l below (.function f)

/-- What is noted about the doc comment of what is declared on a line. -/
lemma onLine_of_mem_doc {above below : List Line} {l : Line} {x : Finding}
    (h : x ∈ (docAbove? above).toList.flatMap fun d =>
      [Finding.docDelimiter d.delimiter, .docFormat d.format]) : OnLine above l below x := by
  obtain ⟨d, hdoc, hx⟩ := List.mem_flatMap.1 h
  rw [Option.mem_toList] at hdoc
  simp only [List.mem_cons, List.not_mem_nil, or_false] at hx
  rcases hx with rfl | rfl
  · exact .docDelimiter hdoc
  · exact .docFormat hdoc

lemma onLine_of_mem_functionFindings {above below : List Line} {l : Line} {name : List Char}
    {x : Finding} (h : x ∈ functionFindings dialect above l below name) :
    OnLine above l below x := by
  simp only [functionFindings, List.mem_append, List.mem_map, List.mem_singleton] at h
  rcases h with ((h | ⟨p, -, rfl⟩) | h) | rfl
  · exact onLine_of_mem_doc h
  · exact .name _
  · split_ifs at h with hconstructor
    · cases h
    · obtain rfl := List.mem_singleton.1 h
      exact .name _
  · exact .function ⟨rfl, rfl, rfl, rfl⟩

lemma onLine_of_mem_typeFindings {above below : List Line} {l : Line} {name : List Char}
    {x : Finding} (h : x ∈ typeFindings above name) : OnLine above l below x := by
  rcases List.mem_append.1 h with h | h
  · exact onLine_of_mem_doc h
  · simp only [List.mem_cons, List.not_mem_nil, or_false] at h
    rcases h with rfl | rfl
    · exact .name _
    · exact .type ⟨rfl, rfl⟩

lemma onLine_of_mem {bodies : List Nat} {above below : List Line} {l : Line} {x : Finding}
    (h : x ∈ lineFindings dialect bodies above l below) : OnLine above l below x := by
  rw [lineFindings] at h
  split at h
  · cases h
  · rcases List.mem_append.1 h with h | h
    · obtain ⟨i, hi, rfl⟩ := List.mem_map.1 h
      exact .imported hi
    · split at h
      · exact onLine_of_mem_typeFindings h
      · split at h
        · exact onLine_of_mem_functionFindings h
        · obtain ⟨p, -, rfl⟩ := List.mem_map.1 h
          exact .name _

/-- What is found on some lines is found on one of them. -/
lemma exists_onLine {bodies : List Nat} {above ls : List Line} {x : Finding}
    (h : x ∈ findings dialect bodies above ls) :
    ∃ before l below, ls = before ++ l :: below ∧ OnLine (before.reverse ++ above) l below x := by
  obtain ⟨before, l, below, bodies', hls, hx⟩ := exists_mem_lineFindings h
  exact ⟨before, l, below, hls, onLine_of_mem hx⟩

/-! ### A whole script -/

section Script

variable {language : String} {path : SourcePath} {source : List Char}

lemma literals_of_mem_findings {bodies : List Nat} {above ls : List Line} {x : Finding}
    (h : x ∈ findings dialect bodies above ls) : x.literals = .none := by
  obtain ⟨before, l, below, -, hx⟩ := exists_onLine h
  cases hx <;> rfl

/-- Neither the literals nor the test frameworks of a script are found on a line. -/
lemma filterMap_found {α : Type} {f : Finding → Option α} (hquotes : ∀ q, f (.quotes q) = none)
    (hframework : ∀ label, f (.framework label) = none) (isTest : Bool) (ls : List Line)
    (quotes : QuoteCount) (found : List Finding) :
    (.quotes quotes :: found ++ frameworkFindings isTest ls found).filterMap f
      = found.filterMap f := by
  simp [frameworkFindings, List.filterMap_map, hquotes, hframework]

lemma functions_read : (read dialect language path source).functions
    = (findings dialect [] [] (rescanned source).1).filterMap Finding.function? := by
  simp only [read, fileFacts, filterMap_found (f := Finding.function?) (fun _ => rfl) fun _ => rfl]

lemma types_read : (read dialect language path source).types
    = (findings dialect [] [] (rescanned source).1).filterMap Finding.type? := by
  simp only [read, fileFacts, filterMap_found (f := Finding.type?) (fun _ => rfl) fun _ => rfl]

lemma names_read : (read dialect language path source).names = Names.ofList (fileNames path
    ++ (findings dialect [] [] (rescanned source).1).filterMap Finding.named?) := by
  simp only [read, fileFacts, filterMap_found (f := Finding.named?) (fun _ => rfl) fun _ => rfl]

lemma imports_read : (read dialect language path source).imports
    = (findings dialect [] [] (rescanned source).1).filterMap Finding.import? := by
  simp only [read, fileFacts, filterMap_found (f := Finding.import?) (fun _ => rfl) fun _ => rfl]

lemma foldl_add_none {qs : List QuoteCount} (h : ∀ q ∈ qs, q = .none) (quotes : QuoteCount) :
    qs.foldl (· + ·) quotes = quotes := by
  induction qs with
  | nil => rfl
  | cons q qs ih =>
    obtain rfl := h q List.mem_cons_self
    exact ih fun q hq => h q (List.mem_cons_of_mem _ hq)

/-- The literals of a script are those that the scanner counts. -/
lemma quotes_read : (read dialect language path source).quotes = (rescanned source).2 := by
  have hrest : ∀ x ∈ findings dialect [] [] (rescanned source).1
      ++ frameworkFindings path.isTest (rescanned source).1
        (findings dialect [] [] (rescanned source).1), x.literals = .none := by
    intro x hx
    rcases List.mem_append.1 hx with hx | hx
    · exact literals_of_mem_findings hx
    · obtain ⟨label, -, rfl⟩ := List.mem_map.1 hx
      rfl
  simp only [read, fileFacts, List.cons_append, List.map_cons, List.foldl_cons]
  rw [foldl_add_none (List.forall_mem_map.2 hrest), QuoteCount.none_add]
  rfl

end Script

/-- What is known about a function that takes up the first of some lines and some of those below. -/
structure Spans (f : FunctionFacts) (l : Line) (below : List Line) : Prop where
  lineCount : f.lineCount = extent (l :: below)
  controlFlow : f.controlFlow
    = ControlFlow.sum (((l :: below).take f.lineCount).map fun m => lineFlow m.code)

/-- A function of a script takes up lines from its first one on. -/
theorem exists_spans {language : String} {path : SourcePath} {source : List Char}
    {f : FunctionFacts} (h : f ∈ (read dialect language path source).functions) :
    ∃ l below, (rescanned source).1.drop (f.startLine - 1) = l :: below ∧ 0 < f.startLine ∧
      Spans f l below := by
  rw [functions_read, List.mem_filterMap] at h
  obtain ⟨x, hx, hfunction⟩ := h
  obtain ⟨before, l, below, hlines, hon⟩ := exists_onLine hx
  cases hon with
  | imported | name | docDelimiter | docFormat | type => cases hfunction
  | @function g hon =>
    obtain rfl : g = f := Option.some.inj hfunction
    have hstart : g.startLine = before.length + 1 := by simpa using hon.startLine
    refine ⟨l, below, ?_, by omega, hon.lineCount, hon.controlFlow⟩
    rw [hlines, hstart, Nat.add_sub_cancel, List.drop_left]

end Script

end HouseStyle
