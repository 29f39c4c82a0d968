import HouseStyle.Script.Forms
import HouseStyle.Script.Lookahead
import HouseStyle.Survey.Measure

/-!
# Reading scripts line by line

The functions, classes, variables and imports of a script are found on the lines on which they
start.  A function ends where the braces that were opened since its first line are closed again.
Methods are looked for only directly inside a class, which the depths of the lines tell.
-/

namespace HouseStyle.Script

open HouseStyle.Text HouseStyle.Survey

/-- The two kinds of scripts. -/
inductive Dialect where
  /-- Without types. -/
  | plain
  /-- With types. -/
  | typed
deriving DecidableEq, Repr

/-- The text of a line without the blanks before it. -/
def Line.start (l : Line) : List Char := trimStart l.raw

/-- Whether nothing but blanks is left of a line. -/
def Line.isBlank (l : Line) : Bool := allBlank l.code

/-- The name that a form declares on a line. -/
def declared? (form : Expression) (code : List Char) : Option (List Char) :=
  (form.matchStart? code).map (·.kept 1)

/-! ## Doc comments -/

/-- The lines from the nearest one on that starts a block comment, to the first of some lines
that go upwards; all of them if none does. -/
def blockUp : List Line → List Line
  | [] => []
  | l :: more => if startsWith l.start "/*" then [l] else l :: blockUp more

/-- The text of some lines that go upwards. -/
def textUp (ls : List Line) : List Char :=
  List.intercalate ['\n'] (ls.reverse.map fun l => trim l.raw)

/-- The doc comment right above a declaration, given the lines above it, the nearest first.
Lines that start with an at sign may stand between. -/
def docAbove? (above : List Line) : Option Doc :=
  match above.dropWhile fun l => startsWith l.start "@" with
  | [] => none
  | l :: more =>
    if endsWith (trim l.raw) "*/" then
      let block := blockUp (l :: more)
      match block.getLast? with
      | some top =>
        if startsWith top.start "/**" then some ⟨"/**", docFormat (textUp block)⟩ else none
      | none => none
    else if startsWith (trim l.raw) "//" then
      some ⟨"//", docFormat (textUp (l :: more.takeWhile fun l => startsWith l.start "//"))⟩
    else none

/-! ## Functions -/

/-- The number of lines of a function that was entered at depth `base`, given its remaining
lines; `before` of its lines are behind. -/
def bodyLines (base depth : Nat) (opened : Bool) (before : Nat) : List Line → Nat
  | [] => before
  | l :: more =>
    let opened := opened || decide (0 < opens l.code)
    let depth := depthAfter depth l.code
    if opened && depth ≤ base then before + 1
    else if !opened && 2 ≤ before then 1
    else bodyLines base depth opened (before + 1) more

/-- The number of lines of the function that starts on the first of some lines. -/
def extent : List Line → Nat
  | [] => 0
  | l :: more =>
    if !l.code.contains '\x7b' && endsWith (trimEnd l.code) ";" then 1
    else bodyLines l.depth l.depth false 0 (l :: more)

/-- The decision that a word opens. -/
def wordFlow (w : List Char) : ControlFlow :=
  if w = "if".toList then .branch
  else if w = "for".toList ∨ w = "while".toList then .loop
  else if w = "case".toList then .case
  else .handler

/-- The decisions on a line. -/
def lineFlow (code : List Char) : ControlFlow :=
  let words := ControlFlow.sum ((Forms.branch.matchesIn code).map fun p => wordFlow (p.kept 1))
  { words with
    junctions := (Forms.junction.matchesIn code).length
    conditionals := (Forms.conditional.matchesIn code).length }

/-- The text up to the parenthesis that closes the open ones, and the text after it. -/
def closing? (depth : Nat) : List Char → Option (List Char × List Char)
  | [] => none
  | c :: rest =>
    if c = ')' ∧ depth = 0 then some ([], rest)
    else
      let depth := if c = '(' then depth + 1 else if c = ')' then depth - 1 else depth
      (closing? depth rest).map fun r => (c :: r.1, r.2)

/-- What follows the first opening parenthesis. -/
def afterOpening? (code : List Char) : Option (List Char) :=
  match code.dropWhile (· != '(') with
  | [] => none
  | _ :: rest => some rest

/-- The names of the parameters of a signature. -/
def parameterNames (code : List Char) : List (List Char) :=
  match (afterOpening? code).bind (closing? 0) with
  | some (inner, _) => (splitAt ',' inner).filterMap (declared? Forms.parameter)
  | none => []

/-- Whether a signature has a type on a parameter or on its result. -/
def isAnnotated (code : List Char) : Bool :=
  match afterOpening? code with
  | none => false
  | some rest =>
    match closing? 0 rest with
    | some (inner, after) => inner.contains ':' || startsWith (trimStart after) ":"
    | none => rest.contains ':'

/-- The words that look like methods and are none. -/
def notMethods : List String := [
  "if", "for", "while", "switch", "catch", "return", "function", "with", "do", "else", "new",
  "typeof", "await", "super", "yield"]

/-- The name of the member of a class that is declared on a line. -/
def member? (code : List Char) : Option (List Char) :=
  match declared? Forms.arrowMember code with
  | some name => some name
  | none =>
    if endsWith (trimEnd code) ";" then none
    else (declared? Forms.method code).filter fun name =>
      !notMethods.contains (String.ofList name)

/-- The name of the function that is declared on a line. -/
def functionName? (inClass : Bool) (code : List Char) : Option (List Char) :=
  match declared? Forms.functionDeclaration code with
  | some name => some name
  | none =>
    match declared? Forms.functionVariable code with
    | some name => some name
    | none => if inClass then member? code else none

/-- What is found about a function, given the lines above it, its own line and those below. -/
def functionFindings (dialect : Dialect) (above : List Line) (l : Line) (below : List Line)
    (name : List Char) : List Finding :=
  let count := extent (l :: below)
  let flow := ControlFlow.sum (((l :: below).take count).map fun m => lineFlow m.code)
  let name := String.ofList (name.dropWhile (· == '#'))
  let doc := docAbove? above
  let parameters := (parameterNames l.code).map fun p =>
    Finding.name ⟨.binding, String.ofList p⟩
  (doc.toList.flatMap fun d => [Finding.docDelimiter d.delimiter, .docFormat d.format])
    ++ parameters
    ++ (if name = "constructor" then [] else [.name ⟨.function, name⟩])
    ++ [.function
      { name
        startLine := above.length + 1
        lineCount := count
        controlFlow := flow
        documented := doc.isSome
        annotated := match dialect with
          | .typed => some (isAnnotated l.code)
          | .plain => none }]

/-! ## Classes, variables and imports -/

/-- The name of the class or type that is declared on a line. -/
def typeName? (dialect : Dialect) (code : List Char) : Option (List Char) :=
  match declared? Forms.classDeclaration code with
  | some name => some name
  | none =>
    match dialect with
    | .typed => declared? Forms.typeDeclaration code
    | .plain => none

/-- What is found about a class or type, given the lines above it. -/
def typeFindings (above : List Line) (name : List Char) : List Finding :=
  let name := String.ofList name
  let doc := docAbove? above
  (doc.toList.flatMap fun d => [Finding.docDelimiter d.delimiter, .docFormat d.format])
    ++ [.name ⟨.type, name⟩, .type ⟨name, above.length + 1, doc.isSome⟩]

/-- The variables that are declared on a line. -/
def variableFindings (l : Line) : List Finding :=
  (Forms.variableDeclaration.matchesIn l.code).map fun p =>
    let kind := if p.kept 1 = "const".toList ∧ l.depth = 0 then NameKind.constant else .binding
    .name ⟨kind, String.ofList (p.kept 2)⟩

/-- An import of a module. -/
def imported (number : Nat) (module : List Char) (wildcard : Bool) : ImportFacts :=
  ⟨String.ofList module, wildcard, startsWith module ".", number⟩

/-- The modules that are required on a line. -/
def requiredModules (number : Nat) (l : Line) : List ImportFacts :=
  if holds l.code "require(" then
    (Forms.required.matchesIn l.raw).map fun p => imported number (p.kept 1) false
  else []

/-- The import statement on a line. -/
def importStatement? (number : Nat) (l : Line) : Option ImportFacts :=
  let code := trimStart l.code
  if startsWith code "import" || startsWith code "export" then
    match Forms.importFrom.matchStart? l.raw with
    | some p => some (imported number (p.kept 2) (startsWith (trim (p.kept 1)) "*"))
    | none => (Forms.importBare.matchStart? l.raw).map fun p => imported number (p.kept 1) false
  else if startsWith code "\x7d" then
    (Forms.importTail.matchStart? l.raw).map fun p => imported number (p.kept 1) false
  else none

/-- The imports on a line. -/
def imports (number : Nat) (l : Line) : List ImportFacts :=
  match importStatement? number l with
  | some i => [i]
  | none => requiredModules number l

/-! ## A whole file -/

/-- The depths of the bodies of the classes that are still open on a line of a depth. -/
def openBodies (depth : Nat) (bodies : List Nat) : List Nat :=
  bodies.dropWhile fun d => depth < d

/-- What is found on some lines, given the lines above them, the nearest first, and the depths
of the bodies of the open classes, the innermost first. -/
def findings (dialect : Dialect) (bodies : List Nat) (above : List Line) :
    List Line → List Finding
  | [] => []
  | l :: below =>
    if l.isBlank then findings dialect bodies (l :: above) below
    else
      let bodies := openBodies l.depth bodies
      let found := (imports (above.length + 1) l).map Finding.imported
      match typeName? dialect l.code with
      | some name =>
        let bodies := if holds (trimStart l.code) "class " then (l.depth + 1) :: bodies else bodies
        found ++ typeFindings above name ++ findings dialect bodies (l :: above) below
      | none =>
        let here := match functionName? (bodies.head? == some l.depth) l.code with
          | some name => functionFindings dialect above l below name
          | none => variableFindings l
        found ++ here ++ findings dialect bodies (l :: above) below

/-- The test frameworks by the modules that they are imported from. -/
def frameworks : List (String × String) := [
  ("jest", "jest"), ("@jest/globals", "jest"), ("vitest", "vitest"), ("mocha", "mocha"),
  ("chai", "chai"), ("jasmine", "jasmine"), ("ava", "ava"),
  ("@testing-library/", "testing-library")]

/-- The test framework that a module belongs to; an entry that ends with a slash stands for all
modules that start with it. -/
def frameworkOf? (module : String) : Option String :=
  (frameworks.find? fun e =>
    module == e.1 || (endsWith e.1.toList "/" && startsWith module.toList e.1)).map Prod.snd

/-- The test frameworks of a file.  Tests without an import use the functions that are there
anyway. -/
def frameworkFindings (isTest : Bool) (ls : List Line) (found : List Finding) : List Finding :=
  let labels := (found.filterMap Finding.import?).filterMap fun i => frameworkOf? i.module
  let callsTest := ls.any fun l => !l.isBlank && (Forms.testCall.matchStart? l.code).isSome
  let labels := if isTest && labels.isEmpty && callsTest then ["jest"] else labels
  labels.map .framework

/-- The facts about a script. -/
def read (dialect : Dialect) (language : String) (path : SourcePath) (source : List Char) : FileFacts :=
  let (ls, quotes) := rescanned source
  let found := findings dialect [] [] ls
  fileFacts path language source (.quotes quotes :: found ++ frameworkFindings path.isTest ls found)

end HouseStyle.Script
