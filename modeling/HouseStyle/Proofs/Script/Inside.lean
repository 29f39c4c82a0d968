import HouseStyle.Proofs.Script.Guarded
import HouseStyle.Proofs.Text.Utf8
import HouseStyle.Survey.Extract
import Mathlib.Data.List.Pairwise
import Mathlib.Tactic.Common

/-!
# Reading a script is safe

Whatever bytes are read as a script, no step of the reader is refused, and reading fails only where
the bytes are no text.  What is found lies inside the file.  Each line declares one thing at most, a
function or a type, on its own number, so the numbers go up along the file (`pairwise_findings`).
-/

namespace HouseStyle

/-- Whether the functions and types of a file lie inside it, each on a line of its own, in the order
of the lines. -/
structure FileFacts.Inside (f : FileFacts) : Prop where
  functions : ∀ g ∈ f.functions,
    1 ≤ g.startLine ∧ 1 ≤ g.lineCount ∧ g.startLine + g.lineCount - 1 ≤ f.totalLines
  functions_ordered : (f.functions.map FunctionFacts.startLine).Pairwise (· < ·)
  types : ∀ t ∈ f.types, 1 ≤ t.startLine ∧ t.startLine ≤ f.totalLines
  types_ordered : (f.types.map TypeFacts.startLine).Pairwise (· < ·)
  apart : ∀ t ∈ f.types, ∀ g ∈ f.functions, t.startLine ≠ g.startLine

/-- The line on which a found function or type is declared. -/
def Survey.Finding.startLine? : Survey.Finding → Option Nat
  | .function f => some f.startLine
  | .type t => some t.startLine
  | _ => none

namespace Script

open Text Survey

/-- The language of a script. -/
def Dialect.language : Dialect → Language
  | .plain => .javascript
  | .typed => .typescript

variable {dialect : Dialect}

/-! ### Where things are declared -/

/-- A line declares one thing at most. -/
lemma startLines_lineFindings (dialect : Dialect) (bodies : List Nat) (above : List Line) (l : Line)
    (below : List Line) :
    (lineFindings dialect bodies above l below).filterMap Finding.startLine? = [] ∨
      (lineFindings dialect bodies above l below).filterMap Finding.startLine?
        = [above.length + 1] := by
  have himports (is : List ImportFacts) :
      (is.map Finding.imported).filterMap Finding.startLine? = [] := by
    rw [List.filterMap_map]
    exact List.filterMap_eq_nil_iff.2 fun i _ => rfl
  have hdoc (doc : Option Doc) : (doc.toList.flatMap fun d =>
      [.docDelimiter d.delimiter, .docFormat d.format]).filterMap Finding.startLine? = [] := by
    cases doc <;> rfl
  rw [lineFindings]
  split
  · exact .inl rfl
  · rw [List.filterMap_append, himports, List.nil_append]
    split
    · rw [typeFindings, List.filterMap_append, hdoc]
      exact .inr rfl
    · split
      next name _ =>
        right
        have hnames : ((parameterNames l.code).map fun p =>
            Finding.name ⟨.binding, String.ofList p⟩).filterMap Finding.startLine? = [] := by
          rw [List.filterMap_map]
          exact List.filterMap_eq_nil_iff.2 fun p _ => rfl
        simp only [functionFindings, List.filterMap_append, hdoc, hnames, List.nil_append]
        split <;> rfl
      · left
        rw [variableFindings, List.filterMap_map]
        exact List.filterMap_eq_nil_iff.2 fun p _ => rfl

/-- What is declared on some lines is declared on one of them, and takes up at least that line and
at most all from there on. -/
lemma exists_line_of_mem {bodies : List Nat} {above ls : List Line} {x : Finding}
    (h : x ∈ findings dialect bodies above ls) :
    ∃ before l below, ls = before ++ l :: below ∧
      (∀ n ∈ x.startLine?, n = above.length + before.length + 1) ∧
      ∀ f ∈ x.function?, 1 ≤ f.lineCount ∧ f.lineCount ≤ (l :: below).length := by
  obtain ⟨before, l, below, hls, hon⟩ := exists_onLine h
  have hlength : (before.reverse ++ above).length = above.length + before.length := by
    rw [List.length_append, List.length_reverse, Nat.add_comm]
  refine ⟨before, l, below, hls, ?_, ?_⟩
  · rintro n hn
    cases hon with
    | imported | name | docDelimiter | docFormat => cases hn
    | type ht =>
      obtain rfl := Option.some.inj hn
      rw [ht.startLine, hlength]
    | function hf =>
      obtain rfl := Option.some.inj hn
      rw [hf.startLine, hlength]
  · rintro f hf
    cases hon with
    | imported | name | docDelimiter | docFormat | type => cases hf
    | function hon =>
      obtain rfl := Option.some.inj hf
      rw [hon.lineCount]
      exact extent_bounds l below

/-- The numbers of the lines on which something is declared go up. -/
lemma pairwise_findings (bodies : List Nat) (above ls : List Line) :
    ((findings dialect bodies above ls).filterMap Finding.startLine?).Pairwise (· < ·) := by
  induction ls generalizing bodies above with
  | nil => exact .nil
  | cons l below ih =>
    rw [findings_cons, List.filterMap_append]
    rcases startLines_lineFindings dialect bodies above l below with h | h
    · rw [h]
      exact ih _ _
    · rw [h, List.singleton_append, List.pairwise_cons]
      refine ⟨fun n hn => ?_, ih _ _⟩
      obtain ⟨x, hx, hline⟩ := List.mem_filterMap.1 hn
      obtain ⟨before, _, _, -, hplace, -⟩ := exists_line_of_mem hx
      rw [hplace n hline, List.length_cons]
      omega

/-! ### Inside the file -/

lemma length_rescanFrom (s : Carried) (depth : Nat) (raws : List (List Char)) :
    (rescanFrom s depth raws).1.length = raws.length := by
  induction raws generalizing s depth with
  | nil => rfl
  | cons raw more ih => simp only [rescanFrom, List.length_cons, ih]

section Facts

variable {language : String} {path : SourcePath} {source : List Char}

lemma totalLines_read :
    (read dialect language path source).totalLines = (rescanned source).1.length :=
  (length_rescanFrom _ _ _).symm

lemma startLine?_of_function? {x : Finding} {f : FunctionFacts} (h : x.function? = some f) :
    x.startLine? = some f.startLine := by
  cases x with
  | function g =>
    obtain rfl := Option.some.inj h
    rfl
  | _ => cases h

lemma startLine?_of_type? {x : Finding} {t : TypeFacts} (h : x.type? = some t) :
    x.startLine? = some t.startLine := by
  cases x with
  | type u =>
    obtain rfl := Option.some.inj h
    rfl
  | _ => cases h

/-- The functions and types of a script lie inside it, each on a line of its own. -/
lemma inside_read : (read dialect language path source).Inside := by
  have hordered : (findings dialect [] [] (rescanned source).1).Pairwise fun x y =>
      ∀ n, x.startLine? = some n → ∀ m, y.startLine? = some m → n < m :=
    List.pairwise_filterMap.1 (pairwise_findings [] [] _)
  have hlength : ([] : List Line).length = 0 := rfl
  constructor
  case functions =>
    rw [functions_read]
    intro f hf
    obtain ⟨x, hx, hf⟩ := List.mem_filterMap.1 hf
    obtain ⟨before, l, below, hls, hplace, hcount⟩ := exists_line_of_mem hx
    have hstart := hplace _ (startLine?_of_function? hf)
    obtain ⟨hpos, hle⟩ := hcount f hf
    have htotal : (rescanned source).1.length = before.length + (l :: below).length := by
      rw [hls, List.length_append]
    rw [totalLines_read, htotal]
    omega
  case functions_ordered =>
    rw [functions_read, List.pairwise_map, List.pairwise_filterMap]
    refine hordered.imp fun {x y} hxy f hf g hg => ?_
    exact hxy _ (startLine?_of_function? hf) _ (startLine?_of_function? hg)
  case types =>
    rw [types_read]
    intro t ht
    obtain ⟨x, hx, ht⟩ := List.mem_filterMap.1 ht
    obtain ⟨before, l, below, hls, hplace, -⟩ := exists_line_of_mem hx
    have hstart := hplace _ (startLine?_of_type? ht)
    have htotal : (rescanned source).1.length = before.length + (below.length + 1) := by
      rw [hls, List.length_append, List.length_cons]
    rw [totalLines_read, htotal]
    omega
  case types_ordered =>
    rw [types_read, List.pairwise_map, List.pairwise_filterMap]
    refine hordered.imp fun {x y} hxy t ht u hu => ?_
    exact hxy _ (startLine?_of_type? ht) _ (startLine?_of_type? hu)
  case apart =>
    rw [types_read, functions_read]
    intro t ht f hf
    obtain ⟨x, hx, ht⟩ := List.mem_filterMap.1 ht
    obtain ⟨y, hy, hf⟩ := List.mem_filterMap.1 hf
    have hne : x ≠ y := by
      rintro rfl
      cases x <;> simp_all [Finding.type?, Finding.function?]
    have hsymm : Std.Symm fun x y : Finding =>
        ∀ n, x.startLine? = some n → ∀ m, y.startLine? = some m → n ≠ m :=
      ⟨fun x y hxy n hn m hm => (hxy m hm n hn).symm⟩
    have hdistinct : (findings dialect [] [] (rescanned source).1).Pairwise fun x y =>
        ∀ n, x.startLine? = some n → ∀ m, y.startLine? = some m → n ≠ m :=
      hordered.imp fun hxy n hn m hm => Nat.ne_of_lt (hxy n hn m hm)
    exact hdistinct.forall hx hy hne _ (startLine?_of_type? ht) _ (startLine?_of_function? hf)

end Facts

/-! ### Reading a file -/

/-- What is read from bytes as a script, with all steps that can be refused. -/
def guardedExtract (dialect : Dialect) (path : SourcePath) (bytes : List UInt8) :
    Except Breach (Except ExtractFault FileFacts) :=
  match decode bytes with
  | .error fault => .ok (.error (.encoding path fault))
  | .ok source => (guardedRead dialect dialect.language.id path source).map .ok

lemma extract_eq (path : SourcePath) (bytes : List UInt8) :
    extract dialect.language path bytes =
      match decode bytes with
      | .error fault => .error (.encoding path fault)
      | .ok source => .ok (read dialect dialect.language.id path source) := by
  rw [extract]
  cases decode bytes with
  | error fault => rfl
  | ok source => cases dialect <;> rfl

/-- Whatever bytes are read as a script, no step is refused.  Reading succeeds exactly on the bytes
of texts, and what is found then lies inside the file. -/
theorem extract_safe (dialect : Dialect) (path : SourcePath) (bytes : List UInt8) :
    guardedExtract dialect path bytes = .ok (extract dialect.language path bytes) ∧
      ((∃ facts, extract dialect.language path bytes = .ok facts) ↔ ∃ s, bytes = encode s) ∧
      ∀ facts, extract dialect.language path bytes = .ok facts → facts.Inside := by
  rw [extract_eq, guardedExtract]
  cases hdecode : decode bytes with
  | error fault =>
    refine ⟨rfl, iff_of_false ?_ ?_, fun facts h => by cases h⟩
    · rintro ⟨facts, h⟩
      cases h
    · rintro ⟨s, rfl⟩
      rw [decode_encode] at hdecode
      cases hdecode
  | ok source =>
    refine ⟨?_, iff_of_true ⟨_, rfl⟩ ⟨String.ofList source, ?_⟩, ?_⟩
    · dsimp only
      rw [guardedRead_eq, map_ok]
    · rw [← decode_eq_ok_iff, String.toList_ofList, hdecode]
    · rintro facts h
      obtain rfl := Except.ok.inj h
      exact inside_read

end Script

end HouseStyle
