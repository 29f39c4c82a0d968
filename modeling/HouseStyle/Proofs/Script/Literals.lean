import HouseStyle.Proofs.Script.Recorded
import HouseStyle.Proofs.Text.Lines
import Mathlib.Data.List.Forall2
import Mathlib.Tactic.Common

/-!
# What stands in literals does not matter

Two scripts that differ only in the content of their literals are read alike: they have the same
functions, types, names and literals, whatever braces, words and comments the contents hold.  Only
what is read off the lines as they are written, doc comments and imports, may differ.

The scanner makes one blank of each character of a content and stays in its mode, so both scripts
have the same code on the same lines (`scanFrom_alike`).  What is found apart from doc comments and
imports can be read off this code (`findings_bare`).
-/

namespace HouseStyle.Script

open Survey

/-! ### Contents of literals -/

/-- For each character of a line that starts in a mode, the quote of the literal whose content it
is.  The quotes around a literal, a backslash and the character behind it are no content. -/
def contents : Mode → List Char → List (Option Char)
  | _, [] => []
  | .comment, '*' :: '/' :: rest => none :: none :: contents .code rest
  | .comment, _ :: rest => none :: contents .comment rest
  | .code, '/' :: '/' :: rest => none :: none :: rest.map fun _ => none
  | .code, '/' :: '*' :: rest => none :: none :: contents .comment rest
  | .code, c :: rest => none :: contents ((Mode.opened? c).getD .code) rest
  | literal, '\\' :: _ :: rest => none :: none :: contents literal rest
  | literal, c :: rest =>
    if literal.delimiter? = some c then none :: contents .code rest
    else literal.delimiter? :: contents literal rest

/-- The contents on lines, the first of which starts in a mode. -/
def contentsFrom (mode : Mode) : List (List Char) → List (List (Option Char))
  | [] => []
  | raw :: more => contents mode raw :: contentsFrom (scanLine mode raw).mode.atLineEnd more

/-- What is known about the characters on the lines of a text, for each character of the text.
Nothing is known about line ends. -/
def spread (marks : List (List (Option Char))) : List Char → List (Option Char)
  | [] => []
  | '\n' :: rest => none :: spread marks.tail rest
  | '\r' :: '\n' :: rest => none :: none :: spread marks.tail rest
  | _ :: rest => (marks.head?.bind List.head?).join :: spread (marks.modifyHead List.tail) rest

/-- For each character of a script, the quote of the literal whose content it is. -/
def literals (source : List Char) : List (Option Char) :=
  spread (contentsFrom .code (Text.lines source)) source

/-- Whether a character can be the content of a literal between quotes, without ending the literal,
the line or the meaning of the next character. -/
structure Inert (quote c : Char) : Prop where
  ne_quote : c ≠ quote
  ne_backslash : c ≠ '\\'
  ne_return : c ≠ '\r'
  ne_feed : c ≠ '\n'

instance (quote c : Char) : Decidable (Inert quote c) :=
  decidable_of_iff (c ≠ quote ∧ c ≠ '\\' ∧ c ≠ '\r' ∧ c ≠ '\n')
    ⟨fun ⟨h₁, h₂, h₃, h₄⟩ => ⟨h₁, h₂, h₃, h₄⟩, fun ⟨h₁, h₂, h₃, h₄⟩ => ⟨h₁, h₂, h₃, h₄⟩⟩

/-- Whether two scripts of one length differ only in the contents of literals. -/
structure SameOutsideLiterals (source source' : List Char) : Prop where
  length_eq : source.length = source'.length
  content : ∀ (i : Nat) (c c' : Char), source[i]? = some c → source'[i]? = some c' → c ≠ c' →
    ∃ quote, (literals source)[i]? = some (some quote) ∧ Inert quote c ∧ Inert quote c'

/-- Whether a character may stand in the place of another one, about which something is known. -/
def Alike (mc : Option Char × Char) (c' : Char) : Prop :=
  mc.2 = c' ∨ ∃ quote, mc.1 = some quote ∧ Inert quote mc.2 ∧ Inert quote c'

instance : (mc : Option Char × Char) → (c' : Char) → Decidable (Alike mc c')
  | (none, c), c' => decidable_of_iff (c = c') (by simp [Alike])
  | (some quote, c), c' =>
    decidable_of_iff (c = c' ∨ Inert quote c ∧ Inert quote c') (by simp [Alike])

lemma alike_none {c c' : Char} (h : Alike (none, c) c') : c = c' := by
  rcases h with h | ⟨quote, h, -⟩
  · exact h
  · cases h

lemma length_spread (marks : List (List (Option Char))) (source : List Char) :
    (spread marks source).length = source.length := by
  fun_induction spread marks source with
  | case1 => rfl
  | case2 _ _ ih => simp [ih]
  | case3 _ _ ih => simp [ih]
  | case4 _ _ _ _ _ ih => simp [ih]

lemma sameOutsideLiterals_iff {source source' : List Char} :
    SameOutsideLiterals source source' ↔
      List.Forall₂ Alike ((literals source).zip source) source' := by
  have hlength : (literals source).length = source.length := length_spread _ _
  rw [List.forall₂_iff_get]
  constructor
  · intro h
    refine ⟨by simp [hlength, h.length_eq], fun i hi hi' => ?_⟩
    have hsource : i < source.length := h.length_eq ▸ hi'
    by_cases hc : source[i] = source'[i]
    · exact .inl (by simpa using hc)
    · obtain ⟨quote, hquote, hinert⟩ := h.content i _ _ (List.getElem?_eq_getElem hsource)
        (List.getElem?_eq_getElem hi') hc
      obtain ⟨_, hmark⟩ := List.getElem?_eq_some_iff.1 hquote
      exact .inr ⟨quote, by simpa using hmark, by simpa using hinert⟩
  · rintro ⟨hlengths, h⟩
    refine ⟨by simpa [hlength] using hlengths, fun i c c' hc hc' hne => ?_⟩
    obtain ⟨hi, rfl⟩ := List.getElem?_eq_some_iff.1 hc
    obtain ⟨hi', rfl⟩ := List.getElem?_eq_some_iff.1 hc'
    obtain heq | ⟨quote, hquote, hinert⟩ := h i (by simpa [hlength] using hi) hi'
    · exact absurd (by simpa using heq) hne
    · refine ⟨quote, List.getElem?_eq_some_iff.2 ⟨hlength ▸ hi, by simpa using hquote⟩, ?_⟩
      simpa using hinert

/-! ### Line by line -/

lemma length_contents (mode : Mode) (cs : List Char) : (contents mode cs).length = cs.length := by
  fun_induction contents mode cs <;> simp_all

/-- The characters of a line end are the same in both texts. -/
lemma alike_feed_iff {mc : Option Char × Char} {c' : Char} (h : Alike mc c') :
    (mc.2 = '\n' ↔ c' = '\n') ∧ (mc.2 = '\r' ↔ c' = '\r') := by
  rcases h with rfl | ⟨quote, -, hc, hc'⟩
  · exact ⟨Iff.rfl, Iff.rfl⟩
  · exact ⟨iff_of_false hc.ne_feed hc'.ne_feed, iff_of_false hc.ne_return hc'.ne_return⟩

lemma spread_cons {c : Char} {rest : List Char} (hfeed : c ≠ '\n')
    (hreturn : ∀ tail, c = '\r' → rest = '\n' :: tail → False) (m : Option Char)
    (ms : List (Option Char)) (more : List (List (Option Char))) :
    spread ((m :: ms) :: more) (c :: rest) = m :: spread (ms :: more) rest := by
  rw [spread]
  · rfl
  · exact hfeed
  · exact hreturn

/-- Two texts of which the characters of one may stand in the places of those of the other, about
which something is known line by line, have such lines. -/
lemma alike_lines {marks : List (List (Option Char))} {source source' : List Char}
    (hshape : List.Forall₂ (fun ms raw => ms.length = raw.length) marks (Text.lines source))
    (h : List.Forall₂ Alike ((spread marks source).zip source) source') :
    List.Forall₂ (fun mc raw => List.Forall₂ Alike (mc.1.zip mc.2) raw)
      (marks.zip (Text.lines source)) (Text.lines source') := by
  fun_induction Text.lines source generalizing marks source' with
  | case1 =>
    obtain rfl : source' = [] := by simpa [spread] using h
    simp [Text.lines]
  | case2 rest ih =>
    obtain ⟨m, more, hm, hmore, rfl⟩ := List.forall₂_cons_right_iff.1 hshape
    obtain rfl := List.length_eq_zero_iff.1 hm
    obtain ⟨c', rest', hc, hrest, rfl⟩ := List.forall₂_cons_left_iff.1 h
    obtain rfl : '\n' = c' := alike_none hc
    exact .cons .nil (ih hmore hrest)
  | case3 rest ih =>
    obtain ⟨m, more, hm, hmore, rfl⟩ := List.forall₂_cons_right_iff.1 hshape
    obtain rfl := List.length_eq_zero_iff.1 hm
    obtain ⟨c', tail, hc, htail, rfl⟩ := List.forall₂_cons_left_iff.1 h
    obtain ⟨d', rest', hd, hrest, rfl⟩ := List.forall₂_cons_left_iff.1 htail
    obtain rfl : '\r' = c' := alike_none hc
    obtain rfl : '\n' = d' := alike_none hd
    exact .cons .nil (ih hmore hrest)
  | case4 c rest hfeed hreturn hlines ih =>
    -- the text is a single character
    obtain ⟨m, more, hm, hmore, rfl⟩ := List.forall₂_cons_right_iff.1 hshape
    obtain ⟨x, rfl⟩ := List.length_eq_one_iff.1 hm
    obtain rfl := List.forall₂_nil_right_iff.1 hmore
    obtain rfl := Text.lines_eq_nil_iff.1 hlines
    rw [spread_cons hfeed hreturn] at h
    obtain ⟨c', rest', hc, hrest, rfl⟩ := List.forall₂_cons_left_iff.1 h
    obtain rfl : rest' = [] := by simpa [spread] using hrest
    have hend : ∀ tail : List Char, c' = '\r' → [] = '\n' :: tail → False := by simp
    rw [Text.lines_cons (fun hc' => hfeed ((alike_feed_iff hc).1.2 hc')) hend]
    exact .cons (.cons hc .nil) .nil
  | case5 c rest hfeed hreturn line more hlines ih =>
    obtain ⟨m, marks, hm, hmarks, rfl⟩ := List.forall₂_cons_right_iff.1 hshape
    obtain ⟨x, ms, rfl⟩ := List.exists_cons_of_length_eq_add_one hm
    rw [spread_cons hfeed hreturn] at h
    obtain ⟨c', rest', hc, hrest, rfl⟩ := List.forall₂_cons_left_iff.1 h
    have hshape' : List.Forall₂ (fun ms raw => ms.length = raw.length) (ms :: marks)
        (Text.lines rest) := by
      rw [hlines]
      exact .cons (Nat.succ.inj hm) hmarks
    have hmore := ih hshape' hrest
    rw [hlines] at hmore
    obtain ⟨raw, raws, hraw, hraws, hlines'⟩ := List.forall₂_cons_left_iff.1 hmore
    have hend : ∀ tail, c' = '\r' → rest' = '\n' :: tail → False := by
      rintro tail hc' rfl
      -- the line would have ended in the other text as well
      obtain ⟨d, _, hd, -, hzip⟩ := List.forall₂_cons_right_iff.1 hrest
      cases rest with
      | nil => simp at hzip
      | cons e rest =>
        cases hspread : spread (ms :: marks) (e :: rest) with
        | nil => simp [hspread] at hzip
        | cons m' ms' =>
          obtain ⟨rfl, -⟩ : (m', e) = d ∧ _ := by simpa [hspread] using hzip
          obtain rfl : e = '\n' := (alike_feed_iff hd).1.2 rfl
          exact hreturn rest ((alike_feed_iff hc).2.2 hc') rfl
    rw [Text.lines_cons (fun hc' => hfeed ((alike_feed_iff hc).1.2 hc')) hend, hlines']
    exact .cons (.cons hc hraw) hraws

/-! ### The code of both scripts -/

/-- Outside of literals the next character is the same. -/
lemma head?_alike {mode : Mode} {cs cs' : List Char} (hmode : mode.delimiter? = none)
    (h : List.Forall₂ Alike ((contents mode cs).zip cs) cs') : cs'.head? = cs.head? := by
  have hmark : ∀ c ∈ cs.head?, (contents mode cs).head? = some none := by
    fun_cases contents mode cs <;> simp_all
  cases cs with
  | nil =>
    obtain rfl : cs' = [] := by simpa using h
    rfl
  | cons c rest =>
    obtain ⟨ms, hms⟩ := List.head?_eq_some_iff.1 (hmark c rfl)
    rw [hms] at h
    obtain ⟨c', rest', hc, -, rfl⟩ := List.forall₂_cons_left_iff.1 h
    rw [alike_none hc, List.head?_cons, List.head?_cons]

/-- A line with other contents is scanned to the same code. -/
lemma scanLine_alike {mode : Mode} {cs cs' : List Char}
    (h : List.Forall₂ Alike ((contents mode cs).zip cs) cs') :
    scanLine mode cs' = scanLine mode cs := by
  fun_induction contents mode cs generalizing cs' with
  | case1 mode =>
    obtain rfl : cs' = [] := by simpa using h
    rfl
  | case2 rest ih =>
    obtain ⟨c', tail, hc, htail, rfl⟩ := List.forall₂_cons_left_iff.1 h
    obtain ⟨d', rest', hd, hrest, rfl⟩ := List.forall₂_cons_left_iff.1 htail
    rw [← alike_none hc, ← alike_none hd, scanLine, scanLine, ih hrest]
  | case3 c rest hend ih =>
    obtain ⟨c', rest', hc, hrest, rfl⟩ := List.forall₂_cons_left_iff.1 h
    obtain rfl : c = c' := alike_none hc
    have hend' := not_cons_of_head?_eq (head?_alike rfl hrest) hend
    rw [scanLine_comment_cons hend', scanLine_comment_cons hend, ih hrest]
  | case4 rest =>
    obtain ⟨c', tail, hc, htail, rfl⟩ := List.forall₂_cons_left_iff.1 h
    obtain ⟨d', rest', hd, -, rfl⟩ := List.forall₂_cons_left_iff.1 htail
    rw [← alike_none hc, ← alike_none hd, scanLine, scanLine]
  | case5 rest ih =>
    obtain ⟨c', tail, hc, htail, rfl⟩ := List.forall₂_cons_left_iff.1 h
    obtain ⟨d', rest', hd, hrest, rfl⟩ := List.forall₂_cons_left_iff.1 htail
    rw [← alike_none hc, ← alike_none hd, scanLine, scanLine, ih hrest]
  | case6 c rest hslashes hstart ih =>
    obtain ⟨c', rest', hc, hrest, rfl⟩ := List.forall₂_cons_left_iff.1 h
    obtain rfl : c = c' := alike_none hc
    -- a quote starts no comment, and behind another character the line goes on in code
    have hhead (d : Char) (hnot : ∀ tail, c = '/' → rest = d :: tail → False) :
        ∀ tail, c = '/' → rest' = d :: tail → False := by
      rintro tail rfl
      exact not_cons_of_head?_eq (head?_alike rfl hrest) hnot tail rfl
    rw [scanLine_code_cons (hhead '/' hslashes) (hhead '*' hstart),
      scanLine_code_cons hslashes hstart, ih hrest]
  | case7 literal d rest hcomment hcode ih =>
    obtain ⟨c', tail, hc, htail, rfl⟩ := List.forall₂_cons_left_iff.1 h
    obtain ⟨d', rest', hd, hrest, rfl⟩ := List.forall₂_cons_left_iff.1 htail
    rw [← alike_none hc, ← alike_none hd, scanLine_escape hcomment hcode,
      scanLine_escape hcomment hcode, ih hrest]
  | case8 literal c rest _ hcomment _ _ hcode hescape hquote ih =>
    obtain ⟨c', rest', hc, hrest, rfl⟩ := List.forall₂_cons_left_iff.1 h
    obtain rfl : c = c' := alike_none hc
    have hback (d : Char) (tail : List Char) (hc : c = '\\') : rest' = d :: tail → False :=
      absurd hc (delimiter?_eq_some hquote).2
    rw [scanLine_literal hcomment hcode hback, scanLine_literal hcomment hcode hescape,
      if_pos hquote, if_pos hquote, ih hrest]
  | case9 literal c rest _ hcomment _ _ hcode hescape hquote ih =>
    obtain ⟨c', rest', hc, hrest, rfl⟩ := List.forall₂_cons_left_iff.1 h
    -- whatever stands there becomes a blank
    obtain ⟨hquote', hback⟩ : literal.delimiter? ≠ some c' ∧
        ∀ d tail, c' = '\\' → rest' = d :: tail → False := by
      rcases hc with rfl | ⟨quote, hmark, -, hinert⟩
      · refine ⟨hquote, fun d tail hc htail => ?_⟩
        cases rest with
        | nil =>
          obtain rfl : rest' = [] := by simpa using hrest
          cases htail
        | cons e rest => exact hescape e rest hc rfl
      · refine ⟨fun hquote' => ?_, fun d tail hc => absurd hc hinert.ne_backslash⟩
        exact hinert.ne_quote (Option.some.inj (hquote'.symm.trans hmark))
    rw [scanLine_literal hcomment hcode hback, scanLine_literal hcomment hcode hescape,
      if_neg hquote', if_neg hquote, ih hrest]

/-- What is left of a line when only its code counts. -/
def Line.bare (l : Line) : Line := { l with raw := [] }

/-- Two scripts that differ only in the contents of literals have the same code on the same lines,
and the same literals. -/
lemma scanFrom_alike {mode : Mode} {raws raws' : List (List Char)}
    (h : List.Forall₂ (fun mc raw => List.Forall₂ Alike (mc.1.zip mc.2) raw)
      ((contentsFrom mode raws).zip raws) raws') (depth : Nat) :
    (scanFrom mode depth raws').1.map Line.bare = (scanFrom mode depth raws).1.map Line.bare ∧
      (scanFrom mode depth raws').2 = (scanFrom mode depth raws).2 := by
  induction raws generalizing mode depth raws' with
  | nil =>
    obtain rfl : raws' = [] := by simpa using h
    exact ⟨rfl, rfl⟩
  | cons raw more ih =>
    obtain ⟨raw', more', hraw, hmore, rfl⟩ := List.forall₂_cons_left_iff.1 h
    have hscan := scanLine_alike hraw
    obtain ⟨hlines, hquotes⟩ := ih hmore (depthAfter depth (scanLine mode raw).code)
    constructor
    · simp only [scanFrom, hscan, List.map_cons, hlines]
      rfl
    · simp only [scanFrom, hscan, hquotes]

lemma length_contentsFrom (mode : Mode) (raws : List (List Char)) :
    List.Forall₂ (fun ms raw => ms.length = raw.length) (contentsFrom mode raws) raws := by
  induction raws generalizing mode with
  | nil => exact .nil
  | cons raw more ih => exact .cons (length_contents mode raw) (ih _)

lemma SameOutsideLiterals.rescanned {source source' : List Char}
    (h : SameOutsideLiterals source source') :
    (rescanned source').1.map Line.bare = (rescanned source).1.map Line.bare ∧
      (rescanned source').2 = (rescanned source).2 := by
  rw [rescanned_eq_scanFrom, rescanned_eq_scanFrom]
  exact scanFrom_alike (alike_lines (length_contentsFrom _ _) (sameOutsideLiterals_iff.1 h)) 0

/-! ### What is found in the code -/

@[simp] lemma Line.code_bare (l : Line) : l.bare.code = l.code := rfl

@[simp] lemma Line.depth_bare (l : Line) : l.bare.depth = l.depth := rfl

@[simp] lemma Line.isBlank_bare (l : Line) : l.bare.isBlank = l.isBlank := rfl

@[simp] lemma bodyLines_bare (base depth : Nat) (opened : Bool) (before : Nat) (ls : List Line) :
    bodyLines base depth opened before (ls.map Line.bare)
      = bodyLines base depth opened before ls := by
  induction ls generalizing depth opened before with
  | nil => rfl
  | cons l more ih =>
    rw [List.map_cons, bodyLines, bodyLines, ih]
    rfl

@[simp] lemma extent_bare (ls : List Line) : extent (ls.map Line.bare) = extent ls := by
  cases ls with
  | nil => rfl
  | cons l more =>
    have hbody := bodyLines_bare l.depth l.depth false 0 (l :: more)
    rw [List.map_cons] at hbody
    simp only [List.map_cons, extent, Line.code_bare, Line.depth_bare, hbody]

end HouseStyle.Script

namespace HouseStyle

/-- What is known about a function, without its doc comment. -/
def FunctionFacts.undocumented (f : FunctionFacts) : FunctionFacts := { f with documented := false }

/-- What is known about a type, without its doc comment. -/
def TypeFacts.undocumented (t : TypeFacts) : TypeFacts := { t with documented := false }

/-- A finding without what it says of a doc comment, if it is a function, a type or a name. -/
def Survey.Finding.inCode? : Survey.Finding → Option Survey.Finding
  | .function f => some (.function f.undocumented)
  | .type t => some (.type t.undocumented)
  | .name n => some (.name n)
  | _ => none

end HouseStyle

namespace HouseStyle.Script

open Survey

variable {dialect : Dialect}

/-- What is noted about a doc comment is not found in the code. -/
lemma filterMap_inCode?_doc (doc : Option Doc) : (doc.toList.flatMap fun d =>
    [Finding.docDelimiter d.delimiter, .docFormat d.format]).filterMap Finding.inCode? = [] := by
  cases doc <;> rfl

lemma functionFindings_bare {above above' : List Line} (habove : above'.length = above.length)
    (l : Line) (below : List Line) (name : List Char) :
    (functionFindings dialect above' l.bare (below.map Line.bare) name).filterMap Finding.inCode?
      = (functionFindings dialect above l below name).filterMap Finding.inCode? := by
  have hextent : extent (l.bare :: below.map Line.bare) = extent (l :: below) :=
    extent_bare (l :: below)
  have hflow (n : Nat) : ((l.bare :: below.map Line.bare).take n).map (fun m => lineFlow m.code)
      = ((l :: below).take n).map fun m => lineFlow m.code := by
    rw [← List.map_cons, ← List.map_take, List.map_map]
    rfl
  simp only [functionFindings, List.filterMap_append, filterMap_inCode?_doc, hextent, hflow, habove,
    Line.code_bare]
  rfl

lemma typeFindings_bare {above above' : List Line} (habove : above'.length = above.length)
    (name : List Char) :
    (typeFindings above' name).filterMap Finding.inCode?
      = (typeFindings above name).filterMap Finding.inCode? := by
  simp only [typeFindings, List.filterMap_append, filterMap_inCode?_doc, habove]
  rfl

lemma lineFindings_bare (bodies : List Nat) {above above' : List Line}
    (habove : above'.length = above.length) (l : Line) (below : List Line) :
    (lineFindings dialect bodies above' l.bare (below.map Line.bare)).filterMap Finding.inCode?
      = (lineFindings dialect bodies above l below).filterMap Finding.inCode? := by
  have himports (is : List ImportFacts) :
      (is.map Finding.imported).filterMap Finding.inCode? = [] := by
    simp [Finding.inCode?]
  rw [lineFindings, lineFindings, Line.isBlank_bare]
  split
  · rfl
  · simp only [List.filterMap_append, himports, List.nil_append, Line.code_bare, Line.depth_bare]
    cases typeName? dialect l.code with
    | some name => exact typeFindings_bare habove name
    | none =>
      cases functionName? ((openBodies l.depth bodies).head? == some l.depth) l.code with
      | some name => exact functionFindings_bare habove l below name
      | none => rfl

/-- Functions, types and names are found in the code of the lines. -/
lemma findings_bare (bodies : List Nat) {above above' : List Line}
    (habove : above'.length = above.length) (ls : List Line) :
    (findings dialect bodies above' (ls.map Line.bare)).filterMap Finding.inCode?
      = (findings dialect bodies above ls).filterMap Finding.inCode? := by
  induction ls generalizing bodies above above' with
  | nil => rfl
  | cons l below ih =>
    have hnext : (l.bare :: above').length = (l :: above).length := congrArg Nat.succ habove
    rw [List.map_cons, findings_cons, findings_cons, List.filterMap_append, List.filterMap_append,
      lineFindings_bare bodies habove, ← ih (bodiesBelow dialect bodies l) hnext]
    rfl

/-! ### Two scripts -/

section Pair

variable {language : String} {path : SourcePath} {source source' : List Char}

/-- What is read off findings without their doc comments is the same for the same code. -/
lemma map_filterMap_of_bare (dialect : Dialect) {α : Type} {f : Finding → Option α} {g : α → α}
    (hf : ∀ x, x.inCode?.bind f = (f x).map g) {ls ls' : List Line}
    (h : ls'.map Line.bare = ls.map Line.bare) :
    ((findings dialect [] [] ls).filterMap f).map g
      = ((findings dialect [] [] ls').filterMap f).map g := by
  have hcode (found : List Finding) :
      (found.filterMap f).map g = (found.filterMap Finding.inCode?).filterMap f := by
    simp only [List.map_filterMap, List.filterMap_filterMap, hf]
  rw [hcode, hcode, ← findings_bare [] (Eq.refl [].length) ls,
    ← findings_bare [] (Eq.refl [].length) ls', h]

/-- Two scripts that differ only in the contents of their literals have the same functions, types
and names, apart from doc comments, and the same literals. -/
theorem contents_inert (h : SameOutsideLiterals source source') :
    (read dialect language path source).functions.map FunctionFacts.undocumented
        = (read dialect language path source').functions.map FunctionFacts.undocumented ∧
      (read dialect language path source).types.map TypeFacts.undocumented
        = (read dialect language path source').types.map TypeFacts.undocumented ∧
      (read dialect language path source).names = (read dialect language path source').names ∧
      (read dialect language path source).quotes = (read dialect language path source').quotes := by
  obtain ⟨hlines, hquotes⟩ := h.rescanned
  have hfunctions := map_filterMap_of_bare dialect (f := Finding.function?)
    (g := FunctionFacts.undocumented) (fun x => by cases x <;> rfl) hlines
  have htypes := map_filterMap_of_bare dialect (f := Finding.type?)
    (g := TypeFacts.undocumented) (fun x => by cases x <;> rfl) hlines
  have hnames := map_filterMap_of_bare dialect (f := Finding.named?) (g := id)
    (fun x => by cases x <;> rfl) hlines
  refine ⟨?_, ?_, ?_, ?_⟩
  · rw [functions_read, functions_read, hfunctions]
  · rw [types_read, types_read, htypes]
  · rw [List.map_id, List.map_id] at hnames
    rw [names_read, names_read, hnames]
  · rw [quotes_read, quotes_read, hquotes]

/-- A script with words in its literals. -/
def calm : List Char :=
  ("const text = `one two three\n  four`;\nfunction greet(name = 'abcde') \x7b\n" ++
    "  return name ? \"yes\" : 'no\\'t';\n\x7d\n").toList

/-- The same script with other characters in its literals. -/
def hostile : List Char :=
  ("const text = `function x()\x7b\n/* é \x7b`;\nfunction greet(name = '//\x7b),') \x7b\n" ++
    "  return name ? \"?\x7d'\" : '/*\\'\x7d';\n\x7d\n").toList

theorem contents_inert_hostile :
    SameOutsideLiterals calm hostile ∧
      (read .plain "javascript" "a.js" calm).functions
        = [⟨"greet", 3, 3, ⟨0, 0, 0, 0, 1, 0⟩, false, none⟩] ∧
      (read .plain "javascript" "a.js" calm).functions.map FunctionFacts.undocumented
        = (read .plain "javascript" "a.js" hostile).functions.map FunctionFacts.undocumented ∧
      (read .plain "javascript" "a.js" calm).types.map TypeFacts.undocumented
        = (read .plain "javascript" "a.js" hostile).types.map TypeFacts.undocumented ∧
      (read .plain "javascript" "a.js" calm).names
        = (read .plain "javascript" "a.js" hostile).names ∧
      (read .plain "javascript" "a.js" calm).quotes
        = (read .plain "javascript" "a.js" hostile).quotes := by
  have hsame : SameOutsideLiterals calm hostile := sameOutsideLiterals_iff.2 (by decide +kernel)
  exact ⟨hsame, by decide +kernel, contents_inert hsame⟩

end Pair

end HouseStyle.Script
