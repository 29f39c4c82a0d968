import HouseStyle.Script.Lookahead
import Mathlib.Tactic.Common

/-!
# Looking ahead is scanning in one pass

Files are read by a scanner that blanks out the texts of a line before it looks for a block
comment, and then scans the part before the comment again (`rescanned`).  The result is that of
one pass from left to right through the modes of the scanner (`scan`).

Blanking and the one pass do the same, character by character, until the one pass enters a block
comment.  There the blanked line shows the start of the comment, and nowhere before: inside of a
literal a slash is blanked out, and outside of one the two slashes of a line comment end the line.
So the first start in the blanked line is the place at which the one pass enters the comment
(`agrees`), and from there on the rest of the line is a shorter line.
-/

namespace HouseStyle

namespace QuoteCount

@[simp] lemma none_add (q : QuoteCount) : none + q = q := by
  obtain ⟨single, double⟩ := q
  change (⟨0 + single, 0 + double⟩ : QuoteCount) = ⟨single, double⟩
  rw [Nat.zero_add, Nat.zero_add]

lemma add_assoc (p q r : QuoteCount) : p + q + r = p + (q + r) := by
  change (⟨p.single + q.single + r.single, p.double + q.double + r.double⟩ : QuoteCount)
    = ⟨p.single + (q.single + r.single), p.double + (q.double + r.double)⟩
  rw [Nat.add_assoc, Nat.add_assoc]

end QuoteCount

namespace Script

/-- What a line of a mode that reaches over a line end starts inside of. -/
def Mode.carried : Mode → Carried
  | template => ⟨true, false⟩
  | comment => ⟨false, true⟩
  | _ => ⟨false, false⟩

/-- What the one pass makes of a line, as the other scanner gives it. -/
def Scanned.rescanned (s : Scanned) : Rescanned := ⟨s.code, s.quotes, s.mode.atLineEnd.carried⟩

/-- What the one pass makes of a line, with what was found before it. -/
def Scanned.behind (code : List Char) (quotes : QuoteCount) (s : Scanned) : Scanned :=
  { s with code := code ++ s.code, quotes := quotes + s.quotes }

/-- A blanked line, with what was found before it. -/
def Blanked.behind (code : List Char) (quotes : QuoteCount) (b : Blanked) : Blanked :=
  { b with code := code ++ b.code, quotes := quotes + b.quotes }

lemma Scanned.emit_eq (c : Char) (s : Scanned) : s.emit c = s.behind [c] .none := by
  simp [emit, behind]

lemma Blanked.emit_eq (c : Char) (b : Blanked) : b.emit c = b.behind [c] .none := by
  simp [emit, behind]

/-! ### Blanked lines -/

/-- A character is put before a blanked line without starting a comment there. -/
lemma commentStart?_cons {c : Char} {code : List Char} (h : ¬ (c = '/' ∧ code.head? = some '*')) :
    commentStart? (c :: code) = (commentStart? code).map (· + 1) := by
  rw [commentStart?]
  rintro rest rfl rfl
  exact h ⟨rfl, rfl⟩

/-- Outside of literals, the blanked line starts with the character of the line, if with any. -/
lemma head?_blank {c : Char} {cs : List Char} (h : (blank none false cs).code.head? = some c) :
    cs.head? = some c := by
  cases cs with
  | nil => simp [blank] at h
  | cons d rest =>
    rw [blank] at h
    split_ifs at h
    · simp at h
    all_goals exact h

/-- What blanking makes of a character in code that neither starts a comment nor a literal. -/
lemma blank_code {c : Char} {cs : List Char} (hslashes : ¬ (c = '/' ∧ cs.head? = some '/'))
    (hc : Mode.opened? c = none) :
    blank none false (c :: cs) = (blank none false cs).behind [c] .none := by
  simp only [Mode.opened?] at hc
  rw [blank, if_neg hslashes]
  split_ifs at hc ⊢
  exact Blanked.emit_eq _ _

/-- What blanking makes of a quote that starts a literal. -/
lemma blank_opened {c : Char} {cs : List Char} {literal : Mode}
    (hc : Mode.opened? c = some literal) :
    blank none false (c :: cs)
      = (blank literal.delimiter? false cs).behind [c] literal.counted := by
  have hslash : c ≠ '/' := by
    rintro rfl
    simp [Mode.opened?] at hc
  simp only [Mode.opened?] at hc
  rw [blank, if_neg fun h => hslash h.1]
  split_ifs at hc ⊢ with h1 h2 h3
  · obtain rfl := Option.some.inj hc
    rw [h1]
    rfl
  · obtain rfl := Option.some.inj hc
    rw [h2]
    rfl
  · obtain rfl := Option.some.inj hc
    rw [h3, Blanked.emit_eq]
    rfl

lemma blank_escape (quote d : Char) (cs : List Char) :
    blank (some quote) false ('\\' :: d :: cs)
      = (blank (some quote) false cs).behind [' ', ' '] .none := by
  simp [blank, Blanked.emit, Blanked.behind]

lemma blank_delimiter {quote : Char} (h : quote ≠ '\\') (cs : List Char) :
    blank (some quote) false (quote :: cs) = (blank none false cs).behind [quote] .none := by
  simp [blank, h, Blanked.emit_eq]

/-! ### Up to the first comment -/

/-- What the two scanners have in common on a line that starts in a mode: without a block comment
in the blanked line they find the same, and with one the one pass enters a comment at that place,
behind what blanking makes of the line before it. -/
def Agrees (mode : Mode) (cs : List Char) : Prop :=
  match commentStart? (blank mode.delimiter? false cs).code with
  | none => (scanLine mode cs).rescanned =
      ⟨(blank mode.delimiter? false cs).code, (blank mode.delimiter? false cs).quotes,
        ⟨(blank mode.delimiter? false cs).openTemplate, false⟩⟩
  | some i => ∃ after, cs.drop i = '/' :: '*' :: after ∧
      (blank mode.delimiter? false (cs.take i)).openTemplate = false ∧
      scanLine mode cs = (scanLine .comment after).behind
        (blank mode.delimiter? false (cs.take i)).code
        (blank mode.delimiter? false (cs.take i)).quotes

lemma Scanned.behind_behind (xs ys : List Char) (p q : QuoteCount) (s : Scanned) :
    (s.behind ys q).behind xs p = s.behind (xs ++ ys) (p + q) := by
  simp [behind, QuoteCount.add_assoc]

/-- Where both scanners leave the same in front of a line on which they agree, they agree. -/
lemma Agrees.behind {mode mode' : Mode} (xs es : List Char) (q : QuoteCount) {rest : List Char}
    (hlength : es.length = xs.length)
    (hscan : scanLine mode (xs ++ rest) = (scanLine mode' rest).behind es q)
    (hblank : ∀ ys, ys <+: rest → blank mode.delimiter? false (xs ++ ys)
      = (blank mode'.delimiter? false ys).behind es q)
    (hstart : commentStart? (es ++ (blank mode'.delimiter? false rest).code)
      = (commentStart? (blank mode'.delimiter? false rest).code).map (· + es.length))
    (h : Agrees mode' rest) : Agrees mode (xs ++ rest) := by
  have hcode : (blank mode.delimiter? false (xs ++ rest)).code
      = es ++ (blank mode'.delimiter? false rest).code := by
    rw [hblank rest (List.prefix_refl rest)]
    rfl
  rw [Agrees] at h
  rw [Agrees, hcode, hstart]
  cases hi : commentStart? (blank mode'.delimiter? false rest).code with
  | none =>
    simp only [hi] at h
    simp only [Option.map_none]
    rw [hscan, hblank rest (List.prefix_refl rest)]
    simp only [Scanned.rescanned, Rescanned.mk.injEq] at h ⊢
    obtain ⟨hc, hq, hm⟩ := h
    refine ⟨?_, ?_, hm⟩
    · simp only [Scanned.behind, hc]
    · simp only [Scanned.behind, Blanked.behind, hq]
  | some i =>
    simp only [hi] at h
    simp only [Option.map_some]
    obtain ⟨after, hdrop, hopen, hafter⟩ := h
    have htake : (xs ++ rest).take (i + es.length) = xs ++ rest.take i := by
      rw [hlength, List.take_append, List.take_of_length_le (by omega), Nat.add_sub_cancel]
    refine ⟨after, ?_, ?_, ?_⟩
    · rw [hlength, List.drop_append, List.drop_of_length_le (by omega), Nat.add_sub_cancel,
        List.nil_append, hdrop]
    · rw [htake, hblank _ (List.take_prefix i rest)]
      exact hopen
    · rw [htake, hscan, hafter, hblank _ (List.take_prefix i rest), Scanned.behind_behind]
      rfl

@[simp] lemma Mode.delimiter?_code : Mode.code.delimiter? = none := rfl

lemma delimiter?_of_opened? {c : Char} {literal : Mode} (h : Mode.opened? c = some literal) :
    literal.delimiter? = some c ∧ literal ≠ .comment := by
  simp only [Mode.opened?] at h
  split_ifs at h with h1 h2 h3
  all_goals
    obtain rfl := Option.some.inj h
    constructor <;> simp_all [Mode.delimiter?]

lemma delimiter?_eq_some {mode : Mode} {c : Char} (h : mode.delimiter? = some c) :
    c ≠ '/' ∧ c ≠ '\\' := by
  cases mode <;> simp only [Mode.delimiter?, Option.some.injEq, reduceCtorEq] at h <;> subst h <;>
    decide

lemma not_head?_of_cons {c d e : Char} {rest : List Char}
    (h : ∀ tail, c = d → rest = e :: tail → False) : ¬ (c = d ∧ rest.head? = some e) := by
  rintro ⟨hc, hrest⟩
  obtain ⟨tail, htail⟩ := List.head?_eq_some_iff.1 hrest
  exact h tail hc htail

lemma head?_of_isPrefix {c : Char} {ys rest : List Char} (h : ys <+: rest)
    (hc : ys.head? = some c) : rest.head? = some c := by
  obtain ⟨t, rfl⟩ := h
  simp [List.head?_append, hc]

/-- The two scanners agree on every line, in every mode in which a line or the rest of a line
behind a comment can start. -/
lemma agrees (mode : Mode) (cs : List Char) (hmode : mode ≠ .comment) : Agrees mode cs := by
  -- the cases are those of the one pass
  fun_induction scanLine mode cs with
  | case1 mode =>
    cases mode <;> first | exact absurd rfl hmode | rfl
  | case2 => exact absurd rfl hmode
  | case3 => exact absurd rfl hmode
  | case4 tail =>
    have hblank : blank none false ('/' :: '/' :: tail) = ⟨[], .none, false⟩ := by simp [blank]
    rw [Agrees, Mode.delimiter?_code, hblank]
    rfl
  | case5 rest =>
    have hblank : (blank none false ('/' :: '*' :: rest)).code
        = '/' :: '*' :: (blank none false rest).code := by
      simp [blank, Blanked.emit]
    -- the comment starts right here, and nothing stands before it
    rw [Agrees, Mode.delimiter?_code, hblank]
    exact ⟨rest, rfl, rfl, by simp [Scanned.behind, blank, scanLine]⟩
  | case6 c rest hslashes hstart literal hliteral ih =>
    obtain ⟨hdelimiter, hne⟩ := delimiter?_of_opened? hliteral
    have hslash := (delimiter?_eq_some hdelimiter).1
    refine Agrees.behind [c] [c] literal.counted rfl ?_ ?_ ?_ (ih hne)
    · rw [List.singleton_append, scanLine, hliteral]
      · rfl
      · exact hslashes
      · exact hstart
    · intro ys _
      exact blank_opened hliteral
    · exact commentStart?_cons fun h => hslash h.1
  | case7 c rest hslashes hstart hnone ih =>
    have hstart' := not_head?_of_cons hstart
    refine Agrees.behind [c] [c] .none rfl ?_ ?_ ?_ (ih (by decide))
    · rw [List.singleton_append, scanLine, hnone]
      · exact Scanned.emit_eq _ _
      · exact hslashes
      · exact hstart
    · intro ys hys
      refine blank_code ?_ hnone
      rintro ⟨hc, hhead⟩
      exact not_head?_of_cons hslashes ⟨hc, head?_of_isPrefix hys hhead⟩
    · exact commentStart?_cons fun h => hstart' ⟨h.1, head?_blank h.2⟩
  | case8 literal d rest hcomment hcode ih =>
    -- a backslash and the character behind it are two blanks on both sides
    obtain ⟨quote, hquote⟩ : ∃ quote, literal.delimiter? = some quote := by
      cases literal <;> simp_all [Mode.delimiter?]
    refine Agrees.behind ['\\', d] [' ', ' '] .none rfl ?_ ?_ ?_ (ih hcomment)
    · rw [List.cons_append, List.cons_append, List.nil_append, scanLine]
      · simp [Scanned.emit, Scanned.behind]
      · exact hcomment
      · exact hcode
    · intro ys _
      rw [hquote]
      exact blank_escape quote d ys
    · simp [commentStart?, Option.map_map, Function.comp_def]
  | case9 literal c rest _ hcomment _ _ hcode hescape hc ih =>
    obtain ⟨hslash, hback⟩ := delimiter?_eq_some hc
    refine Agrees.behind [c] [c] .none rfl ?_ ?_ ?_ (ih (by decide))
    · rw [List.singleton_append, scanLine, if_pos hc]
      · exact Scanned.emit_eq _ _
      all_goals assumption
    · intro ys _
      rw [hc]
      exact blank_delimiter hback ys
    · exact commentStart?_cons fun h => hslash h.1
  | case10 literal c rest _ hcomment _ _ hcode hescape hc ih =>
    obtain ⟨quote, hquote⟩ : ∃ quote, literal.delimiter? = some quote := by
      cases literal <;> simp_all [Mode.delimiter?]
    refine Agrees.behind [c] [' '] .none rfl ?_ ?_ ?_ (ih hcomment)
    · rw [List.singleton_append, scanLine, if_neg hc]
      · exact Scanned.emit_eq _ _
      all_goals assumption
    · intro ys hys
      rw [hquote]
      by_cases hback : c = '\\'
      · -- a backslash at the end of the line has nothing to blank out
        obtain rfl : rest = [] := by
          cases rest with
          | nil => rfl
          | cons d rest => exact (hescape d rest hback rfl).elim
        obtain rfl := List.prefix_nil.1 hys
        simp [blank, hback, Blanked.emit, Blanked.behind]
      · have hne : c ≠ quote := by
          rintro rfl
          exact hc hquote
        simp [blank, hback, hne, Blanked.emit_eq]
    · exact commentStart?_cons fun h => absurd h.1 (by decide)

/-! ### Places in bytes -/

/-- A text is cut where a part of it ends in bytes. -/
lemma cutAtByte?_append (xs ys : List Char) :
    cutAtByte? (byteLength xs) (xs ++ ys) = some (xs, ys) := by
  induction xs with
  | nil => cases ys <;> rfl
  | cons c xs ih =>
    obtain ⟨n, hn⟩ := Nat.exists_eq_succ_of_ne_zero (Nat.ne_of_gt c.utf8Size_pos)
    have hlength : byteLength (c :: xs) = (n + byteLength xs) + 1 := by
      rw [byteLength, List.map_cons, Count.sum_cons, hn, Nat.succ_add]
      rfl
    have hrest : n + byteLength xs + 1 - c.utf8Size = byteLength xs := by omega
    rw [hlength, List.cons_append, cutAtByte?, if_pos (by omega), hrest, ih]
    rfl

lemma beforeByte_bytePlace (cs : List Char) (i : Nat) :
    beforeByte (bytePlace cs i) cs = cs.take i := by
  have h := cutAtByte?_append (cs.take i) (cs.drop i)
  rw [List.take_append_drop] at h
  rw [beforeByte, bytePlace, h]
  rfl

/-- Two bytes behind the place of a comment the text goes on behind its two characters. -/
lemma fromByte_bytePlace {cs after : List Char} {i : Nat} (h : cs.drop i = '/' :: '*' :: after) :
    fromByte (bytePlace cs i + 2) cs = after := by
  have hcut := cutAtByte?_append (cs.take i ++ ['/', '*']) after
  have hcs : cs.take i ++ ['/', '*'] ++ after = cs := by
    rw [List.append_assoc, List.cons_append, List.cons_append, List.nil_append, ← h,
      List.take_append_drop]
  have hlength : byteLength (cs.take i ++ ['/', '*']) = bytePlace cs i + 2 := by
    rw [byteLength, List.map_append, Count.sum_append]
    rfl
  rw [hcs, hlength] at hcut
  rw [fromByte, hcut]
  rfl

/-! ### The cases of the one pass -/

/-- What follows a character is as little a certain character if it starts in the same way. -/
lemma not_cons_of_head?_eq {c d e : Char} {rest rest' : List Char}
    (hhead : rest'.head? = rest.head?) (h : ∀ tail, c = d → rest = e :: tail → False) :
    ∀ tail, c = d → rest' = e :: tail → False := by
  rintro tail hc rfl
  exact not_head?_of_cons h ⟨hc, hhead.symm⟩

lemma scanLine_comment_cons {c : Char} {rest : List Char}
    (hend : ∀ tail, c = '*' → rest = '/' :: tail → False) :
    scanLine .comment (c :: rest) = scanLine .comment rest := by
  rw [scanLine]
  exact hend

lemma Scanned.count_none (s : Scanned) : s.count .none = s := by simp [count]

lemma scanLine_code_cons {c : Char} {rest : List Char}
    (hslashes : ∀ tail, c = '/' → rest = '/' :: tail → False)
    (hstart : ∀ tail, c = '/' → rest = '*' :: tail → False) :
    scanLine .code (c :: rest)
      = ((scanLine ((Mode.opened? c).getD .code) rest).emit c).count
          (((Mode.opened? c).map Mode.counted).getD .none) := by
  rw [scanLine]
  · cases Mode.opened? c with
    | some literal => rfl
    | none => exact (Scanned.count_none _).symm
  · exact hslashes
  · exact hstart

lemma scanLine_escape {literal : Mode} (hcomment : literal ≠ .comment) (hcode : literal ≠ .code)
    (d : Char) (rest : List Char) :
    scanLine literal ('\\' :: d :: rest) = ((scanLine literal rest).emit ' ').emit ' ' := by
  rw [scanLine]
  exacts [hcomment, hcode]

lemma scanLine_literal {literal : Mode} {c : Char} {rest : List Char}
    (hcomment : literal ≠ .comment) (hcode : literal ≠ .code)
    (hescape : ∀ d tail, c = '\\' → rest = d :: tail → False) :
    scanLine literal (c :: rest) =
      if literal.delimiter? = some c then (scanLine .code rest).emit c
      else (scanLine literal rest).emit ' ' := by
  rw [scanLine]
  all_goals first | exact hescape | exact hcode | simp_all

/-! ### Lines and files -/

lemma scanLine_comment (cs : List Char) :
    scanLine .comment cs =
      match afterComment? cs with
      | some rest => (scanLine .code rest).emit ' '
      | none => ⟨[], .none, .comment⟩ := by
  fun_induction afterComment? cs with
  | case1 rest => rfl
  | case2 c rest h ih =>
    rw [scanLine]
    · exact ih
    · exact h
  | case3 => rfl

/-- Code or a template literal goes on to the end of the line, or to a block comment. -/
lemma rescanStep_code {mode : Mode} (hmode : mode = .code ∨ mode = .template) (cs : List Char) :
    rescanStep mode.carried cs = ((scanLine mode cs).rescanned, none) ∨
    ∃ code quotes after, rescanStep mode.carried cs
        = (⟨code, quotes, Mode.comment.carried⟩, some after) ∧
      scanLine mode cs = (scanLine .comment after).behind code quotes := by
  have hagrees : Agrees mode cs := agrees mode cs (by rcases hmode with rfl | rfl <;> decide)
  have hcomment : mode.carried.inComment = false := by rcases hmode with rfl | rfl <;> rfl
  have hblank : ∀ xs, blankLine mode.carried.inTemplate xs = blank mode.delimiter? false xs := by
    rcases hmode with rfl | rfl <;> exact fun _ => rfl
  rw [Agrees] at hagrees
  simp only [rescanStep, hcomment, hblank]
  cases hi : commentStart? (blank mode.delimiter? false cs).code with
  | none =>
    simp only [hi] at hagrees
    left
    simp [hi, hagrees]
  | some i =>
    simp only [hi] at hagrees
    obtain ⟨after, hdrop, hopen, hafter⟩ := hagrees
    right
    refine ⟨_, _, after, ?_, hafter⟩
    simp [hi, beforeByte_bytePlace, fromByte_bytePlace hdrop, hopen, Mode.carried]

/-- A comment goes on to the end of the line, or to code behind it. -/
lemma rescanStep_comment (cs : List Char) :
    rescanStep Mode.comment.carried cs = ((scanLine .comment cs).rescanned, none) ∨
    ∃ code quotes after, rescanStep Mode.comment.carried cs
        = (⟨code, quotes, Mode.comment.carried⟩, some after) ∧
      scanLine .comment cs = (scanLine .comment after).behind code quotes := by
  rw [scanLine_comment]
  cases hafter : afterComment? cs with
  | none =>
    left
    simp [rescanStep, Mode.carried, hafter, Scanned.rescanned, Mode.atLineEnd]
  | some rest =>
    have hstep : rescanStep Mode.comment.carried cs
        = ((rescanStep Mode.code.carried rest).1.behind [' '] .none,
          (rescanStep Mode.code.carried rest).2) := by
      simp only [rescanStep, Mode.carried, hafter]
      cases hstart : commentStart? (blankLine false rest).code <;> simp [hstart, Rescanned.behind]
    rcases rescanStep_code (Or.inl rfl) rest with hcode | ⟨code, quotes, after, hcode, hscan⟩
    · left
      rw [hstep, hcode]
      simp only [Scanned.emit_eq]
      rfl
    · right
      refine ⟨' ' :: code, quotes, after, ?_, ?_⟩
      · rw [hstep, hcode]
        simp [Rescanned.behind]
      · simp only [hscan, Scanned.emit_eq, Scanned.behind_behind]
        rw [List.singleton_append, QuoteCount.none_add]

/-- A line is scanned as in one pass, whatever it starts inside of. -/
lemma rescan_eq (mode : Mode) (hmode : mode.atLineEnd = mode) (cs : List Char) :
    rescan mode.carried cs = (scanLine mode cs).rescanned := by
  -- each step ends in a comment further on in the line, so the induction is on its length
  induction hlength : cs.length using Nat.strongRecOn generalizing mode cs with
  | ind n ih =>
    subst hlength
    have hstep : rescanStep mode.carried cs = ((scanLine mode cs).rescanned, none) ∨
        ∃ code quotes after, rescanStep mode.carried cs
            = (⟨code, quotes, Mode.comment.carried⟩, some after) ∧
          scanLine mode cs = (scanLine .comment after).behind code quotes := by
      cases mode with
      | code => exact rescanStep_code (Or.inl rfl) cs
      | template => exact rescanStep_code (Or.inr rfl) cs
      | comment => exact rescanStep_comment cs
      | single => exact absurd hmode (by decide)
      | double => exact absurd hmode (by decide)
    rcases hstep with hstep | ⟨code, quotes, after, hstep, hscan⟩
    · rw [rescan]
      split
      next r heq => rw [(Prod.mk.inj (hstep.symm.trans heq)).1]
      next r rest heq => simp [hstep] at heq
    · have hafter := ih after.length (length_rescanStep hstep) .comment rfl after rfl
      rw [rescan]
      split
      next r heq => simp [hstep] at heq
      next r rest heq =>
        obtain ⟨rfl, hrest⟩ := Prod.mk.inj (hstep.symm.trans heq)
        obtain rfl := Option.some.inj hrest
        rw [hafter, hscan]
        rfl

lemma rescanFrom_eq (mode : Mode) (hmode : mode.atLineEnd = mode) (depth : Nat)
    (ls : List (List Char)) : rescanFrom mode.carried depth ls = scanFrom mode depth ls := by
  induction ls generalizing mode depth with
  | nil => rfl
  | cons raw more ih =>
    have hend : (scanLine mode raw).mode.atLineEnd.atLineEnd
        = (scanLine mode raw).mode.atLineEnd := by
      cases (scanLine mode raw).mode <;> rfl
    rw [rescanFrom, rescan_eq mode hmode raw, scanFrom]
    simp only [Scanned.rescanned, ih _ hend]

/-- The depth of each line is what the code of the lines before it leaves open. -/
lemma depths_scanFrom (mode : Mode) (depth : Nat) (ls : List (List Char)) :
    (scanFrom mode depth ls).1.map Line.depth
      = (((scanFrom mode depth ls).1.map Line.code).scanl depthAfter depth).dropLast := by
  induction ls generalizing mode depth with
  | nil => rfl
  | cons raw more ih =>
    simp only [scanFrom, List.map_cons, List.scanl_cons]
    rw [List.dropLast_cons_of_ne_nil List.scanl_ne_nil, ih]

/-- Files are scanned as their lines are in one pass. -/
lemma rescanned_eq_scanFrom (source : List Char) :
    rescanned source = scanFrom .code 0 (Text.lines source) := rescanFrom_eq .code rfl 0 _

end Script

end HouseStyle
