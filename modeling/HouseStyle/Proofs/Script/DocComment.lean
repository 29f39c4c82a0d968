import HouseStyle.Proofs.Script.Recorded
import Mathlib.Tactic.Common

/-!
# Doc comments and their declarations

Whether a declaration has a doc comment is read off the lines above it.  Lines that start with an at
sign are passed over.  Where the line above them ends a block comment, the search goes up from there
to the nearest line that starts one (`Credited`).  It looks at the starts and the ends of lines
only, so it goes through code that has a comment behind it.

Two declarations therefore have the same comment exactly if no line between the first one and the
comment below it starts a block comment (`Credited.top_eq_iff`).  What is one single comment from
its first line to its last one belongs to a later declaration only, unless the search passed over
the line of an earlier declaration.
-/

namespace HouseStyle

/-- A declared function or type. -/
structure Declaration where
  /-- The line, counted from 1. -/
  line : Nat
  /-- The doc comment. -/
  doc : Option Survey.Doc
deriving DecidableEq

/-- The functions and types among some findings, given what was noted about a doc comment before
them.  A doc comment belongs to the next one of them. -/
def Survey.declarations (delimiter : Option String) (doc : Option Survey.Doc) :
    List Survey.Finding → List Declaration
  | [] => []
  | .docDelimiter label :: more => declarations (some label) doc more
  | .docFormat format :: more => declarations delimiter (delimiter.map (⟨·, format⟩)) more
  | .function f :: more => ⟨f.startLine, doc⟩ :: declarations none none more
  | .type t :: more => ⟨t.startLine, doc⟩ :: declarations none none more
  | _ :: more => declarations delimiter doc more

namespace Script

open Text Survey

/-! ### The lines of a comment -/

/-- Whether a line may stand between a doc comment and its declaration. -/
def Line.isDecorator (l : Line) : Bool := startsWith l.start "@"

/-- Whether a line starts with the start of a block comment. -/
def Line.startsBlock (l : Line) : Bool := startsWith l.start "/*"

/-- The lines from one number to another. -/
def between (ls : List Line) (top last : Nat) : List Line := (ls.take (last + 1)).drop top

/-- The text of some lines without the blanks around each of them. -/
def joined (ls : List Line) : List Char := List.intercalate ['\n'] (ls.map fun l => trim l.raw)

/-- Whether a text is one doc comment: the first end of a comment in it is its end. -/
def isSingleComment (text : List Char) : Bool :=
  startsWith text "/**" && (afterComment? (text.drop 2) == some [])

/-- The lines of a file that are taken for the doc comment of what is declared on a line.  Lines are
counted from zero. -/
structure Credited (ls : List Line) (top last place : Nat) : Prop where
  top_le : top ≤ last
  last_lt : last < place
  decorators : ∀ i l, last < i → i < place → ls[i]? = some l → l.isDecorator = true
  undecorated : ∀ l ∈ ls[last]?, l.isDecorator = false
  closes : ∀ l ∈ ls[last]?, endsWith (trim l.raw) "*/" = true
  opens : ∀ l ∈ ls[top]?, startsWith l.start "/**" = true
  nearest : ∀ i l, top < i → i ≤ last → ls[i]? = some l → l.startsBlock = false

variable {ls : List Line}

/-- What starts a doc comment starts a block comment. -/
lemma Line.startsBlock_of_doc {l : Line} (h : startsWith l.start "/**" = true) :
    l.startsBlock = true := by
  simp only [Line.startsBlock, startsWith, List.isPrefixOf_iff_prefix] at h ⊢
  exact (by decide : "/*".toList <+: "/**".toList).trans h

lemma Line.isDecorator_of_startsBlock {l : Line} (h : l.startsBlock = true) :
    l.isDecorator = false := by
  rw [Line.startsBlock, startsWith, List.isPrefixOf_iff_prefix] at h
  obtain ⟨rest, hrest⟩ := h
  rw [Line.isDecorator, ← hrest]
  rfl

namespace Credited

variable {top last top' last' place place' : Nat}

/-- The lines of the doc comment of a declaration are determined. -/
lemma unique (h : Credited ls top last place) (h' : Credited ls top' last' place)
    (hplace : place ≤ ls.length) : top = top' ∧ last = last' := by
  have hline {i : Nat} (hi : i < place) : ls[i]? = some ls[i] := List.getElem?_eq_getElem _
  have := h.last_lt
  have := h'.last_lt
  have := h.top_le
  have := h'.top_le
  -- both are the nearest line of their kind
  have hlast : last = last' := by
    rcases Nat.lt_trichotomy last last' with hlt | heq | hlt
    · have hdecorated := h.decorators last' _ hlt h'.last_lt (hline h'.last_lt)
      rw [h'.undecorated _ (hline h'.last_lt)] at hdecorated
      cases hdecorated
    · exact heq
    · have hdecorated := h'.decorators last _ hlt h.last_lt (hline h.last_lt)
      rw [h.undecorated _ (hline h.last_lt)] at hdecorated
      cases hdecorated
  refine ⟨?_, hlast⟩
  rcases Nat.lt_trichotomy top top' with hlt | heq | hlt
  · have hstart := Line.startsBlock_of_doc (h'.opens _ (hline (by omega)))
    rw [h.nearest top' _ hlt (by omega) (hline (by omega))] at hstart
    cases hstart
  · exact heq
  · have hstart := Line.startsBlock_of_doc (h.opens _ (hline (by omega)))
    rw [h'.nearest top _ hlt (by omega) (hline (by omega))] at hstart
    cases hstart

/-- A later declaration has the same comment exactly if the comment starts above the earlier one. -/
lemma top_eq_iff (h : Credited ls top last place) (h' : Credited ls top' last' place')
    (hlt : place < place') (hplace : place ≤ ls.length) : top = top' ↔ top' < place := by
  constructor
  · rintro rfl
    exact Nat.lt_of_le_of_lt h.top_le h.last_lt
  · intro habove
    -- what the later declaration has is also what the earlier one has
    rcases Nat.lt_or_ge last' place with hlast | hlast
    · have hsame : Credited ls top' last' place :=
        { h' with
          last_lt := hlast
          decorators := fun i l hi hplace => h'.decorators i l hi (Nat.lt_trans hplace hlt) }
      exact (h.unique hsame hplace).1
    · have hline : ls[top']? = some ls[top'] := List.getElem?_eq_getElem (by omega)
      have hstart := Line.startsBlock_of_doc (h'.opens _ hline)
      have htop : top' ≤ last := by
        by_contra hbelow
        have hdecorated := h.decorators top' _ (by omega) habove hline
        rw [Line.isDecorator_of_startsBlock hstart] at hdecorated
        cases hdecorated
      have hlast' : last ≤ last' := Nat.le_trans (Nat.le_of_lt h.last_lt) hlast
      have hsame : Credited ls top' last place :=
        { h with
          top_le := htop
          opens := h'.opens
          nearest := fun i l hi hle => h'.nearest i l hi (Nat.le_trans hle hlast') }
      exact (h.unique hsame hplace).1

end Credited

/-! ### Single comments -/

lemma joined_append {xs ys : List Line} (hxs : xs ≠ []) (hys : ys ≠ []) :
    joined (xs ++ ys) = joined xs ++ '\n' :: joined ys := by
  induction xs with
  | nil => exact absurd rfl hxs
  | cons x xs ih =>
    cases xs with
    | nil =>
      rw [joined, List.singleton_append, List.map_cons,
        List.intercalate_cons_of_ne_nil (by simpa using hys)]
      simp [joined]
    | cons y xs =>
      have hrest := ih (List.cons_ne_nil y xs)
      simp only [joined, List.cons_append, List.map_cons, List.intercalate_cons_cons] at hrest ⊢
      rw [hrest]
      simp

/-- Behind the end of a comment that is found more text is left than behind a later one. -/
lemma exists_afterComment? (before after : List Char) :
    ∃ rest, afterComment? (before ++ '*' :: '/' :: after) = some rest ∧
      after.length ≤ rest.length := by
  induction before with
  | nil => exact ⟨after, rfl, Nat.le_refl _⟩
  | cons c before ih =>
    obtain ⟨rest, hrest, hlength⟩ := ih
    rw [List.cons_append, afterComment?.eq_def]
    split
    next tail hcs =>
      obtain ⟨-, htail⟩ := List.cons.inj hcs
      refine ⟨tail, rfl, ?_⟩
      have hlengths := congrArg List.length htail
      simp only [List.length_append, List.length_cons] at hlengths
      cases before with
      | nil => simp at htail
      | cons d before =>
        simp only [List.length_cons] at hlengths
        omega
    next c' tail _ hcs =>
      obtain ⟨-, rfl⟩ := List.cons.inj hcs
      exact ⟨rest, hrest, hlength⟩
    next hcs => cases hcs

/-- A text that goes on behind the end of a comment is no single comment. -/
lemma not_isSingleComment (before : List Char) {after : List Char} (hafter : after ≠ []) :
    isSingleComment (before ++ '*' :: '/' :: after) = false := by
  by_contra hsingle
  rw [Bool.not_eq_false, isSingleComment, Bool.and_eq_true, beq_iff_eq, startsWith,
    List.isPrefixOf_iff_prefix] at hsingle
  obtain ⟨⟨text, htext⟩, hend⟩ := hsingle
  -- the end is not part of the start
  obtain ⟨c, d, before, rfl⟩ : ∃ c d before', before = c :: d :: before' := by
    cases before with
    | nil => simp at htext
    | cons c before =>
      cases before with
      | nil => simp at htext
      | cons d before => exact ⟨c, d, before, rfl⟩
  obtain ⟨rest, hrest, hlength⟩ := exists_afterComment? before after
  have hnil : rest = [] := by
    simpa [hrest] using hend
  have hpos := List.length_pos_iff.2 hafter
  rw [hnil, List.length_nil] at hlength
  omega

lemma between_append {top last last' : Nat} (htop : top ≤ last + 1) (hlast : last < last')
    (hlength : last < ls.length) :
    between ls top last' = between ls top last ++ between ls (last + 1) last' := by
  have hlines : ls.take (last' + 1)
      = ls.take (last + 1) ++ (ls.take (last' + 1)).drop (last + 1) := by
    rw [← Nat.min_eq_left (show last + 1 ≤ last' + 1 by omega), ← List.take_take,
      Nat.min_eq_left (show last + 1 ≤ last' + 1 by omega), List.take_append_drop]
  have hfirst : top - (ls.take (last + 1)).length = 0 := by
    rw [List.length_take]
    omega
  rw [between, hlines, List.drop_append, hfirst, List.drop_zero]
  rfl

lemma between_self {last : Nat} {l : Line} (hl : ls[last]? = some l) :
    between ls last last = [l] := by
  obtain ⟨hlength, rfl⟩ := List.getElem?_eq_some_iff.1 hl
  rw [between, List.drop_take, Nat.add_sub_cancel_left, List.drop_eq_getElem_cons hlength]
  rfl

/-- The text of some lines ends like the last one of them. -/
lemma exists_joined_eq {top last : Nat} {l : Line} (htop : top ≤ last) (hl : ls[last]? = some l) :
    ∃ before, joined (between ls top last) = before ++ trim l.raw := by
  have hself : joined [l] = trim l.raw := by simp [joined]
  rcases Nat.eq_or_lt_of_le htop with rfl | hlt
  · exact ⟨[], by rw [between_self hl, hself, List.nil_append]⟩
  · obtain ⟨hlength, -⟩ := List.getElem?_eq_some_iff.1 hl
    obtain ⟨n, rfl⟩ := Nat.exists_eq_add_one_of_ne_zero (Nat.ne_of_gt (Nat.zero_lt_of_lt hlt))
    have hne : between ls top n ≠ [] := by
      rw [between, ne_eq, List.drop_eq_nil_iff, List.length_take]
      omega
    refine ⟨joined (between ls top n) ++ ['\n'], ?_⟩
    rw [between_append (Nat.le_of_lt hlt) (Nat.lt_add_one n) (by omega), between_self hl,
      joined_append hne (List.cons_ne_nil _ _), hself, List.append_assoc, List.singleton_append]

/-- What is one single comment does not belong to an earlier declaration as well, unless the line of
that declaration was passed over. -/
lemma Credited.top_ne {top last top' last' place place' : Nat} (h : Credited ls top last place)
    (h' : Credited ls top' last' place') (hlt : place < place') (hplace : place' ≤ ls.length)
    (hsingle : isSingleComment (joined (between ls top' last')) = true)
    (hline : ∀ l ∈ ls[place]?, l.isDecorator = false) : top ≠ top' := by
  rintro rfl
  have := h.last_lt
  have hlast : last < last' := by
    by_contra hle
    -- the line of the earlier declaration stands below the comment
    have hat : ls[place]? = some ls[place] := List.getElem?_eq_getElem (by omega)
    have hdecorated := h'.decorators place _ (by omega) hlt hat
    rw [hline _ hat] at hdecorated
    cases hdecorated
  have hat : ls[last]? = some ls[last] := List.getElem?_eq_getElem (by omega)
  obtain ⟨before, hbefore⟩ := exists_joined_eq h.top_le hat
  have hcloses := h.closes _ hat
  rw [endsWith, List.isSuffixOf_iff_suffix] at hcloses
  obtain ⟨text, htext⟩ := hcloses
  have hfirst : joined (between ls top last) = (before ++ text) ++ ['*', '/'] := by
    rw [hbefore, ← htext, List.append_assoc]
    rfl
  have hne : between ls top last ≠ [] := by
    rintro hnil
    rw [hnil] at hfirst
    simp [joined] at hfirst
  have hne' : between ls (last + 1) last' ≠ [] := by
    rw [between, ne_eq, List.drop_eq_nil_iff, List.length_take]
    have := h'.last_lt
    omega
  rw [between_append (Nat.le_succ_of_le h.top_le) hlast (by omega), joined_append hne hne', hfirst,
    List.append_assoc] at hsingle
  have hnot := not_isSingleComment (before ++ text)
    (List.cons_ne_nil '\n' (joined (between ls (last + 1) last')))
  rw [List.cons_append, List.cons_append, List.nil_append, hnot] at hsingle
  cases hsingle

/-! ### Looking for a comment -/

lemma blockUp_eq (ls : List Line) : blockUp ls = ls.take (ls.findIdx Line.startsBlock + 1) := by
  induction ls with
  | nil => rfl
  | cons l more ih =>
    rw [blockUp, List.findIdx_cons]
    cases hl : l.startsBlock with
    | true =>
      rw [Line.startsBlock] at hl
      simp [hl]
    | false =>
      rw [Line.startsBlock] at hl
      simp [hl, ih]

/-- The block that starts with a doc comment starts on the nearest line that starts any comment. -/
lemma getLast?_blockUp_iff {top : Line} :
    ((blockUp ls).getLast? = some top ∧ startsWith top.start "/**" = true) ↔
      ls[ls.findIdx Line.startsBlock]? = some top ∧ startsWith top.start "/**" = true := by
  rw [blockUp_eq, List.getLast?_take, if_neg (Nat.succ_ne_zero _), Nat.add_sub_cancel]
  rcases Nat.lt_or_ge (ls.findIdx Line.startsBlock) ls.length with hlt | hge
  · rw [List.getElem?_eq_getElem hlt, Option.some_or]
  · -- no line starts a comment
    rw [List.getElem?_eq_none hge, Option.none_or]
    refine ⟨fun ⟨hlast, hstart⟩ => ?_, fun ⟨hnone, _⟩ => by cases hnone⟩
    have hnot := List.findIdx_eq_length.1 (Nat.le_antisymm List.findIdx_le_length hge) top
      (List.mem_of_getLast? hlast)
    rw [Line.startsBlock_of_doc hstart] at hnot
    cases hnot

/-- What is found on the lines above a declaration if it is a block comment. -/
lemma docAbove?_eq_block_iff {above : List Line} {format : DocFormat} :
    docAbove? above = some ⟨"/**", format⟩ ↔
      ∃ k j last top, above.findIdx (fun l => !l.isDecorator) = k ∧
        (above.drop k).findIdx Line.startsBlock = j ∧ above[k]? = some last ∧
        above[k + j]? = some top ∧ endsWith (trim last.raw) "*/" = true ∧
        startsWith top.start "/**" = true ∧
        format = docFormat (textUp ((above.drop k).take (j + 1))) := by
  have hdrop : (above.dropWhile fun l => startsWith l.start "@")
      = above.drop (above.findIdx fun l => !l.isDecorator) := List.dropWhile_eq_drop_findIdx_not
  rw [docAbove?, hdrop]
  generalize above.findIdx (fun l => !l.isDecorator) = k
  constructor
  · intro h
    split at h
    · cases h
    next l more hrest =>
      have hlast : above[k]? = some l := by
        rw [← List.head?_drop, hrest, List.head?_cons]
      split at h
      next hends =>
        dsimp only at h
        split at h
        next top htop =>
          split at h
          next hstart =>
            obtain ⟨hat, -⟩ := getLast?_blockUp_iff.1 ⟨htop, hstart⟩
            rw [← hrest, List.getElem?_drop] at hat
            refine ⟨k, _, l, top, rfl, rfl, hlast, hat, hends, hstart, ?_⟩
            obtain ⟨-, hformat⟩ := Doc.mk.inj (Option.some.inj h)
            rw [← hformat, blockUp_eq, ← hrest]
          · cases h
        · cases h
      · split at h
        · obtain ⟨hdelimiter, -⟩ := Doc.mk.inj (Option.some.inj h)
          exact absurd hdelimiter (by decide)
        · cases h
  · rintro ⟨_, _, last, top, rfl, rfl, hlast, htop, hends, hstart, rfl⟩
    obtain ⟨more, hrest⟩ := List.head?_eq_some_iff.1 ((List.head?_drop).trans hlast)
    rw [← List.getElem?_drop] at htop
    obtain ⟨htop, -⟩ := getLast?_blockUp_iff.2 ⟨htop, hstart⟩
    rw [hrest] at htop
    simp only [hrest, hends, if_true, htop, hstart]
    rw [blockUp_eq]

section Above

variable {place : Nat}

/-- The lines above a line, the nearest first, are those before it. -/
lemma getElem?_above (hplace : place ≤ ls.length) {i : Nat} (hi : i < place) :
    (ls.take place).reverse[i]? = ls[place - 1 - i]? := by
  have hlength : (ls.take place).length = place := List.length_take_of_le hplace
  rw [List.getElem?_reverse (by omega), hlength, List.getElem?_take, if_pos (by omega)]

lemma reverse_take_drop_above (hplace : place ≤ ls.length) {k j : Nat} (hkj : k + j < place) :
    (((ls.take place).reverse.drop k).take (j + 1)).reverse
      = between ls (place - 1 - (k + j)) (place - 1 - k) := by
  have hlength : (ls.take place).length = place := List.length_take_of_le hplace
  have hlast : place - 1 - k + 1 = place - k := by omega
  have htop : place - k - (j + 1) = place - 1 - (k + j) := by omega
  rw [List.drop_reverse, hlength, List.take_take, Nat.min_eq_left (by omega), List.take_reverse,
    List.reverse_reverse, List.length_take, Nat.min_eq_left (by omega), between, hlast, htop]

lemma findIdx_eq_of_getElem? {p : Line → Bool} {i : Nat} {l : Line} (hl : ls[i]? = some l)
    (hp : p l = true) (hbefore : ∀ j m, j < i → ls[j]? = some m → p m = false) :
    ls.findIdx p = i := by
  obtain ⟨hi, rfl⟩ := List.getElem?_eq_some_iff.1 hl
  exact (List.findIdx_eq hi).2 ⟨hp, fun j hj => hbefore j _ hj (List.getElem?_eq_getElem _)⟩

lemma eq_false_of_lt_findIdx {p : Line → Bool} {i k : Nat} {l : Line} (hk : ls.findIdx p = k)
    (hi : i < k) (hl : ls[i]? = some l) : p l = false := by
  obtain ⟨_, rfl⟩ := List.getElem?_eq_some_iff.1 hl
  exact List.not_of_lt_findIdx (hk ▸ hi)

/-- A block comment is found for a declaration exactly if lines above it are credited to it. -/
lemma docAbove?_take_iff (hplace : place ≤ ls.length) {format : DocFormat} :
    docAbove? (ls.take place).reverse = some ⟨"/**", format⟩ ↔
      ∃ top last, Credited ls top last place ∧
        format = docFormat (joined (between ls top last)) := by
  have hlength : (ls.take place).reverse.length = place := by
    rw [List.length_reverse, List.length_take_of_le hplace]
  rw [docAbove?_eq_block_iff]
  constructor
  · rintro ⟨k, j, last, top, hk, hj, hlast, htop, hends, hstart, rfl⟩
    obtain ⟨hkj, -⟩ := List.getElem?_eq_some_iff.1 htop
    rw [hlength] at hkj
    refine ⟨place - 1 - (k + j), place - 1 - k, ?_, ?_⟩
    · have hlast' := hlast
      rw [getElem?_above hplace (by omega)] at hlast htop
      refine ⟨by omega, by omega, fun i l hi hi' hl => ?_, ?_, ?_, ?_, fun i l hi hi' hl => ?_⟩
      · have hi'' : place - 1 - (place - 1 - i) = i := by omega
        rw [← hi'', ← getElem?_above hplace (by omega)] at hl
        simpa using eq_false_of_lt_findIdx hk (by omega) hl
      · rintro l hl
        obtain rfl : last = l := Option.some.inj (hlast.symm.trans hl)
        rw [← hk] at hlast'
        simpa using List.findIdx_of_getElem?_eq_some hlast'
      · rintro l hl
        obtain rfl : last = l := Option.some.inj (hlast.symm.trans hl)
        exact hends
      · rintro l hl
        obtain rfl : top = l := Option.some.inj (htop.symm.trans hl)
        exact hstart
      · have hi'' : place - 1 - (k + (place - 1 - k - i)) = i := by omega
        rw [← hi'', ← getElem?_above hplace (by omega), ← List.getElem?_drop] at hl
        exact eq_false_of_lt_findIdx hj (by omega) hl
    · rw [textUp, ← reverse_take_drop_above hplace hkj]
      rfl
  · rintro ⟨top, last, h, rfl⟩
    have := h.top_le
    have := h.last_lt
    have hlast : (ls.take place).reverse[place - 1 - last]? = some ls[last] := by
      rw [getElem?_above hplace (by omega), show place - 1 - (place - 1 - last) = last by omega,
        List.getElem?_eq_getElem]
    have htop : (ls.take place).reverse[place - 1 - last + (last - top)]? = some ls[top] := by
      rw [getElem?_above hplace (by omega),
        show place - 1 - (place - 1 - last + (last - top)) = top by omega,
        List.getElem?_eq_getElem]
    have hline {i : Nat} (hi : i < place) : ls[i]? = some ls[i] := List.getElem?_eq_getElem _
    have hopens := h.opens _ (hline (by omega))
    refine ⟨place - 1 - last, last - top, ls[last], ls[top], ?_, ?_, hlast, htop,
      h.closes _ (hline h.last_lt), hopens, ?_⟩
    · refine findIdx_eq_of_getElem? hlast (by simp [h.undecorated _ (hline h.last_lt)]) ?_
      intro j m hj hm
      rw [getElem?_above hplace (by omega)] at hm
      simpa using h.decorators (place - 1 - j) m (by omega) (by omega) hm
    · rw [← List.getElem?_drop] at htop
      refine findIdx_eq_of_getElem? htop (Line.startsBlock_of_doc hopens) ?_
      intro j m hj hm
      rw [List.getElem?_drop, getElem?_above hplace (by omega)] at hm
      exact h.nearest _ m (by omega) (by omega) hm
    · have hlines := reverse_take_drop_above hplace
        (show place - 1 - last + (last - top) < place by omega)
      rw [show place - 1 - (place - 1 - last + (last - top)) = top by omega,
        show place - 1 - (place - 1 - last) = last by omega] at hlines
      rw [← hlines]
      rfl

end Above

/-! ### The declarations of a script -/

section Script

variable {dialect : Dialect} {source : List Char}

/-- The declared functions and types of a script. -/
def declarations (dialect : Dialect) (source : List Char) : List Declaration :=
  Survey.declarations none none (findings dialect [] [] (rescanned source).1)

/-- Names and imports do not come between a doc comment and its declaration. -/
lemma declarations_append {found : List Finding}
    (h : ∀ x ∈ found, (∃ n, x = .name n) ∨ ∃ i, x = .imported i) (delimiter : Option String)
    (doc : Option Doc) (more : List Finding) :
    Survey.declarations delimiter doc (found ++ more)
      = Survey.declarations delimiter doc more := by
  induction found with
  | nil => rfl
  | cons x found ih =>
    obtain ⟨hx, hfound⟩ := List.forall_mem_cons.1 h
    rcases hx with ⟨n, rfl⟩ | ⟨i, rfl⟩
    · exact ih hfound
    · exact ih hfound

lemma declarations_doc (doc : Option Doc) (more : List Finding) :
    Survey.declarations none none ((doc.toList.flatMap fun d =>
        [Finding.docDelimiter d.delimiter, .docFormat d.format]) ++ more)
      = Survey.declarations (doc.map Doc.delimiter) doc more := by
  cases doc <;> rfl

/-- What is declared on a line has the doc comment above it, and nothing is left for the lines
below. -/
lemma mem_declarations_lineFindings {bodies : List Nat} {above below : List Line} {l : Line}
    {more : List Finding} {d : Declaration}
    (h : d ∈ Survey.declarations none none (lineFindings dialect bodies above l below ++ more)) :
    d = ⟨above.length + 1, docAbove? above⟩ ∨ d ∈ Survey.declarations none none more := by
  rw [lineFindings] at h
  split at h
  · exact .inr h
  · rw [List.append_assoc, declarations_append (by simp)] at h
    split at h
    next name _ =>
      rw [typeFindings, List.append_assoc, declarations_doc] at h
      exact List.mem_cons.1 h
    next =>
      split at h
      next name _ =>
        have hname : ∀ x ∈ if String.ofList (name.dropWhile (· == '#')) = "constructor" then []
            else [Finding.name ⟨.function, String.ofList (name.dropWhile (· == '#'))⟩],
            (∃ n, x = .name n) ∨ ∃ i, x = .imported i := by
          intro x hx
          split at hx
          · cases hx
          · exact .inl ⟨_, List.mem_singleton.1 hx⟩
        simp only [functionFindings, List.append_assoc] at h
        rw [declarations_doc, declarations_append (by simp), declarations_append hname] at h
        exact List.mem_cons.1 h
      next =>
        rw [variableFindings, declarations_append (by simp)] at h
        exact .inr h

/-- A declaration has the doc comment above it. -/
lemma exists_above_of_mem_declarations {bodies : List Nat} {above ls : List Line} {d : Declaration}
    (h : d ∈ Survey.declarations none none (findings dialect bodies above ls)) :
    ∃ before l below, ls = before ++ l :: below ∧
      d = ⟨above.length + before.length + 1, docAbove? (before.reverse ++ above)⟩ := by
  induction ls generalizing bodies above with
  | nil => cases h
  | cons l below ih =>
    rw [findings_cons] at h
    rcases mem_declarations_lineFindings h with rfl | h
    · exact ⟨[], l, below, rfl, rfl⟩
    · obtain ⟨before, m, rest, rfl, rfl⟩ := ih h
      refine ⟨l :: before, m, rest, rfl, ?_⟩
      simp only [List.length_cons, List.reverse_cons, List.append_assoc, List.singleton_append]
      congr 1
      omega

/-- The doc comment of a declaration is what is found on the lines above it. -/
lemma exists_place_of_mem_declarations {d : Declaration} (h : d ∈ declarations dialect source) :
    ∃ place, d = ⟨place + 1, docAbove? ((rescanned source).1.take place).reverse⟩ ∧
      place < (rescanned source).1.length := by
  obtain ⟨before, l, below, hls, rfl⟩ := exists_above_of_mem_declarations h
  refine ⟨before.length, ?_, by simp [hls]⟩
  rw [hls, List.take_left, List.append_nil, List.length_nil, Nat.zero_add]

/-- A declaration has a block comment exactly if lines above it are credited to it, from the nearest
line that starts a block comment to the nearest one that ends one.  It has that comment in common
with a later declaration exactly if the comment of that one starts above it, so what is credited to
the later one is no single comment, unless the line of the earlier one was passed over. -/
theorem blocks_credited {d : Declaration} (hd : d ∈ declarations dialect source) :
    (∀ format, d.doc = some ⟨"/**", format⟩ ↔
      ∃ top last, Credited (rescanned source).1 top last (d.line - 1) ∧
        format = docFormat (joined (between (rescanned source).1 top last))) ∧
    ∀ d' ∈ declarations dialect source, d.line < d'.line → ∀ top last top' last',
      Credited (rescanned source).1 top last (d.line - 1) →
      Credited (rescanned source).1 top' last' (d'.line - 1) →
      (top = top' ↔ top' < d.line - 1) ∧
      (isSingleComment (joined (between (rescanned source).1 top' last')) = true →
        (∀ l ∈ (rescanned source).1[d.line - 1]?, l.isDecorator = false) → top ≠ top') := by
  obtain ⟨place, rfl, hplace⟩ := exists_place_of_mem_declarations hd
  refine ⟨fun format => docAbove?_take_iff (Nat.le_of_lt hplace), ?_⟩
  intro d' hd' hlt top last top' last' h h'
  obtain ⟨place', rfl, hplace'⟩ := exists_place_of_mem_declarations hd'
  have hbelow : place < place' := Nat.lt_of_succ_lt_succ hlt
  refine ⟨h.top_eq_iff h' hbelow (Nat.le_of_lt hplace), fun hsingle hline => ?_⟩
  exact h.top_ne h' hbelow (Nat.le_of_lt hplace') hsingle hline

/-- A script with a comment behind a function. -/
def commentBehind : List Char :=
  "/** Doc. */\nfunction a() \x7b\x7d /* first */\nfunction b() \x7b\x7d\n".toList

theorem blocks_credited_twice :
    declarations .plain commentBehind
        = [⟨2, some ⟨"/**", .plain⟩⟩, ⟨3, some ⟨"/**", .plain⟩⟩] ∧
      Credited (rescanned commentBehind).1 0 0 1 ∧ Credited (rescanned commentBehind).1 0 1 2 ∧
      isSingleComment (joined (between (rescanned commentBehind).1 0 0)) = true ∧
      isSingleComment (joined (between (rescanned commentBehind).1 0 1)) = false := by
  have hall : declarations .plain commentBehind
      = [⟨2, some ⟨"/**", .plain⟩⟩, ⟨3, some ⟨"/**", .plain⟩⟩] := by decide +kernel
  have hupper : ⟨2, some ⟨"/**", .plain⟩⟩ ∈ declarations .plain commentBehind := by simp [hall]
  have hlower : ⟨3, some ⟨"/**", .plain⟩⟩ ∈ declarations .plain commentBehind := by simp [hall]
  obtain ⟨top, last, h, -⟩ := ((blocks_credited hupper).1 .plain).1 rfl
  obtain ⟨top', last', h', -⟩ := ((blocks_credited hlower).1 .plain).1 rfl
  have hlast : last < 1 := h.last_lt
  have hlast' : last' < 2 := h'.last_lt
  have htop := h.top_le
  have htop' := h'.top_le
  -- the line of the upper function ends a comment and starts none
  have hline : ∀ l ∈ (rescanned commentBehind).1[1]?,
      l.isDecorator = false ∧ startsWith l.start "/**" = false := by decide +kernel
  obtain ⟨l, hl⟩ : ∃ l, (rescanned commentBehind).1[1]? = some l := ⟨_, by rfl⟩
  have hbelow : last' = 1 := by
    by_contra hne
    have hdecorated := h'.decorators 1 l (by omega) (by decide) hl
    rw [(hline l hl).1] at hdecorated
    cases hdecorated
  have habove : top' < 1 := by
    by_contra hle
    have hopens := h'.opens l (by rw [show top' = 1 by omega]; exact hl)
    rw [(hline l hl).2] at hopens
    cases hopens
  have hsame := ((blocks_credited hupper).2 _ hlower (by decide) _ _ _ _ h h').1.2 habove
  obtain rfl : last = 0 := by omega
  obtain rfl : top = 0 := by omega
  subst hsame hbelow
  exact ⟨hall, h, h', by decide +kernel, by decide +kernel⟩

end Script

end Script

end HouseStyle
