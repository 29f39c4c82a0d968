import HouseStyle.Text.Lines
import HouseStyle.Text.Word
import Mathlib.Data.List.Forall2
import Mathlib.Data.List.TakeWhile
import Mathlib.Tactic.Common

/-!
# Lines that are cut

When the last characters of lines are taken out of a text and the line ends stay, the text has the
shorter lines (`cut_lines`), with two exceptions at the ends of lines.  A carriage return at the end
of a shorter line becomes part of the line end, and a last line without a line end of which nothing
stays is no line any more.

Blanks at the end of a line change nothing that is asked about it in words.
-/

namespace HouseStyle.Text

/-! ### Lines -/

lemma lines_cons {c : Char} {rest : List Char} (hfeed : c ≠ '\n')
    (hreturn : ∀ tail, c = '\r' → rest = '\n' :: tail → False) :
    lines (c :: rest) = (c :: (lines rest).headD []) :: (lines rest).tail := by
  rw [lines]
  · cases lines rest <;> rfl
  · exact hfeed
  · exact hreturn

lemma lines_eq_nil_iff {cs : List Char} : lines cs = [] ↔ cs = [] := by
  fun_cases lines cs <;> simp

/-- A text with so many characters of each line, and with all its line ends. -/
def keepOn (counts : List Nat) : List Char → List Char
  | [] => []
  | '\n' :: rest => '\n' :: keepOn counts.tail rest
  | '\r' :: '\n' :: rest => '\r' :: '\n' :: keepOn counts.tail rest
  | c :: rest =>
    match counts with
    | (count + 1) :: more => c :: keepOn (count :: more) rest
    | _ => keepOn counts rest

lemma keepOn_cons {c : Char} {rest : List Char} (hfeed : c ≠ '\n')
    (hreturn : ∀ tail, c = '\r' → rest = '\n' :: tail → False) (count : Nat) (counts : List Nat) :
    keepOn ((count + 1) :: counts) (c :: rest) = c :: keepOn (count :: counts) rest := by
  rw [keepOn]
  exacts [hfeed, hreturn]

lemma keepOn_skip {c : Char} {rest : List Char} (hfeed : c ≠ '\n')
    (hreturn : ∀ tail, c = '\r' → rest = '\n' :: tail → False) (counts : List Nat) :
    keepOn (0 :: counts) (c :: rest) = keepOn (0 :: counts) rest := by
  rw [keepOn]
  · exact hfeed
  · exact hreturn
  · rintro count more ⟨⟩

/-- Where a line end comes first that did not come first before, something of the line is left
out. -/
lemma keepOn_eq_feed {count : Nat} {counts : List Nat} {cs tail line : List Char}
    {more : List (List Char)} (hcs : ∀ tail, cs ≠ '\n' :: tail) (hlines : lines cs = line :: more)
    (h : keepOn (count :: counts) cs = '\n' :: tail) : count = 0 ∧ line ≠ [] := by
  fun_cases lines cs with
  | case1 => cases h
  | case2 rest => exact absurd rfl (hcs rest)
  | case3 rest => cases h
  | case4 c rest hfeed hreturn hnil | case5 c rest hfeed hreturn first others hrest =>
    constructor
    · cases count with
      | zero => rfl
      | succ count =>
        rw [keepOn_cons hfeed hreturn] at h
        exact absurd (List.cons.inj h).1 hfeed
    · rintro rfl
      simp [lines_cons hfeed hreturn] at hlines

/-- How lines are cut when a number of characters of each of them is kept. -/
inductive Cut : List Nat → List (List Char) → List (List Char) → Prop
  | nil : Cut [] [] []
  /-- Nothing of the last line is left. -/
  | last (raw : List Char) : Cut [0] [raw] []
  /-- What is left of a line, without a carriage return that is followed by the line end now. -/
  | cons {count : Nat} {counts : List Nat} {raw raw' : List Char} {more more' : List (List Char)}
      (h : raw.take count = raw' ∨ raw.take count = raw' ++ ['\r'] ∧ count < raw.length)
      (hmore : Cut counts more more') : Cut (count :: counts) (raw :: more) (raw' :: more')

/-- The lines of a text with so many characters of each line. -/
lemma cut_lines {counts : List Nat} {cs : List Char}
    (h : List.Forall₂ (fun count line => count ≤ line.length) counts (lines cs)) :
    Cut counts (lines cs) (lines (keepOn counts cs)) := by
  fun_induction lines cs generalizing counts with
  | case1 =>
    obtain rfl := List.forall₂_nil_right_iff.1 h
    exact .nil
  | case2 rest ih | case3 rest ih =>
    obtain ⟨count, more, hcount, hmore, rfl⟩ := List.forall₂_cons_right_iff.1 h
    obtain rfl := Nat.le_zero.1 hcount
    exact .cons (.inl rfl) (ih hmore)
  | case4 c rest hfeed hreturn hlines ih =>
    -- the text is a single character
    obtain ⟨count, more, hcount, hmore, rfl⟩ := List.forall₂_cons_right_iff.1 h
    obtain rfl := List.forall₂_nil_right_iff.1 hmore
    obtain rfl := lines_eq_nil_iff.1 hlines
    cases count with
    | zero =>
      rw [keepOn_skip hfeed hreturn]
      exact .last [c]
    | succ count =>
      obtain rfl : count = 0 := Nat.le_zero.1 (Nat.le_of_succ_le_succ hcount)
      rw [keepOn_cons hfeed hreturn, keepOn, lines_cons hfeed hreturn]
      exact .cons (.inl rfl) .nil
  | case5 c rest hfeed hreturn line more hlines ih =>
    obtain ⟨count, counts, hcount, hmore, rfl⟩ := List.forall₂_cons_right_iff.1 h
    cases count with
    | zero =>
      rw [keepOn_skip hfeed hreturn]
      rw [hlines] at ih
      have hrest := ih (.cons (Nat.zero_le _) hmore)
      generalize lines (keepOn (0 :: counts) rest) = raws at hrest
      cases hrest with
      | last => exact .last (c :: line)
      | cons hcut hmore =>
        rcases hcut with rfl | ⟨hcut, -⟩
        · exact .cons (.inl rfl) hmore
        · simp at hcut
    | succ count =>
      rw [hlines] at ih
      have hrest := ih (.cons (Nat.le_of_succ_le_succ hcount) hmore)
      rw [keepOn_cons hfeed hreturn]
      by_cases hend : c = '\r' ∧ ∃ tail, keepOn (count :: counts) rest = '\n' :: tail
      · -- the carriage return at the end of what is left becomes part of the line end
        obtain ⟨rfl, tail, htail⟩ := hend
        obtain ⟨rfl, hline⟩ := keepOn_eq_feed (fun tail => hreturn tail rfl) hlines htail
        rw [htail] at hrest ⊢
        change Cut _ _ ([] :: lines tail) at hrest
        change Cut _ _ ([] :: lines tail)
        cases hrest with
        | cons _ hmore =>
          refine .cons (.inr ⟨rfl, ?_⟩) hmore
          rw [List.length_cons]
          exact Nat.succ_lt_succ (List.length_pos_iff.2 hline)
      · rw [lines_cons hfeed fun tail hc htail => hend ⟨hc, tail, htail⟩]
        generalize lines (keepOn (count :: counts) rest) = raws at hrest ⊢
        cases hrest with
        | last => exact .cons (.inl rfl) .nil
        | cons hcut hmore =>
          refine .cons ?_ hmore
          rcases hcut with rfl | ⟨hcut, hlt⟩
          · exact .inl rfl
          · refine .inr ⟨?_, Nat.succ_lt_succ hlt⟩
            rw [List.take_succ_cons, hcut]
            rfl

/-! ### Blanks at the end -/

/-- Blanks belong to no word. -/
lemma isWord_of_isBlank {c : Char} (h : isBlank c = true) : isWord c = false := by
  have hfirst : ∀ n ∈ [9, 10, 11, 12, 13, 0x20], isWord (Char.ofNat n) = false := by decide
  -- read as a list, since each place of an array is looked up from the start
  have hranges : ∀ n ∈ [0x85, 0xA0, 0x1680, 0x2000, 0x2001, 0x2002, 0x2003, 0x2004, 0x2005,
      0x2006, 0x2007, 0x2008, 0x2009, 0x200A, 0x2028, 0x2029, 0x202F, 0x205F, 0x3000],
      (wordRanges.toList.any fun r => decide (r.1 ≤ n) && decide (n ≤ r.2)) = false := by
    decide +kernel
  simp only [isBlank, Bool.or_eq_true, Bool.and_eq_true, decide_eq_true_eq, beq_iff_eq] at h
  by_cases hlt : c.toNat < 128
  · rw [← Char.ofNat_toNat c]
    refine hfirst _ ?_
    simp only [List.mem_cons, List.not_mem_nil, or_false]
    omega
  · rw [isWord, if_neg hlt, ← Array.any_toList]
    refine hranges _ ?_
    simp only [List.mem_cons, List.not_mem_nil, or_false]
    omega

section Blanks

variable {word cs blanks : List Char}

lemma allBlank_append (cs ds : List Char) : allBlank (cs ++ ds) = (allBlank cs && allBlank ds) :=
  List.all_append

/-- A text without blanks is not longer than what stands before the blanks. -/
lemma isPrefixOf_append_blanks (hword : word.any isBlank = false)
    (hblanks : allBlank blanks = true) : word.isPrefixOf (cs ++ blanks) = word.isPrefixOf cs := by
  induction word generalizing cs with
  | nil => simp
  | cons c word ih =>
    obtain ⟨hc, hword⟩ := Bool.or_eq_false_iff.1 hword
    cases cs with
    | cons d cs => rw [List.cons_append, List.isPrefixOf, List.isPrefixOf, ih hword]
    | nil =>
      cases blanks with
      | nil => rfl
      | cons b blanks =>
        have hb : isBlank b = true := List.all_eq_true.1 hblanks b List.mem_cons_self
        have hne : c ≠ b := by
          rintro rfl
          simp [hc] at hb
        simp [List.isPrefixOf, hne]

lemma contains_append_blanks (hword : word.any isBlank = false)
    (hblanks : allBlank blanks = true) : contains word (cs ++ blanks) = contains word cs := by
  induction cs with
  | cons c cs ih =>
    rw [List.cons_append, contains, contains, ← List.cons_append,
      isPrefixOf_append_blanks hword hblanks, ih]
  | nil =>
    rw [List.nil_append, contains]
    induction blanks with
    | nil => rfl
    | cons b blanks ih =>
      have hprefix : word.isPrefixOf ([] ++ b :: blanks) = word.isPrefixOf [] :=
        isPrefixOf_append_blanks hword hblanks
      rw [List.nil_append] at hprefix
      rw [contains, hprefix, ih (Bool.and_eq_true_iff.1 hblanks).2]
      cases word <;> rfl

lemma startsWith_trimStart_append_blanks {word : String}
    (hword : word.toList.any isBlank = false) (hblanks : allBlank blanks = true) :
    startsWith (trimStart (cs ++ blanks)) word = startsWith (trimStart cs) word := by
  rw [startsWith, startsWith, trimStart, trimStart, List.dropWhile_append]
  split
  next hcs =>
    rw [List.isEmpty_iff.1 hcs, List.dropWhile_eq_nil_iff.2 (List.all_eq_true.1 hblanks)]
  next => exact isPrefixOf_append_blanks hword hblanks

lemma holds_append_blanks {word : String} (hword : word.toList.any isBlank = false)
    (hblanks : allBlank blanks = true) : holds (cs ++ blanks) word = holds cs word :=
  contains_append_blanks hword hblanks

end Blanks

end HouseStyle.Text
