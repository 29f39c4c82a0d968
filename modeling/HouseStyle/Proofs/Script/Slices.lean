import HouseStyle.Proofs.Script.OnePass
import HouseStyle.Proofs.Text.Expression
import HouseStyle.Script.Reader
import Mathlib.Tactic.Common

/-!
# Cutting the text of a line

The reader finds places in a line in two ways, by a number of bytes and by a number of characters of
the blanked line, and cuts the line there.  Here each cut, each subtraction and each use of a group
of a match is a step that can be refused (`Breach`).  None of them is: whatever the line, the steps
give what the reader gives, which takes a text apart without places.
-/

namespace HouseStyle.Script

open Text

/-- What a reader must not do. -/
inductive Breach where
  /-- Cut a text inside a character, behind its end, or so that the cut ends before it starts. -/
  | cut
  /-- Subtract more than there is. -/
  | subtraction
  /-- Ask for a line that is not there. -/
  | line
  /-- Ask for a group that the match has not kept. -/
  | group
deriving DecidableEq, Repr

/-- The difference of two numbers. -/
def minus (n m : Nat) : Except Breach Nat := if m ≤ n then .ok (n - m) else .error .subtraction

/-- The text between two places in bytes. -/
def slice (first last : Nat) (cs : List Char) : Except Breach (List Char) :=
  if first ≤ last then
    match cutAtByte? first cs with
    | none => .error .cut
    | some (_, rest) =>
      match cutAtByte? (last - first) rest with
      | none => .error .cut
      | some (part, _) => .ok part
  else .error .cut

/-- The text from a place in bytes on. -/
def sliceFrom (first : Nat) (cs : List Char) : Except Breach (List Char) :=
  match cutAtByte? first cs with
  | none => .error .cut
  | some (_, rest) => .ok rest

/-- The place in bytes at which a part of a text starts first. -/
def placeOf? (part : List Char) : List Char → Option Nat
  | [] => if part.isEmpty then some 0 else none
  | c :: rest =>
    if part.isPrefixOf (c :: rest) then some 0 else (placeOf? part rest).map (c.utf8Size + ·)

/-- The text that a match has kept under a number. -/
def group (p : Place) (number : Nat) : Except Breach (List Char) :=
  match p.kept? number with
  | none => .error .group
  | some text => .ok text

@[simp] lemma ok_bind {α β : Type} (a : α) (f : α → Except Breach β) :
    (Except.ok a >>= f) = f a := rfl

@[simp] lemma map_ok {α β : Type} (a : α) (f : α → β) :
    (Except.ok a : Except Breach α).map f = .ok (f a) := rfl

/-- Steps that all succeed give what they give one by one. -/
lemma mapM_eq_ok {α β : Type} {f : α → Except Breach β} {g : α → β} {l : List α}
    (h : ∀ a ∈ l, f a = .ok (g a)) : l.mapM f = .ok (l.map g) := by
  induction l with
  | nil => rfl
  | cons a l ih =>
    rw [List.mapM_cons, h a List.mem_cons_self, ih fun b hb => h b (List.mem_cons_of_mem _ hb)]
    rfl

/-! ### Places -/

@[simp] lemma byteLength_cons (c : Char) (cs : List Char) :
    byteLength (c :: cs) = c.utf8Size + byteLength cs := by
  rw [byteLength, List.map_cons, Count.sum_cons]
  rfl

@[simp] lemma byteLength_append (xs ys : List Char) :
    byteLength (xs ++ ys) = byteLength xs + byteLength ys := by
  rw [byteLength, List.map_append, Count.sum_append]
  rfl

lemma sliceFrom_append (xs ys : List Char) : sliceFrom (byteLength xs) (xs ++ ys) = .ok ys := by
  rw [sliceFrom, cutAtByte?_append]

lemma slice_append (xs ys zs : List Char) :
    slice (byteLength xs) (byteLength xs + byteLength ys) (xs ++ (ys ++ zs)) = .ok ys := by
  rw [slice, if_pos (Nat.le_add_right _ _)]
  simp only [cutAtByte?_append, Nat.add_sub_cancel_left]

/-- The text up to the place of a character. -/
lemma slice_bytePlace (cs : List Char) (i : Nat) :
    slice 0 (bytePlace cs i) cs = .ok (cs.take i) := by
  have h := slice_append [] (cs.take i) (cs.drop i)
  rw [List.take_append_drop, List.nil_append] at h
  simpa [bytePlace, byteLength] using h

/-! ### Scanning -/

/-- The first end of a comment is found where the reader goes on behind it. -/
lemma afterComment?_of_placeOf? (cs : List Char) :
    match placeOf? ['*', '/'] cs with
    | none => afterComment? cs = none
    | some place => ∃ before after, cs = before ++ '*' :: '/' :: after ∧
        place = byteLength before ∧ afterComment? cs = some after := by
  fun_induction afterComment? cs with
  | case1 rest =>
    rw [placeOf?, if_pos (by simp)]
    exact ⟨[], rest, rfl, rfl, rfl⟩
  | case2 c rest hend ih =>
    have hnot : ¬ List.isPrefixOf ['*', '/'] (c :: rest) = true := by
      rw [List.isPrefixOf_iff_prefix]
      rintro ⟨tail, htail⟩
      obtain ⟨hc, hrest⟩ := List.cons.inj htail
      exact hend tail hc.symm hrest.symm
    rw [placeOf?, if_neg hnot]
    cases hplace : placeOf? ['*', '/'] rest with
    | none => simpa [hplace] using ih
    | some place =>
      simp only [hplace] at ih
      obtain ⟨before, after, rfl, rfl, hafter⟩ := ih
      exact ⟨c :: before, after, rfl, (byteLength_cons c before).symm, hafter⟩
  | case3 => rfl

/-- What is left of a line behind the comment in which it starts. -/
def behindComment (s : Carried) (cs : List Char) : Except Breach (Option (List Char)) :=
  if s.inComment then
    match placeOf? ['*', '/'] cs with
    | none => .ok none
    | some place => (sliceFrom (place + 2) cs).map some
  else .ok (some cs)

lemma behindComment_eq (s : Carried) (cs : List Char) :
    behindComment s cs = .ok (if s.inComment then afterComment? cs else some cs) := by
  rw [behindComment]
  split
  · have hfound := afterComment?_of_placeOf? cs
    cases hplace : placeOf? ['*', '/'] cs with
    | none =>
      simp only [hplace] at hfound ⊢
      rw [hfound]
    | some place =>
      simp only [hplace] at hfound ⊢
      obtain ⟨before, after, rfl, rfl, hafter⟩ := hfound
      have hcut := sliceFrom_append (before ++ ['*', '/']) after
      rw [List.append_assoc, byteLength_append] at hcut
      rw [hafter]
      exact congrArg (Except.map some) hcut
  · rfl

/-- One step of the scanner, cut by cut. -/
def guardedStep (s : Carried) (cs : List Char) :
    Except Breach (Rescanned × Option (List Char)) := do
  match ← behindComment s cs with
  | none => .ok (⟨[], .none, s⟩, none)
  | some rest =>
    let gap := if s.inComment then [' '] else []
    let blanked := blankLine s.inTemplate rest
    match commentStart? blanked.code with
    | none => .ok (⟨gap ++ blanked.code, blanked.quotes, ⟨blanked.openTemplate, false⟩⟩, none)
    | some index =>
      let place := bytePlace rest index
      let head := blankLine s.inTemplate (← slice 0 place rest)
      .ok (⟨gap ++ head.code, head.quotes, ⟨head.openTemplate, true⟩⟩,
        some (fromByte (place + 2) rest))

lemma guardedStep_eq (s : Carried) (cs : List Char) : guardedStep s cs = .ok (rescanStep s cs) := by
  rw [guardedStep, behindComment_eq, ok_bind, rescanStep]
  generalize (if s.inComment then afterComment? cs else some cs) = code
  cases code with
  | none => rfl
  | some rest =>
    dsimp only
    cases commentStart? (blankLine s.inTemplate rest).code with
    | none => rfl
    | some index => simp only [slice_bytePlace, beforeByte_bytePlace, ok_bind]

/-- A line or the rest of it, scanned cut by cut. -/
def guardedRescan (s : Carried) (cs : List Char) : Except Breach Rescanned :=
  match _h : guardedStep s cs with
  | .error breach => .error breach
  | .ok (r, none) => .ok r
  | .ok (r, some rest) =>
    (guardedRescan r.carried rest).map fun more => more.behind r.code r.quotes
termination_by cs.length
decreasing_by
  exact length_rescanStep (Except.ok.inj ((guardedStep_eq s cs).symm.trans _h))

lemma guardedRescan_eq (s : Carried) (cs : List Char) : guardedRescan s cs = .ok (rescan s cs) := by
  fun_induction rescan s cs with
  | case1 s cs r h =>
    rw [guardedRescan]
    split
    next breach hstep => simp [guardedStep_eq] at hstep
    next r' hstep =>
      rw [guardedStep_eq, h] at hstep
      rw [(Prod.mk.inj (Except.ok.inj hstep)).1]
    next r' rest hstep => simp [guardedStep_eq, h] at hstep
  | case2 s cs r rest h ih =>
    rw [guardedRescan]
    split
    next breach hstep => simp [guardedStep_eq] at hstep
    next r' hstep => simp [guardedStep_eq, h] at hstep
    next r' rest' hstep =>
      rw [guardedStep_eq, h] at hstep
      obtain ⟨rfl, hrest⟩ := Prod.mk.inj (Except.ok.inj hstep)
      obtain rfl := Option.some.inj hrest
      rw [ih, map_ok]

/-- The lines of a file, scanned cut by cut. -/
def guardedLines (s : Carried) (depth : Nat) :
    List (List Char) → Except Breach (List Line × QuoteCount)
  | [] => .ok ([], .none)
  | raw :: more => do
    let r ← guardedRescan s raw
    let (ls, quotes) ← guardedLines r.carried (depthAfter depth r.code) more
    .ok (⟨raw, r.code, depth⟩ :: ls, r.quotes + quotes)

lemma guardedLines_eq (s : Carried) (depth : Nat) (raws : List (List Char)) :
    guardedLines s depth raws = .ok (rescanFrom s depth raws) := by
  induction raws generalizing s depth with
  | nil => rfl
  | cons raw more ih => rw [guardedLines, guardedRescan_eq, ok_bind, ih, ok_bind, rescanFrom]

/-! ### Parentheses -/

/-- The place at which the parentheses that are open are closed, counted down one by one.  The text
starts at a place. -/
def closingPlace (depth place : Nat) : List Char → Except Breach (Option Nat)
  | [] => .ok none
  | c :: rest =>
    if c = '(' then closingPlace (depth + 1) (place + c.utf8Size) rest
    else if c = ')' then do
      let depth ← minus depth 1
      if depth = 0 then .ok (some place) else closingPlace depth (place + c.utf8Size) rest
    else closingPlace depth (place + c.utf8Size) rest

/-- The places of the first opening parenthesis of a text and of the one that closes it. -/
def parameterSpan (code : List Char) : Except Breach (Option (Nat × Option Nat)) := do
  match placeOf? ['('] code with
  | none => .ok none
  | some opening =>
    let closing ← closingPlace 0 opening (← sliceFrom opening code)
    .ok (some (opening, closing))

lemma closing?_eq_some {depth : Nat} {cs : List Char} {r : List Char × List Char}
    (h : closing? depth cs = some r) : cs = r.1 ++ ')' :: r.2 := by
  induction cs generalizing depth r with
  | nil => cases h
  | cons c rest ih =>
    rw [closing?] at h
    split at h
    next hclose =>
      obtain rfl := Option.some.inj h
      rw [hclose.1, List.nil_append]
    next =>
      obtain ⟨r', hr', rfl⟩ := Option.map_eq_some_iff.1 h
      rw [ih hr', List.cons_append]

/-- Inside of a parenthesis the count does not fall below zero. -/
lemma closingPlace_eq (depth place : Nat) (cs : List Char) :
    closingPlace (depth + 1) place cs
      = .ok ((closing? depth cs).map fun r => place + byteLength r.1) := by
  induction cs generalizing depth place with
  | nil => rfl
  | cons c rest ih =>
    rw [closingPlace, closing?]
    by_cases hopen : c = '('
    · simp [hopen, ih, Function.comp_def, Nat.add_assoc]
    by_cases hclose : c = ')'
    · cases depth with
      | zero => simp [hclose, minus, byteLength]
      | succ depth => simp [hclose, minus, ih, Function.comp_def, Nat.add_assoc]
    · simp [hopen, hclose, ih, Function.comp_def, Nat.add_assoc]

lemma placeOf?_opening (code : List Char) :
    match placeOf? ['('] code with
    | none => afterOpening? code = none
    | some place => ∃ before after, code = before ++ '(' :: after ∧ place = byteLength before ∧
        afterOpening? code = some after := by
  induction code with
  | nil => rfl
  | cons c rest ih =>
    by_cases hc : c = '('
    · rw [placeOf?, if_pos (by simp [hc])]
      exact ⟨[], rest, by rw [hc, List.nil_append], rfl, by simp [afterOpening?, hc]⟩
    · have hnot : ¬ List.isPrefixOf ['('] (c :: rest) = true := by
        simp [List.isPrefixOf, Ne.symm hc]
      have hskip : afterOpening? (c :: rest) = afterOpening? rest := by
        simp [afterOpening?, hc]
      rw [placeOf?, if_neg hnot, hskip]
      cases hplace : placeOf? ['('] rest with
      | none => simpa [hplace] using ih
      | some place =>
        simp only [hplace] at ih
        obtain ⟨before, after, rfl, rfl, hafter⟩ := ih
        exact ⟨c :: before, after, rfl, (byteLength_cons c before).symm, hafter⟩

/-- What the places of the parentheses of a signature are, if there are any. -/
lemma parameterSpan_cases (code : List Char) :
    (parameterSpan code = .ok none ∧ afterOpening? code = none) ∨
    ∃ before after, code = before ++ '(' :: after ∧ afterOpening? code = some after ∧
      parameterSpan code = .ok (some (byteLength before,
        (closing? 0 after).map fun r => byteLength before + 1 + byteLength r.1)) := by
  have hopening := placeOf?_opening code
  rw [parameterSpan]
  cases hplace : placeOf? ['('] code with
  | none =>
    simp only [hplace] at hopening
    exact .inl ⟨rfl, hopening⟩
  | some place =>
    simp only [hplace] at hopening
    obtain ⟨before, after, rfl, rfl, hafter⟩ := hopening
    refine .inr ⟨before, after, rfl, hafter, ?_⟩
    -- the first parenthesis opens, so one is open behind it
    have hfirst : closingPlace 0 (byteLength before) ('(' :: after)
        = closingPlace 1 (byteLength before + 1) after := rfl
    simp only [sliceFrom_append, ok_bind, hfirst, closingPlace_eq]

/-- The text between the parentheses of a signature, and the text behind them. -/
lemma slices_of_closing? (before : List Char) {after : List Char} {r : List Char × List Char}
    (h : closing? 0 after = some r) :
    slice (byteLength before + 1) (byteLength before + 1 + byteLength r.1) (before ++ '(' :: after)
        = .ok r.1 ∧
      sliceFrom (byteLength before + 1 + byteLength r.1 + 1) (before ++ '(' :: after)
        = .ok r.2 := by
  obtain ⟨inner, behind⟩ := r
  obtain rfl := closing?_eq_some h
  have hopen : byteLength (before ++ ['(']) = byteLength before + 1 := byteLength_append _ _
  have hclose : byteLength (before ++ ['('] ++ inner ++ [')'])
      = byteLength before + 1 + byteLength inner + 1 := by
    rw [byteLength_append, byteLength_append, hopen]
    rfl
  constructor
  · have hslice := slice_append (before ++ ['(']) inner (')' :: behind)
    rw [hopen] at hslice
    simpa using hslice
  · have hslice := sliceFrom_append (before ++ ['('] ++ inner ++ [')']) behind
    rw [hclose] at hslice
    simpa using hslice

/-! ### Groups -/

/-- The name that a form declares on a line. -/
def guardedDeclared (form : Expression) (code : List Char) :
    Except Breach (Option (List Char)) :=
  match form.matchStart? code with
  | none => .ok none
  | some p => (group p 1).map some

lemma group_of_mem_ways {form : Expression} {number : Nat} {p q : Place}
    (hbinds : form.binds number = true) (hq : q ∈ form.ways p) :
    group q number = .ok (q.kept number) := by
  rw [group, Expression.kept?_of_binds hbinds hq]

lemma group_of_matchStart? {form : Expression} {number : Nat} {code : List Char} {q : Place}
    (hbinds : form.binds number = true) (hq : form.matchStart? code = some q) :
    group q number = .ok (q.kept number) :=
  group_of_mem_ways hbinds (Expression.mem_ways_of_matchStart? hq)

lemma group_of_mem_matchesIn {form : Expression} {number : Nat} {code : List Char} {q : Place}
    (hbinds : form.binds number = true) (hq : q ∈ form.matchesIn code) :
    group q number = .ok (q.kept number) := by
  obtain ⟨p, -, -, hp⟩ := Expression.exists_mem_ways_of_mem_matchesFrom hq
  exact group_of_mem_ways hbinds hp

lemma guardedDeclared_eq {form : Expression} (hbinds : form.binds 1 = true) (code : List Char) :
    guardedDeclared form code = .ok (declared? form code) := by
  rw [guardedDeclared, declared?]
  cases hq : form.matchStart? code with
  | none => rfl
  | some q => simp only [group_of_matchStart? hbinds hq, map_ok, Option.map_some]

/-! ### Signatures -/

/-- The names of the parameters of a signature. -/
def guardedParameters (code : List Char) : Except Breach (List (List Char)) := do
  match ← parameterSpan code with
  | some (opening, some closing) =>
    let names ← (splitAt ',' (← slice (opening + 1) closing code)).mapM
      (guardedDeclared Forms.parameter)
    .ok (names.filterMap id)
  | _ => .ok []

/-- Whether a signature has a type on a parameter or on its result. -/
def guardedAnnotated (code : List Char) : Except Breach Bool := do
  match ← parameterSpan code with
  | none => .ok false
  | some (opening, none) => .ok ((← sliceFrom opening code).contains ':')
  | some (opening, some closing) =>
    if (← slice (opening + 1) closing code).contains ':' then .ok true
    else .ok (startsWith (trimStart (← sliceFrom (closing + 1) code)) ":")

lemma guardedParameters_eq (code : List Char) :
    guardedParameters code = .ok (parameterNames code) := by
  rw [guardedParameters, parameterNames]
  obtain ⟨hspan, hnone⟩ | ⟨before, after, rfl, hafter, hspan⟩ := parameterSpan_cases code
  · rw [hspan, hnone]
    rfl
  · rw [hspan, hafter, ok_bind, Option.bind_some]
    cases hclosing : closing? 0 after with
    | none => rfl
    | some r =>
      have hpieces : (splitAt ',' r.1).mapM (guardedDeclared Forms.parameter)
          = .ok ((splitAt ',' r.1).map (declared? Forms.parameter)) :=
        mapM_eq_ok fun piece _ => guardedDeclared_eq rfl piece
      simp only [Option.map_some, (slices_of_closing? before hclosing).1, ok_bind, hpieces]
      simp [List.filterMap_map]

lemma guardedAnnotated_eq (code : List Char) : guardedAnnotated code = .ok (isAnnotated code) := by
  rw [guardedAnnotated, isAnnotated]
  obtain ⟨hspan, hnone⟩ | ⟨before, after, rfl, hafter, hspan⟩ := parameterSpan_cases code
  · rw [hspan, hnone]
    rfl
  · rw [hspan, hafter, ok_bind]
    cases hclosing : closing? 0 after with
    | none =>
      simp only [Option.map_none, sliceFrom_append, ok_bind, hclosing]
      simp
    | some r =>
      obtain ⟨hinner, hbehind⟩ := slices_of_closing? before hclosing
      simp only [Option.map_some, hinner, hbehind, ok_bind, hclosing]
      cases r.1.contains ':' <;> rfl

end HouseStyle.Script
