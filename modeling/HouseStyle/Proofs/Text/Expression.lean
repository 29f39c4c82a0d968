import HouseStyle.Text.Expression
import Mathlib.Data.List.Basic
import Mathlib.Tactic.Common

/-!
# The ways to match an expression

The matcher passes what remains of a line to a continuation.  The same can be said with a list: the
places to which an expression can lead from a place, the ones that count first in front (`ways`).  A
run gives what the first of these places gives for which the continuation succeeds (`run_eq`).

Two things are read off this list.  A match keeps the groups that an expression cannot do without
(`kept?_of_binds`).  And where a line is cut before a character that belongs to no word, the
ways in its first part are the ways in the whole line that do not lead beyond it (`ways_extend`).
So matches that do not go beyond the first part are the same there (`matchesIn_extend`).
-/

namespace HouseStyle.Text

/-- The places to which up to `count` steps lead, each moving forward. -/
def repeatWays (lazy : Bool) (step : Place → List Place) : (count : Nat) → Place → List Place
  | 0, p => [p]
  | count + 1, p =>
    let again := (step p).flatMap fun q =>
      if p.offset < q.offset then repeatWays lazy step count q else []
    if lazy then p :: again else again ++ [p]

/-- The places to which an expression leads, the ones that count first in front. -/
def Expression.ways : Expression → Place → List Place
  | one accepts, p =>
    match p.rest with
    | [] => []
    | c :: rest => if accepts c then [⟨some c, p.offset + 1, rest, p.groups⟩] else []
  | nothing, p => [p]
  | seq first second, p => (first.ways p).flatMap second.ways
  | either first second, p => first.ways p ++ second.ways p
  | many lazy body, p => repeatWays lazy body.ways p.rest.length p
  | group number body, p =>
    (body.ways p).map fun q =>
      { q with groups := (number, p.rest.take (q.offset - p.offset)) :: q.groups }
  | boundary, p => if p.atBoundary then [p] else []

/-! ### Runs -/

lemma findSome?_flatMap {α β γ : Type} (l : List α) (f : α → List β) (g : β → Option γ) :
    (l.flatMap f).findSome? g = l.findSome? fun a => (f a).findSome? g := by
  induction l with
  | nil => rfl
  | cons a l ih =>
    rw [List.flatMap_cons, List.findSome?_append, ih, List.findSome?_cons]
    cases (f a).findSome? g <;> rfl

lemma repeatStep_eq {β : Type} {lazy : Bool} {step : Place → (Place → Option β) → Option β}
    {ways : Place → List Place} (h : ∀ p next, step p next = (ways p).findSome? next) (count : Nat)
    (p : Place) (next : Place → Option β) :
    repeatStep lazy step count p next = (repeatWays lazy ways count p).findSome? next := by
  induction count generalizing p with
  | zero => simp [repeatStep, repeatWays]
  | succ count ih =>
    have hagain : step p (fun q =>
          if p.offset < q.offset then repeatStep lazy step count q next else none)
        = ((ways p).flatMap fun q =>
          if p.offset < q.offset then repeatWays lazy ways count q else []).findSome? next := by
      rw [h, findSome?_flatMap]
      congr 1
      funext q
      split
      · exact ih q
      · rfl
    rw [repeatStep, repeatWays, hagain]
    cases lazy with
    | false =>
      simp only [Bool.false_eq_true, if_false, List.findSome?_append]
      cases ((ways p).flatMap fun q =>
        if p.offset < q.offset then repeatWays false ways count q else []).findSome? next <;> simp
    | true =>
      simp only [if_true, List.findSome?_cons]
      rfl

/-- A run gives what the first way gives for which the continuation succeeds. -/
lemma Expression.run_eq {β : Type} (e : Expression) (p : Place) (next : Place → Option β) :
    e.run p next = (e.ways p).findSome? next := by
  induction e generalizing p next with
  | one accepts =>
    rw [run, ways]
    cases p.rest with
    | nil => rfl
    | cons c rest => by_cases hc : accepts c = true <;> simp [hc]
  | nothing => simp [run, ways]
  | seq first second ihf ihs =>
    rw [run, ways, ihf, findSome?_flatMap]
    congr 1
    funext q
    exact ihs q next
  | either first second ihf ihs =>
    rw [run, ways, List.findSome?_append, ihf, ihs]
    cases (first.ways p).findSome? next <;> rfl
  | many lazy body ih => exact repeatStep_eq ih _ p next
  | group number body ih => rw [run, ways, ih, List.findSome?_map]; rfl
  | boundary =>
    rw [run, ways]
    by_cases hp : p.atBoundary = true <;> simp [hp]

lemma Expression.run_some (e : Expression) (p : Place) : e.run p some = (e.ways p).head? := by
  rw [run_eq]
  cases e.ways p <;> simp

lemma Expression.matchStart?_eq (e : Expression) (line : List Char) :
    e.matchStart? line = (e.ways (Place.start line)).head? := e.run_some _

lemma Expression.mem_ways_of_matchStart? {e : Expression} {line : List Char} {q : Place}
    (h : e.matchStart? line = some q) : q ∈ e.ways (Place.start line) := by
  rw [matchStart?_eq] at h
  exact List.mem_of_head? h

/-! ### Where ways lead -/

/-- What is known about a place to which a way leads from another one. -/
structure LeadsTo (p q : Place) : Prop where
  /-- The text between the places stands before what follows the second one. -/
  between : ∃ taken, p.rest = taken ++ q.rest ∧ q.offset = p.offset + taken.length ∧
    q.before = taken.getLast?.or p.before
  /-- The groups of the first place stay. -/
  groups : p.groups <:+ q.groups

namespace LeadsTo

variable {p q r : Place}

lemma refl (p : Place) : LeadsTo p p := ⟨⟨[], rfl, rfl, rfl⟩, List.suffix_rfl⟩

lemma trans (h : LeadsTo p q) (h' : LeadsTo q r) : LeadsTo p r := by
  obtain ⟨taken, hrest, hoffset, hbefore⟩ := h.between
  obtain ⟨taken', hrest', hoffset', hbefore'⟩ := h'.between
  refine ⟨⟨taken ++ taken', ?_, ?_, ?_⟩, h.groups.trans h'.groups⟩
  · rw [hrest, hrest', List.append_assoc]
  · rw [hoffset', hoffset, List.length_append, Nat.add_assoc]
  · rw [hbefore', hbefore, List.getLast?_append, Option.or_assoc]

lemma length_rest (h : LeadsTo p q) : q.rest.length + q.offset = p.rest.length + p.offset := by
  obtain ⟨taken, hrest, hoffset, -⟩ := h.between
  rw [hrest, hoffset, List.length_append]
  omega

end LeadsTo

lemma mem_repeatWays_succ {lazy : Bool} {step : Place → List Place} {count : Nat} {p q : Place} :
    q ∈ repeatWays lazy step (count + 1) p ↔
      q = p ∨ ∃ m ∈ step p, p.offset < m.offset ∧ q ∈ repeatWays lazy step count m := by
  have hagain (m : Place) : q ∈ (if p.offset < m.offset then repeatWays lazy step count m else [])
      ↔ p.offset < m.offset ∧ q ∈ repeatWays lazy step count m := by
    by_cases hm : p.offset < m.offset <;> simp [hm]
  rw [repeatWays]
  cases lazy with
  | false =>
    simp only [Bool.false_eq_true, if_false, List.mem_append, List.mem_flatMap, hagain,
      List.mem_singleton]
    exact or_comm
  | true => simp only [if_true, List.mem_cons, List.mem_flatMap, hagain]

lemma leadsTo_of_mem_repeatWays {lazy : Bool} {step : Place → List Place}
    (h : ∀ p, ∀ q ∈ step p, LeadsTo p q) {count : Nat} {p q : Place}
    (hq : q ∈ repeatWays lazy step count p) : LeadsTo p q := by
  induction count generalizing p with
  | zero =>
    obtain rfl := List.mem_singleton.1 hq
    exact .refl q
  | succ count ih =>
    rcases mem_repeatWays_succ.1 hq with rfl | ⟨m, hm, -, hq⟩
    · exact .refl q
    · exact (h p m hm).trans (ih hq)

/-- Every way of an expression leads forward. -/
lemma Expression.leadsTo_of_mem_ways {e : Expression} {p q : Place} (h : q ∈ e.ways p) :
    LeadsTo p q := by
  induction e generalizing p q with
  | one accepts =>
    rw [ways] at h
    split at h
    · cases h
    next c rest hrest =>
      split at h
      · obtain rfl := List.mem_singleton.1 h
        exact ⟨⟨[c], hrest, rfl, rfl⟩, List.suffix_rfl⟩
      · cases h
  | nothing =>
    obtain rfl := List.mem_singleton.1 h
    exact .refl q
  | seq first second ihf ihs =>
    obtain ⟨m, hm, hq⟩ := List.mem_flatMap.1 h
    exact (ihf hm).trans (ihs hq)
  | either first second ihf ihs =>
    rcases List.mem_append.1 h with h | h
    exacts [ihf h, ihs h]
  | many lazy body ih => exact leadsTo_of_mem_repeatWays (fun p q => ih) h
  | group number body ih =>
    obtain ⟨m, hm, rfl⟩ := List.mem_map.1 h
    exact ⟨(ih hm).between, (ih hm).groups.trans (List.suffix_cons _ _)⟩
  | boundary =>
    rw [ways] at h
    split at h
    · obtain rfl := List.mem_singleton.1 h
      exact .refl q
    · cases h

/-- Where a match is found, matches are looked for behind it. -/
lemma Expression.matchesFrom_of_some {e : Expression} {p q : Place}
    (h : (e.ways { p with groups := [] }).head? = some q) (count : Nat) :
    e.matchesFrom (count + 1) p
      = q :: (if p.offset < q.offset then e.matchesFrom count q else []) := by
  rw [matchesFrom, run_some, h]

/-- Where no match is found, matches are looked for behind the next character. -/
lemma Expression.matchesFrom_of_none {e : Expression} {p : Place} {c : Char} {rest : List Char}
    (h : (e.ways { p with groups := [] }).head? = none) (hrest : p.rest = c :: rest)
    (count : Nat) :
    e.matchesFrom (count + 1) p = e.matchesFrom count ⟨some c, p.offset + 1, rest, []⟩ := by
  rw [matchesFrom, run_some, h]
  simp only [hrest]

lemma Expression.matchesFrom_at_end {e : Expression} {p : Place}
    (h : (e.ways { p with groups := [] }).head? = none) (hrest : p.rest = []) (count : Nat) :
    e.matchesFrom (count + 1) p = [] := by
  rw [matchesFrom, run_some, h]
  simp only [hrest]

/-- A match in a line is a way from one of its places, not before the place from which matches are
looked for. -/
lemma Expression.exists_mem_ways_of_mem_matchesFrom {e : Expression} {count : Nat} {p q : Place}
    (h : q ∈ e.matchesFrom count p) :
    ∃ p', p'.rest.length + p'.offset = p.rest.length + p.offset ∧ p.offset ≤ p'.offset ∧
      q ∈ e.ways p' := by
  induction count generalizing p with
  | zero => cases h
  | succ count ih =>
    cases hfirst : (e.ways { p with groups := [] }).head? with
    | some m =>
      have hm := List.mem_of_head? hfirst
      have hlength := (leadsTo_of_mem_ways hm).length_rest
      rw [matchesFrom_of_some hfirst] at h
      rcases List.mem_cons.1 h with rfl | h
      · exact ⟨{ p with groups := [] }, rfl, Nat.le_refl _, hm⟩
      · split at h
        next hlt =>
          obtain ⟨p', hlength', hle, hq⟩ := ih h
          exact ⟨p', hlength'.trans hlength, Nat.le_trans (Nat.le_of_lt hlt) hle, hq⟩
        next => cases h
    | none =>
      cases hrest : p.rest with
      | nil =>
        rw [matchesFrom_at_end hfirst hrest] at h
        cases h
      | cons c rest =>
        rw [matchesFrom_of_none hfirst hrest] at h
        obtain ⟨p', hlength, hle, hq⟩ := ih h
        refine ⟨p', ?_, Nat.le_of_succ_le hle, hq⟩
        rw [hlength, List.length_cons]
        exact (Nat.succ_add_eq_add_succ _ _).symm

lemma Expression.length_rest_of_matchStart? {e : Expression} {line : List Char} {q : Place}
    (h : e.matchStart? line = some q) : q.rest.length + q.offset = line.length :=
  (leadsTo_of_mem_ways (mem_ways_of_matchStart? h)).length_rest

lemma Expression.length_rest_of_mem_matchesIn {e : Expression} {line : List Char} {q : Place}
    (h : q ∈ e.matchesIn line) : q.rest.length + q.offset = line.length := by
  obtain ⟨p, hlength, -, hq⟩ := exists_mem_ways_of_mem_matchesFrom h
  exact (leadsTo_of_mem_ways hq).length_rest.trans hlength

/-! ### Groups -/

/-- Whether an expression cannot match without keeping a group of a number. -/
def Expression.binds (number : Nat) : Expression → Bool
  | seq first second => first.binds number || second.binds number
  | either first second => first.binds number && second.binds number
  | group n body => n == number || body.binds number
  | _ => false

/-- The text kept under a number, if there is one. -/
def Place.kept? (p : Place) (number : Nat) : Option (List Char) :=
  (p.groups.find? fun g => g.1 == number).map Prod.snd

lemma Place.kept_eq {p : Place} {number : Nat} {text : List Char} (h : p.kept? number = some text) :
    p.kept number = text := by
  rw [kept, ← kept?, h, Option.getD_some]

lemma Expression.exists_group_of_binds {e : Expression} {number : Nat} {p q : Place}
    (hbinds : e.binds number = true) (h : q ∈ e.ways p) : ∃ g ∈ q.groups, g.1 = number := by
  induction e generalizing p q with
  | one | nothing | many | boundary => cases hbinds
  | seq first second ihf ihs =>
    obtain ⟨m, hm, hq⟩ := List.mem_flatMap.1 h
    rcases Bool.or_eq_true_iff.1 hbinds with hfirst | hsecond
    · obtain ⟨g, hg, hnumber⟩ := ihf hfirst hm
      exact ⟨g, (leadsTo_of_mem_ways hq).groups.mem hg, hnumber⟩
    · exact ihs hsecond hq
  | either first second ihf ihs =>
    obtain ⟨hfirst, hsecond⟩ := Bool.and_eq_true_iff.1 hbinds
    rcases List.mem_append.1 h with h | h
    exacts [ihf hfirst h, ihs hsecond h]
  | group n body ih =>
    obtain ⟨m, hm, rfl⟩ := List.mem_map.1 h
    rcases Bool.or_eq_true_iff.1 hbinds with hn | hbody
    · exact ⟨_, List.mem_cons_self, beq_iff_eq.1 hn⟩
    · obtain ⟨g, hg, hnumber⟩ := ih hbody hm
      exact ⟨g, List.mem_cons_of_mem _ hg, hnumber⟩

/-- A match keeps the groups that the expression cannot do without. -/
lemma Expression.kept?_of_binds {e : Expression} {number : Nat} {p q : Place}
    (hbinds : e.binds number = true) (h : q ∈ e.ways p) :
    q.kept? number = some (q.kept number) := by
  obtain ⟨g, hg, hnumber⟩ := exists_group_of_binds hbinds h
  obtain ⟨text, htext⟩ : ∃ text, q.kept? number = some text := by
    rw [Place.kept?, ← Option.isSome_iff_exists, Option.isSome_map, List.find?_isSome]
    exact ⟨g, hg, beq_iff_eq.2 hnumber⟩
  rw [Place.kept_eq htext, htext]

/-! ### The first part of a line -/

/-- The same place in a line that goes on. -/
def Place.extend (tail : List Char) (p : Place) : Place := { p with rest := p.rest ++ tail }

/-- Whether a place in a line that goes on lies in its first part, or at the end of it. -/
def Place.isBefore (tail : List Char) (p : Place) : Bool := tail.length ≤ p.rest.length

section Extend

variable {tail : List Char}

lemma Place.isBefore_extend (p : Place) : (p.extend tail).isBefore tail = true := by
  simp [isBefore, extend]

lemma filter_flatMap_isBefore {l : List Place} {f : Place → List Place}
    (h : ∀ q ∈ l, q.isBefore tail = false → (f q).filter (Place.isBefore tail) = []) :
    (l.flatMap f).filter (Place.isBefore tail)
      = (l.filter (Place.isBefore tail)).flatMap fun q => (f q).filter (Place.isBefore tail) := by
  induction l with
  | nil => rfl
  | cons a l ih =>
    rw [List.flatMap_cons, List.filter_append, ih fun q hq => h q (List.mem_cons_of_mem _ hq)]
    cases ha : a.isBefore tail with
    | true => rw [List.filter_cons_of_pos ha, List.flatMap_cons]
    | false =>
      rw [List.filter_cons_of_neg (by simp [ha]), h a List.mem_cons_self ha, List.nil_append]

/-- No way leads back into the first part of a line. -/
lemma LeadsTo.isBefore_eq_false {p q : Place} (h : LeadsTo p q) (hp : p.isBefore tail = false) :
    q.isBefore tail = false := by
  obtain ⟨taken, hrest, -⟩ := h.between
  simp only [Place.isBefore, decide_eq_false_iff_not, Nat.not_le, hrest, List.length_append] at hp ⊢
  omega

lemma filter_ways_of_not_isBefore {e : Expression} {p : Place} (hp : p.isBefore tail = false) :
    (e.ways p).filter (Place.isBefore tail) = [] := by
  rw [List.filter_eq_nil_iff]
  intro q hq
  simp [(Expression.leadsTo_of_mem_ways hq).isBefore_eq_false hp]

section Repeat

variable {lazy : Bool} {step : Place → List Place}

lemma filter_repeatWays_of_not_isBefore (hleads : ∀ p, ∀ q ∈ step p, LeadsTo p q) {count : Nat}
    {p : Place} (hp : p.isBefore tail = false) :
    (repeatWays lazy step count p).filter (Place.isBefore tail) = [] := by
  rw [List.filter_eq_nil_iff]
  intro q hq
  simp [(leadsTo_of_mem_repeatWays hleads hq).isBefore_eq_false hp]

/-- A repetition goes on in the first part of a line as if the line ended there.  It is bounded by
the length of what is left, so a greater bound makes no difference. -/
lemma filter_repeatWays_extend (hleads : ∀ p, ∀ q ∈ step p, LeadsTo p q)
    (hstep : ∀ p : Place, (step (p.extend tail)).filter (Place.isBefore tail)
      = (step p).map (Place.extend tail)) (more : Nat) {count : Nat} {p : Place}
    (hcount : p.rest.length ≤ count) :
    (repeatWays lazy step (count + more) (p.extend tail)).filter (Place.isBefore tail)
      = (repeatWays lazy step count p).map (Place.extend tail) := by
  induction count generalizing p with
  | zero =>
    cases more with
    | zero => simp [repeatWays, Place.isBefore_extend]
    | succ more =>
      -- a step forward leads beyond the first part
      have hagain : ((step (p.extend tail)).flatMap fun q =>
            if (p.extend tail).offset < q.offset then repeatWays lazy step (0 + more) q
            else []).filter (Place.isBefore tail) = [] := by
        rw [List.filter_eq_nil_iff]
        intro r hr
        obtain ⟨q, hq, hr⟩ := List.mem_flatMap.1 hr
        split at hr
        next hlt =>
          have hlength := (hleads _ q hq).length_rest
          have hrest : (p.extend tail).rest.length = tail.length := by
            rw [Place.extend, List.length_append]
            omega
          have hq : q.isBefore tail = false := by
            simp only [Place.isBefore, decide_eq_false_iff_not]
            omega
          simp [(leadsTo_of_mem_repeatWays hleads hr).isBefore_eq_false hq]
        next => cases hr
      rw [← Nat.add_assoc, repeatWays, repeatWays]
      cases lazy <;> simp only [Bool.false_eq_true, if_true, if_false, List.filter_append, hagain,
        List.filter_cons, Place.isBefore_extend, List.map_cons, List.filter_nil, List.map_nil,
        List.nil_append]
  | succ count ih =>
    have hagain : ((step (p.extend tail)).flatMap fun q =>
          if (p.extend tail).offset < q.offset then repeatWays lazy step (count + more) q
          else []).filter (Place.isBefore tail)
        = ((step p).flatMap fun q =>
          if p.offset < q.offset then repeatWays lazy step count q else []).map
            (Place.extend tail) := by
      rw [filter_flatMap_isBefore, hstep, List.flatMap_map, List.map_flatMap]
      · refine List.flatMap_congr fun q hq => ?_
        change (if p.offset < q.offset then _ else _ : List Place).filter _ = List.map _ _
        split
        next hlt =>
          have hlength := (hleads p q hq).length_rest
          exact ih (by omega)
        next => rfl
      · intro q _ hq
        split
        · exact filter_repeatWays_of_not_isBefore hleads hq
        · rfl
    rw [Nat.add_right_comm, repeatWays, repeatWays]
    cases lazy <;> simp only [Bool.false_eq_true, if_true, if_false, List.filter_append, hagain,
      List.map_append, List.filter_cons, Place.isBefore_extend, List.map_cons, List.filter_nil,
      List.map_nil]

end Repeat

/-- The ways in the first part of a line are the ways in the whole line that do not lead beyond it,
unless a word goes on there. -/
lemma Expression.ways_extend (htail : (tail.head?.map isWord).getD false = false) (e : Expression)
    (p : Place) :
    (e.ways (p.extend tail)).filter (Place.isBefore tail) = (e.ways p).map (Place.extend tail) := by
  induction e generalizing p with
  | one accepts =>
    cases hrest : p.rest with
    | nil =>
      -- a character of the second part leads beyond the first one
      cases tail with
      | nil => simp [ways, Place.extend, hrest]
      | cons c rest =>
        by_cases hc : accepts c = true <;>
          simp [ways, Place.extend, hrest, hc, Place.isBefore]
    | cons c rest =>
      by_cases hc : accepts c = true <;>
        simp [ways, Place.extend, hrest, hc, Place.isBefore]
  | nothing => simp [ways, Place.isBefore_extend]
  | seq first second ihf ihs =>
    rw [ways, ways, filter_flatMap_isBefore fun q _ hq => filter_ways_of_not_isBefore hq, ihf,
      List.flatMap_map, List.map_flatMap]
    simp only [ihs]
  | either first second ihf ihs => rw [ways, ways, List.filter_append, ihf, ihs, List.map_append]
  | many lazy body ih =>
    have hlength : (p.extend tail).rest.length = p.rest.length + tail.length := by
      rw [Place.extend, List.length_append]
    rw [ways, ways, hlength]
    exact filter_repeatWays_extend (fun p q => leadsTo_of_mem_ways) ih _ (Nat.le_refl _)
  | group number body ih =>
    rw [ways, ways, List.filter_map]
    change ((body.ways (p.extend tail)).filter (Place.isBefore tail)).map _ = _
    rw [ih, List.map_map, List.map_map]
    refine List.map_congr_left fun q hq => ?_
    have hlength := (leadsTo_of_mem_ways hq).length_rest
    have htake : (p.rest ++ tail).take (q.offset - p.offset)
        = p.rest.take (q.offset - p.offset) := List.take_append_of_le_length (by omega)
    simp only [Function.comp_apply, Place.extend, htake]
  | boundary =>
    have hplace : (p.extend tail).atBoundary = p.atBoundary := by
      cases hrest : p.rest <;> simp [Place.atBoundary, Place.extend, hrest, htail]
    rw [ways, ways, hplace]
    split <;> simp [Place.isBefore_extend]

/-- The first way is the same in the whole line, if it does not lead beyond the first part. -/
lemma Expression.head?_ways_extend (htail : (tail.head?.map isWord).getD false = false)
    {e : Expression} {p : Place} (h : ∀ q ∈ (e.ways (p.extend tail)).head?, q.isBefore tail) :
    (e.ways (p.extend tail)).head? = (e.ways p).head?.map (Place.extend tail) := by
  have hways := ways_extend htail e p
  rw [← List.head?_map, ← hways]
  cases hfirst : e.ways (p.extend tail) with
  | nil => rfl
  | cons q qs =>
    rw [hfirst] at h
    rw [List.filter_cons_of_pos (h q rfl), List.head?_cons, List.head?_cons]

/-- The places in the first part of a line are those with not more characters before them. -/
lemma Place.isBefore_of_offset_le {line : List Char} {q : Place}
    (hlength : q.rest.length + q.offset = (line ++ tail).length) (h : q.offset ≤ line.length) :
    q.isBefore tail = true := by
  rw [List.length_append] at hlength
  simp only [isBefore, decide_eq_true_eq]
  omega

/-- The match at the start is the same in the whole line, if it does not end beyond the first
part. -/
lemma Expression.matchStart?_extend (htail : (tail.head?.map isWord).getD false = false)
    {e : Expression} {line : List Char}
    (h : ∀ q ∈ e.matchStart? (line ++ tail), q.offset ≤ line.length) :
    e.matchStart? (line ++ tail) = (e.matchStart? line).map (Place.extend tail) := by
  have hstart : Place.start (line ++ tail) = (Place.start line).extend tail := rfl
  have hbefore (q : Place) (hq : q ∈ e.matchStart? (line ++ tail)) : q.isBefore tail :=
    Place.isBefore_of_offset_le (length_rest_of_matchStart? hq) (h q hq)
  rw [matchStart?_eq, hstart] at hbefore
  rw [matchStart?_eq, matchStart?_eq, hstart]
  exact head?_ways_extend htail hbefore

/-- Matches that are looked for beyond the first part of a line lie beyond it. -/
lemma Expression.isBefore_eq_false_of_mem_matchesFrom {e : Expression} {count : Nat} {p q : Place}
    (h : q ∈ e.matchesFrom count p) (hp : p.isBefore tail = false) : q.isBefore tail = false := by
  obtain ⟨p', hlength, hle, hq⟩ := exists_mem_ways_of_mem_matchesFrom h
  refine (leadsTo_of_mem_ways hq).isBefore_eq_false ?_
  simp only [Place.isBefore, decide_eq_false_iff_not, Nat.not_le] at hp ⊢
  omega

lemma Expression.matchesFrom_extend (htail : (tail.head?.map isWord).getD false = false)
    {e : Expression} {count count' : Nat} {p : Place} (hcount : p.rest.length < count)
    (hcount' : p.rest.length + tail.length < count')
    (h : ∀ q ∈ e.matchesFrom count' (p.extend tail), q.isBefore tail) :
    e.matchesFrom count' (p.extend tail) = (e.matchesFrom count p).map (Place.extend tail) := by
  induction count generalizing count' p with
  | zero => exact absurd hcount (Nat.not_lt_zero _)
  | succ count ih =>
    cases count' with
    | zero => exact absurd hcount' (Nat.not_lt_zero _)
    | succ count' =>
      have hshort := head?_ways_extend htail (e := e) (p := { p with groups := [] }) fun q hq =>
        h q (by rw [matchesFrom_of_some hq]; exact List.mem_cons_self)
      cases hfirst : (e.ways { p with groups := [] }).head? with
      | some q =>
        have hlength := (leadsTo_of_mem_ways (List.mem_of_head? hfirst)).length_rest
        rw [hfirst] at hshort
        rw [matchesFrom_of_some hshort] at h ⊢
        rw [matchesFrom_of_some hfirst, List.map_cons]
        by_cases hlt : p.offset < q.offset
        · have hlt' : (p.extend tail).offset < (q.extend tail).offset := hlt
          dsimp only at hlength
          rw [if_pos hlt'] at h ⊢
          rw [if_pos hlt, ih (by omega) (by omega) fun r hr => h r (List.mem_cons_of_mem _ hr)]
        · have hlt' : ¬ (p.extend tail).offset < (q.extend tail).offset := hlt
          rw [if_neg hlt', if_neg hlt, List.map_nil]
      | none =>
        rw [hfirst] at hshort
        cases hrest : p.rest with
        | cons c rest =>
          have hrest' : (p.extend tail).rest = c :: (rest ++ tail) := by
            rw [Place.extend, hrest, List.cons_append]
          rw [hrest, List.length_cons] at hcount hcount'
          rw [matchesFrom_of_none hshort hrest'] at h ⊢
          rw [matchesFrom_of_none hfirst hrest]
          exact ih (p := ⟨some c, p.offset + 1, rest, []⟩) (by dsimp only; omega)
            (by dsimp only; omega) h
        | nil =>
          have hrest' : (p.extend tail).rest = tail := by rw [Place.extend, hrest, List.nil_append]
          rw [matchesFrom_at_end hfirst hrest, List.map_nil]
          cases tail with
          | nil => exact matchesFrom_at_end hshort hrest' _
          | cons c more =>
            -- what is found from here on lies beyond the first part
            rw [matchesFrom_of_none hshort hrest'] at h ⊢
            refine List.eq_nil_iff_forall_not_mem.2 fun q hq => ?_
            have hbeyond : q.isBefore (c :: more) = false :=
              isBefore_eq_false_of_mem_matchesFrom hq (by simp [Place.isBefore])
            exact absurd (h q hq) (by simp [hbeyond])

/-- All matches are the same in the whole line, if none ends beyond the first part. -/
lemma Expression.matchesIn_extend (htail : (tail.head?.map isWord).getD false = false)
    {e : Expression} {line : List Char}
    (h : ∀ q ∈ e.matchesIn (line ++ tail), q.offset ≤ line.length) :
    e.matchesIn (line ++ tail) = (e.matchesIn line).map (Place.extend tail) := by
  have hstart : Place.start (line ++ tail) = (Place.start line).extend tail := rfl
  have hbefore (q : Place) (hq : q ∈ e.matchesIn (line ++ tail)) : q.isBefore tail :=
    Place.isBefore_of_offset_le (length_rest_of_mem_matchesIn hq) (h q hq)
  rw [matchesIn, hstart] at hbefore
  rw [matchesIn, matchesIn, hstart]
  refine matchesFrom_extend htail (Nat.lt_succ_self _) ?_ hbefore
  rw [List.length_append]
  exact Nat.lt_succ_self _

end Extend

end HouseStyle.Text
