import HouseStyle.Proofs.Script.Comments
import HouseStyle.Proofs.Script.Recorded
import HouseStyle.Proofs.Text.Expression
import Mathlib.Tactic.Common

/-!
# Where modules are imported

Whether something is imported on a line is asked of its code, but what is imported is read off the
line as it is written, together with the comment behind it.  So a comment can make an import of a
line that has none, or hide the one that it has.

A site of an import is kept without the comment if it ends before it, and the imports of a script do
not depend on its comments as long as no site reaches into one (`imports_withoutComments`).
-/

namespace HouseStyle

namespace Script

open Survey Text

/-- A place at which a module is imported: the number of the line, the number of its characters up
to the end of the place, and the texts of the names and the module. -/
structure ImportSite where
  /-- The number of the line, from 1 on. -/
  line : Nat
  /-- The number of characters of the line up to the end of the site. -/
  stop : Nat
  /-- The names that are imported, as far as they are read. -/
  names : List Char
  /-- The module. -/
  module : List Char
deriving DecidableEq, Repr

namespace ImportSite

/-- The site of a match that keeps the names and the module. -/
def named (number : Nat) (p : Place) : ImportSite := ⟨number, p.offset, p.kept 1, p.kept 2⟩

/-- The site of a match that keeps only the module. -/
def bare (number : Nat) (p : Place) : ImportSite := ⟨number, p.offset, [], p.kept 1⟩

/-- What is known about the import. -/
def facts (s : ImportSite) : ImportFacts :=
  imported s.line s.module (startsWith (trim s.names) "*")

/-- Whether a site lies on a line of a text and ends before the end of the line. -/
def LiesIn (s : ImportSite) (source : List Char) : Prop :=
  ∃ line, (lines source)[s.line - 1]? = some line ∧ s.stop ≤ line.length

end ImportSite

/-- The site of the import statement on a line. -/
def statementSite? (number : Nat) (l : Line) : Option ImportSite :=
  if startsWith (trimStart l.code) "import" || startsWith (trimStart l.code) "export" then
    ((Forms.importFrom.matchStart? l.raw).map (.named number)).or
      ((Forms.importBare.matchStart? l.raw).map (.bare number))
  else if startsWith (trimStart l.code) "\x7d" then
    (Forms.importTail.matchStart? l.raw).map (.bare number)
  else none

/-- The sites of the modules that are required on a line. -/
def requiredSites (number : Nat) (l : Line) : List ImportSite :=
  if holds l.code "require(" then (Forms.required.matchesIn l.raw).map (.bare number) else []

/-- The sites of the imports on a line. -/
def sitesOn (number : Nat) (l : Line) : List ImportSite :=
  match statementSite? number l with
  | some s => [s]
  | none => requiredSites number l

/-- The sites of the imports on lines, the first of which has a number. -/
def sitesFrom (number : Nat) : List Line → List ImportSite
  | [] => []
  | l :: below => (if l.isBlank then [] else sitesOn number l) ++ sitesFrom (number + 1) below

/-- The sites of the imports of a script. -/
def importSites (source : List Char) : List ImportSite := sitesFrom 1 (rescanned source).1

/-! ### Sites and imports -/

lemma importStatement?_eq (number : Nat) (l : Line) :
    importStatement? number l = (statementSite? number l).map ImportSite.facts := by
  rw [importStatement?, statementSite?]
  split
  · rw [Option.map_or, Option.map_map, Option.map_map]
    cases Forms.importFrom.matchStart? l.raw <;> rfl
  · split
    · rw [Option.map_map]; rfl
    · rfl

lemma imports_eq (number : Nat) (l : Line) :
    imports number l = (sitesOn number l).map ImportSite.facts := by
  rw [imports, sitesOn, importStatement?_eq]
  cases statementSite? number l with
  | some s => rfl
  | none =>
    rw [requiredModules, requiredSites]
    dsimp only [Option.map_none]
    split
    · rw [List.map_map]; rfl
    · rfl

variable {dialect : Dialect}

lemma import?_of_mem_doc {doc : Option Doc} {x : Finding} (h : x ∈ doc.toList.flatMap fun d =>
    [Finding.docDelimiter d.delimiter, .docFormat d.format]) : x.import? = none := by
  obtain ⟨d, -, hx⟩ := List.mem_flatMap.1 h
  simp only [List.mem_cons, List.not_mem_nil, or_false] at hx
  rcases hx with rfl | rfl <;> rfl

lemma filterMap_import?_lineFindings (bodies : List Nat) (above : List Line) (l : Line)
    (below : List Line) :
    (lineFindings dialect bodies above l below).filterMap Finding.import?
      = if l.isBlank then [] else imports (above.length + 1) l := by
  have himports (is : List ImportFacts) :
      (is.map Finding.imported).filterMap Finding.import? = is := by
    rw [List.filterMap_map]
    exact List.filterMap_some
  rw [lineFindings]
  split
  · rfl
  · rw [List.filterMap_append, himports]
    -- nothing else that is found on the line is an import
    refine List.append_right_eq_self.2 (List.filterMap_eq_nil_iff.2 fun x hx => ?_)
    split at hx
    · rcases List.mem_append.1 hx with hx | hx
      · exact import?_of_mem_doc hx
      · simp only [List.mem_cons, List.not_mem_nil, or_false] at hx
        rcases hx with rfl | rfl <;> rfl
    · split at hx
      · simp only [functionFindings, List.mem_append, List.mem_map, List.mem_singleton] at hx
        rcases hx with ((hx | ⟨p, -, rfl⟩) | hx) | rfl
        · exact import?_of_mem_doc hx
        · rfl
        · split at hx
          · cases hx
          · obtain rfl := List.mem_singleton.1 hx
            rfl
        · rfl
      · obtain ⟨p, -, rfl⟩ := List.mem_map.1 hx
        rfl

/-- The imports that are found on lines are those at their sites. -/
lemma filterMap_import?_findings (bodies : List Nat) (above ls : List Line) :
    (findings dialect bodies above ls).filterMap Finding.import?
      = (sitesFrom (above.length + 1) ls).map ImportSite.facts := by
  induction ls generalizing bodies above with
  | nil => rfl
  | cons l below ih =>
    rw [findings_cons, List.filterMap_append, filterMap_import?_lineFindings, imports_eq, ih,
      sitesFrom, List.map_append]
    split <;> rfl

/-- A site ends on its line. -/
lemma stop_le_of_mem_sitesOn {number : Nat} {l : Line} {s : ImportSite}
    (h : s ∈ sitesOn number l) : s.line = number ∧ s.stop ≤ l.raw.length := by
  have hplace {q : Place} (hq : q.rest.length + q.offset = l.raw.length) :
      q.offset ≤ l.raw.length := by omega
  rw [sitesOn] at h
  cases hstatement : statementSite? number l with
  | some t =>
    rw [hstatement] at h
    obtain rfl := List.mem_singleton.1 h
    rw [statementSite?] at hstatement
    split at hstatement
    · rcases Option.or_eq_some_iff.1 hstatement with hstatement | ⟨-, hstatement⟩ <;>
        obtain ⟨q, hq, rfl⟩ := Option.map_eq_some_iff.1 hstatement <;>
        exact ⟨rfl, hplace (Expression.length_rest_of_matchStart? hq)⟩
    · split at hstatement
      · obtain ⟨q, hq, rfl⟩ := Option.map_eq_some_iff.1 hstatement
        exact ⟨rfl, hplace (Expression.length_rest_of_matchStart? hq)⟩
      · cases hstatement
  | none =>
    rw [hstatement, requiredSites] at h
    dsimp only at h
    split at h
    · obtain ⟨q, hq, rfl⟩ := List.mem_map.1 h
      exact ⟨rfl, hplace (Expression.length_rest_of_mem_matchesIn hq)⟩
    · cases h

lemma mem_sitesFrom {number : Nat} {ls : List Line} {s : ImportSite}
    (h : s ∈ sitesFrom number ls) :
    ∃ i l, ls[i]? = some l ∧ s.line = number + i ∧ s.stop ≤ l.raw.length := by
  induction ls generalizing number with
  | nil => cases h
  | cons l below ih =>
    rcases List.mem_append.1 h with h | h
    · split at h
      · cases h
      · obtain ⟨hline, hstop⟩ := stop_le_of_mem_sitesOn h
        exact ⟨0, l, rfl, hline, hstop⟩
    · obtain ⟨i, m, hm, hline, hstop⟩ := ih h
      exact ⟨i + 1, m, hm, by omega, hstop⟩

/-! ### Without the comments -/

section Shortened

variable {number : Nat} {l l' : Line}

/-- What is asked of the code in words is the same without the blanks at its end. -/
lemma Shortened.startsWith_eq (h : Shortened l l') (word : String)
    (hword : word.toList.any isBlank = false) :
    startsWith (trimStart l.code) word = startsWith (trimStart l'.code) word := by
  obtain ⟨blanks, hcode, hblanks⟩ := h.code
  rw [hcode, startsWith_trimStart_append_blanks hword hblanks]

/-- What is read off a match is the same on the shorter line, if the match ends on it. -/
lemma Shortened.map_matchStart? (h : Shortened l l') {e : Expression} {site : Place → ImportSite}
    (hsite : ∀ tail p, site (p.extend tail) = site p)
    (hstop : ∀ q ∈ e.matchStart? l.raw, q.offset ≤ l'.raw.length) :
    (e.matchStart? l'.raw).map site = (e.matchStart? l.raw).map site := by
  obtain ⟨tail, hraw, htail⟩ := h.raw
  rw [hraw] at hstop ⊢
  rw [Expression.matchStart?_extend htail hstop, Option.map_map, Function.comp_def]
  simp only [hsite]

lemma Shortened.statementSite?_eq (h : Shortened l l')
    (hstop : ∀ s ∈ statementSite? number l, s.stop ≤ l'.raw.length) :
    statementSite? number l' = statementSite? number l := by
  have hbare {e : Expression}
      (hstop : ∀ s ∈ (e.matchStart? l.raw).map (ImportSite.bare number),
        s.stop ≤ l'.raw.length) :
      (e.matchStart? l'.raw).map (ImportSite.bare number)
        = (e.matchStart? l.raw).map (ImportSite.bare number) :=
    h.map_matchStart? (fun _ _ => rfl) fun q hq => hstop _ (Option.mem_map_of_mem _ hq)
  rw [statementSite?] at hstop
  rw [statementSite?, statementSite?, ← h.startsWith_eq "import" (by decide),
    ← h.startsWith_eq "export" (by decide), ← h.startsWith_eq "\x7d" (by decide)]
  split
  next hword =>
    rw [if_pos hword] at hstop
    have hnamed (q : Place) (hq : q ∈ Forms.importFrom.matchStart? l.raw) :
        q.offset ≤ l'.raw.length := hstop (.named number q) (by rw [hq]; rfl)
    rw [h.map_matchStart? (fun _ _ => rfl) hnamed]
    cases hfirst : Forms.importFrom.matchStart? l.raw with
    | some q => rfl
    | none =>
      rw [hfirst] at hstop
      exact hbare hstop
  next hword =>
    rw [if_neg hword] at hstop
    split
    next hbrace =>
      rw [if_pos hbrace] at hstop
      exact hbare hstop
    next => rfl

lemma Shortened.requiredSites_eq (h : Shortened l l')
    (hstop : ∀ s ∈ requiredSites number l, s.stop ≤ l'.raw.length) :
    requiredSites number l' = requiredSites number l := by
  obtain ⟨tail, hraw, htail⟩ := h.raw
  obtain ⟨blanks, hcode, hblanks⟩ := h.code
  rw [requiredSites, hcode, holds_append_blanks (by decide) hblanks, hraw] at hstop
  rw [requiredSites, requiredSites, hcode, holds_append_blanks (by decide) hblanks, hraw]
  split
  next hword =>
    rw [if_pos hword] at hstop
    rw [Expression.matchesIn_extend htail fun q hq => hstop _ (List.mem_map_of_mem hq),
      List.map_map]
    rfl
  next => rfl

/-- The sites on a line are those without its comment, if they end before it. -/
lemma Shortened.sitesOn_eq (h : Shortened l l')
    (hstop : ∀ s ∈ sitesOn number l, s.stop ≤ l'.raw.length) :
    sitesOn number l' = sitesOn number l := by
  have hstatement : statementSite? number l' = statementSite? number l :=
    h.statementSite?_eq fun s hs => hstop s (by simp [sitesOn, Option.mem_def.1 hs])
  rw [sitesOn] at hstop
  rw [sitesOn, sitesOn, hstatement]
  cases hnone : statementSite? number l with
  | some s => rfl
  | none =>
    rw [hnone] at hstop
    exact h.requiredSites_eq hstop

lemma sitesFrom_of_isBlank {number : Nat} {ls : List Line} (h : ∀ l ∈ ls, l.isBlank = true) :
    sitesFrom number ls = [] := by
  induction ls generalizing number with
  | nil => rfl
  | cons l below ih =>
    rw [sitesFrom, if_pos (h l List.mem_cons_self), ih fun m hm => h m (List.mem_cons_of_mem _ hm),
      List.append_nil]

/-- The sites on lines are those without the comments behind them, if they end before them. -/
lemma sitesFrom_shortened {kept dropped ls : List Line} (h : List.Forall₂ Shortened kept ls)
    (hdropped : ∀ l ∈ dropped, l.isBlank = true)
    (hstop : ∀ s ∈ sitesFrom number (kept ++ dropped),
      ∃ l, ls[s.line - number]? = some l ∧ s.stop ≤ l.raw.length) :
    sitesFrom number ls = sitesFrom number (kept ++ dropped) := by
  induction h generalizing number with
  | nil => rw [List.nil_append, sitesFrom_of_isBlank hdropped, sitesFrom]
  | @cons l l' kept ls hl hkept ih =>
    rw [List.cons_append, sitesFrom] at hstop
    rw [List.cons_append, sitesFrom, sitesFrom, ← hl.isBlank_eq]
    congr 1
    · split
      next => rfl
      next hblank =>
        refine hl.sitesOn_eq fun s hs => ?_
        obtain ⟨m, hm, hle⟩ := hstop s (List.mem_append_left _ (by rwa [if_neg hblank]))
        rw [(stop_le_of_mem_sitesOn hs).1, Nat.sub_self, List.getElem?_cons_zero] at hm
        exact Option.some.inj hm ▸ hle
    · refine ih fun s hs => ?_
      obtain ⟨i, -, -, hline, -⟩ := mem_sitesFrom hs
      obtain ⟨m, hm, hle⟩ := hstop s (List.mem_append_right _ hs)
      have hindex : s.line - number = s.line - (number + 1) + 1 := by omega
      rw [hindex, List.getElem?_cons_succ] at hm
      exact ⟨m, hm, hle⟩

end Shortened

/-- The sites of a script are those without the comments behind its lines if and only if none of
them reaches into such a comment. -/
lemma importSites_withoutComments_iff (source : List Char) :
    importSites (withoutComments source) = importSites source ↔
      ∀ s ∈ importSites source, s.LiesIn (withoutComments source) := by
  constructor
  · intro h s hs
    rw [← h] at hs
    obtain ⟨i, l, hl, hline, hstop⟩ := mem_sitesFrom hs
    refine ⟨l.raw, ?_, hstop⟩
    rw [← raw_rescanned, List.getElem?_map, hline, Nat.add_sub_cancel_left, hl]
    rfl
  · intro h
    obtain ⟨kept, dropped, hlines, hkept, hdropped⟩ := shortened_rescanned source
    rw [importSites, importSites, hlines]
    rw [importSites, hlines] at h
    refine sitesFrom_shortened hkept hdropped fun s hs => ?_
    obtain ⟨line, hline, hstop⟩ := h s hs
    rw [← raw_rescanned, List.getElem?_map] at hline
    obtain ⟨l, hl, rfl⟩ := Option.map_eq_some_iff.1 hline
    exact ⟨l, hl, hstop⟩

/-! ### Test frameworks -/

/-- The call of a test ends with a parenthesis. -/
lemma before_of_mem_ways_testCall {p q : Place} (h : q ∈ Forms.testCall.ways p) :
    q.before = some '(' := by
  obtain ⟨_, -, h⟩ := List.mem_flatMap.1 h
  obtain ⟨_, -, h⟩ := List.mem_flatMap.1 h
  obtain ⟨_, -, h⟩ := List.mem_flatMap.1 h
  obtain ⟨m, hm, hq⟩ := List.mem_flatMap.1 h
  obtain rfl := List.mem_singleton.1 hq
  obtain ⟨m', hm', hq⟩ := List.mem_flatMap.1 hm
  obtain rfl := List.mem_singleton.1 hq
  rw [Expression.ways] at hm'
  split at hm'
  · cases hm'
  · split at hm'
    next hparen =>
      obtain rfl := List.mem_singleton.1 hm'
      exact congrArg some (beq_iff_eq.1 hparen)
    next => cases hm'

/-- So it ends before the blanks at the end of a line. -/
lemma isSome_testCall_append_blanks {code blanks : List Char} (hblanks : allBlank blanks = true) :
    (Forms.testCall.matchStart? (code ++ blanks)).isSome
      = (Forms.testCall.matchStart? code).isSome := by
  have hblank (c : Char) (hc : c ∈ blanks) : isBlank c = true := List.all_eq_true.1 hblanks c hc
  have htail : (blanks.head?.map isWord).getD false = false := by
    cases blanks with
    | nil => rfl
    | cons c blanks => exact isWord_of_isBlank (hblank c List.mem_cons_self)
  rw [Expression.matchStart?_extend htail, Option.isSome_map]
  intro q hq
  have hways := Expression.mem_ways_of_matchStart? hq
  obtain ⟨taken, hrest, hoffset, hbefore⟩ := (Expression.leadsTo_of_mem_ways hways).between
  rw [before_of_mem_ways_testCall hways] at hbefore
  change code ++ blanks = taken ++ q.rest at hrest
  change q.offset = 0 + taken.length at hoffset
  rcases List.append_eq_append_iff.1 hrest with ⟨ys, rfl, hys⟩ | ⟨ys, rfl, -⟩
  · cases hlast : ys.getLast? with
    | none =>
      obtain rfl := List.getLast?_eq_none_iff.1 hlast
      simp [hoffset]
    | some c =>
      -- the parenthesis would be a blank
      have hc : c = '(' := by
        rw [List.getLast?_append, hlast] at hbefore
        exact (Option.some.inj hbefore).symm
      have hmem : c ∈ blanks := hys ▸ List.mem_append_left _ (List.mem_of_getLast? hlast)
      rw [hc] at hmem
      exact absurd (hblank _ hmem) (by decide)
  · rw [hoffset, List.length_append]
    omega

/-- Whether a test is called on some lines. -/
def callsTest (ls : List Line) : Bool :=
  ls.any fun l => !l.isBlank && (Forms.testCall.matchStart? l.code).isSome

lemma callsTest_shortened {kept dropped ls : List Line} (h : List.Forall₂ Shortened kept ls)
    (hdropped : ∀ l ∈ dropped, l.isBlank = true) : callsTest ls = callsTest (kept ++ dropped) := by
  rw [callsTest, callsTest, List.any_append]
  have hnone : (dropped.any fun l => !l.isBlank && (Forms.testCall.matchStart? l.code).isSome)
      = false := by
    exact List.any_eq_false.2 fun l hl => by simp [hdropped l hl]
  rw [hnone, Bool.or_false]
  induction h with
  | nil => rfl
  | cons hl _ ih =>
    obtain ⟨blanks, hcode, hblanks⟩ := hl.code
    rw [List.any_cons, List.any_cons, ih, hl.isBlank_eq, hcode,
      isSome_testCall_append_blanks hblanks]

/-- The labels of the test frameworks of a file, from its imports and from whether it calls a
test. -/
def frameworkLabels (isTest calls : Bool) (is : List ImportFacts) : List String :=
  let labels := is.filterMap fun i => frameworkOf? i.module
  if isTest && labels.isEmpty && calls then ["jest"] else labels

lemma framework?_findings {bodies : List Nat} {above ls : List Line} :
    (findings dialect bodies above ls).filterMap Finding.framework? = [] := by
  refine List.filterMap_eq_nil_iff.2 fun x hx => ?_
  obtain ⟨before, l, below, -, hx⟩ := exists_onLine hx
  cases hx <;> rfl

section Script

variable {language : String} {path : SourcePath} {source : List Char}

lemma imports_read_eq_map :
    (read dialect language path source).imports = (importSites source).map ImportSite.facts := by
  rw [imports_read, filterMap_import?_findings]
  rfl

lemma testFrameworks_read : (read dialect language path source).testFrameworks
    = .ofLabels (frameworkLabels path.isTest (callsTest (rescanned source).1)
        (read dialect language path source).imports) := by
  have hlabels (labels : List String) :
      (labels.map Finding.framework).filterMap Finding.framework? = labels := by
    rw [List.filterMap_map]
    exact List.filterMap_some
  have hread : (read dialect language path source).testFrameworks = .ofLabels
      ((findings dialect [] [] (rescanned source).1 ++ frameworkFindings path.isTest
        (rescanned source).1 (findings dialect [] [] (rescanned source).1)).filterMap
          Finding.framework?) := rfl
  rw [hread, imports_read, List.filterMap_append, framework?_findings, List.nil_append,
    frameworkFindings, hlabels]
  rfl

/-- The imports of a script are those without the comments behind its lines if and only if no import
reaches into such a comment, and then the test frameworks are the same as well. -/
theorem imports_withoutComments (dialect : Dialect) (language : String) (path : SourcePath)
    (source : List Char) :
    (read dialect language path source).imports = (importSites source).map ImportSite.facts ∧
      (importSites (withoutComments source) = importSites source ↔
        ∀ s ∈ importSites source, s.LiesIn (withoutComments source)) ∧
      (importSites (withoutComments source) = importSites source →
        (read dialect language path (withoutComments source)).imports
            = (read dialect language path source).imports ∧
          (read dialect language path (withoutComments source)).testFrameworks
            = (read dialect language path source).testFrameworks) := by
  refine ⟨imports_read_eq_map, importSites_withoutComments_iff source, fun h => ?_⟩
  have himports : (read dialect language path (withoutComments source)).imports
      = (read dialect language path source).imports := by
    rw [imports_read_eq_map, imports_read_eq_map, h]
  obtain ⟨kept, dropped, hlines, hkept, hdropped⟩ := shortened_rescanned source
  refine ⟨himports, ?_⟩
  rw [testFrameworks_read, testFrameworks_read, himports, callsTest_shortened hkept hdropped,
    hlines]

/-- A script that imports nothing, with a comment that names a module. -/
def namedBehind : List Char := "export const a = 1 // from './b'\n".toList

theorem imports_withoutComments_reached :
    (read .plain "javascript" "a.js" namedBehind).imports = [⟨"./b", false, true, 1⟩] ∧
      (read .plain "javascript" "a.js" (withoutComments namedBehind)).imports = [] ∧
      ¬ ∀ s ∈ importSites namedBehind, s.LiesIn (withoutComments namedBehind) := by
  have himports : (read .plain "javascript" "a.js" namedBehind).imports
      = [⟨"./b", false, true, 1⟩] := by decide +kernel
  have hnone : (read .plain "javascript" "a.js" (withoutComments namedBehind)).imports = [] := by
    decide +kernel
  refine ⟨himports, hnone, fun h => ?_⟩
  obtain ⟨-, hsites, hsame⟩ := imports_withoutComments .plain "javascript" "a.js" namedBehind
  have heq := (hsame (hsites.2 h)).1
  rw [himports, hnone] at heq
  cases heq

end Script

end Script

end HouseStyle
