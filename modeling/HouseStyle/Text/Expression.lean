import HouseStyle.Text.Word

/-!
# Expressions that are matched against a line

The forms of the line based languages are recognised by expressions over characters: classes,
sequences, alternatives, repetitions and word boundaries, with groups whose text is kept.  Of
all the ways to match, the first one counts: an earlier alternative before a later one, and a
repetition as long as possible, or as short as possible when it is lazy.

The matcher passes what remains of the line to a continuation, so that a later failure brings
back the next way.  It is a recursion on the expression; a repetition goes on only after a step
forward, so it is bounded by the length of the line.
-/

namespace HouseStyle.Text

/-- An expression over the characters of a line. -/
inductive Expression where
  /-- One character of a class. -/
  | one (accepts : Char → Bool)
  /-- Nothing at all. -/
  | nothing
  /-- One expression after the other. -/
  | seq (first second : Expression)
  /-- The first expression, or else the second. -/
  | either (first second : Expression)
  /-- Any number of times, as often as possible or, when lazy, as seldom as possible. -/
  | many (lazy : Bool) (body : Expression)
  /-- An expression whose text is kept under a number. -/
  | group (number : Nat) (body : Expression)
  /-- A place between a word character and another one, or an end of the line. -/
  | boundary

/-- A place in a line: the character before it, its offset, the text after it and the texts of
the groups that are complete, the latest first. -/
structure Place where
  /-- The character before the place. -/
  before : Option Char
  /-- The number of characters before the place. -/
  offset : Nat
  /-- The text after the place. -/
  rest : List Char
  /-- The texts of the groups. -/
  groups : List (Nat × List Char)

namespace Place

/-- The start of a line. -/
def start (line : List Char) : Place := ⟨none, 0, line, []⟩

/-- Whether a word begins or ends here. -/
def atBoundary (p : Place) : Bool :=
  (p.before.map isWord).getD false != (p.rest.head?.map isWord).getD false

/-- The text kept under a number. -/
def kept (p : Place) (number : Nat) : List Char :=
  ((p.groups.find? fun g => g.1 == number).map Prod.snd).getD []

end Place

/-- Repeat a step up to `count` times, each time moving forward. -/
def repeatStep {β : Type} (lazy : Bool) (step : Place → (Place → Option β) → Option β) :
    (count : Nat) → Place → (Place → Option β) → Option β
  | 0, p, next => next p
  | count + 1, p, next =>
    let again := fun q => if p.offset < q.offset then repeatStep lazy step count q next else none
    if lazy then
      match next p with
      | some found => some found
      | none => step p again
    else
      match step p again with
      | some found => some found
      | none => next p

namespace Expression

/-- Match at a place and go on with `next`; the first way for which `next` succeeds counts. -/
def run {β : Type} : Expression → Place → (Place → Option β) → Option β
  | one accepts, p, next =>
    match p.rest with
    | [] => none
    | c :: rest =>
      if accepts c then next ⟨some c, p.offset + 1, rest, p.groups⟩ else none
  | nothing, p, next => next p
  | seq first second, p, next => first.run p fun q => second.run q next
  | either first second, p, next =>
    match first.run p next with
    | some found => some found
    | none => second.run p next
  | many lazy body, p, next => repeatStep lazy body.run p.rest.length p next
  | group number body, p, next =>
    body.run p fun q =>
      next { q with groups := (number, p.rest.take (q.offset - p.offset)) :: q.groups }
  | boundary, p, next => if p.atBoundary then next p else none

/-- The match at the start of a line. -/
def matchStart? (e : Expression) (line : List Char) : Option Place :=
  e.run (Place.start line) some

/-- The matches in a line from left to right, each starting where the one before it ended or
later; `count` bounds the number of places still to be tried. -/
def matchesFrom (e : Expression) : (count : Nat) → Place → List Place
  | 0, _ => []
  | count + 1, p =>
    match e.run { p with groups := [] } some with
    | some q => q :: (if p.offset < q.offset then matchesFrom e count q else [])
    | none =>
      match p.rest with
      | [] => []
      | c :: rest => matchesFrom e count ⟨some c, p.offset + 1, rest, []⟩

/-- The matches in a line from left to right. -/
def matchesIn (e : Expression) (line : List Char) : List Place :=
  e.matchesFrom (line.length + 1) (Place.start line)

/-- A fixed text. -/
def text (s : String) : Expression :=
  s.toList.foldr (fun c e => seq (one (· == c)) e) nothing

/-- One expression after the other. -/
def all (es : List Expression) : Expression :=
  es.foldr seq nothing

/-- The first of some expressions that matches. -/
def anyOf : List Expression → Expression
  | [] => one fun _ => false
  | [e] => e
  | e :: es => either e (anyOf es)

/-- An expression or nothing, the expression first. -/
def optional (e : Expression) : Expression :=
  either e nothing

/-- Any number of times, as often as possible. -/
def star (e : Expression) : Expression :=
  many false e

/-- At least once, as often as possible. -/
def plus (e : Expression) : Expression :=
  seq e (star e)

end Expression

end HouseStyle.Text
