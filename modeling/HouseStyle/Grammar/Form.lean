import HouseStyle.Grammar.Token

/-!
# Grammars

A grammar gives a form for each of its rules.  A form says which tokens may follow each other and
which nodes they make; of two forms the first one that fits is taken.  The nodes that are
finished stand in a scope, from which a node takes what is below it.  A node can also be put
around everything in its scope, which is how operands are joined from left to right.

A comment between two tokens belongs to the lowest node around both of them.  So a comment that
stands before the first token of a node is put in front of that node.
-/

namespace HouseStyle.Grammar

/-- A form of a grammar with rules `ρ` and kinds of nodes `κ`. -/
inductive Form (ρ κ : Type) where
  /-- A token of a class, as a word or mark. -/
  | token (accepts : Token → Bool)
  /-- A token of a class, as a node of a kind. -/
  | leaf (k : Option κ) (accepts : Token → Bool)
  /-- A token of a class that leaves no node. -/
  | silent (accepts : Token → Bool)
  /-- The form of a rule. -/
  | rule (r : ρ)
  /-- No tokens. -/
  | nothing
  /-- One form after the other. -/
  | seq (first second : Form ρ κ)
  /-- The first form, or else the second. -/
  | either (first second : Form ρ κ)
  /-- Any number of times. -/
  | many (body : Form ρ κ)
  /-- A form with a scope of its own. -/
  | scope (body : Form ρ κ)
  /-- A node of a kind. -/
  | node (k : Option κ) (body : Form ρ κ)
  /-- A node of a kind around everything in the scope and what follows. -/
  | wrap (k : Option κ) (body : Form ρ κ)
  /-- A form whose nodes play a role. -/
  | role (r : Role) (body : Form ρ κ)
  /-- No tokens, where a form does not fit. -/
  | refuse (body : Form ρ κ)
  /-- No tokens, where a form fits. -/
  | ahead (body : Form ρ κ)

namespace Form

variable {ρ κ : Type}

/-- One form after the other. -/
def all : List (Form ρ κ) → Form ρ κ
  | [] => nothing
  | [f] => f
  | f :: fs => seq f (all fs)

/-- The first of some forms that fits. -/
def anyOf : List (Form ρ κ) → Form ρ κ
  | [] => token fun _ => false
  | [f] => f
  | f :: fs => either f (anyOf fs)

/-- A form or nothing. -/
def optional (f : Form ρ κ) : Form ρ κ := either f nothing

/-- A form at least once. -/
def plus (f : Form ρ κ) : Form ρ κ := seq f (many f)

/-- A form that may be followed by steps, each of which can be put around what is there. -/
def fold (base step : Form ρ κ) : Form ρ κ := scope (seq base (many step))

/-- A word. -/
def word (w : String) : Form ρ κ := token (·.isWord w)

/-- A mark. -/
def mark (m : String) : Form ρ κ := token (·.isMark m)

/-- One of some marks. -/
def marks (ms : List String) : Form ρ κ := token fun t => t.shape == .mark && ms.contains t.text

/-- A node that does not matter. -/
def plain (body : Form ρ κ) : Form ρ κ := node none body

/-- Forms separated by a mark. -/
def separated (m : String) (f : Form ρ κ) : Form ρ κ := seq f (many (seq (mark m) f))

/-- Forms separated by commas, with an optional comma at the end. -/
def listed (f : Form ρ κ) : Form ρ κ := seq (separated "," f) (optional (mark ","))

end Form

/-- The state of a parse: the finished nodes of the scope, the last one first, what follows, and
how many tokens were taken. -/
structure Progress (κ : Type) where
  /-- The finished nodes. -/
  done : List (Tree κ)
  /-- What follows. -/
  rest : List Lexeme
  /-- The number of tokens that were taken. -/
  taken : Nat

/-- The rules of a language, and how they make nodes. -/
structure RuleSystem (ρ κ : Type) where
  /-- The forms of the rules. -/
  form : ρ → Form ρ κ
  /-- The kind of comments. -/
  comment : κ

namespace RuleSystem

variable {ρ κ : Type} [BEq κ]

/-- A node without anything below it. -/
def leafTree (k : Option κ) (named : Bool) (t : Token) : Tree κ :=
  .node ⟨k, named, none, t.start, t.stop⟩ []

/-- The node of a comment. -/
def commentTree (g : RuleSystem ρ κ) (t : Token) : Tree κ := leafTree (some g.comment) true t

/-- Put a node around some trees, the last one first; comments before the first other tree stay
in front of it. -/
def enclose (g : RuleSystem ρ κ) (k : Option κ) (done : List (Tree κ)) : List (Tree κ) :=
  let inOrder := done.reverse
  let isComment := fun t : Tree κ => t.isKind g.comment
  match inOrder.dropWhile isComment with
  | [] => done
  | first :: more =>
    let stop := (done.head?.getD first).label.stop
    .node ⟨k, true, none, first.label.start, stop⟩ (first :: more)
      :: (inOrder.takeWhile isComment).reverse

/-- Take a token of a class, leaving what `leave` makes of it. -/
def take (g : RuleSystem ρ κ) (accepts : Token → Bool) (leave : Token → List (Tree κ))
    (p : Progress κ) : Option (Progress κ) :=
  match p.rest with
  | [] => none
  | l :: rest =>
    if accepts l.token then
      some ⟨leave l.token ++ (l.comments.map g.commentTree ++ p.done), rest, p.taken + 1⟩
    else none

/-- What is left after a form, if it fits.  Fuel bounds the number of steps inside each other. -/
def run (g : RuleSystem ρ κ) : (fuel : Nat) → Form ρ κ → Progress κ → Option (Progress κ)
  | 0, _, _ => none
  | fuel + 1, f, p =>
    match f with
    | .token accepts => g.take accepts (fun t => [leafTree none false t]) p
    | .leaf k accepts => g.take accepts (fun t => [leafTree k true t]) p
    | .silent accepts => g.take accepts (fun _ => []) p
    | .rule r => run g fuel (g.form r) p
    | .nothing => some p
    | .seq first second =>
      match run g fuel first p with
      | some q => run g fuel second q
      | none => none
    | .either first second =>
      match run g fuel first p with
      | some q => some q
      | none => run g fuel second p
    | .many body =>
      match run g fuel body p with
      | some q => if p.taken < q.taken then run g fuel (.many body) q else some p
      | none => some p
    | .scope body =>
      match run g fuel body ⟨[], p.rest, p.taken⟩ with
      | some q => some ⟨q.done ++ p.done, q.rest, q.taken⟩
      | none => none
    | .node k body =>
      match run g fuel body ⟨[], p.rest, p.taken⟩ with
      | some q => some ⟨g.enclose k q.done ++ p.done, q.rest, q.taken⟩
      | none => none
    | .wrap k body =>
      match run g fuel body p with
      | some q => some ⟨g.enclose k q.done, q.rest, q.taken⟩
      | none => none
    | .role r body =>
      match run g fuel body ⟨[], p.rest, p.taken⟩ with
      | some q =>
        let done := q.done.map fun t => if t.isKind g.comment then t else t.withRole r
        some ⟨done ++ p.done, q.rest, q.taken⟩
      | none => none
    | .refuse body =>
      match run g fuel body ⟨[], p.rest, p.taken⟩ with
      | some _ => none
      | none => some p
    | .ahead body =>
      match run g fuel body ⟨[], p.rest, p.taken⟩ with
      | some _ => some p
      | none => none

/-- The tree of a file that follows a rule and nothing else. -/
def parse? (g : RuleSystem ρ κ) (r : ρ) (tokens : List Token) : Option (Tree κ) :=
  let lexemes := attachComments [] tokens
  let whole : Form ρ κ := .seq (.rule r) (.token (·.shape == .fileEnd))
  match run g (400 * (lexemes.length + 2)) whole ⟨[], lexemes, 0⟩ with
  | some q =>
    match q.done, q.done.getLast? with
    | last :: _, some first =>
      some (.node ⟨none, true, none, first.label.start, last.label.stop⟩ q.done.reverse)
    | _, _ => none
  | none => none

end RuleSystem

end HouseStyle.Grammar
