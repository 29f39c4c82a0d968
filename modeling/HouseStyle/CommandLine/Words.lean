import HouseStyle.Text.Lines

/-!
# Words of a command line

A command line is a list of words.  A word with two dashes names an option, a word with one dash
names options by single letters, and any other word is a value or a place.  Behind a word that
is nothing but two dashes there are only places.

Values are settled late: the value of an option is looked at when the next option or place
starts, or at the end.  So an option without a value is found out only then, and a word that
names no option is reported first.
-/

namespace HouseStyle.CommandLine

open HouseStyle.Text

/-- Why a command line is answered without doing anything. -/
inductive Usage where
  /-- The help is asked for. -/
  | help
  /-- The version is asked for. -/
  | version
  /-- There are no words at all. -/
  | nothing
  /-- There is no command. -/
  | noCommand
  /-- A word is no command. -/
  | unknownCommand
  /-- A word is no option, or one place too many. -/
  | unknownArgument
  /-- An option lacks its value, or a path is empty. -/
  | noValue
  /-- A value is given to an option that takes none. -/
  | unwantedValue
  /-- An option is given once more. -/
  | repeated
deriving DecidableEq, Repr

/-- What an option is for. -/
inductive Use where
  /-- To be given or not, at most once. -/
  | flag
  /-- To take one path, at most once. -/
  | path
  /-- To take one text, at most once. -/
  | text
  /-- To take a text as often as one likes. -/
  | texts
  /-- To be answered at once. -/
  | answer (u : Usage)
deriving DecidableEq, Repr

/-- Whether an option takes a value. -/
def Use.takesValue : Use → Bool
  | flag | answer _ => false
  | path | text | texts => true

/-- An option of a command. -/
structure OptionForm where
  /-- The name. -/
  name : String
  /-- The letter, if there is one. -/
  letter? : Option Char
  /-- What it is for. -/
  use : Use
deriving DecidableEq, Repr

/-- What a command can be given. -/
structure Signature where
  /-- The options. -/
  options : List OptionForm
  /-- What the only place stands for, if there is one. -/
  place? : Option OptionForm
deriving DecidableEq, Repr

/-- The form of a word. -/
inductive Word where
  /-- Two dashes alone. -/
  | ends
  /-- The name of an option, with a value behind an equals sign if there is one. -/
  | long (name : String) (value? : Option String)
  /-- The letters of options. -/
  | letters (cs : List Char)
  /-- Any other word. -/
  | plain
deriving DecidableEq, Repr

/-- The form of a word, given its text. -/
def Word.ofText (text : String) : Word :=
  match text.toList with
  | ['-', '-'] => .ends
  | '-' :: '-' :: name =>
    let value := name.dropWhile (· != '=')
    .long (String.ofList (name.takeWhile (· != '=')))
      (if value = [] then none else some (String.ofList value.tail))
  | '-' :: c :: rest => .letters (c :: rest)
  | _ => .plain

/-- What a command was given. -/
structure Given where
  /-- The values by the names of the options.  A flag has an empty value. -/
  values : List (String × String)
  /-- An option with the value that it was given, which is not settled. -/
  pending? : Option (OptionForm × Option String)
  /-- Whether there was a place. -/
  placed : Bool
deriving DecidableEq, Repr

namespace Given

/-- Nothing was given. -/
def empty : Given := ⟨[], none, false⟩

/-- Whether an option was given. -/
def has (g : Given) (form : OptionForm) : Bool := g.values.any fun v => v.1 == form.name

/-- The values of an option. -/
def all (g : Given) (form : OptionForm) : List String :=
  (g.values.filter fun v => v.1 == form.name).map Prod.snd

/-- The first value of an option. -/
def get? (g : Given) (form : OptionForm) : Option String := (g.all form).head?

/-- Accept a value of an option. -/
def accept (g : Given) (form : OptionForm) (value : String) : Except Usage Given :=
  if form.use != .texts && g.has form then .error .repeated
  else if form.use == .path && value = "" then .error .noValue
  else .ok { g with values := g.values ++ [(form.name, value)] }

/-- Settle the value that is pending. -/
def settle (g : Given) : Except Usage Given :=
  match g.pending? with
  | none => .ok g
  | some (_, none) => .error .noValue
  | some (form, some value) => { g with pending? := none }.accept form value

/-- Wait for the value of an option. -/
def await (g : Given) (form : OptionForm) : Except Usage Given := do
  pure { ← g.settle with pending? := some (form, none) }

/-- Take an option with its value. -/
def put (g : Given) (form : OptionForm) (value : String) : Except Usage Given := do
  (← g.settle).accept form value

/-- Take an option that has no value. -/
def take (g : Given) (form : OptionForm) : Except Usage Given := do
  let g ← g.settle
  match form.use with
  | .answer u => .error u
  | _ => g.accept form ""

/-- Take an option by its name. -/
def takeLong (s : Signature) (g : Given) (name : String) (value? : Option String) :
    Except Usage Given :=
  match s.options.find? fun form => form.name == name with
  | none => .error .unknownArgument
  | some form =>
    match form.use.takesValue, value? with
    | true, some value => g.put form value
    | true, none => g.await form
    | false, some _ => .error .unwantedValue
    | false, none => g.take form

/-- Take options by their letters.  What follows the letter of an option with a value is the
value. -/
def takeLetters (s : Signature) (g : Given) : List Char → Except Usage Given
  | [] => .ok g
  | c :: rest =>
    match s.options.find? fun form => form.letter? == some c with
    | none => .error .unknownArgument
    | some form =>
      if form.use.takesValue then
        match rest with
        | [] => g.await form
        | '=' :: value => g.put form (String.ofList value)
        | value => g.put form (String.ofList value)
      else
        match g.take form with
        | .ok g => takeLetters s g rest
        | .error u => .error u

/-- Take a word as a place. -/
def takePlace (s : Signature) (g : Given) (text : String) : Except Usage Given :=
  match s.place? with
  | none => .error .unknownArgument
  | some form =>
    if g.placed then .error .unknownArgument
    else do pure { ← g.settle with pending? := some (form, some text), placed := true }

/-- Take a word that names no option: as the value that is waited for, or else as a place. -/
def takeText (s : Signature) (g : Given) (text : String) : Except Usage Given :=
  match g.pending? with
  | some (form, none) => .ok { g with pending? := some (form, some text) }
  | _ => g.takePlace s text

/-- Take the words of a command. -/
def takeAll (s : Signature) (g : Given) : List String → Except Usage Given
  | [] => g.settle
  | w :: ws => do
    match Word.ofText w with
    | .ends => (← ws.foldlM (takePlace s) g).settle
    | .long name value? => takeAll s (← g.takeLong s name value?) ws
    | .letters cs => takeAll s (← g.takeLetters s cs) ws
    | .plain => takeAll s (← g.takeText s w) ws

end Given

end HouseStyle.CommandLine
