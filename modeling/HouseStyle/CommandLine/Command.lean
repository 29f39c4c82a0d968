import HouseStyle.CommandLine.Words
import HouseStyle.Path

/-!
# Commands

The program has four commands: to learn the conventions of the main language, to compare all
languages, to show what was saved, and to write a settings file to start from.  Each command
has its own options; every command, and the program itself, can be asked for help.
-/

namespace HouseStyle.CommandLine

/-- What to learn from, and what to do with the result. -/
structure LearnOrder where
  /-- The root of the project. -/
  root : Path
  /-- The settings file, if one is named. -/
  settingsFile? : Option Path
  /-- The names of directories to leave out, in the stead of those of the settings. -/
  excludedDirs : List String
  /-- The languages to look at, in the stead of those of the settings. -/
  languages : List String
  /-- How to show the result. -/
  format : String
  /-- Whether to save the result. -/
  saves : Bool
  /-- Whether to start from the strictness that was saved before. -/
  adapts : Bool
deriving DecidableEq, Repr

/-- What to show. -/
structure ShowOrder where
  /-- The root of the project. -/
  root : Path
  /-- The settings file, if one is named. -/
  settingsFile? : Option Path
  /-- How to show the results. -/
  format : String
deriving DecidableEq, Repr

/-- What the program is told to do. -/
inductive Command where
  /-- Learn the conventions of the main language. -/
  | learn (order : LearnOrder)
  /-- Learn from all languages and compare them. -/
  | integrate (order : LearnOrder)
  /-- Show what was saved. -/
  | display (order : ShowOrder)
  /-- Write a settings file. -/
  | create (output : Path)
deriving DecidableEq, Repr

/-- The name of a command. -/
inductive Verb where
  /-- To learn. -/
  | learn
  /-- To compare all languages. -/
  | integrate
  /-- To show what was saved. -/
  | display
  /-- To write a settings file. -/
  | create
  /-- To explain a command. -/
  | help
deriving DecidableEq, Repr

namespace Verb

/-- The word for a command. -/
def word : Verb → String
  | learn => "learn"
  | integrate => "integrate"
  | display => "show"
  | create => "init"
  | help => "help"

/-- All commands. -/
def all : List Verb := [learn, integrate, display, create, help]

/-- The command that a word names. -/
def ofWord? (word : String) : Option Verb := all.find? fun v => v.word == word

end Verb

/-- To be told more. -/
def verboseOption : OptionForm := ⟨"verbose", some 'v', .flag⟩

/-- To be told how to use a command. -/
def helpOption : OptionForm := ⟨"help", some 'h', .answer .help⟩

/-- To be told the version. -/
def versionOption : OptionForm := ⟨"version", some 'V', .answer .version⟩

/-- The settings file. -/
def settingsOption : OptionForm := ⟨"config", some 'c', .path⟩

/-- A directory to leave out. -/
def excludeOption : OptionForm := ⟨"exclude-dir", none, .texts⟩

/-- A language to look at. -/
def languageOption : OptionForm := ⟨"language", some 'l', .texts⟩

/-- How to show the result. -/
def formatOption : OptionForm := ⟨"format", some 'f', .text⟩

/-- To save the result. -/
def saveOption : OptionForm := ⟨"save", none, .flag⟩

/-- To start from what was saved. -/
def adaptOption : OptionForm := ⟨"adapt", none, .flag⟩

/-- The settings file to write. -/
def outputOption : OptionForm := ⟨"output", some 'o', .path⟩

/-- The root of the project. -/
def rootPlace : OptionForm := ⟨"path", none, .path⟩

/-- What the program itself can be given. -/
def programSignature : Signature := ⟨[verboseOption, helpOption, versionOption], none⟩

/-- What the commands that learn can be given. -/
def learnSignature : Signature :=
  ⟨[settingsOption, excludeOption, languageOption, formatOption, saveOption, adaptOption,
    verboseOption, helpOption], some rootPlace⟩

/-- What the command that shows results can be given. -/
def showSignature : Signature :=
  ⟨[settingsOption, formatOption, verboseOption, helpOption], some rootPlace⟩

/-- What the command that writes a settings file can be given. -/
def createSignature : Signature := ⟨[outputOption, verboseOption, helpOption], none⟩

namespace Given

/-- The path of an option, or a standard one. -/
def pathOr (g : Given) (form : OptionForm) (standard : String) : Path :=
  ⟨(g.get? form).getD standard⟩

/-- The order to learn that was given. -/
def learnOrder (g : Given) : LearnOrder :=
  { root := g.pathOr rootPlace "."
    settingsFile? := (g.get? settingsOption).map Path.mk
    excludedDirs := g.all excludeOption
    languages := g.all languageOption
    format := (g.get? formatOption).getD "pretty"
    saves := g.has saveOption
    adapts := g.has adaptOption }

/-- The order to show results that was given. -/
def showOrder (g : Given) : ShowOrder :=
  { root := g.pathOr rootPlace "."
    settingsFile? := (g.get? settingsOption).map Path.mk
    format := (g.get? formatOption).getD "pretty" }

end Given

namespace Command

/-- What the command to explain is answered.  No command has commands of its own. -/
def explain : List String → Usage
  | [] => .help
  | [word] => if (Verb.ofWord? word).isSome then .help else .unknownCommand
  | _ => .unknownCommand

/-- The command that its name and the words behind it tell. -/
def ofVerb (v : Verb) (words : List String) : Except Usage Command :=
  match v with
  | .learn => (Given.empty.takeAll learnSignature words).map fun g => .learn g.learnOrder
  | .integrate => (Given.empty.takeAll learnSignature words).map fun g => .integrate g.learnOrder
  | .display => (Given.empty.takeAll showSignature words).map fun g => .display g.showOrder
  | .create =>
    (Given.empty.takeAll createSignature words).map fun g =>
      .create (g.pathOr outputOption "stylelearn.yaml")
  | .help => .error (explain words)

/-- What to say when there is no command. -/
def missing (g : Given) : Usage := if g.values.isEmpty then .nothing else .noCommand

/-- The command that some words tell, where options of the program were given before. -/
def ofWordsAfter (g : Given) : List String → Except Usage Command
  | [] => .error (missing g)
  | w :: ws => do
    match Verb.ofWord? w with
    | some v => ofVerb v ws
    | none =>
      match Word.ofText w with
      | .ends =>
        match ws with
        | [] => .error (missing g)
        | next :: _ =>
          .error (if (Verb.ofWord? next).isSome then .unknownArgument else .unknownCommand)
      | .long name value? => ofWordsAfter (← g.takeLong programSignature name value?) ws
      | .letters cs => ofWordsAfter (← g.takeLetters programSignature cs) ws
      | .plain => .error .unknownCommand

/-- The command that a command line tells. -/
def ofWords (words : List String) : Except Usage Command := ofWordsAfter .empty words

end Command

end HouseStyle.CommandLine
