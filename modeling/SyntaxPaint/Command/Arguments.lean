import SyntaxPaint.Settings.Level
/-!
# Command-line arguments

Arguments are read from left to right: options of the program, the name of a command, and what the
command takes. The options of the program may also stand behind the command, and win there. No
option is given twice in one place. Behind `--` nothing is an option.
-/
namespace SyntaxPaint

inductive LogFormat where
  | pretty
  | compact
  | json
deriving DecidableEq, Repr

def LogFormat.ofName? : String → Option LogFormat
  | "pretty" => some .pretty
  | "compact" => some .compact
  | "json" => some .json
  | _ => none

structure ProgramOptions where
  config : Option String
  logLevel : Option Level
  logFormat : Option LogFormat
  logFile : Option String
deriving DecidableEq, Repr

inductive Command where
  | tokens (file : String) (json : Bool)
  | check (file : String)
  | highlight (file : String) (theme : Option String) (lineNumbers : Bool)
  | themes
deriving DecidableEq, Repr

/-- What the arguments ask for. -/
inductive Request where
  | run (options : ProgramOptions) (command : Command)
  | version
  | help
  | refused
deriving DecidableEq, Repr

/-- Where an argument stands: in front of a command, or behind one. -/
inductive Place where
  | program
  | tokens
  | check
  | highlight
  | themes
deriving DecidableEq, Repr

/-- The options, of which the last two take no value. -/
inductive OptionName where
  | config
  | logLevel
  | logFormat
  | logFile
  | theme
  | json
  | lineNumbers
deriving DecidableEq, Repr

namespace OptionName

def spelled : OptionName → String
  | config => "config"
  | logLevel => "log-level"
  | logFormat => "log-format"
  | logFile => "log-file"
  | theme => "theme"
  | json => "json"
  | lineNumbers => "line-numbers"

def takesValue : OptionName → Bool
  | json | lineNumbers => false
  | _ => true

/-- A path is not empty, a level and a format are known. -/
def admits : OptionName → String → Bool
  | config, value | logFile, value => value ≠ ""
  | logLevel, value => (Level.ofAnyCase? value).isSome
  | logFormat, value => (LogFormat.ofName? value).isSome
  | theme, _ | json, _ | lineNumbers, _ => true

end OptionName

namespace Place

/-- The options that may stand in a place. -/
def options (p : Place) : List OptionName :=
  [.config, .logLevel, .logFormat, .logFile] ++
    match p with
    | tokens => [.json]
    | highlight => [.theme, .lineNumbers]
    | program | check | themes => []

def option? (p : Place) (name : String) : Option OptionName :=
  p.options.find? fun o => o.spelled == name

/-- How many files are named in a place. -/
def fileCount : Place → Nat
  | tokens | check | highlight => 1
  | program | themes => 0

/-- The place behind the name of a command. -/
def ofCommand? : String → Option Place
  | "tokens" => some tokens
  | "check" => some check
  | "highlight" => some highlight
  | "themes" => some themes
  | _ => none

end Place

/-- An argument by its shape. A lone dash is a word. -/
inductive Argument where
  | escape
  | long (name : String) (value : Option String)
  | short (letter : Char)
  | word (s : String)
deriving DecidableEq, Repr

/-- A long option in front of `=`, and what stands behind that. -/
def splitLong (text : List Char) : String × Option String :=
  let name := text.takeWhile (· ≠ '=')
  match text.drop name.length with
  | _ :: value => (String.ofList name, some (String.ofList value))
  | [] => (String.ofList name, none)

def Argument.of (s : String) : Argument :=
  match s.toList with
  | ['-', '-'] => escape
  | '-' :: '-' :: text =>
    let (name, value) := splitLong text
    long name value
  | '-' :: letter :: _ => short letter
  | _ => word s

/-- What was found in one place. -/
structure Gathered where
  values : List (OptionName × String)
  files : List String
deriving DecidableEq, Repr

namespace Gathered

def empty : Gathered := ⟨[], []⟩

def value? (g : Gathered) (o : OptionName) : Option String := g.values.lookup o

def isGiven (g : Gathered) (o : OptionName) : Bool := (g.value? o).isSome

/-- The files with those of some words, if the place takes so many; no file has an empty name. -/
def addFiles (g : Gathered) (p : Place) (words : List String) : Option Gathered :=
  let files := g.files ++ words
  if files.length ≤ p.fileCount ∧ "" ∉ words then some { g with files } else none

end Gathered

/-- The end of a place: nothing is left, a command follows, or the arguments are not followed any
further. -/
inductive Reached where
  | done (g : Gathered)
  | command (g : Gathered) (name : String) (rest : List String)
  | version
  | help
  | refused
deriving DecidableEq, Repr

/-- Reads the arguments of one place. -/
def gather (p : Place) : List String → Gathered → Reached
  | [], g => .done g
  | arg :: rest, g =>
    match Argument.of arg with
    | .escape =>
      match g.addFiles p rest with
      | some g => .done g
      | none => .refused
    | .short letter =>
      if letter = 'h' then .help
      else if letter = 'V' ∧ p = .program then .version
      else .refused
    | .word w =>
      if p = .program then .command g w rest
      else match g.addFiles p [w] with
        | some g => gather p rest g
        | none => .refused
    | .long name value =>
      match p.option? name, value with
      | none, none =>
        if name = "help" then .help
        else if name = "version" ∧ p = .program then .version
        else .refused
      | none, some _ => .refused
      | some o, value =>
        if g.isGiven o then .refused
        else if o.takesValue then
          match value, rest with
          | some v, rest =>
            if o.admits v then gather p rest { g with values := (o, v) :: g.values } else .refused
          | none, v :: rest =>
            match Argument.of v with
            | .word _ =>
              if o.admits v then gather p rest { g with values := (o, v) :: g.values }
              else .refused
            | _ => .refused
          | none, [] => .refused
        else match value with
          | none => gather p rest { g with values := (o, "") :: g.values }
          | some _ => .refused

/-- The program's options from both places; the later place wins. -/
def programOptions (before behind : Gathered) : ProgramOptions :=
  let value (o : OptionName) := (behind.value? o).or (before.value? o)
  { config := value .config
    logLevel := (value .logLevel).bind Level.ofAnyCase?
    logFormat := (value .logFormat).bind LogFormat.ofName?
    logFile := value .logFile }

def Command.ofGathered? (p : Place) (g : Gathered) : Option Command :=
  match p, g.files with
  | .tokens, [file] => some (.tokens file (g.isGiven .json))
  | .check, [file] => some (.check file)
  | .highlight, [file] => some (.highlight file (g.value? .theme) (g.isGiven .lineNumbers))
  | .themes, [] => some .themes
  | _, _ => none

/-- Reads the arguments behind the name of a command. -/
def Request.ofCommand (before : Gathered) (p : Place) (rest : List String) : Request :=
  match gather p rest .empty with
  | .done g =>
    match Command.ofGathered? p g with
    | some c => .run (programOptions before g) c
    | none => .refused
  | .help => .help
  | .version => .version
  | .command _ _ _ | .refused => .refused

/-- What help can be asked for: the program, one command, or help itself. -/
def isHelpTopic : List String → Bool
  | [] => true
  | [topic] => topic = "help" || (Place.ofCommand? topic).isSome
  | _ => false

def Request.ofArguments (args : List String) : Request :=
  match gather .program args .empty with
  | .command g name rest =>
    match Place.ofCommand? name with
    | some p => .ofCommand g p rest
    | none => if name = "help" ∧ isHelpTopic rest then .help else .refused
  | .version => .version
  | .help => .help
  | .done _ | .refused => .refused

end SyntaxPaint
