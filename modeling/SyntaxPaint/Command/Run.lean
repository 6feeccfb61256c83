import SyntaxPaint.Command.Arguments
import SyntaxPaint.Command.Listing
import SyntaxPaint.Command.Printing
import SyntaxPaint.Document
import SyntaxPaint.Session.Basic
/-!
# Running commands

A run sees three files: the settings, the log that it may have to open, and the source of its
command. It stops at the first fault, with what was printed until then.
-/
namespace SyntaxPaint

/-- A file as it is found. -/
abbrev FileState := Except FileFault (List Char)

def FileState.isAbsent : FileState → Bool
  | .ok _ => false
  | .error f => f.isAbsent

structure Surroundings where
  config : FileState
  logOpens : Bool
  source : FileState

/-- Why a run fails. -/
inductive RunFault where
  | session (e : SessionError)
  | logFile (f : FileFault)
deriving DecidableEq, Repr

def RunFault.message : RunFault → String
  | session e => e.message
  | logFile f => "cannot open log file: " ++ f.message

structure Outcome where
  exit : Nat
  output : List Char
  errors : List String
deriving DecidableEq, Repr

/-- What is seen of a run: a fault is told and gives an exit code of its own. -/
def Outcome.ofResult : Except RunFault Nat × List Char → Outcome
  | (.ok exit, output) => ⟨exit, output, []⟩
  | (.error e, output) => ⟨2, output, ["Error: " ++ e.message]⟩

/-- Where settings are looked for if nothing else is said. -/
def standardConfig : String := "merx.json"

def programVersion : String := "merx 0.1.0"

/-- The file that holds the settings. -/
def ProgramOptions.configFile (o : ProgramOptions) : String := o.config.getD standardConfig

/-- Where a source comes from. -/
inductive Source where
  | input
  | file (path : String)
deriving DecidableEq, Repr

/-- A lone dash stands for the standard input. -/
def Source.named (s : String) : Source := if s = "-" then input else file s

/-- What a command reads, if it reads anything. -/
def Command.source? : Command → Option Source
  | tokens file _ | check file | highlight file _ _ => some (.named file)
  | themes => none

def readFound (file : FileState) : Except SessionError (List Char) := file.mapError .file

/-- The settings of the file, which has to be there only if it was asked for. -/
def readConfig (o : ProgramOptions) (file : FileState) : Except SessionError Settings :=
  if o.config.isNone && file.isAbsent then .ok .standard
  else do (Settings.parse (← readFound file)).mapError .settings

/-- The settings in force. -/
def loadSettings (o : ProgramOptions) (file : FileState) : Except SessionError Settings :=
  (readConfig o file).map fun s =>
    { s with logging := { s.logging with level := o.logLevel.getD s.logging.level } }

/-- The session in which a command runs. -/
def startSession (settings : Settings) : Except SessionError Session :=
  match Session.fresh.configure settings with
  | (.error e, _) => .error e
  | (.ok (), s) =>
    match s.applyHighlight s.settings.highlight with
    | (.error e, _) => .error e
    | (.ok _, s) => .ok s

namespace Command

open Printing

/-- The exit code of a command, behind all that it prints. -/
def perform (s : Session) (source : FileState) : Command → Printing SessionError Nat
  | tokens _ json => do
    let text ← readFound source
    let found := (analyze text s.settings.limit).tokens
    if json then printLine (tokensJson found).pretty
    else printLines (found.map tokenRow)
    return 0
  | check file => do
    let text ← readFound source
    if (analyze text s.settings.limit).valid then
      printLine s!"{file}: ok".toList
      return 0
    else
      printLine s!"{file}: syntax error".toList
      return 1
  | highlight _ name lineNumbers => do
    let theme ← match name with
      | some name => s.findTheme name
      | none => pure s.active
    let text ← readFound source
    printLines (((Document.new s.settings).update text).render theme lineNumbers)
    return 0
  | themes => do
    let found ← (s.themeNames.mapM s.findTheme : Except SessionError (List Theme))
    printLines (found.map (themeRow s.active.name))
    return 0

/-- The exit code of a run that meets no fault. -/
def attempt (o : ProgramOptions) (c : Command) (around : Surroundings) : Printing RunFault Nat := do
  let settings ← (loadSettings o around.config).mapError RunFault.session
  if o.logFile.isSome && !around.logOpens then throw (.logFile .missing)
  let session ← (startSession settings).mapError RunFault.session
  (c.perform session around.source).adapt .session

def run (o : ProgramOptions) (c : Command) (around : Surroundings) : Outcome :=
  .ofResult ((attempt o c around).onto [])

end Command
end SyntaxPaint
