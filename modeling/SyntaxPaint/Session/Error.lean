import SyntaxPaint.Settings.Reader
/-!
# What can go wrong
-/
namespace SyntaxPaint

/-- Why a file cannot be read as text; what else the system may say is told in its own words. -/
inductive FileFault where
  | missing
  /-- The name leads nowhere. -/
  | lost (cause : String)
  | notText
  | unreadable (cause : String)
deriving DecidableEq, Repr

namespace FileFault

def message : FileFault → String
  | missing => "No such file or directory (os error 2)"
  | notText => "stream did not contain valid UTF-8"
  | lost cause | unreadable cause => cause

/-- Does the system know of no file under the name? -/
def isAbsent : FileFault → Bool
  | missing | lost _ => true
  | notText | unreadable _ => false

end FileFault

inductive SessionError where
  | theme (e : ThemeError)
  | unknownTheme (name : String) (available : List String)
  | alreadyInitialized
  | settings (e : SettingsError)
  | file (f : FileFault)
deriving DecidableEq, Repr

namespace SessionError

def message : SessionError → String
  | theme e => s!"Theme error: {e.message}"
  | unknownTheme name available =>
    s!"Unknown theme '{name}', available: " ++ ", ".intercalate available
  | alreadyInitialized => "Config already initialized"
  | settings e => s!"Config error: {e.message}"
  | file f => s!"IO error: {f.message}"

/-- The part of the program that is concerned. -/
def phase : SessionError → String
  | theme _ | unknownTheme _ _ => "highlight"
  | alreadyInitialized | settings _ => "config"
  | file _ => "io"

end SessionError
end SyntaxPaint
