import SyntaxPaint.Session.Error
import SyntaxPaint.Theme.Registry
/-!
# Sessions

A session holds what all documents share: the settings, which are given once, the registered themes,
and the theme in use. `Session.perform` is one call; a call that fails leaves the session as it was,
but for themes that were registered before an unknown one was chosen.
-/
namespace SyntaxPaint

structure Session where
  given : Option Settings
  registry : Registry
  active : Theme

/-- A result, and the session behind it. -/
abbrev Answer (α : Type) := Except SessionError α × Session

namespace Session

def fresh : Session := ⟨none, .presets, .dark⟩

def isInitialized (s : Session) : Bool := s.given.isSome

/-- The settings that were given, or else the standard ones. -/
def settings (s : Session) : Settings := s.given.getD .standard

def configure (s : Session) (settings : Settings) : Answer Unit :=
  match s.given with
  | none => (.ok (), { s with given := some settings })
  | some _ => (.error .alreadyInitialized, s)

def themeNames (s : Session) : List String := s.registry.names

def findTheme (s : Session) (name : String) : Except SessionError Theme :=
  match s.registry.find? name with
  | some t => .ok t
  | none => .error (.unknownTheme name s.registry.names)

def useTheme (s : Session) (t : Theme) : Answer Theme := (.ok t, { s with active := t })

/-- Puts a registered theme to use. -/
def useNamed (s : Session) (name : String) : Answer Theme :=
  match s.findTheme name with
  | .ok t => s.useTheme t
  | .error e => (.error e, s)

def register (s : Session) (t : Theme) : Answer Theme :=
  (.ok t, { s with registry := s.registry.register t })

/-- Registers the themes of some settings, or none of them if one does not convert. -/
def registerSettings (s : Session) (themes : List ThemeSettings) : Answer Unit :=
  match themes.mapM Theme.ofSettings with
  | .ok ts => (.ok (), { s with registry := s.registry.registerAll ts })
  | .error e => (.error (.theme e), s)

/-- Registers the themes of the settings and puts the one that they name to use. -/
def applyHighlight (s : Session) (h : HighlightSettings) : Answer Theme :=
  match s.registerSettings h.themes with
  | (.ok (), s) => s.useNamed h.theme
  | (.error e, s) => (.error e, s)

/-- The calls that may change a session. -/
inductive Call where
  | configure (settings : Settings)
  | useTheme (t : Theme)
  | useNamed (name : String)
  | register (t : Theme)
  | registerSettings (themes : List ThemeSettings)
  | applyHighlight (h : HighlightSettings)

/-- One call; its result is a theme if the call is about one. -/
def perform (s : Session) : Call → Answer (Option Theme)
  | .configure settings =>
    let (r, s) := s.configure settings
    (r.map fun _ => none, s)
  | .useTheme t =>
    let (r, s) := s.useTheme t
    (r.map some, s)
  | .useNamed name =>
    let (r, s) := s.useNamed name
    (r.map some, s)
  | .register t =>
    let (r, s) := s.register t
    (r.map some, s)
  | .registerSettings themes =>
    let (r, s) := s.registerSettings themes
    (r.map fun _ => none, s)
  | .applyHighlight h =>
    let (r, s) := s.applyHighlight h
    (r.map some, s)

end Session
end SyntaxPaint
