import SyntaxPaint.Json.Value
import SyntaxPaint.Settings.Basic
/-!
# Writing settings

Settings are written as JSON objects with all their fields, levels by name, and `null` for a phase
without a level of its own.
-/
namespace SyntaxPaint

def Level.json (l : Level) : Json := .string l.name

def overrideJson : Option Level → Json
  | some l => l.json
  | none => .null

def Dictionary.json (d : Dictionary) : Json :=
  .object (d.entries.map fun entry => (entry.1, .string entry.2))

def ThemeSettings.json (s : ThemeSettings) : Json :=
  .object [("name", .string s.name), ("background", .string s.background),
    ("foreground", .string s.foreground), ("colors", s.colors.json)]

def LoggingSettings.json (s : LoggingSettings) : Json :=
  .object [("level", s.level.json), ("lexer", overrideJson s.lexer),
    ("parser", overrideJson s.parser), ("highlight", overrideJson s.highlight)]

def LimitSettings.json (s : LimitSettings) : Json :=
  .object [("max_nesting_depth", .number s.maxNestingDepth.toNat)]

def HighlightSettings.json (s : HighlightSettings) : Json :=
  .object [("theme", .string s.theme), ("themes", .array (s.themes.map ThemeSettings.json))]

def Settings.json (s : Settings) : Json :=
  .object [("logging", s.logging.json), ("limits", s.limits.json), ("highlight", s.highlight.json)]

/-- The text of a settings file. -/
def Settings.text (s : Settings) : List Char := s.json.compact

end SyntaxPaint
