import SyntaxPaint.Color.Written
import SyntaxPaint.Text.Dictionary
import SyntaxPaint.Theme.Basic
/-!
# Themes as users write them

A user's theme names its colours in text. It is checked from its name through its two grounds to its
colours in ascending order of their keys, and the first fault is reported. Several keys may spell
one kind; the last of them counts.
-/
namespace SyntaxPaint

structure ThemeSettings where
  name : String
  background : String
  foreground : String
  colors : Dictionary
deriving DecidableEq

/-- The settings of a theme that nobody has filled in. -/
def ThemeSettings.blank : ThemeSettings := ⟨"", "", "", .empty⟩

inductive ThemeError where
  | missingName
  | missingColor (theme field : String)
  | invalidColor (theme field : String) (cause : ColorError)
  | unknownKind (theme : String) (cause : UnknownKindName)
deriving DecidableEq, Repr

def ThemeError.message : ThemeError → String
  | missingName => "theme has no name"
  | missingColor theme field => s!"theme '{theme}' does not set a {field} color"
  | invalidColor theme field cause => s!"theme '{theme}', {field}: {cause.message}"
  | unknownKind theme cause => s!"theme '{theme}': {cause.message}"

namespace Theme

/-- A colour that a theme has to set. -/
def readGround (theme field written : String) : Except ThemeError Color :=
  if trimmed written = "" then .error (.missingColor theme field)
  else (Color.read written).mapError (.invalidColor theme field)

/-- One entry of a theme's colours. -/
def readEntry (theme : String) (entry : String × String) : Except ThemeError (Kind × Color) := do
  let kind ← (Kind.ofName entry.1).mapError (.unknownKind theme)
  let color ← (Color.read entry.2).mapError (.invalidColor theme entry.1)
  return (kind, color)

/-- Maps the entries one after the other, the later over the earlier. -/
def addEntries (t : Theme) : List (String × String) → Except ThemeError Theme
  | [] => .ok t
  | entry :: entries => do
    let (kind, color) ← readEntry t.name entry
    addEntries (t.withColor kind color) entries

def ofSettings (s : ThemeSettings) : Except ThemeError Theme :=
  let name := trimmed s.name
  if name = "" then .error .missingName
  else do
    let background ← readGround name "background" s.background
    let foreground ← readGround name "foreground" s.foreground
    addEntries (plain name background foreground) s.colors.entries

end Theme
end SyntaxPaint
