import SyntaxPaint.Theme.Settings
/-!
# Registries of themes

A registry is a list of themes in the order in which their names were first registered. A theme
replaces the one whose name it shares, in any case, and stays in its place.
-/
namespace SyntaxPaint

structure Registry where
  themes : List Theme

namespace Registry

def empty : Registry := ⟨[]⟩

/-- The list with the theme in place of the first of its name, or behind all others. -/
def put (t : Theme) : List Theme → List Theme
  | [] => [t]
  | u :: us => if sameName u.name t.name then t :: us else u :: put t us

def register (r : Registry) (t : Theme) : Registry := ⟨put t r.themes⟩

def registerAll (r : Registry) (ts : List Theme) : Registry := ts.foldl register r

def find? (r : Registry) (name : String) : Option Theme :=
  r.themes.find? fun t => sameName t.name name

def names (r : Registry) : List String := r.themes.map (·.name)

def size (r : Registry) : Nat := r.themes.length

def isEmpty (r : Registry) : Bool := r.themes.isEmpty

def presets : Registry := (empty.register .dark).register .light

/-- Converts and registers settings one by one; the first that do not convert end it. -/
def addSettings (r : Registry) : List ThemeSettings → Except ThemeError Registry
  | [] => .ok r
  | s :: ss => do
    let t ← Theme.ofSettings s
    addSettings (r.register t) ss

/-- The presets and the themes of some settings. -/
def ofSettings (ss : List ThemeSettings) : Except ThemeError Registry := presets.addSettings ss

end Registry
end SyntaxPaint
