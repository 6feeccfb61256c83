import SyntaxPaint.Color.Basic
import SyntaxPaint.Token.Kind
/-!
# Themes

A theme gives kinds of tokens their colours. A kind that it says nothing about is drawn in the
foreground colour.
-/
namespace SyntaxPaint

structure Theme where
  name : String
  background : Color
  foreground : Color
  colors : Kind → Option Color

namespace Theme

/-- A theme that maps no kind. -/
def plain (name : String) (background foreground : Color) : Theme :=
  ⟨name, background, foreground, fun _ => none⟩

/-- The theme with a kind mapped to a colour. -/
def withColor (t : Theme) (kind : Kind) (color : Color) : Theme :=
  { t with colors := fun k => if k = kind then some color else t.colors k }

def colorFor (t : Theme) (kind : Kind) : Color := (t.colors kind).getD t.foreground

def dark : Theme where
  name := "Dark"
  background := .black
  foreground := .white
  colors
    | .keyword => some .cyan
    | .identifier => some .white
    | .number => some .yellow
    | .string => some .orange
    | .operator => some .magenta
    | .whitespace => some .transparent
    | .comment => some .green
    | .unknown => some .red

def light : Theme where
  name := "Light"
  background := .white
  foreground := .black
  colors
    | .keyword => some .darkMagenta
    | .identifier => some .black
    | .number => some .darkGreen
    | .string => some .chocolate
    | .operator => some .darkViolet
    | .whitespace => some .transparent
    | .comment => some .gray
    | .unknown => some .red

end Theme
end SyntaxPaint
