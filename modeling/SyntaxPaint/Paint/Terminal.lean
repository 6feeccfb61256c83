import SyntaxPaint.Paint.Line
/-!
# Painted lines for a terminal

A coloured stretch is put between the sequence that sets the foreground to its colour and the one
that resets it; a transparent stretch is written as it is.
-/
namespace SyntaxPaint

/-- Sets the foreground to the colour, without regard to alpha. -/
def setForeground (c : Color) : List Char :=
  s!"\x1b[38;2;{c.r.toNat};{c.g.toNat};{c.b.toNat}m".toList

def resetForeground : List Char := "\x1b[39m".toList

def inColor (c : Color) (text : List Char) : List Char :=
  if c.isTransparent then text else setForeground c ++ text ++ resetForeground

/-- The parts of a text that the patches name, each in its colour. -/
def renderLine (text : List Char) (patches : List Patch) : List Char :=
  patches.flatMap fun p => inColor p.color (p.range.slice text)

/-- The text behind as many blanks as it needs to be `width` characters wide. -/
def padLeft (width : Nat) (text : List Char) : List Char :=
  List.replicate (width - text.length) ' ' ++ text

/-- The text and as many blanks as it needs to be `width` characters wide. -/
def padRight (width : Nat) (text : List Char) : List Char :=
  text ++ List.replicate (width - text.length) ' '

def decimal (n : Nat) : List Char := (toString n).toList

/-- The number of a line in front of it, as wide as the number of the last line. -/
def numbered (count index : Nat) (line : List Char) : List Char :=
  padLeft (decimal count).length (decimal (index + 1)) ++ " | ".toList ++ line

/-- The painted lines of a text, with or without their numbers. -/
def renderLines (text : List Char) (painted : List (List Patch)) (numbers : Bool) :
    List (List Char) :=
  let lines := painted.map (renderLine text)
  if numbers then lines.mapIdx (numbered lines.length) else lines

end SyntaxPaint
