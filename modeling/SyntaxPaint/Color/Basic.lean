/-!
# Colours
-/
namespace SyntaxPaint

/-- A colour with its opacity; an alpha of 255 is opaque. -/
structure Color where
  r : UInt8
  g : UInt8
  b : UInt8
  a : UInt8
deriving DecidableEq, Repr

namespace Color

def solid (r g b : UInt8) : Color := ⟨r, g, b, 255⟩

/-- What is fully transparent is not coloured at all. -/
def isTransparent (c : Color) : Bool := c.a == 0

theorem isTransparent_iff {c : Color} : c.isTransparent = true ↔ c.a = 0 := beq_iff_eq

def transparent : Color := ⟨0xFF, 0xFF, 0xFF, 0x00⟩
def black : Color := solid 0x00 0x00 0x00
def white : Color := solid 0xFF 0xFF 0xFF
def red : Color := solid 0xFF 0x00 0x00
def green : Color := solid 0x00 0x80 0x00
def yellow : Color := solid 0xFF 0xFF 0x00
def cyan : Color := solid 0x00 0xFF 0xFF
def magenta : Color := solid 0xFF 0x00 0xFF
def orange : Color := solid 0xFF 0xA5 0x00
def gray : Color := solid 0x80 0x80 0x80
def darkGreen : Color := solid 0x00 0x64 0x00
def darkMagenta : Color := solid 0x8B 0x00 0x8B
def darkViolet : Color := solid 0x94 0x00 0xD3
def chocolate : Color := solid 0xD2 0x69 0x1E

/-- The colours that may be given by name. -/
def named : List (String × Color) :=
  [("transparent", transparent), ("black", black), ("white", white), ("red", red),
    ("green", green), ("yellow", yellow), ("cyan", cyan), ("magenta", magenta),
    ("orange", orange), ("gray", gray), ("darkgreen", darkGreen), ("darkmagenta", darkMagenta),
    ("darkviolet", darkViolet), ("chocolate", chocolate)]

end Color
end SyntaxPaint
