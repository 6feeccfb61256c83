import SyntaxPaint.Text.CodeSet
/-!
# Blank characters

The Unicode property `White_Space`: what separates lexemes, and what is trimmed from names and
colours.
-/
namespace SyntaxPaint

def blankCodes : CodeSet := .ofSorted
  [(0x9, 0xD), (0x20, 0x20), (0x85, 0x85), (0xA0, 0xA0), (0x1680, 0x1680), (0x2000, 0x200A),
    (0x2028, 0x2029), (0x202F, 0x202F), (0x205F, 0x205F), (0x3000, 0x3000)]

def isBlank (c : Char) : Bool := blankCodes.contains c.toNat

/-- The text without the blanks at either end. -/
def trim (text : List Char) : List Char :=
  ((text.dropWhile isBlank).reverse.dropWhile isBlank).reverse

/-- A string without the blanks at either end. -/
def trimmed (s : String) : String := String.ofList (trim s.toList)

end SyntaxPaint
