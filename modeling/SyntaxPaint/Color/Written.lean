import SyntaxPaint.Color.Basic
import SyntaxPaint.Number.Hex
import SyntaxPaint.Text.Blank
import SyntaxPaint.Text.Folded
/-!
# Written colours

A colour is written `#RRGGBB`, or `#AARRGGBB` with its alpha in front, or by name in any case.
`Color.hex` prints the short form exactly when the colour is opaque.
-/
namespace SyntaxPaint

inductive ColorError where
  | invalidHex (written : String)
  | unknownName (written : String)
deriving DecidableEq, Repr

def ColorError.message : ColorError → String
  | invalidHex s => s!"invalid hex color '{s}', expected #RRGGBB or #AARRGGBB"
  | unknownName s => s!"unknown color name '{s}'"

namespace Color

def hexDigits (c : Color) : List Char :=
  (if c.a = 255 then [] else hexByte c.a) ++ hexByte c.r ++ hexByte c.g ++ hexByte c.b

def hex (c : Color) : String := String.ofList ('#' :: c.hexDigits)

def ofHexDigits? : List Char → Option Color
  | [r, r', g, g', b, b'] =>
    match hexByteValue? r r', hexByteValue? g g', hexByteValue? b b' with
    | some r, some g, some b => some (solid r g b)
    | _, _, _ => none
  | [a, a', r, r', g, g', b, b'] =>
    match hexByteValue? a a', hexByteValue? r r', hexByteValue? g g', hexByteValue? b b' with
    | some a, some r, some g, some b => some ⟨r, g, b, a⟩
    | _, _, _, _ => none
  | _ => none

def ofName? (s : String) : Option Color :=
  (named.find? fun entry => sameName entry.1 s).map (·.2)

/-- Reads a written colour; blanks around it do not count. -/
def read (s : String) : Except ColorError Color :=
  let s := trimmed s
  match s.toList with
  | '#' :: digits =>
    match ofHexDigits? digits with
    | some c => .ok c
    | none => .error (.invalidHex s)
  | _ =>
    match ofName? s with
    | some c => .ok c
    | none => .error (.unknownName s)

end Color
end SyntaxPaint
