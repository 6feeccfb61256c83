import SyntaxPaint.Color.Written
import SyntaxPaint.Json.Value
import SyntaxPaint.Paint.Terminal
import SyntaxPaint.Text.Escape
/-!
# Listings

Tokens and themes as the commands list them.
-/
namespace SyntaxPaint

/-- A token on one line: where it begins, its kind, and its text in quotes. -/
def tokenRow (t : Token) : List Char :=
  padLeft 4 (decimal t.span.start.line) ++ [':'] ++ padRight 4 (decimal t.span.start.column) ++
    [' '] ++ padRight 10 t.kind.name.toList ++ " \"".toList ++ escaped t.text ++ ['"']

def Position.json (p : Position) : Json :=
  .object [("line", .number p.line), ("column", .number p.column),
    ("byte_offset", .number p.offset), ("utf16_column", .number p.utf16)]

def Token.json (t : Token) : Json :=
  .object [("kind", .string t.kind.name), ("text", .string (String.ofList t.text)),
    ("span", .object [("start", t.span.start.json), ("end", t.span.stop.json)])]

def tokensJson (tokens : List Token) : Json := .array (tokens.map Token.json)

/-- A theme on one line, with a star in front of it if it has the active theme's name. -/
def themeRow (active : String) (t : Theme) : List Char :=
  [if sameName t.name active then '*' else ' ', ' '] ++ padRight 12 t.name.toList ++
    " background ".toList ++ t.background.hex.toList ++ "  foreground ".toList ++
    t.foreground.hex.toList

end SyntaxPaint
