import SyntaxPaint.Text.Visible
/-!
# Escaped text

Text is shown on one line with backslash escapes for what could not be seen: quotes, backslashes,
the usual controls by letter, and other invisible characters by their number. A mark that has no
character to join is written by its number too.
-/
namespace SyntaxPaint

/-- Lower-case hexadecimal digits, without leading zeros. -/
def hexNumber (n : Nat) : List Char := Nat.toDigits 16 n

def numericEscape (c : Char) : List Char := "\\u\x7b".toList ++ hexNumber c.toNat ++ ['\x7d']

/-- One character escaped; `marks` says whether marks are written by number, `quotes` whether
single quotes are escaped. -/
def escapeChar (marks quotes : Bool) (c : Char) : List Char :=
  match c with
  | '\x00' => ['\\', '0']
  | '\t' => ['\\', 't']
  | '\r' => ['\\', 'r']
  | '\n' => ['\\', 'n']
  | '\\' => ['\\', '\\']
  | '"' => ['\\', '"']
  | '\'' => if quotes then ['\\', '\''] else ['\'']
  | c => if (marks && isExtender c) || isInvisible c then numericEscape c else [c]

/-- A text escaped. Only a mark at its front has nothing to join. -/
def escaped : List Char → List Char
  | [] => []
  | c :: text => escapeChar true true c ++ text.flatMap (escapeChar false true)

/-- A text between double quotes, with every mark escaped. -/
def quotedText (text : List Char) : List Char :=
  ['"'] ++ text.flatMap (escapeChar true false) ++ ['"']

end SyntaxPaint
