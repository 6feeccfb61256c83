import SyntaxPaint.Text.Position
/-!
# Lines of a text

`'\n'`, `'\r\n'` and a lone `'\r'` end a line. A text has one line more than it has ends of lines,
so it has at least one, and behind a last end of line stands an empty one.
-/
namespace SyntaxPaint

/-- The lines of a text that begins at byte `here`, of which the first began at byte `start`. -/
def lineRangesFrom (start here : Nat) : List Char → List ByteRange
  | [] => [⟨start, here⟩]
  | '\r' :: '\n' :: text => ⟨start, here⟩ :: lineRangesFrom (here + 2) (here + 2) text
  | '\n' :: text => ⟨start, here⟩ :: lineRangesFrom (here + 1) (here + 1) text
  | '\r' :: text => ⟨start, here⟩ :: lineRangesFrom (here + 1) (here + 1) text
  | c :: text => lineRangesFrom start (here + c.utf8Size) text

/-- The byte ranges of the lines, without what ends them. -/
def lineRanges (text : List Char) : List ByteRange := lineRangesFrom 0 0 text

end SyntaxPaint
