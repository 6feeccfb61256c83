import SyntaxPaint.Text.Line
import SyntaxPaint.Theme.Basic
import SyntaxPaint.Token.Basic
/-!
# Painting lines

Tokens are painted line by line: each token that a line meets is cut to the line and given the
colour of its kind. A token that spans several lines is cut to each of them.
-/
namespace SyntaxPaint

/-- A stretch of text in one colour. -/
structure Patch where
  range : ByteRange
  kind : Kind
  color : Color
deriving DecidableEq, Repr

/-- The first index between `lo` and `hi` whose element fails `p`, by bisection: right wherever
the elements that satisfy `p` stand in front of those that do not. -/
def bisect {α : Type} (p : α → Bool) (xs : Array α) (lo hi : Nat) : Nat :=
  if _h : lo < hi then
    let mid := (lo + hi) / 2
    match xs[mid]? with
    | some x => if p x then bisect p xs (mid + 1) hi else bisect p xs lo mid
    | none => bisect p xs lo mid
  else lo
termination_by hi - lo

/-- How many elements in front satisfy `p`. -/
def partitionPoint {α : Type} (p : α → Bool) (xs : Array α) : Nat := bisect p xs 0 xs.size

/-- The tokens from the first that ends behind the start of the range to the last that begins in
front of its end. -/
def tokensMeeting (tokens : Array Token) (r : ByteRange) : List Token :=
  (tokens.toList.drop (partitionPoint (·.stop ≤ r.start) tokens)).takeWhile (·.start < r.stop)

/-- What a range shows of a token, if anything. -/
def patch? (theme : Theme) (r : ByteRange) (t : Token) : Option Patch :=
  let cut : ByteRange := ⟨max t.start r.start, min t.stop r.stop⟩
  if cut.start < cut.stop then some ⟨cut, t.kind, theme.colorFor t.kind⟩ else none

def paintLine (tokens : Array Token) (line : ByteRange) (theme : Theme) : List Patch :=
  (tokensMeeting tokens line).filterMap (patch? theme line)

/-- The patches of every line of a text. -/
def paint (text : List Char) (tokens : Array Token) (theme : Theme) : List (List Patch) :=
  (lineRanges text).map (paintLine tokens · theme)

end SyntaxPaint
