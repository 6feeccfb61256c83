import SyntaxPaint.Token.Basic
/-!
# Reading a text by hand

A cursor stands between the characters of a text. It looks ahead freely and moves forward only;
`next?` reads one token wherever the cursor stands, also in the middle of another.
-/
namespace SyntaxPaint

structure Cursor where
  source : List Char
  rest : List Char
  position : Position
deriving DecidableEq, Repr

namespace Cursor

def start (source : List Char) : Cursor := ⟨source, source, .origin⟩

/-- Does the cursor stand as far on as the source is long? -/
def atEnd (c : Cursor) : Bool := byteLength c.source ≤ c.position.offset

/-- The character `n` places ahead. -/
def peek? (c : Cursor) (n : Nat) : Option Char := c.rest[n]?

def check (c : Cursor) (x : Char) : Bool := c.peek? 0 == some x

def startsWith (c : Cursor) (lead : List Char) : Bool := lead.isPrefixOf c.rest

/-- The cursor `n` characters further on, or at the end. -/
def skip (c : Cursor) (n : Nat) : Cursor :=
  { c with rest := c.rest.drop n, position := c.position.after (c.rest.take n) }

def advance? (c : Cursor) : Option (Char × Cursor) :=
  match c.rest with
  | [] => none
  | x :: _ => some (x, c.skip 1)

/-- Passes characters as long as they satisfy `p`, and counts them. -/
def advanceWhile (c : Cursor) (p : Char → Bool) : Nat × Cursor :=
  match _h : c.peek? 0 with
  | some x =>
    if p x then
      let (n, moved) := (c.skip 1).advanceWhile p
      (n + 1, moved)
    else (0, c)
  | none => (0, c)
termination_by c.rest.length
decreasing_by
  have hlength : 0 < c.rest.length := (List.getElem?_eq_some_iff.mp _h).1
  simp only [skip, List.length_drop]
  omega

/-- The text between an earlier position and the cursor. -/
def sliceFrom (c : Cursor) (mark : Position) : List Char :=
  sliceBytes c.source mark.offset c.position.offset

/-- A token whose beginning and kind are known. -/
structure Draft where
  kind : Kind
  start : Position
deriving DecidableEq, Repr

def begin (c : Cursor) (kind : Kind) : Draft := ⟨kind, c.position⟩

/-- The drafted token, ended where the cursor stands. -/
def finish (c : Cursor) (d : Draft) : Token := ⟨d.kind, c.sliceFrom d.start, ⟨d.start, c.position⟩⟩

/-- The token that begins at the cursor. -/
def next? (c : Cursor) : Option (Token × Cursor) :=
  match c.rest with
  | [] => none
  | x :: xs =>
    let (kind, tail) := lexemeTail x xs
    let moved := c.skip (tail.length + 1)
    some (moved.finish (c.begin kind), moved)

end Cursor
end SyntaxPaint
