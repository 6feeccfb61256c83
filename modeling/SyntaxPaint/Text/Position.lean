/-!
# Positions in a text

A position counts what has been read so far in four ways: lines, characters of the current line,
bytes of UTF-8, and UTF-16 units of the current line. Only `'\n'` ends a line here.
-/
namespace SyntaxPaint

/-- The length of a text in bytes of UTF-8. -/
def byteLength (text : List Char) : Nat := text.foldr (fun c n => c.utf8Size + n) 0

@[simp] theorem byteLength_nil : byteLength [] = 0 := rfl

@[simp] theorem byteLength_cons (c : Char) (text : List Char) :
    byteLength (c :: text) = c.utf8Size + byteLength text := rfl

theorem byteLength_append (s t : List Char) :
    byteLength (s ++ t) = byteLength s + byteLength t := by
  induction s with
  | nil => simp
  | cons c s ih => simp [ih, Nat.add_assoc]

/-- One UTF-16 unit in the basic multilingual plane, a surrogate pair beyond it. -/
def utf16Size (c : Char) : Nat := if c.toNat < 0x10000 then 1 else 2

/-- The length of a text in UTF-16 units. -/
def utf16Length (text : List Char) : Nat := text.foldr (fun c n => utf16Size c + n) 0

@[simp] theorem utf16Length_nil : utf16Length [] = 0 := rfl

@[simp] theorem utf16Length_cons (c : Char) (text : List Char) :
    utf16Length (c :: text) = utf16Size c + utf16Length text := rfl

theorem utf16Length_append (s t : List Char) :
    utf16Length (s ++ t) = utf16Length s + utf16Length t := by
  induction s with
  | nil => simp
  | cons c s ih => simp [ih, Nat.add_assoc]

/-- What is left after the characters that begin in the first `n` bytes. -/
def dropBytes : Nat → List Char → List Char
  | _, [] => []
  | 0, text => text
  | n + 1, c :: text => dropBytes (n + 1 - c.utf8Size) text

/-- The characters that begin in the first `n` bytes. -/
def takeBytes : Nat → List Char → List Char
  | _, [] => []
  | 0, _ => []
  | n + 1, c :: text => c :: takeBytes (n + 1 - c.utf8Size) text

/-- The part of a text between two byte offsets. -/
def sliceBytes (text : List Char) (start stop : Nat) : List Char :=
  takeBytes (stop - start) (dropBytes start text)

/-- A half-open stretch of bytes; it may be empty or reversed. -/
structure ByteRange where
  start : Nat
  stop : Nat
deriving DecidableEq, Repr

/-- The text of a byte range. -/
def ByteRange.slice (r : ByteRange) (text : List Char) : List Char := sliceBytes text r.start r.stop

/-- Lines and columns count from one, the byte offset and the UTF-16 column from zero. -/
structure Position where
  line : Nat
  column : Nat
  offset : Nat
  utf16 : Nat
deriving DecidableEq, Repr

namespace Position

/-- The position in front of a text. -/
def origin : Position := ⟨1, 1, 0, 0⟩

/-- The position of nothing: no text has a line zero. -/
def zero : Position := ⟨0, 0, 0, 0⟩

instance : Inhabited Position := ⟨zero⟩

def advance (p : Position) (c : Char) : Position :=
  if c = '\n' then ⟨p.line + 1, 1, p.offset + c.utf8Size, 0⟩
  else ⟨p.line, p.column + 1, p.offset + c.utf8Size, p.utf16 + utf16Size c⟩

/-- The position behind `text` when it begins at `p`. -/
def after (p : Position) (text : List Char) : Position := text.foldl advance p

@[simp] theorem after_nil (p : Position) : p.after [] = p := rfl

@[simp] theorem after_cons (p : Position) (c : Char) (text : List Char) :
    p.after (c :: text) = (p.advance c).after text := rfl

theorem after_append (p : Position) (s t : List Char) : p.after (s ++ t) = (p.after s).after t := by
  simp [after]

end Position

/-- The half-open stretch of text between two positions. -/
structure Span where
  start : Position
  stop : Position
deriving DecidableEq, Repr

/-- The empty span at a position. -/
def Span.point (p : Position) : Span := ⟨p, p⟩

def Span.byteLength (s : Span) : Nat := s.stop.offset - s.start.offset

end SyntaxPaint
