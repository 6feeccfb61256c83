import SyntaxPaint.Text.Position
import SyntaxPaint.Token.Lexeme
/-!
# Tokens

A token is a lexeme with its place. `tokenize` lays the lexemes of a text end to end from the
origin, so the tokens of a text tile it.
-/
namespace SyntaxPaint

structure Token where
  kind : Kind
  text : List Char
  span : Span
deriving DecidableEq, Repr

namespace Token

/-- Where the token begins, in bytes. -/
def start (t : Token) : Nat := t.span.start.offset

/-- Where the token ends, in bytes. -/
def stop (t : Token) : Nat := t.span.stop.offset

def range (t : Token) : ByteRange := ⟨t.start, t.stop⟩

/-- The length of the token's text in bytes. -/
def length (t : Token) : Nat := byteLength t.text

def lexeme (t : Token) : Lexeme := ⟨t.kind, t.text⟩

/-- Each of the two begins before the other ends. -/
def intersects (t : Token) (r : ByteRange) : Bool := t.start < r.stop && r.start < t.stop

def isTrivia (t : Token) : Bool := t.kind.isTrivia

/-- A token as a reader is told about it. -/
def shown (t : Token) : String := s!"{t.kind.name} '{String.ofList t.text}'"

end Token

/-- Lexemes laid end to end from a position. -/
def place (p : Position) : List Lexeme → List Token
  | [] => []
  | l :: ls => ⟨l.kind, l.text, ⟨p, p.after l.text⟩⟩ :: place (p.after l.text) ls

def tokenize (source : List Char) : List Token := place .origin (lexemes source)

/-- The tokens that the grammar sees. -/
def significant (tokens : List Token) : List Token := tokens.filter (!·.isTrivia)

def countKind (kind : Kind) (tokens : List Token) : Nat := tokens.countP (·.kind == kind)

end SyntaxPaint
