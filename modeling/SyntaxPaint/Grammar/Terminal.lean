import SyntaxPaint.Token.Basic
/-!
# What the grammar sees of a token

The grammar tells keywords and operators apart by their text and all other tokens by their kind:
it never looks into a name, a number or a quoted text.
-/
namespace SyntaxPaint

/-- The punctuation that statements and operands are built with. -/
inductive Mark where
  | openParen
  | closeParen
  | openBrace
  | closeBrace
  | semicolon
  | assign
deriving DecidableEq, Repr

def Mark.char : Mark → Char
  | openParen => '('
  | closeParen => ')'
  | openBrace => '\x7b'
  | closeBrace => '\x7d'
  | semicolon => ';'
  | assign => '='

inductive Terminal where
  | ifWord
  | elseWord
  | whileWord
  | returnWord
  | typeWord
  | otherWord
  | name
  | number
  | quoted
  | mark (m : Mark)
  | additive
  | multiplicative
  | otherSign
  | stray
deriving DecidableEq, Repr

namespace Terminal

/-- The operators between terms, all of one precedence. -/
def additiveOperators : List String := ["+", "-", "==", "!=", ">", "<", ">=", "<="]

/-- The operators between factors. -/
def multiplicativeOperators : List String := ["*", "/"]

/-- The keywords that begin a declaration. -/
def typeWords : List String := ["int", "string", "void"]

def ofKeyword (text : String) : Terminal :=
  if text = "if" then ifWord
  else if text = "else" then elseWord
  else if text = "while" then whileWord
  else if text = "return" then returnWord
  else if text ∈ typeWords then typeWord
  else otherWord

def ofOperator (text : String) : Terminal :=
  if text = "(" then mark .openParen
  else if text = ")" then mark .closeParen
  else if text = "\x7b" then mark .openBrace
  else if text = "\x7d" then mark .closeBrace
  else if text = ";" then mark .semicolon
  else if text = "=" then mark .assign
  else if text ∈ additiveOperators then additive
  else if text ∈ multiplicativeOperators then multiplicative
  else otherSign

/-- Operators of any text; behind `return` they say that no value follows. -/
def isOperator : Terminal → Bool
  | mark _ | additive | multiplicative | otherSign => true
  | _ => false

end Terminal

def Token.terminal (t : Token) : Terminal :=
  match t.kind with
  | .keyword => .ofKeyword (String.ofList t.text)
  | .operator => .ofOperator (String.ofList t.text)
  | .identifier => .name
  | .number => .number
  | .string => .quoted
  | .whitespace | .comment | .unknown => .stray

end SyntaxPaint
