import SyntaxPaint.Text.Blank
import SyntaxPaint.Text.Digit
import SyntaxPaint.Text.Letter
import SyntaxPaint.Token.Kind
/-!
# Lexemes

Every text is a sequence of lexemes. The first character of a lexeme and the one after it decide
its kind, and `lexemeTail` says how far it reaches. A quoted text or a block comment that is never
closed reaches to the end of the text; a character that begins nothing is a lexeme of its own.
-/
namespace SyntaxPaint

def keywords : List String :=
  ["if", "else", "while", "for", "return", "int", "string", "void", "class", "public", "private",
    "static", "new", "this", "null", "true", "false", "break", "continue", "switch", "case",
    "default", "try", "catch", "finally", "throw", "bool"]

def operatorChars : List Char :=
  ['+', '-', '*', '/', '=', '>', '<', '!', '&', '|', ';', '(', ')', '\x7b', '\x7d', '[', ']', ',']

/-- Operators of two characters; they are taken before either character alone. -/
def compoundOperators : List String :=
  ["==", "!=", ">=", "<=", "&&", "||", "++", "--", "+=", "-=", "*=", "/="]

def isKeyword (text : List Char) : Bool := keywords.contains (String.ofList text)

def isOperatorChar (c : Char) : Bool := operatorChars.contains c

def isCompound (c d : Char) : Bool := compoundOperators.contains (String.ofList [c, d])

def isIdentifierStart (c : Char) : Bool := isLetter c || c == '_'

def isIdentifierPart (c : Char) : Bool := isLetter c || isDigit c || c == '_'

def isLineEnd (c : Char) : Bool := c == '\n' || c == '\r'

structure Lexeme where
  kind : Kind
  text : List Char
deriving DecidableEq, Repr

/-- A block comment behind its opening, up to and including the first closing. -/
def blockTail : List Char → List Char
  | [] => []
  | '*' :: '/' :: _ => ['*', '/']
  | c :: cs => c :: blockTail cs

/-- A quoted text behind its opening quote, up to and including the first quote that no backslash
takes away. -/
def quotedTail : List Char → List Char
  | [] => []
  | '"' :: _ => ['"']
  | '\\' :: c :: cs => '\\' :: c :: quotedTail cs
  | c :: cs => c :: quotedTail cs

/-- Digits, and at most one point with the digits behind it. -/
def numberTail (cs : List Char) : List Char :=
  cs.takeWhile isDigit ++
    match cs.dropWhile isDigit with
    | '.' :: rest => '.' :: rest.takeWhile isDigit
    | _ => []

def operatorTail (c : Char) : List Char → List Char
  | d :: _ => if isCompound c d then [d] else []
  | [] => []

/-- The kind of the lexeme that begins with `c` in front of `cs`, and its other characters. -/
def lexemeTail (c : Char) (cs : List Char) : Kind × List Char :=
  if isBlank c then (.whitespace, cs.takeWhile isBlank)
  else if c = '/' ∧ cs.head? = some '/' then (.comment, cs.takeWhile (!isLineEnd ·))
  else if c = '/' ∧ cs.head? = some '*' then (.comment, '*' :: blockTail cs.tail)
  else if isIdentifierStart c then
    let tail := cs.takeWhile isIdentifierPart
    (if isKeyword (c :: tail) then .keyword else .identifier, tail)
  else if isDigit c then (.number, numberTail cs)
  else if c = '"' then (.string, quotedTail cs)
  else if isOperatorChar c then (.operator, operatorTail c cs)
  else (.unknown, [])

/-- The lexemes of a text, from the front. -/
def lexemes : List Char → List Lexeme
  | [] => []
  | c :: cs =>
    let (kind, tail) := lexemeTail c cs
    ⟨kind, c :: tail⟩ :: lexemes (cs.drop tail.length)
termination_by text => text.length
decreasing_by simp only [List.length_drop, List.length_cons]; omega

/-- Does a block comment close, behind its opening? -/
def closesBlock : List Char → Bool
  | [] => false
  | '*' :: '/' :: _ => true
  | _ :: cs => closesBlock cs

/-- Does a quoted text close, behind its opening quote? -/
def closesQuoted : List Char → Bool
  | [] => false
  | '"' :: _ => true
  | '\\' :: _ :: cs => closesQuoted cs
  | _ :: cs => closesQuoted cs

/-- A quoted text or block comment that the end of the text cut short. -/
def Lexeme.isOpen : Lexeme → Bool
  | ⟨.string, _ :: body⟩ => !closesQuoted body
  | ⟨.comment, '/' :: '*' :: body⟩ => !closesBlock body
  | _ => false

end SyntaxPaint
