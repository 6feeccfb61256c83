import SyntaxPaint.Token.Lexeme
/-!
# How lexemes are spelled

Each kind has its texts, said here without a scanner, and each lexeme has the characters that would
have become part of it, had they stood behind it.
-/
namespace SyntaxPaint

/-- What stands between quotes: any characters behind a backslash each, and others without one that
are neither quotes nor backslashes. -/
inductive QuotedBody : List Char → Prop
  | nil : QuotedBody []
  | plain {c : Char} {body : List Char} (quote : c ≠ '"') (backslash : c ≠ '\\')
      (rest : QuotedBody body) : QuotedBody (c :: body)
  | escaped (c : Char) {body : List Char} (rest : QuotedBody body) : QuotedBody ('\\' :: c :: body)

/-- The texts of a kind. -/
inductive Spelling : Kind → List Char → Prop
  | whitespace {text : List Char} (nonempty : text ≠ []) (blank : ∀ c ∈ text, isBlank c = true) :
      Spelling .whitespace text
  | keyword {text : List Char} (word : String.ofList text ∈ keywords) : Spelling .keyword text
  | identifier {c : Char} {tail : List Char} (start : isIdentifierStart c = true)
      (part : ∀ d ∈ tail, isIdentifierPart d = true) (free : String.ofList (c :: tail) ∉ keywords) :
      Spelling .identifier (c :: tail)
  | integer {text : List Char} (nonempty : text ≠ []) (digit : ∀ c ∈ text, isDigit c = true) :
      Spelling .number text
  | fraction {whole part : List Char} (nonempty : whole ≠ [])
      (digit : ∀ c ∈ whole, isDigit c = true) (behind : ∀ c ∈ part, isDigit c = true) :
      Spelling .number (whole ++ '.' :: part)
  | closedString {body : List Char} (inside : QuotedBody body) :
      Spelling .string ('"' :: (body ++ ['"']))
  | openString {body : List Char} (inside : QuotedBody body) : Spelling .string ('"' :: body)
  /-- The text ends with a backslash that has nothing behind it. -/
  | brokenString {body : List Char} (inside : QuotedBody body) :
      Spelling .string ('"' :: (body ++ ['\\']))
  | lineComment {body : List Char} (line : ∀ c ∈ body, c ≠ '\n' ∧ c ≠ '\r') :
      Spelling .comment ('/' :: '/' :: body)
  /-- The closing is the first one behind the opening. -/
  | closedComment {body : List Char} (first : ¬ ['*', '/'] <:+: body ++ ['*']) :
      Spelling .comment ('/' :: '*' :: (body ++ ['*', '/']))
  | openComment {body : List Char} (never : ¬ ['*', '/'] <:+: body) :
      Spelling .comment ('/' :: '*' :: body)
  | compound {text : List Char} (listed : String.ofList text ∈ compoundOperators) :
      Spelling .operator text
  | sign {c : Char} (listed : c ∈ operatorChars) : Spelling .operator [c]
  | unknown {c : Char} (blank : isBlank c = false) (start : isIdentifierStart c = false)
      (digit : isDigit c = false) (quote : c ≠ '"') (sign : c ∉ operatorChars) :
      Spelling .unknown [c]

/-- Would the character belong to the lexeme, had it stood behind it? -/
def Lexeme.absorbs (l : Lexeme) (d : Char) : Bool :=
  match l.kind, l.text with
  | .whitespace, _ => isBlank d
  | .keyword, _ | .identifier, _ => isIdentifierPart d
  | .number, text => isDigit d || (d == '.' && !text.contains '.')
  | .string, _ => l.isOpen
  | .comment, '/' :: '/' :: _ => !isLineEnd d
  | .comment, _ => l.isOpen
  | .operator, [c] => isCompound c d || (c == '/' && (d == '/' || d == '*'))
  | .operator, _ | .unknown, _ => false

end SyntaxPaint
