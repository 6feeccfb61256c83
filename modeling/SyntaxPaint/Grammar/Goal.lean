import SyntaxPaint.Grammar.Terminal
/-!
# Goals

A goal is something that the checker still has to read. One terminal is enough to know what a goal
does: it reads the terminal and leaves further goals in its place, it asks for nothing, or it
refuses. So the grammar is the table `Goal.move`:

    program     := statement*
    statement   := 'if' '(' expression ')' body ('else' body)?
                 | 'while' '(' expression ')' body
                 | 'return' expression? ';'
                 | type name ('=' expression)? ';'
                 | name ('=' expression)? ';'
    body        := '{' statement* '}' | statement
    expression  := term (additive term)*
    term        := factor (multiplicative factor)*
    factor      := number | name | quoted | '(' expression ')'

An `else` belongs to the nearest `if` that can take it. The value of a `return` is left out when an
operator of any text follows, also one that could begin an expression.
-/
namespace SyntaxPaint

inductive Goal where
  | program
  | statement
  | body
  /-- Statements and the brace that closes them. -/
  | blockRest
  | elseBranch
  | initializer
  | returnValue
  | expression
  | term
  | factor
  /-- Further terms of an expression. -/
  | moreTerms
  /-- Further factors of a term. -/
  | moreFactors
  | name
  | mark (m : Mark)
  /-- The end of a nesting level; it reads nothing. -/
  | leave
  | endOfInput
deriving DecidableEq, Repr

/-- What a goal that refuses would have taken. -/
inductive Expected where
  | mark (m : Mark)
  | name
  | statement
  | operand
  | endOfInput
deriving DecidableEq, Repr

def Expected.message : Expected → String
  | mark m => s!"expected '{m.char}'"
  | name => "expected identifier"
  | statement => "expected a statement"
  | operand => "expected a number, identifier, string or '('"
  | endOfInput => "expected end of input"

/-- The five forms of statement. -/
inductive Form where
  | conditional
  | loop
  | returning
  | declaration
  | assignment
deriving DecidableEq, Repr

def Form.name : Form → String
  | conditional => "if statement"
  | loop => "while statement"
  | returning => "return statement"
  | declaration => "declaration"
  | assignment => "assignment"

inductive Move where
  /-- Read the terminal, which begins a statement if a form is given, and go on with the goals. -/
  | read (form : Option Form) (goals : List Goal)
  /-- Ask for nothing. -/
  | pass
  | refuse (expected : Expected)
deriving DecidableEq, Repr

/-- The move with further goals behind those that it leaves. -/
def Move.followedBy : Move → List Goal → Move
  | read form goals, more => read form (goals ++ more)
  | pass, _ => pass
  | refuse e, _ => refuse e

namespace Goal

def condition : List Goal := [mark .openParen, expression, mark .closeParen]

def statementMove : Terminal → Move
  | .ifWord => .read (some .conditional) (condition ++ [body, elseBranch])
  | .whileWord => .read (some .loop) (condition ++ [body])
  | .returnWord => .read (some .returning) [returnValue, mark .semicolon]
  | .typeWord => .read (some .declaration) [name, initializer, mark .semicolon]
  | .name => .read (some .assignment) [initializer, mark .semicolon]
  | _ => .refuse .statement

def factorMove : Terminal → Move
  | .number | .name | .quoted => .read none []
  | .mark .openParen => .read none [expression, mark .closeParen, leave]
  | _ => .refuse .operand

def termMove (t : Terminal) : Move := (factorMove t).followedBy [moreFactors]

def expressionMove (t : Terminal) : Move := (termMove t).followedBy [moreTerms]

/-- What the goal does with the terminal in front of it. -/
def move : Goal → Terminal → Move
  | program, t => (statementMove t).followedBy [program]
  | statement, t => statementMove t
  | body, .mark .openBrace => .read none [blockRest, leave]
  | body, t => (statementMove t).followedBy [leave]
  | blockRest, .mark .closeBrace => .read none []
  | blockRest, t => (statementMove t).followedBy [blockRest]
  | elseBranch, .elseWord => .read none [body]
  | elseBranch, _ => .pass
  | initializer, .mark .assign => .read none [expression]
  | initializer, _ => .pass
  | returnValue, t => if t.isOperator then .pass else expressionMove t
  | expression, t => expressionMove t
  | term, t => termMove t
  | factor, t => factorMove t
  | moreTerms, .additive => .read none [term, moreTerms]
  | moreTerms, _ => .pass
  | moreFactors, .multiplicative => .read none [factor, moreFactors]
  | moreFactors, _ => .pass
  | name, .name => .read none []
  | name, _ => .refuse .name
  | mark m, t => if t = .mark m then .read none [] else .refuse (.mark m)
  | leave, _ => .pass
  | endOfInput, _ => .refuse .endOfInput

/-- What the goal misses at the end of input, if it misses anything. -/
def missing : Goal → Option Expected
  | statement | body => some .statement
  | blockRest => some (.mark .closeBrace)
  | expression | term | factor => some .operand
  | name => some .name
  | mark m => some (.mark m)
  | program | elseBranch | initializer | returnValue | moreTerms | moreFactors | leave
  | endOfInput => none

/-- Does the goal open a nesting level before it looks further? A body does so in any case, also
at the end of input; an operand does so for its parenthesis. -/
def opensLevel : Goal → Option Terminal → Bool
  | body, _ => true
  | expression, some (.mark .openParen) => true
  | term, some (.mark .openParen) => true
  | factor, some (.mark .openParen) => true
  | _, _ => false

end Goal
end SyntaxPaint
