import SyntaxPaint.Grammar.Run
/-!
# The checker

A checker holds the significant tokens of a text and how far it has read them. It can be asked again
after any answer and goes on where it stopped.
-/
namespace SyntaxPaint

/-- Nesting is limited to this many levels unless something else is asked for. -/
def defaultLimit : Nat := 256

structure Checker where
  tokens : List Token
  position : Nat
  depth : Nat
  limit : Nat
deriving DecidableEq, Repr

/-- Why a text is refused. -/
inductive Rejection where
  | unexpected (expected : Expected) (found : Option Token)
  | tooDeep (limit : Nat)
deriving DecidableEq, Repr

def Rejection.message : Rejection → String
  | unexpected expected found =>
    let found := (found.map Token.shown).getD "end of input"
    s!"{expected.message}, found {found}"
  | tooDeep limit => s!"nesting exceeds the limit of {limit}"

/-- The run over some tokens, and what it found in front of itself where it ended. -/
def runTokens (limit : Nat) : List Token → List Goal → Nat → Run × Option Token
  | [], goals, depth => (close limit goals depth, none)
  | t :: ts, goals, depth =>
    match meet limit t.terminal goals depth with
    | .reads steps goals depth =>
      let (r, found) := runTokens limit ts goals depth
      (r.after steps, found)
    | .stops r => (r, some t)

/-- One answer of a checker. -/
structure Report where
  forms : List Form
  rejection : Option Rejection
  /-- The token at which the checker stopped. -/
  current : Option Token
deriving DecidableEq, Repr

def Report.accepted (r : Report) : Bool := r.rejection.isNone

/-- Line and column of the token at which the checker stopped, or zero at the end of input. -/
def Report.lineColumn (r : Report) : Nat × Nat :=
  match r.current with
  | some t => (t.span.start.line, t.span.start.column)
  | none => (0, 0)

namespace Checker

def new (tokens : List Token) (limit : Nat) : Checker := ⟨significant tokens, 0, 0, limit⟩

def current (c : Checker) : Option Token := c.tokens[c.position]?

def atEnd (c : Checker) : Bool := c.tokens.length ≤ c.position

/-- The reason that a checker gives for what broke its run off in front of a token. -/
def rejection (c : Checker) (found : Option Token) : Cause → Rejection
  | .expected e => .unexpected e found
  | .tooDeep => .tooDeep c.limit

/-- Works off goals from where the checker stands. -/
def pursue (c : Checker) (goals : List Goal) : Report × Checker :=
  let (r, found) := runTokens c.limit (c.tokens.drop c.position) goals c.depth
  let rejection := r.cause.map (c.rejection found)
  let c := { c with position := c.position + r.taken, depth := depthAfter c.depth r.steps }
  (⟨r.forms, rejection, c.current⟩, c)

/-- Is what follows a sequence of statements? -/
def program (c : Checker) : Report × Checker := c.pursue [.program]

/-- Is what follows exactly one block or one statement? -/
def block (c : Checker) : Report × Checker := c.pursue [.body, .endOfInput]

end Checker

/-- Are the tokens a program? -/
def accepts (tokens : List Token) (limit : Nat) : Bool :=
  (Checker.new tokens limit).program.1.accepted

end SyntaxPaint
