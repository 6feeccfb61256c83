import SyntaxPaint.Text.Folded
/-!
# Log levels and phases
-/
namespace SyntaxPaint

/-- How much is logged, from nothing to everything. -/
inductive Level where
  | off
  | error
  | warn
  | info
  | debug
  | trace
deriving DecidableEq, Repr

namespace Level

def all : List Level := [off, error, warn, info, debug, trace]

def name : Level → String
  | off => "off"
  | error => "error"
  | warn => "warn"
  | info => "info"
  | debug => "debug"
  | trace => "trace"

/-- Quieter levels come first. -/
def rank : Level → Nat
  | off => 0
  | error => 1
  | warn => 2
  | info => 3
  | debug => 4
  | trace => 5

instance : LT Level := ⟨fun a b => a.rank < b.rank⟩
instance : LE Level := ⟨fun a b => a.rank ≤ b.rank⟩
instance (a b : Level) : Decidable (a < b) := inferInstanceAs (Decidable (a.rank < b.rank))
instance (a b : Level) : Decidable (a ≤ b) := inferInstanceAs (Decidable (a.rank ≤ b.rank))

/-- The names under which levels are set; `off` has two. -/
def names : List (String × Level) :=
  [("off", off), ("silent", off), ("error", error), ("warn", warn), ("info", info),
    ("debug", debug), ("trace", trace)]

/-- The level that is named exactly so. -/
def ofName? (s : String) : Option Level := (names.find? fun entry => entry.1 == s).map (·.2)

/-- The level that is named so in any case. -/
def ofAnyCase? (s : String) : Option Level :=
  (names.find? fun entry => sameName entry.1 s).map (·.2)

end Level

/-- The stages that a text goes through, each with a log of its own. -/
inductive Phase where
  | lexer
  | parser
  | highlight
deriving DecidableEq, Repr

namespace Phase

def all : List Phase := [lexer, parser, highlight]

def name : Phase → String
  | lexer => "lexer"
  | parser => "parser"
  | highlight => "highlight"

/-- Where the phase logs to. -/
def target (p : Phase) : String := "merx::" ++ p.name

end Phase
end SyntaxPaint
