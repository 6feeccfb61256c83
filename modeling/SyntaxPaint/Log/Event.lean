import SyntaxPaint.Grammar.Checker
import SyntaxPaint.Paint.Line
import SyntaxPaint.Settings.Level
import SyntaxPaint.Text.Escape
/-!
# What is logged

Every stage that a text goes through tells what it did, as a list of events in order.
-/
namespace SyntaxPaint

inductive LogValue where
  | number (n : Nat)
  | boolean (b : Bool)
  | text (s : String)
deriving DecidableEq, Repr

structure LogEvent where
  level : Level
  target : String
  message : String
  fields : List (String × LogValue)
deriving DecidableEq, Repr

/-- Where what belongs to no phase is logged to. -/
def generalTarget : String := "merx::api"

/-- Where the command line logs to. -/
def commandTarget : String := "merx::cli"

/-- What is said about a lexeme that the end of the text cut short. -/
def openMessage : Kind → String
  | .comment => "Unterminated block comment"
  | _ => "Unterminated string literal"

def scanEvents (t : Token) : List LogEvent :=
  let cut : List LogEvent :=
    if t.lexeme.isOpen then [⟨.trace, Phase.lexer.target, openMessage t.kind, []⟩] else []
  cut ++ [⟨.trace, Phase.lexer.target, "Scanned token",
    [("kind", .text t.kind.name), ("text", .text (String.ofList (escaped t.text))),
      ("line", .number t.span.start.line), ("column", .number t.span.start.column)]⟩]

def tokenizeEvents (source : List Char) (tokens : List Token) : List LogEvent :=
  tokens.flatMap scanEvents ++ [⟨.debug, Phase.lexer.target, "Tokenized input",
    [("bytes", .number (byteLength source)), ("tokens", .number tokens.length)]⟩]

def formEvent (f : Form) : LogEvent := ⟨.trace, Phase.parser.target, "Parsing " ++ f.name, []⟩

/-- What is logged when a checker answers and stands where `c` stands. -/
def reportEvents (r : Report) (c : Checker) : List LogEvent :=
  r.forms.map formEvent ++
    match r.rejection with
    | none => [⟨.debug, Phase.parser.target, "Input accepted",
        [("tokens", .number c.tokens.length)]⟩]
    | some e => [⟨.debug, Phase.parser.target, "Input rejected",
        [("error", .text e.message), ("consumed", .number c.position),
          ("line", .number r.lineColumn.1), ("column", .number r.lineColumn.2)]⟩]

def checkEvents (tokens : List Token) (limit : Nat) : List LogEvent :=
  let c := Checker.new tokens limit
  let (r, stopped) := c.program
  ⟨.trace, Phase.parser.target, "Creating parser",
    [("significant", .number c.tokens.length)]⟩ :: reportEvents r stopped

def paintEvent (text : List Char) (tokens : List Token) (theme : Theme) : LogEvent :=
  ⟨.trace, Phase.highlight.target, "Painting",
    [("theme", .text theme.name), ("lines", .number (lineRanges text).length),
      ("tokens", .number tokens.length)]⟩

end SyntaxPaint
