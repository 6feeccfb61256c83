import SyntaxPaint.Log.Filter
import SyntaxPaint.Paint.Terminal
/-!
# Documents

A document keeps a text together with its analysis and looks at the text again at every update.
-/
namespace SyntaxPaint

/-- The tokens of a text, and whether the text is a program. -/
structure Analysis where
  tokens : List Token
  valid : Bool
deriving DecidableEq, Repr

/-- The analysis of no text at all. -/
def Analysis.empty : Analysis := ⟨[], true⟩

def analyze (source : List Char) (limit : Nat) : Analysis :=
  let tokens := tokenize source
  ⟨tokens, accepts tokens limit⟩

structure Document where
  settings : Settings
  text : List Char
  analysis : Analysis
deriving DecidableEq

namespace Document

def new (s : Settings) : Document := ⟨s, [], .empty⟩

def update (d : Document) (text : List Char) : Document :=
  { d with text, analysis := analyze text d.settings.limit }

def lineCount (d : Document) : Nat := (lineRanges d.text).length

/-- The patches of every line. -/
def highlight (d : Document) (theme : Theme) : List (List Patch) :=
  paint d.text d.analysis.tokens.toArray theme

/-- The patches of one line, counted from zero, if there is one. -/
def highlightLine? (d : Document) (index : Nat) (theme : Theme) : Option (List Patch) :=
  (lineRanges d.text)[index]?.map fun line => paintLine d.analysis.tokens.toArray line theme

/-- The lines as a terminal shows them. -/
def render (d : Document) (theme : Theme) (numbers : Bool) : List (List Char) :=
  renderLines d.text (d.highlight theme) numbers

/-- What an update logs on the way to the document `d`. -/
def updateEvents (d : Document) : List LogEvent :=
  let count := LogValue.number d.analysis.tokens.length
  let valid := LogValue.boolean d.analysis.valid
  tokenizeEvents d.text d.analysis.tokens ++ checkEvents d.analysis.tokens d.settings.limit ++
    [⟨.debug, generalTarget, "Analysis finished", [("tokens", count), ("valid", valid)]⟩,
      ⟨.debug, generalTarget, "Document updated",
        [("bytes", .number (byteLength d.text)), ("tokens", count), ("valid", valid)]⟩]

def highlightEvents (d : Document) (theme : Theme) : List LogEvent :=
  [paintEvent d.text d.analysis.tokens theme]

end Document
end SyntaxPaint
