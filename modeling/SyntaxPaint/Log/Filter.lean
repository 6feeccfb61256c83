import SyntaxPaint.Log.Event
import SyntaxPaint.Settings.Basic
/-!
# Log filters

A filter lists targets with their thresholds. Of the listed targets that a target begins with the
longest governs it; a target that begins with none has the threshold of everything else.
-/
namespace SyntaxPaint

/-- The most talkative events that are let through, if any are. -/
inductive Threshold where
  | off
  | error
  | warn
  | info
  | debug
  | trace
deriving DecidableEq, Repr

namespace Threshold

def rank : Threshold → Nat
  | off => 0
  | error => 1
  | warn => 2
  | info => 3
  | debug => 4
  | trace => 5

instance : LE Threshold := ⟨fun a b => a.rank ≤ b.rank⟩
instance (a b : Threshold) : Decidable (a ≤ b) := inferInstanceAs (Decidable (a.rank ≤ b.rank))

end Threshold

def Level.threshold : Level → Threshold
  | off => .off
  | error => .error
  | warn => .warn
  | info => .info
  | debug => .debug
  | trace => .trace

/-- The thresholds in force: that of each phase, and the common one. -/
structure LogThresholds where
  common : Threshold
  lexer : Threshold
  parser : Threshold
  highlight : Threshold
deriving DecidableEq

namespace LogThresholds

def ofSettings (s : LoggingSettings) : LogThresholds where
  common := s.level.threshold
  lexer := (s.levelFor .lexer).threshold
  parser := (s.levelFor .parser).threshold
  highlight := (s.levelFor .highlight).threshold

def thresholdFor (t : LogThresholds) : Phase → Threshold
  | .lexer => t.lexer
  | .parser => t.parser
  | .highlight => t.highlight

end LogThresholds

structure LogFilter where
  otherwise : Threshold
  listed : List (String × Threshold)
deriving DecidableEq

namespace LogFilter

/-- The entries that a target begins with, in order. -/
def matching (f : LogFilter) (target : String) : List (String × Threshold) :=
  f.listed.filter fun entry => entry.1.toList.isPrefixOf target.toList

/-- The longer of two entries, the first if they are of one length. -/
def longer (a b : String × Threshold) : String × Threshold :=
  if a.1.length < b.1.length then b else a

def thresholdOf (f : LogFilter) (target : String) : Threshold :=
  match f.matching target with
  | [] => f.otherwise
  | entry :: entries => (entries.foldl longer entry).2

/-- Are events of the level let through to the target? -/
def enables (f : LogFilter) (target : String) (level : Level) : Bool :=
  level.threshold ≤ f.thresholdOf target

def letThrough (f : LogFilter) (events : List LogEvent) : List LogEvent :=
  events.filter fun e => f.enables e.target e.level

/-- The filter with another target behind those that are listed. -/
def withTarget (f : LogFilter) (target : String) (threshold : Threshold) : LogFilter :=
  { f with listed := f.listed ++ [(target, threshold)] }

def withPhases (f : LogFilter) (t : LogThresholds) : LogFilter :=
  Phase.all.foldl (fun (f : LogFilter) p => f.withTarget p.target (t.thresholdFor p)) f

/-- Each phase has its own threshold, and all else the common one. -/
def ofThresholds (t : LogThresholds) : LogFilter :=
  let phases := withPhases ⟨t.common, []⟩ t
  (phases.withTarget generalTarget t.common).withTarget commandTarget t.common

def ofSettings (s : LoggingSettings) : LogFilter := ofThresholds (.ofSettings s)

end LogFilter
end SyntaxPaint
