import SyntaxPaint.Settings.Level
import SyntaxPaint.Theme.Settings
/-!
# Settings

What a user can set: how much is logged, how deeply a text may nest, and how it is painted.
-/
namespace SyntaxPaint

/-- A level for everything, and levels of their own for the phases that have one. -/
structure LoggingSettings where
  level : Level
  lexer : Option Level
  parser : Option Level
  highlight : Option Level
deriving DecidableEq

structure LimitSettings where
  maxNestingDepth : UInt64
deriving DecidableEq

structure HighlightSettings where
  theme : String
  themes : List ThemeSettings
deriving DecidableEq

structure Settings where
  logging : LoggingSettings
  limits : LimitSettings
  highlight : HighlightSettings
deriving DecidableEq

def LoggingSettings.standard : LoggingSettings := ⟨.info, none, none, none⟩

def LimitSettings.standard : LimitSettings := ⟨256⟩

def HighlightSettings.standard : HighlightSettings := ⟨"Dark", []⟩

def Settings.standard : Settings := ⟨.standard, .standard, .standard⟩

/-- The level that holds for a phase. -/
def LoggingSettings.levelFor (s : LoggingSettings) : Phase → Level
  | .lexer => s.lexer.getD s.level
  | .parser => s.parser.getD s.level
  | .highlight => s.highlight.getD s.level

/-- How many levels a text may nest. -/
def Settings.limit (s : Settings) : Nat := s.limits.maxNestingDepth.toNat

end SyntaxPaint
