import SyntaxPaint.Text.Folded
/-!
# Kinds of lexemes
-/
namespace SyntaxPaint

inductive Kind where
  | keyword
  | identifier
  | number
  | string
  | operator
  | whitespace
  | comment
  | unknown
deriving DecidableEq, Repr

namespace Kind

/-- Every kind, in the order of listings. -/
def all : List Kind :=
  [keyword, identifier, number, string, operator, whitespace, comment, unknown]

def name : Kind → String
  | keyword => "Keyword"
  | identifier => "Identifier"
  | number => "Number"
  | string => "String"
  | operator => "Operator"
  | whitespace => "Whitespace"
  | comment => "Comment"
  | unknown => "Unknown"

/-- Trivia separates and explains; the grammar never sees it. -/
def isTrivia : Kind → Bool
  | whitespace | comment => true
  | _ => false

/-- The kind a name spells, in any case. -/
def ofName? (s : String) : Option Kind := all.find? fun k => sameName k.name s

theorem mem_all (k : Kind) : k ∈ all := by cases k <;> decide

theorem ofName?_name (k : Kind) : ofName? k.name = some k := by cases k <;> decide

theorem sameName_of_ofName? {s : String} {k : Kind} (h : ofName? s = some k) :
    sameName k.name s = true := by
  simpa using List.find?_some h

end Kind

/-- A string that spells no kind. -/
structure UnknownKindName where
  spelled : String
deriving DecidableEq, Repr

def UnknownKindName.message (e : UnknownKindName) : String := s!"unknown token kind '{e.spelled}'"

def Kind.ofName (s : String) : Except UnknownKindName Kind :=
  match ofName? s with
  | some k => .ok k
  | none => .error ⟨s⟩

end SyntaxPaint
