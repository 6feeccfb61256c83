/-!
# JSON texts as far as they can be read

A reader of JSON meets faults in the order of the text, and whether it minds them depends on what
it wants: it looks closely at what it needs and passes over the rest. So a text is kept as a tree
that goes as far as the text can be followed at all, with its faults where they stand.
`Tree.skipped` is the fault of a part that is passed over.
-/
namespace SyntaxPaint

/-- Why a text is no JSON: it says something else, or it ends too early. -/
inductive Fault where
  | malformed
  | ended
deriving DecidableEq, Repr

/-- A quoted text: what it says, and where it breaks off if it is passed over. Passing over takes
any four digits for a character, also those that name half of one. -/
structure Quoted where
  value : Except Fault String
  skipped : Option Fault

/-- The sign and digits of a number: before the point, behind it, and of the exponent, which has a
sign of its own. -/
structure Numeral where
  negative : Bool
  whole : List Char
  fraction : Option (List Char)
  exponent : Option (Bool × List Char)
deriving DecidableEq, Repr

/-- The words that are values, each known by its first letter. -/
inductive Word where
  | null
  | true
  | false
deriving DecidableEq, Repr

def Word.text : Word → String
  | null => "null"
  | true => "true"
  | false => "false"

mutual

inductive Tree where
  | word (w : Word)
  /-- A word that breaks off behind its first letter. -/
  | brokenWord (w : Word) (fault : Fault)
  | number (n : Numeral)
  /-- A number that lacks a digit. -/
  | brokenNumber (fault : Fault)
  | string (q : Quoted)
  | array (items : Items)
  | object (members : Members)
  /-- Nothing that begins a value. -/
  | absent (fault : Fault)

/-- The items of an array, up to its bracket or to where it breaks off; `comma` tells whether one
more item was announced there. -/
inductive Items where
  | closed
  | cut (fault : Fault) (comma : Bool)
  | item (value : Tree) (rest : Items)

/-- The members of an object, up to its bracket or to where it breaks off. -/
inductive Members where
  | closed
  | cut (fault : Fault) (comma : Bool)
  | member (key : Quoted) (value : Tree) (rest : Members)

end

mutual

/-- The first fault of a value that nobody looks at. -/
def Tree.skipped : Tree → Option Fault
  | .word _ | .number _ => none
  | .brokenWord _ fault => some fault
  | .brokenNumber _ => some .malformed
  | .string q => q.skipped
  | .array items => items.skipped
  | .object members => members.skipped
  | .absent fault => some fault

def Items.skipped : Items → Option Fault
  | .closed => none
  | .cut fault _ => some fault
  | .item value rest => value.skipped.or rest.skipped

def Members.skipped : Members → Option Fault
  | .closed => none
  | .cut fault _ => some fault
  | .member key value rest => (key.skipped.or value.skipped).or rest.skipped

end

end SyntaxPaint
