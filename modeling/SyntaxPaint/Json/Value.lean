/-!
# JSON values and how they are written

`Json.pretty` writes a value over several lines, indented by two blanks a level; `Json.compact`
writes it without blanks.
-/
namespace SyntaxPaint

inductive Json where
  | null
  | number (n : Nat)
  | string (s : String)
  | array (items : List Json)
  | object (members : List (String × Json))

namespace Json

/-- Four lower-case hexadecimal digits. -/
def fourDigits (n : Nat) : List Char :=
  let digits := Nat.toDigits 16 n
  List.replicate (4 - digits.length) '0' ++ digits

/-- One character of a written string. -/
def escapeChar (c : Char) : List Char :=
  match c with
  | '"' => ['\\', '"']
  | '\\' => ['\\', '\\']
  | '\x08' => ['\\', 'b']
  | '\x0c' => ['\\', 'f']
  | '\n' => ['\\', 'n']
  | '\r' => ['\\', 'r']
  | '\t' => ['\\', 't']
  | c => if c.toNat < 0x20 then '\\' :: 'u' :: fourDigits c.toNat else [c]

def quote (s : String) : List Char := ['"'] ++ s.toList.flatMap escapeChar ++ ['"']

/-- Parts with a separator between any two. -/
def joined (separator : List Char) : List (List Char) → List Char
  | [] => []
  | [part] => part
  | part :: parts => part ++ separator ++ joined separator parts

mutual

def compact : Json → List Char
  | null => "null".toList
  | number n => (toString n).toList
  | string s => quote s
  | array items => ['['] ++ joined [','] (compactItems items) ++ [']']
  | object members => ['\x7b'] ++ joined [','] (compactMembers members) ++ ['\x7d']

def compactItems : List Json → List (List Char)
  | [] => []
  | item :: items => compact item :: compactItems items

def compactMembers : List (String × Json) → List (List Char)
  | [] => []
  | (key, value) :: members => (quote key ++ [':'] ++ compact value) :: compactMembers members

end

/-- The beginning of a line at a level. -/
def newLine (level : Nat) : List Char := '\n' :: List.replicate (2 * level) ' '

/-- Lines between brackets, one level deeper than these; nothing stands between empty brackets. -/
def bracketed (level : Nat) (opening closing : Char) : List (List Char) → List Char
  | [] => [opening, closing]
  | parts =>
    [opening] ++ newLine (level + 1) ++ joined (',' :: newLine (level + 1)) parts ++
      newLine level ++ [closing]

mutual

def prettyAt (level : Nat) : Json → List Char
  | null => "null".toList
  | number n => (toString n).toList
  | string s => quote s
  | array items => bracketed level '[' ']' (prettyItems (level + 1) items)
  | object members => bracketed level '\x7b' '\x7d' (prettyMembers (level + 1) members)

def prettyItems (level : Nat) : List Json → List (List Char)
  | [] => []
  | item :: items => prettyAt level item :: prettyItems level items

def prettyMembers (level : Nat) : List (String × Json) → List (List Char)
  | [] => []
  | (key, value) :: members =>
    (quote key ++ ": ".toList ++ prettyAt level value) :: prettyMembers level members

end

def pretty (j : Json) : List Char := prettyAt 0 j

end Json
end SyntaxPaint
