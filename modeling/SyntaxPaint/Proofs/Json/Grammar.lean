import SyntaxPaint.Json.Reader
import SyntaxPaint.Proofs.Color.Spelling
/-!
# The grammar of JSON

Which texts spell a tree. Blanks may stand around every sign, number, word and string; the tree does
not tell where they stood, nor by which characters a string said what it says.
-/
namespace SyntaxPaint

/-- Blanks and nothing else. -/
def IsJsonBlanks (text : List Char) : Prop := ∀ c ∈ text, isJsonBlank c = true

/-- What may stand between the quotes of a string. -/
inductive JsonBody : List Char → Prop
  | nil : JsonBody []
  | plain {c : Char} {rest : List Char} (printable : 0x20 ≤ c.toNat) (quote : c ≠ '"')
      (backslash : c ≠ '\\') (tail : JsonBody rest) : JsonBody (c :: rest)
  | letter {c : Char} {rest : List Char} (known : c ∈ "\"\\/bfnrt".toList)
      (tail : JsonBody rest) : JsonBody ('\\' :: c :: rest)
  | code {a b c d : Char} {rest : List Char}
      (digits : ∀ x ∈ [a, b, c, d], x ∈ hexAlphabet) (tail : JsonBody rest) :
      JsonBody ('\\' :: 'u' :: a :: b :: c :: d :: rest)

/-- The string between quotes: what it says, which is nothing if it names half of a character. -/
def Quoted.ofBody (body : List Char) : Quoted :=
  ⟨(Quoted.contents (body ++ ['"'])).map String.ofList, none⟩

/-! ## Numbers -/

def IsDigits (digits : List Char) : Prop :=
  digits ≠ [] ∧ ∀ c ∈ digits, isAsciiDigit c = true

/-- Digits in front of a point: a zero stands alone. -/
def IsWhole (digits : List Char) : Prop :=
  IsDigits digits ∧ (digits.head? = some '0' → digits = ['0'])

inductive FractionSpells : Option (List Char) → List Char → Prop
  | none : FractionSpells none []
  | some {digits : List Char} (spelled : IsDigits digits) :
      FractionSpells (some digits) ('.' :: digits)

inductive ExponentSpells : Option (Bool × List Char) → List Char → Prop
  | none : ExponentSpells none []
  | some {mark : Char} {down : Bool} {sign digits : List Char} (marked : mark = 'e' ∨ mark = 'E')
      (signed : (down, sign) ∈ [(true, ['-']), (false, []), (false, ['+'])])
      (spelled : IsDigits digits) : ExponentSpells (some (down, digits)) (mark :: sign ++ digits)

/-- A number without its sign. -/
structure Numeral.Digits (n : Numeral) (text : List Char) : Prop where
  whole : IsWhole n.whole
  parts : ∃ point power, FractionSpells n.fraction point ∧ ExponentSpells n.exponent power ∧
    text = n.whole ++ point ++ power

def Numeral.Spells (n : Numeral) (text : List Char) : Prop :=
  ∃ digits, n.Digits digits ∧ text = if n.negative then '-' :: digits else digits

/-! ## Values -/

/-- A string with blanks around it. -/
def Quoted.Fills (q : Quoted) (text : List Char) : Prop :=
  ∃ before body behind, IsJsonBlanks before ∧ JsonBody body ∧ IsJsonBlanks behind ∧
    q = .ofBody body ∧ text = before ++ '"' :: body ++ '"' :: behind

mutual

/-- The text of a value, from its first character to its last. -/
inductive Tree.Spells : Tree → List Char → Prop
  | word (w : Word) : Tree.Spells (.word w) w.text.toList
  | number {n : Numeral} {text : List Char} (spelled : n.Spells text) :
      Tree.Spells (.number n) text
  | string {body : List Char} (spelled : JsonBody body) :
      Tree.Spells (.string (.ofBody body)) ('"' :: body ++ ['"'])
  | emptyArray {blanks : List Char} (blank : IsJsonBlanks blanks) :
      Tree.Spells (.array .closed) ('[' :: blanks ++ [']'])
  | array {items : Items} {text : List Char} (spelled : Items.Spells items text) :
      Tree.Spells (.array items) ('[' :: text ++ [']'])
  | emptyObject {blanks : List Char} (blank : IsJsonBlanks blanks) :
      Tree.Spells (.object .closed) ('\x7b' :: blanks ++ ['\x7d'])
  | object {members : Members} {text : List Char} (spelled : Members.Spells members text) :
      Tree.Spells (.object members) ('\x7b' :: text ++ ['\x7d'])

/-- The text of a value with blanks around it. -/
inductive Tree.Fills : Tree → List Char → Prop
  | padded {value : Tree} {before text behind : List Char} (blank : IsJsonBlanks before)
      (spelled : Tree.Spells value text) (blank' : IsJsonBlanks behind) :
      Tree.Fills value (before ++ text ++ behind)

/-- The text of items, of which there is one at least. -/
inductive Items.Spells : Items → List Char → Prop
  | last {value : Tree} {text : List Char} (item : Tree.Fills value text) :
      Items.Spells (.item value .closed) text
  | next {value : Tree} {rest : Items} {text more : List Char} (item : Tree.Fills value text)
      (tail : Items.Spells rest more) : Items.Spells (.item value rest) (text ++ ',' :: more)

/-- The text of members, of which there is one at least. -/
inductive Members.Spells : Members → List Char → Prop
  | last {key : Quoted} {value : Tree} {name text : List Char} (named : key.Fills name)
      (filled : Tree.Fills value text) :
      Members.Spells (.member key value .closed) (name ++ ':' :: text)
  | next {key : Quoted} {value : Tree} {rest : Members} {name text more : List Char}
      (named : key.Fills name) (filled : Tree.Fills value text) (tail : Members.Spells rest more) :
      Members.Spells (.member key value rest) (name ++ ':' :: (text ++ ',' :: more))

end

/-! ## Lists -/

/-- The items of a closed array. -/
def Items.ofList : List Tree → Items
  | [] => .closed
  | value :: rest => .item value (ofList rest)

/-- The members of a closed object. -/
def Members.ofList : List (Quoted × Tree) → Members
  | [] => .closed
  | (key, value) :: rest => .member key value (ofList rest)

end SyntaxPaint
