import SyntaxPaint.Json.Tree
import SyntaxPaint.Number.Hex
import SyntaxPaint.Text.Position
/-!
# Reading JSON texts

`Tree.read` follows a text and gives what it found with the text behind it.
-/
namespace SyntaxPaint

def isJsonBlank (c : Char) : Bool := c == ' ' || c == '\t' || c == '\n' || c == '\r'

def skipJsonBlanks (text : List Char) : List Char := text.dropWhile isJsonBlank

def isAsciiDigit (c : Char) : Bool := '0' ≤ c && c ≤ '9'

/-- The fault of meeting the rest of a text where something else was needed. -/
def faultAt : List Char → Fault
  | [] => .ended
  | _ => .malformed

/-- The fault of fewer than four hexadecimal digits: the text ends if four bytes are not left. -/
def shortEscapeFault (text : List Char) : Fault :=
  if byteLength text < 4 then .ended else .malformed

/-- The value of four hexadecimal digits. -/
def hexQuad? (a b c d : Char) : Option Nat :=
  match hexValue? a, hexValue? b, hexValue? c, hexValue? d with
  | some a, some b, some c, some d => some (((a * 16 + b) * 16 + c) * 16 + d)
  | _, _, _, _ => none

/-- The characters that a backslash and one letter stand for. -/
def simpleEscape? : Char → Option Char
  | '"' => some '"'
  | '\\' => some '\\'
  | '/' => some '/'
  | 'b' => some '\x08'
  | 'f' => some '\x0c'
  | 'n' => some '\n'
  | 'r' => some '\r'
  | 't' => some '\t'
  | _ => none

/-- The character of a surrogate pair. -/
def surrogatePair (high low : Nat) : Char :=
  Char.ofNat ((high - 0xD800) * 1024 + (low - 0xDC00) + 0x10000)

namespace Quoted

/-- The characters of a quoted text behind its opening quote. -/
def contents : List Char → Except Fault (List Char)
  | [] => .error .ended
  | '"' :: _ => .ok []
  | '\\' :: 'u' :: a :: b :: c :: d :: rest =>
    match hexQuad? a b c d with
    | none => .error .malformed
    | some n =>
      if n < 0xD800 ∨ 0xDFFF < n then (contents rest).map (Char.ofNat n :: ·)
      else if 0xDC00 ≤ n then .error .malformed
      else match rest with
        | '\\' :: 'u' :: a' :: b' :: c' :: d' :: rest' =>
          match hexQuad? a' b' c' d' with
          | none => .error .malformed
          | some low =>
            if 0xDC00 ≤ low ∧ low ≤ 0xDFFF then
              (contents rest').map (surrogatePair n low :: ·)
            else .error .malformed
        | '\\' :: 'u' :: short => .error (shortEscapeFault short)
        | '\\' :: rest' => .error (faultAt rest')
        | rest' => .error (faultAt rest')
  | '\\' :: 'u' :: short => .error (shortEscapeFault short)
  | '\\' :: c :: rest =>
    match simpleEscape? c with
    | some x => (contents rest).map (x :: ·)
    | none => .error .malformed
  | ['\\'] => .error .ended
  | c :: rest => if c.toNat < 0x20 then .error .malformed else (contents rest).map (c :: ·)

/-- The text behind a quoted one, of which only the opening quote is passed. -/
def behind : List Char → Except Fault (List Char)
  | [] => .error .ended
  | '"' :: rest => .ok rest
  | '\\' :: 'u' :: a :: b :: c :: d :: rest =>
    match hexQuad? a b c d with
    | none => .error .malformed
    | some _ => behind rest
  | '\\' :: 'u' :: short => .error (shortEscapeFault short)
  | '\\' :: c :: rest =>
    match simpleEscape? c with
    | some _ => behind rest
    | none => .error .malformed
  | ['\\'] => .error .ended
  | c :: rest => if c.toNat < 0x20 then .error .malformed else behind rest

/-- Reads a quoted text behind its opening quote. -/
def read (text : List Char) : Quoted × List Char :=
  let value := (contents text).map String.ofList
  match behind text with
  | .ok rest => (⟨value, none⟩, rest)
  | .error fault => (⟨value, some fault⟩, [])

end Quoted

namespace Numeral

/-- An exponent, if there is one. -/
def readExponent (text : List Char) : Except Fault (Option (Bool × List Char) × List Char) :=
  match text with
  | [] => .ok (none, [])
  | c :: rest =>
    if c = 'e' ∨ c = 'E' then
      let (negative, rest) := match rest with
        | '-' :: rest => (true, rest)
        | '+' :: rest => (false, rest)
        | rest => (false, rest)
      match rest.takeWhile isAsciiDigit with
      | [] => .error (faultAt rest)
      | digits => .ok (some (negative, digits), rest.drop digits.length)
    else .ok (none, text)

/-- A fraction, if there is one. -/
def readFraction (text : List Char) : Except Fault (Option (List Char) × List Char) :=
  match text with
  | '.' :: rest =>
    match rest.takeWhile isAsciiDigit with
    | [] => .error (faultAt rest)
    | digits => .ok (some digits, rest.drop digits.length)
  | _ => .ok (none, text)

/-- The digits in front of a point: a zero stands alone. -/
def readWhole (text : List Char) : Except Fault (List Char × List Char) :=
  match text.takeWhile isAsciiDigit with
  | [] => .error (faultAt text)
  | '0' :: _ :: _ => .error .malformed
  | digits => .ok (digits, text.drop digits.length)

/-- Reads a number behind its sign. -/
def read (negative : Bool) (text : List Char) : Except Fault (Numeral × List Char) := do
  let (whole, text) ← readWhole text
  let (fraction, text) ← readFraction text
  let (exponent, text) ← readExponent text
  return (⟨negative, whole, fraction, exponent⟩, text)

end Numeral

/-- Passes over the letters of a word. -/
def passLetters : List Char → List Char → Except Fault (List Char)
  | [], text => .ok text
  | _ :: _, [] => .error .ended
  | w :: ws, c :: text => if c = w then passLetters ws text else .error .malformed

def Word.ofLetter? : Char → Option Word
  | 'n' => some .null
  | 't' => some .true
  | 'f' => some .false
  | _ => none

namespace Tree

def ofNumeral : Except Fault (Numeral × List Char) → Tree × List Char
  | .ok (n, rest) => (number n, rest)
  | .error fault => (brokenNumber fault, [])

/-- A value that is no array or object. -/
def readScalar (c : Char) (text : List Char) : Tree × List Char :=
  if c = '"' then
    let (q, rest) := Quoted.read text
    (string q, rest)
  else if c = '-' then ofNumeral (Numeral.read true text)
  else if isAsciiDigit c then ofNumeral (Numeral.read false (c :: text))
  else match Word.ofLetter? c with
    | some w =>
      match passLetters w.text.toList.tail text with
      | .ok rest => (word w, rest)
      | .error fault => (brokenWord w fault, [])
    | none => (absent .malformed, [])

/-- What stands behind an item or a member: its bracket, a comma with the text that it announces,
or a fault. -/
inductive Behind where
  | close (rest : List Char)
  | comma (rest : List Char)
  | fault (f : Fault) (comma : Bool)

def Behind.of (bracket : Char) (text : List Char) : Behind :=
  match skipJsonBlanks text with
  | [] => .fault .ended false
  | c :: rest =>
    if c = bracket then .close rest
    else if c = ',' then
      match skipJsonBlanks rest with
      | [] => .fault .ended true
      | d :: rest => if d = bracket then .fault .malformed true else .comma (d :: rest)
    else .fault .malformed false

mutual

/-- Reads a value. `fuel` bounds how deeply the calls nest; a character opens two of them at
most. -/
def readValue : Nat → List Char → Tree × List Char
  | 0, text => (absent (faultAt text), [])
  | fuel + 1, text =>
    match skipJsonBlanks text with
    | [] => (absent .ended, [])
    | '[' :: rest =>
      match skipJsonBlanks rest with
      | ']' :: rest => (array .closed, rest)
      | [] => (array (.cut .ended false), [])
      | rest =>
        let (items, rest) := readItems fuel rest
        (array items, rest)
    | '\x7b' :: rest =>
      match skipJsonBlanks rest with
      | '\x7d' :: rest => (object .closed, rest)
      | [] => (object (.cut .ended false), [])
      | '"' :: rest =>
        let (members, rest) := readMembers fuel rest
        (object members, rest)
      | _ => (object (.cut .malformed false), [])
    | c :: rest => readScalar c rest

/-- Reads the items of an array from the first character of one. -/
def readItems : Nat → List Char → Items × List Char
  | 0, _ => (.cut .ended true, [])
  | fuel + 1, text =>
    let (value, rest) := readValue fuel text
    match Behind.of ']' rest with
    | .close rest => (.item value .closed, rest)
    | .comma rest =>
      let (items, rest) := readItems fuel rest
      (.item value items, rest)
    | .fault f comma => (.item value (.cut f comma), [])

/-- Reads the members of an object from behind the opening quote of a key. -/
def readMembers : Nat → List Char → Members × List Char
  | 0, _ => (.cut .ended true, [])
  | fuel + 1, text =>
    let (key, rest) := Quoted.read text
    match skipJsonBlanks rest with
    | ':' :: rest =>
      let (value, rest) := readValue fuel rest
      match Behind.of '\x7d' rest with
      | .close rest => (.member key value .closed, rest)
      | .comma ('"' :: rest) =>
        let (members, rest) := readMembers fuel rest
        (.member key value members, rest)
      | .comma _ => (.member key value (.cut .malformed true), [])
      | .fault f comma => (.member key value (.cut f comma), [])
    | rest => (.member key (absent (faultAt rest)) (.cut (faultAt rest) false), [])

end

/-- Reads a value from the front of a text. -/
def read (text : List Char) : Tree × List Char := readValue (2 * text.length + 2) text

end Tree
end SyntaxPaint
