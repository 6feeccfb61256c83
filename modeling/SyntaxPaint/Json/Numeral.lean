import SyntaxPaint.Json.Tree
import SyntaxPaint.Number.Shortest
/-!
# The values of numerals

A numeral without fraction and exponent that fits a 64-bit word is an integer. All others are
doubles: the digits that fit a 64-bit word are scaled by the power of ten of their place, and the
digits behind them count only as places.
-/
namespace SyntaxPaint

inductive NumberValue where
  | integer (i : Int)
  | double (x : Float)

namespace Numeral

def digitValue (c : Char) : Nat := c.toNat - 48

/-- The number that some digits spell. -/
def spelled (digits : List Char) : Nat := digits.foldl (fun n c => 10 * n + digitValue c) 0

/-- Digits gathered behind `n` as long as they fit a word, and those that do not. -/
def gather (n : Nat) : List Char → Nat × List Char
  | [] => (n, [])
  | c :: cs =>
    if 10 * n + digitValue c < UInt64.size then gather (10 * n + digitValue c) cs else (n, c :: cs)

/-- The double nearest to a power of ten. -/
def powerOfTen (k : Nat) : Float := Float.ofScientific 1 false k

/-- A word times a power of ten, rounded at each step; nothing if it is out of range. -/
def scaled (n : Nat) (k : Int) : Option Float :=
  let x := n.toUInt64.toFloat
  if n = 0 then some 0
  else if 0 ≤ k then
    if 308 < k then none
    else
      let y := x * powerOfTen k.toNat
      if y.isInf then none else some y
  else if -308 ≤ k then some (x / powerOfTen (-k).toNat)
  else if -616 ≤ k then some (x / powerOfTen 308 / powerOfTen (-k - 308).toNat)
  else some 0

/-- The magnitude as a double; nothing if it is out of range. -/
def magnitude (n : Numeral) : Option Float :=
  let (word, dropped) := gather 0 n.whole
  let (word, tail) := gather word (n.fraction.getD [])
  let places : Int := dropped.length - ((n.fraction.getD []).length - tail.length : Nat)
  match n.exponent with
  | none => scaled word places
  | some (down, digits) =>
    let e := spelled digits
    if 0x80000000 ≤ e then (if word = 0 ∨ down then some 0 else none)
    else scaled word (if down then places - e else places + e)

/-- The value of a numeral; nothing if it is out of range. -/
def value? (n : Numeral) : Option NumberValue :=
  let whole := spelled n.whole
  let isWord := if n.negative then 0 < whole ∧ 2 * whole ≤ UInt64.size else whole < UInt64.size
  if n.fraction.isNone ∧ n.exponent.isNone ∧ isWord then
    some (.integer (if n.negative then -whole else whole))
  else n.magnitude.map fun x => .double (if n.negative then -x else x)

end Numeral
end SyntaxPaint
