/-!
# Shortest decimals

A double stands for all reals that round to it. It is written with the fewest digits that name one
of them, and of two such decimals with the nearer. All comparisons are made between naturals, over
a common denominator.
-/
namespace SyntaxPaint

/-- The value `digits * 10 ^ exponent`. -/
structure Decimal where
  digits : Nat
  exponent : Int
deriving DecidableEq, Repr

/-- A positive double: `mantissa * 2 ^ exponent`. -/
structure Binary where
  mantissa : Nat
  exponent : Int
  /-- The neighbour below is half as far away as the one above. -/
  narrowBelow : Bool
deriving DecidableEq, Repr

/-- The magnitude of a finite double, from its bits. -/
def Binary.ofBits (bits : UInt64) : Binary :=
  let e := ((bits >>> 52) &&& 0x7FF).toNat
  let f := (bits &&& 0xFFFFFFFFFFFFF).toNat
  if e = 0 then ⟨f, -1074, false⟩ else ⟨0x10000000000000 + f, (e : Int) - 1075, f == 0 && 1 < e⟩

/-- The power `base ^ k`, or one for a negative `k`: what a negative exponent divides is written as
what its opposite multiplies on the other side. -/
def power (base : Nat) (k : Int) : Nat := base.pow k.toNat

/-- How a decimal compares with `n * 2 ^ q`. -/
def Decimal.compareBinary (d : Decimal) (n : Nat) (q : Int) : Ordering :=
  compare (d.digits * power 10 d.exponent * power 2 (-q)) (n * power 2 q * power 10 (-d.exponent))

namespace Binary

/-- Does the decimal round to the double? The ends of its interval do if the mantissa is even. -/
def holds (x : Binary) (d : Decimal) : Bool :=
  let low := d.compareBinary (4 * x.mantissa - if x.narrowBelow then 1 else 2) (x.exponent - 2)
  let high := d.compareBinary (4 * x.mantissa + 2) (x.exponent - 2)
  let even := x.mantissa % 2 == 0
  (low == .gt || (even && low == .eq)) && (high == .lt || (even && high == .eq))

/-- The least `k` from a list with `x < 10 ^ k`. -/
def scale (x : Binary) : Int :=
  let candidates := (List.range 700).map fun (i : Nat) => (i : Int) - 350
  (candidates.find? fun k =>
    (Decimal.mk 1 k).compareBinary x.mantissa x.exponent == .gt).getD 0

/-- The greatest multiple of `10 ^ k` up to `x`. -/
def floorAt (x : Binary) (k : Int) : Decimal :=
  ⟨x.mantissa * power 2 x.exponent * power 10 (-k) / (power 10 k * power 2 (-x.exponent)), k⟩

/-- The multiple of `10 ^ k` nearest to `x` that rounds to it, if one does. -/
def nearestAt (x : Binary) (k : Int) : Option Decimal :=
  let below := x.floorAt k
  let above : Decimal := ⟨below.digits + 1, k⟩
  match x.holds below, x.holds above with
  | false, false => none
  | true, false => some below
  | false, true => some above
  | true, true =>
    match (Decimal.mk (2 * below.digits + 1) k).compareBinary (2 * x.mantissa) x.exponent with
    | .gt => some below
    | .lt => some above
    | .eq => some (if below.digits % 2 = 0 then below else above)

end Binary

/-- Moves trailing zeros of the digits into the exponent. -/
def Decimal.strip : Nat → Decimal → Decimal
  | 0, d => d
  | fuel + 1, d =>
    if d.digits ≠ 0 ∧ d.digits % 10 = 0 then strip fuel ⟨d.digits / 10, d.exponent + 1⟩ else d

/-- The shortest decimal of a positive double; seventeen digits are always enough. -/
def Binary.shortest (x : Binary) : Decimal :=
  let top := x.scale
  let grids := (List.range 17).map fun (i : Nat) => top - 1 - (i : Int)
  let found := (grids.findSome? x.nearestAt).getD (x.floorAt (top - 17))
  found.strip 20

/-- Positional from five places behind the point to sixteen in front of it, with at least one digit
on either side; beyond that with a signed exponent. -/
def Decimal.text (d : Decimal) : List Char :=
  let digits := (toString d.digits).toList
  let count : Int := digits.length
  let lead := d.exponent + count - 1
  if -5 ≤ lead ∧ lead < 16 then
    if 0 ≤ d.exponent then digits ++ List.replicate d.exponent.toNat '0' ++ ['.', '0']
    else if 0 ≤ lead then
      digits.take (lead + 1).toNat ++ ['.'] ++ digits.drop (lead + 1).toNat
    else ['0', '.'] ++ List.replicate (-lead - 1).toNat '0' ++ digits
  else
    let point := if digits.length = 1 then [] else ['.']
    digits.take 1 ++ point ++ digits.drop 1 ++ ['e', if lead < 0 then '-' else '+'] ++
      (toString lead.natAbs).toList

/-- A finite double in the fewest digits. -/
def doubleText (x : Float) : List Char :=
  let bits := x.toBits
  let sign := if bits >>> 63 = 1 then ['-'] else []
  let magnitude := Binary.ofBits (bits &&& 0x7FFFFFFFFFFFFFFF)
  sign ++ if magnitude.mantissa = 0 then ['0', '.', '0'] else magnitude.shortest.text

end SyntaxPaint
