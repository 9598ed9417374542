/-!
# Floating-point numbers as exact fractions

A finite double is a whole number times a power of two. Everything that is printed of it is computed
from that in whole numbers.

* `twoTo`, `tenTo`: powers.
* `Binary.ofFloat?`: the exact value of a finite double.
* `Binary.num`, `Binary.den`: its size as a fraction.
* `Binary.interval`: the numbers that are rounded to it.
-/

namespace DeferredTx.Decimal

/-- Two to the power `k`, and one for a negative `k`. -/
def twoTo (k : Int) : Nat :=
  Nat.pow 2 k.toNat

/-- Ten to the power `k`, and one for a negative `k`. -/
def tenTo (k : Int) : Nat :=
  Nat.pow 10 k.toNat

/-- A finite double, `± mantissa · 2 ^ exponent`. -/
structure Binary where
  negative : Bool
  mantissa : Nat
  exponent : Int
  /-- Whether the next double towards zero lies at half the distance of the one away from it. -/
  atPower : Bool
  deriving DecidableEq, Repr

namespace Binary

/-- The exact value of a double; `none` for an infinity and for what is not a number. -/
def ofFloat? (x : Float) : Option Binary :=
  let bits := x.toBits.toNat
  let negative := bits.testBit 63
  let biased := bits / twoTo 52 % twoTo 11
  let fraction := bits % twoTo 52
  if biased = 2047 then none
  else if biased = 0 then some ⟨negative, fraction, -1074, false⟩
  else some ⟨negative, fraction + twoTo 52, Int.ofNat biased - 1075, fraction == 0 && biased != 1⟩

/-- Four times the numerator of the size. -/
def num (b : Binary) : Nat :=
  4 * b.mantissa * twoTo b.exponent

/-- Four times the denominator of the size. -/
def den (b : Binary) : Nat :=
  4 * twoTo (-b.exponent)

/-- The numerators, over `den`, of the least and the greatest number that are rounded to the value;
both belong to the interval if the mantissa is even. -/
def interval (b : Binary) : Nat × Nat :=
  let unit := twoTo b.exponent
  ((4 * b.mantissa - if b.atPower then 1 else 2) * unit, (4 * b.mantissa + 2) * unit)

/-- A power of ten above the size. -/
def powerAbove (b : Binary) : Int :=
  (Int.ofNat b.mantissa.log2 + b.exponent) * 30103 / 100000 + 2

end Binary

/-- The decimal number `digits · 10 ^ exponent`. -/
structure Digits where
  digits : Nat
  exponent : Int
  deriving DecidableEq, Repr

namespace Digits

/-- The digits as text. -/
def text (d : Digits) : List Char :=
  Nat.toDigits 10 d.digits

/-- The number of digits in front of the decimal point. -/
def pointPlace (d : Digits) : Int :=
  Int.ofNat d.text.length + d.exponent

/-- The digits with a decimal point among or beside them, and always a digit on both sides. -/
def positional (d : Digits) : List Char :=
  let ds := d.text
  let place := d.pointPlace
  if 0 ≤ d.exponent then ds ++ List.replicate d.exponent.toNat '0' ++ ['.', '0']
  else if 0 < place then ds.take place.toNat ++ ['.'] ++ ds.drop place.toNat
  else ['0', '.'] ++ List.replicate (-place).toNat '0' ++ ds

end Digits
end DeferredTx.Decimal
