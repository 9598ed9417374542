import DeferredTx.Decimal.Binary

/-!
# Rounded decimal forms

* `rounded`: a size rounded to a number of significant digits, halves up.
* `storedText`: the form in which the in-memory store writes numbers with a fraction: fifteen
  significant digits at most, always with a point and a digit behind it.
-/

namespace DeferredTx.Decimal

/-- The least power of ten above a size other than zero, as its exponent. -/
def Binary.leastPowerAbove (b : Binary) : Int :=
  let isBelow (k : Int) : Bool := b.num * tenTo (-k) < b.den * tenTo k
  let steps := (List.range 24).takeWhile fun i => isBelow (b.powerAbove - Int.ofNat i)
  b.powerAbove - Int.ofNat (steps.length - 1)

/-- The digits without zeros at the end. -/
def Digits.strip : Nat → Digits → Digits
  | 0, d => d
  | n + 1, d => if d.digits % 10 = 0 then strip n ⟨d.digits / 10, d.exponent + 1⟩ else d

/-- A size other than zero rounded to `places` significant digits, halves up. -/
def rounded (places : Nat) (b : Binary) : Digits :=
  let k := b.leastPowerAbove - Int.ofNat places
  let unit := b.den * tenTo k
  let value := b.num * tenTo (-k)
  Digits.strip places ⟨(2 * value + unit) / (2 * unit), k⟩

/-- The digits with a point behind the first one, and an exponent of two digits at least. -/
def Digits.scientific (d : Digits) : List Char :=
  let power := d.pointPlace - 1
  let size := Nat.toDigits 10 power.natAbs
  let mantissa := match d.text with
    | [] => []
    | [c] => [c, '.', '0']
    | c :: r => [c, '.'] ++ r
  mantissa ++ ['e', if power < 0 then '-' else '+']
    ++ (if size.length < 2 then '0' :: size else size)

/-- Significant digits that the store writes. -/
def storedPlaces : Nat := 15

/-- A double as the store writes it. -/
def storedText (x : Float) : String :=
  match Binary.ofFloat? x with
  | none => if 0 < x then "Inf" else "-Inf"
  | some b =>
    let size :=
      if b.mantissa = 0 then ['0', '.', '0']
      else
        let d := rounded storedPlaces b
        if -3 ≤ d.pointPlace && d.pointPlace ≤ storedPlaces then d.positional else d.scientific
    String.ofList (if b.negative then '-' :: size else size)

end DeferredTx.Decimal
