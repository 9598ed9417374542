import DeferredTx.Decimal.Binary

/-!
# The shortest decimal form

The shortest decimal form of a double has the fewest digits that read back as it, and among those the
nearest to it.

* `shortest`: the digits, found on the coarsest decimal grid that has a point in the interval of the
  numbers rounded to the value.
* `jsonNumber?`: the form as a JSON number.
-/

namespace DeferredTx.Decimal

/-- The point of the grid of multiples of `10 ^ k` that lies in the interval of `b`; of two, the
nearer one. -/
def gridPoint? (b : Binary) (k : Int) : Option Digits :=
  let up := tenTo (-k)
  let unit := b.den * tenTo k
  let value := b.num * up
  let low := b.interval.1 * up
  let high := b.interval.2 * up
  let inside (n : Nat) : Bool :=
    if b.mantissa % 2 = 0 then low ≤ n * unit && n * unit ≤ high
    else low < n * unit && n * unit < high
  let below := value / unit
  let fits := [below, below + 1].filter inside
  match fits with
  | [] => none
  | [n] => some ⟨n, k⟩
  | _ =>
    let under := value - below * unit
    let above := (below + 1) * unit - value
    if under < above then some ⟨below, k⟩
    else if above < under then some ⟨below + 1, k⟩
    else some ⟨if below % 2 = 0 then below else below + 1, k⟩

/-- The shortest decimal form of a size other than zero. -/
def shortest (b : Binary) : Digits :=
  ((List.range 24).findSome? fun i => gridPoint? b (b.powerAbove - Int.ofNat i)).getD ⟨0, 0⟩

/-- Powers of ten up to which JSON numbers are written without an exponent, and down to which. -/
def jsonPlaces : Int × Int := (-4, 16)

/-- The digits as a JSON number: without an exponent if the decimal point stands near them. -/
def Digits.json (d : Digits) : List Char :=
  let place := d.pointPlace
  if jsonPlaces.1 ≤ place && place ≤ jsonPlaces.2 then d.positional
  else
    let power := (toString (place - 1)).toList
    match d.text with
    | [] => []
    | [c] => [c, 'e'] ++ power
    | c :: r => [c, '.'] ++ r ++ ['e'] ++ power

/-- The shortest JSON number that reads back as `x`; `none` if `x` is not finite. -/
def jsonNumber? (x : Float) : Option String :=
  (Binary.ofFloat? x).map fun b =>
    let size := if b.mantissa = 0 then ['0', '.', '0'] else (shortest b).json
    String.ofList (if b.negative then '-' :: size else size)

end DeferredTx.Decimal
