import DeferredTx.Decimal.Rounded
import DeferredTx.Sql.Token

/-!
# Stored values

A value has a type of its own, whatever its column declares. The affinity of a column says into which
type a value is converted, if it can be without loss, when it is stored or compared.

* `Value`: a value; whole numbers have 64 bits.
* `Value.ofInt`: a whole number, as a fraction if it does not fit.
* `Value.number`: the number that a text begins with.
* `Affinity`, `Affinity.ofType`, `Affinity.apply`: affinities, and what they do to a value.
-/

namespace DeferredTx.Store

/-- A value. -/
inductive Value where
  | null
  | integer (n : Int)
  | real (x : Float)
  | text (s : String)
  | blob (bytes : List UInt8)
  deriving Repr

/-- The least and the greatest whole number of 64 bits. -/
def integerRange : Int × Int := (-9223372036854775808, 9223372036854775807)

/-- Whether a whole number fits into 64 bits. -/
def fits (n : Int) : Bool :=
  integerRange.1 ≤ n && n ≤ integerRange.2

/-- The value of decimal digits. -/
def digitsValue (cs : List Char) : Nat :=
  cs.foldl (fun n c => 10 * n + (c.toNat - '0'.toNat)) 0

/-- Powers of ten beyond which every double is infinite, and below whose inverse every one is
zero. -/
def greatestPower : Int := 400

/-- The double nearest to `digits · 10 ^ power`. -/
def nearestReal (digits : List Char) (power : Int) : Float :=
  let m := digitsValue digits
  let place := Int.ofNat (Nat.toDigits 10 m).length + power
  if m = 0 || place < -greatestPower then 0
  else if greatestPower < place then 1 / 0
  else if 0 ≤ power then Float.ofScientific m false power.toNat
  else Float.ofScientific m true (-power).toNat

namespace Value

/-- A whole number; one that does not fit into 64 bits becomes a fraction. -/
def ofInt (n : Int) : Value :=
  if fits n then integer n else real (Float.ofInt n)

/-- A double; what is not a number becomes null. -/
def ofReal (x : Float) : Value :=
  if x.isNaN then null else real x

/-- The value of a numeral behind its sign: whole if it is written with digits only. -/
def ofNumeral (negative : Bool) (cs : List Char) : Value :=
  let whole := cs.takeWhile Char.isDigit
  let rest := cs.drop whole.length
  if rest.isEmpty then ofInt (if negative then -Int.ofNat (digitsValue whole) else digitsValue whole)
  else
    let fraction := if rest.head? = some '.' then (rest.drop 1).takeWhile Char.isDigit else []
    let exponent := (rest.dropWhile fun c => c == '.' || c.isDigit).drop 1
    let size := digitsValue (exponent.filter Char.isDigit)
    let power := if exponent.head? = some '-' then -Int.ofNat size else Int.ofNat size
    let x := nearestReal (whole ++ fraction) (power - Int.ofNat fraction.length)
    real (if negative then -x else x)

/-- The value with its sign changed; zero is subtracted from, so a zero stays as it is. -/
def negate : Value → Value
  | integer n => ofInt (-n)
  | real x => ofReal (0 - x)
  | v => v

/-- The blanks around a number in a text. -/
def isNumberBlank (c : Char) : Bool :=
  c == ' ' || 9 ≤ c.toNat && c.toNat ≤ 13

/-- The signed number at the start of a text, blanks in front skipped, and what follows it. -/
def number? (cs : List Char) : Option (Value × List Char) :=
  let cs := cs.dropWhile isNumberBlank
  let negative := cs.head? = some '-'
  let cs := if negative || cs.head? = some '+' then cs.drop 1 else cs
  let digits := Sql.numeral cs
  if digits.any Char.isDigit then some (ofNumeral negative digits, cs.drop digits.length) else none

/-- A double as a whole number if it is one and fits. -/
def wholeOfReal (x : Float) : Value :=
  match Decimal.Binary.ofFloat? x with
  | none => real x
  | some b =>
    let n := Int.ofNat (b.num / b.den) * if b.negative then -1 else 1
    if b.num % b.den = 0 && integerRange.1 < n && n < integerRange.2 then integer n else real x

/-- The text of a value that is not null. -/
def toText : Value → String
  | null => ""
  | integer n => toString n
  | real x => Decimal.storedText x
  | text s => s
  | blob bytes => (String.fromUTF8? ⟨bytes.toArray⟩).getD ""

/-- The value as a number: that at the start of its text, or zero. -/
def number : Value → Value
  | text s => ((number? s.toList).map (·.1)).getD (integer 0)
  | blob bytes => ((number? (bytes.map fun b => Char.ofNat b.toNat)).map (·.1)).getD (integer 0)
  | v => v

/-- The value as a double. -/
def toReal (v : Value) : Float :=
  match v.number with
  | integer n => Float.ofInt n
  | real x => x
  | _ => 0

/-- Whether a value holds as a condition; null does neither hold nor fail. -/
def truth (v : Value) : Option Bool :=
  match v.number with
  | integer n => some (n != 0)
  | real x => some (x != 0)
  | _ => none

/-- The value of a condition. -/
def ofTruth : Option Bool → Value
  | none => null
  | some b => integer (if b then 1 else 0)

/-- The order of a whole number and a double. -/
def compareMixed (n : Int) (x : Float) : Ordering :=
  match Decimal.Binary.ofFloat? x with
  | none => if 0 < x then .lt else .gt
  | some b => compare (n * Int.ofNat b.den) (Int.ofNat b.num * if b.negative then -1 else 1)

/-- The order of two doubles. -/
def compareReal (x y : Float) : Ordering :=
  if x < y then .lt else if y < x then .gt else .eq

/-- The order of two lists of bytes. -/
def compareBytes : List UInt8 → List UInt8 → Ordering
  | [], [] => .eq
  | [], _ :: _ => .lt
  | _ :: _, [] => .gt
  | a :: as, b :: bs => if a = b then compareBytes as bs else compare a.toNat b.toNat

/-- The order of values: null, numbers by size, texts by their characters, bytes. -/
def order : Value → Value → Ordering
  | null, null => .eq
  | null, _ => .lt
  | _, null => .gt
  | integer a, integer b => compare a b
  | integer a, real y => compareMixed a y
  | real x, integer b => (compareMixed b x).swap
  | real x, real y => compareReal x y
  | integer _, _ | real _, _ => .lt
  | _, integer _ | _, real _ => .gt
  | text a, text b => compare a b
  | text _, blob _ => .lt
  | blob _, text _ => .gt
  | blob a, blob b => compareBytes a b

end Value

/-- Into which type values are converted. -/
inductive Affinity where
  /-- Values stay as they are. -/
  | none
  | text
  | numeric
  | integer
  | real
  deriving DecidableEq, Repr

namespace Affinity

/-- Whether a text has one of these words in it. -/
def mentions (type : String) (words : List String) : Bool :=
  words.any fun w => (Text.before? w.toList type.toList).isSome

/-- The affinity of a column by the words of its type, which are looked for in this order. -/
def ofType (type : Option String) : Affinity :=
  match type.map String.toLower with
  | .none => none
  | some type =>
    if mentions type ["int"] then integer
    else if mentions type ["char", "clob", "text"] then text
    else if mentions type ["blob"] then none
    else if mentions type ["real", "floa", "doub"] then real
    else numeric

/-- Whether numbers are preferred. -/
def isNumeric : Affinity → Bool
  | numeric | integer | real => true
  | none | text => false

/-- The number that a text is as a whole, blanks around it ignored. -/
def wholeNumber? (s : String) : Option Value :=
  match Value.number? s.toList with
  | some (v, rest) => if rest.all Value.isNumberBlank then some v else .none
  | .none => .none

/-- What becomes of a value. -/
def apply (a : Affinity) (v : Value) : Value :=
  match a, v with
  | none, v => v
  | text, .integer _ | text, .real _ => .text v.toText
  | text, v => v
  | real, .integer n => .real (Float.ofInt n)
  | real, .text s =>
    match wholeNumber? s with
    | some (.integer n) => .real (Float.ofInt n)
    | some n => n
    | .none => v
  | real, v => v
  | _, .real x => Value.wholeOfReal x
  | _, .text s =>
    match wholeNumber? s with
    | some (.real x) => Value.wholeOfReal x
    | some n => n
    | .none => v
  | _, v => v

end Affinity
end DeferredTx.Store
