import Toolwright.Binary64.Basic

/-!
# Decimal text of binary numbers

The text of a number has the fewest digits that read back as the number and, of those, the nearest.
It is positional for decimal exponents from -4 up to 15 and has an exponent of at least two digits
beyond.
-/

namespace Toolwright.Binary64

set_option autoImplicit false

/-- The interval of the magnitudes that round to a number, over the denominator of its value: the
lower end, the value, the upper end, the denominator, and whether the ends belong to it. -/
structure Interval where
  low : Nat
  value : Nat
  high : Nat
  den : Nat
  closed : Bool

def interval (mantissa : Nat) (exponent : Int) : Interval :=
  let (unit, den) := scale 1 4 exponent
  let narrow := mantissa == 2 ^ 52 && exponent > -1074
  { low := (4 * mantissa - (if narrow then 1 else 2)) * unit
    value := 4 * mantissa * unit
    high := (4 * mantissa + 2) * unit
    den
    closed := mantissa % 2 == 0 }

structure Decimal where
  digits : Nat
  exponent : Int
  deriving DecidableEq

def Decimal.ratio (d : Decimal) : Nat × Nat :=
  if 0 ≤ d.exponent then (d.digits * 10 ^ d.exponent.toNat, 1)
  else (d.digits, 10 ^ (-d.exponent).toNat)

def Interval.contains (i : Interval) (d : Decimal) : Bool :=
  let (n, k) := d.ratio
  if i.closed then i.low * k ≤ n * i.den && n * i.den ≤ i.high * k
  else i.low * k < n * i.den && n * i.den < i.high * k

def digitCount (n : Nat) : Nat := (Nat.toDigits 10 n).length

def Interval.magnitude (i : Interval) : Int :=
  if i.den ≤ i.value then digitCount (i.value / i.den)
  else 1 - (digitCount (i.den / i.value) : Int)

def Interval.nearer (i : Interval) (below above : Decimal) : Decimal :=
  let (a, k) := below.ratio
  let (b, l) := above.ratio
  let left := (i.value * k - a * i.den) * l
  let right := (b * i.den - i.value * l) * k
  if left < right || (left == right && below.digits % 2 == 0) then below else above

def Interval.floorAt (i : Interval) (exponent : Int) : Nat :=
  if 0 ≤ exponent then i.value / (i.den * 10 ^ exponent.toNat)
  else i.value * 10 ^ (-exponent).toNat / i.den

def Interval.atDigits? (i : Interval) (count : Nat) : Option Decimal :=
  let e := i.magnitude - count
  let below : Decimal := ⟨i.floorAt e, e⟩
  let above : Decimal := ⟨i.floorAt e + 1, e⟩
  match i.contains below, i.contains above with
  | true, true => some (i.nearer below above)
  | true, false => some below
  | false, true => some above
  | false, false => none

def Decimal.strip : Nat → Decimal → Decimal
  | 0, d => d
  | fuel + 1, d =>
    if d.digits % 10 == 0 && d.digits != 0 then strip fuel ⟨d.digits / 10, d.exponent + 1⟩ else d

def shortest (mantissa : Nat) (exponent : Int) : Decimal :=
  let i := interval mantissa exponent
  match (List.range 17).findSome? fun n => i.atDigits? (n + 1) with
  | some d => d.strip 17
  | none => ⟨0, 0⟩

def zeros (n : Nat) : List Char := List.replicate n '0'

/-- A number as it is written: what is in front of the point, what is behind it if there is a point,
and the exponent of ten if there is one. -/
structure Written where
  whole : List Char
  fraction : Option (List Char)
  exponent : Option Int

namespace Written

def behindPoint (keepsPoint : Bool) (ds : List Char) : Option (List Char) :=
  if ds.isEmpty && !keepsPoint then none else some ds

/-- Digits of which the first one stands for units of `10^power`, with that power behind them. -/
def scientific (keepsPoint : Bool) (ds : List Char) (power : Int) : Written :=
  ⟨ds.take 1, behindPoint keepsPoint (ds.drop 1), some power⟩

/-- Digits of which the first one stands for units of `10^power`, with the point in its place. -/
def positional (keepsPoint : Bool) (ds : List Char) (power : Int) : Written :=
  if power < 0 then ⟨['0'], some (zeros (-power - 1).toNat ++ ds), none⟩
  else
    let count := power.toNat + 1
    ⟨ds.take count ++ zeros (count - ds.length), behindPoint keepsPoint (ds.drop count), none⟩

def withZero (w : Written) : Written :=
  match w.fraction, w.exponent with
  | none, none | some [], none => { w with fraction := some ['0'] }
  | _, _ => w

def tail (mark : Char) (w : Written) : List Char :=
  (w.fraction.map ('.' :: ·)).getD [] ++
    (match w.exponent with
      | none => []
      | some power =>
        let ds := Nat.toDigits 10 power.natAbs
        [mark, if power < 0 then '-' else '+'] ++ zeros (2 - ds.length) ++ ds)

end Written

/-- A decimal with at least one digit: positional for exponents from -4 up to 15, and with an
exponent beyond. -/
def Decimal.written (keepsPoint : Bool) (d : Decimal) : Written :=
  let ds := Nat.toDigits 10 d.digits
  let power : Int := ds.length + d.exponent - 1
  if -4 ≤ power && power < 16 then (Written.positional keepsPoint ds power).withZero
  else Written.scientific keepsPoint ds power

def Decimal.chars (d : Decimal) : List Char :=
  let w := d.written false
  w.whole ++ w.tail 'e'

def sign (negative : Bool) : List Char := if negative then ['-'] else []

def text : Binary64 → String
  | .nan _ => "nan"
  | .infinity negative => if negative then "-inf" else "inf"
  | .finite negative 0 _ => String.ofList (sign negative ++ ['0', '.', '0'])
  | .finite negative m e => String.ofList (sign negative ++ (shortest m e).chars)

def roundAt (n d : Nat) (exponent : Int) : Nat :=
  if 0 ≤ exponent then roundDiv n (d * 10 ^ exponent.toNat)
  else roundDiv (n * 10 ^ (-exponent).toNat) d

/-- Rounded to `places` decimal places, a tie of the exact value going to the even digit. Places
below zero are those in front of the point. -/
def roundTo (places : Int) : Binary64 → Binary64
  | .finite negative m e =>
    let (n, d) := ratio m e
    let (n, d) := Decimal.ratio ⟨roundAt n d (-places), -places⟩
    ofRatio negative n d
  | x => x

end Toolwright.Binary64
