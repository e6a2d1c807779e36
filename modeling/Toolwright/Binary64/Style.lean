import Toolwright.Binary64.Decimal

/-!
# Numbers in a style

A number is written with a set number of digits: behind the point in the fixed and the scientific
style, in all in the general one, which is scientific for numbers that are far from one. A tie of
the exact value goes to the even digit.
-/

namespace Toolwright.Binary64

set_option autoImplicit false

inductive Style where
  | scientific
  | fixed
  | general
  deriving DecidableEq

def leadingDigits (count mantissa : Nat) (exponent : Int) : List Char × Int :=
  if mantissa == 0 then (zeros count, 0)
  else
    let i := interval mantissa exponent
    let (n, d) := ratio mantissa exponent
    let ds := Nat.toDigits 10 (roundAt n d (i.magnitude - count))
    if ds.length > count then (ds.take count, i.magnitude) else (ds, i.magnitude - 1)

def mostDigits : Nat := 800

def withoutZeros (ds : List Char) : List Char := (ds.reverse.dropWhile (· == '0')).reverse

/-- A magnitude in a style with `precision` digits. The general style leaves out zeros at the end
and a point without digits unless the point is kept; `spared` digits of it are kept for what is
behind the point. -/
def writtenIn (style : Style) (precision : Nat) (keepsPoint : Bool) (spared mantissa : Nat)
    (exponent : Int) : Written :=
  match style with
  | .scientific =>
    let (ds, power) := leadingDigits (precision + 1) mantissa exponent
    Written.scientific keepsPoint ds power
  | .fixed =>
    let (n, d) := ratio mantissa exponent
    let ds := Nat.toDigits 10 (roundAt n d (-precision))
    let ds := zeros (precision + 1 - ds.length) ++ ds
    Written.positional keepsPoint ds (ds.length - precision - 1)
  | .general =>
    let count := max precision 1
    let (ds, power) :=
      leadingDigits (if keepsPoint then count else min count mostDigits) mantissa exponent
    let kept := if keepsPoint then ds else ds.take 1 ++ withoutZeros (ds.drop 1)
    if power < -4 || (count : Int) - spared ≤ power then Written.scientific keepsPoint kept power
    else
      let w := Written.positional keepsPoint kept power
      if spared == 0 then w else w.withZero

end Toolwright.Binary64
