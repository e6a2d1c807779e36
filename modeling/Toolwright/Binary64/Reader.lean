import Toolwright.Binary64.Decimal
import Toolwright.Text.Case
import Toolwright.Text.Numeral

/-!
# Reading numbers

A number is written with an optional sign, digits with an optional point and an optional exponent of
ten, or as an infinity or not-a-number. Single underscores may stand between digits.
-/

namespace Toolwright.Binary64

set_option autoImplicit false

open Text

def readExponent? : List Char → Option Int
  | [] => some 0
  | c :: cs =>
    if c == 'e' || c == 'E' then
      let (negative, cs) := takeSign cs
      match takeDigits cs with
      | ([], _) => none
      | (ds, []) => some (signed negative (digitsValue ds))
      | _ => none
    else none

/-- The number nearest to `digits · 10^exponent`; exponents far from the range are not expanded. -/
def ofDecimal (negative : Bool) (digits : Nat) (exponent : Int) : Binary64 :=
  if digits == 0 then zero negative
  else if exponent + digitCount digits > 400 then .infinity negative
  else if exponent + digitCount digits < -400 then zero negative
  else
    let (n, d) := Decimal.ratio ⟨digits, exponent⟩
    ofRatio negative n d

def bare (cs : List Char) : List Char :=
  ((cs.dropWhile isNumeralBlank).reverse.dropWhile isNumeralBlank).reverse

def read? (mark : Nat) (s : String) : Option Binary64 :=
  let (negative, cs) := takeSign (bare s.toList)
  let word := lower cs
  if word == "inf".toList || word == "infinity".toList then some (.infinity negative)
  else if word == "nan".toList then some (.nan mark)
  else
    let (whole, rest) := takeDigits cs
    let (fraction, rest) := match rest with
      | '.' :: rest => takeDigits rest
      | rest => ([], rest)
    if whole.isEmpty && fraction.isEmpty then none
    else (readExponent? rest).map fun e =>
      ofDecimal negative (digitsValue (whole ++ fraction)) (e - fraction.length)

end Toolwright.Binary64
