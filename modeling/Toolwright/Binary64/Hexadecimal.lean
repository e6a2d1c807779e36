import Toolwright.Binary64.Decimal
import Toolwright.Text.Digit
import Toolwright.Text.Quoted

/-!
# Hexadecimal text of binary numbers

The text of a number is exact: a digit, thirteen hexadecimal ones behind the point and a power of
two. What is read may have any number of digits and is rounded.
-/

namespace Toolwright.Binary64

set_option autoImplicit false

def hexText : Binary64 → String
  | .finite negative 0 _ => String.ofList (sign negative ++ "0x0.0p+0".toList)
  | .finite negative m e =>
    let isNormal := 2 ^ 52 ≤ m
    let power : Int := if isNormal then e + 52 else -1022
    String.ofList (sign negative ++ ['0', 'x', if isNormal then '1' else '0', '.'] ++
      Text.hexDigits 13 m ++ ['p', if power < 0 then '-' else '+'] ++ Nat.toDigits 10 power.natAbs)
  | x => x.text

/-- What a text writes: a number, one that is too large, or none. -/
inductive HexReading where
  | number (x : Binary64)
  | tooLarge
  | none

def ofPowerOfTwo (negative : Bool) (digits : Nat) (power : Int) : HexReading :=
  if digits == 0 then .number (zero negative)
  else if power + digits.log2 > 1100 then .tooLarge
  else if power + digits.log2 < -1200 then .number (zero negative)
  else
    let (n, d) := scale digits 1 power
    match ofRatio negative n d with
    | .infinity _ => .tooLarge
    | x => .number x

def readPower? : List Char → Option Int
  | [] => some 0
  | c :: cs =>
    if c != 'p' && c != 'P' then none
    else
      let (negative, cs) := takeSign cs
      if cs.isEmpty || !cs.all Char.isDigit then none
      else
        let n : Int := cs.foldl (fun n c => 10 * n + (c.toNat - 48)) 0
        some (if negative then -n else n)
where
  takeSign : List Char → Bool × List Char
    | '-' :: cs => (true, cs)
    | '+' :: cs => (false, cs)
    | cs => (false, cs)

def trimAscii (cs : List Char) : List Char :=
  let isBlank (c : Char) : Bool := c == ' ' || ('\t' ≤ c && c ≤ '\r')
  ((cs.dropWhile isBlank).reverse.dropWhile isBlank).reverse

def readHex (mark : Nat) (s : String) : HexReading :=
  let (negative, cs) := readPower?.takeSign (trimAscii s.toList)
  let word := String.ofList (cs.map Char.toLower)
  if word == "inf" || word == "infinity" then .number (.infinity negative)
  else if word == "nan" then .number (.nan mark)
  else
    let cs := match cs with
      | '0' :: x :: rest => if x == 'x' || x == 'X' then rest else cs
      | cs => cs
    let isHex (c : Char) : Bool := (Text.hexValue? c).isSome
    let whole := cs.takeWhile isHex
    let (fraction, rest) := match cs.dropWhile isHex with
      | '.' :: rest => (rest.takeWhile isHex, rest.dropWhile isHex)
      | rest => ([], rest)
    let digits := (whole ++ fraction).foldl (fun n c => 16 * n + (Text.hexValue? c).getD 0) 0
    match (whole ++ fraction).isEmpty, readPower? rest with
    | false, some power => ofPowerOfTwo negative digits (power - 4 * fraction.length)
    | _, _ => .none

end Toolwright.Binary64
