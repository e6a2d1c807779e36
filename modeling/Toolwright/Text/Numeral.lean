import Toolwright.Text.Blank
import Toolwright.Text.Digit

/-!
# Numerals

Digits with single underscores between them, and the integer numeral: white space, a sign, digits
and white space. A numeral of a base that is a power of two may start with a mark of it.
-/

namespace Toolwright.Text

set_option autoImplicit false

/-- The digits at the head of a text, with single underscores between them, and the rest. -/
def takeDigitsBy (value? : Char → Option Nat) : List Char → List Nat × List Char
  | [] => ([], [])
  | c :: cs =>
    match value? c with
    | none => ([], c :: cs)
    | some d =>
      match cs with
      | '_' :: c' :: cs' =>
        if (value? c').isSome then
          let (ds, rest) := takeDigitsBy value? (c' :: cs')
          (d :: ds, rest)
        else ([d], '_' :: c' :: cs')
      | cs =>
        let (ds, rest) := takeDigitsBy value? cs
        (d :: ds, rest)

def takeDigits (cs : List Char) : List Nat × List Char := takeDigitsBy digitValue? cs

def digitsValueIn (base : Nat) (ds : List Nat) : Nat := ds.foldl (fun n d => base * n + d) 0

def digitsValue (ds : List Nat) : Nat := digitsValueIn 10 ds

def takeSign : List Char → Bool × List Char
  | '-' :: cs => (true, cs)
  | '+' :: cs => (false, cs)
  | cs => (false, cs)

def signed (negative : Bool) (n : Nat) : Int := if negative then -n else n

def isNumeralBlank (c : Char) : Bool := isBlank c && !(0x1C ≤ c.toNat && c.toNat ≤ 0x1F)

/-! ## Bases -/

def markedBase? (c : Char) : Option Nat :=
  match c.toLower with
  | 'x' => some 16
  | 'o' => some 8
  | 'b' => some 2
  | _ => none

/-- What a text writes: an integer, one with too many digits, or none. -/
inductive NumeralReading where
  | number (n : Int)
  | tooLong (digits : Nat)
  | none

/-- The base of a numeral and its digits. The base zero stands for the one that is marked, or else
for ten, where the digits must not start with a zero unless all of them are zeros. -/
def takeBase (base : Nat) (cs : List Char) : Nat × List Char :=
  match cs with
  | '0' :: c :: rest =>
    match markedBase? c with
    | some marked =>
      if base == 0 || base == marked then
        (marked, if rest.head? == some '_' then rest.drop 1 else rest)
      else (base, cs)
    | none => (base, cs)
  | cs => (base, cs)

def digitIn? (base : Nat) (c : Char) : Option Nat :=
  ((digitValue? c).orElse fun _ => letterValue? c).filter (· < base)

def readNumeral (base : Nat) (cs : List Char) : NumeralReading :=
  let (negative, cs) := takeSign (cs.dropWhile isNumeralBlank)
  let (found, cs) := takeBase base cs
  let inBase := if found == 0 then 10 else found
  match takeDigitsBy (digitIn? inBase) cs with
  | ([], _) => .none
  | (ds, rest) =>
    let n := digitsValueIn inBase ds
    if !rest.all isNumeralBlank || (found == 0 && ds.head? == some 0 && n != 0) then .none
    else if ds.length > 4300 && 2 ^ inBase.log2 != inBase then .tooLong ds.length
    else .number (signed negative n)

end Toolwright.Text
