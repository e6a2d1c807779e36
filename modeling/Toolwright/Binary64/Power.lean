import Toolwright.Binary64.Arithmetic
import Toolwright.Binary64.Decimal

/-!
# Powers of binary numbers

A power of a positive number is that of the machine. The other cases go by their rules: a power with
the exponent zero is one, a zero and the infinities keep their sign for odd exponents, and a
negative number has powers with integers alone.
-/

namespace Toolwright.Binary64

set_option autoImplicit false

def one : Binary64 := .finite false (2 ^ 52) (-52)

/-- The bits of a number: the sign, eleven bits of the exponent, and the mantissa without the
leading one of a normal number. -/
def toBits : Binary64 → Nat
  | .nan _ => 0x7FF8000000000000
  | .infinity negative => signBit negative + 0x7FF0000000000000
  | .finite negative m e =>
    if m < 2 ^ 52 then signBit negative + m
    else signBit negative + (e + 1075).toNat * 2 ^ 52 + (m - 2 ^ 52)
where
  signBit (negative : Bool) : Nat := if negative then 2 ^ 63 else 0

def ofBits (mark bits : Nat) : Binary64 :=
  let negative : Bool := 2 ^ 63 ≤ bits
  let exponent : Nat := bits / 2 ^ 52 % 2 ^ 11
  let m := bits % 2 ^ 52
  if exponent == 0x7FF then (if m == 0 then .infinity negative else .nan mark)
  else if exponent == 0 then (if m == 0 then zero negative else .finite negative m (-1074))
  else .finite negative (2 ^ 52 + m) ((exponent : Int) - 1075)

inductive PowerFault where
  | zeroDivided
  | tooLarge
  /-- The power is no real number. -/
  | notReal

def isOdd (x : Binary64) : Bool :=
  match x.toInt? with
  | some n => n % 2 != 0
  | none => false

def toMachine (x : Binary64) : Float := Float.ofBits x.toBits.toUInt64

def ofMachine (mark : Nat) (x : Float) : Binary64 := ofBits mark x.toBits.toNat

def machinePower (mark : Nat) (x y : Binary64) : Binary64 :=
  ofMachine mark (Float.pow x.toMachine y.toMachine)

/-- A power of which neither number is a not-a-number and the exponent is not zero. -/
def powerOf (mark : Nat) (x y : Binary64) : Except PowerFault Binary64 :=
  let signed (z : Binary64) : Binary64 := if x.isNegative && y.isOdd then z.neg else z
  match x, y with
  | x, .infinity negative =>
    if x.abs == one then .ok one
    else
      let isLarge := match x.abs with
        | .finite _ m e => (ratio m e).1 > (ratio m e).2
        | _ => true
      .ok (if isLarge != negative then .infinity false else zero false)
  | .infinity _, y => .ok (signed (if y.isNegative then zero false else .infinity false))
  | x, y =>
    if x.isZero then
      if y.isNegative then .error .zeroDivided else .ok (signed (zero false))
    else if x.isNegative && y.toInt?.isNone then .error .notReal
    else if x.abs == one then .ok (signed one)
    else
      match machinePower mark x.abs y with
      | .infinity _ => .error .tooLarge
      | z => .ok (signed z)

def power (mark : Nat) (x y : Binary64) : Except PowerFault Binary64 :=
  if y.isZero then .ok one
  else
    match x, y with
    | .nan _, _ => .ok (.nan mark)
    | x, .nan _ => .ok (if x == one then one else .nan mark)
    | x, y => powerOf mark x y

/-! ## Powers that are no real numbers -/

structure Complex where
  real : Binary64
  imaginary : Binary64

/-- A power of a negative number that is not real: that of the magnitude, turned by half a circle
for each one of the exponent. -/
def turnedPower (mark : Nat) (x y : Binary64) : Complex :=
  let size := Float.pow x.abs.toMachine y.toMachine
  let angle := 3.141592653589793 * y.toMachine
  ⟨ofMachine mark (size * Float.cos angle), ofMachine mark (size * Float.sin angle)⟩

namespace Complex

def isFinite (z : Complex) : Bool :=
  match z.real, z.imaginary with
  | .finite .., .finite .. => true
  | _, _ => false

def partText (x : Binary64) : List Char :=
  match x.text.toList.reverse with
  | '0' :: '.' :: rest => rest.reverse
  | cs => cs.reverse

def text (z : Complex) : String :=
  let imaginary := partText z.imaginary ++ ['j']
  match z.real with
  | .finite false 0 _ => String.ofList imaginary
  | x =>
    let plus : List Char := if z.imaginary.isNegative then [] else ['+']
    String.ofList ('(' :: (partText x ++ plus ++ imaginary ++ [')']))

end Complex

end Toolwright.Binary64
