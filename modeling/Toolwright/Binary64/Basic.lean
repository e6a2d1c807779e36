/-!
# Binary floating-point numbers

A finite number is a sign, a mantissa below 2^53 and an exponent of two, rounded from an exact ratio
to the nearest such number, a tie going to the even mantissa. A mark tells one not-a-number from
another, so that the same one can be recognised again although it equals nothing.
-/

namespace Toolwright

set_option autoImplicit false

-- Powers are those of the core library, whatever other algebra is imported.
attribute [instance (2000)] instPowNat
attribute [default_instance 20000] instPowNat

inductive Binary64 where
  | nan (mark : Nat)
  | infinity (negative : Bool)
  | finite (negative : Bool) (mantissa : Nat) (exponent : Int)
  deriving DecidableEq

namespace Binary64

def zero (negative : Bool) : Binary64 := .finite negative 0 0

def roundDiv (num den : Nat) : Nat :=
  let q := num / den
  let r := num % den
  if 2 * r > den || (2 * r == den && q % 2 == 1) then q + 1 else q

def scale (n d : Nat) (k : Int) : Nat × Nat :=
  if 0 ≤ k then (n * 2 ^ k.toNat, d) else (n, d * 2 ^ (-k).toNat)

/-- The exponent at which `n / d` has a mantissa of 53 bits, but no less than the least one. -/
def exponentFor (n d : Nat) : Int :=
  let e : Int := (n.log2 : Int) - (d.log2 : Int) - 53
  let scaled := scale n d (-e)
  max (if scaled.1 / scaled.2 < 2 ^ 53 then e else e + 1) (-1074)

def ofRatio (negative : Bool) (n d : Nat) : Binary64 :=
  if n == 0 then zero negative
  else
    let e := exponentFor n d
    let scaled := scale n d (-e)
    let m := roundDiv scaled.1 scaled.2
    let (m, e) := if m == 2 ^ 53 then (2 ^ 52, e + 1) else (m, e)
    if m == 0 then zero negative
    else if e > 971 then .infinity negative
    else .finite negative m e

def ratio (mantissa : Nat) (exponent : Int) : Nat × Nat := scale mantissa 1 exponent

def toInt? : Binary64 → Option Int
  | .finite negative m e =>
    let (n, d) := ratio m e
    if n % d == 0 then some (if negative then -(n / d : Nat) else (n / d : Nat)) else none
  | _ => none

/-- The number nearest to an integer; beyond the finite numbers there is none. -/
def ofInt? (n : Int) : Option Binary64 :=
  match ofRatio (n < 0) n.natAbs 1 with
  | .infinity _ => none
  | x => some x

def isZero : Binary64 → Bool
  | .finite _ 0 _ => true
  | _ => false

/-- Numerical equality: the zeros are equal and not-a-number equals nothing. -/
def equal : Binary64 → Binary64 → Bool
  | .nan _, _ => false
  | _, .nan _ => false
  | x, y => x == y || (x.isZero && y.isZero)

def units (negative : Bool) (mantissa : Nat) (exponent : Int) : Int :=
  let magnitude : Int := (mantissa * 2 ^ (exponent + 1074).toNat : Nat)
  if negative then -magnitude else magnitude

def key? : Binary64 → Option (Int × Int)
  | .nan _ => none
  | .infinity negative => some (if negative then -1 else 1, 0)
  | .finite negative m e => some (0, units negative m e)

def add (mark : Nat) : Binary64 → Binary64 → Binary64
  | .nan _, _ => .nan mark
  | _, .nan _ => .nan mark
  | .infinity a, .infinity b => if a == b then .infinity a else .nan mark
  | .infinity a, _ => .infinity a
  | _, .infinity b => .infinity b
  | .finite a m e, .finite b n f =>
    let sum := units a m e + units b n f
    if sum == 0 then zero (a && b && m == 0 && n == 0)
    else ofRatio (sum < 0) sum.natAbs (2 ^ 1074)

end Binary64

end Toolwright
