import Toolwright.Binary64.Basic

/-!
# Arithmetic of binary numbers

Products and quotients are the exact ones, rounded once. The remainder of a division has the sign of
the divisor, and its quotient is the floor of the exact one up to rounding.
-/

namespace Toolwright.Binary64

set_option autoImplicit false

def neg : Binary64 → Binary64
  | .nan mark => .nan mark
  | .infinity negative => .infinity !negative
  | .finite negative m e => .finite (!negative) m e

def isNegative : Binary64 → Bool
  | .nan _ => false
  | .infinity negative | .finite negative _ _ => negative

def abs (x : Binary64) : Binary64 := if x.isNegative then x.neg else x

/-- The difference, rounded; `mark` is given to one that is not a number. -/
def sub (mark : Nat) (x y : Binary64) : Binary64 := add mark x y.neg

def mul (mark : Nat) (x y : Binary64) : Binary64 :=
  let negative := x.isNegative != y.isNegative
  match x, y with
  | .nan _, _ | _, .nan _ => .nan mark
  | .finite _ m e, .finite _ n f =>
    let (p, d) := scale (m * n) 1 (e + f)
    ofRatio negative p d
  | x, y => if x.isZero || y.isZero then .nan mark else .infinity negative

/-- The quotient by a number that is not zero, rounded; `mark` is given to one that is not a number.
-/
def div (mark : Nat) (x y : Binary64) : Binary64 :=
  let negative := x.isNegative != y.isNegative
  match x, y with
  | .nan _, _ | _, .nan _ | .infinity _, .infinity _ => .nan mark
  | .infinity _, .finite .. => .infinity negative
  | .finite .., .infinity _ => zero negative
  | .finite _ m e, .finite _ n f =>
    let (p, d) := scale m n (e - f)
    ofRatio negative p d

def remainder (mark : Nat) : Binary64 → Binary64 → Binary64
  | .finite a m e, .finite b n f =>
    let left := (units a m e).tmod (units b n f)
    ofRatio a left.natAbs (2 ^ 1074)
  | .finite a m e, .infinity _ => .finite a m e
  | _, _ => .nan mark

def mod (mark : Nat) (x y : Binary64) : Binary64 :=
  match remainder mark x y with
  | .nan n => .nan n
  | r =>
    if r.isZero then zero y.isNegative
    else if r.isNegative != y.isNegative then add mark r y
    else r

def floor? : Binary64 → Option Int
  | .finite negative m e =>
    let (n, d) := ratio m e
    some ((if negative then -(n : Int) else n).fdiv d)
  | _ => none

def nearest? : Binary64 → Option Int
  | .finite negative m e =>
    let (n, d) := ratio m e
    some (if negative then -(roundDiv n d : Int) else roundDiv n d)
  | _ => none

def truncated? (x : Binary64) : Option Int :=
  if x.isNegative then x.neg.floor?.map (-·) else x.floor?

/-- The floor of a quotient: of what goes without a remainder into the first number. -/
def floorDiv (mark : Nat) (x y : Binary64) : Binary64 :=
  let r := remainder mark x y
  let whole := div mark (sub mark x r) y
  let whole :=
    if !r.isZero && r.isNegative != y.isNegative then sub mark whole (.finite false 1 0) else whole
  if whole.isZero then zero (x.isNegative != y.isNegative)
  else
    match whole.nearest? with
    | some n => ofRatio (n < 0) n.natAbs 1
    | none => whole

end Toolwright.Binary64
