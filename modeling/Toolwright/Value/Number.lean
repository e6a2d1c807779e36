import Toolwright.Binary64.Hexadecimal
import Toolwright.Binary64.Power
import Toolwright.Format.Field
import Toolwright.Text.ByteOrder
import Toolwright.Value.Effect
import Toolwright.Value.Hash
import Toolwright.Value.Printed

/-!
# Operations on numbers

What the named operations of integers and floating-point numbers give. Each operator has a form that
takes its operands the other way round.
-/

namespace Toolwright.Value

set_option autoImplicit false

inductive Operator where
  | sub
  | mul
  | floorDiv
  | mod
  | divMod
  | trueDiv
  | pow
  | both
  | either
  | oneOf
  | shiftLeft
  | shiftRight
  deriving DecidableEq

def Operator.ofName? : String → Option Operator
  | "__sub__" => some .sub
  | "__mul__" => some .mul
  | "__floordiv__" => some .floorDiv
  | "__mod__" => some .mod
  | "__divmod__" => some .divMod
  | "__truediv__" => some .trueDiv
  | "__pow__" => some .pow
  | "__and__" => some .both
  | "__or__" => some .either
  | "__xor__" => some .oneOf
  | "__lshift__" => some .shiftLeft
  | "__rshift__" => some .shiftRight
  | _ => none

/-- The operator behind a name, and whether it takes its operands the other way round. -/
def operator? (name : String) : Option (Operator × Bool) :=
  match Operator.ofName? name, name.toList with
  | some op, _ => some (op, false)
  | none, '_' :: '_' :: 'r' :: rest =>
    (Operator.ofName? (String.ofList ('_' :: '_' :: rest))).map (·, true)
  | none, _ => none

/-! ## Integers -/

/-- An operation on the binary digits of two integers, of which the negative ones have endless ones
in front. -/
def bitwise (op : Nat → Nat → Nat) (a b : Int) : Int :=
  let size : Nat := 2 ^ (max a.natAbs.log2 b.natAbs.log2 + 2)
  ((op (a % size).toNat (b % size).toNat : Nat) : Int).bmod size

def ofComplex (z : Binary64.Complex) : Outcome :=
  if z.isFinite then gives (.opaqueRef (.plain "complex" z.text))
  else .error (.integerTooLarge "complex exponentiation")

def floatPower (mark : Nat) (x y : Binary64) : Outcome :=
  match x.power mark y with
  | .ok z => gives (.float z)
  | .error .zeroDivided => .error (.divisionByZero "0.0 cannot be raised to a negative power")
  | .error .tooLarge => .error (.integerTooLarge "(34, 'Numerical result out of range')")
  | .error .notReal => ofComplex (x.turnedPower mark y)

def inversePower (mark : Nat) (a b : Int) : Outcome := do
  floatPower mark (← (Value.int a).asFloat) (← (Value.int b).asFloat)

def reducedPower (m a : Nat) : Nat → Nat → Nat
  | 0, _ => 1 % m
  | bits + 1, b =>
    let half := reducedPower m a bits (b / 2)
    let square := half * half % m
    if b % 2 == 1 then square * a % m else square

/-- The number that gives one with `a` by a modulus: what `x`, which stands for `r`, becomes when
the remainders of `m` and `a` are formed; `fuel` bounds their number. -/
def inverseFrom (m : Int) : Nat → Int → Int → Int → Int → Option Int
  | 0, _, _, _, _ => none
  | fuel + 1, r, s, x, y =>
    if s == 0 then (if r == 1 then some (x % m) else none)
    else inverseFrom m fuel s (r % s) y (x - r / s * y)

def modularPower (a b m : Int) : Outcome :=
  if m == 0 then .error (.unreadable "pow() 3rd argument cannot be 0")
  else
    let size := m.natAbs
    let reduced (n : Int) : Nat := (n % size).toNat
    let power (a : Nat) : Outcome :=
      gives (.int ((reducedPower size a (b.natAbs.log2 + 1) b.natAbs : Int).fmod m))
    if 0 ≤ b then power (reduced a)
    else
      match inverseFrom size (2 * size.log2 + 4) size (reduced a) 0 1 with
      | some x => power (reduced x)
      | none => .error (.unreadable "base is not invertible for the given modulus")

def integerQuotient (a b : Int) : Outcome :=
  if b == 0 then .error (.divisionByZero "division by zero")
  else
    match Binary64.ofRatio ((a < 0) != (b < 0)) a.natAbs b.natAbs with
    | .infinity _ => .error (.integerTooLarge "integer division result too large for a float")
    | x => gives (.float x)

def wholePower (a : Int) (b : Nat) : Outcome := do
  if a.natAbs ≤ 1 then gives (.int (a ^ (if b ≤ 2 then b else b % 2 + 2)))
  else
    let _ ← Word.fitRoom b
    gives (.int (a ^ b))

def shiftedLeft (a : Int) (b : Nat) : Outcome := do
  if a == 0 then gives (.int 0)
  else if 30 * 2 ^ 60 ≤ b then .error (.integerTooLarge "too many digits in integer")
  else
    let _ ← Word.fitRoom b
    gives (.int (a * 2 ^ b))

def integerOperator (op : Operator) (a b : Int) : Outcome :=
  match op with
  | .sub => gives (.int (a - b))
  | .mul => gives (.int (a * b))
  | .floorDiv => if b == 0 then zeroDivision else gives (.int (a.fdiv b))
  | .mod =>
    if b == 0 then .error (.divisionByZero "integer modulo by zero") else gives (.int (a.fmod b))
  | .divMod =>
    if b == 0 then zeroDivision else gives (.tuple [.int (a.fdiv b), .int (a.fmod b)])
  | .trueDiv => integerQuotient a b
  | .pow => wholePower a b.toNat
  | .both => gives (.int (bitwise Nat.land a b))
  | .either => gives (.int (bitwise Nat.lor a b))
  | .oneOf => gives (.int (bitwise Nat.xor a b))
  | .shiftLeft => if b < 0 then negativeShift else shiftedLeft a b.toNat
  | .shiftRight =>
    if b < 0 then negativeShift
    else if a.natAbs.log2 < b then gives (.int (if a < 0 then -1 else 0))
    else gives (.int (a >>> b.toNat))
where
  zeroDivision : Outcome := .error (.divisionByZero "integer division or modulo by zero")
  negativeShift : Outcome := .error (.unreadable "negative shift count")

def byteOrder (name : String) : Except Fault Text.ByteOrder :=
  match name with
  | "little" => .ok .little
  | "big" => .ok .big
  | _ => .error (.unreadable "byteorder must be either 'little' or 'big'")

def toBytes (n length : Int) (order : String) (isSigned : Bool) : Outcome := do
  let order ← byteOrder order
  if length < 0 then throw (.unreadable "length argument must be non-negative")
  let size : Int := 256 ^ (← Word.fitRoom length.toNat)
  if n < 0 && !isSigned then throw (.integerTooLarge "can't convert negative int to unsigned")
  let fits := if isSigned then -size ≤ 2 * n && 2 * n < size || length == 0 && n == 0 else n < size
  if !fits && !(length == 0 && n == -1) then throw (.integerTooLarge "int too big to convert")
  gives (.bytes (order.write length.toNat (n % size).toNat))

def ofBytes (bs : List UInt8) (order : String) (isSigned : Bool) : Except Fault Int := do
  let order ← byteOrder order
  let n : Int := order.read bs
  let size : Int := 256 ^ bs.length
  return if isSigned && size ≤ 2 * n then n - size else n

def oneCount (n : Nat) : Nat := (Nat.toDigits 2 n).count '1'

def intOperation (mark : Nat) (name : String) (n : Int) (args : List Value) : Option Outcome :=
  match name, args with
  | "__neg__", [] => some (gives (.int (-n)))
  | "__abs__", [] => some (gives (.int n.natAbs))
  | "__pos__", [] | "__int__", [] | "__index__", [] | "__trunc__", [] | "__floor__", []
  | "__ceil__", [] | "__round__", [] | "conjugate", [] => some (gives (.int n))
  | "__float__", [] => some (do gives (.float (← asFloat (.int n))))
  | "__invert__", [] => some (gives (.int (-n - 1)))
  | "bit_length", [] => some (gives (.int (if n == 0 then 0 else n.natAbs.log2 + 1)))
  | "bit_count", [] => some (gives (.int (oneCount n.natAbs)))
  | "as_integer_ratio", [] => some (gives (.tuple [.int n, .int 1]))
  | "__getnewargs__", [] => some (gives (.tuple [.int n]))
  | "__format__", [.str ""] => some (do gives (.str (← intText n)))
  | "__format__", [.str spec] => some (do
    gives (.str (String.ofList (← Format.formattedInteger mark "int" spec n))))
  | "to_bytes", [length, .str order, isSigned] => length.asInt?.map fun length => do
    toBytes n (← Word.size.fit length) order isSigned.truthy
  | "__pow__", [v, m] => some (ofIntegers v m (modularPower n))
  | "__rpow__", [v, m] => some (ofIntegers v m (modularPower · n))
  | "__round__", [v] => v.asInt?.map fun places => gives (.int (if 0 ≤ places then n else
      let unit := 10 ^ places.natAbs
      let rounded : Int := (Binary64.roundDiv n.natAbs unit * unit : Nat)
      if n < 0 then -rounded else rounded))
  | name, [v] => do
    let (op, isReversed) ← operator? name
    let k ← v.asInt?
    let (a, b) := if isReversed then (k, n) else (n, k)
    return if op == .pow && b < 0 then inversePower mark a b else integerOperator op a b
  | _, _ => none
where
  ofIntegers (v w : Value) (f : Int → Int → Outcome) : Outcome :=
    match v.asInt?, w.asInt? with
    | some a, some b => f a b
    | _, _ => gives notImplemented

def boolOperation (mark : Nat) (name : String) (b : Bool) (args : List Value) : Option Outcome :=
  let n : Int := if b then 1 else 0
  match operator? name, args with
  | some (.both, _), [.bool c] => some (gives (.bool (b && c)))
  | some (.either, _), [.bool c] => some (gives (.bool (b || c)))
  | some (.oneOf, _), [.bool c] => some (gives (.bool (b != c)))
  | _, args =>
    match name, args with
    | "__format__", [.str ""] => some (do gives (.str (← (Value.bool b).printed)))
    | "__format__", [.str spec] => some (do
      gives (.str (String.ofList (← Format.formattedInteger mark "bool" spec n))))
    | name, args => intOperation mark name n args

/-! ## Floating-point numbers -/

def wholeOf (x : Binary64) (n : Option Int) : Except Fault Int :=
  match x, n with
  | _, some n => .ok n
  | .nan _, none => .error (.unreadable "cannot convert float NaN to integer")
  | _, none => .error (.integerTooLarge "cannot convert float infinity to integer")

def ratioOf (x : Binary64) : Except Fault (Int × Nat) :=
  match x with
  | .finite negative m e =>
    let (n, d) := Binary64.ratio m e
    let common := n.gcd d
    .ok (if negative then -(n / common : Nat) else (n / common : Nat), d / common)
  | .nan _ => .error (.unreadable "cannot convert NaN to integer ratio")
  | .infinity _ => .error (.integerTooLarge "cannot convert Infinity to integer ratio")

/-- An operator on two floating-point numbers; `mark` is given to what is not a number. -/
def floatOperator (mark : Nat) (op : Operator) (x y : Binary64) : Option Outcome :=
  match op with
  | .sub => some (gives (.float (x.sub mark y)))
  | .mul => some (gives (.float (x.mul mark y)))
  | .trueDiv => some (unlessZero "float division by zero" (.float (x.div mark y)))
  | .floorDiv => some (unlessZero "float floor division by zero" (.float (x.floorDiv mark y)))
  | .mod => some (unlessZero "float modulo" (.float (x.mod mark y)))
  | .divMod => some (unlessZero "float divmod()"
      (.tuple [.float (x.floorDiv mark y), .float (x.mod mark y)]))
  | .pow => some (floatPower mark x y)
  | _ => none
where
  unlessZero (reason : String) (v : Value) : Outcome :=
    if y.isZero then .error (.divisionByZero reason) else gives v

/-- A number rounded to decimal places; places far from those that it has change nothing or leave
a zero. -/
def roundedTo (x : Binary64) (places : Int) : Outcome :=
  if places > 400 then gives (.float x)
  else if places < -400 then
    gives (.float (match x with
      | .finite negative _ _ => .zero negative
      | x => x))
  else
    match x, x.roundTo places with
    | .finite .., .infinity _ => .error (.integerTooLarge "rounded value too large to represent")
    | _, y => gives (.float y)

/-- An operation on a floating-point number; `mark` is given to a result that is not a number. -/
def floatOperation (mark : Nat) (name : String) (x : Binary64) (args : List Value) :
    Option Outcome :=
  match name, args with
  | "__neg__", [] => some (gives (.float x.neg))
  | "__abs__", [] => some (gives (.float x.abs))
  | "__pos__", [] | "__float__", [] | "conjugate", [] => some (gives (.float x))
  | "__int__", [] | "__trunc__", [] => some (do gives (.int (← wholeOf x x.truncated?)))
  | "__floor__", [] => some (do gives (.int (← wholeOf x x.floor?)))
  | "__ceil__", [] => some (do gives (.int (-(← wholeOf x x.neg.floor?))))
  | "__round__", [] | "__round__", [.null] => some (do gives (.int (← wholeOf x x.nearest?)))
  | "__round__", [v] => v.asInt?.bind fun places =>
    some (roundedTo x places)
  | "is_integer", [] => some (gives (.bool x.toInt?.isSome))
  | "as_integer_ratio", [] => some (do
    let (n, d) ← ratioOf x
    gives (.tuple [.int n, .int d]))
  | "__format__", [.str ""] => some (gives (.str x.text))
  | "__format__", [.str spec] => some (do
    gives (.str (String.ofList (← Format.formattedFloat mark spec x))))
  | "__getnewargs__", [] => some (gives (.tuple [.float x]))
  | "hex", [] => some (gives (.str x.hexText))
  | name, [v] => do
    let (op, isReversed) ← operator? name
    match v.asFloat with
    | .ok y => if isReversed then floatOperator mark op y x else floatOperator mark op x y
    | .error f => if v.isNumber then some (.error f) else none
  | _, _ => none

end Toolwright.Value
