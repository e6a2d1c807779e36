import Toolwright.Binary64.Arithmetic
import Toolwright.Binary64.Style
import Toolwright.Format.Spec

/-!
# Formatted fields

Texts, integers and floating-point numbers as a specification lays them out.
-/

namespace Toolwright.Format

set_option autoImplicit false

open Spec (refused)

/-! ## Layout -/

/-- The parts of a number: only its digits are grouped and filled up with zeros. -/
structure Parts where
  sign : List Char := []
  /-- What tells the base. -/
  base : List Char := []
  digits : List Char := []
  tail : List Char := []

/-- Digits from the last to the first with a mark behind each group of `size`; `left` counts the
rest of the group. -/
def marked (mark : Char) (size : Nat) : Nat → List Char → List Char
  | _, [] => []
  | 0, c :: cs => mark :: c :: marked mark size (size - 1) cs
  | left + 1, c :: cs => c :: marked mark size left cs

def markedWidth (size count : Nat) : Nat := count + (count - 1) / size

/-- Digits with zeros in front, so that they take at least a width, and marks between groups. -/
def grouped (separator : Option Char) (size width : Nat) (ds : List Char) : List Char :=
  if ds.isEmpty then []
  else
    match separator with
    | none => Binary64.zeros (width - ds.length) ++ ds
    | some mark =>
      let count := ((List.range (width + 1)).find? fun n => width ≤ markedWidth size n).getD 0
      let ds := Binary64.zeros (count - ds.length) ++ ds
      (marked mark size size ds.reverse).reverse

def margins (alignment : Alignment) (rest : Nat) : Nat × Nat :=
  match alignment with
  | .left => (0, rest)
  | .center => (rest / 2, rest - rest / 2)
  | .right | .afterSign => (rest, 0)

def Spec.fit (s : Spec) (head body : List Char) : List Char :=
  let (front, back) := margins s.alignment (s.width - (head.length + body.length))
  let fill (n : Nat) : List Char := List.replicate n s.fill
  if s.alignment == .afterSign then head ++ fill front ++ body
  else fill front ++ head ++ body ++ fill back

def Spec.number (s : Spec) (size : Nat) (p : Parts) : List Char :=
  let head := p.sign ++ p.base
  let room :=
    if s.fill == '0' && s.alignment == .afterSign then s.width - (head ++ p.tail).length else 0
  s.fit head (grouped s.separator size room p.digits ++ p.tail)

def Spec.signOf (s : Spec) (negative : Bool) : List Char :=
  if negative then ['-']
  else
    match s.sign with
    | some '+' => ['+']
    | some ' ' => [' ']
    | _ => []

/-! ## Texts -/

def zeroRefused (kind : String) : Fault :=
  refused ("Negative zero coercion (z) not allowed in " ++ kind ++ " format specifier")

def Spec.text (s : Spec) (cs : List Char) : Except Fault (List Char) := do
  match s.type with
  | none | some 's' => pure ()
  | some type => throw (unknownType "str" type)
  if s.sign == some ' ' then throw (refused "Space not allowed in string format specifier")
  if s.sign.isSome then throw (refused "Sign not allowed in string format specifier")
  if s.plainZero then throw (zeroRefused "string")
  if s.alternate then throw (refused "Alternate form (#) not allowed in string format specifier")
  if s.alignment == .afterSign then
    throw (refused "'=' alignment not allowed in string format specifier")
  let _ ← Word.fitRoom s.width
  return s.fit [] (match s.precision with
    | some n => cs.take n
    | none => cs)

def formattedText (spec : String) (cs : List Char) : Except Fault (List Char) := do
  (← Spec.read "str" .left 's' spec).text cs

/-! ## Floating-point numbers -/

def styleOf : Char → Binary64.Style
  | 'e' | 'E' => .scientific
  | 'f' | 'F' | '%' => .fixed
  | _ => .general

/-- A magnitude as it is written: with the fewest digits, unless a type or a precision is given. -/
def Spec.written (s : Spec) (mantissa : Nat) (exponent : Int) : Binary64.Written :=
  match s.type, s.precision with
  | some type, places =>
    Binary64.writtenIn (styleOf type) (places.getD 6) s.alternate 0 mantissa exponent
  | none, some places => Binary64.writtenIn .general places s.alternate 1 mantissa exponent
  | none, none =>
    if mantissa == 0 then ⟨['0'], some ['0'], none⟩
    else (Binary64.shortest mantissa exponent).written s.alternate

def isWrittenZero (w : Binary64.Written) : Bool :=
  (w.whole ++ w.fraction.getD []).all (· == '0')

def Spec.float (s : Spec) (x : Binary64) : List Char :=
  let isUpper := (s.type.map fun c => "EFG".toList.contains c).getD false
  let percent : List Char := if s.type == some '%' then ['%'] else []
  let word (w : String) : List Char := (if isUpper then w.toList.map Char.toUpper else w.toList)
  match x with
  | .nan _ => s.number 3 { sign := s.signOf false, tail := word "nan" ++ percent }
  | .infinity negative => s.number 3 { sign := s.signOf negative, tail := word "inf" ++ percent }
  | .finite negative m e =>
    let w := s.written m e
    let negative := negative && !(s.plainZero && isWrittenZero w)
    s.number 3 {
      sign := s.signOf negative
      digits := w.whole
      tail := w.tail (if isUpper then 'E' else 'e') ++ percent }

def isFloatType (type : Char) : Bool := "eEfFgG%".toList.contains type

/-- A number as a specification lays it out; a percentage is a hundred times the number. -/
def Spec.formatFloat (s : Spec) (mark : Nat) (x : Binary64) : Except Fault (List Char) := do
  if (s.precision.getD 0) ≥ 2 ^ 31 then throw (refused "precision too big")
  let _ ← Word.fitRoom s.width
  return s.float (if s.type == some '%' then x.mul mark (.finite false 100 0) else x)

def formattedFloat (mark : Nat) (spec : String) (x : Binary64) : Except Fault (List Char) := do
  let s ← Spec.read "float" .right '\x00' spec
  match s.type with
  | none | some 'n' => s.formatFloat mark x
  | some type => if isFloatType type then s.formatFloat mark x else throw (unknownType "float" type)

/-! ## Integers -/

def baseOf : Char → Nat × List Char × Nat
  | 'b' => (2, ['0', 'b'], 4)
  | 'o' => (8, ['0', 'o'], 4)
  | 'x' => (16, ['0', 'x'], 4)
  | 'X' => (16, ['0', 'X'], 4)
  | _ => (10, [], 3)

def digitsIn (type : Char) (n : Nat) : Except Fault (List Char) :=
  let (base, _, _) := baseOf type
  let ds := Nat.toDigits base n
  if base == 10 && ds.length > 4300 then .error .tooManyDigits
  else .ok (if type == 'X' then ds.map Char.toUpper else ds)

def character (limit : Nat) (written : String) (n : Int) : Except Fault Char :=
  if n < 0 || limit ≤ n then .error (.integerTooLarge ("%c arg not in range(" ++ written ++ ")"))
  else .ok (Char.ofNat n.toNat)

def Spec.code (s : Spec) (n : Int) : Except Fault (List Char) := do
  if s.sign.isSome then throw (refused "Sign not allowed with integer format specifier 'c'")
  if s.alternate then
    throw (refused "Alternate form (#) not allowed with integer format specifier 'c'")
  let n ← Word.long.fit n
  let _ ← Word.fitRoom s.width
  return s.number 3 { tail := [← character 0x110000 "0x110000" n] }

def Spec.integer (s : Spec) (type : Char) (n : Int) : Except Fault (List Char) := do
  if s.precision.isSome then throw (refused "Precision not allowed in integer format specifier")
  if s.plainZero then throw (zeroRefused "integer")
  if type == 'c' then s.code n
  else
    let (_, base, size) := baseOf type
    let _ ← Word.fitRoom s.width
    return s.number size {
      sign := s.signOf (n < 0)
      base := if s.alternate then base else []
      digits := ← digitsIn type n.natAbs }

def formattedInteger (mark : Nat) (kind spec : String) (n : Int) : Except Fault (List Char) := do
  let s ← Spec.read kind .right 'd' spec
  let type := s.type.getD 'd'
  if "bcdoxXn".toList.contains type then s.integer type n
  else if isFloatType type then
    match Binary64.ofInt? n with
    | some x => s.formatFloat mark x
    | none => throw (.integerTooLarge "int too large to convert to float")
  else throw (unknownType kind type)

end Toolwright.Format
