import Toolwright.Format.Field

/-!
# Directives

A directive stands behind a percent sign: the name of its value between parentheses, flags, a width,
a precision and the character that says how the value is converted. Where a directive is cut off,
what is in front of the end still counts.
-/

namespace Toolwright.Format

set_option autoImplicit false

open Spec (refused)

inductive Measure where
  | given (n : Nat)
  | tooBig
  /-- It is the next value. -/
  | taken
  deriving DecidableEq

structure Directive where
  /-- The name of the value; none if it is not closed. -/
  key : Option (Option (List Char)) := none
  flags : List Char := []
  width : Option Measure := none
  precision : Option Measure := none
  /-- There is none where the directive is cut off. -/
  conversion : Option Char := none
  /-- Whether the conversion stands right behind the digits of a measure. -/
  isBehindDigits : Bool := false

namespace Directive

def takeKey (depth : Nat) : List Char → Option (List Char × List Char)
  | [] => none
  | c :: cs =>
    if c == ')' && depth == 0 then some ([], cs)
    else
      let depth := if c == '(' then depth + 1 else if c == ')' then depth - 1 else depth
      (takeKey depth cs).map fun found => (c :: found.1, found.2)

def takeMeasure (greatest : Nat) (cs : List Char) : Option Measure × List Char :=
  match cs with
  | '*' :: cs => (some .taken, cs)
  | cs =>
    let ds := cs.takeWhile Char.isDigit
    let n := ds.foldl (fun n c => 10 * n + (c.toNat - 48)) 0
    (if ds.isEmpty then none else some (if n > greatest then .tooBig else .given n),
      cs.drop ds.length)

def startsWithDigit (cs : List Char) : Bool := (cs.head?.map Char.isDigit).getD false

def skipLength (cs : List Char) : List Char :=
  match cs with
  | c :: rest => if c == 'h' || c == 'l' || c == 'L' then rest else cs
  | [] => []

def read (cs : List Char) : Directive × List Char :=
  match cs with
  | '(' :: cs =>
    match takeKey 0 cs with
    | some (key, cs) => behindKey (some (some key)) cs
    | none => ({ key := some none }, [])
  | cs => behindKey none cs
where
  behindKey (key : Option (Option (List Char))) (cs : List Char) : Directive × List Char :=
    let isFlag (c : Char) : Bool := "-+ #0".toList.contains c
    let flags := cs.takeWhile isFlag
    let cs := cs.dropWhile isFlag
    let hasDigits := startsWithDigit cs
    let (width, cs) := takeMeasure (2 ^ 63 - 1) cs
    let (precision, hasDigits, cs) := match cs with
      | '.' :: cs =>
        let (precision, rest) := takeMeasure (2 ^ 31 - 1) cs
        (some (precision.getD (.given 0)), startsWithDigit cs, rest)
      | cs => (none, hasDigits, cs)
    let rest := skipLength cs
    let isBehindDigits := hasDigits && rest.length == cs.length
    match rest with
    | c :: cs => ({ key, flags, width, precision, conversion := some c, isBehindDigits }, cs)
    | [] => ({ key, flags, width, precision }, [])

end Directive

/-! ## Layout -/

/-- How a directive lays out what it converts. -/
structure Box where
  isLeft : Bool := false
  sign : Option Char := none
  alternate : Bool := false
  zeroFill : Bool := false
  width : Nat := 0
  precision : Option Nat := none

/-- The box of flags, a width and a precision; a width below zero is one to the left. -/
def Box.ofFlags (flags : List Char) (width : Int) (precision : Option Nat) : Box where
  isLeft := flags.contains '-' || width < 0
  sign := if flags.contains '+' then some '+' else if flags.contains ' ' then some ' ' else none
  alternate := flags.contains '#'
  zeroFill := flags.contains '0'
  width := width.natAbs
  precision

namespace Box

def fit (b : Box) (head body : List Char) (isNumber : Bool) : List Char :=
  let rest := b.width - (head.length + body.length)
  if b.isLeft then head ++ body ++ List.replicate rest ' '
  else if isNumber && b.zeroFill then head ++ Binary64.zeros rest ++ body
  else List.replicate rest ' ' ++ head ++ body

def text (b : Box) (cs : List Char) : List Char :=
  b.fit [] (match b.precision with
    | some n => cs.take n
    | none => cs) false

def signOf (b : Box) (negative : Bool) : List Char := if negative then ['-'] else b.sign.toList

def integer (b : Box) (type : Char) (n : Int) : Except Fault (List Char) := do
  let (_, base, _) := baseOf type
  let ds ← digitsIn type n.natAbs
  let ds := Binary64.zeros (b.precision.getD 0 - ds.length) ++ ds
  return b.fit (b.signOf (n < 0) ++ if b.alternate then base else []) ds true

def float (b : Box) (type : Char) (x : Binary64) : List Char :=
  let s : Spec := {
    alignment := .right
    alternate := b.alternate
    precision := b.precision
    type := some type }
  b.fit (b.signOf x.isNegative) (s.float x.abs) true

end Box

/-- A character that says nothing of how a value is converted, at a place of a text. -/
def unknownConversion (shown c : Char) (index : Nat) : Fault :=
  refused ("unsupported format character '" ++ String.singleton shown ++ "' (0x" ++
    String.ofList (Nat.toDigits 16 c.toNat) ++ ") at index " ++ toString index)

def unknownInText (c : Char) (index : Nat) : Fault :=
  unknownConversion (if 31 ≤ c.toNat && c.toNat < 126 then c else '?') c index

/-- A byte that is no ASCII has no character, unless it stands behind digits. -/
def unknownInBytes (isBehindDigits : Bool) (c : Char) (index : Nat) : Fault :=
  if c.toNat < 128 || isBehindDigits then unknownConversion c c index
  else .integerTooLarge "character argument not in range(0x110000)"

end Toolwright.Format
