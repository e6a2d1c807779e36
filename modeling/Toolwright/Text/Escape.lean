import Toolwright.Text.Digit
import Toolwright.Text.Quoted
import Toolwright.Text.Utf8

/-!
# Escapes in bytes

Characters in bytes of ASCII, or of one byte each, where a backslash starts an escape: a letter, up
to three octal digits, or as many hexadecimal ones as the letter in front of them asks for. In the
raw form only the escapes of sixteen and thirty-two bits count.
-/

namespace Toolwright.Text

set_option autoImplicit false

def shortEscapes : List (Char × Char) := [('\\', '\\'), ('\'', '\''), ('"', '"'), ('a', '\x07'),
  ('b', '\x08'), ('f', '\x0c'), ('n', '\n'), ('r', '\r'), ('t', '\t'), ('v', '\x0b')]

/-- The short escape of a character, which the others have as well that are not written so. -/
def shortEscape? (c : Char) : Option (List Char) :=
  (['\\', 'n', 'r', 't'].find? fun letter => shortEscapes.lookup letter == some c).map (['\\', ·])

def escaped (isRaw : Bool) (c : Char) : List UInt8 :=
  let n := c.toNat
  let isByte := if isRaw then n < 0x100 else 0x20 ≤ n && n < 0x7F && c != '\\'
  if isByte then [n.toUInt8]
  else (((if isRaw then none else shortEscape? c).getD (escapeOf c)).map fun c => c.toNat.toUInt8)

def charOfByte (b : UInt8) : Char := Char.ofNat b.toNat

/-- The number that digits write of which the head of a row of bytes may have `most`, how many of
them there are, and the rest. -/
def takeCode (base most : Nat) (bs : List UInt8) : Nat × Nat × List UInt8 :=
  let digit? (b : UInt8) : Option Nat := (letterValue? (charOfByte b)).filter (· < base)
  let ds := ((bs.take most).takeWhile fun b => (digit? b).isSome).filterMap digit?
  (ds.foldl (fun n d => base * n + d) 0, ds.length, bs.drop ds.length)

def readEscape (isRaw : Bool) (bs : List UInt8) : List Reading × List UInt8 :=
  match bs with
  | [] => ([if isRaw then .char '\\' else .broken [0x5C]], [])
  | b :: rest =>
    let c := charOfByte b
    let code (count : Nat) : List Reading × List UInt8 :=
      let (n, found, after) := takeCode 16 count rest
      if found == count && n.isValidChar then ([.char (Char.ofNat n)], after)
      else ([.broken (0x5C :: b :: rest.take found)], after)
    if c == 'u' then code 4
    else if c == 'U' then code 8
    else if isRaw then ([.char '\\', .char c], rest)
    else if c == 'x' then code 2
    else if c == 'N' then ([.broken [0x5C, b]], rest)
    else if c == '\n' then ([], rest)
    else
      match shortEscapes.lookup c, takeCode 8 3 bs with
      | some meant, _ => ([.char meant], rest)
      | none, (_, 0, _) => ([.char '\\', .char c], rest)
      | none, (n, _, after) => ([.char (Char.ofNat n)], after)

def readEscapesWith (isRaw : Bool) : Nat → List UInt8 → List Reading
  | 0, _ => []
  | _, [] => []
  | fuel + 1, b :: bs =>
    if charOfByte b == '\\' then
      let (found, rest) := readEscape isRaw bs
      found ++ readEscapesWith isRaw fuel rest
    else .char (charOfByte b) :: readEscapesWith isRaw fuel bs

def readEscapes (isRaw : Bool) (bs : List UInt8) : List Reading :=
  readEscapesWith isRaw bs.length bs

end Toolwright.Text
