import Toolwright.Text.Bytes
import Toolwright.Value.TextOperation

/-!
# Operations on bytes

What the named operations of bytes give. Bytes below 128 are taken as the characters of ASCII; the
others are no letters, no digits and no blanks.
-/

namespace Toolwright.Value

set_option autoImplicit false

def bytes? : Value → Option (List UInt8)
  | .bytes bs => some bs
  | _ => none

def byteOf (n : Int) : Except Fault UInt8 :=
  if 0 ≤ n && n < 256 then .ok n.toNat.toUInt8
  else .error (.unreadable "byte must be in range(0, 256)")

def bytesAlphabet : Alphabet UInt8 where
  wrap := .bytes
  unwrap? := bytes?
  sought?
    | .bytes bs => some (.ok bs)
    | v => v.asInt?.map fun n => do return [← byteOf n]
  isBlank := Text.Bytes.isBlank
  lines keep bs :=
    if keep then Text.Bytes.pieces bs else (Text.Bytes.pieces bs).map Text.Bytes.withoutEnd
  ofAscii c := c.toNat.toUInt8
  absent := "subsection not found"
  noun := "bytes are"

/-- The bytes of a hexadecimal text, in which blanks may stand between two bytes; `index` is the
place of the first character. -/
def readHex (index : Nat) : List Char → Except Fault (List UInt8)
  | [] => .ok []
  | c :: cs =>
    if isGap c then readHex (index + 1) cs
    else
      match Text.hexValue? c, cs with
      | some high, low :: cs =>
        match Text.hexValue? low with
        | some low => do return (high * 16 + low).toUInt8 :: (← readHex (index + 2) cs)
        | none => noDigit (index + 1)
      | some _, [] => noDigit (index + 1)
      | none, _ => noDigit index
where
  isGap (c : Char) : Bool := c.toNat < 128 && Text.Bytes.isBlank c.toNat.toUInt8
  noDigit (index : Nat) : Except Fault (List UInt8) :=
    .error (.unreadable ("non-hexadecimal number found in fromhex() arg at position " ++
      toString index))

def ofHex (cs : List Char) : Except Fault (List UInt8) :=
  match cs.findIdx? fun c => c.toNat ≥ 128 with
  | some index => readHex.noDigit index
  | none => readHex 0 cs

def groups {α : Type} (size : Nat) : Nat → List α → List (List α)
  | 0, _ => []
  | fuel + 1, xs =>
    if xs.length ≤ size then [xs] else xs.take size :: groups size fuel (xs.drop size)

/-- The hexadecimal digits of bytes with a separator between groups of them. The groups are counted
from the end, or from the start for a size below zero. -/
def hexText (bs : List UInt8) (separator : List Char) (size : Int) : List Char :=
  let digits (bs : List UInt8) : List Char := bs.flatMap fun b => Text.hexDigits 2 b.toNat
  if bs.isEmpty || size == 0 then digits bs
  else if size < 0 then
    separator.intercalate ((groups size.natAbs bs.length bs).map digits)
  else
    let parts := (groups size.natAbs bs.length bs.reverse).map fun part => digits part.reverse
    separator.intercalate parts.reverse

def separatedHex (bs : List UInt8) (separator : List Char) (size : Int) : Outcome :=
  match separator with
  | [c] =>
    if c.toNat < 128 then gives (ofChars (hexText bs [c] size))
    else .error (.unreadable "sep must be ASCII.")
  | _ => .error (.unreadable "sep must be length 1.")

def mapped (bs table deleted : List UInt8) : List UInt8 :=
  (bs.filter fun b => !deleted.contains b).map fun b => table.getD b.toNat b

def throughTable (bs : List UInt8) (table deleted : Value) : Option Outcome :=
  match table, deleted with
  | .null, .bytes deleted => some (gives (.bytes (mapped bs [] deleted)))
  | .bytes table, deleted =>
    if table.length != 256 then
      some (.error (.unreadable "translation table must be 256 characters long"))
    else (bytes? deleted).map fun deleted => gives (.bytes (mapped bs table deleted))
  | _, _ => none

/-- The table that puts each byte of a list in the place of the one at the same place of another. -/
def byteTable (old new : List UInt8) : Outcome :=
  if old.length == new.length then
    let changed := (old.zip new).reverse
    gives (.bytes ((List.range 256).map fun n =>
      ((changed.find? fun row => row.1.toNat == n).map (·.2)).getD n.toUInt8))
  else .error (.unreadable "maketrans arguments must have same length")

def bytesTests : List String :=
  ["isalpha", "isalnum", "isdigit", "isupper", "islower", "istitle", "isascii"]

def bytesForms : List String := ["upper", "lower", "capitalize", "title", "swapcase"]

def bytesOperation (name : String) (bs : List UInt8) (args : List Value) : Option Outcome :=
  match name, args with
  | "isspace", [] => some (gives (.bool (!bs.isEmpty && bs.all Text.Bytes.isBlank)))
  | "__getitem__", [v] =>
    v.asInt?.map fun i => do
      match (position? bs.length (← Word.place i)).bind (bs[·]?) with
      | some b => gives (.int b.toNat)
      | none => .error (.outOfRange "index out of range")
  | "__bytes__", [] => some (gives (.bytes bs))
  | "hex", [] => some (gives (ofChars (hexText bs [] 0)))
  | "hex", [separator, size] => (separatorOf? separator).bind fun separator =>
    size.asInt?.map fun size => do separatedHex bs separator (← Word.short.fit size)
  | "translate", [table, deleted] => throughTable bs table deleted
  | "decode", [.str encoding, .str policy] =>
    some (do gives (ofChars (← decoded encoding policy bs)))
  | name, [] =>
    if bytesTests.contains name then
      (textTest? name (Text.Bytes.chars bs)).map gives
    else if bytesForms.contains name then
      (textForm? name (Text.Bytes.chars bs)).map fun cs => gives (.bytes (Text.Bytes.recased bs cs))
    else bytesAlphabet.operation name bs []
  | name, args => bytesAlphabet.operation name bs args
where
  separatorOf? : Value → Option (List Char)
    | .str s => some s.toList
    | .bytes bs => some (bs.map fun b => Char.ofNat b.toNat)
    | v => if (v.length?.getD 1) == 1 then none else some []

end Toolwright.Value
