import Toolwright.Text.Blank

/-!
# Bytes as text

Bytes are cut into words and lines as text is, with the white space, the line boundaries and the
letter case of ASCII alone.
-/

namespace Toolwright.Text.Bytes

set_option autoImplicit false

def isBlank (b : UInt8) : Bool := b == 32 || (9 ≤ b && b ≤ 13)

def words (bs : List UInt8) : List (List UInt8) := runs isBlank bs

def pieces : List UInt8 → List (List UInt8)
  | [] => []
  | 13 :: 10 :: bs => [13, 10] :: pieces bs
  | b :: bs => if b == 10 || b == 13 then [b] :: pieces bs else consLine b (pieces bs)

def withoutEnd (line : List UInt8) : List UInt8 := line.filter fun b => b != 10 && b != 13

/-- Bytes of ASCII as its characters, the others as a character that is no letter. -/
def chars (bs : List UInt8) : List Char :=
  bs.map fun b => if b < 128 then Char.ofNat b.toNat else Char.ofNat 0xFFFD

/-- Bytes with those of ASCII replaced by the characters at their places. -/
def recased (bs : List UInt8) (cs : List Char) : List UInt8 :=
  bs.zipWith (fun b c => if b < 128 then c.toNat.toUInt8 else b) cs

def upper (bs : List UInt8) : List UInt8 :=
  bs.map fun b => if 97 ≤ b && b ≤ 122 then b - 32 else b

def lower (bs : List UInt8) : List UInt8 :=
  bs.map fun b => if 65 ≤ b && b ≤ 90 then b + 32 else b

end Toolwright.Text.Bytes
