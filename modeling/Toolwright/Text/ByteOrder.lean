/-!
# Numbers in bytes

A number takes a row of bytes, of which either the lowest or the highest goes first.
-/

namespace Toolwright.Text

set_option autoImplicit false

inductive ByteOrder where
  | little
  | big
  deriving DecidableEq

namespace ByteOrder

def lowBytes : Nat → Nat → List UInt8
  | 0, _ => []
  | width + 1, n => (n % 256).toUInt8 :: lowBytes width (n / 256)

/-- The number of bytes with the lowest first. -/
def value : List UInt8 → Nat
  | [] => 0
  | b :: bs => b.toNat + 256 * value bs

def write (order : ByteOrder) (width n : Nat) : List UInt8 :=
  match order with
  | .little => lowBytes width n
  | .big => (lowBytes width n).reverse

def read (order : ByteOrder) (bs : List UInt8) : Nat :=
  match order with
  | .little => value bs
  | .big => value bs.reverse

end ByteOrder

end Toolwright.Text
