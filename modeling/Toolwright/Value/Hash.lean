import Toolwright.Value.Equality
import Toolwright.Word

/-!
# Hashes

Equal numbers have the same hash: the number modulo a prime, where a power of two below one is the
power that gives one with it. The hash of a tuple depends on the order of its items, that of a set
does not. Texts and bytes have hashes that nothing tells.
-/

namespace Toolwright.Value

set_option autoImplicit false

def hashPrime : Nat := 2 ^ 61 - 1

def signedHash (negative : Bool) (n : Nat) : Int :=
  let h : Int := if negative then -(n : Int) else n
  if h == -1 then -2 else h

/-- The hash of a number; a not-a-number has none that is told. -/
def numberHash? : Binary64 → Option Int
  | .nan _ => none
  | .infinity negative => some (signedHash negative 314159)
  | .finite negative m e =>
    some (signedHash negative (m % hashPrime * 2 ^ (e % 61).toNat % hashPrime))

def signed64 (n : UInt64) : Int := (n.toNat : Int).bmod (2 ^ 64)

def mixItem (mixed : UInt64) (h : Int) : UInt64 :=
  let lane : UInt64 := UInt64.ofInt h
  let sum := mixed + lane * 14029467366897019727
  (sum <<< 31 ||| sum >>> 33) * 11400714785074694791

def tupleHash (hs : List Int) : Int :=
  let start : UInt64 := 2870177450012600261
  let count : UInt64 := hs.length.toUInt64
  let mixed : UInt64 := hs.foldl mixItem start + (count ^^^ start ^^^ (3527539 : UInt64))
  if mixed == 18446744073709551615 then 1546275796 else signed64 mixed

def scattered (h : UInt64) : UInt64 := (h ^^^ (89869747 : UInt64) ^^^ h <<< 16) * 3644798167

def setHash (hs : List Int) : Int :=
  let start : UInt64 := 0
  let mixed := hs.foldl (fun mixed h => mixed ^^^ scattered (UInt64.ofInt h)) start
  let mixed := mixed ^^^ ((hs.length.toUInt64 + 1) * 1927868237)
  let mixed := mixed ^^^ (mixed >>> 11) ^^^ (mixed >>> 25)
  let mixed := mixed * 69069 + 907133923
  if mixed == 18446744073709551615 then 590923713 else signed64 mixed

mutual

def hash? : Value → Option Int
  | .bool b => some (ofBool b)
  | .int n => some (signedHash (n < 0) (n.natAbs % hashPrime))
  | .float x => numberHash? x
  | .str s => if s.isEmpty then some 0 else none
  | .bytes bs => if bs.isEmpty then some 0 else none
  | .tuple xs => (hashes? xs).map tupleHash
  | .frozenset xs => (hashes? xs).map setHash
  | _ => none

def hashes? : List Value → Option (List Int)
  | [] => some []
  | x :: xs =>
    match hash? x, hashes? xs with
    | some h, some hs => some (h :: hs)
    | _, _ => none

end

/-- The hash that an object has which tells an integer: the integer itself if a word holds it. -/
def toldHash? (n : Int) : Option Int :=
  if Word.size.holds n then some (if n == -1 then -2 else n) else (Value.int n).hash?

end Toolwright.Value
