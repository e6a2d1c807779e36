import Toolwright.Value.Equality

/-!
# Conversion of values

What a value gives when a list or a dictionary is made of it.
-/

namespace Toolwright.Value

set_option autoImplicit false

/-- The items of a value: elements, characters, bytes or keys. -/
def items : Value → Except Fault (List Value)
  | .list xs | .tuple xs | .set xs | .frozenset xs => .ok xs
  | .str s => .ok (s.toList.map fun c => .str (String.singleton c))
  | .bytes bs => .ok (bs.map fun b => .int b.toNat)
  | .dict rows | .mapping rows => .ok (rows.map (·.1))
  | _ => .error .mismatch

def length? : Value → Option Nat
  | .str s => some s.length
  | .bytes bs => some bs.length
  | .list xs | .tuple xs | .set xs | .frozenset xs => some xs.length
  | .dict rows | .mapping rows => some rows.length
  | _ => none

def size? : Value → Option Nat
  | .bool _ => some 28
  | .int n => some (24 + 4 * (n.natAbs.log2 / 30 + 1))
  | .float _ => some 24
  | .str s =>
    let most := s.toList.foldl (fun n c => max n c.toNat) 0
    some (if most < 0x80 then 49 + s.length
      else if most < 0x100 then 73 + s.length
      else if most < 0x10000 then 74 + 2 * s.length
      else 76 + 4 * s.length)
  | .bytes bs => some (33 + bs.length)
  | .tuple xs => some (24 + 8 * xs.length)
  | _ => none

def pairsFrom (index : Nat) : List Value → Except Fault (List (Value × Value))
  | [] => .ok []
  | x :: xs => do
    match ← x.items with
    | [k, v] =>
      if k.hashable then return (k, v) :: (← pairsFrom (index + 1) xs) else throw .mismatch
    | parts => throw (.notPair index parts.length)

def toRows (v : Value) : Except Fault (List (Value × Value)) :=
  match v with
  | .dict rows | .mapping rows => .ok rows
  | v => do return collectRows (← pairsFrom 0 (← v.items))

end Toolwright.Value
