import Toolwright.Value.Equality
import Toolwright.Value.Sum

/-!
# Order of values

Numbers, texts and bytes are in an order, and so are lists and tuples, by the first items that are
not the same. Sets are compared by inclusion.
-/

namespace Toolwright.Value

set_option autoImplicit false

def comparisons : List String := ["__lt__", "__le__", "__gt__", "__ge__"]

/-- Whether a comparison holds of an order; none holds where there is no order. -/
def affirms (name : String) (o : Option Ordering) : Bool :=
  match name with
  | "__lt__" => o == some .lt
  | "__le__" => o == some .lt || o == some .eq
  | "__gt__" => o == some .gt
  | _ => o == some .gt || o == some .eq

/-- What puts a number in its order among numbers; a not-a-number has no place in it. -/
def numberKey? (v : Value) : Option (Option (Int × Int)) :=
  match v, v.asInt? with
  | .float x, _ => some x.key?
  | _, some n => some (some (0, n * 2 ^ 1074))
  | _, none => none

def orderNumbers? (a b : Value) : Option (Option Ordering) :=
  (numberKey? a).bind fun a => (numberKey? b).map fun b =>
    a.bind fun a => b.map fun b => (compare a.1 b.1).then (compare a.2 b.2)

mutual

def order? : Value → Value → Option (Option Ordering)
  | .str a, .str b => some (some (compare a b))
  | .bytes a, .bytes b => some (some (compare (a.map (·.toNat)) (b.map (·.toNat))))
  | .list xs, .list ys => orderItems? xs ys
  | .tuple xs, .tuple ys => orderItems? xs ys
  | a, b => orderNumbers? a b

def orderItems? : List Value → List Value → Option (Option Ordering)
  | [], [] => some (some .eq)
  | [], _ :: _ => some (some .lt)
  | _ :: _, [] => some (some .gt)
  | x :: xs, y :: ys => if same x y then orderItems? xs ys else order? x y

end

def inclusion (xs ys : List Value) : Option Ordering :=
  match allIn xs ys, allIn ys xs with
  | true, true => some .eq
  | true, false => some .lt
  | false, true => some .gt
  | false, false => none

def compares? (name : String) (a b : Value) : Option Bool :=
  match a, b with
  | .set xs, .set ys | .set xs, .frozenset ys | .frozenset xs, .set ys
  | .frozenset xs, .frozenset ys => some (affirms name (inclusion xs ys))
  | a, b => (order? a b).map (affirms name)

end Toolwright.Value
