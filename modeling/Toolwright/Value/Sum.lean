import Toolwright.Value.Basic

/-!
# Sums of values

Numbers are added, texts, bytes, lists and tuples of one kind are joined, and nothing else has a
sum.
-/

namespace Toolwright.Value

set_option autoImplicit false

def asInt? : Value → Option Int
  | .bool b => some (if b then 1 else 0)
  | .int n => some n
  | _ => none

/-- A number as a floating-point number, where there is one near it. -/
def asFloat (v : Value) : Except Fault Binary64 :=
  match v, v.asInt? with
  | .float x, _ => .ok x
  | _, some n =>
    match Binary64.ofInt? n with
    | some x => .ok x
    | none => .error (.integerTooLarge "int too large to convert to float")
  | _, none => .error .mismatch

def isNumber (v : Value) : Bool :=
  match v with
  | .bool _ | .int _ | .float _ => true
  | _ => false

def add (mark : Nat) (a b : Value) : Except Fault Value :=
  match a, b with
  | .str a, .str b => .ok (.str (a ++ b))
  | .bytes a, .bytes b => .ok (.bytes (a ++ b))
  | .list a, .list b => .ok (.list (a ++ b))
  | .tuple a, .tuple b => .ok (.tuple (a ++ b))
  | a, b =>
    match a.asInt?, b.asInt? with
    | some n, some m => .ok (.int (n + m))
    | _, _ =>
      if a.isNumber && b.isNumber then do
        return .float (Binary64.add mark (← a.asFloat) (← b.asFloat))
      else .error .mismatch

end Toolwright.Value
