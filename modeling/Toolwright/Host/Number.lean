import Toolwright.Host.Access
import Toolwright.Value.Number

/-!
# Values as numbers

The number that a value stands for. The class of an object may say what it is.
-/

namespace Toolwright.Machine

set_option autoImplicit false

def integerFrom (m : Machine) (a : Access) : Run Int := do
  match (← m.use a [] []).asInt? with
  | some n => return n
  | none => throw .mismatch

def indexOf (m : Machine) (v : Value) : Run Int := do
  match v.asInt?, (← Run.world).special? v "__index__" with
  | some n, _ => return n
  | none, some a => m.integerFrom a
  | none, none => throw .mismatch

/-- The integer made of a number; what is behind the point is left out. -/
def integerOf (m : Machine) (v : Value) : Run Int := do
  let w ← Run.world
  match v with
  | .float x => Run.lift (Value.wholeOf x x.truncated?)
  | v =>
    match ["__int__", "__index__", "__trunc__"].findSome? (w.special? v) with
    | some a => m.integerFrom a
    | none => m.indexOf v

def floatOf (m : Machine) (v : Value) : Run Binary64 := do
  match (← Run.world).special? v "__float__" with
  | some a =>
    match ← m.use a [] [] with
    | .float x => return x
    | _ => throw .mismatch
  | none =>
    if v.isNumber then Run.lift v.asFloat else Run.lift (Value.int (← m.indexOf v)).asFloat

end Toolwright.Machine
