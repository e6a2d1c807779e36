import Toolwright.Value.Sum
import Toolwright.Word

/-!
# Effects of operations

What an operation on a value comes to: a result, and for a container that can change what it holds
afterwards.
-/

namespace Toolwright.Value

set_option autoImplicit false

/-- The result of an operation, and the container afterwards if it changed. -/
structure Effect where
  result : Value
  container : Option Value := none

abbrev Outcome := Except Fault Effect

def gives (v : Value) : Outcome := .ok ⟨v, none⟩

def becomes (container : Value) (result : Value := .null) : Outcome := .ok ⟨result, some container⟩

def notImplemented : Value := .opaqueRef (.plain "NotImplementedType" "NotImplemented")

/-- Whether the operations of the first value are for values such as the second. -/
def accepts (a b : Value) : Bool :=
  match a, b with
  | .float _, b => b.isNumber
  | .bool _, .int _ | .int _, .bool _ | .set _, .frozenset _ | .frozenset _, .set _
  | .mapping _, .dict _ => true
  | a, b => a.kind == b.kind

def isCollection (v : Value) : Bool :=
  match v with
  | .dict _ | .set _ | .frozenset _ => true
  | _ => false

def position? (length : Nat) (index : Int) : Option Nat :=
  let i := if index < 0 then index + length else index
  if 0 ≤ i && i < length then some i.toNat else none

def insertion (length : Nat) (index : Int) : Nat :=
  let i := if index < 0 then index + length else index
  min i.toNat length

end Toolwright.Value
