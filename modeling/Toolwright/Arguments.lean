import Toolwright.Table
import Toolwright.Value.Basic

/-!
# Arguments

Parameters take their arguments by position first, then by name, and else their defaults. An
argument that no parameter takes is left over.
-/

namespace Toolwright

set_option autoImplicit false

abbrev Named := List (String × Value)

def bindParams (named : Named) : List (String × Option Value) → List Value → Except Fault Named
  | [], [] => .ok []
  | [], _ :: _ => .error .mismatch
  | (name, _) :: params, arg :: args =>
    if (Table.find? named name).isSome then .error .mismatch
    else do return (name, arg) :: (← bindParams named params args)
  | (name, default) :: params, [] =>
    match Table.find? named name, default with
    | some v, _ => do return (name, v) :: (← bindParams named params [])
    | none, some v => do return (name, v) :: (← bindParams named params [])
    | none, none => .error .mismatch

def leftover (params : List (String × Option Value)) (named : Named) : Named :=
  named.filter fun row => !(Table.keys params).contains row.1

/-- The arguments of parameters that leave none over. -/
def bindAll (params : List (String × Option Value)) (args : List Value) (named : Named) :
    Except Fault (String → Value) := do
  let vars ← bindParams named params args
  if (leftover params named).isEmpty then
    return fun name => (Table.find? vars name).getD .null
  else throw .mismatch

def bindOptional (names : List String) (args : List Value) (named : Named) :
    Except Fault (String → Option Value) :=
  let rows := names.zip args
  let isTaken (name : String) : Bool := names.contains name && (Table.find? rows name).isNone
  if args.length ≤ names.length && named.all fun row => isTaken row.1 then
    .ok fun name => (Table.find? (rows ++ named) name)
  else .error .mismatch

end Toolwright
