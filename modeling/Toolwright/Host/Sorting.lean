import Toolwright.Host.Showing
import Toolwright.Value.Order

/-!
# Sorting

The longest run at the front of a list is kept, or turned round if it falls, and each further item
is put into its place, which is found by halving. Items that are equal stay in their order. The
class of an item may say which is less. Where a fault ends the sorting, the list stays as far as it
was sorted.
-/

namespace Toolwright.Machine

set_option autoImplicit false

def less (m : Machine) (a b : Value) : Run Bool := do
  match ← m.consult a b "__lt__" "__gt__" with
  | some v => m.truthy v
  | none =>
    match Value.compares? "__lt__" (← Run.expose a) (← Run.expose b) with
    | some holds => return holds
    | none => throw .mismatch

structure Sorted where
  key : Value
  value : Value

/-- The items that go on as the ones before them do, each less than the one before it or none of
them, and the rest. -/
def runFrom (m : Machine) (falls : Bool) (last : Sorted) : List Sorted →
    Run (List Sorted × List Sorted)
  | [] => return ([], [])
  | x :: xs => do
    if (← m.less x.key last.key) == falls then
      let (run, rest) ← m.runFrom falls x xs
      return (x :: run, rest)
    else return ([], x :: xs)

/-- The place of a key between two places of a sorted list, behind those that it is not less than.
-/
def placeIn (m : Machine) (xs : Array Sorted) (key : Value) (low high : Nat) : Run Nat := do
  if _h : low < high then
    let middle := (low + high) / 2
    match xs[middle]? with
    | none => return low
    | some x =>
      if ← m.less key x.key then m.placeIn xs key low middle
      else m.placeIn xs key (middle + 1) high
  else return low
termination_by high - low

def insertSorted (m : Machine) (xs : List Sorted) (x : Sorted) : Run (List Sorted) := do
  let place ← m.placeIn xs.toArray x.key 0 xs.length
  let (front, back) := xs.splitAt place
  return front ++ x :: back

def attempt {α : Type} (action : Run α) : Run (Except Fault α) :=
  try .ok <$> action catch f => return .error f

def insertAll (m : Machine) (done : List Sorted) : List Sorted → Run (List Sorted × Option Fault)
  | [] => return (done, none)
  | x :: rest => do
    match ← attempt (m.insertSorted done x) with
    | .ok done => m.insertAll done rest
    | .error f => return (done ++ x :: rest, some f)

def frontRun (m : Machine) (x y : Sorted) (rest : List Sorted) :
    Run (List Sorted × List Sorted) := do
  let falls ← m.less y.key x.key
  let (run, rest) ← m.runFrom falls y rest
  let run := x :: y :: run
  return (if falls then run.reverse else run, rest)

def sortRows (m : Machine) (rows : List Sorted) : Run (List Sorted × Option Fault) := do
  match rows with
  | x :: y :: rest =>
    match ← attempt (m.frontRun x y rest) with
    | .ok (run, rest) => m.insertAll run rest
    | .error f => return (rows, some f)
  | rows => return (rows, none)

def sortedBy (m : Machine) (xs : List Value) (key : Value) (isReversed : Bool) :
    Run (List Value × Option Fault) := do
  let keyOf (x : Value) : Run Value :=
    match key with
    | .null => return x
    | key => m.invoke key [x] []
  let turned (rows : List Sorted) : List Sorted := if isReversed then rows.reverse else rows
  match ← attempt (xs.mapM fun x => do return (⟨← keyOf x, x⟩ : Sorted)) with
  | .error f => return (xs, some f)
  | .ok rows =>
    let (rows, fault) ← m.sortRows (turned rows)
    return ((turned rows).map (·.value), fault)

def sortItems (m : Machine) (self key : Value) (isReversed : Bool) : Run Value := do
  match self with
  | .opaqueRef (.place p) =>
    let xs ← Run.iterate self
    modify fun w => w.store p (.list [])
    let (sorted, fault) ← m.sortedBy xs key isReversed
    let isChanged := !(← Run.iterate self).isEmpty
    modify fun w => w.store p (.list sorted)
    match fault with
    | some f => throw f
    | none => if isChanged then throw (.unreadable "list modified during sort") else return .null
  | _ => throw .mismatch

end Toolwright.Machine
