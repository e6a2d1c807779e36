import Toolwright.Host.Showing
import Toolwright.Value.Operation

/-!
# Operations of views and cursors

A view of keys or of rows is asked like a set, and combined with other items into a set. A cursor is
asked for its next item.
-/

namespace Toolwright

set_option autoImplicit false

namespace World

def isSetLike (w : World) (v : Value) : Bool :=
  match v with
  | .opaqueRef (.view (.view part) _) | .opaqueRef (.view (.mappingView part) _) =>
    part != .values
  | v =>
    match w.followed v with
    | .set _ | .frozenset _ => true
    | _ => false

def view? (w : World) (v : Value) : Option View :=
  match v with
  | .opaqueRef (.view _ id) => w.views[id]?
  | _ => none

/-- Whether a set or a view has a value, which must be one that it can have. -/
def holds (w : World) (v x : Value) : Except Fault Bool :=
  match w.view? v with
  | some view =>
    match view.part, x with
    | .items, .tuple [k, y] =>
      let rows := (w.followed view.source).rows?.getD []
      if w.hashes k then
        .ok (rows.any fun row => w.sameInside k row.1 && w.sameInside y row.2)
      else .error .mismatch
    | .items, _ => .ok false
    | .values, x => .ok ((w.shown view).any (w.sameInside x))
    | .keys, x =>
      if w.hashes x then .ok ((w.shown view).any (w.sameInside x)) else .error .mismatch
  | none => do
    let xs ← (w.followed v).items
    if w.hashes x then return xs.any (w.sameInside x) else throw .mismatch

def cursorName (w : World) (v : Value) (isReversed : Bool) : String :=
  let direction := if isReversed then "reverse" else ""
  match w.view? v, w.followed v with
  | some view, .opaqueRef (.view (.view _) _) => ofRows direction view.part
  | some _, _ => "generator"
  | none, .list _ => "list_" ++ direction ++ "iterator"
  | none, .tuple _ => "tuple_iterator"
  | none, .str s =>
    if s.toList.all fun c => c.toNat < 128 then "str_ascii_iterator" else "str_iterator"
  | none, .bytes _ => "bytes_iterator"
  | none, .set _ | none, .frozenset _ => "set_iterator"
  | none, _ => ofRows direction .keys
where
  ofRows (direction : String) : Part → String
    | .keys => "dict_" ++ direction ++ "keyiterator"
    | .values => "dict_" ++ direction ++ "valueiterator"
    | .items => "dict_" ++ direction ++ "itemiterator"

end World

namespace Machine

def reflections : List (String × String) := [("__ror__", "__or__"), ("__rand__", "__and__"),
  ("__rsub__", "__sub__"), ("__rxor__", "__xor__")]

def cursorOn (v : Value) (isReversed : Bool) : Run Value := do
  let w ← Run.world
  Run.newCursor (w.cursorName v isReversed) ((w.view? v).getD ⟨v, .keys⟩) isReversed

def compareView (name : String) (self other : Value) : Run Value := do
  let w ← Run.world
  if !w.isSetLike other then return Value.notImplemented
  let xs ← Run.iterate self
  let ys ← Run.iterate other
  let isWithin : Run Bool := xs.allM fun x => Run.lift (w.holds other x)
  let isAround : Run Bool := ys.allM fun y => Run.lift (w.holds self y)
  let holds ← match name with
    | "__eq__" | "__ne__" => if xs.length == ys.length then isWithin else pure false
    | "__le__" => if xs.length ≤ ys.length then isWithin else pure false
    | "__lt__" => if xs.length < ys.length then isWithin else pure false
    | "__ge__" => if ys.length ≤ xs.length then isAround else pure false
    | _ => if ys.length < xs.length then isAround else pure false
  return .bool (holds != (name == "__ne__"))

/-- The set of the items of a view and those of a value, combined in a way. -/
def combineView (m : Machine) (combination : String) (self : Value) (xs ys : List Value) :
    Run Value := do
  let w ← Run.world
  let items ← match combination with
    | "intersection" => ys.filterM fun y => Run.lift (w.holds self y)
    | name => do
      if !(xs ++ ys).all w.hashes then throw .mismatch
      pure (Value.combined name xs ys)
  items.forM fun x => do
    let _ ← m.hashOf x
  Run.kept (.set (Value.collectItems items))

def viewOperation (m : Machine) (name : String) (self : Value) (args : List Value) :
    Run Value := do
  let w ← Run.world
  match name, args with
  | "__len__", [] => return .int (← Run.iterate self).length
  | "__repr__", [] => return .str (← m.printed self)
  | "__iter__", [] => cursorOn self false
  | "__reversed__", [] => cursorOn self true
  | "__contains__", [x] => return .bool (← Run.lift (w.holds self x))
  | "isdisjoint", [v] =>
    return .bool (!(← (← Run.iterate v).anyM fun y => Run.lift (w.holds self y)))
  | name, [v] =>
    if name == "__eq__" || name == "__ne__" || Value.comparisons.contains name then
      compareView name self v
    else
      let xs ← Run.iterate self
      let ys ← Run.iterate v
      match Value.combinationOf? ((Table.find? reflections name).getD name) with
      | some combination =>
        if name == "__rsub__" then m.combineView combination self ys xs
        else m.combineView combination self xs ys
      | none => throw .mismatch
  | _, _ => throw .mismatch

def cursorOperation (name : String) (self : Value) (id : Nat) (args : List Value) :
    Run Value := do
  let w ← Run.world
  match name, args with
  | "__iter__", [] => return self
  | "__next__", [] =>
    match ← Run.next? id with
    | some x => return x
    | none => throw .exhausted
  | "__length_hint__", [] =>
    let ahead := (w.cursors[id]?).bind fun c => (w.remaining c).toOption
    return .int ((ahead.map List.length).getD 0)
  | _, _ => throw .mismatch

end Machine

end Toolwright
