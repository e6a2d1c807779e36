import Toolwright.Host.World

/-!
# Places

What is kept at the places of a world, what a value is of by what is kept at its place, and what was
set on an object.
-/

namespace Toolwright

set_option autoImplicit false

def plainOperations : List String := [
  "__bytes__", "__ceil__", "__class_getitem__", "__dir__", "__floor__", "__format__",
  "__getformat__", "__getnewargs__", "__getstate__", "__init_subclass__", "__instancecheck__",
  "__new__", "__prepare__", "__reduce__", "__reduce_ex__", "__reversed__", "__round__",
  "__sizeof__", "__subclasscheck__", "__subclasses__", "__subclasshook__", "__trunc__"]

def callableKinds : List String :=
  ["function", "staticmethod", "method_descriptor", "wrapper_descriptor"]

namespace World

def descriptor (kind sort name className : String) : Value :=
  .opaqueRef (.plain kind ("<" ++ sort ++ " '" ++ name ++ "' of '" ++ className ++ "' objects>"))

def fieldDescriptor (name className : String) : Value :=
  descriptor "getset_descriptor" "attribute" name className

def slotDescriptor (name className : String) : Value :=
  descriptor "member_descriptor" "member" name className

def viewDescriptor : Value := .opaqueRef (.plain "property" "...")

def shownAttribute (w : World) (n : Nat) : Attribute → Value
  | .value v => v
  | .ofObject _ => .opaqueRef (.plain "function" "...")
  | .ofClass _ => .opaqueRef (.plain "classmethod" "...")
  | .fixed _ | .free _ => .opaqueRef (.plain "staticmethod" "...")
  | .field _ name => fieldDescriptor name (w.className (.made n))
  | .view _ => viewDescriptor
  | .slot _ name => slotDescriptor name (w.className (.made n))

def cell (w : World) (n : Nat) : Value := (w.cells[n]?).getD .null

def placeValue (p : Place) : Value := .opaqueRef (.place p)

def contents (w : World) (p : Place) : Value :=
  match p with
  | .cell n => w.cell n
  | .attributes (.made n) =>
    .mapping (((w.classes[n]?).map (·.attributes)).getD [] |>.map fun row =>
      (.str row.1, w.shownAttribute n row.2))
  | .attributes (.builtIn _) => .mapping []
  | .shown n => .mapping ((w.cell n).rows?.getD [])

def proxied? (w : World) (v : Value) : Option Value :=
  match v with
  | .opaqueRef (.place (.cell _)) => none
  | .opaqueRef (.place p) => some (.dict ((w.contents p).rows?.getD []))
  | _ => none

/-- The value itself, or what is at its place. -/
def followed (w : World) (v : Value) : Value :=
  match v with
  | .opaqueRef (.place p) => w.contents p
  | v => v

def store (w : World) (p : Place) (v : Value) : World :=
  match p with
  | .cell n => { w with cells := w.cells.set n v }
  | .attributes _ | .shown _ => w

/-- The class of a value. -/
def classOf (w : World) (v : Value) : ClassRef :=
  match v with
  | .opaqueRef (.object o) => ((w.objects[o]?).map (·.cls)).getD (.builtIn .object)
  | .opaqueRef (.routine r) =>
    match w.handles[r]? with
    | some ⟨.operation k _, bound⟩ =>
      if !k.isBundled then .builtIn .operation
      else if bound.isSome then .builtIn .method else .builtIn .function
    | some ⟨_, some _⟩ => .builtIn .method
    | _ => .builtIn .function
  | .opaqueRef (.place (.cell n)) => .builtIn (w.cell n).kind
  | .record shape _ => .made shape.cls
  | v => .builtIn v.kind

def operationKind (name : String) (isBound : Bool) : String :=
  if name.startsWith "__" && !plainOperations.contains name then
    if isBound then "method-wrapper" else "wrapper_descriptor"
  else if isBound || name == "__new__" then Kind.operation.name
  else "method_descriptor"

def kindName (w : World) (v : Value) : String :=
  match v with
  | .opaqueRef (.plain kind _) => kind
  | .opaqueRef (.routine r) =>
    match w.handles[r]? with
    | some ⟨.operation k name, bound⟩ =>
      if k.isBundled then w.className (w.classOf v) else operationKind name bound.isSome
    | _ => w.className (w.classOf v)
  | v => w.className (w.classOf v)

def noAttribute (w : World) (v : Value) (name : String) : Fault :=
  match v with
  | .opaqueRef (.cls c) => .noAttribute (.cls (w.className c)) name
  | v => .noAttribute (.object (w.kindName v)) name

/-- The cell of the attributes that were set on a thing. -/
def attributeCell? (w : World) (v : Value) : Option Nat :=
  match v with
  | .opaqueRef (.object o) => (w.objects[o]?).bind (·.attributes)
  | .opaqueRef o => Table.find? w.extras o
  | _ => none

/-- The attribute that was set on a thing under a name. -/
def setAttribute? (w : World) (v : Value) (name : String) : Option Value := do
  let n ← w.attributeCell? v
  let rows ← (w.cell n).rows?
  let row ← rows.find? fun row => Value.same row.1 (.str name)
  return row.2

/-- An attribute that a record or a definition keeps: set on it, or else a value of its class. -/
def kept (w : World) (v : Value) (name : String) : Except Fault Value :=
  match w.setAttribute? v name, w.find? (w.classOf v) name with
  | some x, _ => .ok x
  | none, some (_, .value x) => .ok x
  | none, _ => .error (w.noAttribute v name)

mutual

def hashes (w : World) : Value → Bool
  | .tuple xs => allHash w xs
  | .opaqueRef (.object o) =>
    match w.find? (w.classOf (.opaqueRef (.object o))) "__hash__" with
    | some (_, .value .null) => false
    | _ => true
  | v => v.hashable

def allHash (w : World) : List Value → Bool
  | [] => true
  | x :: xs => hashes w x && allHash w xs

end

def slotValue? (w : World) (v : Value) (cls : Nat) (name : String) : Option Value :=
  match v with
  | .opaqueRef (.object o) => (w.objects[o]?).bind fun obj => Table.find? obj.slots (cls, name)
  | _ => none

end World

end Toolwright
