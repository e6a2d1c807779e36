import Toolwright.Host.Showing
import Toolwright.Host.Signature

/-!
# Access to attributes

An attribute is reached through a value or through a class. What its class computes or keeps for a
value comes first, then what was set on the value, then what its class finds. A made class can take
over each of these steps.
-/

namespace Toolwright

set_option autoImplicit false

namespace World

def baseOf (w : World) (c : ClassRef) : Value :=
  match w.above c with
  | [] => .null
  | b :: _ => classValue b

def slotNames (w : World) (c : ClassRef) : List String :=
  (w.lineage c).flatMap fun
    | .builtIn _ => []
    | .made n =>
      ((w.classes[n]?).map (·.attributes)).getD [] |>.filterMap fun row =>
        match row.2 with
        | .slot _ name => some name
        | _ => none

def isOpen (w : World) (c : ClassRef) : Bool :=
  (w.lineage c).any fun
    | .made n => ((w.classes[n]?).map (·.isOpen)).getD false
    | .builtIn _ => false

def objectSize (w : World) (c : ClassRef) : Nat :=
  16 + 8 * (w.slotNames c).length + if w.isOpen c then 8 else 0

def sameLayout (w : World) (a b : ClassRef) : Bool :=
  w.slotNames a == w.slotNames b && w.isOpen a == w.isOpen b

def ownValue? (w : World) (c : ClassRef) (name : String) : Option Value :=
  match w.own? c name with
  | some (.value v) => some v
  | _ => none

end World

namespace Machine

def keepOn (n : Nat) (name : String) (v : Value) : Run Value := do
  let kept ← Run.share v
  modify fun w => w.setAttribute n name (.value kept)
  return kept

def ownAttribute (c : ClassRef) (name : String) : Run (Option Value) := do
  let w ← Run.world
  match w.own? c name with
  | some a => some <$> valueOf (w.reached c c none a)
  | none => return none

def readClassField (c : ClassRef) (name : String) : Run (Option Value) := do
  let w ← Run.world
  match name, c with
  | "__name__", c => return some (.str (w.className c))
  | "__qualname__", .made n =>
    return some (.str (((w.classes[n]?).map (·.qualifiedName)).getD ""))
  | "__qualname__", .builtIn k => return some (.str k.name)
  | "__bases__", c => return some (.tuple ((w.above c).take 1 |>.map World.classValue))
  | "__mro__", c => return some (.tuple ((w.lineage c).map World.classValue))
  | "__base__", c => return some (w.baseOf c)
  | "__module__", .builtIn _ => return some (.str "builtins")
  | "__doc__", .builtIn k => return some (k.description)
  | "__doc__", c => return some ((← ownAttribute c "__doc__").getD .null)
  | "__dict__", c => return some (.opaqueRef (.place (.attributes c)))
  | "__annotations__", .made n =>
    match ← ownAttribute c "__annotations__" with
    | some v => return some v
    | none => return some (← keepOn n "__annotations__" (.dict []))
  | "__text_signature__", .made _ => return some .null
  | "__text_signature__", .builtIn k => return some k.signature
  | "__itemsize__", _ => return some (.int 0)
  | "__basicsize__", c => return some (.int (w.objectSize c))
  | "__dictoffset__", c => return some (.int (if w.isOpen c then -48 else 0))
  | "__weakrefoffset__", c => return some (.int (if w.isOpen c then 16 else 0))
  | "__flags__", c => return some (.int (if w.isOpen c then 22032 else 546304))
  | name, c => return w.ownValue? c name

def readHandleField (r : Nat) (name : String) : Run (Option Value) := do
  let w ← Run.world
  let path := (w.handles[r]?).bind fun h => w.functionPath? h.function h.bound
  let isBuiltIn := w.classOf (.opaqueRef (.routine r)) == .builtIn .operation
  let signature := ((w.handles[r]?).bind (·.function.signature?)).getD {}
  match name, w.handles[r]?, path with
  | "__self__", some ⟨_, some v⟩, _ => return some v
  | "__func__", some ⟨f, _⟩, _ => return some (← Run.newHandle f none)
  | "__name__", _, some path => return some (.str path.name)
  | "__qualname__", _, some path => return some (.str path.qualifiedName)
  | "__module__", _, some path => return some (if isBuiltIn then .null else .str path.module)
  | "__doc__", _, _ => return some signature.description
  | "__annotations__", _, _ => return some signature.annotations
  | "__defaults__", _, _ => return some signature.defaults
  | "__closure__", some ⟨f, _⟩, _ =>
    let cells := List.replicate f.captured (.opaqueRef (.plain "cell" "..."))
    return some (if cells.isEmpty then .null else .tuple cells)
  | "__dict__", some ⟨.forwards helper, _⟩, _ => return some (.ofRows [("__wrapped__", helper)])
  | "__dict__", _, _ => return some (.dict [])
  | "__code__", _, _ => return some (.opaqueRef (.plain "code" "..."))
  | "__module__", _, _ | "__kwdefaults__", _, _ | "__text_signature__", _, _ => return some .null
  | _, _, _ => return some (.opaqueRef (.plain "object" "..."))

/-- The cell of the attributes that are set on a thing, made where there is none yet. -/
def attributeCell (v : Value) : Run (Option Nat) := do
  match (← Run.world).attributeCell? v, v with
  | some n, _ => return some n
  | none, .opaqueRef (.object _) => return none
  | none, .opaqueRef o =>
    let n ← Run.newCell (.dict [])
    modify fun w => { w with extras := w.extras ++ [(o, n)] }
    return some n
  | none, _ => return none

def readField (v : Value) (name : String) : Run (Option Value) := do
  let w ← Run.world
  match name, v with
  | "__class__", v => return some (World.classValue (w.classOf v))
  | name, .opaqueRef (.cls c) => readClassField c name
  | name, .opaqueRef (.routine r) => readHandleField r name
  | "__weakref__", _ => return some .null
  | "mapping", .opaqueRef (.view _ id) => return (w.views[id]?).map fun view =>
    match view.source with
    | .opaqueRef (.place (.cell n)) => World.placeValue (.shown n)
    | v => v
  | "_mapping", .opaqueRef (.view _ id) => return (w.views[id]?).map (·.source)
  | "__dict__", v => return (← attributeCell v).map fun n => World.placeValue (.cell n)
  | "real", .float x => return some (.float x)
  | "imag", .float _ => return some (.float (.zero false))
  | "real", v | "numerator", v => return v.asInt?.map .int
  | "imag", _ => return some (.int 0)
  | "denominator", _ => return some (.int 1)
  | _, _ => return none

def plainAccess (v : Value) (name : String) : Run (Option Access) := do
  let w ← Run.world
  let own (holder : ClassRef) (a : Attribute) : Access := w.reached holder (w.classOf v) (some v) a
  match v, w.find? (w.classOf v) name with
  | v, some (_, .field ..) => return (← readField v name).map .value
  | v, some (_, .view of) => return some (.value (← Run.lift (w.kept v of)))
  | .opaqueRef (.cls c), found =>
    match w.find? c name with
    | some (holder, a) => return some (w.reached holder c none a)
    | none => return found.map fun row => own row.1 row.2
  | v, some (_, .slot n slot) => return (w.slotValue? v n slot).map .value
  | .opaqueRef (.routine r), none =>
    if w.classOf v == .builtIn .method && Kind.function.fields.contains name then
      return (← readHandleField r name).map .value
    match name, w.handles[r]? with
    | "__wrapped__", some ⟨.forwards helper, _⟩ => return some (.value helper)
    | name, _ => return (w.setAttribute? v name).map .value
  | v, found =>
    match w.setAttribute? v name with
    | some x => return some (.value x)
    | none => return found.map fun row => own row.1 row.2

def plainReach (v : Value) (name : String) : Run Access := do
  match ← plainAccess v name with
  | some a => return a
  | none =>
    match v, name with
    | .opaqueRef (.cls _), "__abstractmethods__" => throw (.raised "AttributeError" name)
    | v, name => throw ((← Run.world).noAttribute v name)

/-- What is reached under the name of an attribute; a class can say what stands for any name, or for
the names that are not there. -/
def reach (m : Machine) (v : Value) (name : String) : Run Access := do
  let w ← Run.world
  let first : Run Access :=
    match w.special? v "__getattribute__" with
    | some a => .value <$> m.use a [.str name] []
    | none => plainReach v name
  match w.special? v "__getattr__" with
  | none => first
  | some a =>
    try first
    catch f => if f.isAboutAttribute then .value <$> m.use a [.str name] [] else throw f

def has (m : Machine) (v : Value) (name : String) : Run Bool :=
  try
    let _ ← m.reach v name
    return true
  catch f => if f.isAboutAttribute then return false else throw f

def attributeOr (m : Machine) (v : Value) (name : String) (default : Value) : Run Value :=
  try
    valueOf (← m.reach v name)
  catch f => if f.isAboutAttribute then return default else throw f

/-- An attribute as a value. -/
def ask (m : Machine) (v : Value) (name : String) : Run Value := do
  valueOf (← m.reach v name)

/-- Calls an attribute of a value. -/
def send (m : Machine) (v : Value) (name : String) (args : List Value) (named : Named) :
    Run Value := do
  m.use (← m.reach v name) args named

def sendClass (m : Machine) (c : ClassRef) (name : String) (args : List Value) (named : Named) :
    Run Value := m.send (World.classValue c) name args named

end Machine

end Toolwright
