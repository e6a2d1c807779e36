import Toolwright.Host.Run

/-!
# Machines

A `Machine` runs what a computation needs in turn, so that each definition over it describes one
level of a computation; the levels are tied together where sessions are run.
-/

namespace Toolwright

set_option autoImplicit false

/-- The context and the variables of a block that is being evaluated. -/
structure Frame where
  context : Value
  vars : Named

structure Machine where
  eval : Frame → Node → Run Value
  /-- Runs a function. -/
  call : Function → List Value → Named → Run Value
  /-- Calls a value. -/
  invoke : Value → List Value → Named → Run Value
  step : Step → Run Value

/-- What is reached under the name of an attribute. -/
inductive Access where
  | value (v : Value)
  | function (f : Function) (bound : Option Value)

def Fault.isAboutAttribute : Fault → Bool
  | .noAttribute .. | .noRoom .. | .readOnly .. | .notWritable _ => true
  | .raised kind _ => kind == "AttributeError"
  | _ => false

namespace World

def unbound? (w : World) (v : Value) : Option Function :=
  match v with
  | .opaqueRef (.routine r) =>
    match w.handles[r]? with
    | some ⟨f, none⟩ => some f
    | _ => none
  | _ => none

def reached (w : World) (holder cls : ClassRef) (self : Option Value) (a : Attribute) : Access :=
  match a with
  | .value v =>
    match self, w.unbound? v with
    | some self, some f => .function f (some self)
    | _, _ => .value v
  | .fixed v => .value v
  | .ofObject f => .function f self
  | .ofClass f => .function f (some (classValue cls))
  | .free f => .function f none
  | .field _ name => .value (fieldDescriptor name (w.className holder))
  | .view _ => .value viewDescriptor
  | .slot _ name => .value (slotDescriptor name (w.className holder))

def special? (w : World) (v : Value) (name : String) : Option Access :=
  let c := w.classOf v
  match w.find? c name with
  | some (.made n, a) => some (w.reached (.made n) c (some v) a)
  | _ => none

end World

namespace Machine

def hostsLogger : String := "tool_forge.hosts"
def adaptersLogger : String := "tool_forge.adapters"

def use (m : Machine) (a : Access) (args : List Value) (named : Named) : Run Value :=
  match a with
  | .value v => m.invoke v args named
  | .function f bound => m.call f (bound.toList ++ args) named

/-- The first answer of the special methods of two values that says something. The method of the
right one goes first if its class stands below that of the left one. -/
def consult (m : Machine) (a b : Value) (name reflected : String) : Run (Option Value) := do
  let w ← Run.world
  let left := (w.special? a name).map (m.use · [b] [])
  let right := (w.special? b reflected).map (m.use · [a] [])
  let methods :=
    if (w.above (w.classOf b)).contains (w.classOf a) then right.toList ++ left.toList
    else left.toList ++ right.toList
  methods.findSomeM? fun method => do
    match ← method with
    | .opaqueRef (.plain "NotImplementedType" _) => return none
    | v => return some v

def valueOf (a : Access) : Run Value :=
  match a with
  | .value v => return v
  | .function f bound => Run.newHandle f bound

end Machine

end Toolwright
