import Toolwright.Block.Syntax
import Toolwright.Tool.Routine
import Toolwright.Value.Description
import Toolwright.Value.Features

/-!
# Worlds

What a session works on: classes with their attributes, objects, the containers that can change,
which class stands for which host, and the records logged. Definitions and what they declare are
objects of bundled classes. A class finds an attribute in itself first and then in the classes above
it, nearest first.
-/

namespace Toolwright

set_option autoImplicit false

inductive HostMethod where
  /-- The name of a function-calling tool. -/
  | functionName
  /-- The name of a served tool. -/
  | servedName
  | description
  | param
  | parameters
  | execute
  | callFunction
  | functionSchema
  | functionEntry
  | inputSchema
  | serve
  | listing
  | copyParameters
  deriving DecidableEq

inductive RecordMethod where
  | fill
  | text
  | equals
  | document
  deriving DecidableEq

inductive DefinitionMethod where
  | configure
  | describe
  | declare
  | store
  | help (scope : Scope)
  | toFunctionTool
  | toServedTool
  | text
  deriving DecidableEq

inductive BundledMethod where
  | host (m : HostMethod)
  | record (shape : Shape) (m : RecordMethod)
  | definition (m : DefinitionMethod)
  deriving DecidableEq

inductive Body where
  | block (b : Block)
  | routine (r : Routine)

/-- What a call runs. One that works on an object or on a class takes it as its first argument. -/
inductive Function where
  /-- A body of an instance takes its context first; one of a class takes none. -/
  | body (scope : Scope) (b : Body)
  /-- A method written for the class itself; it takes named arguments only. -/
  | ownMethod (b : Block)
  /-- Calls a helper with the object that it is reached through as the context. -/
  | forwards (helper : Value)
  /-- Executes the block that a definition holds when it is called. -/
  | runs (definition : Value)
  /-- Executes the block of a definition on a new object of the helper class and answers with the
  text of the result. -/
  | serves (definition : Value) (helperClass : Nat) (indent : Value) (toolName : String)
  /-- Registers its argument as a helper of a definition. -/
  | registers (definition : Value) (scope : Scope) (name : Value)
  | bundled (m : BundledMethod)
  | operation (kind : Kind) (name : String)

/-- What a class holds under a name. -/
inductive Attribute where
  | value (v : Value)
  /-- A value that is bound to nothing, whatever it is reached through. -/
  | fixed (v : Value)
  /-- Bound to the object that it is reached through. -/
  | ofObject (f : Function)
  /-- Bound to the class. -/
  | ofClass (f : Function)
  | free (f : Function)
  /-- Computed from the value that it is reached through. -/
  | field (kind : Kind) (name : String)
  /-- Shows another attribute of the value that it is reached through. -/
  | view (of : String)
  /-- Kept in each object under the class and the name. -/
  | slot (cls : Nat) (name : String)

/-- What is shown of a container, as it is at each moment. -/
structure View where
  source : Value
  part : Part := .keys

/-- What gives the items of a view one after another, from its front or from its back. -/
structure Cursor where
  view : View
  isReversed : Bool := false
  /-- How many items there were at the start. -/
  length : Nat
  position : Nat := 0
  isDone : Bool := false

/-- A function as a value, with the value it was bound to if it was. -/
structure Handle where
  function : Function
  bound : Option Value

structure HostClass where
  name : String
  /-- The name with what it is part of. -/
  qualifiedName : String
  base : ClassRef
  /-- The classes above, nearest first. -/
  lineage : List ClassRef
  attributes : List (String × Attribute)
  /-- Whether attributes of any name can be set on its objects. -/
  isOpen : Bool := true

structure HostObject where
  cls : ClassRef
  /-- The cell of the attributes that were set, if any can be set. -/
  attributes : Option Nat
  slots : List ((Nat × String) × Value) := []

structure World where
  /-- The definitions being configured, innermost first. -/
  configuring : List Value := []
  classes : List HostClass := []
  objects : List HostObject := []
  /-- The containers that can change. -/
  cells : List Value := []
  handles : List Handle := []
  views : List View := []
  cursors : List Cursor := []
  /-- The cells of the attributes that were set on other things than objects. -/
  extras : List (Opaque × Nat) := []
  /-- The class that stands for a host; none marks a host as absent. -/
  hosts : List (String × Option ClassRef) := []
  /-- The level from which records are kept. -/
  logFrom : Int := 20
  log : List Record := []
  /-- The next mark for a new not-a-number or opaque object. -/
  marks : Nat := 0
  surroundings : Surroundings := ⟨[], ""⟩
  definitionIds : List (String × Value) := []
  classIds : List (String × ClassRef) := []
  objectIds : List (String × Value) := []

def definitionClass : Nat := 3

def Shape.cls : Shape → Nat
  | .response cls _ => cls
  | .helperTable => 4
  | .paramSpec => 5
  | .toolParameter => 6
  | .inputSchema => 7

def configClass : Nat := 8

namespace Kind

def attribute? (k : Kind) (name : String) : Option Attribute :=
  if k.fields.contains name then some (.field k name)
  else if k.operations.contains name then some (.ofObject (.operation k name))
  else if k.classOperations.contains name then some (.ofClass (.operation k name))
  else if k.freeOperations.contains name then some (.free (.operation k name))
  else if name == "__module__" && k.isBundled then some (.value (.str k.module))
  else if name == "__doc__" && k != .type then some (.value (k.description))
  else if name == "__hash__" && k.isUnhashable then some (.value .null)
  else if name == "__reversed__" && k == .mapping then some (.value .null)
  else none

end Kind

namespace World

def own? (w : World) (c : ClassRef) (name : String) : Option Attribute :=
  match c with
  | .builtIn k => k.attribute? name
  | .made n => (w.classes[n]?).bind fun cls => Table.find? cls.attributes name

def above (w : World) (c : ClassRef) : List ClassRef :=
  match c with
  | .builtIn k => k.above.map .builtIn
  | .made n => ((w.classes[n]?).map (·.lineage)).getD []

def lineage (w : World) (c : ClassRef) : List ClassRef := c :: w.above c

def find? (w : World) (c : ClassRef) (name : String) : Option (ClassRef × Attribute) :=
  (w.lineage c).findSome? fun holder => (w.own? holder name).map (holder, ·)

def className (w : World) (c : ClassRef) : String :=
  match c with
  | .builtIn k => k.name
  | .made n => ((w.classes[n]?).map (·.name)).getD ""

def qualifiedName (w : World) (c : ClassRef) : String :=
  match c with
  | .builtIn k => k.name
  | .made n => ((w.classes[n]?).map (·.qualifiedName)).getD ""

def shape? (w : World) (c : ClassRef) : Option Shape :=
  let shapes : List Shape := [.helperTable, .paramSpec, .toolParameter, .inputSchema]
  (w.lineage c).findSome? fun holder =>
    match holder, c with
    | .made h, .made n =>
      if h == answerClass then some (.response n (w.qualifiedName c))
      else shapes.find? fun s => s.cls == h
    | _, _ => none

/-- The names of all attributes that a class finds in classes that were made. -/
def attributeNames (w : World) (c : ClassRef) : List String :=
  (w.lineage c).flatMap fun holder =>
    match holder with
    | .builtIn _ => []
    | .made n => ((w.classes[n]?).map fun cls => Table.keys cls.attributes).getD []

def modifyClass (w : World) (n : Nat) (f : HostClass → HostClass) : World :=
  { w with classes := w.classes.modify n f }

def setAttribute (w : World) (n : Nat) (name : String) (a : Attribute) : World :=
  w.modifyClass n fun cls => { cls with attributes := Table.insert name a cls.attributes }

def classValue (c : ClassRef) : Value := .opaqueRef (.cls c)

def recordClass (s : Shape) : Value := classValue (.made s.cls)

end World

end Toolwright
