import Toolwright.Table
import Toolwright.Value.Printed

/-!
# Tool definitions

A definition declares a tool once: its name, description, parameters, the block that it executes and
the helpers of that block. Each builder step gives a new definition. Parameters keep their order,
also when a name comes again; the last block stored is the one executed. Sessions keep definitions
as objects that can change.
-/

namespace Toolwright

set_option autoImplicit false

structure ParamSpec where
  name : Value
  type : Value := .str "string"
  description : Value := .null
  required : Value := .bool true
  default : Value := .null

def ParamSpec.toValue (p : ParamSpec) : Value :=
  .record .paramSpec [p.name, p.type, p.description, p.required, p.default]

/-- An instance helper takes the context first; a class helper takes none. -/
inductive Scope where
  | ofInstance
  | ofClass
  deriving DecidableEq

structure Definition (β : Type) where
  name : Value
  description : Value := .null
  params : List ParamSpec := []
  block : Option β := none
  instanceHelpers : List (String × β) := []
  classHelpers : List (String × β) := []

/-- Both kinds of helpers under their names; where a name is of both kinds, the class helper counts
and stands in the place of the instance helper. -/
def mergeHelpers {κ β : Type} (same : κ → κ → Bool) (ofInstance ofClass : List (κ × β)) :
    List (κ × Scope × β) :=
  ofClass.foldl (fun t h => Table.insertBy same h.1 (.ofClass, h.2) t)
    (ofInstance.map fun h => (h.1, .ofInstance, h.2))

def collisions (names reserved : List String) : List String :=
  (names.filter reserved.contains).mergeSort fun a b => a ≤ b

namespace Definition

variable {β : Type}

/-- The definition with other blocks and helpers in the place of its own. -/
def map {γ : Type} (f : β → γ) (d : Definition β) : Definition γ where
  name := d.name
  description := d.description
  params := d.params
  block := d.block.map f
  instanceHelpers := d.instanceHelpers.map fun h => (h.1, f h.2)
  classHelpers := d.classHelpers.map fun h => (h.1, f h.2)

def describe (d : Definition β) (text : Value) : Definition β :=
  match text with
  | .null => d
  | text => { d with description := text }

def declare (d : Definition β) (p : ParamSpec) : Definition β :=
  { d with params := d.params ++ [p] }

def store (d : Definition β) (block : β) : Definition β := { d with block := some block }

def help (d : Definition β) (scope : Scope) (name : String) (block : β) : Definition β :=
  match scope with
  | .ofInstance => { d with instanceHelpers := Table.insert name block d.instanceHelpers }
  | .ofClass => { d with classHelpers := Table.insert name block d.classHelpers }

/-- The one-line form of a definition of which the name and the names of the parameters print as
given. -/
def line (name params : String) : String :=
  "ToolDefinition(name=" ++ name ++ ", params=" ++ params ++ ")"

def printed (d : Definition β) : Except Fault String := do
  let name ← d.name.printed
  return line name (← (Value.list (d.params.map (·.name))).printed)

def summary (name description : Value) (params : List Value) (hasBlock : Bool)
    (ofInstance ofClass : List Value) : Value :=
  .ofRows [("name", name), ("description", description), ("params", .list params),
    ("has_execute", .bool hasBlock), ("instance", .list ofInstance), ("class_scope", .list ofClass)]

def helperNames (helpers : List (String × β)) : List Value := (Table.keys helpers).map .str

def inspect (d : Definition β) : Value :=
  summary d.name d.description (d.params.map ParamSpec.toValue) d.block.isSome
    (helperNames d.instanceHelpers) (helperNames d.classHelpers)

end Definition

end Toolwright
