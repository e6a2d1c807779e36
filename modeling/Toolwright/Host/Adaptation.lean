import Toolwright.Host.Method

/-!
# Adaptation

A definition becomes a class of a host. What is published is taken over when the class is made; the
block is looked up in the definition at each call. On one host the object of the class is the
context of the block, and helpers with names of the host are left out; on the other each call has a
new object of a helper class, which takes all helpers.
-/

/-!
## Methods of records

A record is an object whose class names its fields. It is filled from arguments, prints its fields
and equals the records of its class that have the same fields.
-/

namespace Toolwright

set_option autoImplicit false

namespace Machine

def fillRecord (m : Machine) (s : Shape) (arg : String → Value) : Run Value := do
  s.fields.forM fun name => do m.assign (arg "self") name (← Run.share (arg name))
  return .null

def recordText (m : Machine) (s : Shape) (self : Value) : Run Value := do
  let w ← Run.world
  if (w.shape? (w.classOf self)).isSome then return .str (← m.printed self)
  let parts ← s.fields.mapM fun name => do
    return name ++ "=" ++ (← m.printed (← m.ask self name))
  return .str (w.qualifiedName (w.classOf self) ++ "(" ++ ", ".intercalate parts ++ ")")

def sameRecord (m : Machine) (s : Shape) (a b : Value) : Run Value := do
  let w ← Run.world
  if w.classOf a != w.classOf b then return Value.notImplemented
  let first ← s.fields.mapM (m.ask a)
  return .bool (w.sameValues (.tuple first) (.tuple (← s.fields.mapM (m.ask b))))

def recordDocument (m : Machine) (s : Shape) (self : Value) : Run Value := do
  match s with
  | .inputSchema =>
    let properties ← m.ask self "properties"
    Run.share (schemaDocument properties (← m.ask self "required"))
  | _ =>
    let content ← m.ask self "content"
    Run.share (.ofRows [("content", content), ("isError", ← m.ask self "is_error")])

def applyRecordMethod (m : Machine) (s : Shape) (method : RecordMethod) (args : List Value)
    (named : Named) : Run Value := do
  let arg ← Run.lift (bindAll (method.signature s).takes args named)
  match method with
  | .fill => m.fillRecord s arg
  | .text => m.recordText s (arg "self")
  | .equals => m.sameRecord s (arg "self") (arg "other")
  | .document => m.recordDocument s (arg "self")

end Machine

/-! ## Adapting -/

def llmHost : String := "llm"
def mcpHost : String := "mcp"

namespace World

/-- The class that stands for a host. -/
def resolveHost (w : World) (kind : String) : Option ClassRef := (Table.find? w.hosts kind).join

/-- A notice where another class stood for the host, and a note of the class that stands now. -/
def registerNotices (w : World) (kind : String) (cls : Option ClassRef) : List Notice :=
  let shown := (cls.map w.className).getD "None"
  let note : Notice :=
    ⟨Machine.hostsLogger, 10, .ok ("Host registered: " ++ kind ++ " -> " ++ shown)⟩
  match w.resolveHost kind with
  | some previous =>
    if cls == some previous then [note]
    else
      [⟨Machine.hostsLogger, 30, .ok ("Host " ++ Text.quoted kind ++ " already registered (" ++
        w.className previous ++ "), overwriting")⟩, note]
  | none => [note]

def registerHost (w : World) (kind : String) (cls : Option ClassRef) : World :=
  { w with hosts := Table.insert kind cls w.hosts }

def unregisterHost (w : World) (kind : String) : World :=
  { w with hosts := Table.erase kind w.hosts }

end World

abbrev Helper := Value × Scope × Value

namespace Helper

def name? (h : Helper) : Option String :=
  match h.1 with
  | .str name => some name
  | _ => none

def attribute? (h : Helper) : Option (String × Attribute) :=
  h.name?.map fun name =>
    (name, match h.2.1 with
      | .ofInstance => .ofObject (.forwards h.2.2)
      | .ofClass => .fixed h.2.2)

end Helper

namespace Machine

def requireHost (kind : String) (base : Value) (label module : String) : Run Value := do
  match base, (← Run.world).resolveHost kind with
  | .null, some c => return World.classValue c
  | .null, none => throw (.hostMissing kind label module)
  | base, _ => return base

def asClass (v : Value) : Run ClassRef :=
  match v with
  | .opaqueRef (.cls c) => return c
  | _ => throw .mismatch

def helpersOf (m : Machine) (definition : Value) : Run (List Helper) := do
  let helpers ← m.ask definition "helper_methods"
  let ofInstance ← m.rowsOf (← m.ask helpers "instance")
  let ofClass ← m.rowsOf (← m.ask helpers "class_scope")
  return mergeHelpers Value.same ofInstance ofClass

/-- The helpers of a definition whose names are not reserved, with a warning for each other one. -/
def freeHelpers (m : Machine) (definition : Value) (reserved : List String) :
    Run (List Helper) := do
  let helpers ← m.helpersOf definition
  (collisions (helpers.filterMap Helper.name?) reserved).forM fun name => do
    let tool ← m.ask definition "name"
    Run.note adaptersLogger 30 (do
      return "Tool " ++ (← m.printed tool) ++ ": helper " ++ Text.quoted name ++
        " collides with the host API and is not installed")
  return helpers.filter fun h => !(h.name?.any reserved.contains)

/-- The names that a class of a function-calling host keeps from helpers. -/
def reservedNames (w : World) (base : Value) : List String :=
  let names := match base with
    | .opaqueRef (.cls c) => w.attributeNames c
    | _ => []
  names.filter (fun name => !name.startsWith "__") ++ ["execute", "definition"]

def withAttributes (attributes more : List (String × Attribute)) : List (String × Attribute) :=
  Table.ofRows (attributes ++ more)

def nameText (m : Machine) (definition : Value) : Run String := do
  m.text (← m.ask definition "name")

def sizeOf (v : Value) : Run Nat := do
  match (← Run.look v).length? with
  | some n => return n
  | none => throw .mismatch

def publish (m : Machine) (cls definition : Value) (name : Run String) : Run Unit := do
  let setName ← m.reach cls "tool_name"
  let _ ← m.use setName [.str (← name)] []
  let setDescription ← m.reach cls "description"
  let _ ← m.use setDescription [← m.send definition "description" [] []] []
  return

def adaptLlm (m : Machine) (definition base : Value) : Run Value := do
  let base ← requireHost llmHost base "LLM tool host" "tool_forge.hosts.llm"
  let helpers ← m.freeHelpers definition (reservedNames (← Run.world) base)
  let doc ← m.send definition "description" [] []
  let name ← m.nameText definition
  let n ← m.buildClass (Naming.className name "") (← asClass base)
    (withAttributes (helpers.filterMap Helper.attribute?)
      [("__module__", .value (.str World.llmModule)), ("__doc__", .value doc),
        ("definition", .value definition), ("execute", .ofObject (.runs definition))])
  let cls := World.classValue (.made n)
  m.publish cls definition (m.nameText definition)
  for p in ← m.iterate (← m.ask definition "params") do
    let param ← m.reach cls "param"
    let name ← m.ask p "name"
    let type ← m.ask p "type"
    let _ ← m.use param [name] [("type", type), ("desc", ← m.ask p "description")]
  let name ← m.ask definition "name"
  let params ← sizeOf (← m.ask definition "params")
  let helpers ← m.ask definition "helper_methods"
  let ofInstance ← sizeOf (← m.ask helpers "instance")
  let ofClass ← sizeOf (← m.ask helpers "class_scope")
  Run.note adaptersLogger 10 (do
    return "Materialized LLM tool " ++ (← m.text name) ++ " (" ++ toString params ++ " params, " ++
      toString (ofInstance + ofClass) ++ " helpers)")
  return cls

/-- A declared parameter as a served schema takes it: the texts of its name and its type, and
whether its description and its being required count as true. -/
def servedParam (m : Machine) (v : Value) : Run ParamSpec := do
  let type ← m.text (← m.ask v "type")
  let described ← m.ask v "description"
  let description ← if ← m.truthy described then pure described else pure .null
  let name ← m.text (← m.ask v "name")
  return { name := .str name, type := .str type, description
           required := .bool (← m.truthy (← m.ask v "required")) }

/-- The input schema of a definition. -/
def servedSchema (m : Machine) (definition : Value) : Run InputSchema := do
  let params ← (← m.iterate (← m.ask definition "params")).mapM m.servedParam
  Run.lift (InputSchema.ofParams params)

def schemaFields (s : InputSchema) : Run (Value × Value) := do
  let properties ← Run.share (.ofRows s.properties)
  return (properties, ← Run.share (.list (s.required.map .str)))

def adaptMcp (m : Machine) (definition base config : Value) : Run Value := do
  let base ← requireHost mcpHost base "MCP tool host" "tool_forge.hosts.mcp"
  let indent ← if ← m.truthy config then m.ask config "json_indent"
    else pure ({} : Config).jsonIndent
  let toolName ← m.nameText definition
  let helperName := Naming.className (← m.nameText definition) "Helpers"
  let helpers ← m.helpersOf definition
  let helperClass ← m.buildClass helperName (.builtIn .object)
    (withAttributes (helpers.filterMap Helper.attribute?)
      [("__module__", .value (.str World.mcpModule))])
  let doc ← m.send definition "description" [] []
  let name ← m.nameText definition
  let n ← m.buildClass (Naming.className name "") (← asClass base)
    [("__module__", .value (.str World.mcpModule)), ("__doc__", .value doc),
      ("definition", .value definition),
      ("helper_class", .value (World.classValue (.made helperClass))),
      ("call", .ofClass (.serves definition helperClass indent toolName))]
  let cls := World.classValue (.made n)
  let schema ← m.servedSchema definition
  m.publish cls definition (pure toolName)
  let (properties, required) ← schemaFields schema
  let _ ← m.send cls "input_schema" [] [("properties", properties), ("required", required)]
  Run.note adaptersLogger 10 (do
    let keys ← m.printed (.list ((Table.keys schema.properties).map .str))
    return "Materialized MCP tool " ++ toolName ++ " (properties=" ++ keys ++ ", required=" ++
      (← m.printed required) ++ ")")
  return cls

end Machine

end Toolwright
