import Toolwright.Naming
import Toolwright.Tool.Definition

/-!
# Publication

What each host publishes of a definition.
-/

/-!
## Published schemas

How parameters are published. One host keeps a table of parameters under their names and builds the
schema when it is asked for; the other gets the schema itself when the tool is made.
-/

namespace Toolwright

set_option autoImplicit false

def propertySchema (type description : Value) : Except Fault Value := do
  let type ← type.text
  return .ofRows ([("type", .str type)] ++
    if description.truthy then [("description", description)] else [])

/-- A parameter of a tool class. -/
structure Parameter where
  name : String
  type : Value
  description : Value
  required : Value

def Parameter.toValue (p : Parameter) : Value :=
  .record .toolParameter [.str p.name, p.type, p.description, p.required]

abbrev ParameterTable := List (String × Parameter)

namespace ParameterTable

/-- Declares a parameter under the text of its name, replacing all fields of one declared before. -/
def declare (t : ParameterTable) (name type description required : Value) :
    Except Fault ParameterTable := do
  let name ← name.text
  return Table.insert name ⟨name, type, description, required⟩ t

def propertiesFrom (done : List (String × Value)) :
    List Parameter → Except Fault (List (String × Value))
  | [] => .ok done
  | p :: ps => do
    let property ← propertySchema p.type p.description
    propertiesFrom (Table.insert p.name property done) ps

def properties (t : ParameterTable) : Except Fault (List (String × Value)) :=
  propertiesFrom [] (t.map (·.2))

def requiredNames (t : ParameterTable) : List String :=
  ((t.map (·.2)).filter (·.required.truthy)).map (·.name)

def schema (t : ParameterTable) : Except Fault Value := do
  let properties ← t.properties
  return .ofRows ([("type", .str "object"), ("properties", .ofRows properties)] ++
    if t.requiredNames.isEmpty then []
    else [("required", .list (t.requiredNames.map .str))])

end ParameterTable

def orEmpty (v : Value) : Value := if v.truthy then v else .str ""

def functionSchema (name description parameters : Value) : Value :=
  .ofRows [("name", name), ("description", orEmpty description), ("parameters", parameters)]

def functionEntry (schema : Value) : Value :=
  .ofRows [("type", .str "function"), ("function", schema)]

/-- The arguments of a tool as a served schema. -/
structure InputSchema where
  properties : List (String × Value)
  required : List String

namespace InputSchema

/-- A schema to which parameters are added: a later one replaces the property of an earlier one of
its name. -/
def ofParamsFrom (s : InputSchema) : List ParamSpec → Except Fault InputSchema
  | [] => .ok s
  | p :: ps => do
    let property ← propertySchema p.type p.description
    let name ← p.name.text
    ofParamsFrom
      { properties := Table.insert name property s.properties
        required := if p.required.truthy then s.required ++ [name] else s.required } ps

/-- The schema of parameters in their order. -/
def ofParams (ps : List ParamSpec) : Except Fault InputSchema := ofParamsFrom ⟨[], []⟩ ps

end InputSchema

def schemaDocument (properties required : Value) : Value :=
  .ofRows [("type", .str "object"), ("properties", properties), ("required", required)]

def listingEntry (name description schema : Value) : Value :=
  .ofRows [("name", name), ("description", orEmpty description), ("inputSchema", schema)]

def Definition.inputSchema {β : Type} (d : Definition β) : Except Fault InputSchema :=
  InputSchema.ofParams d.params

end Toolwright

/-! ## What is published -/

namespace Toolwright.Definition

set_option autoImplicit false

variable {β : Type}

def publishedName (d : Definition β) : Except Fault String := do
  let name ← d.name.text
  return if name.isEmpty then Naming.toolName (Naming.className name "") else name

def parameterTable (d : Definition β) : Except Fault ParameterTable :=
  d.params.foldlM (fun t p => t.declare p.name p.type p.description (.bool true)) []

def publishedFunction (d : Definition β) : Except Fault Value := do
  let name ← d.publishedName
  return functionEntry (functionSchema (.str name) d.description (← (← d.parameterTable).schema))

def publishedListing (d : Definition β) : Except Fault Value := do
  let name ← d.publishedName
  let schema ← d.inputSchema
  return listingEntry (.str name) d.description
    (schemaDocument (.ofRows schema.properties) (.list (schema.required.map .str)))

end Toolwright.Definition
