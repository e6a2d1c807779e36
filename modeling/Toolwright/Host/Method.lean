import Toolwright.Host.Operation
import Toolwright.Naming

/-!
# Methods of host classes

What the methods of the bundled host classes do. Declarations belong to the class that they are made
on; a class starts with the parameters that it finds when it is made.
-/

namespace Toolwright

set_option autoImplicit false

namespace Machine

def takeClass (args : List Value) : Run (ClassRef × List Value) :=
  match args with
  | .opaqueRef (.cls c) :: args => return (c, args)
  | _ => throw .mismatch

def takeSelf (args : List Value) : Run (Value × List Value) :=
  match args with
  | self :: args => return (self, args)
  | [] => throw .mismatch

def ownValue (c : ClassRef) (name : String) : Run Value := do
  match (← Run.world).own? c name, c with
  | some a, .made n => return (← Run.world).shownAttribute n a
  | _, _ => return .null

/-- The name that a class was given, or else the one made from its class name. -/
def toolNameOf (m : Machine) (c : ClassRef) : Run Value := do
  let given ← ownValue c "_name"
  if ← m.truthy given then return given
  else return .str (Naming.toolName ((← Run.world).className c))

def declare (c : ClassRef) (name : String) (v : Value) : Run Value := do
  plainAssign (World.classValue c) name v
  return .null

def pairOf (m : Machine) (v : Value) : Run (Value × Value) := do
  match ← m.iterate v with
  | [k, x] => return (k, x)
  | xs =>
    if xs.length < 2 then
      throw (.unreadable ("not enough values to unpack (expected 2, got " ++
        toString xs.length ++ ")"))
    else throw (.unreadable "too many values to unpack (expected 2)")

def rowsOf (m : Machine) (v : Value) : Run (List (Value × Value)) := do
  match (← Run.look v).rows? with
  | some rows => return rows
  | none => (← m.iterate (← m.send v "items" [] [])).mapM m.pairOf

def valuesOf (m : Machine) (v : Value) : Run (List Value) := do
  match (← Run.look v).rows? with
  | some rows => return rows.map (·.2)
  | none => m.iterate (← m.send v "values" [] [])

def setItem (m : Machine) (container key v : Value) : Run Unit := do
  match (← Run.world).special? container "__setitem__", (← Run.look container).kind with
  | some a, _ =>
    let _ ← m.use a [key, v] []
    return
  | none, .dict | none, .list =>
    let _ ← m.kindOperation "__setitem__" container [key, v]
    return
  | none, _ => throw .mismatch

def copyRows (m : Machine) (v : Value) : Run Value := m.convert .dict [v]

def copyItems (m : Machine) (v : Value) : Run Value := m.convert .list [v]

def inputSchemaOf (m : Machine) (c : ClassRef) : Run Value := do
  let given ← ownValue c "_input_schema"
  if ← m.truthy given then return given else m.invoke (World.recordClass .inputSchema) [] []

def declareSchema (m : Machine) (c : ClassRef) (properties required : Value) : Run Value := do
  let properties ← if ← m.truthy properties then m.copyRows properties else Run.kept (.dict [])
  let required ← if ← m.truthy required then m.copyItems required else Run.kept (.list [])
  let schema ← m.invoke (World.recordClass .inputSchema) []
    [("properties", properties), ("required", required)]
  declare c "_input_schema" schema

def parametersOf (m : Machine) (c : ClassRef) : Run Value :=
  m.ask (World.classValue c) "_parameters"

def declareParameter (m : Machine) (c : ClassRef) (name type description required : Value) :
    Run Value := do
  let text ← m.text name
  let parameter ← m.invoke (World.recordClass .toolParameter) []
    [("name", .str text), ("type", type), ("description", description), ("required", required)]
  let parameters ← m.parametersOf c
  m.setItem parameters (.str (← m.text name)) parameter
  return .null

def copyParameters (m : Machine) (c : ClassRef) : Run Value := do
  declare c "_parameters" (← m.copyRows (← m.parametersOf c))

/-- The parameter that a value describes by its attributes, and the name under which it stands: the
text of its type, and whether its description and its being required count as true. -/
def describedParameter (m : Machine) (v : Value) : Run (Value × Parameter) := do
  let type ← m.text (← m.ask v "type")
  let described ← m.ask v "description"
  let description ← if ← m.truthy described then pure described else pure .null
  let name ← m.ask v "name"
  let _ ← m.hashOf name
  let required ← m.truthy (← m.ask v "required")
  return (name, ⟨"", .str type, description, .bool required⟩)

def tableRow? (row : Value × Parameter) : Option (String × Parameter) :=
  match row.1 with
  | .str name => some (name, { row.2 with name })
  | _ => none

def describedSchema (rows : List (Value × Parameter)) : Except Fault Value := do
  let properties ← rows.mapM fun row => do
    return (row.1, ← propertySchema row.2.type row.2.description)
  let required := (rows.filter fun row => row.2.required.truthy).map (·.1)
  return .ofRows ([("type", .str "object"), ("properties", .dict (Value.collectRows properties))] ++
    if required.isEmpty then [] else [("required", .list required)])

def parameterSchema (m : Machine) (c : ClassRef) : Run Value := do
  let rows ← (← m.valuesOf (← m.parametersOf c)).mapM m.describedParameter
  match rows.mapM tableRow? with
  | some t => Run.lift (ParameterTable.schema t)
  | none => Run.lift (describedSchema rows)

def callArguments (m : Machine) (v : Value) : Run Named := do
  if !(← m.truthy v) then return []
  return Table.ofRows (← (← m.rowsOf v).mapM fun row => do return (← m.text row.1, row.2))

/-- Dispatches a mapping of arguments to the method that executes, and logs both. -/
def callFunction (m : Machine) (self args : Value) : Run Value := do
  let named ← m.callArguments args
  let name ← m.send self "tool_name" [] []
  Run.note hostsLogger 10 (do
    let tool ← m.text name
    return "Tool " ++ tool ++ " called with: " ++ (← m.printed (.ofRows named)))
  let result ← m.send self "execute" [] named
  let name ← m.send self "tool_name" [] []
  Run.note hostsLogger 10 (do
    let tool ← m.text name
    return "Tool " ++ tool ++ " returned: " ++ (← m.printed result))
  return result

/-- A value, or the empty text in place of one that does not count as true. -/
def orEmpty (m : Machine) (v : Value) : Run Value := do
  if ← m.truthy v then return v else return .str ""

def declaration (c : ClassRef) (key : String) (read : Run Value) (given : Value) : Run Value :=
  match given with
  | .null => read
  | v => declare c key v

/-- Takes the server context out of the arguments; it is the only one that may be given by position.
-/
def takeServerContext (args : List Value) (named : Named) : Run Named :=
  match args with
  | [] => return Table.erase "server_context" named
  | [_] =>
    if (Table.find? named "server_context").isSome then throw .mismatch else return named
  | _ => throw .mismatch

def applyClassMethod (m : Machine) (method : HostMethod) (c : ClassRef) (args : List Value)
    (named : Named) : Run Value := do
  let bound : Run (String → Value) := Run.lift (bindAll method.signature.takes args named)
  match method with
  | .functionName | .servedName =>
    let arg ← bound
    declaration c "_name" (m.toolNameOf c) (arg "name")
  | .description =>
    let arg ← bound
    declaration c "_description" (ownValue c "_description") (arg "text")
  | .param =>
    let arg ← bound
    m.declareParameter c (arg "name") (arg "type") (arg "desc") (arg "required")
  | .parameters =>
    let _ ← bound
    m.copyRows (← m.parametersOf c)
  | .functionSchema =>
    let _ ← bound
    let parameters ← m.parameterSchema c
    let name ← m.sendClass c "tool_name" [] []
    let description ← m.orEmpty (← m.sendClass c "description" [] [])
    Run.share (functionSchema name description parameters)
  | .functionEntry =>
    let _ ← bound
    Run.share (functionEntry (← m.sendClass c "to_json_schema" [] []))
  | .inputSchema =>
    let arg ← bound
    match arg "properties", arg "required" with
    | .null, .null => m.inputSchemaOf c
    | properties, required => m.declareSchema c properties required
  | .serve =>
    let _ ← takeServerContext args named
    throw (.notImplemented ((← Run.world).className c) "call")
  | .listing =>
    let _ ← bound
    let name ← m.sendClass c "tool_name" [] []
    let description ← m.orEmpty (← m.sendClass c "description" [] [])
    let schema ← m.send (← m.sendClass c "input_schema" [] []) "to_dict" [] []
    Run.share (listingEntry name description schema)
  | .copyParameters =>
    let _ ← bound
    m.copyParameters c
  | .execute | .callFunction => throw .mismatch

/-- A method of a bundled class, on the object or class that is its first argument. -/
def applyMethod (m : Machine) (method : HostMethod) (args : List Value) (named : Named) :
    Run Value := do
  match method with
  | .execute =>
    let (self, args) ← takeSelf args
    if args.isEmpty then throw (.notImplemented ((← Run.world).kindName self) "execute")
    else throw .mismatch
  | .callFunction =>
    let arg ← Run.lift (bindAll method.signature.takes args named)
    m.callFunction (arg "self") (arg "args")
  | method =>
    let (c, args) ← takeClass args
    m.applyClassMethod method c args named

end Machine

end Toolwright
