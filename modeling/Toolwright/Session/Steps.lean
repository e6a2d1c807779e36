import Toolwright.Host.Calling

/-!
# Steps

What each step of a session does and answers. A step finds its definition, classes and objects by
the names that earlier steps gave them.
-/

namespace Toolwright

set_option autoImplicit false

namespace Run

def resolveId {α : Type} (table : World → List (String × α)) (id : String) : Run α := do
  match Table.find? (table (← world)) id with
  | some a => return a
  | none => throw (.unknownId id)

def classById (id : String) : Run ClassRef := resolveId World.classIds id

def objectById (id : String) : Run Value := resolveId World.objectIds id

def definitionById (id : Option String) : Run Value := do
  match id, (← world).configuring with
  | some id, _ => resolveId World.definitionIds id
  | none, d :: _ => return d
  | none, [] => throw (.unknownId "")

def classIfGiven (id : Option String) : Run (Option ClassRef) := id.mapM classById

def baseIfGiven (id : Option String) : Run Named := do
  return ((← classIfGiven id).map fun c => ("base", World.classValue c)).toList

def bindClass (id : String) (c : ClassRef) : Run Unit :=
  modify fun w => { w with classIds := Table.insert id c w.classIds }

/-- A computation during which a definition is the innermost one being configured. -/
def configuring {α : Type} (d : Value) (r : Run α) : Run α := do
  let before := (← world).configuring
  modify fun w => { w with configuring := d :: w.configuring }
  try
    let a ← r
    modify fun w => { w with configuring := before }
    return a
  catch f =>
    modify fun w => { w with configuring := before }
    throw f

end Run

namespace Session

def classReport (w : World) (c : ClassRef) (more : List (String × Value)) : Value :=
  let own (name : String) : Value := (w.ownValue? c name).getD .null
  let base := (w.above c).head?.elim "object" w.className
  .ofRows ([("class", .str (w.className c)), ("base", .str base), ("doc", own "__doc__"),
    ("module", own "__module__")] ++ more ++ [("definition", .bool true)])

def helperClassName (w : World) (c : ClassRef) : Value :=
  match w.ownValue? c "helper_class" with
  | some (.opaqueRef (.cls helper)) => .str (w.className helper)
  | _ => .null

def helperRow (h : Helper) : Value :=
  .list [h.1, .str (match h.2.1 with
    | .ofInstance => "instance"
    | .ofClass => "static")]

end Session

namespace Machine

open Session

/-- Makes a definition and configures it; only one that was configured gets its name. -/
def define (m : Machine) (id : String) (name : Literal) (configure : Option (List Step)) :
    Run Value := do
  let name ← Run.literal name
  let d ← m.invoke (World.classValue (.made definitionClass)) [name] []
  let bind : Run Unit :=
    modify fun w => { w with definitionIds := Table.insert id d w.definitionIds }
  match configure with
  | none =>
    bind
    return name
  | some steps =>
    let results ← Run.configuring d (steps.mapM m.step)
    bind
    return .ofRows [("name", name), ("configure", .list results)]

/-- Makes a class below another one, with an answer class of its own if it is given one. -/
def subclass (m : Machine) (id : String) (base : ClassRef) (name : String)
    (attributes : Literal.Rows) (response : Option String) (execute : Option Block) :
    Run Unit := do
  let attributes ← Run.literalRows attributes
  let answers ← match response with
    | none => pure []
    | some r => do
      let n ← m.buildClass r (.made answerClass) []
      pure [("Response", Attribute.value (World.classValue (.made n)))]
  let methods := match execute with
    | none => []
    | some b => [("execute", Attribute.ofObject (.ownMethod b))]
  let n ← m.buildClass name base
    (attributes.map (fun row => (row.1, Attribute.value row.2)) ++ answers ++ methods)
  Run.bindClass id (.made n)

def callAttribute (m : Machine) (v : Value) (name : String) (args : List Literal)
    (named : Literal.Rows) : Run Value := do
  let a ← m.reach v name
  let args ← Run.literals args
  m.use a args (← Run.literalRows named)

def entry (v : Value) (key : String) : Run Value := do
  match (← Run.look v).rows? with
  | some rows =>
    match Value.valueAt? rows (.str key) with
    | some x => return x
    | none => throw (.noKey key)
  | none => throw .mismatch

def clearListing (m : Machine) (c : ClassRef) : Run Unit := do
  let listing ← m.sendClass c "to_dict" [] []
  let _ ← m.send (← entry (← entry listing "inputSchema") "properties") "clear" [] []
  return

def growSchema (m : Machine) (c : ClassRef) : Run Unit := do
  let required ← m.ask (← m.sendClass c "input_schema" [] []) "required"
  let _ ← m.send required "append" [.str "mutated"] []
  return

/-- The fields of a parameter that is written. -/
def draftFields (draft : ParamDraft) : Run Named := do
  let p ← Run.build draft.build
  let fields := [("name", p.name), ("type", p.type), ("description", p.description),
    ("required", p.required), ("default", p.default)]
  fields.mapM fun row => do return (row.1, ← Run.share row.2)

def inspect (m : Machine) (d : Value) : Run Value := do
  let name ← m.ask d "name"
  let description ← m.send d "description" [] []
  let params ← m.iterate (← m.ask d "params")
  let block ← m.ask d "execute_block"
  let ofInstance ← m.iterate (← m.ask (← m.ask d "helper_methods") "instance")
  let ofClass ← m.iterate (← m.ask (← m.ask d "helper_methods") "class_scope")
  let hasBlock := match block with
    | .null => false
    | _ => true
  return Definition.summary name description params hasBlock ofInstance ofClass

/-- A configuration as an object. -/
def settings (draft : ConfigDraft) : Run Value := do
  let config ← Run.build draft.build
  Run.objectOf configClass [("json_indent", ← Run.share config.jsonIndent),
    ("debug", ← Run.share config.debug), ("log_file", ← Run.share config.logFile)]

def definitionStep (m : Machine) (d : Value) (step : Step) : Run Value := do
  match step with
  | .describe _ text => m.send d "description" [← Run.literal text] []
  | .param _ draft => m.send d "param" [] (← draftFields draft)
  | .execute _ block =>
    let function ← Run.newHandle (.body .ofInstance (.block block)) none
    let _ ← m.send d "execute" [function] []
    return .bool true
  | .help _ scope name block =>
    let function ← Run.newHandle (.body scope (.block block)) none
    let register := match scope with
      | .ofInstance => "helper"
      | .ofClass => "class_helper"
    let _ ← m.send d register [.str name, function] []
    return .bool true
  | .inspect _ => m.inspect d
  | .printed _ => return .str (← m.printed d)
  | .inputSchema _ =>
    let (properties, required) ← schemaFields (← m.servedSchema d)
    return .tuple [properties, required]
  | .helperTable _ reserved => return .list ((← m.freeHelpers d reserved).map helperRow)
  | .dropParam _ =>
    let _ ← m.send (← m.ask d "params") "pop" [] []
    return .null
  | .runBlock _ named =>
    let block ← m.ask d "execute_block"
    m.invoke block [.null] (← Run.literalRows named)
  | _ => return .null

def stepWith (m : Machine) (step : Step) : Run Value := do
  match step with
  | .define id name configure => m.define id name configure
  | .describe definition _ | .param definition _ | .execute definition _ | .help definition _ _ _
  | .inspect definition | .printed definition | .inputSchema definition
  | .helperTable definition _ | .dropParam definition | .runBlock definition _ =>
    m.definitionStep (← Run.definitionById definition) step
  | .newParameter draft =>
    let p ← Run.build draft.build
    return .record .toolParameter [p.name, p.type, p.description, p.required]
  | .newParamSpec draft => return (← Run.build draft.build).toValue
  | .register kind cls =>
    let c ← Run.classIfGiven cls
    Run.log ((← Run.world).registerNotices kind c)
    modify fun w => w.registerHost kind c
    return .null
  | .unregister kind =>
    modify fun w => w.unregisterHost kind
    return .null
  | .resolve kind => return (((← Run.world).resolveHost kind).map World.classValue).getD .null
  | .requireHost kind base label module =>
    let base := ((← Run.classIfGiven base).map World.classValue).getD .null
    requireHost kind base label module
  | .subclass id base name attributes response execute =>
    let base := (← Run.classIfGiven base).getD (.builtIn .object)
    m.subclass id base name attributes response execute
    return .null
  | .toLlm definition id base =>
    let d ← Run.definitionById definition
    let c ← asClass (← m.send d "to_llm_tool" [] (← Run.baseIfGiven base))
    Run.bindClass id c
    return classReport (← Run.world) c []
  | .toMcp definition id base config =>
    let d ← Run.definitionById definition
    let base ← Run.baseIfGiven base
    let config ← config.mapM fun draft => do return ("config", ← settings draft)
    let c ← asClass (← m.send d "to_mcp_tool" [] (base ++ config.toList))
    Run.bindClass id c
    let w ← Run.world
    return classReport w c [("helper_class", helperClassName w c)]
  | .sameClass a b => return .bool ((← Run.classById a) == (← Run.classById b))
  | .isSubclass a b =>
    let a ← Run.classById a
    let b ← Run.classById b
    return .bool (((← Run.world).lineage a).contains b)
  | .callClass cls name args named =>
    m.callAttribute (World.classValue (← Run.classById cls)) name args named
  | .callHelperClass cls name args named =>
    let helperClass ← m.ask (World.classValue (← Run.classById cls)) "helper_class"
    m.callAttribute helperClass name args named
  | .new id cls =>
    let v ← m.invoke (World.classValue (← Run.classById cls)) [] []
    modify fun w => { w with objectIds := Table.insert id v w.objectIds }
    return .null
  | .callObject object name args named =>
    m.callAttribute (← Run.objectById object) name args named
  | .hasAttrs object names =>
    let v ← Run.objectById object
    return .list (← names.mapM fun name => do return .bool (← m.has v name))
  | .newResponse content isError =>
    let content ← content.mapM Run.literal
    let isError ← isError.mapM Run.literal
    let fields := [content.getD (.list []), isError.getD (.bool false)]
    return .record (.response answerClass answerClassName) fields
  | .clearParameters cls =>
    let parameters ← m.sendClass (← Run.classById cls) "parameters" [] []
    let _ ← m.send parameters "clear" [] []
    return .null
  | .growSchema cls =>
    m.growSchema (← Run.classById cls)
    return .null
  | .clearListing cls =>
    m.clearListing (← Run.classById cls)
    return .null
  | .raise kind text => throw (.raised kind text)

end Machine

end Toolwright
