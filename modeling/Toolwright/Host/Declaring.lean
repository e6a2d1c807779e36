import Toolwright.Host.Adaptation

/-!
# Methods of definitions

A definition is an object that keeps its name, its description, its parameters, its block and its
helpers as attributes. Its methods change them one at a time and hand out what they keep.
-/

namespace Toolwright

set_option autoImplicit false

namespace Machine

def definitionLogger : String := "tool_forge.definition"

def configure (m : Machine) (self name configure : Value) : Run Value := do
  m.assign self "_name" name
  m.assign self "_description" .null
  m.assign self "_params" (← Run.kept (.list []))
  m.assign self "_execute_block" .null
  m.assign self "_helper_methods" (← m.invoke (World.recordClass .helperTable) [] [])
  match configure with
  | .null => return .null
  | configure =>
    let _ ← m.invoke configure [self] []
    return .null

def describe (m : Machine) (self text : Value) : Run Value := do
  match text with
  | .null => m.ask self "_description"
  | text =>
    m.assign self "_description" text
    return .null

def declares (m : Machine) (self name : Value) : Run Bool := do
  (← m.iterate (← m.ask self "_params")).anyM fun p => do m.equals (← m.ask p "name") name

/-- Declares a parameter of a definition, with a warning where its name was declared before. -/
def declareParam (m : Machine) (self name : Value) (fields : Named) : Run Value := do
  if ← m.declares self name then
    let tool ← m.ask self "_name"
    Run.note definitionLogger 30 (do
      let tool ← m.printed tool
      return "Tool " ++ tool ++ ": parameter " ++ (← m.printed name) ++ " declared more than once")
  let param ← m.invoke (World.recordClass .paramSpec) [] (("name", name) :: fields)
  let _ ← m.send (← m.ask self "_params") "append" [param] []
  return param

def storeBlock (m : Machine) (self block : Value) : Run Value := do
  match ← m.ask self "_execute_block" with
  | .null => pure ()
  | _ =>
    let tool ← m.ask self "_name"
    Run.note definitionLogger 10 (do
      return "Tool " ++ (← m.printed tool) ++ ": execute block replaced")
  m.assign self "_execute_block" block
  return block

/-- Registers a helper of a definition; without one, gives the function that registers it. -/
def registerHelper (m : Machine) (self : Value) (scope : Scope) (name block : Value) :
    Run Value := do
  match block with
  | .null => Run.newHandle (.registers self scope name) none
  | block =>
    let helpers ← m.ask self "_helper_methods"
    let field := match scope with
      | .ofInstance => "instance"
      | .ofClass => "class_scope"
    m.setItem (← m.ask helpers field) name block
    return block

def definitionText (m : Machine) (self : Value) : Run Value := do
  let name ← m.printed (← m.ask self "_name")
  let params ← (← m.iterate (← m.ask self "_params")).mapM fun p => m.ask p "name"
  return .str (Definition.line name (← m.printed (.list params)))

def applyDefinitionMethod (m : Machine) (method : DefinitionMethod) (args : List Value)
    (named : Named) : Run Value := do
  let arg ← Run.lift (bindAll method.signature.takes args named)
  let self := arg "self"
  match method with
  | .configure => m.configure self (arg "name") (arg "configure")
  | .describe => m.describe self (arg "text")
  | .declare =>
    let fields := ["type", "description", "required", "default"].map fun name => (name, arg name)
    m.declareParam self (arg "name") fields
  | .store => m.storeBlock self (arg "block")
  | .help scope => m.registerHelper self scope (arg "method_name") (arg "block")
  | .toFunctionTool => m.adaptLlm self (arg "base")
  | .toServedTool => m.adaptMcp self (arg "base") (arg "config")
  | .text => m.definitionText self

end Machine

end Toolwright
