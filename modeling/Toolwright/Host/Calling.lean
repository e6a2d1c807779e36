import Toolwright.Host.Declaring

/-!
# Calling functions

What a call of a function does: blocks are evaluated, routines compute on plain values, and the
methods of bundled classes do their work.
-/

namespace Toolwright

set_option autoImplicit false

namespace Machine

def callBlock (m : Machine) (b : Block) (context : Value) (args : List Value) (named : Named) :
    Run Value := do
  let vars ← Run.build (b.bind args named)
  let vars ← vars.mapM fun row => do return (row.1, ← Run.share row.2)
  m.eval ⟨context, vars⟩ b.body

def callBody (m : Machine) (b : Body) (context : Value) (args : List Value) (named : Named) :
    Run Value := do
  match b with
  | .block b => m.callBlock b context args named
  | .routine r =>
    let args ← args.mapM Run.expose
    let named ← named.mapM fun row => do return (row.1, ← Run.expose row.2)
    Run.share (← Run.lift (r.call (← Run.world).surroundings args named))

def storedBlock (m : Machine) (definition : Value) : Run Value := do
  match ← m.ask definition "execute_block" with
  | .null => throw (.noBlock (← m.printed (← m.ask definition "name")))
  | block => return block

/-- A call of a serving tool: the block runs on a new helper object, and the text of what it returns
is the one content block of the answer. -/
def serve (m : Machine) (cls : ClassRef) (definition : Value) (helperClass : Nat) (indent : Value)
    (toolName : String) (named : Named) : Run Value := do
  let block ← m.storedBlock definition
  Run.note adaptersLogger 10 (do
    return "MCP tool call: " ++ toolName ++ "(" ++ ", ".intercalate (Table.keys named) ++ ")")
  let helper ← m.invoke (World.classValue (.made helperClass)) [] []
  let result ← m.invoke block [helper] named
  let answers ← m.reach (World.classValue cls) "Response"
  let text ← m.resultText result indent
  let content ← Run.share (.list [.ofRows [("type", .str "text"), ("text", .str text)]])
  m.use answers [content] []

def callWith (m : Machine) (f : Function) (args : List Value) (named : Named) : Run Value := do
  match f with
  | .body .ofInstance b =>
    let (self, args) ← takeSelf args
    m.callBody b self args named
  | .body .ofClass b => m.callBody b .null args named
  | .ownMethod b =>
    let (self, args) ← takeSelf args
    if args.isEmpty then m.callBlock b self [] named else throw .mismatch
  | .forwards helper =>
    let (self, args) ← takeSelf args
    m.invoke helper (self :: args) named
  | .runs definition =>
    let (self, args) ← takeSelf args
    if args.isEmpty then m.invoke (← m.storedBlock definition) [self] named else throw .mismatch
  | .serves definition helperClass indent toolName =>
    let (c, args) ← takeClass args
    m.serve c definition helperClass indent toolName (← takeServerContext args named)
  | .registers definition scope name =>
    let arg ← Run.lift <| bindAll f.takes args named
    let register := match scope with
      | .ofInstance => "helper"
      | .ofClass => "class_helper"
    m.send definition register [name, arg "fn"] []
  | .bundled (.host method) => m.applyMethod method args named
  | .bundled (.record shape method) => m.applyRecordMethod shape method args named
  | .bundled (.definition method) => m.applyDefinitionMethod method args named
  | .operation kind name => m.operate kind name args named

end Machine

end Toolwright
