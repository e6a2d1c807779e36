import Toolwright.Document.Result
import Toolwright.Host.Machine
import Toolwright.Value.Hash
import Toolwright.Value.Sum

/-!
# Showing values

The text of a value of a session. Containers are followed to what they hold, and what an object
tells of itself is asked of its class.
-/

namespace Toolwright

set_option autoImplicit false

namespace World

mutual

def expand (enter : Opaque → Except Fault Value) : Value → Except Fault Value
  | .list xs => do return .list (← expandItems enter xs)
  | .tuple xs => do return .tuple (← expandItems enter xs)
  | .set xs => do return .set (← expandItems enter xs)
  | .frozenset xs => do return .frozenset (← expandItems enter xs)
  | .dict rows => do return .dict (← expandRows enter rows)
  | .mapping rows => do return .mapping (← expandRows enter rows)
  | .record shape fields => do return .record shape (← expandItems enter fields)
  | .opaqueRef o => enter o
  | v => .ok v

def expandItems (enter : Opaque → Except Fault Value) : List Value → Except Fault (List Value)
  | [] => .ok []
  | x :: xs => do return (← expand enter x) :: (← expandItems enter xs)

def expandRows (enter : Opaque → Except Fault Value) :
    List (Value × Value) → Except Fault (List (Value × Value))
  | [] => .ok []
  | (k, v) :: rows => do
    let k ← expand enter k
    return (k, ← expand enter v) :: (← expandRows enter rows)

end

def inside? (w : World) (o : Opaque) : Option (Except Fault Value) :=
  match o with
  | .place p => some (.ok (w.contents p))
  | .object _ =>
    (w.shape? (w.classOf (.opaqueRef o))).map fun shape => do
      return .record shape (← shape.fields.mapM (w.kept (.opaqueRef o)))
  | _ => none

/-- A reference with what is inside it, at most `depth` references deep; `again` stands for a
reference inside itself. -/
def follow (inside? : Opaque → Option (Except Fault Value)) (again : Value → Except Fault Value) :
    Nat → List Opaque → Opaque → Except Fault Value
  | 0, _, _ => .error .tooDeep
  | depth + 1, around, o =>
    match inside? o with
    | none => .ok (.opaqueRef o)
    | some contents => do
      if around.contains o then again (← contents)
      else expand (follow inside? again depth (o :: around)) (← contents)

def referenceCount (w : World) : Nat := w.cells.length + w.classes.length + w.objects.length + 2

/-- The value without containers and records behind references; there is none if one is inside
itself. -/
def exposed (w : World) (v : Value) : Except Fault Value :=
  expand (follow w.inside? (fun _ => .error .tooDeep) w.referenceCount []) v

def ellipsis (container : Value) : Value :=
  .opaqueRef (.plain "" (match container with
    | .dict _ => "\x7b...\x7d"
    | .record .. => "..."
    | _ => "[...]"))

/-- The value without containers and records behind references, as it is printed. -/
def outlined (w : World) (v : Value) : Except Fault Value :=
  let inside? (o : Opaque) := if (w.proxied? (.opaqueRef o)).isSome then none else w.inside? o
  expand (follow inside? (fun v => .ok (ellipsis v)) w.referenceCount []) v

def sameInside (w : World) (a b : Value) : Bool :=
  match w.exposed a, w.exposed b with
  | .ok a, .ok b => Value.same a b
  | _, _ => Value.same a b

def sameValues (w : World) (a b : Value) : Bool :=
  match w.exposed a, w.exposed b with
  | .ok a, .ok b => Value.equal a b
  | _, _ => Value.equal a b

/-- The name of a class with its module, if the module is named by a text. -/
def classPath (w : World) (c : ClassRef) : String :=
  match c with
  | .builtIn k => if k.isBundled then k.module ++ "." ++ k.name else k.name
  | .made n =>
    match w.classes[n]? with
    | none => ""
    | some cls =>
      match Table.find? cls.attributes "__module__" with
      | some (.value (.str module)) =>
        if module == "builtins" then cls.name else module ++ "." ++ cls.qualifiedName
      | _ => cls.name

def classText (w : World) (c : ClassRef) : String := "<class '" ++ w.classPath c ++ "'>"

def bundledMethod? (w : World) (method : BundledMethod) (c : ClassRef) :
    Option (HostClass × String) :=
  match c with
  | .builtIn _ => none
  | .made n => do
    let cls ← w.classes[n]?
    let row ← cls.attributes.find? fun row =>
      match row.2 with
      | .ofObject (.bundled other) | .ofClass (.bundled other) => other == method
      | _ => false
    return (cls, row.1)

structure FunctionPath where
  module : String
  /-- What the function is part of. -/
  scope : String
  name : String

def definitionModule : String := "tool_forge.definition"
def llmModule : String := "tool_forge.adapters.llm"
def mcpModule : String := "tool_forge.adapters.mcp"

def functionPath? (w : World) (f : Function) (bound : Option Value) : Option FunctionPath :=
  match f with
  | .operation kind name => some ⟨kind.module, kind.name, name⟩
  | .runs _ => some ⟨llmModule, "to_llm_tool.<locals>", "execute"⟩
  | .serves .. => some ⟨mcpModule, "to_mcp_tool.<locals>", "call"⟩
  | .registers _ scope _ =>
    let name := match scope with
      | .ofInstance => "helper"
      | .ofClass => "class_helper"
    some ⟨definitionModule, "ToolDefinition." ++ name ++ ".<locals>", "decorator"⟩
  | .bundled method =>
    let classes := match bound with
      | some (.opaqueRef (.cls c)) => w.lineage c
      | some v => w.lineage (w.classOf v)
      | none => (List.range w.classes.length).map .made
    (classes.findSome? (w.bundledMethod? method)).map fun (cls, name) =>
      match Table.find? cls.attributes "__module__" with
      | some (.value (.str module)) => ⟨module, cls.qualifiedName, name⟩
      | _ => ⟨"", cls.qualifiedName, name⟩
  | _ => none

def FunctionPath.qualifiedName (p : FunctionPath) : String := p.scope ++ "." ++ p.name

def handleText (w : World) (r : Nat) : String :=
  match w.handles[r]? with
  | some ⟨.operation kind name, none⟩ =>
    (if operationKind name false == "wrapper_descriptor" then "<slot wrapper '" else "<method '") ++
      name ++ "' of '" ++ kind.name ++ "' objects>"
  | some ⟨.operation kind name, some _⟩ =>
    "<built-in method " ++ name ++ " of " ++ kind.name ++ ">"
  | some ⟨_, some _⟩ => "<bound method>"
  | _ => "<function>"

end World

namespace Run

def expose (v : Value) : Run Value := do lift ((← world).exposed v)

end Run

namespace Machine

def textFrom (m : Machine) (a : Access) : Run String := do
  match ← m.use a [] [] with
  | .str s => return s
  | _ => throw .mismatch

def printedApart (m : Machine) (v : Value) : Run String := do
  match ← m.call (.operation .object "__str__") [v] [] with
  | .str s => return s
  | _ => throw .mismatch

def printedHandle (m : Machine) (r : Nat) : Run String := do
  let w ← Run.world
  let isBuiltIn := w.classOf (.opaqueRef (.routine r)) == .builtIn .operation
  match w.handles[r]?, isBuiltIn with
  | some ⟨f, some self⟩, false =>
    let s ← m.printedApart self
    match w.functionPath? f (some self) with
    | some path => return "<bound method " ++ path.qualifiedName ++ " of " ++ s ++ ">"
    | none => return w.handleText r
  | _, _ => return w.handleText r

/-- The text of a view: a dictionary is shown by the part, another mapping whole. -/
def printedView (m : Machine) (kind : Kind) (view : View) : Run String := do
  let w ← Run.world
  let shown := match kind with
    | .mappingView _ => view.source
    | _ => .list (w.shown view)
  return kind.name ++ "(" ++ (← m.printedApart shown) ++ ")"

def printedOpaque (m : Machine) (o : Opaque) : Run String := do
  let w ← Run.world
  match o with
  | .place _ =>
    let shown := (w.proxied? (.opaqueRef o)).getD .null
    return Kind.proxy.name ++ "(" ++ (← m.printedApart shown) ++ ")"
  | .view kind id => m.printedView kind (w.views[id]?.getD ⟨.null, .keys⟩)
  | .cls c => return w.classText c
  | .routine r => m.printedHandle r
  | .object _ =>
    match w.special? (.opaqueRef o) "__repr__" with
    | some a => m.textFrom a
    | none => return "<" ++ w.kindName (.opaqueRef o) ++ " object>"
  | o => return o.printed

def verbatim (text : String) : Value := .opaqueRef (.plain "" text)

mutual

def settled (m : Machine) : Value → Run Value
  | .list xs => do return .list (← settledItems m xs)
  | .tuple xs => do return .tuple (← settledItems m xs)
  | .set xs => do return .set (← settledItems m xs)
  | .frozenset xs => do return .frozenset (← settledItems m xs)
  | .dict rows => do return .dict (← settledRows m rows)
  | .mapping rows => do return .mapping (← settledRows m rows)
  | .record shape fields => do return .record shape (← settledItems m fields)
  | .opaqueRef o => do return verbatim (← m.printedOpaque o)
  | v => return v

def settledItems (m : Machine) : List Value → Run (List Value)
  | [] => return []
  | x :: xs => do
    let x ← settled m x
    return x :: (← settledItems m xs)

def settledRows (m : Machine) : List (Value × Value) → Run (List (Value × Value))
  | [] => return []
  | (k, v) :: rows => do
    let k ← settled m k
    let v ← settled m v
    return (k, v) :: (← settledRows m rows)

end

def printed (m : Machine) (v : Value) : Run String := do
  let v ← m.settled (← Run.lift ((← Run.world).outlined v))
  Run.lift v.printed

def text (m : Machine) (v : Value) : Run String := do
  match v, (← Run.world).special? v "__str__" with
  | _, some a => m.textFrom a
  | .opaqueRef (.token _ text), none => return text
  | .opaqueRef (.mute _ reason), none => throw (.unprintable reason)
  | .str s, none => return s
  | v, none =>
    match (← Run.world).proxied? v with
    | some held => m.printed held
    | none => m.printed v

/-- Whether a value counts as true: an object that says nothing of it does. -/
def truthy (m : Machine) (v : Value) : Run Bool := do
  let w ← Run.world
  match w.special? v "__bool__", w.special? v "__len__" with
  | some a, _ =>
    match ← m.use a [] [] with
    | .bool b => return b
    | _ => throw .mismatch
  | none, some a =>
    match (← m.use a [] []).asInt? with
    | some n =>
      if n < 0 then throw (.unreadable "__len__() should return >= 0")
      else return n != 0
    | none => throw .mismatch
  | none, none =>
    match v with
    | .opaqueRef (.view _ id) =>
      return ((w.views[id]?).map fun view => !(w.shown view).isEmpty).getD true
    | v => return (w.followed v).truthy

def hashOf (m : Machine) (v : Value) : Run (Option Int) := do
  match (← Run.world).special? v "__hash__" with
  | some a =>
    match (← m.use a [] []).asInt? with
    | some n => return Value.toldHash? n
    | none => throw .mismatch
  | none => if (← Run.world).hashes v then return v.hash? else throw .mismatch

def saysEqual (m : Machine) (a b : Value) : Run Bool := do
  match ← m.consult a b "__eq__" "__eq__" with
  | some v => m.truthy v
  | none => return false

def equals (m : Machine) (a b : Value) : Run Bool := do
  match ← m.consult a b "__eq__" "__eq__" with
  | some v => m.truthy v
  | none => return (← Run.world).sameValues a b

/-- A value as it stands in the form of a class: a class by its path alone. -/
def printedPart (m : Machine) (v : Value) : Run String := do
  match v with
  | .opaqueRef (.cls c) => return (← Run.world).classPath c
  | v => m.printed v

def formOf (m : Machine) (c : ClassRef) (v : Value) : Run Value := do
  let parts ← match v with
    | .tuple vs => vs.mapM m.printedPart
    | v => do pure [← m.printedPart v]
  let shown := if parts.isEmpty then "()" else ", ".intercalate parts
  let text := (← Run.world).classPath c ++ "[" ++ shown ++ "]"
  return .opaqueRef (.plain "GenericAlias" text)

mutual

/-- The value with the texts of the keys that a document cannot name in their places. -/
def nameKeys (m : Machine) : Value → Run Value
  | .dict rows => do return .dict (← nameRowKeys m rows)
  | .mapping rows => do return .mapping (← nameRowKeys m rows)
  | .list xs => do return .list (← nameItemKeys m xs)
  | .tuple xs => do return .tuple (← nameItemKeys m xs)
  | v => return v

def nameItemKeys (m : Machine) : List Value → Run (List Value)
  | [] => return []
  | x :: xs => do
    let x ← nameKeys m x
    return x :: (← nameItemKeys m xs)

def nameRowKeys (m : Machine) : List (Value × Value) → Run (List (Value × Value))
  | [] => return []
  | (k, v) :: rows => do
    let k ← if k.isMemberKey then pure k else verbatim <$> m.text k
    let v ← nameKeys m v
    return (k, v) :: (← nameRowKeys m rows)

end

mutual

/-- The value with the texts of the leaves in their places that have none in a document. -/
def nameLeaves (m : Machine) : Value → Run Value
  | .dict rows => do return .dict (← nameRowLeaves m rows)
  | .list xs => do return .list (← nameItemLeaves m xs)
  | .tuple xs => do return .tuple (← nameItemLeaves m xs)
  | .int n => do
    let _ ← Run.lift (intText n)
    return .int n
  | .null => return .null
  | .bool b => return .bool b
  | .float x => return .float x
  | .str s => return .str s
  | v => do return verbatim (← m.text v)

def nameItemLeaves (m : Machine) : List Value → Run (List Value)
  | [] => return []
  | x :: xs => do
    let x ← nameLeaves m x
    return x :: (← nameItemLeaves m xs)

def nameRowLeaves (m : Machine) : List (Value × Value) → Run (List (Value × Value))
  | [] => return []
  | (k, v) :: rows => do
    let v ← nameLeaves m v
    return (k, v) :: (← nameRowLeaves m rows)

end

/-- The text of a result: containers as documents, in which all keys are named before any leaf. -/
def resultText (m : Machine) (v indent : Value) : Run String := do
  match ← Run.look v with
  | .str s => return s
  | .list _ | .tuple _ | .dict _ | .mapping _ =>
    let named ← Run.lift (← m.nameKeys (← Run.expose v)).settleKeys
    let _ ← Run.lift (Layout.ofIndent indent)
    Run.lift ((← m.nameLeaves named).documentText indent)
  | _ => m.text v

end Machine

end Toolwright
