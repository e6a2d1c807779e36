import Toolwright.Host.Calling

/-!
# Evaluation of blocks

The value of a node, its parts evaluated from left to right. Each container that a node makes is a
new one. The class of a context is asked for its attributes without an object, so that an instance
helper reached that way takes its context from the first argument.
-/

namespace Toolwright.Machine

set_option autoImplicit false

def items (m : Machine) (f : Frame) (nodes : List Node) : Run (List Value) := nodes.mapM (m.eval f)

def named (m : Machine) (f : Frame) (rows : List (String × Node)) : Run Named := do
  let rows ← rows.mapM fun row => do return (row.1, ← m.eval f row.2)
  return Table.ofRows rows

/-- A row of a dictionary that is being built, with the hash that its key told. -/
structure Row where
  key : Value
  hash : Option Int
  value : Value

/-- Whether a new key stands for one that is there: the same one, or one of the same hash that is
said to be equal. -/
def meets (m : Machine) (row new : Row) : Run Bool := do
  if Value.same row.key new.key then return true
  else if row.hash.isSome && row.hash == new.hash then m.saysEqual row.key new.key
  else return false

def insertRow (m : Machine) (new : Row) : List Row → Run (List Row)
  | [] => return [new]
  | row :: rows => do
    if ← m.meets row new then return { row with value := new.value } :: rows
    else return row :: (← insertRow m new rows)

def writeRow (m : Machine) (f : Frame) (done : List Row) (row : Node × Node) :
    Run (List Row) := do
  let key ← m.eval f row.1
  let value ← m.eval f row.2
  m.insertRow ⟨key, ← m.hashOf key, value⟩ done

def classValueOf (v : Value) : Run Value := do
  match v with
  | .opaqueRef (.plain kind _) => throw (.noAttribute (.cls kind) "")
  | v => return World.classValue ((← Run.world).classOf v)

def evalWith (m : Machine) (f : Frame) (node : Node) : Run Value := do
  match node with
  | .lit v => Run.literal v
  | .var name =>
    match Table.find? f.vars name with
    | some v => return v
    | none => throw (.noKey name)
  | .list nodes => Run.kept (.list (← m.items f nodes))
  | .tuple nodes => return .tuple (← m.items f nodes)
  | .dict rows =>
    let rows ← rows.foldlM (m.writeRow f) []
    Run.kept (.dict (rows.map fun row => (row.key, row.value)))
  | .cat nodes =>
    let parts ← nodes.mapM fun node => do m.text (← m.eval f node)
    return .str (String.join parts)
  | .add a b =>
    let x ← m.eval f a
    m.sum x (← m.eval f b)
  | .cond test whenTrue whenFalse =>
    if ← m.truthy (← m.eval f test) then m.eval f whenTrue else m.eval f whenFalse
  | .seq nodes => return (← m.items f nodes).getLastD .null
  | .helper name args named =>
    let a ← m.reach f.context name
    m.use a (← m.items f args) (← m.named f named)
  | .classHelper name args named =>
    let a ← m.reach (← classValueOf f.context) name
    m.use a (← m.items f args) (← m.named f named)
  | .raise kind text => throw (.raised kind text)
  | .setAttr name value =>
    m.assign f.context name (← m.eval f value)
    return .null
  | .getAttr name default => m.attributeOr f.context name (← Run.literal default)
  | .hasAttr name => return .bool (← m.has f.context name)
  | .className => return .str ((← Run.world).kindName f.context)
  | .perform step =>
    let _ ← m.step step
    return .null

end Toolwright.Machine
