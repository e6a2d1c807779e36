import Toolwright.Host.Showing

/-!
# Answers

What is told of a value outside its session. Containers are told with all that they hold at the end
of a step; a value that holds itself, or an integer with too many digits, cannot be told.
-/

namespace Toolwright

set_option autoImplicit false

inductive Answer where
  | null
  | bool (b : Bool)
  | int (n : Int)
  | float (x : Binary64)
  | str (s : String)
  | bytes (bs : List UInt8)
  | list (items : List Answer)
  | tuple (items : List Answer)
  | dict (rows : List (Answer × Answer))
  | mapping (rows : List (Answer × Answer))
  | set (items : List Answer)
  | frozenset (items : List Answer)
  | token (text : String)
  | mute (reason : String)
  /-- The fields of a declared parameter. -/
  | param (fields : List Answer)
  /-- The document of a schema. -/
  | schema (rows : List (Answer × Answer))
  /-- The document of an answer, with the name of its class. -/
  | response (className : String) (rows : List (Answer × Answer))
  | cls (name : String)
  | definition (name : Answer)
  | callable
  | object (className : String)

namespace Answer

/-- What is told of an opaque value; `name` tells the name of a definition. -/
def ofOpaque (w : World) (name : Value → Except Fault Answer) (o : Opaque) :
    Except Fault Answer :=
  match o with
  | .token _ text => .ok (.token text)
  | .mute _ reason => .ok (.mute reason)
  | .cls c => .ok (.cls (w.className c))
  | .object _ =>
    let v : Value := .opaqueRef o
    let c := w.classOf v
    if (w.lineage c).contains (.made definitionClass) then do
      return .definition (← name (← w.kept v "_name"))
    else if (w.find? c "__call__").isSome then .ok .callable
    else .ok (.object (w.kindName v))
  | .routine _ => .ok .callable
  | .place _ => .error .tooDeep
  | .view kind _ | .cursor kind _ => .ok (.object kind.name)
  | .plain kind _ => .ok (if callableKinds.contains kind then .callable else .object kind)

def document (names : List String) (fields : List Answer) : List (Answer × Answer) :=
  (names.map .str).zip fields

mutual

def ofParts (w : World) (name : Value → Except Fault Answer) : Value → Except Fault Answer
  | .null => .ok .null
  | .bool b => .ok (.bool b)
  | .int n => do
    let _ ← intText n
    return .int n
  | .float x => .ok (.float x)
  | .str s => .ok (.str s)
  | .bytes bs => .ok (.bytes bs)
  | .list xs => do return .list (← ofItems w name xs)
  | .tuple xs => do return .tuple (← ofItems w name xs)
  | .set xs => do return .set (← ofItems w name xs)
  | .frozenset xs => do return .frozenset (← ofItems w name xs)
  | .dict rows => do return .dict (← ofRows w name rows)
  | .mapping rows => do return .mapping (← ofRows w name rows)
  | .opaqueRef o => ofOpaque w name o
  | .record shape fields => do
    let told ← ofItems w name fields
    match shape with
    | .paramSpec | .toolParameter => return .param told
    | .inputSchema =>
      return .schema ((.str "type", .str "object") :: document ["properties", "required"] told)
    | .helperTable => return .object shape.name
    | .response n _ =>
      return .response (w.className (.made n)) (document ["content", "isError"] told)

def ofItems (w : World) (name : Value → Except Fault Answer) :
    List Value → Except Fault (List Answer)
  | [] => .ok []
  | x :: xs => do
    let a ← ofParts w name x
    return a :: (← ofItems w name xs)

def ofRows (w : World) (name : Value → Except Fault Answer) :
    List (Value × Value) → Except Fault (List (Answer × Answer))
  | [] => .ok []
  | (k, v) :: rows => do
    let k ← ofParts w name k
    let v ← ofParts w name v
    return (k, v) :: (← ofRows w name rows)

end

/-- What is told of a value in a world. The name of a definition is no definition that has to be
told in turn. -/
def ofValue (w : World) (v : Value) : Except Fault Answer := do
  let name (v : Value) : Except Fault Answer := do
    ofParts w (fun _ => .error .tooDeep) (← w.exposed v)
  ofParts w name (← w.exposed v)

end Answer

end Toolwright
