import Toolwright.Host.Access
import Toolwright.Host.Assignment
import Toolwright.Host.Number
import Toolwright.Text.Letter
import Toolwright.Value.Coding
import Toolwright.Value.Conversion

/-!
# Making classes and objects

A class is made of a name, a class above it and what it holds. Slots are places for values in each
object; a class that names its slots gives its objects no other room unless the class above does.
The class above is told of each class made below it.
-/

/-!
## Iteration

The items of a value, one after another. The class of an object may say what gives them, or else
what stands at each place.
-/

namespace Toolwright.Machine

set_option autoImplicit false

def isEnd : Fault → Bool
  | .exhausted => true
  | .raised kind _ => kind == "StopIteration"
  | _ => false

def isBehindEnd : Fault → Bool
  | .outOfRange _ | .emptyList => true
  | .raised kind _ => kind == "IndexError" || kind == "StopIteration"
  | f => isEnd f

def mostItems : Nat := 2 ^ 16

/-- What a step gives at one place after another, up to the one where it ends; `fuel` bounds their
number. -/
def drain (step : Nat → Run Value) (ends : Fault → Bool) : Nat → Nat → Run (List Value)
  | 0, _ => throw .noMemory
  | fuel + 1, place => do
    let found ← try some <$> step place
      catch f => if ends f then pure none else throw f
    match found with
    | some v => return v :: (← drain step ends fuel (place + 1))
    | none => return []

/-- The items of a value. -/
def iterate (m : Machine) (v : Value) : Run (List Value) := do
  let w ← Run.world
  match w.special? v "__iter__", w.special? v "__getitem__" with
  | some a, _ =>
    let source ← m.use a [] []
    match source, (← Run.world).special? source "__next__" with
    | .opaqueRef (.cursor ..), _ => Run.iterate source
    | _, some next => drain (fun _ => m.use next [] []) isEnd mostItems 0
    | _, none => throw .mismatch
  | none, some a => drain (fun place => m.use a [.int place] []) isBehindEnd mostItems 0
  | none, none => Run.iterate v

end Toolwright.Machine

/-! ## Making -/

namespace Toolwright

set_option autoImplicit false

namespace ClassPlan

def privateName (cls slot : String) : String :=
  let owner := cls.toList.dropWhile (· == '_')
  if slot.startsWith "__" && !slot.endsWith "__" && !owner.isEmpty then
    "_" ++ String.ofList owner ++ slot
  else slot

/-- The slots named by a value: one text, or items that are all texts. -/
def slotNames (v : Value) : Except Fault (List String) := do
  let items ← match v with
    | .str s => pure [Value.str s]
    | v => v.items
  items.mapM fun
    | .str s => if Text.isName s.toList then .ok s else .error .mismatch
    | _ => .error .mismatch

def roomNames : List String := ["__dict__", "__weakref__"]

def checkSlot (attributes : List (String × Attribute)) (slot : String) : Except Fault Unit :=
  if (Table.find? attributes slot).isSome && slot != "__qualname__" && slot != "__classcell__" then
    .error (.unreadable (Text.quoted slot ++ " in __slots__ conflicts with class variable"))
  else .ok ()

/-- The slots of a class, and whether it gives its objects open room. -/
def readSlots (name : String) (baseIsOpen : Bool) (attributes : List (String × Attribute)) :
    Run (List String × Bool) := do
  match Table.find? attributes "__slots__" with
  | none => return ([], !baseIsOpen)
  | some (.value v) =>
    let names ← Run.lift (slotNames (← Run.look v))
    let rooms := names.filter roomNames.contains
    if !rooms.Nodup || (baseIsOpen && !rooms.isEmpty) then throw .mismatch
    let slots := (names.filter fun n => !roomNames.contains n).map (privateName name)
    slots.forM fun slot => Run.lift (checkSlot attributes slot)
    return (slots.eraseDups.mergeSort fun a b => a ≤ b, rooms.contains "__dict__")
  | some _ => throw .mismatch

/-- Some methods work on a class or on nothing, however they are written. -/
def settle (row : String × Attribute) : String × Attribute :=
  match row with
  | ("__new__", .ofObject f) => ("__new__", .free f)
  | ("__init_subclass__", .ofObject f) => ("__init_subclass__", .ofClass f)
  | ("__class_getitem__", .ofObject f) => ("__class_getitem__", .ofClass f)
  | row => row

/-- The attributes of a class and the rooms of its objects, with what every class holds. -/
def complete (attributes rooms : List (String × Attribute)) : List (String × Attribute) :=
  let given (name : String) : Bool := (Table.find? attributes name).isSome
  attributes.map settle ++
    (if given "__module__" then [] else [("__module__", .value (.str "__main__"))]) ++ rooms ++
    (if given "__doc__" then [] else [("__doc__", .value .null)]) ++
    (if given "__eq__" && !given "__hash__" then [("__hash__", .value .null)] else [])

end ClassPlan

namespace Machine

open ClassPlan

def qualifiedName (name : String) (attributes : List (String × Attribute)) : Except Fault String :=
  match Table.find? attributes "__qualname__" with
  | none => .ok name
  | some (.value (.str s)) => .ok s
  | some _ => .error .mismatch

def buildClass (m : Machine) (name : String) (base : ClassRef)
    (attributes : List (String × Attribute)) : Run Nat := do
  let attributes := Table.ofRows attributes
  let w ← Run.world
  let (slots, opens) ← readSlots name (w.isOpen base) attributes
  if name.toList.contains '\x00' then throw .nulInClassName
  let qualified ← Run.lift (qualifiedName name attributes)
  if (Table.find? attributes "__classcell__").isSome then throw .mismatch
  let n := w.classes.length
  let rooms : List (String × Attribute) :=
    if opens then
      (roomNames.filter fun room => (Table.find? attributes room).isNone).map fun room =>
        (room, .field .object room)
    else []
  let held := complete (Table.erase "__qualname__" attributes)
    (slots.map (fun slot => (slot, .slot n slot)) ++ rooms)
  let n ← Run.newClass ⟨name, qualified, base, w.lineage base, Table.ofRows held, opens⟩
  let w ← Run.world
  match (w.above (.made n)).findSome? fun holder =>
    (w.own? holder "__init_subclass__").map (holder, ·) with
  | some (.made holder, a) =>
    let _ ← m.use (w.reached (.made holder) (.made n) none a) [] []
    return n
  | _ => return n

def isBuiltIn (w : World) (c : ClassRef) (name : String) : Bool :=
  match w.find? c name with
  | some (.builtIn _, _) | none => true
  | some (.made _, _) => false

def newInstance (m : Machine) (c : ClassRef) (args : List Value) (named : Named) : Run Value := do
  let w ← Run.world
  match w.find? c "__new__" with
  | some (.made n, a) =>
    m.use (w.reached (.made n) c none a) (World.classValue c :: args) named
  | _ =>
    if (args.isEmpty && named.isEmpty) || !isBuiltIn w c "__init__" then Run.newObject c
    else throw .mismatch

def prepare (m : Machine) (self : Value) (args : List Value) (named : Named) : Run Unit := do
  let w ← Run.world
  match w.special? self "__init__" with
  | some a =>
    match ← m.use a args named with
    | .null => return
    | _ => throw .mismatch
  | none =>
    if (args.isEmpty && named.isEmpty) || !isBuiltIn w (w.classOf self) "__new__" then return
    else throw .mismatch

def byteFrom (m : Machine) (v : Value) : Run UInt8 := do
  let n ← m.indexOf v
  if n < 0 || 256 ≤ n then throw (.unreadable "bytes must be in range(0, 256)")
  return n.toNat.toUInt8

def bytesFrom (m : Machine) (v : Value) : Run (List UInt8) := do
  match v with
  | .bytes bs => return bs
  | .str _ => throw .mismatch
  | v => (← m.iterate v).mapM m.byteFrom

def convertBytes (m : Machine) (v : Value) : Run (List UInt8) := do
  match v.asInt?, (← Run.world).special? v "__bytes__" with
  | _, some a =>
    match ← m.use a [] [] with
    | .bytes bs => return bs
    | _ => throw .mismatch
  | some n, none =>
    if -(2 ^ 63) ≤ n && n < 0 then throw (.unreadable "negative count")
    Run.lift (Word.repeated none [0] n)
  | none, none => m.bytesFrom v

def optionalText (v : Option Value) : Run (Option String) :=
  match v with
  | none => return none
  | some (.str s) => do
    Run.lift (Value.checkName s)
    return some s
  | some _ => throw .mismatch

def makeText (m : Machine) (args : List Value) (named : Named) : Run Value := do
  let arg ← Run.lift (bindOptional ["object", "encoding", "errors"] args named)
  match arg "object", ← optionalText (arg "encoding"), ← optionalText (arg "errors") with
  | none, _, _ => return .str ""
  | some v, none, none => return .str (← m.text v)
  | some (.bytes bs), encoding, policy =>
    let cs ← Run.lift (Value.decoded (encoding.getD "utf-8") (policy.getD "strict") bs)
    return .str (String.ofList cs)
  | some _, _, _ => throw .mismatch

def makeBytes (m : Machine) (args : List Value) (named : Named) : Run Value := do
  let arg ← Run.lift (bindOptional ["source", "encoding", "errors"] args named)
  match arg "source", ← optionalText (arg "encoding"), ← optionalText (arg "errors") with
  | none, none, none => return .bytes []
  | some (.str s), some encoding, policy =>
    return .bytes (← Run.lift (Value.encoded encoding (policy.getD "strict") s.toList))
  | some (.str _), none, _ | none, _, _ | _, some _, _ | _, _, some _ => throw .mismatch
  | some v, none, none => return .bytes (← m.convertBytes v)

def makeInteger (m : Machine) (args : List Value) (named : Named) : Run Value := do
  let base := (Table.find? named "base").or args[1]?
  if args.length + named.length > 2 || named.any (·.1 != "base") then throw .mismatch
  match args.head?, base with
  | none, none => return .int 0
  | none, some _ => throw .mismatch
  | some v, none =>
    if v.written?.isSome then return .int (← Run.lift (v.readInteger 10))
    else return .int (← m.integerOf v)
  | some v, some base =>
    let base ← m.indexOf base
    if base != 0 && (base < 2 || 36 < base) then
      throw (.unreadable "int() base must be >= 2 and <= 36, or 0")
    if v.written?.isNone then throw .mismatch
    return .int (← Run.lift (v.readInteger base.toNat))

def convert (m : Machine) (k : Kind) (args : List Value) : Run Value := do
  match k, args with
  | .object, [] => Run.newObject (.builtIn .object)
  | .null, [] => return .null
  | .type, [v] => return World.classValue ((← Run.world).classOf v)
  | .bool, [] => return .bool false
  | .bool, [v] => return .bool (← m.truthy v)
  | .float, [] => return .float (.zero false)
  | .float, [v] =>
    match v.written? with
    | some cs => Run.build (Literal.readFloat (String.ofList cs) (← Run.lift v.printed))
    | none => return .float (← m.floatOf v)
  | .list, [] => Run.kept (.list [])
  | .list, [v] => do Run.kept (.list (← m.iterate v))
  | .tuple, [] => return .tuple []
  | .tuple, [v] => return .tuple (← m.iterate v)
  | .dict, [] => Run.kept (.dict [])
  | .dict, [v] =>
    let made ← Run.kept (.dict [])
    let _ ← m.send made "update" [v] []
    return made
  | .set, [] => Run.kept (.set [])
  | .set, [v] => do Run.kept (.set (← elements v))
  | .frozenset, [] => return .frozenset []
  | .frozenset, [v] => return .frozenset (← elements v)
  | _, _ => throw .mismatch
where
  elements (v : Value) : Run (List Value) := do
    let xs ← m.iterate v
    xs.forM fun x => do
      let _ ← m.hashOf x
    return Value.collectItems xs

def makeKind (m : Machine) (k : Kind) (args : List Value) (named : Named) : Run Value := do
  match k with
  | .text => m.makeText args named
  | .bytes => m.makeBytes args named
  | .int => m.makeInteger args named
  | .dict =>
    let made ← m.convert .dict args
    let _ ← m.send made "update" [] named
    return made
  | k => if named.isEmpty then m.convert k args else throw .mismatch

def instantiate (m : Machine) (c : ClassRef) (args : List Value) (named : Named) : Run Value := do
  match c with
  | .builtIn k => m.makeKind k args named
  | .made _ =>
    let made ← m.newInstance c args named
    let w ← Run.world
    if (w.lineage (w.classOf made)).contains c then m.prepare made args named
    return made

def invokeWith (m : Machine) (v : Value) (args : List Value) (named : Named) : Run Value := do
  match v with
  | .opaqueRef (.cls c) => m.instantiate c args named
  | .opaqueRef (.routine r) =>
    match (← Run.world).handles[r]? with
    | some ⟨f, bound⟩ => m.call f (bound.toList ++ args) named
    | none => throw .mismatch
  | v =>
    match (← Run.world).special? v "__call__" with
    | some a => m.use a args named
    | none => throw .mismatch

end Machine

end Toolwright
