import Toolwright.Host.CharacterTable
import Toolwright.Host.Formatting
import Toolwright.Host.Making
import Toolwright.Host.Sorting
import Toolwright.Host.ViewOperation
import Toolwright.Value.Parameters

/-!
# Built-in operations

What the operations do that values have by their kind. Those of all objects and of classes work on
the world; the others give a result and may change the container they work on.
-/

/-!
## Recipes

How a value can be made again: what makes it, the class and the arguments, the state of an object,
and what gives the items of a list or the rows of a dictionary. The first two versions know made
objects alone.
-/

namespace Toolwright.Machine

set_option autoImplicit false

def stateOf (m : Machine) (self : Value) : Run Value := do
  match (← Run.world).typeMethod? self "__getstate__" with
  | some a => m.use a [] []
  | none => return .null

def maker : Run Value := Run.newHandle (.operation .object "__new__") none

def hasRecipe : ClassRef → Bool
  | .made _ | .builtIn .object => true
  | .builtIn k =>
    [.null, .bool, .int, .float, .text, .bytes, .tuple, .list, .dict].contains k

def recipe (m : Machine) (self : Value) : Run Value := do
  let w ← Run.world
  let c := w.classOf self
  if !hasRecipe c then throw .mismatch
  let args ← match w.typeMethod? self "__getnewargs__" with
    | some a => m.use a [] []
    | none => pure (.tuple [])
  match args, w.followed self with
  | .tuple args, held =>
    let state ← m.stateOf self
    let items ← match held with
      | .list _ => cursorOn self false
      | _ => pure .null
    let rows ← match held with
      | .dict _ => do cursorOn (← Run.newView .items self) false
      | _ => pure .null
    return .tuple [← maker, .tuple (World.classValue c :: args), state, items, rows]
  | _, _ => throw .mismatch

/-- The recipe of an object in the first two versions; one that keeps its values in slots has none.
-/
def firstRecipe (m : Machine) (self : Value) : Run Value := do
  let w ← Run.world
  let c := w.classOf self
  let isMade := match c with
    | .made _ | .builtIn .object => true
    | .builtIn _ => false
  let keepsState := ((w.find? c "__getstate__").map (·.1)) != some (.builtIn .object)
  if !isMade || (!keepsState && !(w.slotNames c).isEmpty) then throw .mismatch
  let made := .tuple [World.classValue c, World.classValue (.builtIn .object), .null]
  let state ← m.stateOf self
  return .tuple ([← maker, made] ++ if ← m.truthy state then [state] else [])

/-- The recipe of a version, unless the class of the value says what it is. -/
def recipeIn (m : Machine) (version : Int) (self : Value) : Run Value := do
  let w ← Run.world
  match w.find? (w.classOf self) "__reduce__", w.typeMethod? self "__reduce__" with
  | some (.builtIn .object, _), _ | _, none =>
    if 2 ≤ version then m.recipe self else m.firstRecipe self
  | _, some a => m.use a [] []

end Toolwright.Machine

/-! ## Operations -/

namespace Toolwright

set_option autoImplicit false

namespace World

def isOfObjects (w : World) (c : ClassRef) (name : String) : Bool :=
  ((w.find? c name).map fun row => row.1 == .builtIn .object).getD false

def takesElement : List String := ["__contains__", "discard", "remove"]

/-- Whether the objects that an operation takes as keys or elements can be some. -/
def fitsKeys (w : World) (name : String) (held : Value)
    (args : List Value) : Bool :=
  match held, args with
  | .dict rows, k :: _ =>
    (!Value.takesKey.contains name && (name != "pop" || rows.isEmpty)) || w.hashes k
  | .mapping _, k :: _ => !Value.takesKey.contains name || w.hashes k
  | .set _, v :: _ | .frozenset _, v :: _ =>
    let isAsked := takesElement.contains name && (w.followed v).kind == .set
    isAsked || (name != "add" && !takesElement.contains name) || w.hashes v
  | _, _ => true

def tellsIndex (w : World) (v : Value) : Bool := (w.special? v "__index__").isSome

def below (w : World) (c : ClassRef) : List ClassRef :=
  ((List.range w.classes.length).filter fun n =>
    ((w.classes[n]?).map fun cls => cls.base == c).getD false).map .made

end World

namespace Machine

/-- What an operation gives, shared; the mark is given away where it is in the result. -/
def give (mark : Nat) (v : Value) : Run Value := do
  let isMarked (v : Value) : Bool :=
    match v with
    | .float (.nan n) => n == mark
    | _ => false
  match v with
  | .tuple xs => if xs.any isMarked then spend
  | v => if isMarked v then spend
  Run.share v
where
  spend : Run Unit := modify fun w => { w with marks := max w.marks (mark + 1) }

def plainSum (a b : Value) : Run Value := do
  let mark := (← Run.world).marks
  give mark (← Run.lift (Value.add mark (← Run.look a) (← Run.look b)))

def sum (m : Machine) (a b : Value) : Run Value := do
  let w ← Run.world
  let reflected := if w.classOf a == w.classOf b then "" else "__radd__"
  match ← m.consult a b "__add__" reflected with
  | some v => return v
  | none =>
    if (w.special? a "__add__").isSome || (w.special? b reflected).isSome then throw .mismatch
    else plainSum a b

def objectNames : List String := [
  "__new__", "__repr__", "__hash__", "__str__", "__getattribute__", "__setattr__", "__delattr__",
  "__lt__", "__le__", "__eq__", "__ne__", "__gt__", "__ge__", "__init__", "__reduce_ex__",
  "__reduce__", "__getstate__", "__subclasshook__", "__init_subclass__", "__format__",
  "__sizeof__", "__dir__", "__class__", "__doc__"]

def objectOperation (m : Machine) (name : String) (self : Value) (args : List Value) :
    Run Value := do
  let w ← Run.world
  match name, args with
  | "__init__", [] => return .null
  | "__getattribute__", [.str key] => valueOf (← plainReach self key)
  | "__setattr__", [.str key, x] =>
    plainAssign self key x
    return .null
  | "__delattr__", [.str key] =>
    plainErase self key
    return .null
  | "__repr__", [] => return .str ("<" ++ w.kindName self ++ " object>")
  | "__str__", [] => return .str (← m.printed self)
  | "__format__", [.str ""] => return .str (← m.text self)
  | "__eq__", [other] =>
    return if Value.same self other then .bool true else Value.notImplemented
  | "__ne__", [other] =>
    let c := w.classOf self
    match w.find? c "__eq__" with
    | some (.builtIn .object, _) | none =>
      return if Value.same self other then .bool false else Value.notImplemented
    | some (holder, a) =>
      match ← m.use (w.reached holder c (some self) a) [other] [] with
      | .opaqueRef (.plain "NotImplementedType" _) => return Value.notImplemented
      | v => return .bool (!(← m.truthy v))
  | "__lt__", [_] | "__le__", [_] | "__gt__", [_] | "__ge__", [_] => return Value.notImplemented
  | "__hash__", [] => return .int 1
  | "__sizeof__", [] => return .int (((w.followed self).size?).getD (w.objectSize (w.classOf self)))
  | "__reduce__", [] => m.firstRecipe self
  | "__reduce_ex__", [version] =>
    m.recipeIn (← Run.lift (Word.short.fit (← m.indexOf version))) self
  | "__getstate__", [] =>
    match w.attributeCell? self with
    | some n => return if (w.cell n).truthy then World.placeValue (.cell n) else .null
    | none => return .null
  | "__dir__", [] =>
    let own := ((w.attributeCell? self).map fun n =>
      ((w.contents (.cell n)).rows?.getD []).map (·.1)).getD []
    let names := w.attributeNames (w.classOf self) ++ objectNames
    let more := (names.eraseDups.map .str).filter fun name => !own.any (Value.same name)
    Run.kept (.list (own ++ more))
  | _, _ => throw .mismatch

def memberClass? : Value → Option ClassRef
  | .null => some (.builtIn .null)
  | .opaqueRef (.cls c) => some c
  | _ => none

def union (m : Machine) (vs : List Value) : Run Value := do
  match vs.mapM memberClass? with
  | none => return Value.notImplemented
  | some cs =>
    match cs.eraseDups with
    | [c] => return World.classValue c
    | cs =>
      let shown ← cs.mapM fun c =>
        if c == .builtIn .null then m.printed .null else m.printedPart (World.classValue c)
      return .opaqueRef (.plain "UnionType" (" | ".intercalate shown))

def classOperation (m : Machine) (name : String) (c : ClassRef) (args : List Value)
    (named : Named) : Run Value := do
  let w ← Run.world
  match name, args with
  | "__call__", args => m.invoke (World.classValue c) args named
  | "mro", [] => Run.kept (.list ((w.lineage c).map World.classValue))
  | "__subclasses__", [] => Run.kept (.list ((w.below c).map World.classValue))
  | "__instancecheck__", [v] => return .bool ((w.lineage (w.classOf v)).contains c)
  | "__subclasscheck__", [.opaqueRef (.cls d)] => return .bool ((w.lineage d).contains c)
  | "__repr__", [] => return .str (w.classText c)
  | "__or__", [v] => m.union [World.classValue c, v]
  | "__ror__", [v] => m.union [v, World.classValue c]
  | "__getattribute__", [.str _] | "__setattr__", [.str _, _] | "__delattr__", [.str _] =>
    m.objectOperation name (World.classValue c) args
  | _, _ => throw .mismatch

def takesItems : List String := ["update", "extend", "join", "hex", "union", "intersection",
  "difference", "symmetric_difference", "issubset", "issuperset", "isdisjoint", "__or__", "__and__",
  "__sub__", "__xor__", "intersection_update", "difference_update", "symmetric_difference_update"]

def inPlace : List String := ["__iadd__", "__imul__", "__ior__", "__iand__", "__isub__", "__ixor__"]

def kindOperationOn (name : String) (self held : Value) (args : List Value) : Run Value := do
  let w ← Run.world
  match Value.operation w.sameInside w.marks name held args with
  | none => throw .mismatch
  | some outcome =>
    let effect ← Run.lift outcome
    match self, effect.container with
    | .opaqueRef (.place p), some container =>
      modify fun w => w.store p container
      return effect.result
    | _, _ => give w.marks effect.result

def taken (m : Machine) (name : String) (held v : Value) : Run Value := do
  match held, ← Run.look v with
  | .set _, .set xs | .frozenset _, .set xs =>
    if World.takesElement.contains name then return .set xs else given v
  | _, _ => given v
where
  given (v : Value) : Run Value := do
    if takesItems.contains name || inPlace.contains name then
      match v with
      | .opaqueRef (.view ..) | .opaqueRef (.cursor ..) | .opaqueRef (.object _) =>
        return .tuple (← m.iterate v)
      | v => Run.look v
    else if Value.comparisons.contains name then Run.expose v
    else return v

def asIndex (m : Machine) (v : Value) : Run Value := do
  if (← Run.world).tellsIndex v then return .int (← m.indexOf v) else return v

/-- An operation by the rule of the kind of a value; its errors show what it was given. Objects that
tell an integer stand for it where nothing else fits. -/
def plainOperation (m : Machine) (name : String) (self : Value) (args : List Value) :
    Run Value := do
  let w ← Run.world
  let held ← if Value.comparisons.contains name then Run.expose self else Run.look self
  if !w.fitsKeys name held args then throw .mismatch
  let given ← args.mapM (m.taken name held)
  let result ← try kindOperationOn name self held given catch
    | .mismatch =>
      if given.any w.tellsIndex then
        kindOperationOn name self held (← given.mapM m.asIndex)
      else throw .mismatch
    | .noEntry key =>
      match args with
      | k :: _ => throw (.noEntry (← m.printed k))
      | [] => throw (.noEntry key)
    | f => throw f
  match held, name, result with
  | .list _, "index", .null =>
    throw (.unreadable ((← m.printed (args.headD .null)) ++ " is not in list"))
  | .tuple _, "index", .null => throw (.unreadable "tuple.index(x): x not in tuple")
  | _, name, .null => return if inPlace.contains name then self else .null
  | _, _, v => return v

/-- The operations of a proxy that those of the dictionary do that it shows. -/
def proxied : List String := ["copy", "__or__", "__ror__"]

def kindOperation (m : Machine) (name : String) (self : Value) (args : List Value) :
    Run Value := do
  let w ← Run.world
  let self := if proxied.contains name then (w.proxied? self).getD self else self
  let held ← Run.look self
  match name, held, args with
  | _, .opaqueRef (.view ..), args => m.viewOperation name self args
  | _, .opaqueRef (.cursor _ id), args => cursorOperation name self id args
  | "__repr__", _, [] => return .str (← m.printed self)
  | "__str__", _, [] => return .str (← m.text self)
  | "__eq__", _, [other] =>
    if held.accepts (← Run.look other) then return .bool (w.sameValues self other)
    else return Value.notImplemented
  | "__ne__", _, [other] =>
    if held.accepts (← Run.look other) then return .bool (!w.sameValues self other)
    else return Value.notImplemented
  | "__add__", _, [other] =>
    if held.isNumber && !held.accepts other then return Value.notImplemented
    else plainSum self other
  | "__radd__", _, [other] =>
    if held.isNumber && !held.accepts other then return Value.notImplemented
    else plainSum other self
  | "__hash__", held, [] => return .int (held.hash?.getD 0)
  | "__mod__", .str s, [v] => m.carryOutText s v
  | "__rmod__", .str s, [.str template] => m.carryOutText template (.str s)
  | "__mod__", .bytes bs, [v] => m.carryOutBytes bs v
  | "__rmod__", .bytes bs, [.bytes template] => m.carryOutBytes template (.bytes bs)
  | "format_map", .str s, [v] => fillTemplate m (m.fillingsOf v) s.toList
  | "translate", .str s, [table] => m.throughTable s.toList table
  | "__init__", .list _, args | "__init__", .set _, args =>
    if args.length > 1 then throw .mismatch
    let _ ← m.plainOperation "clear" self []
    args.forM fun v => fill (if held.kind == .list then "append" else "add") v
    return .null
  | "update", .set _, args =>
    args.forM (fill "add")
    return .null
  | "difference_update", .set _, args =>
    args.forM fun v => do
      let _ ← m.plainOperation name self [v]
    return .null
  | "__iter__", _, [] => cursorOn self false
  | "__reversed__", _, [] => cursorOn self true
  | "keys", _, [] => Run.newView .keys self
  | "values", _, [] => Run.newView .values self
  | "items", _, [] => Run.newView .items self
  | "update", .dict _, [v] | "__init__", .dict _, [v] => merge v
  | "__ior__", .dict _, [v] =>
    let _ ← merge v
    return self
  | name, held, [other] =>
    match reflections.find? fun row => row.1 == name, held.isCollection with
    | some (_, direct), true =>
      if held.accepts (← Run.look other) then m.plainOperation direct other [self]
      else return Value.notImplemented
    | _, _ => m.plainOperation name self [other]
  | name, _, args => m.plainOperation name self args
where
  /-- Writes the rows of a value into a dictionary, pairs one at a time. -/
  merge (v : Value) : Run Value := do
    match ← Run.look v with
    | .dict rows => m.plainOperation "update" self [.dict rows]
    | .mapping rows => m.plainOperation "update" self [.dict rows]
    | _ =>
      if ← m.has v "keys" then
        (← m.iterate (← m.send v "keys" [] [])).forM fun k => do
          let _ ← m.plainOperation "__setitem__" self [k, ← m.itemOf v k]
      else
        let pairs ← m.iterate v
        let _ ← pairs.mapIdxM fun i pair => do
          match ← m.iterate pair with
          | [k, x] => m.plainOperation "__setitem__" self [k, x]
          | parts => throw (.notPair i parts.length)
      return .null
  /-- Adds the items of a value one at a time. -/
  fill (add : String) (v : Value) : Run Unit := do
    (← m.iterate v).forM fun x => do
      let _ ← m.plainOperation add self [x]

def fromKeys (m : Machine) (keys v : Value) : Run Value := do
  let rows ← (← m.iterate keys).mapM fun k => do
    let _ ← m.hashOf k
    return (k, v)
  Run.kept (.dict (Value.collectRows rows))

def isFilledLater (k : Kind) : Bool := k == .list || k == .dict || k == .set

def newPlain (c : ClassRef) (args : List Value) (named : Named) : Run Value := do
  let w ← Run.world
  let isBare := args.isEmpty && named.isEmpty
  match c with
  | .builtIn .object => if isBare then Run.newObject c else throw .mismatch
  | .builtIn _ => throw .mismatch
  | .made _ =>
    if isBare || (isBuiltIn w c "__new__" && !isBuiltIn w c "__init__") then Run.newObject c
    else throw .mismatch

def classMethod (m : Machine) (k c : Kind) (name : String) (args : List Value) : Run Value := do
  match k, name, args with
  | k, "__class_getitem__", [v] => m.formOf (.builtIn k) v
  | .int, "from_bytes", [v, .str order, isSigned] =>
    let _ ← Run.lift (Value.byteOrder order)
    let n ← Run.lift (Value.ofBytes (← m.bytesFrom v) order isSigned.truthy)
    return if c == .bool then .bool (n != 0) else .int n
  | .float, "fromhex", [.str s] =>
    let w ← Run.world
    match Binary64.readHex w.marks s with
    | .number x => give w.marks (.float x)
    | .tooLarge =>
      throw (.integerTooLarge "hexadecimal value too large to represent as a float")
    | .none => throw (.unreadable "invalid hexadecimal floating-point string")
  | .float, "__getformat__", [.str name] =>
    if name == "double" || name == "float" then return .str "IEEE, little-endian"
    else throw (.unreadable "__getformat__() argument 1 must be 'double' or 'float'")
  | .bytes, "fromhex", [.str s] => return .bytes (← Run.lift (Value.ofHex s.toList))
  | _, _, _ => throw .mismatch

/-- Runs an operation on its first argument, which must be a value of its kind. -/
def operate (m : Machine) (k : Kind) (name : String) (args : List Value) (named : Named) :
    Run Value := do
  let w ← Run.world
  match k, name, args with
  | _, "__init_subclass__", [_] => if named.isEmpty then return .null else throw .mismatch
  | _, "__subclasshook__", _ :: _ =>
    if named.isEmpty then return Value.notImplemented else throw .mismatch
  | .type, "__prepare__", _ => Run.kept (.dict [])
  | .object, "__new__", .opaqueRef (.cls c) :: args => newPlain c args named
  | k, "__new__", .opaqueRef (.cls (.builtIn c)) :: args =>
    if c != k then throw .mismatch
    else if isFilledLater k then m.convert k [] else m.makeKind k args named
  | .object, "__init__", self :: args =>
    let c := w.classOf self
    let isBare := args.isEmpty && named.isEmpty
    if isBare || (!w.isOfObjects c "__new__" && w.isOfObjects c "__init__") then return .null
    else throw .mismatch
  | .type, name, .opaqueRef (.cls c) :: args =>
    if named.isEmpty || name == "__call__" then m.classOperation name c args named
    else throw .mismatch
  | .list, "sort", self :: args =>
    match ← Run.lift (Value.arranged k name args named) with
    | [key, reverse] =>
      m.sortItems self key ((← Run.lift (Word.short.fit (← m.indexOf reverse))) != 0)
    | _ => throw .mismatch
  | .dict, "fromkeys", _ :: args =>
    if !named.isEmpty then throw .mismatch
    match args with
    | [keys] => m.fromKeys keys .null
    | [keys, v] => m.fromKeys keys v
    | _ => throw .mismatch
  | .dict, "update", self :: args | .dict, "__init__", self :: args =>
    if !args.isEmpty then
      let _ ← m.kindOperation name self args
    m.kindOperation name self [.ofRows named]
  | .text, "format", .str s :: args => fillTemplate m (fillings args named) s.toList
  | .text, "maketrans", args =>
    if named.isEmpty then characterTable args else throw .mismatch
  | .bytes, "maketrans", args =>
    match args, named with
    | [.bytes old, .bytes new], [] => return (← Run.lift (Value.byteTable old new)).result
    | _, _ => throw .mismatch
  | k, name, self :: args =>
    let args ← Run.lift (Value.arranged k name args named)
    match self, k.classOperations.contains name with
    | .opaqueRef (.cls (.builtIn c)), true => m.classMethod k c name args
    | self, _ =>
      if !(w.lineage (w.classOf self)).contains (.builtIn k) then throw .mismatch
      else if k == .object || k == .function then m.objectOperation name self args
      else m.kindOperation name self args
  | _, _, [] => throw .mismatch

end Machine

end Toolwright
