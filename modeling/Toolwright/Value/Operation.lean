import Toolwright.Value.BytesOperation
import Toolwright.Value.Number
import Toolwright.Value.Order

/-!
# Operations on values

What the named operations of containers give, and which operation a name stands for on a value of
any kind. An operation on a container that can change tells what the container holds afterwards;
containers inside it are compared by a test that the caller gives.
-/

namespace Toolwright.Value

set_option autoImplicit false

def operators : List String := [
  "__and__", "__divmod__", "__floordiv__", "__ge__", "__gt__", "__iand__", "__ior__", "__isub__",
  "__ixor__", "__le__", "__lshift__", "__lt__", "__mod__", "__mul__", "__or__", "__pow__",
  "__rand__", "__rdivmod__", "__rfloordiv__", "__rlshift__", "__rmod__", "__rmul__", "__ror__",
  "__rpow__", "__rrshift__", "__rshift__", "__rsub__", "__rtruediv__", "__rxor__", "__sub__",
  "__truediv__", "__xor__"]

def isRepetition (v : Value) (name : String) : Bool :=
  (name == "__mul__" || name == "__rmul__" || name == "__mod__") &&
    match v with
    | .str _ | .bytes _ | .list _ | .tuple _ => true
    | _ => false

/-! ## Lists and tuples -/

def positionIn (same : Value → Value → Bool) (xs : List Value) (v : Value) (bounds : List Value) :
    Option Outcome := do
  let ends ← bounds.mapM asInt?
  let start := insertion xs.length (ends.getD 0 0)
  let stop := insertion xs.length (ends.getD 1 xs.length)
  if ends.length ≤ 2 then
    return gives (match ((xs.take stop).drop start).findIdx? (same v) with
      | some i => .int (start + i : Nat)
      | none => .null)
  else none

/-- An operation on the items of a list or a tuple. The position of a value that is not there is
null. -/
def itemsOperation (same : Value → Value → Bool) (name : String) (xs : List Value)
    (args : List Value) : Option Outcome :=
  match name, args with
  | "count", [v] => some (gives (.int (xs.countP (same v))))
  | "index", v :: bounds => positionIn same xs v bounds
  | "__contains__", [v] => some (gives (.bool (xs.any (same v))))
  | _, _ => none

def itemAt (kind : Kind) (xs : List Value) (v : Value) : Option Outcome :=
  v.asInt?.map fun i => do
    match (position? xs.length (← Word.place i)).bind (xs[·]?) with
    | some x => gives x
    | none => .error (.outOfRange (kind.name ++ " index out of range"))

def listOperation (same : Value → Value → Bool) (name : String) (xs : List Value)
    (args : List Value) : Option Outcome :=
  match name, args with
  | "append", [v] => some (becomes (.list (xs ++ [v])))
  | "extend", [v] | "__iadd__", [v] => some (do becomes (.list (xs ++ (← v.items))))
  | "__imul__", [v] => v.asInt?.map fun n => do becomes (.list (← Word.repeated none xs n))
  | "insert", [i, v] =>
    i.asInt?.map fun i => do
      let (front, back) := xs.splitAt (insertion xs.length (← Word.size.fit i))
      becomes (.list (front ++ v :: back))
  | "__getitem__", [v] => itemAt .list xs v
  | "clear", [] => some (becomes (.list []))
  | "reverse", [] => some (becomes (.list xs.reverse))
  | "copy", [] => some (gives (.list xs))
  | "pop", [] => some (
    match xs.getLast? with
    | some x => becomes (.list xs.dropLast) x
    | none => .error .emptyList)
  | "pop", [i] =>
    i.asInt?.map fun i => do
      let i ← Word.size.fit i
      if xs.isEmpty then throw .emptyList
      else
        match position? xs.length i with
        | some i => becomes (.list (xs.eraseIdx i)) (xs.getD i .null)
        | none => throw (.outOfRange "pop index out of range")
  | "remove", [v] =>
    match xs.findIdx? (same v) with
    | some i => some (becomes (.list (xs.eraseIdx i)))
    | none => some (.error (.unreadable "list.remove(x): x not in list"))
  | "__setitem__", [i, v] =>
    i.asInt?.map fun i => do
      match position? xs.length (← Word.place i) with
      | some i => becomes (.list (xs.set i v))
      | none => .error (.outOfRange "list assignment index out of range")
  | "__delitem__", [i] =>
    i.asInt?.map fun i => do
      match position? xs.length (← Word.place i) with
      | some i => becomes (.list (xs.eraseIdx i))
      | none => .error (.outOfRange "list assignment index out of range")
  | "__mul__", [v] | "__rmul__", [v] =>
    v.asInt?.map fun n => do gives (.list (← Word.repeated none xs n))
  | name, args => itemsOperation same name xs args

def tupleOperation (same : Value → Value → Bool) (name : String) (xs : List Value)
    (args : List Value) : Option Outcome :=
  match name, args with
  | "__mul__", [v] | "__rmul__", [v] =>
    v.asInt?.map fun n => do gives (.tuple (← Word.repeated none xs n))
  | "__getitem__", [v] => itemAt .tuple xs v
  | "__getnewargs__", [] => some (gives (.tuple [.tuple xs]))
  | name, args => itemsOperation same name xs args

/-! ## Dictionaries -/

def valueAt? (rows : List (Value × Value)) (k : Value) : Option Value :=
  (rows.find? fun row => same k row.1).map (·.2)

def withoutKey (rows : List (Value × Value)) (k : Value) : List (Value × Value) :=
  rows.filter fun row => !same k row.1

def missingKey (k : Value) : Outcome := do throw (.noEntry (← k.printed))

def takesKey : List String := ["get", "setdefault", "__getitem__", "__contains__", "__setitem__",
  "__delitem__"]

def lacksKey (name : String) (args : List Value) : Bool :=
  takesKey.contains name && (args.head?.map fun k => !k.hashable).getD false

def rowsOperation (name : String) (rows : List (Value × Value)) (args : List Value) :
    Option Outcome :=
  match name, args with
  | "get", [k] => some (gives ((valueAt? rows k).getD .null))
  | "get", [k, v] => some (gives ((valueAt? rows k).getD v))
  | "__getitem__", [k] => some (
    match valueAt? rows k with
    | some v => gives v
    | none => missingKey k)
  | "__contains__", [k] => some (gives (.bool (valueAt? rows k).isSome))
  | _, _ => none

def dictOperation (name : String) (rows : List (Value × Value)) (args : List Value) :
    Option Outcome :=
  match name, args with
  | "__or__", [.dict more] =>
    some (gives (.dict (more.foldl (fun t row => Table.insertBy same row.1 row.2 t) rows)))
  | "__setitem__", [k, v] => some (becomes (.dict (Table.insertBy same k v rows)))
  | "setdefault", [k] => some (setDefault k .null)
  | "setdefault", [k, v] => some (setDefault k v)
  | "pop", [k] => some (
    if !rows.isEmpty && !k.hashable then .error .mismatch
    else
    match valueAt? rows k with
    | some v => becomes (.dict (withoutKey rows k)) v
    | none => missingKey k)
  | "pop", [k, default] => some (
    if !rows.isEmpty && !k.hashable then .error .mismatch
    else becomes (.dict (withoutKey rows k)) ((valueAt? rows k).getD default))
  | "__delitem__", [k] => some (
    match valueAt? rows k with
    | some _ => becomes (.dict (withoutKey rows k))
    | none => missingKey k)
  | "popitem", [] => some (
    match rows.getLast? with
    | some row => becomes (.dict rows.dropLast) (.tuple [row.1, row.2])
    | none => .error (.noKey "popitem(): dictionary is empty"))
  | "clear", [] => some (becomes (.dict []))
  | "copy", [] => some (gives (.dict rows))
  | "update", [] | "__init__", [] => some (gives .null)
  | "update", [v] => some (do
    let more ← v.toRows
    becomes (.dict (more.foldl (fun t row => Table.insertBy same row.1 row.2 t) rows)))
  | name, args => rowsOperation name rows args
where
  setDefault (k v : Value) : Outcome :=
    match valueAt? rows k with
    | some old => gives old
    | none => becomes (.dict (rows ++ [(k, v)])) v

/-! ## Sets -/

def isElement (v : Value) : Bool := v.hashable || v.kind == .set

/-- The elements that are in both, or in the first alone, or in either, or in one alone. -/
def combined (name : String) (xs ys : List Value) : List Value :=
  let isIn (zs : List Value) (x : Value) : Bool := zs.any (same x)
  match name with
  | "intersection" => xs.filter (isIn ys)
  | "difference" => xs.filter fun x => !isIn ys x
  | "symmetric_difference" => collectItems
    ((xs.filter fun x => !isIn ys x) ++ ys.filter fun y => !isIn xs y)
  | _ => collectItems (xs ++ ys)

def combinationOf? : String → Option String
  | "__and__" | "__iand__" => some "intersection"
  | "__sub__" | "__isub__" => some "difference"
  | "__xor__" | "__ixor__" => some "symmetric_difference"
  | "__or__" | "__ior__" => some "union"
  | _ => none

/-- The elements combined with the items of each argument, all of which can be elements. -/
def combinedAll (name : String) (xs args : List Value) : Except Fault (List Value) :=
  args.foldlM (fun xs v => do
    let ys ← v.items
    if ys.all hashable then return combined name xs ys else throw .mismatch) xs

/-- Whether none of the items meets a test, each of which must be one that can be an element. -/
def noneMeets (ys : List Value) (test : Value → Bool) : Outcome :=
  match ys.find? fun y => !y.hashable || test y with
  | none => gives (.bool true)
  | some y => if y.hashable then gives (.bool false) else .error .mismatch

def elementsOperation (made : List Value → Value) (name : String) (xs args : List Value) :
    Option Outcome :=
  match name, args with
  | "__contains__", [v] => some (
    if isElement v then gives (.bool (xs.any (same v))) else .error .mismatch)
  | "copy", [] => some (gives (made xs))
  | "__reduce__", [] =>
    let cls : Value := .opaqueRef (.cls (.builtIn (made []).kind))
    some (gives (.tuple [cls, .tuple [.list xs], .null]))
  | "union", args | "intersection", args | "difference", args =>
    some (do gives (made (← combinedAll name xs args)))
  | "symmetric_difference", [v] => some (do gives (made (← combinedAll name xs [v])))
  | "issubset", [v] => some (do
    let ys ← v.items
    if ys.all hashable then gives (.bool (allIn xs ys)) else throw .mismatch)
  | "issuperset", [v] => some (do noneMeets (← v.items) fun y => !xs.any (same y))
  | "isdisjoint", [v] => some (do noneMeets (← v.items) fun y => xs.any (same y))
  | name, [v] => (combinationOf? name).map fun name => do
    gives (made (← combinedAll name xs [v]))
  | _, _ => none

def setOperation (name : String) (xs args : List Value) : Option Outcome :=
  match name, args with
  | "add", [v] => some (
    if v.hashable then becomes (.set (collectItems (xs ++ [v]))) else .error .mismatch)
  | "discard", [v] => some (
    if isElement v then becomes (.set (xs.filter fun x => !same v x)) else .error .mismatch)
  | "remove", [v] => some (
    if !isElement v then .error .mismatch
    else if xs.any (same v) then becomes (.set (xs.filter fun x => !same v x)) else missingKey v)
  | "clear", [] => some (becomes (.set []))
  | "intersection_update", args => some (do becomes (.set (← combinedAll "intersection" xs args)))
  | "difference_update", args => some (do becomes (.set (← combinedAll "difference" xs args)))
  | "symmetric_difference_update", [v] => some (do
    becomes (.set (← combinedAll "symmetric_difference" xs [v])))
  | "pop", [] => some (
    match xs with
    | x :: xs => becomes (.set xs) x
    | [] => .error (.noKey "pop from an empty set"))
  | name, args =>
    match args, name.startsWith "__i", combinationOf? name with
    | [v], true, some name => some (do becomes (.set (← combinedAll name xs [v])))
    | args, _, _ => elementsOperation .set name xs args

/-! ## All kinds -/

def isForeign (v : Value) (name : String) (args : List Value) : Bool :=
  match args with
  | [b] =>
    let isMerge := name == "__ior__" && v.kind == .dict
    operators.contains name && !isRepetition v name && !isMerge && !v.accepts b
  | _ => false

/-- An operation on a value of any kind that is built in; there is none for arguments that do not
fit. A result that is not a number gets the mark. -/
def operation (same : Value → Value → Bool) (mark : Nat) (name : String) (v : Value)
    (args : List Value) : Option Outcome :=
  match name, args with
  | "__len__", [] => v.length?.map fun n => gives (.int n)
  | "__bool__", [] => some (gives (.bool v.truthy))
  | "__sizeof__", [] => v.size?.map fun n => gives (.int n)
  | name, args =>
    if isForeign v name args then some (gives notImplemented)
    else if comparisons.contains name then
      match v, args with
      | .dict _, [_] | .mapping _, [_] => some (gives notImplemented)
      | v, [b] => (compares? name v b).map fun holds => gives (.bool holds)
      | _, _ => none
    else
    match v with
    | .str s => textOperation name s.toList args
    | .bool b => boolOperation mark name b args
    | .int n => intOperation mark name n args
    | .float x => floatOperation mark name x args
    | .bytes bs => bytesOperation name bs args
    | .list xs => listOperation same name xs args
    | .tuple xs => tupleOperation same name xs args
    | .dict rows => if lacksKey name args then none else dictOperation name rows args
    | .mapping rows => if lacksKey name args then none else rowsOperation name rows args
    | .set xs => setOperation name xs args
    | .frozenset xs => elementsOperation .frozenset name xs args
    | _ => none

end Toolwright.Value
