/-!
# Kinds of values

Each value is of a kind that is built in or of a class that was made. Containers that can change are
kept in places, so that all who hold one see it change.
-/

namespace Toolwright

set_option autoImplicit false

inductive Part where
  | keys
  | values
  | items
  deriving DecidableEq

inductive Kind where
  | object
  | type
  | null
  | bool
  | int
  | float
  | text
  | bytes
  | list
  | tuple
  | dict
  | set
  | frozenset
  | mapping
  /-- What shows the attributes of a class or the rows of a dictionary. -/
  | proxy
  /-- A view of a dictionary. -/
  | view (part : Part)
  /-- A view of a mapping that is no dictionary. -/
  | mappingView (part : Part)
  /-- What gives items one after another, by the name of the kind. -/
  | iterator (name : String)
  | token
  | mute
  | function
  | method
  | operation
  deriving DecidableEq

namespace Kind

def name : Kind → String
  | .object => "object"
  | .type => "type"
  | .null => "NoneType"
  | .bool => "bool"
  | .int => "int"
  | .float => "float"
  | .text => "str"
  | .bytes => "bytes"
  | .list => "list"
  | .tuple => "tuple"
  | .dict => "dict"
  | .set => "set"
  | .frozenset => "frozenset"
  | .mapping => "PairMap"
  | .proxy => "mappingproxy"
  | .view .keys => "dict_keys"
  | .view .values => "dict_values"
  | .view .items => "dict_items"
  | .mappingView .keys => "KeysView"
  | .mappingView .values => "ValuesView"
  | .mappingView .items => "ItemsView"
  | .iterator name => name
  | .token => "Obj"
  | .mute => "BadObj"
  | .function => "function"
  | .method => "method"
  | .operation => "builtin_function_or_method"

def module : Kind → String
  | .mapping | .token | .mute => "__main__"
  | .mappingView _ => "collections.abc"
  | _ => "builtins"

def isBundled (k : Kind) : Bool := k.module != "builtins"

def above : Kind → List Kind
  | .object => []
  | .bool => [.int, .object]
  | _ => [.object]

def isUnhashable : Kind → Bool
  | .list | .dict | .set | .mapping | .proxy => true
  | .view part | .mappingView part => part != .values
  | _ => false

end Kind

/-- A class: a kind that is built in, or a class that was made. -/
inductive ClassRef where
  | builtIn (kind : Kind)
  | made (id : Nat)
  deriving DecidableEq

inductive Place where
  | cell (id : Nat)
  /-- The attributes of a class, which are only shown. -/
  | attributes (cls : ClassRef)
  /-- The dictionary of a cell, which is only shown. -/
  | shown (id : Nat)
  deriving DecidableEq

/-- A reference that is equal to itself alone. -/
inductive Opaque where
  /-- An object that prints as its text. -/
  | token (serial : Nat) (text : String)
  /-- An object that cannot be printed, for the reason given. -/
  | mute (serial : Nat) (reason : String)
  | cls (c : ClassRef)
  | object (id : Nat)
  | routine (id : Nat)
  | place (p : Place)
  | view (kind : Kind) (id : Nat)
  | cursor (kind : Kind) (id : Nat)
  /-- A thing that shows its kind and its text. -/
  | plain (kind text : String)
  deriving DecidableEq

end Toolwright
