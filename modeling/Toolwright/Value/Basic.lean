import Toolwright.Binary64.Basic
import Toolwright.Fault
import Toolwright.Value.Kind

/-!
# Values

The values that tools take and give. Dictionaries and mappings keep their rows in insertion order;
what a value cannot show of itself is an opaque reference or a record of named fields.
-/

namespace Toolwright

set_option autoImplicit false

/-- The records that hosts and definitions hand out. -/
inductive Shape where
  | paramSpec
  | toolParameter
  | inputSchema
  | helperTable
  /-- An answer, of a class that was made. -/
  | response (cls : Nat) (name : String)
  deriving DecidableEq

def Shape.name : Shape → String
  | .paramSpec => "ParamSpec"
  | .toolParameter => "ToolParameter"
  | .inputSchema => "InputSchema"
  | .helperTable => "HelperMethods"
  | .response _ name => name

def Shape.fields : Shape → List String
  | .paramSpec => ["name", "type", "description", "required", "default"]
  | .toolParameter => ["name", "type", "description", "required"]
  | .inputSchema => ["properties", "required"]
  | .helperTable => ["instance", "class_scope"]
  | .response .. => ["content", "is_error"]

inductive Value where
  | null
  | bool (b : Bool)
  | int (n : Int)
  | float (x : Binary64)
  | str (s : String)
  | bytes (bs : List UInt8)
  | list (xs : List Value)
  | tuple (xs : List Value)
  | dict (rows : List (Value × Value))
  /-- A mapping that is not a dictionary. -/
  | mapping (rows : List (Value × Value))
  | set (xs : List Value)
  | frozenset (xs : List Value)
  | opaqueRef (o : Opaque)
  | record (shape : Shape) (fields : List Value)

namespace Value

instance : Inhabited Value := ⟨.null⟩

def kind : Value → Kind
  | .null => .null
  | .bool _ => .bool
  | .int _ => .int
  | .float _ => .float
  | .str _ => .text
  | .bytes _ => .bytes
  | .list _ => .list
  | .tuple _ => .tuple
  | .dict _ => .dict
  | .mapping _ => .mapping
  | .set _ => .set
  | .frozenset _ => .frozenset
  | .opaqueRef (.token ..) => .token
  | .opaqueRef (.mute ..) => .mute
  | .opaqueRef (.cls _) => .type
  | .opaqueRef (.routine _) => .function
  | .opaqueRef (.place (.attributes _)) | .opaqueRef (.place (.shown _)) => .proxy
  | .opaqueRef (.view kind _) | .opaqueRef (.cursor kind _) => kind
  | .opaqueRef _ => .object
  | .record .. => .object

/-- Whether a value counts as true: the empty ones and the zeros do not. -/
def truthy : Value → Bool
  | .null => false
  | .bool b => b
  | .int n => n != 0
  | .float x => !x.isZero
  | .str s => !s.isEmpty
  | .bytes bs => !bs.isEmpty
  | .list xs | .tuple xs | .set xs | .frozenset xs => !xs.isEmpty
  | .dict rows | .mapping rows => !rows.isEmpty
  | .opaqueRef _ | .record .. => true

def rows? : Value → Option (List (Value × Value))
  | .dict rows | .mapping rows => some rows
  | _ => none

def noAttribute (v : Value) (name : String) : Fault := .noAttribute (.object v.kind.name) name

def ofRows (rows : List (String × Value)) : Value := .dict (rows.map fun row => (.str row.1, row.2))

end Value

end Toolwright
