import Toolwright.Binary64.Reader
import Toolwright.Text.Bytes
import Toolwright.Text.Numeral
import Toolwright.Value.Equality
import Toolwright.Value.Printed

/-!
# Literals

A literal writes a value. Each time it is built the value is a new one: its not-a-numbers and its
opaque objects differ from those that were built before.
-/

/-!
## Numerals as values

The integers that texts and bytes write.
-/

namespace Toolwright.Value

set_option autoImplicit false

def written? : Value → Option (List Char)
  | .str s => some s.toList
  | .bytes bs => some (Text.Bytes.chars bs)
  | _ => none

/-- The integer that a text or bytes write in a base, of which there may be at most 4300 digits. -/
def readInteger (base : Nat) (v : Value) : Except Fault Int := do
  match (v.written?.map (Text.readNumeral base)).getD .none with
  | .number n => return n
  | .tooLong digits => throw (.numeralTooLong digits)
  | .none =>
    let shown := String.ofList ((← v.printed).toList.take 200)
    throw (.unreadable ("invalid literal for int() with base " ++ toString base ++ ": " ++ shown))

end Toolwright.Value

/-! ## Reading literals -/

namespace Toolwright

set_option autoImplicit false

inductive Literal where
  | null
  | bool (b : Bool)
  | int (n : Int)
  /-- An integer by its digits. -/
  | numeral (digits : String)
  | float (text : String)
  | str (s : String)
  | bytes (bs : List UInt8)
  | list (items : List Literal)
  | tuple (items : List Literal)
  | dict (rows : List (Literal × Literal))
  | mapping (rows : List (Literal × Literal))
  | set (items : List Literal)
  | frozenset (items : List Literal)
  | token (text : String)
  | mute (reason : String)

abbrev Build := StateT Nat (Except Fault)

namespace Literal

instance : Inhabited Literal := ⟨.null⟩

def freshMark : Build Nat := modifyGet fun n => (n, n + 1)

/-- The number that a text writes, which is shown as `shown` if it writes none. -/
def readFloat (text shown : String) : Build Value := do
  match Binary64.read? (← freshMark) text with
  | some x => return .float x
  | none => throw (.unreadable ("could not convert string to float: " ++ shown))

def checkHashable (vs : List Value) : Build Unit :=
  if vs.all Value.hashable then return else throw .mismatch

mutual

def build : Literal → Build Value
  | .null => return .null
  | .bool b => return .bool b
  | .int n => return .int n
  | .numeral digits => do return .int (← liftM (Value.readInteger 10 (.str digits)))
  | .float text => readFloat text (Text.quoted text)
  | .str s => return .str s
  | .bytes bs => return .bytes bs
  | .list items => do return .list (← buildItems items)
  | .tuple items => do return .tuple (← buildItems items)
  | .dict rows => do return .dict (Value.collectRows (← buildRows rows))
  | .mapping rows => do return .mapping (Value.collectRows (← buildRows rows))
  | .set items => do
    let vs ← buildItems items
    checkHashable vs
    return .set (Value.collectItems vs)
  | .frozenset items => do
    let vs ← buildItems items
    checkHashable vs
    return .frozenset (Value.collectItems vs)
  | .token text => do return .opaqueRef (.token (← freshMark) text)
  | .mute reason => do return .opaqueRef (.mute (← freshMark) reason)

def buildItems : List Literal → Build (List Value)
  | [] => return []
  | item :: items => do
    let v ← build item
    return v :: (← buildItems items)

def buildRows : List (Literal × Literal) → Build (List (Value × Value))
  | [] => return []
  | (key, item) :: rows => do
    let k ← build key
    let v ← build item
    checkHashable [k]
    return (k, v) :: (← buildRows rows)

end

/-- Literals by name, in order. -/
abbrev Rows := List (String × Literal)

def buildNamed (rows : Rows) : Build (List (String × Value)) :=
  rows.mapM fun row => do return (row.1, ← row.2.build)

end Literal

end Toolwright
