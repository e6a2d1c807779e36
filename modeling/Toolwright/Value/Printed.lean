import Toolwright.Binary64.Decimal
import Toolwright.Value.Basic

/-!
# Printed values

`printed` shows a value as it stands inside another, with text quoted; `text` shows text and opaque
objects plainly.
-/

namespace Toolwright

set_option autoImplicit false

/-- The decimal text of an integer of at most 4300 digits. -/
def intText (n : Int) : Except Fault String :=
  if n.natAbs < 10 ^ 4300 then .ok (toString n) else .error .tooManyDigits

/-- What is told of a reference that has to be followed. -/
def Opaque.printed : Opaque → String
  | .token _ text => "Obj(" ++ Text.quoted text ++ ")"
  | .mute .. => "BadObj()"
  | .plain _ text => text
  | _ => "..."

namespace Value

def joined (parts : List String) : String := ", ".intercalate parts

mutual

def printed : Value → Except Fault String
  | .null => .ok "None"
  | .bool b => .ok (if b then "True" else "False")
  | .int n => intText n
  | .float x => .ok x.text
  | .str s => .ok (Text.quoted s)
  | .bytes bs => .ok (Text.quotedBytes bs)
  | .list xs => do return "[" ++ joined (← printedItems xs) ++ "]"
  | .tuple xs => do
    match ← printedItems xs with
    | [one] => return "(" ++ one ++ ",)"
    | parts => return "(" ++ joined parts ++ ")"
  | .dict rows => do return "\x7b" ++ joined (← printedRows rows) ++ "\x7d"
  | .mapping rows => do return "PairMap(\x7b" ++ joined (← printedRows rows) ++ "\x7d)"
  | .set xs => do
    if xs.isEmpty then return "set()"
    return "\x7b" ++ joined (← printedItems xs) ++ "\x7d"
  | .frozenset xs => do
    if xs.isEmpty then return "frozenset()"
    return "frozenset(\x7b" ++ joined (← printedItems xs) ++ "\x7d)"
  | .opaqueRef o => .ok o.printed
  | .record shape fields => do
    let parts := List.zipWith (fun name part => name ++ "=" ++ part) shape.fields
      (← printedItems fields)
    return shape.name ++ "(" ++ joined parts ++ ")"

def printedItems : List Value → Except Fault (List String)
  | [] => .ok []
  | x :: xs => do return (← printed x) :: (← printedItems xs)

def printedRows : List (Value × Value) → Except Fault (List String)
  | [] => .ok []
  | (k, v) :: rows => do
    return ((← printed k) ++ ": " ++ (← printed v)) :: (← printedRows rows)

end

def text : Value → Except Fault String
  | .str s => .ok s
  | .opaqueRef (.token _ text) => .ok text
  | .opaqueRef (.mute _ reason) => .error (.unprintable reason)
  | v => printed v

end Value

end Toolwright
