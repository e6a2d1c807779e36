import Toolwright.Document.Layout
import Toolwright.Value.Equality
import Toolwright.Value.Printed

/-!
# Result text

The text under which a tool publishes what it returned: texts as they are, containers as documents,
anything else as its own text.
-/

/-!
## Member keys

A document names the members of an object by texts, numbers, truth values or null. `settleKeys`
makes every mapping a dictionary with such keys, writing other keys as text, and every tuple a list.
-/

namespace Toolwright.Value

set_option autoImplicit false

/-- A key that a document can name. -/
def isMemberKey : Value → Bool
  | .null | .bool _ | .int _ | .float _ | .str _ => true
  | _ => false

def memberKey (k : Value) : Except Fault Value :=
  if k.isMemberKey then .ok k else .str <$> k.text

mutual

def settleKeys : Value → Except Fault Value
  | .dict rows => do return .dict (collectRows (← settleRows rows))
  | .mapping rows => do return .dict (collectRows (← settleRows rows))
  | .list xs => do return .list (← settleItems xs)
  | .tuple xs => do return .list (← settleItems xs)
  | v => .ok v

def settleItems : List Value → Except Fault (List Value)
  | [] => .ok []
  | x :: xs => do return (← settleKeys x) :: (← settleItems xs)

def settleRows : List (Value × Value) → Except Fault (List (Value × Value))
  | [] => .ok []
  | (k, v) :: rows => do
    let key ← memberKey k
    return (key, ← settleKeys v) :: (← settleRows rows)

end

/-! ## Result texts -/

/-- The text of a container: what has no place in a document stands there as its own text. -/
def documentText (v indent : Value) : Except Fault String := do
  let settled ← v.settleKeys
  let layout ← Layout.ofIndent indent
  let d ← Document.ofValue (fun leaf => .str <$> leaf.text) settled
  return d.text layout

def resultText (v indent : Value) : Except Fault String :=
  match v with
  | .str s => .ok s
  | .list _ | .tuple _ | .dict _ | .mapping _ => v.documentText indent
  | v => v.text

end Toolwright.Value
