import Toolwright.Host.Formatting

/-!
# Tables of characters

A table says what stands for a character by its number: a number or a text, or null where nothing
does. Characters that are not in the table stay.
-/

namespace Toolwright.Machine

set_option autoImplicit false

def isAboutKey : Fault → Bool
  | .noKey _ | .noEntry _ | .outOfRange _ | .emptyList | .unknownName _ => true
  | .raised kind _ => ["KeyError", "IndexError", "LookupError"].contains kind
  | _ => false

def standIn (m : Machine) (table : Value) (c : Char) : Run (List Char) := do
  let found ← try some <$> m.itemOf table (.int c.toNat)
    catch f => if isAboutKey f then pure none else throw f
  match found with
  | none => return [c]
  | some .null => return []
  | some (.str s) => return s.toList
  | some v =>
    match v.asInt? with
    | none => throw .mismatch
    | some n =>
      if n < 0 || 0x110000 ≤ n then
        throw (.unreadable "character mapping must be in range(0x110000)")
      return [Char.ofNat n.toNat]

def throughTable (m : Machine) (cs : List Char) (table : Value) : Run Value := do
  return Value.ofChars (← cs.mapM (m.standIn table)).flatten

def tableKey : Value → Except Fault Value
  | .str s =>
    match s.toList with
    | [c] => .ok (.int c.toNat)
    | _ => .error (.unreadable "string keys in translate table must be of length 1")
  | v => if v.asInt?.isSome then .ok v else .error .mismatch

/-- A table made of a dictionary, or of characters and those that stand for them; the characters of
a third text are taken away. -/
def characterTable (args : List Value) : Run Value := do
  match args with
  | [v] =>
    match ← Run.look v with
    | .dict rows =>
      let rows ← Run.lift (rows.mapM fun row => do return (← tableKey row.1, row.2))
      Run.kept (.dict (Value.collectRows rows))
    | _ => throw .mismatch
  | .str old :: .str new :: rest =>
    let key (c : Char) : Value := .int c.toNat
    let deleted ← match rest with
      | [] => pure []
      | [.str s] => pure s.toList
      | _ => throw .mismatch
    if old.length != new.length then
      throw (.unreadable "the first two maketrans arguments must have equal length")
    let rows := (old.toList.zip new.toList).map fun row => (key row.1, key row.2)
    Run.kept (.dict (Value.collectRows (rows ++ deleted.map fun c => (key c, .null))))
  | _ => throw .mismatch

end Toolwright.Machine
