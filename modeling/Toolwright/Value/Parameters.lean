import Toolwright.Arguments
import Toolwright.Value.Sum
import Toolwright.Word

/-!
# Parameters of operations

The operations of values that take arguments by name, with what they take where nothing is given.
-/

namespace Toolwright

set_option autoImplicit false

structure Parameters where
  positional : Nat
  takes : List (String × Option Value)

namespace Parameters

def ofOperation? (k : Kind) (name : String) : Option Parameters :=
  match k, name with
  | .text, "split" | .text, "rsplit" | .bytes, "split" | .bytes, "rsplit" =>
    some ⟨2, [("sep", some .null), ("maxsplit", some (.int (-1)))]⟩
  | .text, "splitlines" | .bytes, "splitlines" => some ⟨1, [("keepends", some (.bool false))]⟩
  | .text, "expandtabs" | .bytes, "expandtabs" => some ⟨1, [("tabsize", some (.int 8))]⟩
  | .text, "encode" | .bytes, "decode" =>
    some ⟨2, [("encoding", some (.str "utf-8")), ("errors", some (.str "strict"))]⟩
  | .bytes, "translate" => some ⟨2, [("", none), ("delete", some (.bytes []))]⟩
  | .int, "to_bytes" =>
    some ⟨2, [("length", some (.int 1)), ("byteorder", some (.str "big")),
      ("signed", some (.bool false))]⟩
  | .int, "from_bytes" =>
    some ⟨2, [("bytes", none), ("byteorder", some (.str "big")), ("signed", some (.bool false))]⟩
  | .list, "sort" => some ⟨0, [("key", some .null), ("reverse", some (.bool false))]⟩
  | _, _ => none

def bind (p : Parameters) (args : List Value) (named : Named) : Except Fault (List Value) := do
  if args.length > p.positional || !(leftover p.takes named).isEmpty then throw .mismatch
  return (← bindParams named p.takes args).map (·.2)

end Parameters

namespace Value

/-- The arguments of an operation by position alone. A size of groups says nothing of hexadecimal
digits without a separator, and a null no modulus of a power. -/
def arranged (k : Kind) (name : String) (args : List Value) (named : Named) :
    Except Fault (List Value) := do
  match Parameters.ofOperation? k name, k, name with
  | some p, _, _ => p.bind args named
  | none, .bytes, "hex" =>
    let arg ← bindOptional ["sep", "bytes_per_sep"] args named
    let size := (arg "bytes_per_sep").getD (.int 1)
    match arg "sep", size.asInt? with
    | _, none => throw .mismatch
    | some separator, some _ => return [separator, size]
    | none, some n =>
      let _ ← Word.short.fit n
      return []
  | none, _, name =>
    if !named.isEmpty then throw .mismatch
    return match name, args with
      | "__pow__", [v, .null] | "__rpow__", [v, .null] => [v]
      | _, args => args

end Value

end Toolwright
