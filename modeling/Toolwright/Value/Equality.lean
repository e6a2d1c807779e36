import Toolwright.Table
import Toolwright.Value.Basic

/-!
# Equality of values

Numbers are equal across their kinds, dictionaries and sets whatever their order, a reference only
to itself. Inside a container a not-a-number is the same as itself, as the keys of a dictionary are
compared.
-/

namespace Toolwright.Value

set_option autoImplicit false

def ofBool (b : Bool) : Int := if b then 1 else 0

mutual

/-- Equality inside a container. -/
def same : Value → Value → Bool
  | .null, .null => true
  | .bool a, .bool b => a == b
  | .bool a, .int n => ofBool a == n
  | .bool a, .float x => x.toInt? == some (ofBool a)
  | .int n, .bool b => n == ofBool b
  | .int n, .int m => n == m
  | .int n, .float x => x.toInt? == some n
  | .float x, .bool b => x.toInt? == some (ofBool b)
  | .float x, .int n => x.toInt? == some n
  | .float x, .float y => x == y || x.equal y
  | .str s, .str t => s == t
  | .bytes a, .bytes b => a == b
  | .list xs, .list ys => sameItems xs ys
  | .tuple xs, .tuple ys => sameItems xs ys
  | .dict rows, .dict others => rows.length == others.length && sameRows rows others
  | .dict rows, .mapping others => rows.length == others.length && sameRows rows others
  | .mapping rows, .dict others => rows.length == others.length && sameRows rows others
  | .mapping rows, .mapping others => rows.length == others.length && sameRows rows others
  | .set xs, .set ys => xs.length == ys.length && allIn xs ys
  | .set xs, .frozenset ys => xs.length == ys.length && allIn xs ys
  | .frozenset xs, .set ys => xs.length == ys.length && allIn xs ys
  | .frozenset xs, .frozenset ys => xs.length == ys.length && allIn xs ys
  | .opaqueRef a, .opaqueRef b => a == b
  | .record s xs, .record t ys => s == t && sameItems xs ys
  | _, _ => false

def sameItems : List Value → List Value → Bool
  | [], [] => true
  | x :: xs, y :: ys => same x y && sameItems xs ys
  | _, _ => false

def sameRows : List (Value × Value) → List (Value × Value) → Bool
  | [], _ => true
  | (k, v) :: rows, others =>
    (match others.find? fun row => same k row.1 with
      | some row => same v row.2
      | none => false) && sameRows rows others

def allIn : List Value → List Value → Bool
  | [], _ => true
  | x :: xs, ys => ys.any (same x) && allIn xs ys

end

/-- Equality of two values: a not-a-number does not equal even itself. -/
def equal (a b : Value) : Bool :=
  match a with
  | .float (.nan _) => false
  | a => same a b

mutual

def hashable : Value → Bool
  | .tuple xs => allHashable xs
  | .list _ | .dict _ | .mapping _ | .set _ | .record .. | .opaqueRef (.place _) => false
  | .opaqueRef (.view kind _) => !kind.isUnhashable
  | _ => true

def allHashable : List Value → Bool
  | [] => true
  | x :: xs => hashable x && allHashable xs

end

def collectRows (rows : List (Value × Value)) : List (Value × Value) :=
  rows.foldl (fun t row => Table.insertBy same row.1 row.2 t) []

def inOrder (xs : List Value) : List Value :=
  if xs.all fun | .int _ => true | _ => false then
    xs.mergeSort fun a b => match a, b with | .int n, .int m => n ≤ m | _, _ => true
  else xs

def collectItems (xs : List Value) : List Value :=
  inOrder (xs.foldl (fun t x => if t.any (same x) then t else t ++ [x]) [])

end Toolwright.Value
