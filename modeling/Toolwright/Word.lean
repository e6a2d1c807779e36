import Toolwright.Fault

/-!
# Words

Integers that say where or how many are kept in words, each of which holds a range of them. What
would take more room than there can be is not made.
-/

namespace Toolwright

set_option autoImplicit false

/-- The integers from `-2^bits` on and below `2^bits`. -/
structure Word where
  name : String
  bits : Nat

namespace Word

def short : Word := ⟨"int", 31⟩

def long : Word := ⟨"long", 63⟩

def size : Word := ⟨"ssize_t", 63⟩

def holds (w : Word) (n : Int) : Bool := -(2 ^ w.bits) ≤ n && n < 2 ^ w.bits

def fit (w : Word) (n : Int) : Except Fault Int :=
  if w.holds n then .ok n
  else .error (.integerTooLarge ("Python int too large to convert to C " ++ w.name))

def unfit : String := "cannot fit 'int' into an index-sized integer"

/-- An integer that says how many; one below zero says none. -/
def count (n : Int) : Except Fault Nat :=
  if size.holds n then .ok n.toNat else .error (.integerTooLarge unfit)

def place (n : Int) : Except Fault Int :=
  if size.holds n then .ok n else .error (.outOfRange unfit)

def room : Nat := 2 ^ 28

def fitRoom (n : Nat) : Except Fault Nat := if n ≤ room then .ok n else .error .noMemory

/-- A list so many times over; `reason` tells why it is longer than can be said, if that is told. -/
def repeated {α : Type} (reason : Option String) (xs : List α) (n : Int) :
    Except Fault (List α) := do
  let n ← count n
  if xs.isEmpty then return []
  else
    let length ← match reason with
      | some reason =>
        if 2 ^ 63 ≤ n * xs.length then .error (.integerTooLarge reason) else .ok (n * xs.length)
      | none => .ok (n * xs.length)
    let _ ← fitRoom length
    return (List.replicate n xs).flatten

end Word

end Toolwright
