/-!
# Cutting

Where one list stands in another one, and the parts of a list between such places, between blanks
and between two bounds.
-/

namespace Toolwright.Text

set_option autoImplicit false

variable {α : Type} [BEq α]

def cut? (part : List α) : List α → Option (List α × List α)
  | [] => if part.isEmpty then some ([], []) else none
  | x :: xs =>
    if part.isPrefixOf (x :: xs) then some ([], (x :: xs).drop part.length)
    else (cut? part xs).map fun found => (x :: found.1, found.2)

def cutLast? (part xs : List α) : Option (List α × List α) :=
  (cut? part.reverse xs.reverse).map fun found => (found.2.reverse, found.1.reverse)

def cutAll (part : List α) : Nat → List α → List (List α)
  | 0, xs => [xs]
  | limit + 1, xs =>
    match cut? part xs with
    | some (front, back) => front :: cutAll part limit back
    | none => [xs]

omit [BEq α] in
def runsUpTo (isBlank : α → Bool) : Nat → List α → List (List α)
  | limit, xs =>
    let xs := xs.dropWhile isBlank
    match limit, xs with
    | _, [] => []
    | 0, xs => [xs]
    | limit + 1, xs =>
      let isInside (x : α) : Bool := !isBlank x
      xs.takeWhile isInside :: runsUpTo isBlank limit (xs.dropWhile isInside)

def interleave (part : List α) : Nat → List α → List α
  | 0, xs => xs
  | _ + 1, [] => part
  | limit + 1, x :: xs => part ++ x :: interleave part limit xs

def exchange (old new : List α) (limit : Nat) (xs : List α) : List α :=
  if old.isEmpty then interleave new limit xs else new.intercalate (cutAll old limit xs)

omit [BEq α] in
/-- The part of a list between two bounds, and how many elements are in front of it. There is none
where the bounds cross; those below zero count from the end. -/
def between? (xs : List α) (start stop : Option Int) : Option (Nat × List α) :=
  let place (bound : Option Int) (default : Nat) : Nat :=
    match bound with
    | some n => (if n < 0 then n + xs.length else n).toNat
    | none => default
  let first := place start 0
  let last := min (place stop xs.length) xs.length
  if first ≤ last then some (first, (xs.take last).drop first) else none

omit [BEq α] in
/-- A list with each tab filled up to the next column that `size` divides; a line end starts the
columns anew. -/
def expandTabs (isTab isEnd : α → Bool) (blank : α) (size : Nat) : Nat → List α → List α
  | _, [] => []
  | column, x :: xs =>
    if isTab x then
      let fill := if size == 0 then 0 else size - column % size
      List.replicate fill blank ++ expandTabs isTab isEnd blank size (column + fill) xs
    else x :: expandTabs isTab isEnd blank size (if isEnd x then 0 else column + 1) xs

end Toolwright.Text
