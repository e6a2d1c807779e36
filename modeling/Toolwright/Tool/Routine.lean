import Toolwright.Arguments
import Toolwright.Document.Result
import Toolwright.FileTree.Basic
import Toolwright.Tool.Publication
import Toolwright.Value.Sum

/-!
# Routines

A routine is a block that is built in. It computes on its arguments, on the files below the working
directory and on the time that the clock shows.
-/

namespace Toolwright

set_option autoImplicit false

def answerClass : Nat := 2

def answerClassName : String := "Response"

structure Surroundings where
  files : FileTree
  time : String

structure Routine where
  params : List (String × Option Value)
  run : Surroundings → (String → Value) → Except Fault Value

def Routine.call (r : Routine) (s : Surroundings) (args : List Value) (named : Named) :
    Except Fault Value := do
  r.run s (← bindAll r.params args named)

namespace Surroundings

/-- The path that a value writes, where it writes one. -/
def path? (path : Value) : Option String :=
  match path with
  | .str s => some s
  | .bytes bs => String.fromUTF8? ⟨bs.toArray⟩
  | _ => none

/-- Whether something stands at a path. A number is a descriptor, of which the first three are
open. -/
def pathExists (s : Surroundings) (path : Value) : Except Fault Bool :=
  match path with
  | .str _ | .bytes _ => .ok (((path? path).map s.files.exists?).getD false)
  | path =>
    match path.asInt? with
    | none => .error .mismatch
    | some n =>
      if 2 ^ 31 ≤ n then .error (.integerTooLarge "fd is greater than maximum")
      else if n < -2 ^ 31 then .error (.integerTooLarge "fd is less than minimum")
      else .ok (0 ≤ n && n ≤ 2)

end Surroundings

namespace Definition

def callFunction (d : Definition Routine) (s : Surroundings) (named : Named) :
    Except Fault Value := do
  match d.block with
  | some r => r.call s [] named
  | none => throw (.noBlock (← d.name.printed))

def serve (d : Definition Routine) (s : Surroundings) (indent : Value) (named : Named) :
    Except Fault Value := do
  let result ← d.callFunction s (Table.erase "server_context" named)
  let text ← result.resultText indent
  return .record (.response answerClass answerClassName)
    [.list [.ofRows [("type", .str "text"), ("text", .str text)]], .bool false]

end Definition

end Toolwright
