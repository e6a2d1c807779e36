import Toolwright.Block.Evaluation
import Toolwright.Session.Answer
import Toolwright.Session.Start
import Toolwright.Session.Steps

/-!
# Sessions

A session performs steps one after another on one world. A step that fails answers with its fault,
and what it did before remains.
-/

namespace Toolwright

set_option autoImplicit false

def Machine.nested : Nat → Machine
  | 0 =>
    ⟨fun _ _ => throw .tooDeep, fun _ _ _ => throw .tooDeep, fun _ _ _ => throw .tooDeep,
      fun _ => throw .tooDeep⟩
  | depth + 1 =>
    let m := nested depth
    ⟨m.evalWith, m.callWith, m.invokeWith, m.stepWith⟩

namespace Session

def depthLimit : Nat := 1000

def machine : Machine := Machine.nested depthLimit

def outcome (r : Run Value) (w : World) : Except Fault Answer × World :=
  let (result, w) := r.run w
  (result.bind (Answer.ofValue w), w)

/-- What a step answers, and what it logs. -/
structure Reply where
  outcome : Except Fault Answer
  log : List Record

def perform (w : World) (step : Step) : Reply × World :=
  let (answer, w) := outcome (machine.step step) { w with log := [] }
  (⟨answer, w.log⟩, w)

def performAll (w : World) : List Step → List Reply × World
  | [] => ([], w)
  | step :: steps =>
    let (reply, w) := perform w step
    let (replies, w) := performAll w steps
    (reply :: replies, w)

theorem length_performAll (w : World) (steps : List Step) :
    (performAll w steps).1.length = steps.length := by
  induction steps generalizing w with
  | nil => rfl
  | cons step steps ih => exact congrArg (· + 1) (ih _)

/-- The replies to the steps of a session that starts afresh; records are kept from a level on. -/
def replies (logFrom : Int) (steps : List Step) : List Reply :=
  (performAll { start with logFrom } steps).1

def callTool (tool : Definition Routine) (s : Surroundings) (name : String) (args : List Literal) :
    Except Fault Answer :=
  let call : Run Value := do
    let definition ← Run.keepDefinition (tool.map Body.routine)
    let cls ← machine.adaptLlm definition .null
    let object ← machine.invoke cls [] []
    machine.callAttribute object name args []
  (outcome call { start with surroundings := s }).1

end Session

end Toolwright
