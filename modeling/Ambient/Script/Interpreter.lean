import Ambient.Script.Session

/-!
# Interpreters

What a step does depends on how the steps inside it are run.  An interpreter
says how: it runs one step at a place, and it polls one future.  The families
of steps are defined over any interpreter.
-/

namespace Ambient.Script

structure Interpreter where
  step : Place → Step → Run Value
  poll : Place → Future → Run Progress

namespace Interpreter

/-- Run steps in order, the first under the index given, to the value of the
last one. -/
def steps (interpreter : Interpreter) (place : Place) :
    Nat → Value → List Step → Run Value
  | _, value, [] => return value
  | index, _, step :: rest => do
      let value ← interpreter.step (place.below (toString index)) step
      interpreter.steps place (index + 1) value rest

/-- Run a body below a place. -/
def body (interpreter : Interpreter) (place : Place) (body : List Step) :
    Run Value :=
  interpreter.steps place 0 .null body

end Interpreter

end Ambient.Script
