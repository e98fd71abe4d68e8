import Ambient.Script.Calls
import Ambient.Script.Futures
import Ambient.Script.Threads

/-!
# Programs

A program is run step by step on the main thread; a panic ends only the step of
the program that it passes through.  Steps nest through bodies, captors, calls
and awaited futures.  Every level of nesting is a step that was started or a
future that was made by one, and only so many steps are ever started, so the
number of levels allowed here is never used up.
-/

namespace Ambient.Script

/-- The most labels that the place of a step may have above its own. -/
def maxLabels : Nat := 48

/-- The most steps that are ever started. -/
def maxSteps : Nat := 20000

namespace Step

/-- What a step does, given how the steps inside it are run. -/
def run (interpreter : Interpreter) (place : Place) : Step → Run Value
  | .captor step => step.run interpreter place
  | .handle step => step.run
  | .item step => step.run place
  | .invoke (.callAgain register) =>
      taking place register InvokeStep.canCallAgain
        (InvokeStep.runCallAgain interpreter place register)
  | .invoke (.callOnce register argument) =>
      taking place register InvokeStep.canCallOnce
        (InvokeStep.runCallOnce interpreter place argument)
  | .invoke (.poll register) => pollOnce interpreter place register
  | .invoke (.block register) => pollUntil interpreter place register 100 0 .null
  | .make id type manner onMessage => makeCaptor id type manner onMessage
  | .scope kind register body =>
      runScope kind register (interpreter.body place body)
  | .deep count kind register body =>
      runDeep count.toNat kind register (interpreter.body place body)
  | .wrap name kind body => runWrap name kind body
  | .call register argument body => runCall interpreter place register argument body
  | .future name body => runFuture name body
  | .localFuture name body => runLocalFuture name body
  | .pause => return .error .operation
  | .await _ => return .error .operation
  | .hold _ _ _ => return .error .operation
  | .give value => return value
  | .raise message => Act.raise (.raised message)
  | .sequence body => interpreter.body place body
  | .loop count body => repeated (interpreter.body place body) count.toNat .null
  | .attempt body => do
      return Run.settled (← Act.attempt (interpreter.body place body))
  | .thread body => runThread interpreter place body
  | .worker name body => runWorker interpreter place name body
  | .teardown body after => runTeardown interpreter place body after
  | .unknown => return .error .operation
where
  /-- Run a body a number of times, to the value of the last run. -/
  repeated (body : Run Value) : Nat → Value → Run Value
    | 0, value => return value
    | count + 1, _ => do
        let value ← body
        repeated body count value

/-- What a step does unless it is nested too deeply or comes too late. -/
def runLimited (interpreter : Interpreter) (place : Place) (step : Step) :
    Run Value := do
  if maxLabels < place.labels.length then
    return .error .nesting
  else
    let started := (← Run.session).steps
    if maxSteps ≤ started then
      return .error .steps
    else
      Run.modify fun session => { session with steps := started + 1 }
      step.run interpreter place

end Step

namespace Interpreter

/-- The interpreter for a number of levels of nesting.  Without one, a poll leaves
nothing of the future but its layers. -/
def ofLevels : Nat → Interpreter
  | 0 =>
      { step := fun _ _ => return .error .nesting
        poll := fun _ future => do
          future.bare.drop
          return .ready (.error .nesting) }
  | levels + 1 =>
      { step := fun place step =>
          Run.recorded place.label (step.runLimited (ofLevels levels) place)
        poll := fun place future => pollInside (ofLevels levels) place future }

def standard : Interpreter :=
  ofLevels (2 * maxSteps + 2)

end Interpreter

/-- What a program leaves behind. -/
structure Report where
  /-- What happened, in order. -/
  history : List Happening
  receivers : List (CaptorId × Receiver)
  leaked : List CaptorId

def Report.trace (report : Report) : List Entry :=
  entries [] report.history

namespace Program

/-- Run the steps of a program from an index on; panics end only their step. -/
def steps (interpreter : Interpreter) : Nat → List Step → Run Unit
  | _, [] => return ()
  | index, step :: rest => do
      let _ ← Act.attempt
        (interpreter.step (Place.start.below (toString index)) step)
      steps interpreter (index + 1) rest

/-- End the workers in the order of their names. -/
def endWorkers : List String → Run Unit
  | [] => return ()
  | name :: rest => do
      let _ ← Act.onThread (.worker name) endThread
      endWorkers rest

def dropItems : List Item → Run Unit
  | [] => return ()
  | item :: rest => do
      item.drop
      dropItems rest

/-- Empty all registers. -/
def dropRegisters : Run Unit := do
  let items := (← Run.session).registers.values
  Run.modify fun session => { session with registers := .empty }
  dropItems items

/-- Run a program to its end, and yield the captors that are still alive. -/
def act (program : List Step) : Run (List CaptorId) := do
  steps Interpreter.standard 0 program
  endWorkers (← Run.session).workers
  endThread
  dropRegisters
  Run.alive

/-- Run a program in a new process. -/
def run (build : Build) (program : List Step) : Report :=
  let (outcome, process) :=
    act program ⟨build, .main, false, []⟩ (Process.start Session.start)
  { history := story process
    receivers := process.client.receivers.entries
    leaked :=
      match outcome with
      | .value leaked => leaked
      | .panic _ => [] }

end Program

end Ambient.Script
