import Ambient.Script.Interpreter

/-!
# Threads in scripts

A thread that ends first ends what it still holds: the futures it keeps, in the
order of their names, and then its handles, latest first.  A thread that is
torn down first loses its slots and its chain, and ends the rest without them.
-/

namespace Ambient.Script

/-- End one thing that a thread held, with an entry of its own. -/
def endLeftover (name : String) (ending : Run Unit) : Run Unit := do
  let outcome ← Act.attempt (ending *> return .null)
  Run.addEntry ("end " ++ name) (Run.settled outcome)

def endFutures : List String → Run Unit
  | [] => return ()
  | name :: rest => do
      match (← Run.futures).find? name with
      | none => pure ()
      | some future =>
          Run.removeFuture name
          endLeftover name future.drop
      endFutures rest

def endHandles : List (String × Handle) → Run Unit
  | [] => return ()
  | (name, handle) :: rest => do
      Run.setHandles rest
      endLeftover name handle.finish
      endHandles rest

/-- End all that the thread still holds. -/
def endLeftovers : Run Unit := do
  endFutures (sortNames (← Run.futures).keys)
  endHandles (← Run.handles)

/-- End a thread after what it ran. -/
def endThread : Run Unit := do
  endLeftovers
  Act.tearDown

def nextThread : Run ThreadId := do
  let index := (← Run.session).spawned + 1
  Run.modify fun session => { session with spawned := index }
  return .spawned index

/-- Run a body on a new thread and wait until that thread has ended. -/
def runThread (interpreter : Interpreter) (place : Place) (body : List Step) :
    Run Value := do
  let thread ← nextThread
  let outcome ← Act.onThread thread do
    let outcome ← Act.attempt (interpreter.body (place.onThread thread) body)
    endThread
    Act.conclude outcome
  return Run.settled outcome

/-- Run a body on a new thread, tear the thread down while it still holds what
it held, and run another body on what is left of it. -/
def runTeardown (interpreter : Interpreter) (place : Place)
    (body after : List Step) : Run Value := do
  let thread ← nextThread
  let place := place.onThread thread
  let outcome ← Act.onThread thread do
    let outcome ← Act.attempt (interpreter.body place body)
    Act.tearDown
    let _ ← Act.attempt (interpreter.body (place.below "after") after)
    endLeftovers
    Act.conclude outcome
  return Run.settled outcome

/-- Run a body on a worker, which starts when it is first named and keeps what
it holds.  The main thread and workers that wait themselves are busy. -/
def runWorker (interpreter : Interpreter) (place : Place) (name : String)
    (body : List Step) : Run Value := do
  let thread := ThreadId.worker name
  if name = "main" ∨ thread ∈ place.threads then
    return .error .busy
  else
    Run.modify fun session =>
      { session with workers := insertName name session.workers }
    let outcome ← Act.onThread thread
      (interpreter.body (place.onWorker thread) body)
    return Run.settled outcome

end Ambient.Script
