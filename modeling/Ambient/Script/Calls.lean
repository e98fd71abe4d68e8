import Ambient.Script.Dispatch
import Ambient.Script.Items

/-!
# Calls in scripts

Whatever is called runs inside all of its layers, and what is called is kept
until the call is over.  A callable that is consumed leaves its register for
good; one that its owner calls again is out of its register during the call.
-/

namespace Ambient.Script

/-- Wrap a callable in a layer with the snapshot of now. -/
def bindWrapped (name : String) (once : Bool) (action : Action) : Run Value := do
  let snapshot ← Snapshot.capture
  let identity := (← Run.session).wrapped
  Run.modify fun session => { session with wrapped := identity + 1 }
  Run.bind name (.wrapped ⟨identity, once, snapshot, [], action⟩)
  return .null

/-- Wrap a callable of a kind.  An absent one stays absent. -/
def runWrap (name kind : String) (body : List Step) : Run Value :=
  match kind with
  | "fn0" => bindWrapped name false (.thunk body)
  | "some" => bindWrapped name false (.thunk body)
  | "fn1" => bindWrapped name false (.function body)
  | "mut" => bindWrapped name false (.counter 0 body)
  | "once" => bindWrapped name true (.thunk body)
  | "ptr" => bindWrapped name false .pointer
  | "none" => return .text "none"
  | _ => return .error .kind

namespace Action

/-- Do what a callable does, once inside its layers. -/
def run (interpreter : Interpreter) (place : Place) (argument : Value) :
    Action → Run Value
  | .thunk body => interpreter.body place body
  | .function body => do
      let value ← interpreter.body place body
      return .record [("arg", argument), ("ret", value)]
  | .counter calls body => do
      let value ← interpreter.body place body
      return .record [("count", .int (calls + 1)), ("ret", value)]
  | .pointer => do
      let number := argument.toInt
      let _ ← interpreter.emit place .text (.text ("ptr " ++ toString number))
      return .int number

end Action

/-- Run a body while the snapshots it needs are kept by the call itself. -/
def keeping (snapshots : List Snapshot) (body : Run Value) : Run Value := do
  Snapshot.holdAll snapshots
  body.ensuring (Snapshot.dropAll snapshots)

def callLayers (interpreter : Interpreter) (place : Place) (layers : List Snapshot)
    (argument : Value) (action : Action) : Run Value :=
  Snapshot.runAll layers (action.run interpreter place argument)

/-- Call what a register contains, which stays there. -/
def runCall (interpreter : Interpreter) (place : Place) (register : String)
    (argument : Value) (body : List Step) : Run Value := do
  match ← Run.item? register with
  | some (.snapshot snapshot) =>
      keeping [snapshot] (snapshot.run (interpreter.body place body))
  | some (.point point) =>
      keeping [point.snapshot] (point.call (interpreter.body place body))
  | some (.wrapped callable) =>
      let call := keeping callable.layers (callLayers interpreter
        (place.calling callable) callable.layers argument callable.action)
      if callable.once then
        return .error .register
      else
        match callable.action with
        | .counter _ _ => return .error .register
        | _ => call
  | _ => return .error .register

namespace InvokeStep

def canCallAgain : Item → Bool
  | .wrapped callable => callable.again?.isSome
  | _ => false

def canCallOnce : Item → Bool
  | .wrapped _ => true
  | .plain _ => true
  | _ => false

/-- Call a callable that is out of its register, and put it back in the state
after the call, also when the call panics. -/
def runCallAgain (interpreter : Interpreter) (place : Place) (register : String) :
    Item → Run Value
  | .wrapped callable => do
      let outcome ← Act.attempt
        (callLayers interpreter place callable.layers .null callable.action)
      Run.bind register (.wrapped (callable.again?.getD callable))
      Act.conclude outcome
  | _ => return .error .register

/-- Call a callable that is out of its register for good. -/
def runCallOnce (interpreter : Interpreter) (place : Place) (argument : Value) :
    Item → Run Value
  | .wrapped callable =>
      (callLayers interpreter place callable.layers argument
        callable.action).ensuring (Snapshot.dropAll callable.layers)
  | .plain callable =>
      (callLayers interpreter place callable.layers argument
        callable.action).ensuring (Snapshot.dropAll callable.layers)
  | _ => return .error .register

end InvokeStep

end Ambient.Script
