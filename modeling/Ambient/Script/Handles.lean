import Ambient.Script.Interpreter
import Ambient.Script.Shown

/-!
# Handles in scripts

A thread names the handles it starts and finishes them in any order.  A scope
and a pile of scopes are unnamed: they end with their body, also when a panic
passes through it.
-/

namespace Ambient.Script

namespace HandleKind

/-- How a handle of a kind is started from an item, if it can be. -/
def starting? : HandleKind → Item → Option (Run Handle)
  | .scoped, .captor captor channel =>
      some (Handle.slot <$>
        Scope.start .capture channel.captorType (some captor))
  | .auto, .captor captor channel =>
      some (Handle.crosser <$> CrosserScope.start channel.captorType captor)
  | .cross, .bridge bridge => some (Handle.slot <$> bridge.start)
  | _, _ => none

end HandleKind

/-- How a handle is started from a register, if it can be. -/
def starting? (kind : HandleKind) (register : String) : Run (Option (Run Handle)) := do
  return (← Run.item? register).bind kind.starting?

/-- Go on with the way to start a handle of a kind given by its name. -/
def withStarting (kind register : String) (next : Run Handle → Run Value) :
    Run Value := do
  match HandleKind.ofName? kind with
  | none => return .error .kind
  | some kind =>
      match ← starting? kind register with
      | none => return .error .register
      | some starting => next starting

/-- Start a number of handles, the latest in front. -/
def startPile (starting : Run Handle) : Nat → List Handle → Run (List Handle)
  | 0, pile => return pile
  | count + 1, pile => do
      let handle ← starting
      startPile starting count (handle :: pile)

/-- Run a body in an unnamed scope. -/
def runScope (kind register : String) (body : Run Value) : Run Value :=
  withStarting kind register fun starting => do
    let handle ← starting
    (Act.holding handle.captors body).ensuring handle.finish

/-- Run a body in a pile of unnamed scopes, which end latest first.  When a
panic passes, those that are left end earliest first. -/
def runDeep (count : Nat) (kind register : String) (body : Run Value) :
    Run Value :=
  withStarting kind register fun starting => do
    let pile ← startPile starting count []
    let value ← (Act.holding (pile.flatMap Handle.captors) body).onPanic
      (Handle.finishAll pile.reverse)
    Handle.finishStack pile
    return value

namespace HandleStep

/-- What a handle tells about itself. -/
def inspection (handle : Handle) (pretty : Bool) : Value :=
  let debug := ("debug", Value.text ((Shown.ofHandle handle).text pretty))
  let previous := ("previous", Value.ofCaptor? handle.previous)
  let captor := ("captor", Value.ofCaptor? handle.scope.installed)
  match handle with
  | .slot scope =>
      match scope.kind with
      | .capture => .record [("kind", .text "scoped"), captor, previous, debug]
      | .crossing => .record [("kind", .text "cross"), previous, debug]
  | .crosser _ => .record [("kind", .text "auto"), captor, previous, debug]

def run : HandleStep → Run Value
  | .start kind name register => do
      if (← Run.handle? name).isSome then
        return .error .handle
      else
        match ← starting? kind register with
        | none => return .error .register
        | some starting =>
            let handle ← starting
            Run.setHandles ((name, handle) :: (← Run.handles))
            return .record [("previous", .ofCaptor? handle.previous)]
  | .finish name => do
      match ← Run.handle? name with
      | none => return .error .handle
      | some handle =>
          Run.removeHandle name
          handle.finish
          return .null
  | .forget name => do
      match ← Run.handle? name with
      | none => return .error .handle
      | some handle =>
          Run.removeHandle name
          Run.modify fun session =>
            { session with forgotten := handle :: session.forgotten }
          return .null
  | .inspect name pretty => do
      match ← Run.handle? name with
      | none => return .error .handle
      | some handle => return inspection handle pretty

end HandleStep

end Ambient.Script
