import Ambient.Script.Interpreter

/-!
# Sending messages

A captor that accepts a message logs it, then runs the body it was made with
and answers how many messages it has logged by then.  It is referred to until
it has answered, so its scope may end meanwhile.
-/

namespace Ambient.Script

namespace Interpreter

/-- Send a message to a captor that the caller refers to. -/
def deliver (interpreter : Interpreter) (place : Place) (captor : CaptorId)
    (message : Value) : Run Value := do
  match ← Run.receive captor message with
  | .error error => return .error error
  | .ok receiver => do
      let _ ← interpreter.body place receiver.onMessage
      return .int receiver.log.length

/-- Send a message to the captor in scope; without one it is not looked at. -/
def emit (interpreter : Interpreter) (place : Place) (channel : Channel)
    (message : Value) : Run Value := do
  let answer ← Act.dispatch channel.captorType fun captor =>
    interpreter.deliver place captor message
  return answer.getD .null

end Interpreter

/-- Go on with the channel of a label. -/
def withChannel (label : String) (next : Channel → Run Value) : Run Value :=
  match Channel.ofLabel? label with
  | none => return .error .type
  | some channel => next channel

namespace CaptorStep

/-- Give up the future this thread keeps under a name, or else empty the
register of that name, and say whether there was one. -/
def runRelease (name : String) : Run Value := do
  match (← Run.futures).find? name with
  | some future =>
      Run.removeFuture name
      future.drop
      return .bool true
  | none =>
      match ← Run.item? name with
      | some item =>
          Run.unbind name
          item.drop
          return .bool true
      | none => return .bool false

def run (interpreter : Interpreter) (place : Place) : CaptorStep → Run Value
  | .release register => runRelease register
  | .alive => return .ofCaptors (← Run.alive)
  | .current type =>
      withChannel type fun channel => do
        return .ofCaptor? (← Act.current channel.captorType)
  | .emit type message =>
      withChannel type fun channel => interpreter.emit place channel message
  | .hoist type name =>
      withChannel type fun channel => do
        match ← Act.current channel.captorType with
        | none => return .null
        | some captor =>
            Run.bind name (.captor captor channel)
            return .text captor
  | .emitTo register message => do
      match ← Run.item? register with
      | some (.captor captor _) =>
          Act.holding [captor] (interpreter.deliver place captor message)
      | _ => return .error .register

end CaptorStep

/-- Make a captor with a new name, in the register of that name. -/
def makeCaptor (id type manner : String) (onMessage : List Step) : Run Value := do
  if (← Run.session).receivers.contains id then
    return .error .id
  else
    withChannel type fun channel => do
      Run.modify fun session =>
        { session with
          receivers :=
            session.receivers.insert id
              ⟨channel, channel.manner manner, onMessage, []⟩ }
      Run.bind id (.captor id channel)
      return .null

end Ambient.Script
