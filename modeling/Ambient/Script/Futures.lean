import Ambient.Script.Handles
import Ambient.Script.Items

/-!
# Futures in scripts

A poll runs a future inside its layers up to its next pause or to its end.
Awaiting polls the awaited future at once, inside the layers of both.  The
handles that a future holds across its pauses end with it, innermost first.
-/

namespace Ambient.Script

/-- Make a future wrapped in the snapshot of now, in a register. -/
def runFuture (name : String) (body : List Step) : Run Value := do
  Run.bind name (.future (Future.ofSteps false (← Snapshot.capture) body))
  return .null

/-- Make a future wrapped in the snapshot of now, kept by this thread. -/
def runLocalFuture (name : String) (body : List Step) : Run Value := do
  Run.keepFuture name (Future.ofSteps true (← Snapshot.capture) body)
  return .null

/-- Take a future out of its register to await it.  Anything else that was in
the register is given up. -/
def takeAwaited? (register : String) : Run (Option Future) := do
  match ← Run.item? register with
  | none => return none
  | some item =>
      Run.unbind register
      match item with
      | .future future => return some future
      | .raw future => return some future
      | _ =>
          item.drop
          return none

/-- Pause a poll, and keep in the session what is left of the future in case
that the layers of the poll end in a panic. -/
def pausing (left : Future) : Run Progress := do
  Run.modify fun session => { session with suspended := some left }
  return .pending left

/-- What the poll that is over has left, which the session then keeps no more. -/
def takeSuspended? : Run (Option Future) := do
  let session ← Run.session
  Run.modify fun session => { session with suspended := none }
  return session.suspended

/-- Give up a future whose poll has panicked: what is left of it if it paused
before, and otherwise its layers. -/
def abandon (future : Future) : Run Unit := do
  match ← takeSuspended? with
  | some left => left.drop
  | none => Snapshot.dropAll future.outer.layers

/-- Poll a future that is awaited by the one with these handles.  When it is
over it is given up, and when it panics so is the one that awaits it. -/
def pollAwaited (interpreter : Interpreter) (place : Place) (held : List Handle)
    (future : Future) : Run Progress := do
  let progress ← ((interpreter.poll place future).onPanic
    (abandon future)).onPanic (Handle.finishAll held)
  Run.modify fun session => { session with suspended := none }
  match progress with
  | .pending future => return .pending future
  | .ready value =>
      Snapshot.dropAll future.outer.layers
      return .ready value

/-- Follow instructions from the innermost handles and the value so far.  A
handle that cannot be started is the value in place of its body, which is then
skipped up to the matching end. -/
def follow (interpreter : Interpreter) (place : Place) (layers : List Snapshot) :
    Nat → List Handle → Value → List Instruction → Run Progress
  | _, _, value, [] => return .ready value
  | skipped + 1, held, value, instruction :: rest =>
      match instruction with
      | .hold _ _ => follow interpreter place layers (skipped + 2) held value rest
      | .unhold => follow interpreter place layers skipped held value rest
      | _ => follow interpreter place layers (skipped + 1) held value rest
  | 0, held, value, instruction :: rest =>
      match instruction with
      | .run label step => do
          let value ← (Act.holding (held.flatMap Handle.captors)
            (interpreter.step (place.within label) step)).onPanic
              (Handle.finishAll held)
          follow interpreter place layers 0 held value rest
      | .pause => pausing ⟨⟨layers, rest, value, held⟩, []⟩
      | .await register => do
          match ← takeAwaited? register with
          | none =>
              follow interpreter place layers 0 held (.error .register) rest
          | some future =>
              match ← pollAwaited interpreter place held future with
              | .pending future =>
                  pausing ⟨⟨layers, rest, value, held⟩, future.strands⟩
              | .ready value => follow interpreter place layers 0 held value rest
      | .hold kind register => do
          match HandleKind.ofName? kind with
          | none => follow interpreter place layers 1 held (.error .kind) rest
          | some kind =>
              match ← starting? kind register with
              | none =>
                  follow interpreter place layers 1 held (.error .register) rest
              | some starting =>
                  let handle ← starting
                  follow interpreter place layers 0 (handle :: held) .null rest
      | .unhold =>
          match held with
          | [] => follow interpreter place layers 0 [] value rest
          | handle :: outer => do
              handle.finish.onPanic (Handle.finishAll outer)
              follow interpreter place layers 0 outer value rest

/-- Go on with a future, once inside its layers: first with what it awaits. -/
def advance (interpreter : Interpreter) (place : Place) (future : Future) :
    Run Progress :=
  let strand := future.outer
  match future.awaited with
  | [] => follow interpreter place strand.layers 0 strand.held strand.value strand.rest
  | inner :: others => do
      match ← pollAwaited interpreter place strand.held ⟨inner, others⟩ with
      | .pending waiting => pausing ⟨strand, waiting.strands⟩
      | .ready value =>
          follow interpreter place strand.layers 0 strand.held value strand.rest

/-- Poll a future inside its layers. -/
def pollInside (interpreter : Interpreter) (place : Place) (future : Future) :
    Run Progress :=
  Snapshot.runAll future.outer.layers (advance interpreter place future)

/-- Where a future is kept between polls. -/
inductive FutureHome where
  | thread
  | register
deriving DecidableEq, Repr

namespace FutureHome

/-- Take out the future of a name: the thread's own before a register's. -/
def take? (name : String) : Run (Option (FutureHome × Future)) := do
  match (← Run.futures).find? name with
  | some future =>
      Run.removeFuture name
      return some (.thread, future)
  | none =>
      match ← Run.item? name with
      | some (.future future) =>
          Run.unbind name
          return some (.register, future)
      | _ => return none

def putBack (home : FutureHome) (name : String) (future : Future) : Run Unit :=
  match home with
  | .thread => Run.keepFuture name future
  | .register => Run.bind name (.future future)

end FutureHome

namespace Progress

/-- The answer to a poll. -/
def answer : Progress → Value
  | .pending _ => .text "pending"
  | .ready value => .record [("ready", value)]

/-- What is left to poll again. -/
def remaining? : Progress → Option Future
  | .pending future => some future
  | .ready _ => none

def isPending : Value → Bool
  | .text "pending" => true
  | _ => false

end Progress

/-- Poll the future of a name once.  A future that paused is put back even if
the layers of the poll end in a panic; one that is over is given up. -/
def pollOnce (interpreter : Interpreter) (place : Place) (name : String) :
    Run Value := do
  match ← FutureHome.take? name with
  | none => return .error .register
  | some (home, future) =>
      Run.modify fun session => { session with suspended := none }
      let outcome ← Act.attempt (Snapshot.runAll future.outer.layers do
        let progress ← advance interpreter place future
        Run.modify fun session =>
          { session with suspended := progress.remaining? }
        return progress.answer)
      match ← takeSuspended? with
      | some left => home.putBack name left
      | none => Snapshot.dropAll future.outer.layers
      Act.conclude outcome

/-- Poll until the answer is not that the future is pending, a number of times
at most, and say how often it was polled. -/
def pollUntil (interpreter : Interpreter) (place : Place) (name : String) :
    Nat → Nat → Value → Run Value
  | 0, polls, last => return .record [("polls", .int polls), ("last", last)]
  | attempts + 1, polls, _ => do
      let last ← pollOnce interpreter place name
      if Progress.isPending last then
        pollUntil interpreter place name attempts (polls + 1) last
      else
        return .record [("polls", .int (polls + 1)), ("last", last)]

end Ambient.Script
