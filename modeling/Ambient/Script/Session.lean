import Ambient.Script.Item

/-!
# Sessions

A session is all that a running script has besides its threads: registers,
captors and their logs, the handles and futures that each thread keeps, and the
history.  The history has the steps that ended, with what was in scope on their
threads then, the values that captors logged, and the records written meanwhile.
-/

namespace Ambient.Script

structure Receiver where
  channel : Channel
  manner : Manner
  onMessage : List Step
  /-- What the captor has logged, latest first. -/
  log : List Value

/-- How a step ended, and what was in scope on its thread then. -/
structure Ending where
  label : String
  thread : ThreadId
  result : Value
  current : List (Channel × CaptorId)
  depth : Nat

inductive Happening where
  | wrote (record : Record)
  | logged (captor : CaptorId) (value : Value)
  | ended (ending : Ending)

/-- An entry of the trace takes the records written since the one before it. -/
structure Entry extends Ending where
  records : List Record

/-- The trace of what happened, after some records, latest first. -/
def entries : List Record → List Happening → List Entry
  | _, [] => []
  | records, .wrote record :: rest => entries (record :: records) rest
  | records, .logged _ _ :: rest => entries records rest
  | records, .ended ending :: rest => ⟨ending, records.reverse⟩ :: entries [] rest

structure Session where
  registers : Table String Item
  receivers : Table CaptorId Receiver
  /-- The named handles of every thread, latest first. -/
  handles : Table ThreadId (List (String × Handle))
  /-- The named futures that every thread keeps to itself. -/
  futures : Table ThreadId (Table String Future)
  forgotten : List Handle
  /-- How many threads have been spawned, besides the workers. -/
  spawned : Nat
  workers : List String
  /-- How many callables have been wrapped. -/
  wrapped : Nat
  /-- How many steps have been started. -/
  steps : Nat
  /-- What the poll in progress left unfinished. -/
  suspended : Option Future
  /-- What happened, latest first, up to the last step or value. -/
  history : List Happening

abbrev Run := Act Session

/-- Where a step stands: its labels, innermost first, the calls of shared
callables around it, and the threads that wait for it, its own in front. -/
structure Place where
  labels : List String
  calls : List Nat
  threads : List ThreadId

namespace Place

def start : Place :=
  ⟨[], [], [.main]⟩

def below (place : Place) (label : String) : Place :=
  { place with labels := label :: place.labels }

def within (place : Place) (labels : List String) : Place :=
  { place with labels := labels ++ place.labels }

def calling (place : Place) (callable : Wrapped) : Place :=
  if callable.shared then
    { place with calls := callable.identity :: place.calls }
  else
    place

def busy (place : Place) (callable : Wrapped) : Bool :=
  callable.shared && place.calls.contains callable.identity

def onThread (place : Place) (thread : ThreadId) : Place :=
  { place with threads := thread :: place.threads }

def label (place : Place) : String :=
  ".".intercalate place.labels.reverse

/-- The place of a worker's body: the labels so far become one. -/
def onWorker (place : Place) (thread : ThreadId) : Place :=
  { (place.onThread thread) with labels := [place.label] }

end Place

namespace Session

def start : Session :=
  ⟨.empty, .empty, .empty, .empty, [], 0, [], 0, 0, none, []⟩

def handlesOf (session : Session) (thread : ThreadId) : List (String × Handle) :=
  (session.handles.find? thread).getD []

def futuresOf (session : Session) (thread : ThreadId) : Table String Future :=
  (session.futures.find? thread).getD .empty

def setHandles (session : Session) (thread : ThreadId)
    (handles : List (String × Handle)) : Session :=
  { session with handles := session.handles.insert thread handles }

def setFutures (session : Session) (thread : ThreadId)
    (futures : Table String Future) : Session :=
  { session with futures := session.futures.insert thread futures }

/-- The captors that items, handles and unfinished futures refer to. -/
def captors (session : Session) : List CaptorId :=
  session.registers.values.flatMap Item.captors ++
    (session.handles.values.flatMap (fun handles =>
      handles.flatMap (fun named => named.2.captors)) ++
    (session.futures.values.flatMap (fun futures =>
      futures.values.flatMap (fun future => future.held.flatMap Handle.captors)) ++
    session.forgotten.flatMap Handle.captors))

end Session

/-- Put a name where it belongs among sorted names, unless it is there. -/
def insertName (name : String) : List String → List String
  | [] => [name]
  | first :: rest =>
      if name = first then first :: rest
      else if name < first then name :: first :: rest
      else first :: insertName name rest

/-- The names that occur in a list, each once and in order. -/
def sortNames (names : List String) : List String :=
  names.foldr insertName []

/-- All that has happened, in order. -/
def story (process : Process Session) : List Happening :=
  process.client.history.reverse ++ process.log.map .wrote

namespace Run

def session : Run Session :=
  Act.client

def modify (change : Session → Session) : Run Unit :=
  Act.modifyClient change

def threadId : Run ThreadId :=
  return (← Act.context).thread

/-! ## Registers -/

def item? (register : String) : Run (Option Item) :=
  return (← session).registers.find? register

/-- Put an item into a register and give up what was there. -/
def bind (register : String) (item : Item) : Run Unit := do
  let old ← item? register
  modify fun session =>
    { session with registers := session.registers.insert register item }
  match old with
  | none => return ()
  | some item => item.drop

/-- Empty a register without giving up what was there. -/
def unbind (register : String) : Run Unit :=
  modify fun session =>
    { session with registers := session.registers.erase register }

/-! ## Handles and futures of the running thread -/

def handles : Run (List (String × Handle)) :=
  return (← session).handlesOf (← threadId)

def setHandles (handles : List (String × Handle)) : Run Unit := do
  let thread ← threadId
  modify (·.setHandles thread handles)

def handle? (name : String) : Run (Option Handle) :=
  return (← handles).lookup name

/-- Remove the handle of a name. -/
def removeHandle (name : String) : Run Unit := do
  setHandles ((← handles).filter (fun named => named.1 ≠ name))

def futures : Run (Table String Future) :=
  return (← session).futuresOf (← threadId)

def setFutures (futures : Table String Future) : Run Unit := do
  let thread ← threadId
  modify (·.setFutures thread futures)

/-- Keep a future under a name and give up the one that was there. -/
def keepFuture (name : String) (future : Future) : Run Unit := do
  let kept ← futures
  setFutures (kept.insert name future)
  match kept.find? name with
  | none => return ()
  | some old => old.drop

def removeFuture (name : String) : Run Unit := do
  setFutures ((← futures).erase name)

/-! ## What is alive -/

/-- The captors that anything refers to, in order. -/
def alive : Run (List CaptorId) := do
  let context ← Act.context
  let process ← Act.process
  let slots := process.threads.values.flatMap (fun thread => thread.slots.values)
  return sortNames (context.held ++ (slots ++
    (process.client.captors ++ process.registry.captors)))

/-! ## The history -/

/-- Write down what happens, after the records that lead up to it. -/
def note (happening : Happening) : Run Unit :=
  Act.modifyProcess fun process =>
    { process with
      records := []
      client :=
        { process.client with
          history :=
            happening :: (process.records.map .wrote ++ process.client.history) } }

/-- Let a captor log what it makes of a message, and yield the captor as it is then. -/
def receive (captor : CaptorId) (message : Value) : Run (Except StepError Receiver) := do
  match (← session).receivers.find? captor with
  | none => return .error .register
  | some receiver =>
      if receiver.channel.accepts message then
        let value := receiver.manner.entry captor receiver.log.head? message
        let receiver := { receiver with log := value :: receiver.log }
        modify fun session =>
          { session with receivers := session.receivers.insert captor receiver }
        note (.logged captor value)
        return .ok receiver
      else
        return .error .message

def addEntry (label : String) (result : Value) : Run Unit := do
  let thread ← Act.thread
  let id ← threadId
  let current := Channel.all.filterMap (fun channel =>
    (thread.current channel.captorType).map (fun captor => (channel, captor)))
  note (.ended ⟨label, id, result, current, thread.chain.depth⟩)

/-- The value that a step makes of an outcome which ends in it. -/
def settled : Outcome Value → Value
  | .value value => .ok value
  | .panic panic => .panicked panic.message

/-- Run a step, add its entry, and let a panic go on. -/
def recorded (label : String) (step : Run Value) : Run Value := do
  let outcome ← Act.attempt step
  match outcome with
  | .value value => addEntry label value
  | .panic panic => addEntry label (.panicked panic.message)
  Act.conclude outcome

end Run

end Ambient.Script
