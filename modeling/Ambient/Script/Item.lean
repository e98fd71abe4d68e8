import Ambient.Bridge
import Ambient.Handle
import Ambient.Script.Channel
import Ambient.Script.Step
import Ambient.Snapshot

/-!
# What registers contain

A callable or a future that was wrapped is a stack of layers, each of them a
snapshot, around what it does.  It runs inside all of its layers.  A future is
a list of instructions that stops at every pause and goes on from there.
-/

namespace Ambient.Script

/-- What a callable does inside its layers. -/
inductive Action where
  | thunk (body : List Step)
  | function (body : List Step)
  | counter (calls : Nat) (body : List Step)
  | pointer

/-- A wrapped callable; `inner` are the layers below its own, outermost first. -/
structure Wrapped where
  identity : Nat
  once : Bool
  snapshot : Snapshot
  inner : List Snapshot
  action : Action

namespace Wrapped

def layers (wrapped : Wrapped) : List Snapshot :=
  wrapped.snapshot :: wrapped.inner

def kind (wrapped : Wrapped) : String :=
  if wrapped.once then "once" else
    match wrapped.action with
    | .thunk _ => "fn0"
    | .function _ => "fn1"
    | .counter _ _ => "mut"
    | .pointer => "ptr"

/-- The callable as it is after one more call, if it can be called again by
its owner. -/
def again? (wrapped : Wrapped) : Option Wrapped :=
  if wrapped.once then none else
    match wrapped.action with
    | .thunk _ => some wrapped
    | .counter calls body =>
        some { wrapped with action := .counter (calls + 1) body }
    | _ => none

/-- Whether calls without argument consume it, so that it can become plain. -/
def consumable (wrapped : Wrapped) : Bool :=
  match wrapped.action with
  | .thunk _ => true
  | .counter _ _ => true
  | _ => false

/-- Whether calls share it, so that it can be in several of them at once. -/
def shared (wrapped : Wrapped) : Bool :=
  !wrapped.once &&
    match wrapped.action with
    | .thunk _ => true
    | .function _ => true
    | _ => false

end Wrapped

/-- A callable that is not recognised as wrapped, though it may have layers. -/
structure Plain where
  layers : List Snapshot
  action : Action

/-- One instruction of a future. -/
inductive Instruction where
  | run (label : List String) (step : Step)
  | pause
  | await (register : String)
  | hold (kind register : String)
  | unhold

mutual

/-- The instructions of one step with a label, innermost part first.  Only a
future that stays on its thread holds handles, and only the others await. -/
def Instruction.ofStep (bound : Bool) (label : List String) :
    Step → List Instruction
  | .pause => [.pause]
  | .await register =>
      if bound then [.run label (.await register)] else [.await register]
  | .hold kind register body =>
      if bound then
        .hold kind register ::
          (Instruction.ofSteps bound label 0 body ++ [.unhold])
      else
        [.run label (.hold kind register body)]
  | step => [.run label step]

def Instruction.ofSteps (bound : Bool) (label : List String) (index : Nat) :
    List Step → List Instruction
  | [] => []
  | step :: rest =>
      Instruction.ofStep bound (toString index :: label) step ++
        Instruction.ofSteps bound label (index + 1) rest

end

/-- What is left of a future: its layers, the instructions to come, the value
so far, and the handles it holds, innermost first. -/
structure Strand where
  layers : List Snapshot
  rest : List Instruction
  value : Value
  held : List Handle

/-- A future together with those it is awaiting, each awaited by the one
before it. -/
structure Future where
  outer : Strand
  awaited : List Strand

namespace Future

variable {Client : Type}

/-- The future that runs a script inside one layer. -/
def ofSteps (bound : Bool) (snapshot : Snapshot) (body : List Step) : Future :=
  ⟨⟨[snapshot], Instruction.ofSteps bound [] 0 body, .null, []⟩, []⟩

def strands (future : Future) : List Strand :=
  future.outer :: future.awaited

def snapshots (future : Future) : List Snapshot :=
  future.strands.flatMap Strand.layers

/-- The handles the future holds, innermost first. -/
def held (future : Future) : List Handle :=
  future.strands.reverse.flatMap Strand.held

/-- The outermost layer. -/
def snapshot (future : Future) : Snapshot :=
  future.outer.layers.head?.getD .empty

def wrapIn (future : Future) (snapshot : Snapshot) : Future :=
  { future with
    outer := { future.outer with layers := snapshot :: future.outer.layers } }

/-- The future without its outermost layer. -/
def unwrapped (future : Future) : Future :=
  { future with
    outer := { future.outer with layers := future.outer.layers.tail } }

/-- The future without any of its layers. -/
def bare (future : Future) : Future :=
  { future with outer := { future.outer with layers := [] } }

/-- Give up a future: its layers, and then the handles it holds. -/
def drop (future : Future) : Act Client Unit := do
  Snapshot.dropAll future.snapshots
  Handle.finishAll future.held

end Future

inductive Progress where
  | pending (future : Future)
  | ready (value : Value)

inductive Item where
  | captor (id : CaptorId) (channel : Channel)
  | bridge (bridge : Bridge)
  | snapshot (snapshot : Snapshot)
  | point (point : EntryPoint)
  | wrapped (wrapped : Wrapped)
  | plain (plain : Plain)
  | future (future : Future)
  | raw (future : Future)

namespace Item

variable {Client : Type}

/-- The snapshots that an item keeps. -/
def snapshots : Item → List Snapshot
  | .captor _ _ => []
  | .bridge _ => []
  | .snapshot taken => [taken]
  | .point built => [built.snapshot]
  | .wrapped callable => callable.layers
  | .plain callable => callable.layers
  | .future left => left.snapshots
  | .raw left => left.snapshots

/-- The captors that an item refers to other than by its snapshots. -/
def captors : Item → List CaptorId
  | .captor id _ => [id]
  | .bridge built => built.captor.toList
  | _ => []

/-- The snapshot that an item shows: of a wrapped one its outermost layer. -/
def snapshot? : Item → Option Snapshot
  | .snapshot taken => some taken
  | .point built => some built.snapshot
  | .wrapped callable => some callable.snapshot
  | .future left => some left.snapshot
  | _ => none

/-- Items of which a second one can be made. -/
def clonable : Item → Bool
  | .captor _ _ => true
  | .bridge _ => true
  | .snapshot _ => true
  | .point _ => true
  | .wrapped callable =>
      match callable.action with
      | .pointer => true
      | _ => false
  | _ => false

/-- Hold what an item keeps once more, for a second one. -/
def hold (item : Item) : Act Client Unit :=
  Snapshot.holdAll item.snapshots

/-- Give up an item. -/
def drop (item : Item) : Act Client Unit :=
  Snapshot.dropAll item.snapshots

end Item

end Ambient.Script
