import Ambient.Chain
import Ambient.Table

/-!
# The ambient state of a thread

A thread keeps a slot per captor type and the chain of its crossers.  Both are
destroyed when the thread is torn down, while code may still run on it: from
then on every slot and the chain read as empty and writing has no effect.
-/

namespace Ambient

structure Thread where
  slots : Table CaptorType CaptorId
  tail : Chain
  /-- How many crossers this thread has opened. -/
  opened : Nat
  live : Bool

namespace Thread

def fresh : Thread :=
  ⟨.empty, [], 0, true⟩

/-- The captor in the slot of a type. -/
def current (thread : Thread) (type : CaptorType) : Option CaptorId :=
  if thread.live then thread.slots.find? type else none

def chain (thread : Thread) : Chain :=
  if thread.live then thread.tail else []

def setCurrent (thread : Thread) (type : CaptorType) (captor : Option CaptorId) :
    Thread :=
  if thread.live then
    { thread with slots := thread.slots.assign type captor }
  else
    thread

def setChain (thread : Thread) (chain : Chain) : Thread :=
  if thread.live then { thread with tail := chain } else thread

/-- Destroy the slots and the chain. -/
def tornDown (thread : Thread) : Thread :=
  { thread with slots := .empty, tail := [], live := false }

@[simp] theorem current_setCurrent (thread : Thread) (type other : CaptorType)
    (captor : Option CaptorId) :
    (thread.setCurrent type captor).current other =
      if thread.live ∧ type = other then captor else thread.current other := by
  cases alive : thread.live <;> simp [setCurrent, current, alive]

@[simp] theorem current_setChain (thread : Thread) (chain : Chain)
    (type : CaptorType) :
    (thread.setChain chain).current type = thread.current type := by
  cases alive : thread.live <;> simp [setChain, current, alive]

@[simp] theorem chain_setChain (thread : Thread) (chain : Chain) :
    (thread.setChain chain).chain = if thread.live then chain else [] := by
  cases alive : thread.live <;> simp [setChain, Thread.chain, alive]

@[simp] theorem chain_setCurrent (thread : Thread) (type : CaptorType)
    (captor : Option CaptorId) :
    (thread.setCurrent type captor).chain = thread.chain := by
  cases alive : thread.live <;> simp [setCurrent, Thread.chain, alive]

@[simp] theorem live_setCurrent (thread : Thread) (type : CaptorType)
    (captor : Option CaptorId) :
    (thread.setCurrent type captor).live = thread.live := by
  cases alive : thread.live <;> simp [setCurrent, alive]

@[simp] theorem live_setChain (thread : Thread) (chain : Chain) :
    (thread.setChain chain).live = thread.live := by
  cases alive : thread.live <;> simp [setChain, alive]

@[simp] theorem current_tornDown (thread : Thread) (type : CaptorType) :
    thread.tornDown.current type = none :=
  rfl

@[simp] theorem chain_tornDown (thread : Thread) : thread.tornDown.chain = [] :=
  rfl

end Thread

end Ambient
