import Ambient.Chain
import Ambient.Table
import Ambient.Trie

/-!
# The registry of held crossers

A crosser stays registered as long as something holds it: a thread whose chain
starts there, a handle, a snapshot, a call in progress, or a registered crosser
directly inside it.  The registry counts these holders.  Giving up the last
hold of a crosser gives up its hold of the next one out, and so on outwards
until a crosser is met that something else still holds.
-/

namespace Ambient

/-- A registered crosser with the crossers around it, and its holders. -/
structure Registration where
  crosser : Crosser
  outer : Chain
  holders : Nat
deriving DecidableEq, Repr

/-- The registered crossers by the threads that opened them and their numbers. -/
structure Registry where
  held : Table ThreadId (Trie Registration)

namespace Registry

def empty : Registry :=
  ⟨.empty⟩

def find? (registry : Registry) (id : CrosserId) : Option Registration :=
  ((registry.held.find? id.thread).getD .leaf).find? id.index

def assign (registry : Registry) (id : CrosserId)
    (registration : Option Registration) : Registry :=
  ⟨registry.held.insert id.thread
    (((registry.held.find? id.thread).getD .leaf).assign id.index registration)⟩

@[simp] theorem find?_empty (id : CrosserId) : empty.find? id = none :=
  rfl

@[simp] theorem find?_assign (registry : Registry) (id other : CrosserId)
    (registration : Option Registration) :
    (registry.assign id registration).find? other =
      if id = other then registration else registry.find? other := by
  obtain ⟨thread, index⟩ := id
  obtain ⟨otherThread, otherIndex⟩ := other
  by_cases sameThread : thread = otherThread
  · subst sameThread
    simp [find?, assign]
  · simp [find?, assign, sameThread]

def holders (registry : Registry) (id : CrosserId) : Nat :=
  ((registry.find? id).map (·.holders)).getD 0

/-- Count one more holder of a chain, that is of its innermost crosser. -/
def hold (registry : Registry) : Chain → Registry
  | [] => registry
  | crosser :: outer =>
      registry.assign crosser.id
        (some ⟨crosser, outer, registry.holders crosser.id + 1⟩)

/-- Count one holder less, and release outwards what is no longer held. -/
def release (registry : Registry) : Chain → Registry
  | [] => registry
  | crosser :: outer =>
      match registry.holders crosser.id with
      | 0 => registry
      | 1 => release (registry.assign crosser.id none) outer
      | holders + 2 =>
          registry.assign crosser.id (some ⟨crosser, outer, holders + 1⟩)

/-- Register a new crosser, held by its handle, which holds what is around. -/
def enroll (registry : Registry) (crosser : Crosser) (outer : Chain) : Registry :=
  (registry.hold outer).hold (crosser :: outer)

/-- The captors of the registered crossers. -/
def captors (registry : Registry) : List CaptorId :=
  registry.held.values.flatMap (fun registrations =>
    registrations.values.map (·.crosser.captor))

@[simp] theorem holders_empty (id : CrosserId) : empty.holders id = 0 :=
  rfl

end Registry

end Ambient
