import Ambient.Scope

/-!
# Bridges

A bridge remembers which captor of a type was in scope where it was built,
which may be none.  Put in force, on any thread, it fills the slot with just
that, so an empty bridge hides the captor in scope there.
-/

namespace Ambient

structure Bridge where
  type : CaptorType
  captor : Option CaptorId
deriving DecidableEq, Repr

namespace Bridge

variable {Client : Type}

/-- The bridge of what is in scope now. -/
def build (type : CaptorType) : Act Client Bridge := do
  let captor ← Act.current type
  Act.describe (.bridged type captor.isSome)
  return ⟨type, captor⟩

/-- The bridge of what a scope installed, innermost or not. -/
def ofScope (scope : Scope) : Bridge :=
  ⟨scope.type, scope.installed⟩

def start (bridge : Bridge) : Act Client Scope :=
  Scope.start .crossing bridge.type bridge.captor

end Bridge

end Ambient
