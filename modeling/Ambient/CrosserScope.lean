import Ambient.Scope

/-!
# Scopes of crossers

Opening a crosser fills a slot like any scope and also puts the crosser in
front of the thread's chain, where snapshots find it.  Its end first takes the
chain back to what was around the crosser, and then ends the scope of its slot;
each half checks and reports for itself.
-/

namespace Ambient

structure CrosserScope where
  crosser : Crosser
  outer : Chain
  slot : Scope
deriving DecidableEq, Repr

namespace CrosserScope

variable {Client : Type}

/-- The chain as it was when the crosser was opened. -/
def node (scope : CrosserScope) : Chain :=
  scope.crosser :: scope.outer

/-- Make the identity of a crosser that the thread is about to open. -/
def freshId : Act Client CrosserId := do
  let context ← Act.context
  let thread ← Act.thread
  Act.modifyThread fun thread => { thread with opened := thread.opened + 1 }
  return ⟨context.thread, thread.opened⟩

def start (type : CaptorType) (captor : CaptorId) : Act Client CrosserScope := do
  let crosser : Crosser := ⟨← freshId, type, captor⟩
  let outer ← Act.chain
  Act.modifyRegistry (·.enroll crosser outer)
  Act.hold (crosser :: outer)
  let replaced ← Act.replaceChain (crosser :: outer)
  Act.release replaced
  let slot ← Scope.start .capture type (some captor)
  return ⟨crosser, outer, slot⟩

/-- Take the chain back to what is around the crosser, and report if it was
not the innermost one. -/
def finishChain (scope : CrosserScope) : Act Client Unit := do
  Act.hold scope.outer
  let found ← Act.replaceChain scope.outer
  Act.release found
  Act.release scope.node
  unless found = scope.node do Act.report (.crosser scope.crosser.type)

def finish (scope : CrosserScope) : Act Client Unit :=
  scope.finishChain.ensuring scope.slot.finish

end CrosserScope

end Ambient
