import Ambient.CrosserScope

/-!
# Handles

A handle stands for a scope that lasts until the handle is finished.  A handle
that is forgotten never ends its scope, and what it refers to stays referred
to.
-/

namespace Ambient

inductive Handle where
  | slot (scope : Scope)
  | crosser (scope : CrosserScope)
deriving DecidableEq, Repr

namespace Handle

variable {Client : Type}

/-- The scope of the slot that the handle fills. -/
def scope : Handle → Scope
  | .slot scope => scope
  | .crosser scope => scope.slot

def previous (handle : Handle) : Option CaptorId :=
  handle.scope.previous

def captors (handle : Handle) : List CaptorId :=
  handle.scope.captors

def finish : Handle → Act Client Unit
  | .slot scope => scope.finish
  | .crosser scope => scope.finish

/-- Finish handles from the first to the last, unwinding after a misuse. -/
def finishAll : List Handle → Act Client Unit
  | [] => pure ()
  | handle :: rest => handle.finish.ensuring (finishAll rest)

/-- Finish handles from the first to the last while all is in order.  After a
misuse the others finish unwinding, from the last to the first. -/
def finishStack : List Handle → Act Client Unit
  | [] => pure ()
  | handle :: rest => do
      handle.finish.onPanic (fun context process =>
        finishAll rest.reverse context process)
      finishStack rest

end Handle

end Ambient
