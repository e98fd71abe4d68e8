import Ambient.Act

/-!
# Scopes of one slot

A scope fills the slot of a type for as long as it lasts and then puts back
what it found.  It ends in order exactly when the slot still holds what the
scope installed.  The slot is put back whether it does or not.
-/

namespace Ambient

inductive ScopeKind where
  /-- A captor made current by hand, or by a crosser. -/
  | capture
  /-- What a bridge or a call brought from somewhere else. -/
  | crossing
deriving DecidableEq, Repr

structure Scope where
  kind : ScopeKind
  type : CaptorType
  installed : Option CaptorId
  previous : Option CaptorId
deriving DecidableEq, Repr

namespace Scope

variable {Client : Type}

def misuse (scope : Scope) : Misuse :=
  match scope.kind with
  | .capture => .capture scope.type
  | .crossing => .crossing scope.type

/-- The captors a scope refers to. -/
def captors (scope : Scope) : List CaptorId :=
  scope.installed.toList ++ scope.previous.toList

def start (kind : ScopeKind) (type : CaptorType) (installed : Option CaptorId) :
    Act Client Scope := do
  let previous ← Act.replaceCurrent type installed
  return ⟨kind, type, installed, previous⟩

/-- Put the slot back, and report if it held something else. -/
def finish (scope : Scope) : Act Client Unit := do
  let found ← Act.replaceCurrent scope.type scope.previous
  unless found = scope.installed do Act.report scope.misuse

/-- End scopes from the first to the last.  Once one of them is raised as a
misuse the others end unwinding. -/
def finishAll : List Scope → Act Client Unit
  | [] => pure ()
  | scope :: rest => scope.finish.ensuring (finishAll rest)

end Scope

end Ambient
