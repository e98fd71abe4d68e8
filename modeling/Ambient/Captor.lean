/-!
# Captors and the threads that see them

A captor receives what code further down the call stack emits.  Captors come in
types, and every thread keeps one slot per type: the captor of that type which
is in scope there.
-/

namespace Ambient

/-- A type of captors is known by the name that reports give it. -/
structure CaptorType where
  name : String
deriving DecidableEq, Repr

/-- A captor is identified by the name it was made under. -/
abbrev CaptorId := String

inductive ThreadId where
  | main
  | spawned (index : Nat)
  | worker (name : String)
deriving DecidableEq, Repr

namespace ThreadId

def name : ThreadId → String
  | .main => "main"
  | .spawned index => "t" ++ toString index
  | .worker name => name

end ThreadId

end Ambient
