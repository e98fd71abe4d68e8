import Ambient.Captor

/-!
# Misuses and records

Scopes must end in reverse order of creation.  A misuse says which kind of
scope was found not to; it is written as a warning, and in a debug build it is
also raised.  The other records describe bridges and calls.
-/

namespace Ambient

/-- What was found out of order at the end of a scope. -/
inductive Misuse where
  | capture (type : CaptorType)
  | crossing (type : CaptorType)
  | crosser (type : CaptorType)
  | call
deriving DecidableEq, Repr

namespace Misuse

def handle : Misuse → String
  | .capture _ => "ScopedCapture"
  | .crossing _ => "CrossThreads"
  | .crosser _ => "AutoThreadCrosser"
  | .call => "wrapped call"

/-- A call that cannot blame a captor type names the snapshot it ran. -/
def subject : Misuse → String
  | .capture type => type.name
  | .crossing type => type.name
  | .crosser type => type.name
  | .call => "capture_thread::crosser::Snapshot"

def message (misuse : Misuse) : String :=
  misuse.handle ++ " for " ++ misuse.subject ++ " dropped out of order"

def advice (misuse : Misuse) : String :=
  misuse.message ++ "; scopes must end in reverse order of creation"

end Misuse

inductive Record where
  | misused (misuse : Misuse)
  | bridged (type : CaptorType) (present : Bool)
  | reentered (types depth : Nat) (innermost : CaptorType)
deriving DecidableEq, Repr

namespace Record

def text : Record → String
  | .misused misuse => "WARN: " ++ misuse.advice
  | .bridged type present =>
      "DEBUG: ThreadBridge for " ++ type.name ++
        " (present: " ++ toString present ++ ")"
  | .reentered types depth innermost =>
      "DEBUG: Reconstructing " ++ toString types ++ " captor types from " ++
        toString depth ++ " crossers, innermost " ++ innermost.name

end Record

/-- What unwinds a thread: a message raised by a body, or a misuse. -/
inductive Panic where
  | raised (message : String)
  | misused (misuse : Misuse)
deriving DecidableEq, Repr

namespace Panic

def message : Panic → String
  | .raised message => message
  | .misused misuse => misuse.message

end Panic

end Ambient
