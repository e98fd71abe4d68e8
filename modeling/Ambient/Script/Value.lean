import Ambient.Captor

/-!
# Values of scripts

Scripts compute with the usual tree-shaped data.  A step that cannot be carried
out is no panic: its value says what did not fit, and the script goes on.
-/

namespace Ambient.Script

inductive Value where
  | null
  | bool (value : Bool)
  | int (value : Int)
  | text (value : String)
  | list (items : List Value)
  | record (fields : List (String × Value))

instance : Inhabited Value :=
  ⟨.null⟩

/-- Why a step could not be carried out. -/
inductive StepError where
  | register
  | handle
  | type
  | id
  | kind
  | operation
  | busy
  | message
  | nesting
  | steps
deriving DecidableEq, Repr

namespace StepError

def word : StepError → String
  | .register => "reg"
  | .handle => "h"
  | .type => "type"
  | .id => "id"
  | .kind => "kind"
  | .operation => "op"
  | .busy => "busy"
  | .message => "message"
  | .nesting => "nesting"
  | .steps => "steps"

end StepError

namespace Value

def error (error : StepError) : Value :=
  .record [("error", .text error.word)]

def ok (value : Value) : Value :=
  .record [("ok", value)]

def panicked (message : String) : Value :=
  .record [("panic", .text message)]

def ofCaptor? : Option CaptorId → Value
  | none => .null
  | some captor => .text captor

def ofCaptors (captors : List CaptorId) : Value :=
  .list (captors.map .text)

/-- The integer that a value is, or zero. -/
def toInt : Value → Int
  | .int value => value
  | _ => 0

end Value

end Ambient.Script
