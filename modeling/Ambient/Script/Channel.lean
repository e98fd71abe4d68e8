import Ambient.Script.Value

/-!
# Channels

Scripts use captors of five types.  Three take any message, one takes text and
one takes numbers of 32 bits.  The manner of a captor says what it writes into
its log when it accepts a message.
-/

namespace Ambient.Script

inductive Channel where
  | alpha
  | beta
  | gamma
  | text
  | values
deriving DecidableEq, Repr

inductive Manner where
  /-- Log every message as it is. -/
  | plain
  /-- Log a line behind the name of the captor. -/
  | tagged
  /-- Log the sum of the number and the last one logged. -/
  | total
deriving DecidableEq, Repr

namespace Channel

def all : List Channel :=
  [.alpha, .beta, .gamma, .text, .values]

def label : Channel → String
  | .alpha => "Alpha"
  | .beta => "Beta"
  | .gamma => "Gamma"
  | .text => "Text"
  | .values => "Values"

def captorType : Channel → CaptorType
  | .alpha => ⟨"harness::Alpha"⟩
  | .beta => ⟨"harness::Beta"⟩
  | .gamma => ⟨"harness::Gamma"⟩
  | .text => ⟨"dyn harness::Text"⟩
  | .values => ⟨"dyn harness::Values"⟩

def ofLabel? (label : String) : Option Channel :=
  all.find? (fun channel => channel.label = label)

def accepts : Channel → Value → Bool
  | .alpha, _ => true
  | .beta, _ => true
  | .gamma, _ => true
  | .text, .text _ => true
  | .text, _ => false
  | .values, .int value => -2147483648 ≤ value && value ≤ 2147483647
  | .values, _ => false

/-- Only lines can be tagged and only numbers can be added up. -/
def manner : Channel → String → Manner
  | .text, "tag" => .tagged
  | .values, "total" => .total
  | _, _ => .plain

end Channel

namespace Manner

/-- What a captor adds to its log, given the entry it logged last. -/
def entry (manner : Manner) (captor : CaptorId) (last : Option Value)
    (message : Value) : Value :=
  match manner, message with
  | .tagged, .text line => .text ("[" ++ captor ++ "] " ++ line)
  | .total, .int value => .int ((last.map Value.toInt).getD 0 + value)
  | _, message => message

end Manner

end Ambient.Script
