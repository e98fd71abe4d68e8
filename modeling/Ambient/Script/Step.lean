import Ambient.Script.Value

/-!
# Steps of scripts

A script is a list of steps, and many steps contain scripts of their own: the
body of a scope, of a callable or of a future, or what a captor does on a
message.  Names of types and kinds stay as they are written, since a step with
an unknown name is still a step.
-/

namespace Ambient.Script

inductive HandleKind where
  | scoped
  | auto
  | cross
deriving DecidableEq, Repr

namespace HandleKind

def name : HandleKind → String
  | .scoped => "scoped"
  | .auto => "auto"
  | .cross => "cross"

def ofName? (name : String) : Option HandleKind :=
  [HandleKind.scoped, .auto, .cross].find? (fun kind => kind.name = name)

end HandleKind

/-- Steps about captors and what they receive. -/
inductive CaptorStep where
  | release (register : String)
  | alive
  | current (type : String)
  | emit (type : String) (message : Value)
  | hoist (type name : String)
  | emitTo (register : String) (message : Value)

/-- Steps about the handles of the running thread. -/
inductive HandleStep where
  | start (kind : HandleKind) (handle register : String)
  | finish (handle : String)
  | forget (handle : String)
  | inspect (handle : String) (pretty : Bool)

/-- Steps about what registers contain. -/
inductive ItemStep where
  | bridge (type name : String)
  | bridgeFrom (handle name : String)
  | snapshot (name : String)
  | emptySnapshot (name : String)
  | point (name : String)
  | emptyPoint (name : String)
  | snapshotOf (register name : String)
  | equal (left right : String)
  | look (register : String) (pretty : Bool)
  | clone (register name : String)
  | rewrap (register name : String)
  | intoPlain (register name : String)
  | unwrap (register name : String)
  | wrapFuture (register name : String)

/-- Steps that run what a register contains. -/
inductive InvokeStep where
  | callAgain (register : String)
  | callOnce (register : String) (argument : Value)
  | poll (register : String)
  | block (register : String)

inductive Step where
  | captor (step : CaptorStep)
  | handle (step : HandleStep)
  | item (step : ItemStep)
  | invoke (step : InvokeStep)
  | make (id type manner : String) (onMessage : List Step)
  | scope (kind register : String) (body : List Step)
  | deep (count : Int) (kind register : String) (body : List Step)
  | wrap (name kind : String) (body : List Step)
  | call (register : String) (argument : Value) (body : List Step)
  | future (name : String) (body : List Step)
  | localFuture (name : String) (body : List Step)
  | pause
  | await (register : String)
  | hold (kind register : String) (body : List Step)
  | give (value : Value)
  | raise (message : String)
  | sequence (body : List Step)
  | loop (count : Int) (body : List Step)
  | attempt (body : List Step)
  | thread (body : List Step)
  | worker (name : String) (body : List Step)
  | teardown (body after : List Step)
  | unknown

instance : Inhabited Step :=
  ⟨.unknown⟩

end Ambient.Script
