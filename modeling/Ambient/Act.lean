import Ambient.Process

/-!
# Acts

An act is something a thread does: it changes the process and ends with a value
or with a panic.  `ensuring` is the only way in which a scope ends, and it ends
the scope also when a panic passes; that end then runs unwinding, where
misuses are recorded but never raised.
-/

namespace Ambient

inductive Outcome (α : Type) where
  | value (value : α)
  | panic (panic : Panic)
deriving DecidableEq, Repr

namespace Outcome

def isPanic {α : Type} : Outcome α → Bool
  | .value _ => false
  | .panic _ => true

end Outcome

/-- Where an act takes place. -/
structure Context where
  build : Build
  thread : ThreadId
  /-- Whether a panic is passing through the thread. -/
  unwinding : Bool
  /-- The captors that the scopes and dispatches in progress refer to. -/
  held : List CaptorId
deriving DecidableEq, Repr

def Act (Client α : Type) : Type :=
  Context → Process Client → Outcome α × Process Client

namespace Act

variable {Client α β : Type}

protected def pure (value : α) : Act Client α :=
  fun _ process => (.value value, process)

protected def bind (act : Act Client α) (next : α → Act Client β) :
    Act Client β :=
  fun context process =>
    match act context process with
    | (.value value, process) => next value context process
    | (.panic panic, process) => (.panic panic, process)

instance : Monad (Act Client) where
  pure := Act.pure
  bind := Act.bind

instance : LawfulMonad (Act Client) := LawfulMonad.mk' (Act Client)
  (by
    intro α act
    funext context process
    change Act.bind act (fun value => Act.pure (id value)) context process = _
    simp only [Act.bind, Act.pure, id]
    split <;> rename_i run <;> exact run.symm)
  (by intro α β value next; rfl)
  (by
    intro α β γ act next last
    funext context process
    change Act.bind (Act.bind act next) last context process =
      Act.bind act (fun value => Act.bind (next value) last) context process
    simp only [Act.bind]
    cases act context process with
    | mk outcome process => cases outcome <;> rfl)

theorem pure_apply (value : α) (context : Context) (process : Process Client) :
    (pure value : Act Client α) context process = (.value value, process) :=
  rfl

theorem bind_apply (act : Act Client α) (next : α → Act Client β)
    (context : Context) (process : Process Client) :
    (act >>= next) context process =
      match act context process with
      | (.value value, process) => next value context process
      | (.panic panic, process) => (.panic panic, process) :=
  rfl

/-! ## Reading and changing the process -/

def context : Act Client Context :=
  fun context process => (.value context, process)

def process : Act Client (Process Client) :=
  fun _ process => (.value process, process)

def modifyProcess (change : Process Client → Process Client) : Act Client Unit :=
  fun _ process => (.value (), change process)

def client : Act Client Client :=
  fun _ process => (.value process.client, process)

def modifyClient (change : Client → Client) : Act Client Unit :=
  modifyProcess fun process => { process with client := change process.client }

/-- The thread the act takes place on. -/
def thread : Act Client Thread :=
  fun context process => (.value (process.thread context.thread), process)

def modifyThread (change : Thread → Thread) : Act Client Unit :=
  fun context process =>
    (.value (),
      process.setThread context.thread (change (process.thread context.thread)))

def modifyRegistry (change : Registry → Registry) : Act Client Unit :=
  modifyProcess fun process => { process with registry := change process.registry }

/-! ## Panics and unwinding -/

def raise (panic : Panic) : Act Client α :=
  fun _ process => (.panic panic, process)

/-- Run an act to its outcome, which stops a panic. -/
def attempt (act : Act Client α) : Act Client (Outcome α) :=
  fun context process =>
    let (outcome, process) := act context process
    (.value outcome, process)

def conclude : Outcome α → Act Client α
  | .value value => pure value
  | .panic panic => raise panic

def unwound (act : Act Client α) : Act Client α :=
  fun context process => act { context with unwinding := true } process

/-- Run a body and then a close that happens whatever the body did.  After a
panic the close runs unwinding and the panic goes on. -/
def ensuring (body : Act Client α) (close : Act Client Unit) : Act Client α :=
  fun context process =>
    match body context process with
    | (.value value, process) =>
        match close context process with
        | (.value _, process) => (.value value, process)
        | (.panic panic, process) => (.panic panic, process)
    | (.panic panic, process) =>
        (.panic panic, (unwound close context process).2)

/-- Run a close, unwinding, only if the body panics. -/
def onPanic (body : Act Client α) (close : Act Client Unit) : Act Client α :=
  fun context process =>
    match body context process with
    | (.value value, process) => (.value value, process)
    | (.panic panic, process) =>
        (.panic panic, (unwound close context process).2)

/-- Run an act while some captors are referred to by whoever runs it. -/
def holding (captors : List CaptorId) (act : Act Client α) : Act Client α :=
  fun context process =>
    act { context with held := captors ++ context.held } process

/-! ## Records -/

def write (record : Record) : Act Client Unit :=
  modifyProcess (·.write record)

/-- Write a record that only a debug build has. -/
def describe (record : Record) : Act Client Unit :=
  fun context process =>
    match context.build with
    | .debug => (.value (), process.write record)
    | .release => (.value (), process)

/-- Record a misuse.  A debug build raises it too, unless a panic is passing. -/
def report (misuse : Misuse) : Act Client Unit :=
  fun context process =>
    let process := process.write (.misused misuse)
    if context.build = .debug ∧ context.unwinding = false then
      (.panic (.misused misuse), process)
    else
      (.value (), process)

/-! ## Slots and chains -/

def current (type : CaptorType) : Act Client (Option CaptorId) :=
  return (← thread).current type

/-- Fill the slot of a type and yield what was in it. -/
def replaceCurrent (type : CaptorType) (captor : Option CaptorId) :
    Act Client (Option CaptorId) := do
  let previous ← current type
  modifyThread (·.setCurrent type captor)
  return previous

/-- Run an act against the captor in scope, which is referred to until the act
ends.  Without one nothing happens. -/
def dispatch (type : CaptorType) (act : CaptorId → Act Client α) :
    Act Client (Option α) := do
  match ← current type with
  | none => return none
  | some captor => return some (← holding [captor] (act captor))

def chain : Act Client Chain :=
  return (← thread).chain

def hold (chain : Chain) : Act Client Unit :=
  modifyRegistry (·.hold chain)

def release (chain : Chain) : Act Client Unit :=
  modifyRegistry (·.release chain)

/-- Put a held chain in the place of the thread's own, and yield that one,
which the caller then holds.  A thread past its teardown keeps nothing. -/
def replaceChain (chain : Chain) : Act Client Chain := do
  let thread ← thread
  modifyThread (·.setChain chain)
  unless thread.live do release chain
  return thread.chain

/-! ## Threads -/

/-- Run an act on another thread, which is not unwinding, to its outcome. -/
def onThread (id : ThreadId) (act : Act Client α) : Act Client (Outcome α) :=
  fun context process =>
    attempt act { context with thread := id, unwinding := false } process

/-- Destroy the slots and the chain of the thread. -/
def tearDown : Act Client Unit := do
  let chain ← chain
  modifyThread Thread.tornDown
  release chain

end Act

end Ambient
