import Ambient.Scope

/-!
# Snapshots

A snapshot is the chain of a thread at some moment.  A call in its context
installs the innermost captor of every type on that chain, leaves the slots of
all other types alone, and makes the chain that of the running thread, so that
the body can be captured again.  An empty snapshot changes nothing.
-/

namespace Ambient

structure Snapshot where
  chain : Chain
deriving DecidableEq, Repr

/-- A chain that a call has put in the place of the thread's own. -/
structure Delegation where
  chain : Chain
  previous : Chain
deriving DecidableEq, Repr

namespace Delegation

variable {Client : Type}

def start (chain : Chain) : Act Client Delegation := do
  Act.hold chain
  Act.hold chain
  let previous ← Act.replaceChain chain
  return ⟨chain, previous⟩

/-- The innermost crosser found at the end is blamed for still being there. -/
def misuse (found : Chain) : Misuse :=
  match found with
  | [] => .call
  | crosser :: _ => .crosser crosser.type

def finish (delegation : Delegation) : Act Client Unit := do
  let found ← Act.replaceChain delegation.previous
  Act.release found
  Act.release delegation.chain
  unless found = delegation.chain do Act.report (misuse found)

end Delegation

namespace Snapshot

variable {Client α : Type}

def empty : Snapshot :=
  ⟨[]⟩

def depth (snapshot : Snapshot) : Nat :=
  Chain.depth snapshot.chain

def isEmpty (snapshot : Snapshot) : Bool :=
  snapshot.chain.isEmpty

/-- The snapshot of the running thread, which holds its chain from now on. -/
def capture : Act Client Snapshot := do
  let chain ← Act.chain
  Act.hold chain
  return ⟨chain⟩

/-- Another holder of the same snapshot. -/
def clone (snapshot : Snapshot) : Act Client Snapshot := do
  Act.hold snapshot.chain
  return snapshot

/-- Give up a snapshot. -/
def drop (snapshot : Snapshot) : Act Client Unit :=
  Act.release snapshot.chain

def holdAll : List Snapshot → Act Client Unit
  | [] => pure ()
  | snapshot :: rest => do
      Act.hold snapshot.chain
      holdAll rest

def dropAll : List Snapshot → Act Client Unit
  | [] => pure ()
  | snapshot :: rest => do
      snapshot.drop
      dropAll rest

/-- Install the captors of some crossers, one scope each. -/
def install : List Crosser → Act Client (List Scope)
  | [] => return []
  | crosser :: rest => do
      let scope ← Scope.start .crossing crosser.type (some crosser.captor)
      return scope :: (← install rest)

/-- Run a body as if inside the captured scope.  The chain is given back
before the slots, and these in the order in which they were filled. -/
def run (snapshot : Snapshot) (body : Act Client α) : Act Client α :=
  match snapshot.chain with
  | [] => body
  | crosser :: _ => do
      let entries := Chain.innermost snapshot.chain
      Act.describe (.reentered entries.length snapshot.depth crosser.type)
      let scopes ← install entries.reverse
      let delegation ← Delegation.start snapshot.chain
      ((Act.holding (scopes.flatMap Scope.captors) body).ensuring
        delegation.finish).ensuring (Scope.finishAll scopes)

/-- Run a body inside several snapshots, the first of them outermost. -/
def runAll : List Snapshot → Act Client α → Act Client α
  | [], body => body
  | snapshot :: rest, body => snapshot.run (runAll rest body)

end Snapshot

/-- A captured scope that code running elsewhere enters on demand. -/
structure EntryPoint where
  snapshot : Snapshot
deriving DecidableEq, Repr

namespace EntryPoint

variable {Client α : Type}

def build : Act Client EntryPoint :=
  return ⟨← Snapshot.capture⟩

def call (point : EntryPoint) (body : Act Client α) : Act Client α :=
  point.snapshot.run body

end EntryPoint

end Ambient
