import Ambient.Proofs.Guards
import Ambient.Snapshot

/-!
# Blocks and their lexical meaning

A block is a program whose scopes are all structured: every scope and every call
is around a body and ends with it.  A block runs on a thread, whose slots and
chain it fills and puts back.  Its meaning does without them.  It hands down to
every part of the block what is in scope there, as a scene that never changes,
and nothing has to be put back.  Both write down what can be observed.
-/

namespace Ambient

/-! ## Observations -/

/-- What a block can tell about what is in scope. -/
inductive Observation where
  | current (type : CaptorType) (captor : Option CaptorId)
  /-- A captor has got a message. -/
  | received (type : CaptorType) (captor : CaptorId) (message : String)
  /-- Whether a message has been answered. -/
  | answered (type : CaptorType) (got : Bool)
  | compared (same : Bool)
  | depth (count : Nat)
  | bridged (type : CaptorType) (captor : Option CaptorId)
  /-- What a scope has found in its slot. -/
  | previous (type : CaptorType) (captor : Option CaptorId)
  | joined (outcome : Outcome Unit)
  | caught (outcome : Outcome Unit)
deriving DecidableEq, Repr

/-- What the parts of a block share. -/
structure Notebook where
  snapshots : List Snapshot
  points : List EntryPoint
  bridges : List Bridge
  /-- How many threads have been spawned. -/
  spawned : Nat
  trace : List Observation
deriving DecidableEq, Repr

namespace Notebook

def empty : Notebook :=
  ⟨[], [], [], 0, []⟩

def note (observation : Observation) (notebook : Notebook) : Notebook :=
  { notebook with trace := notebook.trace ++ [observation] }

def keepSnapshot (snapshot : Snapshot) (notebook : Notebook) : Notebook :=
  { notebook with snapshots := notebook.snapshots ++ [snapshot] }

def keepPoint (point : EntryPoint) (notebook : Notebook) : Notebook :=
  { notebook with points := notebook.points ++ [point] }

def keepBridge (bridge : Bridge) (notebook : Notebook) : Notebook :=
  { notebook with bridges := notebook.bridges ++ [bridge] }.note
    (.bridged bridge.type bridge.captor)

/-- The snapshot taken at a position; beyond the last one they are empty. -/
def snapshot (notebook : Notebook) (position : Nat) : Snapshot :=
  notebook.snapshots[position]?.getD .empty

def point (notebook : Notebook) (position : Nat) : EntryPoint :=
  notebook.points[position]?.getD ⟨.empty⟩

/-- The thread that is spawned next. -/
def nextThread (notebook : Notebook) : ThreadId :=
  .spawned (notebook.spawned + 1)

def spawn (notebook : Notebook) : Notebook :=
  { notebook with spawned := notebook.spawned + 1 }

end Notebook

/-! ## Blocks -/

/-- A scope around a body: of a captor, or of a bridge built before. -/
inductive Enclosure where
  | capture (type : CaptorType) (captor : CaptorId)
  | crosser (type : CaptorType) (captor : CaptorId)
  | crossing (position : Nat)
deriving DecidableEq, Repr

/-- How the scope is opened, unless there is no such bridge. -/
def Enclosure.opening? (notebook : Notebook) : Enclosure → Option Opening
  | .capture type captor => some (.capture type captor)
  | .crosser type captor => some (.crosser type captor)
  | .crossing position => notebook.bridges[position]?.map .crossing

inductive Block where
  | done
  | andThen (first second : Block)
  | current (type : CaptorType)
  | send (type : CaptorType) (message : String)
  /-- Take a snapshot, as it is or for something that is wrapped. -/
  | capture
  | point
  | compare (first second : Nat)
  | depth (position : Nat)
  | bridge (type : CaptorType)
  /-- Build the bridge of a scope around, of which the innermost has level zero. -/
  | bridgeOf (type : CaptorType) (level : Nat)
  | within (enclosure : Enclosure) (body : Block)
  /-- Call what is wrapped in some snapshots, of which the first is outermost. -/
  | call (layers : List Nat) (body : Block)
  | enter (position : Nat) (body : Block)
  /-- Run a body on a fresh thread and wait for its end. -/
  | thread (body : Block)
  | raise (message : String)
  | attempt (body : Block)
deriving Repr

namespace Opening

def type : Opening → CaptorType
  | .capture type _ => type
  | .crossing bridge => bridge.type
  | .crosser type _ => type

/-- What the scope puts into the slot. -/
def installed : Opening → Option CaptorId
  | .capture _ captor => some captor
  | .crossing bridge => bridge.captor
  | .crosser _ captor => some captor

/-- The scopes of which a body inside can build bridges. -/
def lent : Opening → Handle → List Scope
  | .capture _ _, handle => [handle.scope]
  | _, _ => []

end Opening

namespace Block

def note (observation : Observation) : Act Notebook Unit :=
  Act.modifyClient (·.note observation)

/-- What happens inside a scope that is open. -/
def enclosed (opening : Opening) (handle : Handle) (act : Act Notebook Unit) :
    Act Notebook Unit := do
  note (.previous opening.type handle.previous)
  Act.holding handle.captors act

/-- Run a body inside a scope of its own, if it is to have one. -/
def runWithin (run : List Scope → Act Notebook Unit) (scopes : List Scope) :
    Option Opening → Act Notebook Unit
  | none => run scopes
  | some opening => do
      let handle ← opening.start
      (enclosed opening handle (run (opening.lent handle ++ scopes))).ensuring handle.finish

/-- Run an act as all that its thread does, which is torn down then. -/
def entirely (act : Act Notebook Unit) : Act Notebook Unit := do
  let outcome ← Act.attempt act
  Act.tearDown
  Act.conclude outcome

def onFreshThread (act : Act Notebook Unit) : Act Notebook Unit := do
  let notebook ← Act.client
  Act.modifyClient (·.spawn)
  let outcome ← Act.onThread notebook.nextThread (entirely act)
  note (.joined outcome)

/-- Run a block inside the scopes of which it can build bridges. -/
def run : Block → List Scope → Act Notebook Unit
  | .done, _ => pure ()
  | .andThen first second, scopes => do
      first.run scopes
      second.run scopes
  | .current type, _ => do
      let captor ← Act.current type
      note (.current type captor)
  | .send type message, _ => do
      let answer ← Act.dispatch type fun captor => note (.received type captor message)
      note (.answered type answer.isSome)
  | .capture, _ => do
      let snapshot ← Snapshot.capture
      Act.modifyClient (·.keepSnapshot snapshot)
  | .point, _ => do
      let point ← EntryPoint.build
      Act.modifyClient (·.keepPoint point)
  | .compare first second, _ => do
      let notebook ← Act.client
      note (.compared (notebook.snapshot first = notebook.snapshot second))
  | .depth position, _ => do
      let notebook ← Act.client
      note (.depth (notebook.snapshot position).depth)
  | .bridge type, _ => do
      let bridge ← Bridge.build type
      Act.modifyClient (·.keepBridge bridge)
  | .bridgeOf type level, scopes =>
      match (scopes.filter (·.type = type))[level]? with
      | some scope => Act.modifyClient (·.keepBridge (.ofScope scope))
      | none => do
          let bridge ← Bridge.build type
          Act.modifyClient (·.keepBridge bridge)
  | .within enclosure body, scopes => do
      let notebook ← Act.client
      runWithin body.run scopes (enclosure.opening? notebook)
  | .call layers body, scopes => do
      let notebook ← Act.client
      Snapshot.runAll (layers.map notebook.snapshot) (body.run scopes)
  | .enter position body, scopes => do
      let notebook ← Act.client
      (notebook.point position).call (body.run scopes)
  | .thread body, _ => onFreshThread (body.run [])
  | .raise message, _ => Act.raise (.raised message)
  | .attempt body, scopes => do
      let outcome ← Act.attempt (body.run scopes)
      note (.caught outcome)

end Block

/-! ## Scenes -/

/-- What is in scope at a place of a block. -/
structure Scene where
  thread : ThreadId
  environment : CaptorType → Option CaptorId
  /-- The crossers around the place, innermost first. -/
  chain : Chain
  /-- The captors of the scopes around the place that it can refer to. -/
  lent : List Bridge

namespace Scene

/-- Nothing is in scope on a fresh thread. -/
def bare (thread : ThreadId) : Scene :=
  ⟨thread, fun _ => none, [], []⟩

def showing (scene : Scene) (type : CaptorType) (captor : Option CaptorId) : Scene :=
  { scene with
    environment := fun other =>
      if type = other then captor else scene.environment other }

/-- The scene inside a scope, if the thread has opened some crossers before. -/
def within (scene : Scene) (opened : Nat) : Opening → Scene
  | .capture type captor =>
      { scene.showing type (some captor) with lent := ⟨type, some captor⟩ :: scene.lent }
  | .crossing bridge => scene.showing bridge.type bridge.captor
  | .crosser type captor =>
      { scene.showing type (some captor) with
        chain := ⟨⟨scene.thread, opened⟩, type, captor⟩ :: scene.chain }

/-- The scene inside a call: the innermost captors of the snapshot are in scope,
and those of other types stay. -/
def inside (scene : Scene) (snapshot : Snapshot) : Scene :=
  if snapshot.isEmpty then
    scene
  else
    { scene with
      environment := fun type =>
        (Chain.captor? type snapshot.chain).or (scene.environment type)
      chain := snapshot.chain }

@[simp] theorem thread_within (scene : Scene) (opened : Nat) (opening : Opening) :
    (scene.within opened opening).thread = scene.thread := by
  cases opening <;> rfl

theorem environment_within (scene : Scene) (opened : Nat) (opening : Opening)
    (type : CaptorType) :
    (scene.within opened opening).environment type =
      if opening.type = type then opening.installed else scene.environment type := by
  cases opening <;> rfl

@[simp] theorem thread_inside (scene : Scene) (snapshot : Snapshot) :
    (scene.inside snapshot).thread = scene.thread := by
  unfold inside
  split <;> rfl

@[simp] theorem lent_inside (scene : Scene) (snapshot : Snapshot) :
    (scene.inside snapshot).lent = scene.lent := by
  unfold inside
  split <;> rfl

end Scene

/-- What a meaning hands on from part to part: what is written down, and how
many crossers the thread has opened. -/
structure Ledger where
  notebook : Notebook
  opened : Nat
deriving DecidableEq, Repr

namespace Ledger

def write (ledger : Ledger) (change : Notebook → Notebook) : Ledger :=
  { ledger with notebook := change ledger.notebook }

def note (ledger : Ledger) (observation : Observation) : Ledger :=
  ledger.write (·.note observation)

/-- Every crosser counts. -/
def count (ledger : Ledger) : Opening → Ledger
  | .crosser _ _ => { ledger with opened := ledger.opened + 1 }
  | _ => ledger

end Ledger

namespace Block

/-- What a body means inside a scope of its own, if it is to have one. -/
def meaningWithin (meaning : Scene → Ledger → Outcome Unit × Ledger) (scene : Scene)
    (ledger : Ledger) : Option Opening → Outcome Unit × Ledger
  | none => meaning scene ledger
  | some opening =>
      meaning (scene.within ledger.opened opening)
        ((ledger.count opening).note
          (.previous opening.type (scene.environment opening.type)))

/-- What a block means in a scene. -/
def meaning : Block → Scene → Ledger → Outcome Unit × Ledger
  | .done, _, ledger => (.value (), ledger)
  | .andThen first second, scene, ledger =>
      match first.meaning scene ledger with
      | (.value _, next) => second.meaning scene next
      | (.panic panic, next) => (.panic panic, next)
  | .current type, scene, ledger =>
      (.value (), ledger.note (.current type (scene.environment type)))
  | .send type message, scene, ledger =>
      match scene.environment type with
      | none => (.value (), ledger.note (.answered type false))
      | some captor =>
          (.value (), (ledger.note (.received type captor message)).note
            (.answered type true))
  | .capture, scene, ledger => (.value (), ledger.write (·.keepSnapshot ⟨scene.chain⟩))
  | .point, scene, ledger => (.value (), ledger.write (·.keepPoint ⟨⟨scene.chain⟩⟩))
  | .compare first second, _, ledger =>
      (.value (), ledger.note
        (.compared (ledger.notebook.snapshot first = ledger.notebook.snapshot second)))
  | .depth position, _, ledger =>
      (.value (), ledger.note (.depth (ledger.notebook.snapshot position).chain.length))
  | .bridge type, scene, ledger =>
      (.value (), ledger.write (·.keepBridge ⟨type, scene.environment type⟩))
  | .bridgeOf type level, scene, ledger =>
      let bridge := (scene.lent.filter (·.type = type))[level]?.getD
        ⟨type, scene.environment type⟩
      (.value (), ledger.write (·.keepBridge bridge))
  | .within enclosure body, scene, ledger =>
      meaningWithin body.meaning scene ledger (enclosure.opening? ledger.notebook)
  | .call layers body, scene, ledger =>
      body.meaning ((layers.map ledger.notebook.snapshot).foldl Scene.inside scene) ledger
  | .enter position body, scene, ledger =>
      body.meaning (scene.inside (ledger.notebook.point position).snapshot) ledger
  | .thread body, _, ledger =>
      let result := body.meaning (.bare ledger.notebook.nextThread)
        ⟨ledger.notebook.spawn, 0⟩
      (.value (), ⟨result.2.notebook.note (.joined result.1), ledger.opened⟩)
  | .raise message, _, ledger => (.panic (.raised message), ledger)
  | .attempt body, scene, ledger =>
      let result := body.meaning scene ledger
      (.value (), result.2.note (.caught result.1))

end Block

end Ambient
