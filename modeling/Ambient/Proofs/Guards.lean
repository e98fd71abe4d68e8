import Ambient.Bridge
import Ambient.Handle
import Ambient.Proofs.Moves

/-!
# What scopes do to their thread

Every kind of scope has one law for its start and one for its end.  Its end
puts back what the scope found, whatever the slots and the chain hold by then,
and finds a misuse exactly where they hold something else than it put there.
-/

namespace Ambient

variable {Client : Type}

/-! ## Filling several slots -/

namespace Thread

/-- Fill slots one after the other. -/
def fill (thread : Thread) (entries : List (CaptorType × Option CaptorId)) : Thread :=
  entries.foldl (fun thread entry => thread.setCurrent entry.1 entry.2) thread

@[simp] theorem fill_nil (thread : Thread) : thread.fill [] = thread :=
  rfl

@[simp] theorem fill_cons (thread : Thread) (entry : CaptorType × Option CaptorId)
    (rest : List (CaptorType × Option CaptorId)) :
    thread.fill (entry :: rest) = (thread.setCurrent entry.1 entry.2).fill rest :=
  rfl

@[simp] theorem live_fill (thread : Thread)
    (entries : List (CaptorType × Option CaptorId)) :
    (thread.fill entries).live = thread.live := by
  induction entries generalizing thread with
  | nil => rfl
  | cons entry rest ih => simp [ih]

@[simp] theorem chain_fill (thread : Thread)
    (entries : List (CaptorType × Option CaptorId)) :
    (thread.fill entries).chain = thread.chain := by
  induction entries generalizing thread with
  | nil => rfl
  | cons entry rest ih => simp [ih]

@[simp] theorem opened_setCurrent (thread : Thread) (type : CaptorType)
    (captor : Option CaptorId) :
    (thread.setCurrent type captor).opened = thread.opened := by
  cases alive : thread.live <;> simp [setCurrent, alive]

@[simp] theorem opened_setChain (thread : Thread) (chain : Chain) :
    (thread.setChain chain).opened = thread.opened := by
  cases alive : thread.live <;> simp [setChain, alive]

@[simp] theorem opened_fill (thread : Thread)
    (entries : List (CaptorType × Option CaptorId)) :
    (thread.fill entries).opened = thread.opened := by
  induction entries generalizing thread with
  | nil => rfl
  | cons entry rest ih => simp [ih]

/-- When every entry says the same about its type, it does not matter which
entries of the type there are, nor in which order. -/
theorem current_fill (value : CaptorType → Option CaptorId) (thread : Thread)
    {entries : List (CaptorType × Option CaptorId)}
    (agree : ∀ entry ∈ entries, entry.2 = value entry.1) (type : CaptorType) :
    (thread.fill entries).current type =
      if thread.live ∧ type ∈ entries.map (·.1) then value type
      else thread.current type := by
  induction entries generalizing thread with
  | nil => simp
  | cons entry rest ih =>
      have here : entry.2 = value entry.1 := agree entry (by simp)
      rw [fill_cons, ih _ (fun other member => agree other (by simp [member]))]
      by_cases same : entry.1 = type
      · subst same
        by_cases alive : thread.live <;> simp [alive, here]
      · have distinct : type ≠ entry.1 := Ne.symm same
        simp only [Thread.live_setCurrent, List.map_cons, List.mem_cons, distinct, false_or,
          Thread.current_setCurrent, same, and_false, if_false]

end Thread

/-! ## Scopes of one slot -/

namespace Scope

/-- What the end of a scope finds out of order. -/
def faults (scope : Scope) (thread : Thread) : List Misuse :=
  if thread.current scope.type = scope.installed then [] else [scope.misuse]

theorem faults_eq_nil {scope : Scope} {thread : Thread} :
    scope.faults thread = [] ↔ thread.current scope.type = scope.installed := by
  by_cases inOrder : thread.current scope.type = scope.installed <;> simp [faults, inOrder]

/-- The thread after the end of a scope. -/
def closed (scope : Scope) (thread : Thread) : Thread :=
  thread.setCurrent scope.type scope.previous

theorem start_moves (kind : ScopeKind) (type : CaptorType)
    (installed : Option CaptorId) (id : ThreadId) (thread : Thread) :
    (start kind type installed : Act Client Scope).Moves id thread
      ⟨kind, type, installed, thread.current type⟩ []
      (thread.setCurrent type installed) :=
  (Act.replaceCurrent_moves id thread type installed).bind (Act.moves_pure _ id _)

theorem finish_moves (scope : Scope) (id : ThreadId) (thread : Thread) :
    (scope.finish : Act Client Unit).Moves id thread () (scope.faults thread)
      (scope.closed thread) :=
  (Act.replaceCurrent_moves id thread scope.type scope.previous).bind
    (Act.unless_report_moves id _ _ _)

def faultsAll : List Scope → Thread → List Misuse
  | [], _ => []
  | scope :: rest, thread => scope.faults thread ++ faultsAll rest (scope.closed thread)

def closedAll (scopes : List Scope) (thread : Thread) : Thread :=
  thread.fill (scopes.map fun scope => (scope.type, scope.previous))

theorem finishAll_moves (scopes : List Scope) (id : ThreadId) (thread : Thread) :
    (finishAll scopes : Act Client Unit).Moves id thread ()
      (faultsAll scopes thread) (closedAll scopes thread) := by
  induction scopes generalizing thread with
  | nil => exact Act.moves_pure () id thread
  | cons scope rest ih => exact (finish_moves scope id thread).ensuring (ih _)

end Scope

/-! ## Crossers -/

namespace CrosserScope

/-- The scope of a crosser that a thread opens. -/
def ofThread (id : ThreadId) (thread : Thread) (type : CaptorType)
    (captor : CaptorId) : CrosserScope :=
  ⟨⟨⟨id, thread.opened⟩, type, captor⟩, thread.chain,
    ⟨.capture, type, some captor, thread.current type⟩⟩

/-- The thread once it has opened a crosser. -/
def entered (scope : CrosserScope) (thread : Thread) : Thread :=
  ({ thread with opened := thread.opened + 1 }.setChain scope.node).setCurrent
    scope.slot.type scope.slot.installed

def chainFaults (scope : CrosserScope) (thread : Thread) : List Misuse :=
  if thread.chain = scope.node then [] else [.crosser scope.crosser.type]

theorem chainFaults_eq_nil {scope : CrosserScope} {thread : Thread} :
    scope.chainFaults thread = [] ↔ thread.chain = scope.node := by
  by_cases inOrder : thread.chain = scope.node <;> simp [chainFaults, inOrder]

theorem freshId_moves (id : ThreadId) (thread : Thread) :
    (freshId : Act Client CrosserId).Moves id thread ⟨id, thread.opened⟩ []
      { thread with opened := thread.opened + 1 } := by
  rintro context process rfl rfl
  exact ⟨rfl, (Act.modifyThread_moves context.thread (process.thread context.thread)
    (fun thread => { thread with opened := thread.opened + 1 })
    context process rfl rfl).2⟩

theorem start_moves (type : CaptorType) (captor : CaptorId) (id : ThreadId)
    (thread : Thread) :
    (start type captor : Act Client CrosserScope).Moves id thread
      (ofThread id thread type captor) []
      ((ofThread id thread type captor).entered thread) := by
  refine (freshId_moves id thread).bind ((Act.chain_moves id _).bind ?_)
  refine (Act.modifyRegistry_moves id _ _).bind ((Act.hold_moves id _ _).bind ?_)
  refine (Act.replaceChain_moves id _ _).bind ((Act.release_moves id _ _).bind ?_)
  have slot : (Scope.start .capture type (some captor) : Act Client Scope).Moves id _ _ _ _ :=
    Scope.start_moves .capture type (some captor) id
      ({ thread with opened := thread.opened + 1 }.setChain
        (ofThread id thread type captor).node)
  rw [Thread.current_setChain] at slot
  exact slot.bind (Act.moves_pure _ id _)

theorem finishChain_moves (scope : CrosserScope) (id : ThreadId) (thread : Thread) :
    (scope.finishChain : Act Client Unit).Moves id thread ()
      (scope.chainFaults thread) (thread.setChain scope.outer) := by
  refine (Act.hold_moves id thread _).bind ((Act.replaceChain_moves id _ _).bind ?_)
  refine (Act.release_moves id _ _).bind ((Act.release_moves id _ _).bind ?_)
  exact Act.unless_report_moves id _ _ _

end CrosserScope

/-! ## Handles -/

namespace Handle

/-- What the end of a handle finds out of order: a crosser checks the chain
before the slot. -/
def faults : Handle → Thread → List Misuse
  | .slot scope, thread => scope.faults thread
  | .crosser scope, thread => scope.chainFaults thread ++ scope.slot.faults thread

/-- The thread after the end of a handle. -/
def closed : Handle → Thread → Thread
  | .slot scope, thread => scope.closed thread
  | .crosser scope, thread => scope.slot.closed (thread.setChain scope.outer)

@[simp] theorem live_closed (handle : Handle) (thread : Thread) :
    (handle.closed thread).live = thread.live := by
  cases handle <;> simp [closed, Scope.closed]

@[simp] theorem opened_closed (handle : Handle) (thread : Thread) :
    (handle.closed thread).opened = thread.opened := by
  cases handle <;> simp [closed, Scope.closed]

theorem finish_moves (handle : Handle) (id : ThreadId) (thread : Thread) :
    (handle.finish : Act Client Unit).Moves id thread () (handle.faults thread)
      (handle.closed thread) := by
  cases handle with
  | slot scope => exact scope.finish_moves id thread
  | crosser scope =>
      have slot : (scope.slot.finish : Act Client Unit).Moves id _ _ _ _ :=
        scope.slot.finish_moves id (thread.setChain scope.outer)
      rw [Scope.faults, Thread.current_setChain] at slot
      exact (scope.finishChain_moves id thread).ensuring slot

end Handle

theorem Bridge.build_moves (type : CaptorType) (id : ThreadId) (thread : Thread) :
    (build type : Act Client Bridge).Moves id thread ⟨type, thread.current type⟩ []
      thread :=
  (Act.current_moves id thread type).bind
    ((Act.describe_moves id thread rfl).bind (Act.moves_pure _ id thread))

/-- The ways to open a handle. -/
inductive Opening where
  | capture (type : CaptorType) (captor : CaptorId)
  | crossing (bridge : Bridge)
  | crosser (type : CaptorType) (captor : CaptorId)
deriving DecidableEq, Repr

namespace Opening

def start : Opening → Act Client Handle
  | .capture type captor => return .slot (← Scope.start .capture type (some captor))
  | .crossing bridge => return .slot (← bridge.start)
  | .crosser type captor => return .crosser (← CrosserScope.start type captor)

/-- The handle that a thread gets. -/
def handle (id : ThreadId) (thread : Thread) : Opening → Handle
  | .capture type captor =>
      .slot ⟨.capture, type, some captor, thread.current type⟩
  | .crossing bridge =>
      .slot ⟨.crossing, bridge.type, bridge.captor, thread.current bridge.type⟩
  | .crosser type captor => .crosser (.ofThread id thread type captor)

/-- The thread once the handle is open. -/
def entered (id : ThreadId) (thread : Thread) : Opening → Thread
  | .capture type captor => thread.setCurrent type (some captor)
  | .crossing bridge => thread.setCurrent bridge.type bridge.captor
  | .crosser type captor =>
      (CrosserScope.ofThread id thread type captor).entered thread

@[simp] theorem live_entered (opening : Opening) (id : ThreadId) (thread : Thread) :
    (opening.entered id thread).live = thread.live := by
  cases opening <;> simp [entered, CrosserScope.entered]

theorem opened_le_entered (opening : Opening) (id : ThreadId) (thread : Thread) :
    thread.opened ≤ (opening.entered id thread).opened := by
  cases opening <;> simp [entered, CrosserScope.entered]

theorem start_moves (opening : Opening) (id : ThreadId) (thread : Thread) :
    (opening.start : Act Client Handle).Moves id thread
      (opening.handle id thread) [] (opening.entered id thread) := by
  cases opening with
  | capture type captor =>
      exact (Scope.start_moves .capture type (some captor) id thread).bind
        (Act.moves_pure _ id _)
  | crossing bridge =>
      exact (Scope.start_moves .crossing bridge.type bridge.captor id thread).bind
        (Act.moves_pure _ id _)
  | crosser type captor =>
      exact (CrosserScope.start_moves type captor id thread).bind
        (Act.moves_pure _ id _)

end Opening

end Ambient
