import Ambient.Proofs.Reentry

/-!
# What the end of a scope comes to

The end of a scope gives back one or more cells of its thread: that of a crosser
the chain and then a slot, that of a call the chain and then a slot for every
type of its snapshot.  Each of these components checks its own cell, puts it
back, and reports if the cell held something else than the component had put
there.  Once a report has been raised, the components that are left end
unwinding.  They put back and report as before but raise nothing.
-/

namespace Ambient

variable {Client α : Type}

/-! ## Cells -/

/-- What a scope takes of a thread and gives back. -/
inductive Cell where
  | slot (type : CaptorType)
  | chain
deriving DecidableEq, Repr

inductive Content where
  | captor (captor : Option CaptorId)
  | chain (chain : Chain)
deriving DecidableEq, Repr

/-- What is in a cell of a thread. -/
def Thread.content (thread : Thread) : Cell → Content
  | .slot type => .captor (thread.current type)
  | .chain => .chain thread.chain

/-! ## Components -/

/-- The part of a scope that has taken one cell. -/
inductive Component where
  | slot (scope : Scope)
  | crosser (scope : CrosserScope)
  | call (delegation : Delegation)
deriving DecidableEq, Repr

namespace Component

def cell : Component → Cell
  | .slot scope => .slot scope.type
  | .crosser _ => .chain
  | .call _ => .chain

/-- What the component put into its cell. -/
def installed : Component → Content
  | .slot scope => .captor scope.installed
  | .crosser scope => .chain scope.node
  | .call delegation => .chain delegation.chain

/-- What the component found in its cell. -/
def saved : Component → Content
  | .slot scope => .captor scope.previous
  | .crosser scope => .chain scope.outer
  | .call delegation => .chain delegation.previous

def Intact (component : Component) (thread : Thread) : Prop :=
  thread.content component.cell = component.installed

instance (component : Component) (thread : Thread) : Decidable (component.Intact thread) :=
  inferInstanceAs (Decidable (_ = _))

/-- What is reported of a component that ends on a thread out of order. -/
def misuse (component : Component) (thread : Thread) : Misuse :=
  match component with
  | .slot scope => scope.misuse
  | .crosser scope => .crosser scope.crosser.type
  | .call _ => Delegation.misuse thread.chain

def faults (component : Component) (thread : Thread) : List Misuse :=
  if component.Intact thread then [] else [component.misuse thread]

/-- The thread after the end of a component. -/
def closed (component : Component) (thread : Thread) : Thread :=
  match component with
  | .slot scope => scope.closed thread
  | .crosser scope => thread.setChain scope.outer
  | .call delegation => thread.setChain delegation.previous

def finish : Component → Act Client Unit
  | .slot scope => scope.finish
  | .crosser scope => scope.finishChain
  | .call delegation => delegation.finish

@[simp] theorem live_closed (component : Component) (thread : Thread) :
    (component.closed thread).live = thread.live := by
  cases component <;> simp [closed, Scope.closed]

theorem content_closed (component : Component) (thread : Thread) (cell : Cell) :
    (component.closed thread).content cell =
      if thread.live ∧ component.cell = cell then component.saved else thread.content cell := by
  have torn (live : thread.live = false) : thread.chain = [] := by simp [Thread.chain, live]
  cases live : thread.live <;> cases component <;> cases cell <;>
    simp [closed, Scope.closed, Thread.content, Component.cell, saved, live, torn,
      apply_ite Content.captor]

/-- A component looks at no cell but its own. -/
theorem faults_congr {component : Component} {first second : Thread}
    (same : first.content component.cell = second.content component.cell) :
    component.faults first = component.faults second := by
  have intact : component.Intact first ↔ component.Intact second := by
    rw [Intact, Intact, same]
  have named : component.misuse first = component.misuse second := by
    cases component with
    | slot scope => rfl
    | crosser scope => rfl
    | call delegation => exact congrArg Delegation.misuse (Content.chain.inj same)
  simp only [faults, intact, named]

theorem faults_slot (scope : Scope) (thread : Thread) :
    (slot scope).faults thread = scope.faults thread := by
  simp [faults, Scope.faults, Intact, Thread.content, cell, installed, misuse]

theorem finish_moves (component : Component) (id : ThreadId) (thread : Thread) :
    (component.finish : Act Client Unit).Moves id thread () (component.faults thread)
      (component.closed thread) := by
  cases component with
  | slot scope => exact faults_slot scope thread ▸ scope.finish_moves id thread
  | crosser scope =>
      have faults : (crosser scope).faults thread = scope.chainFaults thread := by
        simp [Component.faults, CrosserScope.chainFaults, Intact, Thread.content, cell, installed,
          misuse]
      exact faults ▸ scope.finishChain_moves id thread
  | call delegation =>
      have faults : (call delegation).faults thread = delegation.faults thread := by
        simp [Component.faults, Delegation.faults, Intact, Thread.content, cell, installed, misuse]
      exact faults ▸ delegation.finish_moves id thread

/-! ## Several components -/

/-- End components from the first to the last, unwinding after a misuse. -/
def finishAll : List Component → Act Client Unit
  | [] => pure ()
  | component :: rest => component.finish.ensuring (finishAll rest)

/-- The components that find their cells changed. -/
def failed (components : List Component) (thread : Thread) : List Component :=
  components.filter fun component => ¬ component.Intact thread

def faultsAll (components : List Component) (thread : Thread) : List Misuse :=
  (failed components thread).map (·.misuse thread)

def closedAll (components : List Component) (thread : Thread) : Thread :=
  components.foldl (fun thread component => component.closed thread) thread

/-- The panics that the components raise while they end one after the other,
each of them unwinding if one before it has raised. -/
def raised : List Component → Context → Process Client → List Panic
  | [], _, _ => []
  | component :: rest, context, process =>
      match component.finish context process with
      | (.value _, process) => raised rest context process
      | (.panic panic, process) =>
          panic :: raised rest { context with unwinding := true } process

variable {components rest : List Component} {component : Component}

theorem faultsAll_cons (component : Component) (rest : List Component) (thread : Thread) :
    faultsAll (component :: rest) thread =
      component.faults thread ++ faultsAll rest thread := by
  by_cases intact : component.Intact thread <;> simp [faultsAll, failed, faults, intact]

/-- The end of one component changes nothing for those with other cells. -/
theorem faultsAll_closed (thread : Thread) (absent : component.cell ∉ rest.map cell) :
    faultsAll rest (component.closed thread) = faultsAll rest thread := by
  induction rest with
  | nil => rfl
  | cons other rest ih =>
      rw [List.map_cons, List.mem_cons, not_or] at absent
      rcases absent with ⟨apart, absent⟩
      have same : (component.closed thread).content other.cell = thread.content other.cell := by
        rw [component.content_closed, if_neg fun both => apart both.2]
      rw [faultsAll_cons, faultsAll_cons, faults_congr same, ih absent]

theorem content_closedAll_of_absent (thread : Thread) {cell : Cell}
    (absent : cell ∉ components.map Component.cell) :
    (closedAll components thread).content cell = thread.content cell := by
  induction components generalizing thread with
  | nil => rfl
  | cons first rest ih =>
      rw [List.map_cons, List.mem_cons, not_or] at absent
      calc (closedAll rest (first.closed thread)).content cell
        _ = (first.closed thread).content cell := ih _ absent.2
        _ = thread.content cell := by
          rw [content_closed, if_neg fun both => absent.1 both.2.symm]

theorem content_closedAll_of_mem (distinct : (components.map cell).Nodup) {thread : Thread}
    (live : thread.live) (member : component ∈ components) :
    (closedAll components thread).content component.cell = component.saved := by
  induction components generalizing thread with
  | nil => contradiction
  | cons first rest ih =>
      rcases List.nodup_cons.mp distinct with ⟨absent, distinct⟩
      rcases List.mem_cons.mp member with rfl | member
      · calc (closedAll rest (component.closed thread)).content component.cell
          _ = (component.closed thread).content component.cell :=
            content_closedAll_of_absent _ absent
          _ = component.saved := by rw [content_closed, if_pos ⟨live, rfl⟩]
      · exact ih distinct ((first.live_closed thread).trans live) member

theorem finishAll_moves (distinct : (components.map cell).Nodup) (id : ThreadId)
    (thread : Thread) :
    (finishAll components : Act Client Unit).Moves id thread ()
      (faultsAll components thread) (closedAll components thread) := by
  induction components generalizing thread with
  | nil => exact Act.moves_pure () id thread
  | cons component rest ih =>
      rcases List.nodup_cons.mp distinct with ⟨absent, distinct⟩
      rw [faultsAll_cons, ← faultsAll_closed thread absent]
      exact (component.finish_moves id thread).ensuring (ih distinct _)

theorem raised_of_value {context : Context} {process : Process Client}
    (outcome : (component.finish context process).1 = .value ()) :
    raised (component :: rest) context process =
      raised rest context (component.finish context process).2 := by
  rw [raised, ← Prod.eta (component.finish context process), outcome]

theorem raised_of_panic {context : Context} {process : Process Client} {panic : Panic}
    (outcome : (component.finish context process).1 = .panic panic) :
    raised (component :: rest) context process =
      panic :: raised rest { context with unwinding := true }
        (component.finish context process).2 := by
  rw [raised, ← Prod.eta (component.finish context process), outcome]

/-- Only the first misuse is raised, and that only where misuses are raised. -/
theorem raised_eq (distinct : (components.map cell).Nodup) (context : Context)
    (process : Process Client) :
    raised components context process =
      if context.build = .debug ∧ context.unwinding = false then
        (faultsAll components (process.thread context.thread)).head?.toList.map .misused
      else [] := by
  induction components generalizing context process with
  | nil => simp [raised, faultsAll, failed]
  | cons component rest ih =>
      rcases List.nodup_cons.mp distinct with ⟨absent, distinct⟩
      obtain ⟨outcome, moved⟩ := component.finish_moves context.thread
        (process.thread context.thread) context process rfl rfl
      have others : faultsAll rest ((component.finish context process).2.thread context.thread) =
          faultsAll rest (process.thread context.thread) := by
        rw [moved.own, faultsAll_closed _ absent]
      rw [faultsAll_cons]
      by_cases intact : component.Intact (process.thread context.thread)
      · rw [faults, if_pos intact] at outcome ⊢
        rw [raised_of_value outcome, ih distinct context, others, List.nil_append]
      · rw [faults, if_neg intact] at outcome ⊢
        by_cases raises : context.build = .debug ∧ context.unwinding = false
        · -- The others end unwinding, where nothing is raised.
          rw [Outcome.raising, if_pos raises] at outcome
          rw [raised_of_panic outcome, ih distinct { context with unwinding := true },
            if_pos raises, if_neg (by simp)]
          rfl
        · rw [Outcome.raising, if_neg raises] at outcome
          rw [raised_of_value outcome, ih distinct context, if_neg raises, if_neg raises]

end Component

/-! ## What ends -/

namespace Act

theorem pure_ensuring (close : Act Client Unit) :
    (pure () : Act Client Unit).ensuring close = close := by
  funext context process
  cases closed : close context process with
  | mk outcome last => cases outcome <;> simp [ensuring, pure_apply, closed]

theorem ensuring_pure (body : Act Client α) : body.ensuring (pure ()) = body := by
  funext context process
  cases run : body context process with
  | mk outcome last => cases outcome <;> simp [ensuring, pure_apply, unwound, run]

end Act

namespace Handle

/-- A crosser gives back the chain before its slot. -/
def components : Handle → List Component
  | .slot scope => [.slot scope]
  | .crosser scope => [.crosser scope, .slot scope.slot]

theorem components_distinct (handle : Handle) : (handle.components.map Component.cell).Nodup := by
  cases handle <;> simp [components, Component.cell]

theorem finish_eq (handle : Handle) :
    (handle.finish : Act Client Unit) = Component.finishAll handle.components := by
  cases handle with
  | slot scope => exact (Act.ensuring_pure _).symm
  | crosser scope => exact congrArg (Act.ensuring _) (Act.ensuring_pure _).symm

end Handle

theorem Scope.finishAll_eq (scopes : List Scope) :
    (finishAll scopes : Act Client Unit) = Component.finishAll (scopes.map .slot) := by
  induction scopes with
  | nil => rfl
  | cons scope rest ih => exact congrArg (Act.ensuring scope.finish) ih

namespace Snapshot

/-- A call that started on a thread gives back its chain and then the slots,
beginning with that of the type which the walk from the tail meets last. -/
def components (snapshot : Snapshot) (before : Thread) : List Component :=
  .call ⟨snapshot.chain, before.chain⟩ ::
    (Chain.innermost snapshot.chain).reverse.map fun crosser =>
      .slot ⟨.crossing, crosser.type, some crosser.captor, before.current crosser.type⟩

theorem components_distinct (snapshot : Snapshot) (before : Thread) :
    ((snapshot.components before).map Component.cell).Nodup := by
  have slots : ((snapshot.entries.map (·.type)).map Cell.slot).Nodup :=
    snapshot.entries_types_nodup.map fun _ _ same => Cell.slot.inj same
  simpa [components, entries, Component.cell, Function.comp_def] using slots

theorem leave_eq (snapshot : Snapshot) (before : Thread) :
    (snapshot.leave before : Act Client Unit) =
      Component.finishAll (snapshot.components before) := by
  rw [leave, guards_eq_map, Scope.finishAll_eq, List.map_map]
  rfl

end Snapshot

/-! ## Ends after a body -/

/-- Where an end takes place after a body with some outcome. -/
def Context.following (context : Context) (outcome : Outcome α) : Context :=
  { context with unwinding := context.unwinding || outcome.isPanic }

theorem Context.following_value (context : Context) (value : α) :
    context.following (.value value) = context := by
  simp [following, Outcome.isPanic]

namespace Outcome

/-- What goes on after an end that raises some panics: the panic of the body, or
the first of these, or the value of the body. -/
def past : Outcome α → List Panic → Outcome α
  | .panic cause, _ => .panic cause
  | .value _, cause :: _ => .panic cause
  | .value result, [] => .value result

theorem raising_eq_past (context : Context) (value : α) (found : List Misuse) :
    raising context value found =
      (Outcome.value value).past
        (if context.build = .debug ∧ context.unwinding = false then
          found.head?.toList.map .misused
        else []) := by
  cases found with
  | nil => simp [raising, past]
  | cons misuse rest =>
      by_cases raises : context.build = .debug ∧ context.unwinding = false <;>
        simp [raising, past, raises]

end Outcome

namespace Component

/-- How some components end at a place, after a body with some outcome.  What
they find is judged by the thread as the body has left it. -/
structure Ends (components : List Component) (place : Context)
    (left last : Process Client) (outcome ending : Outcome α) : Prop where
  restored : ∀ component ∈ components,
    (last.thread place.thread).content component.cell = component.saved
  kept : ∀ cell, cell ∉ components.map Component.cell →
    (last.thread place.thread).content cell = (left.thread place.thread).content cell
  others : ∀ id, place.thread ≠ id → last.thread id = left.thread id
  client : last.client = left.client
  /-- One warning for each component that finds its cell changed, in order. -/
  warned : last.misuses = left.misuses ++
    (failed components (left.thread place.thread)).map (·.misuse (left.thread place.thread))
  /-- The first of them is all that is raised, if misuses are raised here. -/
  raises : raised components place left =
    if place.build = .debug ∧ place.unwinding = false then
      ((failed components (left.thread place.thread)).map
        (·.misuse (left.thread place.thread))).head?.toList.map .misused
    else []
  ending : ending = outcome.past (raised components place left)

theorem ensuring_ends (distinct : (components.map cell).Nodup) {body : Act Client α}
    {context : Context} {process left : Process Client} {outcome : Outcome α}
    (run : body context process = (outcome, left)) (live : (left.thread context.thread).live) :
    Ends components (context.following outcome) left
      (body.ensuring (finishAll components) context process).2 outcome
      (body.ensuring (finishAll components) context process).1 := by
  obtain ⟨rfl, rfl⟩ : (body context process).1 = outcome ∧ (body context process).2 = left := by
    simp [run]
  have close : (finishAll components : Act Client Unit).Moves context.thread _ () _ _ :=
    finishAll_moves distinct context.thread ((body context process).2.thread context.thread)
  have moved := close.close body rfl rfl
  have raises := raised_eq distinct (context.following (body context process).1)
    (body context process).2
  refine ⟨fun component member => ?_, fun cell absent => ?_, moved.others, moved.client,
    moved.misuses, raises, ?_⟩
  · exact (congrArg (·.content component.cell) moved.own).trans
      (content_closedAll_of_mem distinct live member)
  · exact (congrArg (·.content cell) moved.own).trans (content_closedAll_of_absent _ absent)
  rw [close.close_outcome body rfl rfl, raises]
  cases outcome : (body context process).1 with
  | value value =>
      simpa [Context.following, outcome, Outcome.isPanic] using Outcome.raising_eq_past ..
  | panic panic => rfl

/-- The end of a scope puts everything back, whatever it finds.  A handle that is
finished and a call whose body is over both end component by component: a crosser
with the chain and then its slot, a call with the chain and then the slots of its
types.  Every component's cell has what the component found in it, however the
others fare, and no other cell changes.  There is a warning for each component
whose cell does not hold what the component put there, in this order.  In a debug
build, on a thread that is not unwinding and after a body that did not panic, the
first of them is raised and no other; otherwise nothing is, and the outcome is
that of the body. -/
theorem ends_whatever_fails :
    (∀ (handle : Handle) (context : Context) (process : Process Client),
      (process.thread context.thread).live →
        let run : Outcome Unit × Process Client := handle.finish context process
        Ends handle.components context process run.2 (.value ()) run.1) ∧
      ∀ (snapshot : Snapshot) (body : Act Client α) (context : Context)
        (process left : Process Client) (outcome : Outcome α),
        let start := snapshot.inside context process
        let run := snapshot.run body context process
        snapshot.isEmpty = false → body start.1 start.2 = (outcome, left) →
          (left.thread context.thread).live →
            Ends (snapshot.components (process.thread context.thread))
              (context.following outcome) left run.2 outcome run.1 := by
  constructor
  · intro handle context process live run
    have ends := ensuring_ends handle.components_distinct
      (Act.pure_apply () context process) live
    rwa [Act.pure_ensuring, ← handle.finish_eq, Context.following_value] at ends
  · intro snapshot body context process left outcome start run occupied ran live
    have filled : snapshot.chain ≠ [] := by simpa [Snapshot.isEmpty] using occupied
    have split := Snapshot.run_of_occupied filled body context process
    rw [Snapshot.leave_eq] at split
    simp only [run, split]
    exact ensuring_ends (snapshot.components_distinct _) ran live

/-- An outer crosser is ended before an inner one of its type, and a call of two
types, whose body ends with a panic, is left with a crosser open and one of its
slots changed. -/
theorem ends_whatever_fails_twice :
    let log : CaptorType := ⟨"Log"⟩
    let count : CaptorType := ⟨"Count"⟩
    let context : Context := ⟨.debug, .main, false, []⟩
    let outer : Crosser := ⟨⟨.main, 0⟩, log, "outer"⟩
    let inner : Crosser := ⟨⟨.main, 1⟩, log, "inner"⟩
    let scope : CrosserScope := ⟨outer, [], ⟨.capture, log, some "outer", none⟩⟩
    let nested : Process Unit := (Process.start ()).setThread .main
      ((Thread.fresh.setChain [inner, outer]).setCurrent log (some "inner"))
    let ended : Outcome Unit × Process Unit := (Handle.crosser scope).finish context nested
    let snapshot : Snapshot := ⟨[⟨⟨.worker "w", 1⟩, count, "two"⟩, ⟨⟨.worker "w", 0⟩, log, "one"⟩]⟩
    let body : Act Unit Unit := do
      let _ ← CrosserScope.start count "open"
      Act.raise (.raised "stop")
    let called := snapshot.run body context nested
    (ended.1 = .panic (.misused (.crosser log)) ∧
      ended.2.misuses = [.crosser log, .capture log] ∧
      (ended.2.thread .main).chain = [] ∧ (ended.2.thread .main).current log = none) ∧
    called.1 = .panic (.raised "stop") ∧
      called.2.misuses = [.crosser count, .crossing count] ∧
      (called.2.thread .main).chain = [inner, outer] ∧
      (called.2.thread .main).current count = none := by
  intro log count context outer inner scope nested ended snapshot body called
  have live : (nested.thread context.thread).live := by decide
  have first := (ends_whatever_fails (α := Unit)).1 (.crosser scope) context nested live
  let start := snapshot.inside context nested
  have stillLive : ((body start.1 start.2).2.thread context.thread).live := by decide
  have second := ends_whatever_fails.2 snapshot body context nested _ _ rfl
    (Prod.eta (body start.1 start.2)).symm stillLive
  refine ⟨⟨?_, ?_, ?_, ?_⟩, ?_, ?_, ?_, ?_⟩
  · rw [first.ending, first.raises]
    decide
  · rw [first.warned]
    decide
  · exact Content.chain.inj (first.restored (.crosser scope) (by decide))
  · exact Content.captor.inj (first.restored (.slot scope.slot) (by decide))
  · rw [second.ending, second.raises]
    decide
  · rw [second.warned]
    decide
  · exact Content.chain.inj
      (second.restored (.call ⟨snapshot.chain, [inner, outer]⟩) (by decide))
  · exact Content.captor.inj
      (second.restored (.slot ⟨.crossing, count, some "two", none⟩) (by decide))

end Component

end Ambient
