import Ambient.Proofs.Guards
import Ambient.Snapshot
import Mathlib.Data.List.Nodup

/-!
# Calls inside a snapshot

A call in the context of a snapshot is taken apart here: what it installs, in
which state the body starts, and what is left once the body is over.  The last
part is the main statement: a call puts back everything that it replaced,
whatever the body did and however the call ends, and touches nothing else.
-/

namespace Ambient

variable {Client α : Type}

namespace Chain

/-- Every type on a chain has a crosser among the innermost ones. -/
theorem mem_innermost_types (chain : Chain) (type : CaptorType) :
    type ∈ (innermost chain).map (·.type) ↔ type ∈ chain.map (·.type) := by
  induction chain with
  | nil => simp [innermost]
  | cons crosser outer ih =>
      simp only [innermost, List.map_cons, List.mem_cons, ← ih, List.mem_map,
        List.mem_filter, decide_eq_true_eq]
      by_cases same : type = crosser.type
      · simp [same]
      · simp only [same, false_or]
        constructor
        · rintro ⟨other, ⟨member, -⟩, found⟩
          exact ⟨other, member, found⟩
        · rintro ⟨other, member, rfl⟩
          exact ⟨other, ⟨member, same⟩, rfl⟩

/-- The innermost crosser of a type has the captor that the walk looks for. -/
theorem captor?_of_mem_innermost {crosser : Crosser} {chain : Chain}
    (member : crosser ∈ innermost chain) :
    captor? crosser.type chain = some crosser.captor := by
  induction chain with
  | nil => simp [innermost] at member
  | cons first outer ih =>
      simp only [innermost, List.mem_cons, List.mem_filter, decide_eq_true_eq] at member
      rcases member with rfl | ⟨member, distinct⟩
      · simp [captor?]
      · simp [captor?, Ne.symm distinct, ih member]

theorem captor?_eq_none_iff (type : CaptorType) (chain : Chain) :
    captor? type chain = none ↔ type ∉ chain.map (·.type) := by
  induction chain with
  | nil => simp [captor?]
  | cons crosser outer ih =>
      by_cases same : crosser.type = type
      · simp [captor?, same]
      · simp [captor?, same, Ne.symm same, ih]

end Chain

namespace Delegation

theorem start_moves (chain : Chain) (id : ThreadId) (thread : Thread) :
    (start chain : Act Client Delegation).Moves id thread ⟨chain, thread.chain⟩ []
      (thread.setChain chain) := by
  refine (Act.hold_moves id thread chain).bind ((Act.hold_moves id _ _).bind ?_)
  exact (Act.replaceChain_moves id _ chain).bind (Act.moves_pure _ id _)

def faults (delegation : Delegation) (thread : Thread) : List Misuse :=
  if thread.chain = delegation.chain then [] else [misuse thread.chain]

theorem faults_eq_nil {delegation : Delegation} {thread : Thread} :
    delegation.faults thread = [] ↔ thread.chain = delegation.chain := by
  by_cases inOrder : thread.chain = delegation.chain <;> simp [faults, inOrder]

theorem finish_moves (delegation : Delegation) (id : ThreadId) (thread : Thread) :
    (delegation.finish : Act Client Unit).Moves id thread ()
      (delegation.faults thread) (thread.setChain delegation.previous) := by
  refine (Act.replaceChain_moves id thread _).bind ((Act.release_moves id _ _).bind ?_)
  exact (Act.release_moves id _ _).bind (Act.unless_report_moves id _ _ _)

end Delegation

namespace Snapshot

theorem capture_moves (id : ThreadId) (thread : Thread) :
    (capture : Act Client Snapshot).Moves id thread ⟨thread.chain⟩ [] thread :=
  (Act.chain_moves id thread).bind
    ((Act.hold_moves id thread _).bind (Act.moves_pure _ id thread))

theorem build_point_moves (id : ThreadId) (thread : Thread) :
    (EntryPoint.build : Act Client EntryPoint).Moves id thread ⟨⟨thread.chain⟩⟩ []
      thread :=
  (capture_moves id thread).bind (Act.moves_pure _ id thread)

/-! ## Installing -/

/-- The scopes that come from installing crossers one after the other. -/
def installed : List Crosser → Thread → List Scope
  | [], _ => []
  | crosser :: rest, thread =>
      ⟨.crossing, crosser.type, some crosser.captor, thread.current crosser.type⟩ ::
        installed rest (thread.setCurrent crosser.type (some crosser.captor))

/-- What crossers put into the slots. -/
def fillings (crossers : List Crosser) : List (CaptorType × Option CaptorId) :=
  crossers.map fun crosser => (crosser.type, some crosser.captor)

theorem install_moves (crossers : List Crosser) (id : ThreadId) (thread : Thread) :
    (install crossers : Act Client (List Scope)).Moves id thread
      (installed crossers thread) [] (thread.fill (fillings crossers)) := by
  induction crossers generalizing thread with
  | nil => exact Act.moves_pure [] id thread
  | cons crosser rest ih =>
      exact (Scope.start_moves .crossing crosser.type (some crosser.captor) id thread).bind
        ((ih _).bind (Act.moves_pure _ id _))

/-- Crossers of distinct types do not see each other's captors. -/
theorem installed_eq_map {crossers : List Crosser} (thread : Thread)
    (distinct : (crossers.map (·.type)).Nodup) :
    installed crossers thread =
      crossers.map fun crosser =>
        ⟨.crossing, crosser.type, some crosser.captor, thread.current crosser.type⟩ := by
  induction crossers generalizing thread with
  | nil => rfl
  | cons crosser rest ih =>
      simp only [List.map_cons, List.nodup_cons] at distinct
      rcases distinct with ⟨absent, distinct⟩
      simp only [installed, List.map_cons, ih _ distinct]
      congr 1
      apply List.map_congr_left
      intro other member
      have apart : crosser.type ≠ other.type := fun same =>
        absent (same ▸ List.mem_map_of_mem member)
      simp [apart]

/-! ## The parts of a call -/

/-- The types of which a snapshot has captors. -/
def types (snapshot : Snapshot) : List CaptorType :=
  snapshot.chain.map (·.type)

/-- The crossers whose captors a call installs, in the order in which it does. -/
def entries (snapshot : Snapshot) : List Crosser :=
  (Chain.innermost snapshot.chain).reverse

theorem entries_types_nodup (snapshot : Snapshot) :
    (snapshot.entries.map (·.type)).Nodup := by
  rw [entries, List.map_reverse]
  exact List.nodup_reverse.mpr (Chain.innermost_types_nodup snapshot.chain)

theorem mem_entries_types (snapshot : Snapshot) (type : CaptorType) :
    type ∈ snapshot.entries.map (·.type) ↔ type ∈ snapshot.types := by
  rw [entries, List.map_reverse, List.mem_reverse, types, Chain.mem_innermost_types]

/-- The scopes of a call that starts on a thread. -/
def guards (snapshot : Snapshot) (thread : Thread) : List Scope :=
  installed snapshot.entries thread

theorem guards_eq_map (snapshot : Snapshot) (thread : Thread) :
    snapshot.guards thread =
      snapshot.entries.map fun crosser =>
        ⟨.crossing, crosser.type, some crosser.captor, thread.current crosser.type⟩ :=
  installed_eq_map thread snapshot.entries_types_nodup

def delegation (snapshot : Snapshot) (thread : Thread) : Delegation :=
  ⟨snapshot.chain, thread.chain⟩

/-- The thread on which the body of a call starts. -/
def entered (snapshot : Snapshot) (thread : Thread) : Thread :=
  (thread.fill (fillings snapshot.entries)).setChain snapshot.chain

/-- What a call does before its body. -/
def enter (snapshot : Snapshot) (innermost : Crosser) :
    Act Client (List Scope × Delegation) := do
  Act.describe (.reentered (Chain.innermost snapshot.chain).length snapshot.depth
    innermost.type)
  let scopes ← install snapshot.entries
  let delegation ← Delegation.start snapshot.chain
  return (scopes, delegation)

theorem enter_moves (snapshot : Snapshot) (innermost : Crosser) (id : ThreadId)
    (thread : Thread) :
    (snapshot.enter innermost : Act Client _).Moves id thread
      (snapshot.guards thread, snapshot.delegation thread) []
      (snapshot.entered thread) := by
  refine (Act.describe_moves id thread rfl).bind
    ((install_moves snapshot.entries id thread).bind ?_)
  have start : (Delegation.start snapshot.chain : Act Client Delegation).Moves id _ _ _ _ :=
    Delegation.start_moves snapshot.chain id (thread.fill (fillings snapshot.entries))
  rw [Thread.chain_fill] at start
  exact start.bind (Act.moves_pure _ id _)

/-- What a call does after its body, if it started on the thread given. -/
def leave (snapshot : Snapshot) (before : Thread) : Act Client Unit :=
  (snapshot.delegation before).finish.ensuring
    (Scope.finishAll (snapshot.guards before))

/-- What the end of a call finds out of order: first the chain, then the slots. -/
def faults (snapshot : Snapshot) (before thread : Thread) : List Misuse :=
  (snapshot.delegation before).faults thread ++
    Scope.faultsAll (snapshot.guards before) (thread.setChain before.chain)

/-- A call that finds nothing out of order finds its own chain. -/
theorem chain_of_silent {snapshot : Snapshot} {before thread : Thread}
    (silent : snapshot.faults before thread = []) : thread.chain = snapshot.chain :=
  Delegation.faults_eq_nil.mp (List.append_eq_nil_iff.mp silent).1

/-- The thread after a call that started on `before`. -/
def closed (snapshot : Snapshot) (before thread : Thread) : Thread :=
  Scope.closedAll (snapshot.guards before) (thread.setChain before.chain)

theorem leave_moves (snapshot : Snapshot) (before : Thread) (id : ThreadId)
    (thread : Thread) :
    (snapshot.leave before : Act Client Unit).Moves id thread ()
      (snapshot.faults before thread) (snapshot.closed before thread) :=
  (Delegation.finish_moves _ id thread).ensuring (Scope.finishAll_moves _ id _)

/-- Where the body of a call takes place. -/
def inside (snapshot : Snapshot) (context : Context) (process : Process Client) :
    Context × Process Client :=
  match snapshot.chain with
  | [] => (context, process)
  | innermost :: _ =>
      let scopes := snapshot.guards (process.thread context.thread)
      ({ context with held := scopes.flatMap Scope.captors ++ context.held },
        (snapshot.enter innermost context process).2)

/-- The process as the body of a call leaves it. -/
def leftBy (snapshot : Snapshot) (body : Act Client α) (context : Context)
    (process : Process Client) : Process Client :=
  (body (snapshot.inside context process).1 (snapshot.inside context process).2).2

variable {snapshot : Snapshot}

theorem run_of_empty (empty : snapshot.chain = []) (body : Act Client α) :
    snapshot.run body = body := by
  unfold run
  split
  · rfl
  · simp_all

theorem inside_of_empty (empty : snapshot.chain = []) (context : Context)
    (process : Process Client) : snapshot.inside context process = (context, process) := by
  unfold inside
  split
  · rfl
  · simp_all

/-- The body of a call starts on the thread of the call, with the captors and
the chain of the snapshot. -/
theorem inside_moved (occupied : snapshot.chain ≠ []) (context : Context)
    (process : Process Client) :
    Process.Moved context.thread process (snapshot.inside context process).2 []
      (snapshot.entered (process.thread context.thread)) := by
  unfold inside
  split
  · contradiction
  · exact (snapshot.enter_moves _ _ _ context process rfl rfl).2

theorem inside_thread (snapshot : Snapshot) (context : Context)
    (process : Process Client) :
    (snapshot.inside context process).1.thread = context.thread := by
  unfold inside
  split <;> rfl

/-- The three parts of a call. -/
theorem run_eq_enter {innermost : Crosser} {outer : Chain}
    (reached : snapshot.chain = innermost :: outer) (body : Act Client α) :
    snapshot.run body =
      snapshot.enter innermost >>= fun entered =>
        ((Act.holding (entered.1.flatMap Scope.captors) body).ensuring
          entered.2.finish).ensuring (Scope.finishAll entered.1) := by
  obtain ⟨chain⟩ := snapshot
  subst reached
  simp only [enter, bind_assoc, pure_bind]
  rfl

/-- A call is its body at the place inside, and then the end of the call. -/
theorem run_of_occupied (occupied : snapshot.chain ≠ []) (body : Act Client α)
    (context : Context) (process : Process Client) :
    snapshot.run body context process =
      Act.ensuring (fun _ => body (snapshot.inside context process).1)
        (snapshot.leave (process.thread context.thread)) context
        (snapshot.inside context process).2 := by
  cases reached : snapshot.chain with
  | nil => contradiction
  | cons innermost outer =>
      obtain ⟨entered, -⟩ := snapshot.enter_moves innermost context.thread
        (process.thread context.thread) context process rfl rfl
      rw [run_eq_enter reached, Act.bind_of_value entered, Act.ensuring_assoc]
      simp only [inside, reached]
      rfl

/-- Whatever the body did, the end of the call moves the thread on from there. -/
theorem run_moved (occupied : snapshot.chain ≠ []) (body : Act Client α)
    (context : Context) (process : Process Client) :
    let left := snapshot.leftBy body context process
    Process.Moved context.thread left (snapshot.run body context process).2
      (snapshot.faults (process.thread context.thread) (left.thread context.thread))
      (snapshot.closed (process.thread context.thread)
        (left.thread context.thread)) := by
  intro left
  rw [run_of_occupied occupied]
  exact (snapshot.leave_moves _ _ _).close
    (fun _ => body (snapshot.inside context process).1) rfl rfl

theorem run_outcome (occupied : snapshot.chain ≠ []) (body : Act Client α)
    (context : Context) (process : Process Client) :
    let left := snapshot.leftBy body context process
    let start := snapshot.inside context process
    (snapshot.run body context process).1 =
      match (body start.1 start.2).1 with
      | .value value =>
          Outcome.raising context value
            (snapshot.faults (process.thread context.thread) (left.thread context.thread))
      | .panic panic => .panic panic := by
  intro left start
  rw [run_of_occupied occupied]
  exact (snapshot.leave_moves _ _ _).close_outcome
    (fun _ => body (snapshot.inside context process).1) rfl rfl

/-! ## What a call shows and what it puts back -/

/-- In whatever order the entries are installed, their captors are in scope then. -/
theorem current_fillings {crossers : List Crosser}
    (listed : crossers.Perm (Chain.innermost snapshot.chain)) (thread : Thread)
    (type : CaptorType) :
    (thread.fill (fillings crossers)).current type =
      if thread.live ∧ type ∈ snapshot.types then
        Chain.captor? type snapshot.chain
      else thread.current type := by
  have agree : ∀ entry ∈ fillings crossers,
      entry.2 = Chain.captor? entry.1 snapshot.chain := by
    intro entry member
    rcases List.mem_map.mp member with ⟨crosser, found, rfl⟩
    exact (Chain.captor?_of_mem_innermost (listed.mem_iff.mp found)).symm
  have covered : type ∈ (fillings crossers).map (·.1) ↔ type ∈ snapshot.types := by
    have same : (fillings crossers).map (·.1) = crossers.map (·.type) := by
      simp [fillings]
    rw [same, (listed.map _).mem_iff, Chain.mem_innermost_types, types]
  rw [Thread.current_fill (fun type => Chain.captor? type snapshot.chain) thread agree]
  simp only [covered]

/-- Inside a call the innermost captors of the snapshot are in scope. -/
theorem current_entered (snapshot : Snapshot) (thread : Thread) (type : CaptorType) :
    (snapshot.entered thread).current type =
      if thread.live ∧ type ∈ snapshot.types then
        Chain.captor? type snapshot.chain
      else thread.current type := by
  have listed : snapshot.entries.Perm (Chain.innermost snapshot.chain) := List.reverse_perm _
  rw [entered, Thread.current_setChain, current_fillings listed]

theorem chain_entered (snapshot : Snapshot) (thread : Thread) :
    (snapshot.entered thread).chain = if thread.live then snapshot.chain else [] := by
  simp [entered]

@[simp] theorem live_entered (snapshot : Snapshot) (thread : Thread) :
    (snapshot.entered thread).live = thread.live := by
  simp [entered]

@[simp] theorem live_closed (snapshot : Snapshot) (before thread : Thread) :
    (snapshot.closed before thread).live = thread.live := by
  simp [closed, Scope.closedAll]

@[simp] theorem opened_entered (snapshot : Snapshot) (thread : Thread) :
    (snapshot.entered thread).opened = thread.opened := by
  simp [entered]

@[simp] theorem opened_closed (snapshot : Snapshot) (before thread : Thread) :
    (snapshot.closed before thread).opened = thread.opened := by
  simp [closed, Scope.closedAll]

/-- After a call every slot that it filled has what it had before the call,
and the others have what the body left there. -/
theorem current_closed (snapshot : Snapshot) (before thread : Thread)
    (type : CaptorType) :
    (snapshot.closed before thread).current type =
      if thread.live ∧ type ∈ snapshot.types then before.current type
      else thread.current type := by
  have agree : ∀ entry ∈ (snapshot.guards before).map
      (fun scope => (scope.type, scope.previous)), entry.2 = before.current entry.1 := by
    simp [guards_eq_map]
  have covered : ((snapshot.guards before).map
      (fun scope => (scope.type, scope.previous))).map (·.1) =
        snapshot.entries.map (·.type) := by
    simp [guards_eq_map]
  rw [closed, Scope.closedAll, Thread.current_fill before.current _ agree,
    covered]
  simp only [mem_entries_types, Thread.live_setChain, Thread.current_setChain]

theorem chain_closed (snapshot : Snapshot) (before thread : Thread) :
    (snapshot.closed before thread).chain = if thread.live then before.chain else [] := by
  simp [closed, Scope.closedAll]

/-- A call puts back what it replaced, whatever its body does: after a call of
an occupied snapshot the chain is that of before, and so is the slot of every
type on the snapshot, while all other slots are as the body left them.  A call
of an empty snapshot leaves everything as the body does.  The thread has to be
live still when the body is over, since nothing can be put back into slots that
are destroyed. -/
theorem run_restores (snapshot : Snapshot) (body : Act Client α) (context : Context)
    (process : Process Client)
    (live : ((snapshot.leftBy body context process).thread context.thread).live) :
    let before := process.thread context.thread
    let left := (snapshot.leftBy body context process).thread context.thread
    let after := (snapshot.run body context process).2.thread context.thread
    (snapshot.isEmpty = false →
      after.chain = before.chain ∧
        (∀ type ∈ snapshot.types, after.current type = before.current type) ∧
        ∀ type, type ∉ snapshot.types → after.current type = left.current type) ∧
      (snapshot.isEmpty = true →
        after.chain = left.chain ∧ ∀ type, after.current type = left.current type) := by
  intro before left after
  constructor
  · intro occupied
    have occupied : snapshot.chain ≠ [] := by simpa [isEmpty] using occupied
    have closing : after = snapshot.closed before left :=
      (run_moved occupied body context process).own
    rw [closing]
    refine ⟨?_, fun type member => ?_, fun type absent => ?_⟩
    · rw [chain_closed, if_pos live]
    · rw [current_closed, if_pos ⟨live, member⟩]
    · rw [current_closed, if_neg (fun both => absent both.2)]
  · intro empty
    have empty : snapshot.chain = [] := by simpa [isEmpty] using empty
    have same : after = left := by
      simp only [after, left, run_of_empty empty, leftBy, inside_of_empty empty]
    rw [same]
    exact ⟨rfl, fun _ => rfl⟩

/-- The body leaves a crosser open and ends the scope of its caller. -/
theorem run_restores_around_misuse :
    let type : CaptorType := ⟨"Log"⟩
    let snapshot : Snapshot := ⟨[⟨⟨.worker "maker", 0⟩, type, "made"⟩]⟩
    let body : Act Unit Unit := do
      let _ ← CrosserScope.start type "left open"
      Scope.finish ⟨.capture, type, some "own", none⟩
    let context : Context := ⟨.debug, .main, false, []⟩
    let process : Process Unit :=
      (Process.start ()).setThread .main (Thread.fresh.setCurrent type (some "own"))
    let left := (snapshot.leftBy body context process).thread .main
    let after := (snapshot.run body context process).2.thread .main
    left.chain.length = 2 ∧ left.current type = none ∧
      after.chain = [] ∧ after.current type = some "own" := by
  intro type snapshot body context process left after
  have live : ((snapshot.leftBy body context process).thread context.thread).live := by
    decide
  obtain ⟨chain, slots, -⟩ :=
    (run_restores snapshot body context process live).1 rfl
  exact ⟨by decide, by decide, chain, slots type (by decide)⟩

end Snapshot

end Ambient
