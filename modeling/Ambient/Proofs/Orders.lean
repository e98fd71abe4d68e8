import Ambient.Proofs.Endings
import Ambient.Proofs.Extensional

/-!
# Orders of installing and ending

A call installs one crosser for each type on its chain, the innermost one, and
so its guards have different slots.  Whatever the order in which the crossers
are installed and the guards end, the body finds the same in every slot, every
slot is put back to the same, and the guards report the same misuses, if perhaps
in another order.  A body that sees no more than what its thread shows cannot tell
the orders apart, so whole runs of it end alike.
-/

namespace Ambient

variable {Client α : Type}

/-! ## The walk -/

namespace Chain

/-- Walk a chain outwards, and keep a crosser unless one of its type is among
the entries so far. -/
def walk (entries : List Crosser) : Chain → List Crosser
  | [] => entries
  | crosser :: outer =>
      walk (if entries.any (·.type = crosser.type) then entries else entries ++ [crosser]) outer

/-- What the walk adds are the innermost crossers of the types not met before. -/
theorem walk_eq (entries : List Crosser) (chain : Chain) :
    walk entries chain =
      entries ++ (innermost chain).filter fun crosser => ¬ entries.any (·.type = crosser.type) := by
  induction chain generalizing entries with
  | nil => simp [walk, innermost]
  | cons crosser outer ih =>
      rw [walk, ih, innermost]
      by_cases met : entries.any (·.type = crosser.type)
      · -- The crosser is skipped, and so are all others of its type.
        rw [if_pos met, List.filter_cons_of_neg (by simpa using met), List.filter_filter]
        congr 1
        apply List.filter_congr
        intro other _
        by_cases same : other.type = crosser.type
        · simp [same, met]
        · simp [same]
      · rw [if_neg met, List.filter_cons_of_pos (by simpa using met), List.filter_filter,
          List.append_assoc, List.singleton_append]
        congr 2
        apply List.filter_congr
        intro other _
        by_cases same : other.type = crosser.type
        · simp [same]
        · simp [same, Ne.symm same]

theorem innermost_eq_walk (chain : Chain) : innermost chain = walk [] chain := by
  simp [walk_eq]

/-- An entry is the crosser of its type that is nearest to the tail. -/
theorem find?_of_mem_innermost {crosser : Crosser} {chain : Chain}
    (member : crosser ∈ innermost chain) :
    chain.find? (·.type = crosser.type) = some crosser := by
  induction chain with
  | nil => simp [innermost] at member
  | cons first outer ih =>
      simp only [innermost, List.mem_cons, List.mem_filter, decide_eq_true_eq] at member
      rcases member with rfl | ⟨member, apart⟩
      · simp
      · rw [List.find?_cons_of_neg (by simpa using Ne.symm apart)]
        exact ih member

/-- The entries come in the order in which their types first occur. -/
theorem innermost_ascending (chain : Chain) :
    (innermost chain).Pairwise fun first second =>
      chain.findIdx (·.type = first.type) < chain.findIdx (·.type = second.type) := by
  induction chain with
  | nil => simp [innermost]
  | cons crosser outer ih =>
      rw [innermost, List.pairwise_cons]
      constructor
      · intro other member
        have apart : other.type ≠ crosser.type := by simpa using (List.mem_filter.mp member).2
        simp [List.findIdx_cons, Ne.symm apart]
      · refine (ih.filter _).imp_of_mem fun {first second} member later rising => ?_
        have apart : first.type ≠ crosser.type := by simpa using (List.mem_filter.mp member).2
        have apart' : second.type ≠ crosser.type := by simpa using (List.mem_filter.mp later).2
        simp only [List.findIdx_cons, Ne.symm apart, Ne.symm apart', decide_false, cond_false]
        omega

/-- What entries are to be: one for each type that occurs on a chain, the nearest
to the tail, in the order in which the types first occur. -/
structure Picks (chain : Chain) (entries : List Crosser) : Prop where
  types : ∀ type, type ∈ entries.map (·.type) ↔ type ∈ chain.map (·.type)
  nearest : ∀ crosser ∈ entries, chain.find? (·.type = crosser.type) = some crosser
  ascending : entries.Pairwise fun first second =>
    chain.findIdx (·.type = first.type) < chain.findIdx (·.type = second.type)

theorem innermost_picks (chain : Chain) : Picks chain (innermost chain) :=
  ⟨mem_innermost_types chain, fun _ => find?_of_mem_innermost, innermost_ascending chain⟩

end Chain

/-! ## Calls in any order -/

namespace Snapshot

/-- An order in which a call installs its entries, and one in which it ends the
guards that it gets. -/
structure Order (snapshot : Snapshot) where
  installing : List Crosser
  arrange : List Scope → List Scope
  installs : installing.Perm (Chain.innermost snapshot.chain)
  arranges : ∀ scopes, (arrange scopes).Perm scopes

namespace Order

variable {snapshot : Snapshot}

/-- The order of a call: entries from the last to the first, and the guards as
they have been installed. -/
def own (snapshot : Snapshot) : snapshot.Order :=
  ⟨(Chain.innermost snapshot.chain).reverse, id, List.reverse_perm _, fun _ => .refl _⟩

/-- What a call does before its body. -/
def enter (order : snapshot.Order) (innermost : Crosser) :
    Act Client (List Scope × Delegation) := do
  Act.describe (.reentered (Chain.innermost snapshot.chain).length snapshot.depth innermost.type)
  let scopes ← install order.installing
  let delegation ← Delegation.start snapshot.chain
  return (scopes, delegation)

/-- Run a body inside the captured scope, in some order. -/
def run (order : snapshot.Order) (body : Act Client α) : Act Client α :=
  match snapshot.chain with
  | [] => body
  | innermost :: _ => do
      let (scopes, delegation) ← order.enter innermost
      ((Act.holding (scopes.flatMap Scope.captors) body).ensuring
        delegation.finish).ensuring (Scope.finishAll (order.arrange scopes))

/-- A call is a run in its own order. -/
theorem run_own (body : Act Client α) : (own snapshot).run body = snapshot.run body := by
  obtain ⟨chain⟩ := snapshot
  cases chain with
  | nil => rfl
  | cons innermost outer =>
      simp only [run, enter, Snapshot.run, own, bind_assoc, pure_bind, id]

/-- The guards of a call that starts on a thread. -/
def guards (order : snapshot.Order) (before : Thread) : List Scope :=
  order.installing.map fun crosser =>
    ⟨.crossing, crosser.type, some crosser.captor, before.current crosser.type⟩

/-- Where the body takes place. -/
def inside (order : snapshot.Order) (context : Context) (process : Process Client) :
    Context × Process Client :=
  match snapshot.chain with
  | [] => (context, process)
  | innermost :: _ =>
      let scopes := order.guards (process.thread context.thread)
      ({ context with held := scopes.flatMap Scope.captors ++ context.held },
        (order.enter innermost context process).2)

/-- Give back the chain of a call that started on a thread. -/
def unlink (snapshot : Snapshot) (before : Thread) : Act Client Unit :=
  match snapshot.chain with
  | [] => pure ()
  | _ :: _ => (snapshot.delegation before).finish

/-- End the guards of a call that started on a thread. -/
def release (order : snapshot.Order) (before : Thread) : Act Client Unit :=
  Scope.finishAll (order.arrange (order.guards before))

theorem types_nodup (order : snapshot.Order) : (order.installing.map (·.type)).Nodup :=
  (order.installs.map _).nodup_iff.mpr (Chain.innermost_types_nodup snapshot.chain)

theorem enter_moves (order : snapshot.Order) (innermost : Crosser) (id : ThreadId)
    (thread : Thread) :
    (order.enter innermost : Act Client _).Moves id thread
      (order.guards thread, snapshot.delegation thread) []
      ((thread.fill (fillings order.installing)).setChain snapshot.chain) := by
  have start : (Delegation.start snapshot.chain : Act Client Delegation).Moves id _ _ _ _ :=
    Delegation.start_moves snapshot.chain id (thread.fill (fillings order.installing))
  have install : (install order.installing : Act Client (List Scope)).Moves id thread _ _ _ :=
    install_moves order.installing id thread
  rw [Thread.chain_fill] at start
  rw [installed_eq_map thread order.types_nodup] at install
  exact (Act.describe_moves id thread rfl).bind
    (install.bind (start.bind (Act.moves_pure _ id _)))

/-- Without crossers there are no guards to end. -/
theorem release_of_empty (order : snapshot.Order) (empty : snapshot.chain = []) (before : Thread) :
    (order.release before : Act Client Unit) = pure () := by
  have entries := order.installs
  rw [empty] at entries
  have guards := order.arranges (order.guards before)
  rw [Order.guards, entries.eq_nil, List.map_nil] at guards
  rw [release, Order.guards, entries.eq_nil, List.map_nil, guards.eq_nil]
  rfl

/-- A run in some order is its body at the place inside, and then the end of the
call: first the chain and then the guards. -/
theorem run_eq (order : snapshot.Order) (body : Act Client α) (context : Context)
    (process : Process Client) :
    order.run body context process =
      (Act.ensuring (fun _ => body (order.inside context process).1)
        (unlink snapshot (process.thread context.thread))).ensuring
          (order.release (process.thread context.thread)) context
          (order.inside context process).2 := by
  cases reached : snapshot.chain with
  | nil =>
      simp only [run, inside, unlink, reached, order.release_of_empty reached]
      rw [Act.ensuring_pure]
      exact (congrFun (congrFun (Act.ensuring_pure fun _ => body context) context) process).symm
  | cons innermost outer =>
      obtain ⟨entered, -⟩ := order.enter_moves innermost context.thread
        (process.thread context.thread) context process rfl rfl
      simp only [run, inside, unlink, reached]
      rw [Act.bind_of_value entered]
      rfl

/-- The slots that the body finds do not depend on the order. -/
theorem current_inside (order : snapshot.Order) (context : Context) (process : Process Client)
    (type : CaptorType) :
    ((order.inside context process).2.thread context.thread).current type =
      if (process.thread context.thread).live ∧ type ∈ snapshot.types then
        Chain.captor? type snapshot.chain
      else (process.thread context.thread).current type := by
  cases reached : snapshot.chain with
  | nil => simp [inside, reached, types]
  | cons innermost outer =>
      have entered := (order.enter_moves innermost context.thread
        (process.thread context.thread) context process rfl rfl).2.own
      have filled := current_fillings order.installs (process.thread context.thread) type
      simp only [inside, reached] at filled ⊢
      rw [entered, Thread.current_setChain, filled]

/-- The components that end when the guards do. -/
def components (order : snapshot.Order) (before : Thread) : List Component :=
  (order.arrange (order.guards before)).map .slot

theorem guards_perm (first second : snapshot.Order) (before : Thread) :
    (first.guards before).Perm (second.guards before) :=
  (first.installs.trans second.installs.symm).map _

theorem components_perm (first second : snapshot.Order) (before : Thread) :
    (first.components before).Perm (second.components before) :=
  ((first.arranges _).trans
    ((first.guards_perm second before).trans (second.arranges _).symm)).map _

theorem components_distinct (order : snapshot.Order) (before : Thread) :
    ((order.components before).map Component.cell).Nodup := by
  have slots : ((order.installing.map (·.type)).map Cell.slot).Nodup :=
    order.types_nodup.map fun _ _ same => Cell.slot.inj same
  have arranged := ((order.arranges (order.guards before)).map Component.slot).map Component.cell
  refine arranged.nodup_iff.mpr ?_
  simpa [guards, Component.cell, Function.comp_def] using slots

end Order

end Snapshot

/-- Components find the same where every cell has the same in it. -/
theorem Component.faultsAll_congr (components : List Component) {first second : Thread}
    (same : ∀ cell, first.content cell = second.content cell) :
    faultsAll components first = faultsAll components second := by
  induction components with
  | nil => rfl
  | cons component rest ih => rw [faultsAll_cons, faultsAll_cons, ih, faults_congr (same _)]

/-- Scopes of different slots do not see each other's ends. -/
theorem Scope.faultsAll_eq {scopes : List Scope}
    (distinct : ((scopes.map Component.slot).map Component.cell).Nodup) (thread : Thread) :
    faultsAll scopes thread = Component.faultsAll (scopes.map .slot) thread := by
  induction scopes generalizing thread with
  | nil => rfl
  | cons scope rest ih =>
      rcases List.nodup_cons.mp distinct with ⟨absent, distinct⟩
      rw [faultsAll, ih distinct, List.map_cons, Component.faultsAll_cons]
      exact congr (congrArg _ (Component.faults_slot scope thread).symm)
        (Component.faultsAll_closed thread absent)

/-! ## What starts and ends write -/

namespace Snapshot

/-- The registry and the records have nothing to do with slots. -/
theorem install_writes (crossers : List Crosser) (context : Context) (process : Process Client) :
    (install crossers context process).2.registry = process.registry ∧
      (install crossers context process).2.records = process.records := by
  induction crossers generalizing process with
  | nil => exact ⟨rfl, rfl⟩
  | cons crosser rest ih =>
      have started := (Scope.start_moves .crossing crosser.type (some crosser.captor)
        context.thread (process.thread context.thread) context process rfl rfl).1
      let next := (Scope.start .crossing crosser.type (some crosser.captor) context process).2
      have others := (install_moves rest context.thread (next.thread context.thread)
        context next rfl rfl).1
      rw [install, Act.bind_of_value started, Act.bind_of_value others]
      exact ih next

end Snapshot

namespace Scope

/-- The end of a scope writes its misuses and nothing else. -/
theorem finish_writes (scope : Scope) (context : Context) (process : Process Client) :
    (scope.finish context process).2.registry = process.registry ∧
      (scope.finish context process).2.log =
        process.log ++ (scope.faults (process.thread context.thread)).map .misused := by
  have replaced := (Act.replaceCurrent_moves context.thread (process.thread context.thread)
    scope.type scope.previous context process rfl rfl).1
  rw [finish, Act.bind_of_value replaced, faults]
  by_cases inOrder : (process.thread context.thread).current scope.type = scope.installed
  · rw [if_pos inOrder, if_pos inOrder]
    exact ⟨rfl, (List.append_nil _).symm⟩
  · rw [if_neg inOrder, if_neg inOrder]
    have reported (next : Process Client) :
        (Act.report scope.misuse context next).2 = next.write (.misused scope.misuse) := by
      unfold Act.report
      dsimp only
      split <;> rfl
    rw [reported]
    exact ⟨rfl, Process.log_write _ _⟩

theorem finishAll_writes (scopes : List Scope) (context : Context) (process : Process Client) :
    (finishAll scopes context process).2.registry = process.registry ∧
      (finishAll scopes context process).2.log =
        process.log ++ (faultsAll scopes (process.thread context.thread)).map .misused := by
  induction scopes generalizing context process with
  | nil => exact ⟨rfl, (List.append_nil _).symm⟩
  | cons scope rest ih =>
      rcases Act.ensuring_process scope.finish (finishAll rest) context process with
        ⟨place, here, run⟩
      rcases scope.finish_writes context process with ⟨registry, log⟩
      rcases ih place (scope.finish context process).2 with ⟨registry', log'⟩
      have own := (scope.finish_moves context.thread (process.thread context.thread)
        context process rfl rfl).2.own
      rw [finishAll, run]
      constructor
      · exact registry'.trans registry
      · rw [log', log, here, own, faultsAll, List.map_append, List.append_assoc]

end Scope

namespace Snapshot.Order

variable {snapshot : Snapshot}

/-! ## Runs in two orders -/

/-- A call is described, installs its entries, and then puts its chain in place. -/
theorem enter_eq (order : snapshot.Order) (innermost : Crosser) (context : Context)
    (process : Process Client) :
    let described := (Act.describe (.reentered (Chain.innermost snapshot.chain).length
      snapshot.depth innermost.type) context process).2
    (order.enter innermost context process).2 =
      (Delegation.start snapshot.chain context
        (install order.installing context described).2).2 := by
  intro described
  let record : Record :=
    .reentered (Chain.innermost snapshot.chain).length snapshot.depth innermost.type
  have fine : record.misuse? = none := rfl
  have describes := (Act.describe_moves context.thread (process.thread context.thread) fine
    context process rfl rfl).1
  have installs := (install_moves order.installing context.thread
    (described.thread context.thread) context described rfl rfl).1
  let installed := (install order.installing context described).2
  have starts := (Delegation.start_moves snapshot.chain context.thread
    (installed.thread context.thread) context installed rfl rfl).1
  rw [enter, Act.bind_of_value describes, Act.bind_of_value installs, Act.bind_of_value starts]
  rfl

/-- Where the body takes place shows the same in every order. -/
theorem inside_same (first second : snapshot.Order) (context : Context)
    (process : Process Client) :
    (first.inside context process).1.Same (second.inside context process).1 ∧
      (first.inside context process).2.Same (second.inside context process).2 := by
  cases reached : snapshot.chain with
  | nil =>
      simp only [inside, reached]
      exact ⟨.refl context, .refl process⟩
  | cons innermost outer =>
      simp only [inside, reached, enter_eq]
      have guards := first.guards_perm second (process.thread context.thread)
      refine ⟨(Context.Same.refl context).holding (guards.flatMap_right _), ?_⟩
      generalize (Act.describe _ context process).2 = described
      have installs (order : snapshot.Order) := (install_moves order.installing context.thread
        (described.thread context.thread) context described rfl rfl).2
      have writes (order : snapshot.Order) :=
        install_writes order.installing context described
      let here := described.thread context.thread
      have own : Thread.Same (here.fill (fillings first.installing))
          (here.fill (fillings second.installing)) :=
        { current := fun type => by
            rw [current_fillings first.installs, current_fillings second.installs]
          chain := by rw [Thread.chain_fill, Thread.chain_fill]
          opened := by rw [Thread.opened_fill, Thread.opened_fill]
          live := by rw [Thread.live_fill, Thread.live_fill] }
      have installed : Process.Same (install first.installing context described).2
          (install second.installing context described).2 :=
        { threads := (Process.Same.refl described).moved (installs first) (installs second) own
          registry := (writes first).1.trans (writes second).1.symm
          records := (writes first).2.trans (writes second).2.symm
          client := (installs first).client.trans (installs second).client.symm }
      exact (Act.Extensional.startDelegation _ (.refl context) installed).2

theorem unlink_extensional (before : Thread) :
    (unlink snapshot before : Act Client Unit).Extensional := by
  unfold unlink
  split
  · exact .pure ()
  · exact .finishDelegation _

/-- The slots that the guards put back. -/
theorem current_released (order : snapshot.Order) (before thread : Thread)
    (type : CaptorType) :
    (Scope.closedAll (order.arrange (order.guards before)) thread).current type =
      if thread.live ∧ type ∈ snapshot.types then before.current type
      else thread.current type := by
  have arranged := order.arranges (order.guards before)
  have agree : ∀ entry ∈ (order.arrange (order.guards before)).map
      fun scope => (scope.type, scope.previous), entry.2 = before.current entry.1 := by
    intro entry member
    obtain ⟨scope, listed, rfl⟩ := List.mem_map.mp member
    obtain ⟨crosser, -, rfl⟩ := List.mem_map.mp (arranged.mem_iff.mp listed)
    rfl
  have listed : type ∈ ((order.arrange (order.guards before)).map
      fun scope => (scope.type, scope.previous)).map (·.1) ↔ type ∈ snapshot.types := by
    rw [List.map_map, (arranged.map _).mem_iff, guards, List.map_map]
    exact (order.installs.map (·.type)).mem_iff.trans (Chain.mem_innermost_types _ type)
  rw [Scope.closedAll, Thread.current_fill before.current thread agree]
  simp only [listed]

/-- The thread shows the same after the end of the guards in any order. -/
theorem released_same (first second : snapshot.Order) (before : Thread) {thread other : Thread}
    (same : thread.Same other) :
    (Scope.closedAll (first.arrange (first.guards before)) thread).Same
      (Scope.closedAll (second.arrange (second.guards before)) other) where
  current type := by rw [current_released, current_released, same.live, same.current]
  chain := by
    rw [Scope.closedAll, Scope.closedAll, Thread.chain_fill, Thread.chain_fill, same.chain]
  opened := by
    rw [Scope.closedAll, Scope.closedAll, Thread.opened_fill, Thread.opened_fill, same.opened]
  live := by rw [Scope.closedAll, Scope.closedAll, Thread.live_fill, Thread.live_fill, same.live]

/-- The guards find the same misuses in any order. -/
theorem faults_perm (first second : snapshot.Order) (before : Thread) {thread other : Thread}
    (same : thread.Same other) :
    (Scope.faultsAll (first.arrange (first.guards before)) thread).Perm
      (Scope.faultsAll (second.arrange (second.guards before)) other) := by
  have shown (place : Cell) : thread.content place = other.content place := by
    cases place with
    | slot type => exact congrArg Content.captor (same.current type)
    | chain => exact congrArg Content.chain same.chain
  rw [Scope.faultsAll_eq (first.components_distinct before),
    Scope.faultsAll_eq (second.components_distinct before), ← Component.faultsAll_congr _ shown]
  exact ((first.components_perm second before).filter _).map _

/-- Two runs show the same at their ends, up to the order of the misuses that they find
last, the first of which may have been raised. -/
structure EndsAlike (run other : Outcome α × Process Client) : Prop where
  threads : ∀ id, (run.2.thread id).Same (other.2.thread id)
  registry : run.2.registry = other.2.registry
  client : run.2.client = other.2.client
  ending : ∃ (before : List Record) (found more : List Misuse), found.Perm more ∧
    run.2.log = before ++ found.map .misused ∧ other.2.log = before ++ more.map .misused ∧
    (run.1 = other.1 ∨ ∃ raised ∈ found, ∃ instead ∈ more,
      run.1 = .panic (.misused raised) ∧ other.1 = .panic (.misused instead))

/-- How the guards end after an act. -/
theorem release_ends (order : snapshot.Order) (before : Thread) (act : Act Client α)
    (context : Context) (process : Process Client) :
    let left := (act context process).2
    let last := act.ensuring (order.release before) context process
    let scopes := order.arrange (order.guards before)
    let found := Scope.faultsAll scopes (left.thread context.thread)
    Process.Moved context.thread left last.2 found
        (Scope.closedAll scopes (left.thread context.thread)) ∧
      last.2.registry = left.registry ∧ last.2.log = left.log ++ found.map .misused ∧
      last.1 = match (act context process).1 with
        | .value value => Outcome.raising context value found
        | .panic panic => .panic panic := by
  intro left last scopes found
  have moves : (order.release before : Act Client Unit).Moves context.thread _ () _ _ :=
    Scope.finishAll_moves scopes context.thread (left.thread context.thread)
  obtain ⟨place, here, run⟩ := Act.ensuring_process act (order.release before) context process
  obtain ⟨registry, log⟩ := Scope.finishAll_writes scopes place left
  rw [here] at log
  refine ⟨moves.close act rfl rfl, ?_, ?_, moves.close_outcome act rfl rfl⟩
  · exact (congrArg Process.registry run).trans registry
  · exact (congrArg Process.log run).trans log

/-- Either nothing is raised in any order, or the first misuse found in each. -/
theorem raising_perm (context : Context) {found more : List Misuse} (perm : found.Perm more)
    (outcome : Outcome α) :
    let ending (found : List Misuse) := match outcome with
      | .value value => Outcome.raising context value found
      | .panic panic => .panic panic
    ending found = ending more ∨ ∃ raised ∈ found, ∃ instead ∈ more,
      ending found = .panic (.misused raised) ∧ ending more = .panic (.misused instead) := by
  intro ending
  cases outcome with
  | panic panic => exact .inl rfl
  | value value =>
      cases found with
      | nil =>
          rw [perm.nil_eq]
          exact .inl rfl
      | cons raised rest =>
          cases more with
          | nil => exact absurd perm.eq_nil (List.cons_ne_nil raised rest)
          | cons instead others =>
              by_cases raises : context.build = .debug ∧ context.unwinding = false
              · exact .inr ⟨raised, .head _, instead, .head _, if_pos raises, if_pos raises⟩
              · exact .inl ((if_neg raises).trans (if_neg raises).symm)

theorem run_endsAlike (first second : snapshot.Order) {body : Act Client α}
    (plain : body.Extensional) (context : Context) (process : Process Client) :
    EndsAlike (first.run body context process) (second.run body context process) := by
  let before := process.thread context.thread
  obtain ⟨contexts, processes⟩ := first.inside_same second context process
  have bodies : Act.Similar (fun _ => body (first.inside context process).1)
      (fun _ => body (second.inside context process).1) :=
    fun _ _ _ _ _ processes => plain contexts processes
  obtain ⟨outcomes, left⟩ := (bodies.ensuring (unlink_extensional before)) (.refl context) processes
  rw [run_eq, run_eq]
  have own := left.threads context.thread
  obtain ⟨moved, registry, log, ending⟩ := first.release_ends before
    (Act.ensuring (fun _ => body (first.inside context process).1) (unlink snapshot before))
    context (first.inside context process).2
  obtain ⟨moved', registry', log', ending'⟩ := second.release_ends before
    (Act.ensuring (fun _ => body (second.inside context process).1) (unlink snapshot before))
    context (second.inside context process).2
  have perm := first.faults_perm second before own
  refine ⟨left.moved moved moved' (first.released_same second before own), ?_, ?_, _, _, _, perm,
    log, ?_, ?_⟩
  · rw [registry, registry', left.registry]
  · rw [moved.client, moved'.client, left.client]
  · rw [log', Process.log, Process.log, left.records]
  · rw [ending, ending', ← outcomes]
    exact raising_perm context perm _

/-- A call takes one crosser of each type on its chain, and it does not matter in
which order it installs them and ends their guards.  The entries are those of a
walk along the chain: there is one for each type that occurs, the one nearest to
the tail, and they come in the order in which their types first occur.  For any
two orders, one of which may be that of the call itself, the body finds the same
in every slot.  Whatever the body is and does, its run ends with giving back the
chain, which depends on no order, and with ending the guards.  These leave the
same in every slot and on the chain, whatever there was before, and report the
same misuses up to their order.  So the runs of a body that sees of its thread no
more than what is shown end alike in all orders. -/
theorem orders_agree (snapshot : Snapshot) :
    Chain.innermost snapshot.chain = Chain.walk [] snapshot.chain ∧
      Chain.Picks snapshot.chain (Chain.innermost snapshot.chain) ∧
      (∀ body : Act Client α, (own snapshot).run body = snapshot.run body) ∧
      ∀ (first second : snapshot.Order) (context : Context) (process : Process Client),
        let before := process.thread context.thread
        let start := first.inside context process
        (∀ type, (start.2.thread context.thread).current type =
          ((second.inside context process).2.thread context.thread).current type) ∧
        (∀ body : Act Client α,
          first.run body context process =
            (Act.ensuring (fun _ => body start.1) (unlink snapshot before)).ensuring
              (first.release before) context start.2) ∧
        (∀ body : Act Client α, body.Extensional →
          EndsAlike (first.run body context process) (second.run body context process)) ∧
        ∀ (place : Context) (left : Process Client),
          let last := (first.release before place left).2
          let other := (second.release before place left).2
          (∀ type, (last.thread place.thread).current type =
            (other.thread place.thread).current type) ∧
          (last.thread place.thread).chain = (other.thread place.thread).chain ∧
          ∃ found more : List Misuse, found.Perm more ∧
            last.misuses = left.misuses ++ found ∧ other.misuses = left.misuses ++ more := by
  refine ⟨Chain.innermost_eq_walk _, Chain.innermost_picks _, run_own, ?_⟩
  intro first second context process before start
  refine ⟨fun type => ?_, fun body => first.run_eq body context process,
    fun body plain => first.run_endsAlike second plain context process, ?_⟩
  · rw [first.current_inside, second.current_inside]
  · intro place left last other
    have ends (order : snapshot.Order) :
        Process.Moved place.thread left (order.release before place left).2 _ _ :=
      (Scope.finishAll_moves (order.arrange (order.guards before)) place.thread
        (left.thread place.thread) place left rfl rfl).2
    have shown := first.released_same second before (.refl (left.thread place.thread))
    rw [← (ends first).own, ← (ends second).own] at shown
    exact ⟨shown.current, shown.chain, _, _, first.faults_perm second before (.refl _),
      (ends first).misuses, (ends second).misuses⟩

/-- A body leaves the slots of both types filled.  The guards of a call find that in the
order in which its entries are installed, and those of another run in the opposite one. -/
theorem orders_agree_opposite :
    let log : CaptorType := ⟨"Log"⟩
    let count : CaptorType := ⟨"Count"⟩
    let snapshot : Snapshot :=
      ⟨[⟨⟨.worker "w", 1⟩, count, "two"⟩, ⟨⟨.worker "w", 0⟩, log, "one"⟩]⟩
    let opposite : snapshot.Order :=
      ⟨Chain.innermost snapshot.chain, id, .refl _, fun _ => .refl _⟩
    let body : Conduct := .andThen (.start (.capture log "own")) (.start (.capture count "own"))
    let context : Context := ⟨.debug, .main, false, []⟩
    let process : Process Desk := .start .empty
    let run := (own snapshot).run body.run context process
    let other := opposite.run body.run context process
    run.1 = .panic (.misused (.crossing log)) ∧
      run.2.misuses = [.crossing log, .crossing count] ∧
      other.1 = .panic (.misused (.crossing count)) ∧
      other.2.misuses = [.crossing count, .crossing log] ∧
      EndsAlike run other := by
  intro log count snapshot opposite body context process
  obtain ⟨-, -, -, agree⟩ := @orders_agree Desk Unit snapshot
  obtain ⟨-, -, ends, -⟩ := agree (own snapshot) opposite context process
  exact ⟨by decide +kernel, by decide +kernel, by decide +kernel, by decide +kernel,
    ends body.run body.run_extensional⟩

end Snapshot.Order

end Ambient
