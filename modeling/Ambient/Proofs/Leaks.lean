import Ambient.Proofs.Heap
import Ambient.Proofs.ThreadEndings

/-!
# What a program leaves behind

Every step leaves what it is given, at every level of nesting, so the registry counts what
the threads and the session refer to after any steps of a program.  In the end all threads
end and all registers are emptied, and what still refers to anything then is a handle that
was forgotten.
-/

namespace Ambient

open Script

namespace Script

variable {id : ThreadId} {given : List Chain} {final : Claim}

/-! ## All steps -/

namespace Step

variable {interpreter : Interpreter}

theorem repeated_neutral {body : Run Value} (neutral : Neutral id body) (count : Nat)
    (value : Value) : Neutral id (run.repeated body count value) := by
  induction count generalizing value with
  | zero => exact .value value
  | succ count ih => exact neutral.bind fun value => ih value

theorem run_neutral (careful : interpreter.Careful) (place : Place) (step : Step) :
    Neutral id (step.run interpreter place) := by
  have inside (body : List Step) : Neutral id (interpreter.body place body) :=
    careful.body place body
  cases step with
  | captor step => exact step.run_neutral careful place
  | handle step => exact step.run_neutral
  | item step => exact step.run_neutral place
  | invoke step =>
      cases step with
      | callAgain register =>
          exact fun given => Exchanges.taking place fun item _ fits =>
            InvokeStep.runCallAgain_exchanges careful place register item fits
      | callOnce register argument =>
          exact fun given => Exchanges.taking place fun item _ fits =>
            InvokeStep.runCallOnce_exchanges careful place argument item fits
      | poll register => exact careful.pollOnce id place register
      | block register => exact careful.pollUntil id place register 100 0 .null
  | make id type manner onMessage => exact makeCaptor_neutral id type manner onMessage
  | scope kind register body => exact runScope_neutral kind register (inside body)
  | deep count kind register body => exact runDeep_neutral _ kind register (inside body)
  | wrap name kind body => exact runWrap_neutral name kind body
  | call register argument body => exact runCall_neutral careful place register argument body
  | future name body => exact runFuture_neutral name body
  | localFuture name body => exact runLocalFuture_neutral name body
  | pause | await | hold | give | unknown => exact .value _
  | raise message => exact .raise _
  | sequence body => exact inside body
  | loop count body => exact repeated_neutral (inside body) count.toNat .null
  | attempt body => exact (inside body).attempt.bind fun _ => .value _
  | thread body => exact runThread_neutral careful place body
  | worker name body => exact runWorker_neutral careful place name body
  | teardown body after => exact runTeardown_neutral careful place body after

theorem runLimited_neutral (careful : interpreter.Careful) (place : Place) (step : Step) :
    Neutral id (step.runLimited interpreter place) := by
  unfold runLimited
  split
  · exact .value _
  · refine .reading fun session => ?_
    dsimp only
    split
    · exact .value _
    · exact .modifying (fun _ => ⟨rfl, rfl, rfl, rfl, Nat.le_refl _, List.Subset.refl _⟩)
        (fun _ => rfl) (run_neutral careful place step)

end Step

/-- At every level of nesting. -/
theorem Interpreter.ofLevels_careful (levels : Nat) : (ofLevels levels).Careful := by
  induction levels with
  | zero =>
      refine ⟨fun _ _ _ => .value _, fun id place future rest _ => ?_⟩
      have drops : Exchanges Session.Calm id (future.bare.drop : Run Unit)
          (future.bare.references ++ (future.outer.layers.map Snapshot.chain ++ rest)) _ _ :=
        .dropFuture future.bare
      have parts := future.references_bare.append_right rest
      rw [List.append_assoc] at parts
      refine (drops.conseq (fun _ _ known => ⟨known.1, known.2.trans parts⟩)
        (fun _ _ _ known => known) fun _ _ known => .of_calm known).bind fun _ => ?_
      exact .pure fun _ _ known => .of_calm known
  | succ levels ih =>
      exact ⟨fun id place step => .recorded place.label (step.runLimited_neutral ih place),
        fun id place future rest fine => ih.pollInside id place rest fine⟩

/-! ## Programs -/

namespace Program

theorem steps_transfers {interpreter : Interpreter} (careful : interpreter.Careful) (index : Nat)
    (program : List Step) :
    Transfers .main (steps interpreter index program) (Calm []) (fun _ => Calm []) final := by
  induction program generalizing index with
  | nil => exact .keep ()
  | cons step rest ih => exact (careful.step _ _ step []).attempt.bind fun _ => ih (index + 1)

theorem dropItems_transfers {fact : Session → Prop} (items : List Item) :
    Transfers id (dropItems items) (Given fact (items.flatMap Item.references ++ given))
      (fun _ => Given fact given) final := by
  induction items with
  | nil => exact .keep ()
  | cons item rest ih =>
      rw [List.flatMap_cons, List.append_assoc]
      exact (Transfers.drop item).bind fun _ => ih

theorem dropRegisters_transfers {known : Session} :
    Transfers id dropRegisters ((Calm given).at known)
      (fun _ => Given (fun session => session = { known with registers := .empty }) given)
      final := by
  refine Transfers.reading_at ?_
  have empties : Transfers id
      (Run.modify fun session => { session with registers := .empty }) ((Calm given).at known)
      (fun _ => Given (fun session => session = { known with registers := .empty })
        (known.registers.values.flatMap Item.references ++ given)) final := by
    refine .modify ?_
    rintro session own neat ⟨rfl, calm, order⟩
    refine ⟨⟨List.nodup_nil, nofun, neat.handles, neat.named, neat.futures, neat.kept⟩,
      ⟨Nat.le_refl _, List.Subset.refl _, fun _ _ => rfl, fun _ _ => rfl⟩, _, ⟨rfl, .refl _⟩, ?_⟩
    refine (order.append_left session.references).trans ?_
    rw [Session.references, List.append_assoc]
    exact List.perm_append_comm_assoc _ _ _
  exact empties.bind fun _ => dropItems_transfers _

end Program

end Script

namespace Process

variable {process : Process Session} {past : List ThreadId}

/-- The registry counts what there is, and some threads have ended. -/
structure Closed (past : List ThreadId) (process : Process Session) : Prop where
  accounted : process.Accounted [] []
  calm : process.client.Calm
  torn : ∀ id ∈ past, (process.thread id).live = false
  emptied : ∀ id ∈ past, process.client.Emptied id

theorem Closed.of_subset (closed : process.Closed past) {fewer : List ThreadId}
    (subset : fewer ⊆ past) : process.Closed fewer :=
  ⟨closed.accounted, closed.calm, fun id member => closed.torn id (subset member),
    fun id member => closed.emptied id (subset member)⟩

theorem Closed.endThread (closed : process.Closed past) (context : Context)
    (attends : process.client.Attends [] context.thread) :
    ∃ last, Script.endThread context process = (.value (), last) ∧
      last.Closed (context.thread :: past) ∧ last.client.workers = process.client.workers := by
  let id := context.thread
  let empty := Given (fun session => ∃ futures : Table String Future, futures.keys = [] ∧
    Session.Having id process.client [] futures session) []
  have tears : Tears id (endLeftovers >>= fun _ => Act.tearDown >>= fun _ => pure ())
      ((Calm []).at process.client) (fun _ => empty) Never :=
    .around endLeftovers_transfers fun _ => .keep ()
  have same : (endLeftovers >>= fun _ => Act.tearDown >>= fun _ => pure ()) = Script.endThread := by
    simp only [bind_pure_unit]
    rfl
  rw [same] at tears
  obtain ⟨went, torn⟩ := tears [] [] context process rfl attends
    ⟨[], ⟨rfl, closed.calm, .refl _⟩, closed.accounted⟩
  cases run : Script.endThread context process with
  | mk outcome last =>
      rw [run] at went torn
      cases outcome with
      | panic panic => exact (went.panic panic rfl).elim fun _ fact => fact.1.elim
      | value ended =>
          obtain ⟨left, ⟨⟨futures, gone, having⟩, order⟩, still⟩ := went.value ended rfl
          obtain rfl := order.eq_nil
          refine ⟨last, rfl, ⟨still, having.calm, fun other member => ?_, fun other member => ?_⟩,
            having.workers⟩
          · rcases List.mem_cons.mp member with rfl | before
            · exact torn
            · exact went.grown.torn other (closed.torn other before)
          · by_cases own : id = other
            · subst own
              exact ⟨having.calm, having.handles, having.futures ▸ gone⟩
            · have before := closed.emptied other
                ((List.mem_cons.mp member).resolve_left (Ne.symm own))
              exact ⟨having.calm, (having.own.handles other own).trans before.handles,
                (congrArg Table.keys (having.own.futures other own)).trans before.futures⟩

theorem Closed.endWorkers {names : List String} (closed : process.Closed past) (context : Context)
    (started : ∀ name ∈ names, name ∈ process.client.workers) :
    ∃ last, Program.endWorkers names context process = (.value (), last) ∧
      last.Closed (names.map ThreadId.worker ++ past) ∧
        last.client.workers = process.client.workers := by
  induction names generalizing process past with
  | nil => exact ⟨process, rfl, closed, rfl⟩
  | cons name rest ih =>
      obtain ⟨next, ended, still, workers⟩ := closed.endThread
        { context with thread := .worker name, unwinding := false } (started name (.head _))
      obtain ⟨last, ends, after, same⟩ := ih still fun other member =>
        workers ▸ started other (.tail _ member)
      have worker : Act.onThread (.worker name) Script.endThread context process =
          (.value (.value ()), next) := by
        rw [Act.onThread, Act.attempt, ended]
      refine ⟨last, ?_, after.of_subset List.perm_middle.symm.subset, same.trans workers⟩
      rw [Program.endWorkers, Act.bind_apply, worker]
      exact ends

/-- No thread and no register has anything any more. -/
structure Deserted (process : Process Session) : Prop where
  accounted : process.Accounted [] []
  registers : process.client.registers = .empty
  quiet : ∀ id, process.Quiet id

/-- Once all threads have ended and all registers are empty, nothing has anything. -/
theorem Closed.dropRegisters (closed : process.Closed past) (context : Context)
    (attends : process.client.Attends [] context.thread)
    (all : ∀ id, process.client.Attends [] id → id ∈ past) :
    ∃ last, Program.dropRegisters context process = (.value (), last) ∧ last.Deserted := by
  have went : Transferred [] process [] _ Never _ :=
    Program.dropRegisters_transfers [] [] context process rfl attends
      ⟨[], ⟨rfl, closed.calm, .refl _⟩, closed.accounted⟩
  cases run : Program.dropRegisters context process with
  | mk outcome last =>
      rw [run] at went
      cases outcome with
      | panic panic => exact (went.panic panic rfl).elim fun _ fact => fact.1.elim
      | value ended =>
          obtain ⟨left, ⟨same, order⟩, still⟩ := went.value ended rfl
          obtain rfl := order.eq_nil
          refine ⟨last, rfl, still, by rw [same], fun id => ?_⟩
          by_cases attended : process.client.Attends [] id
          · have emptied := closed.emptied id (all id attended)
            refine still.quiet (went.grown.torn id (closed.torn id (all id attended))) ?_
            rw [same]
            exact ⟨emptied.calm, emptied.handles, emptied.futures⟩
          · refine still.idle id ?_
            rw [same]
            exact attended

end Process

/-- The captors that a handle refers to itself or through a chain. -/
def Handle.reached (handle : Handle) : List CaptorId :=
  handle.captors ++ handle.references.flatMap fun chain => chain.map Crosser.captor

namespace Process.Deserted

variable {process : Process Session} (deserted : process.Deserted)
include deserted

theorem thread_bare {thread : Thread} (member : thread ∈ process.threads.values) :
    thread.Bare := by
  obtain ⟨id, found⟩ := Table.find?_of_mem_values deserted.accounted.custody.distinct member
  have here : process.thread id = thread := by rw [Process.thread, found, Option.getD_some]
  exact here ▸ (deserted.quiet id).thread

theorem named_eq_nil {named : List (String × Handle)}
    (member : named ∈ process.client.handles.values) : named = [] := by
  obtain ⟨id, found⟩ := Table.find?_of_mem_values deserted.accounted.neat.handles member
  have here : process.client.handlesOf id = named := by
    rw [Session.handlesOf, found, Option.getD_some]
  exact here ▸ (deserted.quiet id).handles

theorem futures_eq_nil {futures : Table String Future}
    (member : futures ∈ process.client.futures.values) : futures.values = [] := by
  obtain ⟨id, found⟩ := Table.find?_of_mem_values deserted.accounted.neat.futures member
  have here : process.client.futuresOf id = futures := by
    rw [Session.futuresOf, found, Option.getD_some]
  have none := (deserted.quiet id).futures
  rw [here] at none
  exact List.map_eq_nil_iff.mpr (List.map_eq_nil_iff.mp none)

theorem references_eq :
    process.client.references = process.client.forgotten.flatMap Handle.references := by
  have named : process.client.handles.values.flatMap Session.handleReferences = [] :=
    List.flatMap_eq_nil_iff.mpr fun named member => by
      rw [deserted.named_eq_nil member, Session.handleReferences, List.flatMap_nil]
  have kept : process.client.futures.values.flatMap Session.futureReferences = [] :=
    List.flatMap_eq_nil_iff.mpr fun futures member => by
      rw [Session.futureReferences, deserted.futures_eq_nil member, List.flatMap_nil]
  rw [Session.references, deserted.registers, named, kept]
  rfl

theorem captors_eq :
    process.client.captors = process.client.forgotten.flatMap Handle.captors := by
  have named : process.client.handles.values.flatMap
      (fun named => named.flatMap fun entry => entry.2.captors) = [] :=
    List.flatMap_eq_nil_iff.mpr fun named member => by
      rw [deserted.named_eq_nil member, List.flatMap_nil]
  have kept : process.client.futures.values.flatMap
      (fun futures => futures.values.flatMap fun future => future.held.flatMap Handle.captors) =
        [] :=
    List.flatMap_eq_nil_iff.mpr fun futures member => by
      rw [deserted.futures_eq_nil member, List.flatMap_nil]
  rw [Session.captors, deserted.registers, named, kept]
  rfl

theorem mem_registered_iff (captor : CaptorId) :
    captor ∈ process.registry.captors ↔ ∃ handle ∈ process.client.forgotten,
      captor ∈ handle.references.flatMap fun chain => chain.map Crosser.captor := by
  have counts := deserted.accounted.custody.counts
  rw [List.append_nil, deserted.references_eq] at counts
  rw [counts.mem_captors]
  constructor
  · rintro ⟨chain, given, crosser, on, rfl⟩
    rcases List.mem_append.mp given with own | has
    · obtain ⟨thread, member, rfl⟩ := List.mem_map.mp own
      rw [(deserted.thread_bare member).chain] at on
      contradiction
    · obtain ⟨handle, member, has⟩ := List.mem_flatMap.mp has
      exact ⟨handle, member, List.mem_flatMap.mpr ⟨chain, has, List.mem_map_of_mem on⟩⟩
  · rintro ⟨handle, member, reached⟩
    obtain ⟨chain, has, on⟩ := List.mem_flatMap.mp reached
    obtain ⟨crosser, on, same⟩ := List.mem_map.mp on
    exact ⟨chain, List.mem_append_right _ (List.mem_flatMap.mpr ⟨handle, member, has⟩), crosser, on,
      same⟩

/-- What is alive is what forgotten handles refer to. -/
theorem mem_alive_iff (captor : CaptorId) :
    captor ∈ process.threads.values.flatMap (fun thread => thread.slots.values) ++
        (process.client.captors ++ process.registry.captors) ↔
      ∃ handle ∈ process.client.forgotten, captor ∈ handle.reached := by
  have slots : process.threads.values.flatMap (fun thread => thread.slots.values) = [] :=
    List.flatMap_eq_nil_iff.mpr fun thread member => by
      rw [(deserted.thread_bare member).slots]
      rfl
  rw [slots, List.nil_append, List.mem_append, deserted.captors_eq, List.mem_flatMap,
    deserted.mem_registered_iff]
  simp only [Handle.reached, List.mem_append, and_or_left, exists_or]

end Process.Deserted

namespace Script.Program

/-- The steps of a program come to their end, and all that is left then belongs to a thread
or to the session. -/
theorem steps_closed (build : Build) (program : List Step) :
    ∃ last, steps Interpreter.standard 0 program ⟨build, .main, false, []⟩
      (Process.start Session.start) = (.value (), last) ∧ last.Closed [] := by
  let context : Context := ⟨build, .main, false, []⟩
  have careful : Interpreter.standard.Careful := Interpreter.ofLevels_careful _
  have ran : Transferred [] _ [] (fun _ => Calm []) Never _ :=
    steps_transfers careful 0 program [] [] context (Process.start Session.start) rfl trivial
      ⟨[], ⟨rfl, .refl _⟩, Process.start_accounted⟩
  cases run : steps Interpreter.standard 0 program context (Process.start Session.start) with
  | mk outcome last =>
      rw [run] at ran
      cases outcome with
      | panic panic => exact (ran.panic panic rfl).elim fun _ fact => fact.1.elim
      | value done =>
          obtain ⟨left, ⟨calm, order⟩, accounted⟩ := ran.value done rfl
          obtain rfl := order.eq_nil
          exact ⟨last, rfl, accounted, calm, nofun, nofun⟩

/-- After any steps, the captors of all chains that a thread or the session refers to are
there, and the registry counts just these references. -/
theorem steps_counts (build : Build) (program : List Step) :
    let last := (steps Interpreter.standard 0 program ⟨build, .main, false, []⟩
      (Process.start Session.start)).2
    last.registry.Counts (last.chains ++ last.client.references) ∧
      ∀ chain ∈ last.chains ++ last.client.references, ∀ crosser ∈ chain,
        crosser.captor ∈ last.registry.captors := by
  obtain ⟨last, ran, closed⟩ := steps_closed build program
  have counts := closed.accounted.custody.counts
  rw [List.append_nil] at counts
  rw [ran]
  exact ⟨counts, fun chain given crosser on =>
    counts.mem_captors.mpr ⟨chain, given, crosser, on, rfl⟩⟩

/-- A program comes to its end, and the captors that are alive then are those that forgotten
handles refer to. -/
theorem run_leaves_forgotten (build : Build) (program : List Step) :
    ∃ last, act program ⟨build, .main, false, []⟩ (Process.start Session.start) =
        (.value (run build program).leaked, last) ∧
      ∀ captor, captor ∈ (run build program).leaked ↔
        ∃ handle ∈ last.client.forgotten, captor ∈ handle.reached := by
  let context : Context := ⟨build, .main, false, []⟩
  obtain ⟨first, steps, begun⟩ := steps_closed build program
  obtain ⟨second, workers, closed, same⟩ := begun.endWorkers context fun _ listed => listed
  obtain ⟨third, main, closed, still⟩ := closed.endThread context trivial
  obtain ⟨last, emptied, deserted⟩ := closed.dropRegisters context trivial fun id attends => by
    cases id with
    | main => exact .head _
    | worker name =>
        have listed : name ∈ first.client.workers := same ▸ still ▸ attends
        exact .tail _ (List.mem_append_left _ (List.mem_map_of_mem listed))
    | spawned index => exact nomatch attends.1
  have ends : act program context (Process.start Session.start) = Run.alive context last := by
    rw [act, Act.bind_of_value (congrArg Prod.fst steps), steps]
    change (endWorkers first.client.workers >>= fun _ => endThread >>= fun _ =>
      dropRegisters >>= fun _ => Run.alive) context first = _
    rw [Act.bind_of_value (congrArg Prod.fst workers), workers,
      Act.bind_of_value (congrArg Prod.fst main), main,
      Act.bind_of_value (congrArg Prod.fst emptied), emptied]
  have leaked : act program context (Process.start Session.start) =
      (.value (run build program).leaked, last) := by
    rw [run, ends]
    rfl
  refine ⟨last, leaked, fun captor => ?_⟩
  rw [run, ends]
  exact mem_sortNames.trans (deserted.mem_alive_iff captor)

end Script.Program

end Ambient
